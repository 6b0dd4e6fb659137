import Mathlib.Data.List.TakeDrop
import Mathlib.Data.List.TakeWhile
import Sapling.Grammar.Rule

/-! The texts that describe rules. Such a text names one symbol, blanks around it, and then has an equals
sign or an arrow before what replaces the symbol. An equals sign anywhere takes precedence over the arrow, so
behind an arrow there can be none. -/
namespace Sapling

/-! ## Blanks around a text -/

namespace Text

/-- All characters are blank. -/
def Blanks (text : List Char) : Prop := ∀ c ∈ text, isBlank c

private theorem trimStart_eq_iff {text rest : List Char} : trimStart text = rest ↔
    ∃ before, Blanks before ∧ text = before ++ rest ∧ ∀ c ∈ rest.head?, isBlank c = false := by
  constructor
  · rintro rfl
    refine ⟨text.takeWhile isBlank, fun c => List.mem_takeWhile_imp,
      List.takeWhile_append_dropWhile.symm, fun c first => ?_⟩
    have visible := List.head?_dropWhile_not isBlank text
    have first : (text.dropWhile isBlank).head? = some c := first
    rwa [first] at visible
  · rintro ⟨before, blank, rfl, visible⟩
    rw [trimStart, List.dropWhile_append_of_pos blank]
    cases rest with
    | nil => rfl
    | cons c rest => rw [List.dropWhile_cons, visible c rfl, if_neg Bool.false_ne_true]

private theorem trimEnd_eq_iff {text rest : List Char} : trimEnd text = rest ↔
    ∃ after, Blanks after ∧ text = rest ++ after ∧ ∀ c ∈ rest.getLast?, isBlank c = false := by
  have turned : trimEnd text = rest ↔ trimStart text.reverse = rest.reverse :=
    List.reverse_eq_iff
  rw [turned, trimStart_eq_iff, List.head?_reverse]
  constructor
  · rintro ⟨before, blank, whole, visible⟩
    refine ⟨before.reverse, fun c held => blank c (List.mem_reverse.mp held), ?_, visible⟩
    rw [← List.reverse_inj, whole]
    simp
  · rintro ⟨after, blank, rfl, visible⟩
    exact ⟨after.reverse, fun c held => blank c (List.mem_reverse.mp held), List.reverse_append, visible⟩

/-- Trimming takes away all blanks around a text, and nothing else. -/
theorem trim_eq_iff {text core : List Char} : trim text = core ↔
    ∃ before after, Blanks before ∧ Blanks after ∧ text = before ++ core ++ after ∧
      (∀ c ∈ core.head?, isBlank c = false) ∧ ∀ c ∈ core.getLast?, isBlank c = false := by
  rw [trim, trimEnd_eq_iff]
  constructor
  · rintro ⟨after, blank', rest, visible'⟩
    obtain ⟨before, blank, whole, visible⟩ := trimStart_eq_iff.mp rest
    refine ⟨before, after, blank, blank', by rw [whole, List.append_assoc], fun c first => ?_, visible'⟩
    exact visible c (by rw [List.head?_append, first]; rfl)
  · rintro ⟨before, after, blank, blank', rfl, visible, visible'⟩
    cases core with
    | nil =>
      -- all is blank, so nothing is left before the end of the text is looked at
      have gone : trimStart (before ++ [] ++ after) = [] := by
        rw [trimStart, List.append_nil, List.dropWhile_eq_nil_iff]
        exact List.forall_mem_append.mpr ⟨blank, blank'⟩
      exact ⟨[], nofun, gone, nofun⟩
    | cons c core =>
      exact ⟨after, blank', trimStart_eq_iff.mpr ⟨before, blank, List.append_assoc .., visible⟩, visible'⟩

theorem trim_eq_singleton_iff {text : List Char} {c : Char} : trim text = [c] ↔
    ∃ before after, Blanks before ∧ Blanks after ∧ text = before ++ c :: after ∧ isBlank c = false := by
  simp [trim_eq_iff]

/-- A character between blanks that is not blank itself. -/
theorem eq_of_visible {before after : List Char} {c d : Char} (blank : Blanks before)
    (blank' : Blanks after) (visible : isBlank d = false) (held : d ∈ before ++ c :: after) : d = c := by
  have notBlank : ¬ isBlank d := Bool.eq_false_iff.mp visible
  rcases List.mem_append.mp held with held | held
  · exact absurd (blank d held) notBlank
  · rcases List.mem_cons.mp held with same | held
    · exact same
    · exact absurd (blank' d held) notBlank

end Text

namespace Rule

/-! ## Signs -/

/-- A text is divided at its first equals sign. -/
theorem splitEquals?_eq_some_iff {text left right : Word} :
    splitEquals? text = some (left, right) ↔ '=' ∉ left ∧ text = left ++ '=' :: right := by
  have divided : splitEquals? text = (text.dropWhile (· != '=')).tail?.map
      fun rest => (text.takeWhile (· != '='), rest) := by
    rw [splitEquals?, List.span_eq_takeWhile_dropWhile]
    cases text.dropWhile (· != '=') <;> rfl
  rw [divided]
  constructor
  · intro found
    have whole := List.takeWhile_append_dropWhile (p := (· != '=')) (l := text)
    have sign := List.head?_dropWhile_not (· != '=') text
    cases behind : text.dropWhile (· != '=') with
    | nil => rw [behind] at found; cases found
    | cons c rest =>
      rw [behind] at found whole sign
      obtain ⟨rfl, rfl⟩ := Prod.mk.inj (Option.some.inj found)
      obtain rfl : c = '=' := by simpa using sign
      exact ⟨fun held => by simpa using List.mem_takeWhile_imp held, whole.symm⟩
  · rintro ⟨lacks, rfl⟩
    have before : ∀ c ∈ left, (c != '=') = true := fun c held => by
      simpa using ne_of_mem_of_not_mem held lacks
    rw [List.takeWhile_append_of_pos before, List.dropWhile_append_of_pos before]
    simp

private theorem splitEquals?_eq_none_iff {text : Word} : splitEquals? text = none ↔ '=' ∉ text := by
  constructor
  · intro unfound held
    obtain ⟨left, right, rfl, lacks⟩ := List.eq_append_cons_of_mem held
    rw [splitEquals?_eq_some_iff.mpr ⟨lacks, rfl⟩] at unfound
    cases unfound
  · intro lacks
    by_contra found
    obtain ⟨⟨left, right⟩, found⟩ := Option.ne_none_iff_exists'.mp found
    obtain ⟨-, rfl⟩ := splitEquals?_eq_some_iff.mp found
    exact lacks (by simp)

/-- No other symbol than an equals sign has one around it. -/
theorem equals_not_mem {before after : Word} {symbol : Char} (blank : Text.Blanks before)
    (blank' : Text.Blanks after) (noSign : symbol ≠ '=') : '=' ∉ before ++ symbol :: after :=
  fun held => noSign (Text.eq_of_visible blank blank' rfl held).symm

/-- One symbol is no arrow. -/
theorem lacks_of_blanks {before after : Word} (blank : Text.Blanks before) (blank' : Text.Blanks after)
    (symbol : Char) : '-' ∉ before ++ symbol :: after ∨ '>' ∉ before ++ symbol :: after := by
  by_contra both
  rw [not_or, not_not, not_not] at both
  have dash := Text.eq_of_visible blank blank' rfl both.1
  have tip := Text.eq_of_visible blank blank' rfl both.2
  exact absurd (dash.trans tip.symm) (by decide)

private theorem eq_of_splitArrow? {text left right : Word} (found : splitArrow? text = some (left, right)) :
    text = left ++ '-' :: '>' :: right := by
  fun_induction splitArrow? text generalizing left with
  | case1 right' =>
    obtain ⟨rfl, rfl⟩ := Prod.mk.inj (Option.some.inj found)
    rfl
  | case2 c rest noArrow ih =>
    obtain ⟨⟨front, _⟩, found', same⟩ := Option.map_eq_some_iff.mp found
    obtain ⟨rfl, rfl⟩ := Prod.mk.inj same
    rw [ih found']
    rfl
  | case3 => cases found

/-- A text is divided at an arrow behind a part that lacks one of its two characters. -/
theorem splitArrow?_of_lacks {left : Word} (lacks : '-' ∉ left ∨ '>' ∉ left) (right : Word) :
    splitArrow? (left ++ '-' :: '>' :: right) = some (left, right) := by
  induction left with
  | nil => rfl
  | cons c left ih =>
    have lacks' : '-' ∉ left ∨ '>' ∉ left := lacks.imp (mt (List.mem_cons_of_mem c))
      (mt (List.mem_cons_of_mem c))
    have noArrow : ∀ rest, c = '-' → left ++ '-' :: '>' :: right = '>' :: rest → False := by
      rintro rest rfl same
      cases left with
      | nil => cases same
      | cons d left =>
        obtain ⟨rfl, -⟩ := List.cons.inj same
        rcases lacks with noDash | noTip
        · exact noDash List.mem_cons_self
        · exact noTip (by simp)
    rw [List.cons_append, splitArrow?, ih lacks']
    · rfl
    · exact noArrow

/-! ## Rules -/

/-- What a text must be to describe a rule. -/
inductive Described : Word → Rule → Prop where
  | equals {before after : Word} {symbol : Char} (blank : Text.Blanks before) (blank' : Text.Blanks after)
      (visible : Text.isBlank symbol = false) (noSign : symbol ≠ '=') (right : Word) :
      Described (before ++ symbol :: after ++ '=' :: right) ⟨symbol, Text.trim right⟩
  | arrow {before after : Word} {symbol : Char} (blank : Text.Blanks before) (blank' : Text.Blanks after)
      (visible : Text.isBlank symbol = false) (noSign : symbol ≠ '=') {right : Word} (plain : '=' ∉ right) :
      Described (before ++ symbol :: after ++ '-' :: '>' :: right) ⟨symbol, Text.trim right⟩

private theorem Described.symbol {text : Word} {rule : Rule} (described : Described text rule) :
    Text.isBlank rule.symbol = false ∧ rule.symbol ≠ '=' := by
  cases described with
  | equals _ _ visible noSign => exact ⟨visible, noSign⟩
  | arrow _ _ visible noSign => exact ⟨visible, noSign⟩

private theorem parse_of_split {text left right : Word} {symbol : Char}
    (split : (splitEquals? text).or (splitArrow? text) = some (left, right))
    (trimmed : Text.trim left = [symbol]) : parse text = .ok ⟨symbol, Text.trim right⟩ := by
  simp only [parse, split, trimmed]

private theorem split_of_parse {text : Word} {rule : Rule} (read : parse text = .ok rule) :
    ∃ left right, (splitEquals? text).or (splitArrow? text) = some (left, right) ∧
      Text.trim left = [rule.symbol] ∧ rule = ⟨rule.symbol, Text.trim right⟩ := by
  unfold parse at read
  split at read
  · cases read
  · rename_i left right sides
    split at read
    · rename_i symbol trimmed
      obtain rfl := Except.ok.inj read
      exact ⟨left, right, sides, trimmed, rfl⟩
    · cases read

/-- A fault names the text as it is. -/
theorem eq_malformedRule_of_parse {text : Word} {fault : ConfigError} (refused : parse text = .error fault) :
    fault = .malformedRule text := by
  unfold parse at refused
  split at refused
  · exact (Except.error.inj refused).symm
  · split at refused
    · cases refused
    · exact (Except.error.inj refused).symm

private theorem described_of_parse {text : Word} {rule : Rule} (read : parse text = .ok rule) :
    Described text rule := by
  obtain ⟨left, right, split, trimmed, same⟩ := split_of_parse read
  obtain ⟨before, after, blank, blank', rfl, visible⟩ := Text.trim_eq_singleton_iff.mp trimmed
  rw [same]
  rcases Option.or_eq_some_iff.mp split with found | ⟨unfound, found⟩
  · obtain ⟨lacks, rfl⟩ := splitEquals?_eq_some_iff.mp found
    refine .equals blank blank' visible (fun sign => lacks ?_) right
    simp [sign]
  · have lacks := splitEquals?_eq_none_iff.mp unfound
    obtain rfl := eq_of_splitArrow? found
    refine .arrow blank blank' visible (fun sign => lacks ?_) (fun held => lacks ?_)
    · simp [sign]
    · simp [held]

theorem parse_of_described {text : Word} {rule : Rule} (described : Described text rule) :
    parse text = .ok rule := by
  cases described with
  | @equals before after symbol blank blank' visible noSign right =>
    have lacks := equals_not_mem blank blank' noSign
    refine parse_of_split ?_
      (Text.trim_eq_singleton_iff.mpr ⟨before, after, blank, blank', rfl, visible⟩)
    rw [splitEquals?_eq_some_iff.mpr ⟨lacks, rfl⟩, Option.some_or]
  | @arrow before after symbol blank blank' visible noSign right plain =>
    have lacks : '=' ∉ before ++ symbol :: after ++ '-' :: '>' :: right := by
      intro held
      rcases List.mem_append.mp held with held | held
      · exact equals_not_mem blank blank' noSign held
      · exact plain (by simpa using held)
    refine parse_of_split ?_
      (Text.trim_eq_singleton_iff.mpr ⟨before, after, blank, blank', rfl, visible⟩)
    rw [splitEquals?_eq_none_iff.mpr lacks, Option.none_or,
      splitArrow?_of_lacks (lacks_of_blanks blank blank' symbol)]

private theorem parse_eq_error_iff {text : Word} {fault : ConfigError} : parse text = .error fault ↔
    fault = .malformedRule text ∧ ∀ rule, ¬ Described text rule := by
  constructor
  · intro refused
    refine ⟨eq_malformedRule_of_parse refused, fun rule described => ?_⟩
    rw [parse_of_described described] at refused
    cases refused
  · rintro ⟨rfl, undescribed⟩
    cases outcome : parse text with
    | ok rule => exact absurd (described_of_parse outcome) (undescribed rule)
    | error fault => rw [eq_malformedRule_of_parse outcome]

/-- With an equals sign behind an arrow, a text would have the arrow in front of that sign. -/
theorem parse_of_equals_behind_arrow {front right : Word} (held : '=' ∈ right) (noSign : '=' ∉ front) :
    parse (front ++ '-' :: '>' :: right) = .error (.malformedRule (front ++ '-' :: '>' :: right)) := by
  obtain ⟨middle, rest, rfl, noSign'⟩ := List.eq_append_cons_of_mem held
  have split : splitEquals? (front ++ '-' :: '>' :: (middle ++ '=' :: rest)) =
      some (front ++ '-' :: '>' :: middle, rest) := by
    rw [splitEquals?_eq_some_iff]
    exact ⟨by simp [noSign, noSign'], by simp⟩
  refine parse_eq_error_iff.mpr ⟨rfl, fun rule described => ?_⟩
  obtain ⟨left, right, split', trimmed, -⟩ := split_of_parse (parse_of_described described)
  rw [split, Option.some_or] at split'
  obtain ⟨rfl, -⟩ := Prod.mk.inj (Option.some.inj split')
  obtain ⟨before, after, blank, blank', sides, -⟩ := Text.trim_eq_singleton_iff.mp trimmed
  -- what is left of the sign holds the whole arrow, so it is more than one symbol
  have lacks := sides ▸ lacks_of_blanks blank blank' rule.symbol
  simp at lacks

/-- The texts of rules. A symbol with blanks around it and an equals sign behind it makes a rule of whatever
follows, without the blanks around that, if and only if it is neither blank nor an equals sign. With an arrow
it does if and only if, besides, there is no equals sign in what follows; where there is one, the text is
refused. All other texts are refused, and each fault names the text as it is. -/
theorem texts_of_rules (before after : Word) (blank : Text.Blanks before) (blank' : Text.Blanks after)
    (symbol : Char) (right : Word) :
    let equals := before ++ symbol :: after ++ '=' :: right
    let arrow := before ++ symbol :: after ++ '-' :: '>' :: right
    (parse equals = .ok ⟨symbol, Text.trim right⟩ ↔ Text.isBlank symbol = false ∧ symbol ≠ '=') ∧
    (parse arrow = .ok ⟨symbol, Text.trim right⟩ ↔
      Text.isBlank symbol = false ∧ symbol ≠ '=' ∧ '=' ∉ right) ∧
    (symbol ≠ '=' → '=' ∈ right → parse arrow = .error (.malformedRule arrow)) ∧
    (∀ text, (∃ rule, parse text = .ok rule) → ∃ symbol before after right,
      Text.isBlank symbol = false ∧ symbol ≠ '=' ∧ Text.Blanks before ∧ Text.Blanks after ∧
      (text = before ++ symbol :: after ++ '=' :: right ∨
        text = before ++ symbol :: after ++ '-' :: '>' :: right ∧ '=' ∉ right)) ∧
    ∀ text fault, parse text = .error fault → fault = .malformedRule text := by
  intro equals arrow
  have refused (noSign : symbol ≠ '=') (held : '=' ∈ right) :
      parse arrow = .error (.malformedRule arrow) :=
    parse_of_equals_behind_arrow held (equals_not_mem blank blank' noSign)
  refine ⟨⟨fun read => (described_of_parse read).symbol, ?_⟩, ⟨fun read => ?_, ?_⟩, refused, ?_,
    fun text fault => eq_malformedRule_of_parse⟩
  · rintro ⟨visible, noSign⟩
    exact parse_of_described (.equals blank blank' visible noSign right)
  · obtain ⟨visible, noSign⟩ := (described_of_parse read).symbol
    refine ⟨visible, noSign, fun held => ?_⟩
    rw [refused noSign held] at read
    cases read
  · rintro ⟨visible, noSign, plain⟩
    exact parse_of_described (.arrow blank blank' visible noSign plain)
  · rintro text ⟨rule, read⟩
    cases described_of_parse read with
    | @equals before after symbol blank blank' visible noSign right =>
      exact ⟨symbol, before, after, right, visible, noSign, blank, blank', .inl rfl⟩
    | @arrow before after symbol blank blank' visible noSign right plain =>
      exact ⟨symbol, before, after, right, visible, noSign, blank, blank', .inr ⟨rfl, plain⟩⟩

/-- A dash may be a symbol and an arrow may be part of what replaces it, but nothing with an equals sign stands
behind an arrow. -/
theorem arrow_before_equals_is_refused :
    Text.Blanks [' '] ∧ Text.isBlank '-' = false ∧
    parse " -= ->F ".toList = .ok ⟨'-', "->F".toList⟩ ∧ parse " --> F".toList = .ok ⟨'-', ['F']⟩ ∧
    parse "F->A=B".toList = .error (.malformedRule "F->A=B".toList) ∧
    ∀ fault, parse "XF".toList = .error fault → fault = .malformedRule "XF".toList := by
  have blank : Text.Blanks [' '] := List.forall_mem_singleton.mpr rfl
  have dash : Text.isBlank '-' = false := by decide
  have equals := (texts_of_rules [' '] [] blank nofun '-' " ->F ".toList).1.mpr ⟨dash, by decide⟩
  have arrow := (texts_of_rules [' '] [] blank nofun '-' " F".toList).2.1.mpr
    ⟨dash, by decide, by decide⟩
  obtain ⟨-, -, refused, -, faults⟩ := texts_of_rules [] [] nofun nofun 'F' "A=B".toList
  exact ⟨blank, dash, equals, arrow, refused (by decide) (by decide), faults _⟩

end Rule


end Sapling
