import Mathlib.Data.List.Nodup
import Sapling.Grammar.LSystem

/-! Tables of rules, whatever they were made of. A table holds the first rule that was offered for each symbol
since it was begun, in the order in which they came, and its index leads to each of them. No two rules are for
one symbol, so a table finds the same rule for a symbol, and derives the same words, in any order of its
rules. -/
namespace Sapling.RuleSet

/-! ## The index -/

private theorem lookup_zipIdx (symbols : List Char) (symbol : Char) (first : Nat) :
    (symbols.zipIdx first).lookup symbol = (symbols.findIdx? (· == symbol)).map (· + first) := by
  induction symbols generalizing first with
  | nil => rfl
  | cons c symbols ih =>
    rw [List.zipIdx_cons, List.lookup_cons, List.findIdx?_cons, ih (first + 1), BEq.comm]
    by_cases same : c == symbol
    · simp [same]
    · simp only [same, Bool.false_eq_true, ↓reduceIte, Option.map_map]
      congr 1
      funext place
      simp only [Function.comp_apply]
      omega

/-- The index leads to the rule that a search of the table would find. -/
theorem indexOf?_eq (table : RuleSet) (symbol : Char) :
    table.indexOf? symbol = table.rules.findIdx? (·.symbol == symbol) := by
  rw [indexOf?, table.indexed, lookup_zipIdx, List.findIdx?_map]
  simp [Function.comp_def]

private theorem get?_eq_find? (table : RuleSet) (symbol : Char) :
    table.get? symbol = (table.rules.find? (·.symbol == symbol)).map (·.replacement) := by
  rw [get?, indexOf?_eq, ← List.find?_eq_bind_findIdx?_getElem?]

private theorem eq_of_symbol_eq {table : RuleSet} {rule other : Rule} (held : rule ∈ table.rules)
    (held' : other ∈ table.rules) (same : rule.symbol = other.symbol) : rule = other :=
  List.inj_on_of_nodup_map table.distinct held held' same

/-- A symbol is replaced as a rule of the table says, and there is only one that says so. -/
theorem get?_eq_some_iff {table : RuleSet} {symbol : Char} {replacement : Word} :
    table.get? symbol = some replacement ↔ ⟨symbol, replacement⟩ ∈ table.rules := by
  rw [get?_eq_find?, Option.map_eq_some_iff]
  constructor
  · rintro ⟨rule, found, rfl⟩
    have same : rule.symbol = symbol := by simpa using List.find?_some found
    exact same ▸ List.mem_of_find?_eq_some found
  · intro held
    cases found : table.rules.find? (·.symbol == symbol) with
    | none => simpa using List.find?_eq_none.mp found _ held
    | some rule =>
      have same : rule.symbol = symbol := by simpa using List.find?_some found
      have only := eq_of_symbol_eq (List.mem_of_find?_eq_some found) held same
      exact ⟨rule, rfl, congrArg Rule.replacement only⟩

/-- The index leads to the place where a rule for the symbol stands. -/
theorem indexOf?_eq_some_iff {table : RuleSet} {symbol : Char} {place : Nat} :
    table.indexOf? symbol = some place ↔ (table.rules[place]?).map (·.symbol) = some symbol := by
  rw [indexOf?_eq, List.findIdx?_eq_some_iff_getElem, Option.map_eq_some_iff]
  constructor
  · rintro ⟨inside, same, -⟩
    exact ⟨_, List.getElem?_eq_getElem inside, by simpa using same⟩
  · rintro ⟨rule, standing, rfl⟩
    obtain ⟨inside, rfl⟩ := List.getElem?_eq_some_iff.mp standing
    refine ⟨inside, by simp, fun earlier before same => ?_⟩
    have rules := eq_of_symbol_eq (List.getElem_mem _) (List.getElem_mem inside) (by simpa using same)
    have places := table.distinct.of_map.getElem_inj_iff.mp rules
    omega

private theorem eq_of_rules : {table other : RuleSet} → table.rules = other.rules → table = other
  | ⟨_, _, _, rfl⟩, ⟨_, _, _, rfl⟩, rfl => rfl

/-! ## Rules that are offered -/

private theorem contains_eq_isSome_get? (table : RuleSet) (symbol : Char) :
    table.contains symbol = (table.get? symbol).isSome := by
  rw [Bool.eq_iff_iff, contains_iff, Option.isSome_iff_exists, List.mem_map]
  simp only [get?_eq_some_iff]
  constructor
  · rintro ⟨rule, held, rfl⟩
    exact ⟨rule.replacement, held⟩
  · rintro ⟨replacement, held⟩
    exact ⟨_, held, rfl⟩

theorem offer_known {table : RuleSet} {rule : Rule} (known : table.contains rule.symbol) :
    table.offer rule = (false, table) := by
  rw [offer, dif_pos known]

theorem offer_new {table : RuleSet} {rule : Rule} (new : table.contains rule.symbol = false) :
    (table.offer rule).1 = true ∧ (table.offer rule).2.rules = table.rules ++ [rule] := by
  have new' : ¬ table.contains rule.symbol := Bool.eq_false_iff.mp new
  rw [offer, dif_neg new']
  exact ⟨rfl, rfl⟩

/-- A rule is taken if and only if its symbol has none. -/
theorem offer_taken_iff (table : RuleSet) (rule : Rule) :
    (table.offer rule).1 = true ↔ table.get? rule.symbol = none := by
  rw [← Option.not_isSome_iff_eq_none, ← contains_eq_isSome_get?]
  cases known : table.contains rule.symbol with
  | true => simp [offer_known known]
  | false => simp [offer_new known]

private theorem rules_of_taken {table : RuleSet} {rule : Rule} (taken : (table.offer rule).1 = true) :
    (table.offer rule).2.rules = table.rules ++ [rule] := by
  cases known : table.contains rule.symbol with
  | true =>
    rw [offer_known known] at taken
    cases taken
  | false => exact (offer_new known).2

private theorem same_of_refused {table : RuleSet} {rule : Rule} (refused : (table.offer rule).1 = false) :
    (table.offer rule).2 = table := by
  cases known : table.contains rule.symbol with
  | true => rw [offer_known known]
  | false =>
    rw [(offer_new known).1] at refused
    cases refused

private theorem contains_insert (table : RuleSet) (rule : Rule) (symbol : Char) :
    (table.insert rule).contains symbol = (table.contains symbol || symbol == rule.symbol) := by
  cases known : table.contains rule.symbol with
  | true =>
    have same : table.insert rule = table := congrArg Prod.snd (offer_known known)
    rw [same, Bool.eq_iff_iff, Bool.or_eq_true, beq_iff_eq]
    constructor
    · intro held
      exact .inl held
    · rintro (held | rfl)
      · exact held
      · exact known
  | false =>
    have added : (table.insert rule).rules = table.rules ++ [rule] := (offer_new known).2
    rw [Bool.eq_iff_iff, Bool.or_eq_true, contains_iff, contains_iff, added]
    simp

/-- The first rule for each symbol, in the order in which they come. -/
def firsts : List Rule → List Rule
  | [] => []
  | rule :: rules => rule :: (firsts rules).filter (·.symbol != rule.symbol)

/-- Of the rules that are offered to a table it takes the first for each symbol that it has none for. -/
theorem rules_foldl_insert (table : RuleSet) (rules : List Rule) : (rules.foldl insert table).rules =
    table.rules ++ (firsts rules).filter (!table.contains ·.symbol) := by
  induction rules generalizing table with
  | nil => exact (List.append_nil _).symm
  | cons rule rules ih =>
    -- what the table has after the first rule decides about the others
    have others : ((firsts rules).filter (·.symbol != rule.symbol)).filter (!table.contains ·.symbol) =
        (firsts rules).filter (!(table.insert rule).contains ·.symbol) := by
      rw [List.filter_filter]
      refine List.filter_congr fun other _ => ?_
      rw [contains_insert, Bool.not_or]
      rfl
    rw [List.foldl_cons, ih, ← others, firsts, List.filter_cons]
    cases known : table.contains rule.symbol with
    | true =>
      have same : table.insert rule = table := congrArg Prod.snd (offer_known known)
      rw [same]
      rfl
    | false =>
      have added : (table.insert rule).rules = table.rules ++ [rule] := (offer_new known).2
      rw [added, List.append_assoc]
      rfl

theorem rules_ofList (rules : List Rule) : (ofList rules).rules = firsts rules := by
  rw [ofList, rules_foldl_insert]
  exact List.filter_eq_self.mpr fun _ _ => rfl

/-- Rules for different symbols are all the first for their symbol. -/
theorem firsts_of_distinct {rules : List Rule} (distinct : (rules.map (·.symbol)).Nodup) :
    firsts rules = rules := by
  induction rules with
  | nil => rfl
  | cons rule rules ih =>
    obtain ⟨alone, distinct⟩ := List.nodup_cons.mp distinct
    rw [firsts, ih distinct, List.filter_eq_self.mpr]
    intro other held
    simpa using fun same => alone (List.mem_map.mpr ⟨other, held, same⟩)

/-- A table is the one of its own rules. -/
theorem ofList_rules (table : RuleSet) : ofList table.rules = table :=
  eq_of_rules ((rules_ofList _).trans (firsts_of_distinct table.distinct))

private theorem find?_firsts (rules : List Rule) (symbol : Char) :
    (firsts rules).find? (·.symbol == symbol) = rules.find? (·.symbol == symbol) := by
  induction rules with
  | nil => rfl
  | cons rule rules ih =>
    rw [firsts, List.find?_cons, List.find?_cons, List.find?_filter]
    cases same : rule.symbol == symbol with
    | true => rfl
    | false =>
      -- among the rules for the symbol, none is for that of the first one
      have others (other : Rule) : decide ((other.symbol != rule.symbol) = true ∧
          (other.symbol == symbol) = true) = (other.symbol == symbol) := by
        have apart : rule.symbol ≠ symbol := ne_of_beq_false same
        by_cases wanted : other.symbol = symbol
        · simp [wanted, apart.symm]
        · simp [wanted]
      simp only [others, ih]

/-- A symbol is replaced as the first rule for it says. -/
theorem get?_ofList (rules : List Rule) (symbol : Char) :
    (ofList rules).get? symbol = (rules.find? (·.symbol == symbol)).map (·.replacement) := by
  rw [get?_eq_find?, rules_ofList, find?_firsts]

/-! ## Other orders -/

private theorem get?_of_perm {table : RuleSet} {order : List Rule} (same : order.Perm table.rules)
    (symbol : Char) : (ofList order).get? symbol = table.get? symbol := by
  have distinct : (order.map (·.symbol)).Nodup := (same.map _).nodup_iff.mpr table.distinct
  have rules : (ofList order).rules = order := (rules_ofList order).trans (firsts_of_distinct distinct)
  apply Option.ext
  intro replacement
  rw [get?_eq_some_iff, get?_eq_some_iff, rules]
  exact same.mem_iff

/-- What words become depends only on what becomes of each symbol. -/
theorem derive_congr {table other : RuleSet} (same : ∀ symbol, table.get? symbol = other.get? symbol)
    (passes : Nat) (word : Word) : table.derive passes word = other.derive passes word := by
  have images : table.image = other.image := funext fun symbol => by rw [image, image, same]
  have once : table.deriveOnce = other.deriveOnce := funext fun word => by
    rw [deriveOnce, deriveOnce, images]
  rw [derive, derive, once]

/-! ## Histories -/

/-- A step in the life of a table. -/
inductive Step where
  | insert (rule : Rule)
  | withRule (symbol : Char) (replacement : Word)
  /-- Adds the rule that a text describes, if it describes one. -/
  | parse (text : Word)
  /-- Begins a table of rules that were collected. -/
  | ofList (rules : List Rule)
  /-- Begins the table that was stored, if it can be read. -/
  | read (stored : Data.Value)

/-- The table after one more step. -/
def perform (table : RuleSet) : Step → RuleSet
  | .insert rule => table.insert rule
  | .withRule symbol replacement => table.withRule symbol replacement
  | .parse text => match Rule.parse text with
    | .ok rule => table.insert rule
    | .error _ => table
  | .ofList rules => ofList rules
  | .read stored => (codec.read? stored).getD table

/-- The rules that have been offered to a table since it was begun, after one more step. -/
def Step.offered (earlier : List Rule) : Step → List Rule
  | .insert rule => earlier ++ [rule]
  | .withRule symbol replacement => earlier ++ [⟨symbol, replacement⟩]
  | .parse text => match Rule.parse text with
    | .ok rule => earlier ++ [rule]
    | .error _ => earlier
  | .ofList rules => rules
  | .read stored => ((Data.Codec.list Rule.codec).read? stored).getD earlier

/-- The table after steps from an empty one. -/
def ofSteps (steps : List Step) : RuleSet := steps.foldl perform empty

/-- The rules that are offered in steps, from the last beginning on. -/
def offered (steps : List Step) : List Rule := steps.foldl Step.offered []

private theorem ofList_concat (rules : List Rule) (rule : Rule) :
    ofList (rules ++ [rule]) = (ofList rules).insert rule := List.foldl_append

private theorem perform_ofList (rules : List Rule) (step : Step) :
    (ofList rules).perform step = ofList (step.offered rules) := by
  cases step with
  | insert rule => exact (ofList_concat rules rule).symm
  | withRule symbol replacement => exact (ofList_concat rules _).symm
  | parse text =>
    simp only [perform, Step.offered]
    cases Rule.parse text with
    | ok rule => exact (ofList_concat rules rule).symm
    | error fault => rfl
  | ofList rules => rfl
  | read stored =>
    change (((Data.Codec.list Rule.codec).read? stored).map ofList).getD (ofList rules) = _
    exact Option.getD_map ..

/-- Whatever was done to a table, it is the one of the rules that it was offered. -/
theorem ofSteps_eq (steps : List Step) : ofSteps steps = ofList (offered steps) := by
  suffices onward : ∀ rules, steps.foldl perform (ofList rules) = ofList (steps.foldl Step.offered rules) from
    onward []
  induction steps with
  | nil => exact fun _ => rfl
  | cons step steps ih =>
    intro rules
    rw [List.foldl_cons, perform_ofList, ih]
    rfl

/-- A table after any steps. Its rules are the first that were offered for their symbols since it was begun,
in that order, and no two are for one symbol. The index names the place of each, and no other. A symbol is
replaced as the first rule that was offered for it says. Another rule is taken, and put at the end, if and only
if its symbol has none; else nothing changes. The rules of a table make it again, and in any other order they
make one that replaces all symbols, and so derives all words, alike. -/
theorem table_of_any_history (steps : List Step) :
    let table := ofSteps steps
    let offers := offered steps
    (table.rules = firsts offers ∧ (table.rules.map (·.symbol)).Nodup) ∧
    (∀ symbol place, table.indexOf? symbol = some place ↔
      (table.rules[place]?).map (·.symbol) = some symbol) ∧
    (∀ symbol, table.get? symbol = (offers.find? (·.symbol == symbol)).map (·.replacement)) ∧
    (∀ rule, ((table.offer rule).1 = true ↔ table.get? rule.symbol = none) ∧
      ((table.offer rule).1 = true → (table.offer rule).2.rules = table.rules ++ [rule]) ∧
      ((table.offer rule).1 = false → (table.offer rule).2 = table)) ∧
    ofList table.rules = table ∧
    ∀ order, order.Perm table.rules →
      (∀ symbol, (ofList order).get? symbol = table.get? symbol) ∧
      ∀ start iterations, generate start (ofList order) iterations = generate start table iterations := by
  intro table offers
  have made : table = ofList offers := ofSteps_eq steps
  refine ⟨⟨?_, table.distinct⟩, fun _ _ => indexOf?_eq_some_iff, ?_, ?_, table.ofList_rules, ?_⟩
  · rw [made, rules_ofList]
  · intro symbol
    rw [made, get?_ofList]
  · intro rule
    exact ⟨table.offer_taken_iff rule, rules_of_taken, same_of_refused⟩
  · intro order same
    have alike := get?_of_perm same
    exact ⟨alike, fun start iterations => derive_congr alike _ start⟩

/-- A second rule for a stem and a text without a rule are passed over. The table goes on as before when its
rules are turned around. -/
theorem table_of_stem_and_bud :
    let steps : List Step := [.ofList [⟨'X', "FF".toList⟩], .ofList [⟨'F', "FF".toList⟩],
      .parse "X -> F[+X]".toList, .withRule 'F' "F".toList, .parse "XF".toList]
    let table := ofSteps steps
    let turned : List Rule := [⟨'X', "F[+X]".toList⟩, ⟨'F', "FF".toList⟩]
    turned.Perm table.rules ∧ table.indexOf? 'X' = some 1 ∧ table.get? 'F' = some "FF".toList ∧
    (table.offer ⟨'F', []⟩).1 = false ∧ (table.offer ⟨'F', []⟩).2 = table ∧
    (table.offer ⟨'Y', []⟩).1 = true ∧ (table.offer ⟨'Y', []⟩).2.rules = table.rules ++ [⟨'Y', []⟩] ∧
    generate ['X'] (ofList turned) 3 = generate ['X'] table 3 := by
  intro steps table turned
  obtain ⟨-, index, replaced, offer, -, orders⟩ := table_of_any_history steps
  have rules : table.rules = turned.reverse := by decide
  have order : turned.Perm table.rules := rules ▸ turned.reverse_perm.symm
  have refused : (table.offer ⟨'F', []⟩).1 = false := by decide
  have taken : (table.offer ⟨'Y', []⟩).1 = true := (offer _).1.mpr ((replaced 'Y').trans (by decide))
  exact ⟨order, (index 'X' 1).mpr (by rw [rules]; rfl), (replaced 'F').trans (by decide), refused,
    (offer _).2.2 refused, taken, (offer _).2.1 taken, (orders turned order).2 _ _⟩

end Sapling.RuleSet
