import Sapling.Grammar.Preset
import Sapling.Proofs.Grammar.Tables
import Sapling.Proofs.Turtle.Counts

/-! Words with all brackets in pairs. A replacement that has its brackets in pairs opens and closes nothing
around it, so a pass leaves the depth of every word as it is, and a turtle on a word of a grammar of such
replacements finds a beginning for each end of a branch and an end for each beginning. -/
namespace Sapling

open Sapling.Random

namespace Brackets

/-! ## The depth of a word -/

private theorem depth_open (opened : Nat) (word : Word) :
    depth? opened ('[' :: word) = depth? (opened + 1) word := rfl

private theorem depth_close (opened : Nat) (word : Word) :
    depth? (opened + 1) (']' :: word) = depth? opened word := rfl

theorem depth_other {c : Char} (notBracket : c ≠ '[' ∧ c ≠ ']') (opened : Nat) (word : Word) :
    depth? opened (c :: word) = depth? opened word := by
  cases Command.role c with
  | opens => exact absurd rfl notBracket.1
  | closes => exact absurd rfl notBracket.2
  | ignored meaning => simp [depth?, meaning]
  | moves command meaning notOpen notClose =>
    cases command <;> first | contradiction | simp [depth?, meaning]

private theorem depth_append (opened : Nat) (word more : Word) :
    depth? opened (word ++ more) = (depth? opened word).bind (depth? · more) := by
  induction word generalizing opened with
  | nil => rfl
  | cons c word ih =>
    rw [List.cons_append]
    by_cases isOpen : c = '['
    · subst isOpen
      rw [depth_open, depth_open, ih]
    · by_cases isClose : c = ']'
      · subst isClose
        cases opened with
        | zero => rfl
        | succ opened => rw [depth_close, depth_close, ih]
      · rw [depth_other ⟨isOpen, isClose⟩, depth_other ⟨isOpen, isClose⟩, ih]

/-- What holds of all beginnings of a word holds of the empty one, and of the others behind the first
symbol. -/
theorem forall_prefix_cons {P : Word → Prop} {c : Char} {word : Word} :
    (∀ front, front <+: c :: word → P front) ↔ P [] ∧ ∀ front, front <+: word → P (c :: front) := by
  constructor
  · intro all
    exact ⟨all [] List.nil_prefix, fun front within => all _ (List.prefix_cons_inj c |>.mpr within)⟩
  · rintro ⟨empty, others⟩ front within
    rcases List.prefix_cons_iff.mp within with rfl | ⟨rest, rfl, within'⟩
    · exact empty
    · exact others rest within'

/-- The depth behind a word is what its brackets add up to, as long as none is closed too many on the
way. -/
theorem depth_eq_some_iff {opened after : Nat} {word : Word} : depth? opened word = some after ↔
    opened + word.count '[' = after + word.count ']' ∧
    ∀ front, front <+: word → front.count ']' ≤ opened + front.count '[' := by
  induction word generalizing opened with
  | nil => simp [depth?]
  | cons c word ih =>
    rw [forall_prefix_cons]
    by_cases isOpen : c = '['
    · subst isOpen
      rw [depth_open, ih]
      simp [Nat.add_right_comm opened 1, Nat.add_assoc]
    · by_cases isClose : c = ']'
      · subst isClose
        cases opened with
        | zero =>
          -- the end alone is a beginning with one end too many
          refine iff_of_false nofun fun ⟨_, _, others⟩ => ?_
          simpa using others [] List.nil_prefix
        | succ opened =>
          rw [depth_close, ih]
          simp [Nat.add_right_comm opened 1, ← Nat.add_assoc]
      · rw [depth_other ⟨isOpen, isClose⟩, ih]
        simp [isOpen, isClose]

/-- Brackets are in pairs when there are as many ends as beginnings, and nowhere more ends so far. -/
theorem balanced_iff {word : Word} : Balanced word ↔ word.count '[' = word.count ']' ∧
    ∀ front, front <+: word → front.count ']' ≤ front.count '[' := by
  simp only [Balanced, depth_eq_some_iff, Nat.zero_add]

/-- A word with its brackets in pairs leaves every depth as it is. -/
theorem Balanced.depth {word : Word} (balanced : Balanced word) (opened : Nat) :
    depth? opened word = some opened := by
  obtain ⟨same, never⟩ := balanced_iff.mp balanced
  refine depth_eq_some_iff.mpr ⟨congrArg (opened + ·) same, fun front within => ?_⟩
  exact Nat.le_trans (never front within) (Nat.le_add_left _ opened)

/-- If what stands for a symbol is as deep as the symbol, whole words stay as deep as they were. -/
theorem depth_flatMap {image : Char → Word}
    (same : ∀ c opened, depth? opened (image c) = depth? opened [c]) (opened : Nat) (word : Word) :
    depth? opened (word.flatMap image) = depth? opened word := by
  induction word generalizing opened with
  | nil => rfl
  | cons c word ih =>
    have split : depth? opened (c :: word) = (depth? opened [c]).bind (depth? · word) :=
      depth_append opened [c] word
    simp only [List.flatMap_cons, depth_append, same, split, ih]

/-- The turtle has as many branches open behind a word as the word is deep. -/
theorem openFrom_of_depth {opened after : Nat} {word : Word} (deep : depth? opened word = some after) :
    openFrom opened word = after := by
  induction word generalizing opened with
  | nil => exact Option.some.inj deep
  | cons c word ih =>
    change openFrom (nest opened c) word = after
    by_cases isOpen : c = '['
    · subst isOpen
      exact ih deep
    · by_cases isClose : c = ']'
      · subst isClose
        cases opened with
        | zero => cases deep
        | succ opened => exact ih deep
      · rw [nest_other ⟨isOpen, isClose⟩]
        exact ih (depth_other ⟨isOpen, isClose⟩ opened word ▸ deep)

end Brackets

namespace RuleSet

/-- Brackets have no rules, and every replacement has its brackets in pairs. -/
def KeepsBrackets (rules : RuleSet) : Prop :=
  ∀ rule ∈ rules.rules, rule.symbol ≠ '[' ∧ rule.symbol ≠ ']' ∧ Brackets.Balanced rule.replacement

instance (rules : RuleSet) : Decidable rules.KeepsBrackets := inferInstanceAs (Decidable (∀ _ ∈ _, _))

/-- A symbol stays, or a rule of the table replaces it. -/
theorem image_eq (rules : RuleSet) (c : Char) : rules.image c = [c] ∨
    ∃ rule ∈ rules.rules, rule.symbol = c ∧ rules.image c = rule.replacement := by
  unfold image
  cases found : rules.get? c with
  | none => exact .inl rfl
  | some replacement => exact .inr ⟨_, get?_eq_some_iff.mp found, rfl, rfl⟩

private theorem KeepsBrackets.depth_image {rules : RuleSet} (keeps : rules.KeepsBrackets) (c : Char)
    (opened : Nat) : Brackets.depth? opened (rules.image c) = Brackets.depth? opened [c] := by
  rcases rules.image_eq c with stays | ⟨rule, held, rfl, replaced⟩
  · rw [stays]
  · obtain ⟨notOpen, notClose, balanced⟩ := keeps rule held
    rw [replaced, balanced.depth, Brackets.depth_other ⟨notOpen, notClose⟩]
    rfl

private theorem KeepsBrackets.deriveOnce {rules : RuleSet} (keeps : rules.KeepsBrackets) {word : Word}
    (balanced : Brackets.Balanced word) : Brackets.Balanced (rules.deriveOnce word) :=
  (Brackets.depth_flatMap keeps.depth_image 0 word).trans balanced

private theorem KeepsBrackets.derive {rules : RuleSet} (keeps : rules.KeepsBrackets) {word : Word}
    (balanced : Brackets.Balanced word) (passes : Nat) :
    Brackets.Balanced (rules.derive passes word) := by
  induction passes with
  | zero => exact balanced
  | succ passes ih => exact keeps.deriveOnce ih

private theorem KeepsBrackets.generations {rules : RuleSet} (keeps : rules.KeepsBrackets) {word : Word}
    (balanced : Brackets.Balanced word) (passes : Nat) :
    ∀ later ∈ rules.generations passes word, Brackets.Balanced later := by
  induction passes generalizing word with
  | zero => exact List.forall_mem_singleton.mpr balanced
  | succ passes ih => exact List.forall_mem_cons.mpr ⟨balanced, ih (keeps.deriveOnce balanced)⟩

end RuleSet

namespace TurtleSettings

/-- On a word with its brackets in pairs the turtle meets no end without a beginning, and is left with no
open branch. -/
theorem stats_of_balanced (settings : TurtleSettings) {word : Word} (balanced : Brackets.Balanced word)
    (origin : Transform) (source : Generator) :
    ((settings.interpret word origin).run source).1.stats.unmatchedPops = 0 ∧
      ((settings.interpret word origin).run source).1.stats.implicitCloses = 0 := by
  have counted := Walk.counted_follow settings origin.position.y word origin source
  rw [interpret_run]
  generalize (Walk.follow settings origin.position.y word (.start origin) source).1 = walk at *
  have closing := Walk.closing_closeAll settings origin.position.y walk
  have pairs := (Brackets.balanced_iff.mp balanced).1
  have nothingOpen : walk.saved.length = 0 :=
    counted.opened.trans (Brackets.openFrom_of_depth balanced)
  have unmatched : walk.unmatched = 0 := by
    have := counted.unmatched
    omega
  have implicit : (walk.closeAll settings origin.position.y).implicit = 0 := by
    have := closing.implicit
    have := counted.implicit
    omega
  exact ⟨closing.unmatched.trans unmatched, implicit⟩

end TurtleSettings

namespace LSystem

/-- From a start with its brackets in pairs, a table that keeps them so derives only such words, and the
turtle draws each of them without an irregularity at a bracket. That brackets are in pairs is said by
counting them: a word has as many ends as beginnings, and nowhere more ends so far. -/
theorem brackets_stay_in_pairs (system : LSystem) (keeps : system.rules.KeepsBrackets)
    (start : Brackets.Balanced system.start) :
    (∀ word : Word, Brackets.Balanced word ↔ word.count '[' = word.count ']' ∧
      ∀ front, front <+: word → front.count ']' ≤ front.count '[') ∧
    ∀ word, word ∈ system.generateSteps ∨ word = system.generate →
      Brackets.Balanced word ∧
      ∀ (settings : TurtleSettings) (origin : Transform) (source : Generator),
        let stats := ((settings.interpret word origin).run source).1.stats
        stats.unmatchedPops = 0 ∧ stats.implicitCloses = 0 := by
  refine ⟨fun word => Brackets.balanced_iff, fun word derived => ?_⟩
  have balanced : Brackets.Balanced word := by
    rcases derived with step | rfl
    · exact keeps.generations start _ word step
    · exact keeps.derive start _
  exact ⟨balanced, fun settings => settings.stats_of_balanced balanced⟩

/-- A maple has a table of this kind, and its first branches are drawn without an irregularity. -/
theorem brackets_of_maple_stay_in_pairs :
    let maple := Preset.maple.system
    let word := "F[+X][-X]FX".toList
    let stats := ((TurtleSettings.interpret {} word .identity).run (.ofSeed 7)).1.stats
    maple.rules.KeepsBrackets ∧ Brackets.Balanced maple.start ∧ word ∈ maple.generateSteps ∧
    Brackets.Balanced word ∧ Brackets.Balanced maple.generate ∧
    stats.unmatchedPops = 0 ∧ stats.implicitCloses = 0 := by
  intro maple word stats
  have keeps : maple.rules.KeepsBrackets := by decide
  have start : Brackets.Balanced maple.start := by decide
  have step : word ∈ maple.generateSteps := by
    refine List.mem_cons_of_mem _ (List.mem_cons.mpr (.inl ?_))
    decide
  obtain ⟨-, derived⟩ := maple.brackets_stay_in_pairs keeps start
  obtain ⟨balanced, drawn⟩ := derived word (.inl step)
  exact ⟨keeps, start, step, balanced, (derived _ (.inr rfl)).1, drawn {} .identity (.ofSeed 7)⟩

end LSystem


end Sapling
