import Sapling.Proofs.Grammar.Counting

/-! Passes over words. A pass treats each symbol by itself, so a word is derived part by part, and passes that
follow each other add up. All words of a system come from as many passes as its last one, up to the limit of
passes; a length that is foretold comes from as many as the system says, without the limit. -/
namespace Sapling

/-! ## Derivation -/

namespace RuleSet

private theorem deriveOnce_append (rules : RuleSet) (word more : Word) :
    rules.deriveOnce (word ++ more) = rules.deriveOnce word ++ rules.deriveOnce more :=
  List.flatMap_append

private theorem derive_append (rules : RuleSet) (passes : Nat) (word more : Word) :
    rules.derive passes (word ++ more) = rules.derive passes word ++ rules.derive passes more := by
  induction passes with
  | zero => rfl
  | succ passes ih =>
    calc rules.deriveOnce (rules.derive passes (word ++ more))
      _ = rules.deriveOnce (rules.derive passes word ++ rules.derive passes more) := by rw [ih]
      _ = rules.derive (passes + 1) word ++ rules.derive (passes + 1) more := deriveOnce_append ..

private theorem derive_add (rules : RuleSet) (passes more : Nat) (word : Word) :
    rules.derive (passes + more) word = rules.derive more (rules.derive passes word) := by
  induction more with
  | zero => rfl
  | succ more ih => exact congrArg rules.deriveOnce ih

private theorem derive_succ (rules : RuleSet) (passes : Nat) (word : Word) :
    rules.derive (passes + 1) word = rules.derive passes (rules.deriveOnce word) := by
  rw [Nat.add_comm, derive_add]
  rfl

private theorem length_generations (rules : RuleSet) (passes : Nat) (word : Word) :
    (rules.generations passes word).length = passes + 1 := by
  induction passes generalizing word with
  | zero => rfl
  | succ passes ih => rw [generations, List.length_cons, ih]

/-- At each place of the list stands the word after so many passes. -/
theorem getElem?_generations (rules : RuleSet) {passes i : Nat} (within : i ≤ passes) (word : Word) :
    (rules.generations passes word)[i]? = some (rules.derive i word) := by
  induction passes generalizing i word with
  | zero =>
    obtain rfl := Nat.le_zero.mp within
    rfl
  | succ passes ih =>
    cases i with
    | zero => rfl
    | succ i => rw [generations, List.getElem?_cons_succ, ih (Nat.le_of_succ_le_succ within), derive_succ]

/-- The last stage is the word after all passes. -/
theorem getLast?_generations (rules : RuleSet) (passes : Nat) (word : Word) :
    (rules.generations passes word).getLast? = some (rules.derive passes word) := by
  rw [List.getLast?_eq_getElem?, length_generations]
  exact getElem?_generations rules (Nat.le_refl passes) word

end RuleSet

/-! ## The limit of passes -/

theorem toNat_clampIterations (iterations : UInt32) :
    (clampIterations iterations).toNat = min iterations.toNat maxIterations.toNat := by
  unfold clampIterations
  split
  · rename_i beyond
    exact (Nat.min_eq_right (Nat.le_of_lt beyond)).symm
  · rename_i within
    exact (Nat.min_eq_left (UInt32.not_lt.mp within)).symm

private theorem generate_eq (start : Word) (rules : RuleSet) (iterations : UInt32) : generate start rules iterations =
    rules.derive (min iterations.toNat maxIterations.toNat) start := by
  rw [generate, toNat_clampIterations]

theorem generate_of_le {iterations : UInt32} (within : iterations.toNat ≤ maxIterations.toNat) (start : Word)
    (rules : RuleSet) : generate start rules iterations = rules.derive iterations.toNat start := by
  rw [generate_eq, Nat.min_eq_left within]

private theorem generate_append (word more : Word) (rules : RuleSet) (iterations : UInt32) :
    generate (word ++ more) rules iterations =
      generate word rules iterations ++ generate more rules iterations :=
  RuleSet.derive_append ..

/-- Passes within the limit can be made in two stages. -/
theorem generate_generate {first later : UInt32} (within : first.toNat + later.toNat ≤ maxIterations.toNat)
    (word : Word) (rules : RuleSet) :
    generate (generate word rules first) rules later = generate word rules (first + later) := by
  have fits : first.toNat + later.toNat < UInt32.size := Nat.lt_of_le_of_lt within (by decide)
  have sum : (first + later).toNat = first.toNat + later.toNat := by
    rw [UInt32.toNat_add, Nat.mod_eq_of_lt fits]
  have before := generate_of_le (Nat.le_trans (Nat.le_add_right ..) within) word rules
  have after := generate_of_le (Nat.le_trans (Nat.le_add_left ..) within) (generate word rules first) rules
  rw [after, before, generate_of_le (sum ▸ within), sum, RuleSet.derive_add]

private theorem LSystem.length_generateSteps (system : LSystem) :
    system.generateSteps.length = min system.iterations.toNat maxIterations.toNat + 1 := by
  rw [← toNat_clampIterations]
  exact RuleSet.length_generations ..

private theorem LSystem.getElem?_generateSteps (system : LSystem) {i : Nat} (inside : i < system.generateSteps.length) :
    system.generateSteps[i]? = some (Sapling.generate system.start system.rules (.ofNat i)) := by
  have within : i ≤ min system.iterations.toNat maxIterations.toNat := by
    rw [length_generateSteps] at inside
    exact Nat.le_of_lt_succ inside
  have few : i ≤ maxIterations.toNat := Nat.le_trans within (Nat.min_le_right ..)
  have word : (UInt32.ofNat i).toNat = i :=
    UInt32.toNat_ofNat_of_lt' (Nat.lt_of_le_of_lt few (by decide))
  rw [generate_of_le (word.symm ▸ few), word]
  exact RuleSet.getElem?_generations system.rules (by rwa [toNat_clampIterations]) system.start

/-- Words are derived part by part and stage by stage. No pass leaves a word as it is, and one pass puts for
each symbol what the table says. What becomes of two words side by side is what becomes of each. Passes that
are made one after the other, no more than the limit in all, can be made at once. A system lists one word more
than it has passes, up to the limit: each is that after as many passes as come before it, and the last is the
one that the system generates. -/
theorem derivation_in_parts_and_stages :
    (∀ rules : RuleSet,
      (∀ word, generate word rules 0 = word ∧ generate word rules 1 = word.flatMap rules.image) ∧
      (∀ word more iterations, generate (word ++ more) rules iterations =
        generate word rules iterations ++ generate more rules iterations) ∧
      ∀ word (first later : UInt32), first.toNat + later.toNat ≤ maxIterations.toNat →
        generate (generate word rules first) rules later = generate word rules (first + later)) ∧
    ∀ system : LSystem,
      let steps := system.generateSteps
      steps.length = min system.iterations.toNat maxIterations.toNat + 1 ∧
      (∀ i < steps.length, steps[i]? = some (generate system.start system.rules (.ofNat i))) ∧
      steps.getLast? = some system.generate := by
  constructor
  · intro rules
    refine ⟨fun word => ⟨rfl, rfl⟩, fun word more iterations => ?_, fun word first later within => ?_⟩
    · exact generate_append word more rules iterations
    · exact generate_generate within word rules
  · intro system steps
    refine ⟨system.length_generateSteps, fun i inside => ?_, RuleSet.getLast?_generations ..⟩
    exact system.getElem?_generateSteps inside

namespace LSystem

/-- Stems of a twig that grow by two passes and then by three. -/
theorem twig_in_stages :
    (2 : UInt32).toNat + (3 : UInt32).toNat ≤ maxIterations.toNat ∧
    Sapling.generate (Sapling.generate ['X'] twig.rules 2) twig.rules 3 =
      Sapling.generate ['X'] twig.rules 5 ∧
    (2 : Nat) < twig.generateSteps.length ∧
    twig.generateSteps[2]? = some (Sapling.generate twig.start twig.rules 2) := by
  obtain ⟨words, steps⟩ := derivation_in_parts_and_stages
  obtain ⟨length, each, -⟩ := steps twig
  have within : (2 : UInt32).toNat + (3 : UInt32).toNat ≤ maxIterations.toNat := by decide
  have inside : 2 < twig.generateSteps.length := by
    rw [length]
    decide
  exact ⟨within, (words twig.rules).2.2 ['X'] 2 3 within, inside, each 2 inside⟩

/-! ## Lengths that are foretold -/

/-- A word is derived as often as the system says, if that is within the limit. -/
theorem generate_of_valid {system : LSystem} (valid : system.validate = .ok ()) :
    system.iterations ≤ maxIterations ∧ system.generate =
      Nat.repeat system.rules.deriveOnce system.iterations.toNat system.start := by
  unfold validate at valid
  by_cases beyond : maxIterations < system.iterations
  · rw [if_pos beyond] at valid
    cases valid
  · refine ⟨UInt32.not_lt.mp beyond, ?_⟩
    rw [generate, Sapling.generate, clampIterations, if_neg beyond, RuleSet.derive]

/-- A system that was made with the check passes the check. -/
theorem checked_ok {start : Word} {rules : RuleSet} {iterations : UInt32} {system : LSystem}
    (accepted : checked start rules iterations = .ok system) : system.validate = .ok () := by
  simp only [checked] at accepted
  cases valid : validate ⟨start, rules, iterations⟩ with
  | error fault =>
    rw [valid] at accepted
    cases accepted
  | ok _ =>
    rw [valid] at accepted
    cases accepted
    exact valid

/-- A length that is foretold for all passes of a system is that of the word after as many passes, without the
limit of passes. So it is the length of the word that the system generates if and only if the limit takes
no passes away, or those that it takes away do not change the length. Systems that have been checked are
within the limit; any other can be told its length by the number of passes that are made. -/
theorem foretold_length_iff (system : LSystem)
    (countable : (system.rules.derive system.iterations.toNat system.start).length < UInt64.size) :
    let foretold := system.expandedLength system.iterations.toNat
    foretold = (system.rules.derive system.iterations.toNat system.start).length ∧
    (foretold = system.generate.length ↔ system.iterations ≤ maxIterations ∨
      (system.rules.derive system.iterations.toNat system.start).length =
        (system.rules.derive maxIterations.toNat system.start).length) ∧
    (∀ start rules iterations, checked start rules iterations = .ok system →
      foretold = system.generate.length) ∧
    system.generateSteps.getLast? = some system.generate ∧
    system.expandedLength (clampIterations system.iterations).toNat =
      min (UInt64.size - 1) system.generate.length := by
  intro foretold
  have exact : foretold = (system.rules.derive system.iterations.toNat system.start).length :=
    (system.expandedLength_eq _).trans (Nat.min_eq_right (Nat.le_sub_one_of_lt countable))
  have within (few : system.iterations ≤ maxIterations) : foretold = system.generate.length := by
    rw [exact, generate, generate_of_le few]
  have beyond (many : ¬ system.iterations ≤ maxIterations) :
      system.generate = system.rules.derive maxIterations.toNat system.start := by
    have limit : maxIterations.toNat ≤ system.iterations.toNat := Nat.le_of_lt (UInt32.not_le.mp many)
    rw [generate, generate_eq, Nat.min_eq_right limit]
  refine ⟨exact, ?_, fun start rules iterations accepted => ?_, RuleSet.getLast?_generations ..,
    system.expandedLength_eq _⟩
  · by_cases few : system.iterations ≤ maxIterations
    · exact iff_of_true (within few) (.inl few)
    · rw [exact, beyond few]
      constructor
      · intro same
        exact .inr same
      · rintro (few' | same)
        · exact absurd few' few
        · exact same
  · exact within (generate_of_valid (checked_ok accepted)).1

/-- The passes of a twig are within the limit, so its word is as long as foretold. -/
theorem twig_is_as_long_as_foretold :
    (twig.rules.derive twig.iterations.toNat twig.start).length < UInt64.size ∧
    checked twig.start twig.rules twig.iterations = .ok twig ∧
    twig.expandedLength twig.iterations.toNat = twig.generate.length ∧
    twig.generateSteps.getLast? = some twig.generate := by
  have countable : (twig.rules.derive twig.iterations.toNat twig.start).length < UInt64.size := by decide
  have accepted : checked twig.start twig.rules twig.iterations = .ok twig := rfl
  obtain ⟨-, -, within, last, -⟩ := twig.foretold_length_iff countable
  exact ⟨countable, accepted, within _ _ _ accepted, last⟩

/-- A stem that gets one symbol longer in each pass, with a pass more than the limit. -/
def vine : LSystem := ⟨['F'], RuleSet.ofList [⟨'F', "FX".toList⟩], 11⟩

/-- A vine can be stored and read, which no check stands in the way of. What is foretold for it is the length
after eleven passes, and its word is that of ten. -/
theorem vine_is_shorter_than_foretold :
    codec.read? (codec.write vine) = some vine ∧
    vine.expandedLength vine.iterations.toNat = 12 ∧ vine.generate.length = 11 ∧
    ¬ ((vine.rules.derive vine.iterations.toNat vine.start).length < UInt64.size →
      vine.expandedLength vine.iterations.toNat = vine.generate.length ∧
      vine.generateSteps.getLast?.map List.length = some (vine.expandedLength vine.iterations.toNat)) := by
  have countable : (vine.rules.derive vine.iterations.toNat vine.start).length < UInt64.size := by decide
  have foretold : vine.expandedLength vine.iterations.toNat = 12 := by decide
  have length : vine.generate.length = 11 := by decide
  refine ⟨rfl, foretold, length, fun agree => ?_⟩
  have same := (agree countable).1
  rw [foretold, length] at same
  exact absurd same (by decide)

end LSystem

end Sapling
