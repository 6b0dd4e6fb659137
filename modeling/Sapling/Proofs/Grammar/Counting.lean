import Mathlib.Algebra.Order.BigOperators.Group.List
import Mathlib.Algebra.Order.Ring.Nat
import Sapling.Grammar.LSystem

/-! The length of a word is found by counting symbols. Symbols may be given any weights: a census of a word
weighs as much as the word itself, up to the limit of counting, and goes on to do so pass by pass. With the
weight of one for every symbol this is the length. A sum does not depend on the order of its parts, so
neither does the length on the order in which a census lists its symbols. -/
namespace Sapling

/-- The weights of all symbols of a word together. -/
def Word.weight (w : Char → Nat) (word : Word) : Nat := (word.map w).sum

/-- Before a pass a symbol weighs as much as what will stand for it. -/
theorem Word.weight_deriveOnce (w : Char → Nat) (rules : RuleSet) (word : Word) :
    (rules.deriveOnce word).weight w = word.weight fun symbol => (rules.image symbol).weight w := by
  induction word with
  | nil => rfl
  | cons symbol word ih =>
    change ((rules.image symbol ++ rules.deriveOnce word).map w).sum =
      (rules.image symbol).weight w + Word.weight (fun symbol => (rules.image symbol).weight w) word
    rw [List.map_append, List.sum_append, ← ih]
    rfl

namespace Census

/-! ## The limit -/

theorem saturate_eq_min (n : Nat) : saturate n = min limit n := by
  unfold saturate
  split <;> omega

private theorem saturate_add_saturate (m n : Nat) : saturate (saturate m + n) = saturate (m + n) := by
  simp only [saturate_eq_min]
  omega

theorem saturate_add_congr (same : saturate m = saturate m') (n : Nat) :
    saturate (m + n) = saturate (m' + n) := by
  rw [← saturate_add_saturate, same, saturate_add_saturate]

/-- A count that has stopped growing is large enough for any weight but none. -/
theorem saturate_mul_saturate (n weight : Nat) : saturate (saturate n * weight) = saturate (n * weight) := by
  rcases Nat.eq_zero_or_pos weight with rfl | positive
  · rfl
  · have atLeast (m : Nat) : m ≤ m * weight := Nat.le_mul_of_pos_right m positive
    by_cases small : n ≤ limit
    · rw [saturate_eq_min n, Nat.min_eq_right small]
    · have full : saturate n = limit := if_neg small
      have := atLeast n
      have := atLeast limit
      rw [full, saturate_eq_min, saturate_eq_min]
      omega

/-! ## Weights -/

/-- The weights of all symbols of a census together. -/
def weight (w : Char → Nat) (census : Census) : Nat := (census.map fun (symbol, n) => n * w symbol).sum

theorem weight_cons (w : Char → Nat) (symbol : Char) (n : Nat) (census : Census) :
    weight w ((symbol, n) :: census) = n * w symbol + weight w census := rfl

private theorem weight_perm (w : Char → Nat) {census order : Census} (same : census.Perm order) :
    weight w census = weight w order :=
  (same.map _).sum_eq

private theorem weight_add (w : Char → Nat) (symbol : Char) (n : Nat) (census : Census) :
    saturate (weight w (add symbol n census)) = saturate (weight w census + n * w symbol) := by
  induction census with
  | nil => rw [add, weight_cons, Nat.add_comm]
  | cons entry census ih =>
    obtain ⟨c, m⟩ := entry
    by_cases same : c = symbol
    · subst same
      rw [add, if_pos rfl, weight_cons, weight_cons,
        saturate_add_congr (saturate_mul_saturate (m + n) (w c)), Nat.add_mul, Nat.add_right_comm]
    · rw [add, if_neg same, weight_cons, weight_cons, Nat.add_comm (m * w c), saturate_add_congr ih,
        Nat.add_right_comm, Nat.add_comm (weight w census)]

private theorem weight_addAll (w : Char → Nat) (n : Nat) (word : Word) (census : Census) :
    saturate (weight w (addAll n word census)) = saturate (weight w census + n * word.weight w) := by
  induction word generalizing census with
  | nil => rfl
  | cons symbol word ih =>
    change saturate (weight w (addAll n word (add symbol n census))) =
      saturate (weight w census + n * (w symbol + Word.weight w word))
    rw [ih, saturate_add_congr (weight_add w symbol n census), Nat.mul_add, Nat.add_assoc]

private theorem weight_deriveOnce (w : Char → Nat) (rules : RuleSet) (census : Census) :
    saturate (weight w (deriveOnce rules census)) =
      saturate (weight (fun symbol => (rules.image symbol).weight w) census) := by
  suffices onto : ∀ next : Census,
      saturate (weight w (census.foldl (fun next (symbol, n) => addAll n (rules.image symbol) next) next)) =
        saturate (weight w next + weight (fun symbol => (rules.image symbol).weight w) census) from
    (onto []).trans (congrArg saturate (Nat.zero_add _))
  induction census with
  | nil => exact fun next => rfl
  | cons entry census ih =>
    intro next
    rw [List.foldl_cons, ih, saturate_add_congr (weight_addAll ..), weight_cons, Nat.add_assoc]

private theorem total_eq (census : Census) : census.total = saturate (weight (fun _ => 1) census) := by
  suffices onto : ∀ start, census.foldl (fun sum (_, n) => saturate (sum + n)) (saturate start) =
      saturate (start + weight (fun _ => 1) census) from
    (onto 0).trans (congrArg saturate (Nat.zero_add _))
  induction census with
  | nil => exact fun start => rfl
  | cons entry census ih =>
    obtain ⟨symbol, n⟩ := entry
    intro start
    rw [List.foldl_cons]
    dsimp only
    rw [saturate_add_saturate, ih, weight_cons, Nat.mul_one, Nat.add_assoc]

/-! ## Censuses of words -/

/-- No weighing of the symbols tells a census from the word, up to the limit of counting. -/
def Counts (census : Census) (word : Word) : Prop :=
  ∀ w, saturate (weight w census) = saturate (word.weight w)

private theorem counts_ofWord (word : Word) : (ofWord word).Counts word := by
  intro w
  rw [ofWord, weight_addAll, Nat.one_mul]
  exact congrArg saturate (Nat.zero_add _)

private theorem Counts.deriveOnce {census order : Census} {word : Word} (counts : census.Counts word)
    (same : census.Perm order) (rules : RuleSet) :
    (deriveOnce rules order).Counts (rules.deriveOnce word) := by
  intro w
  rw [weight_deriveOnce, ← weight_perm _ same, counts, Word.weight_deriveOnce]

private theorem Counts.total {census order : Census} {word : Word} (counts : census.Counts word)
    (same : census.Perm order) : order.total = saturate word.length := by
  rw [total_eq, ← weight_perm _ same, counts]
  simp [Word.weight]

/-- A census of the word after so many passes, each of which lists the symbols in an order of its own. -/
inductive Reached (rules : RuleSet) (word : Word) : (passes : Nat) → Census → Prop where
  | start : Reached rules word 0 (ofWord word)
  | pass (reached : Reached rules word passes census) (order : census.Perm listed) :
    Reached rules word (passes + 1) (deriveOnce rules listed)

private theorem Reached.counts {rules : RuleSet} {word : Word} {passes : Nat} {census : Census}
    (reached : Reached rules word passes census) : census.Counts (rules.derive passes word) := by
  induction reached with
  | start => exact counts_ofWord word
  | pass _ order ih => exact ih.deriveOnce order rules

/-- The order of the census itself is one of those it may be listed in. -/
theorem reached_repeat (rules : RuleSet) (word : Word) (passes : Nat) :
    Reached rules word passes (Nat.repeat (deriveOnce rules) passes (ofWord word)) := by
  induction passes with
  | zero => exact .start
  | succ passes ih => exact .pass ih (.refl _)

/-- Whatever the orders, the counts add up to the length of the word, up to the limit of counting. -/
theorem Reached.total {rules : RuleSet} {word : Word} {passes : Nat} {census listed : Census}
    (reached : Reached rules word passes census) (order : census.Perm listed) :
    listed.total = min (UInt64.size - 1) (rules.derive passes word).length :=
  (reached.counts.total order).trans (saturate_eq_min _)

end Census

namespace LSystem

/-- The foretold length is that of the derived word, up to the largest number that can be counted. -/
theorem expandedLength_eq (system : LSystem) (passes : Nat) : system.expandedLength passes =
    min (UInt64.size - 1) (system.rules.derive passes system.start).length :=
  (Census.reached_repeat system.rules system.start passes).total (.refl _)

/-- The length found by counting is that of the word after as many passes, or the largest 64-bit number
where the word is longer, in whatever order each pass goes through the census before it. -/
theorem expandedLength_exact (system : LSystem) (passes : Nat) :
    system.expandedLength passes =
      min (UInt64.size - 1) (system.rules.derive passes system.start).length ∧
    ∀ census listed : Census, Census.Reached system.rules system.start passes census →
      census.Perm listed → listed.total = system.expandedLength passes := by
  refine ⟨system.expandedLength_eq passes, fun census listed reached order => ?_⟩
  rw [reached.total order, system.expandedLength_eq]

/-- A bud that branches, and stems that double in length. -/
def twig : LSystem := ⟨['X', 'F'], RuleSet.ofList [⟨'X', "F[X]".toList⟩, ⟨'F', "FF".toList⟩], 2⟩

/-- A pass over a twig has the same length when stems are counted before buds. -/
theorem twig_counted_backwards :
    let census := Census.ofWord twig.start
    let next := Census.deriveOnce twig.rules census.reverse
    census.Perm census.reverse ∧ Census.Reached twig.rules twig.start 1 next ∧
    next.Perm next.reverse ∧ Census.total next.reverse = twig.expandedLength 1 ∧
    twig.expandedLength 1 = 6 := by
  intro census next
  obtain ⟨exact, anyOrder⟩ := twig.expandedLength_exact 1
  have order : census.Perm census.reverse := (List.reverse_perm census).symm
  have order' : next.Perm next.reverse := (List.reverse_perm next).symm
  have reached : Census.Reached twig.rules twig.start 1 next := .pass .start order
  exact ⟨order, reached, order', anyOrder _ _ reached order', exact.trans (by decide)⟩

example : twig.expandedLength 64 = UInt64.size - 1 := by decide +kernel

end LSystem

end Sapling
