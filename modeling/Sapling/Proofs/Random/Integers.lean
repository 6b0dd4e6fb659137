import Sapling.Random.Sampling

/-! Drawn integers lie between the ends they were asked for, whatever the words of the generator. The
second word is only asked for when the lower half is large, and then the upper half leaves room for the
carry. -/
namespace Sapling.Random

theorem run_word (rest : UInt32 → Draw α) (g : Generator) :
    (word >>= rest).run g = (rest (g.stream g.position)).run ⟨g.stream, g.position + 1⟩ := rfl

theorem widen_upper (x y : UInt32) : (widen x y).1.toNat = x.toNat * y.toNat / UInt32.size := by
  have fits : x.toNat * y.toNat < 2 ^ 32 * 2 ^ 32 := Nat.mul_lt_mul'' x.toNat_lt y.toNat_lt
  simp only [widen, UInt64.toNat_toUInt32, UInt64.toNat_shiftRight, UInt64.toNat_mul,
    UInt32.toNat_toUInt64, Nat.shiftRight_eq_div_pow, UInt32.size]
  have room : x.toNat * y.toNat / 2 ^ 32 < 2 ^ 32 := Nat.div_lt_of_lt_mul fits
  rw [Nat.mod_eq_of_lt (by omega : x.toNat * y.toNat < 2 ^ 64)]
  exact Nat.mod_eq_of_lt room

private theorem widen_lower (x y : UInt32) : (widen x y).2.toNat = x.toNat * y.toNat % UInt32.size := by
  have fits : x.toNat * y.toNat < 2 ^ 32 * 2 ^ 32 := Nat.mul_lt_mul'' x.toNat_lt y.toNat_lt
  simp only [widen, UInt64.toNat_toUInt32, UInt64.toNat_mul, UInt32.toNat_toUInt64, UInt32.size]
  rw [Nat.mod_eq_of_lt (by omega : x.toNat * y.toNat < 2 ^ 64)]

/-- A scaled word is one of the integers from zero to below the count. -/
theorem widen_upper_lt (x : UInt32) {count : UInt32} (nonzero : count ≠ 0) :
    (widen x count).1.toNat < count.toNat := by
  have positive : 0 < count.toNat := Nat.pos_of_ne_zero fun zero => nonzero (UInt32.toNat_inj.mp zero)
  rw [widen_upper]
  exact Nat.div_lt_of_lt_mul ((Nat.mul_lt_mul_right positive).mpr x.toNat_lt)

/-- When the lower half is so large that a carry is possible, the upper half is not the last integer. -/
theorem widen_upper_lt_of_doubt (x : UInt32) {count : UInt32} (nonzero : count ≠ 0)
    (doubt : 0 - count < (widen x count).2) : (widen x count).1.toNat + 1 < count.toNat := by
  have positive : 0 < count.toNat := Nat.pos_of_ne_zero fun zero => nonzero (UInt32.toNat_inj.mp zero)
  have small := count.toNat_lt
  have below : (x.toNat + 1) * count.toNat ≤ UInt32.size * count.toNat :=
    Nat.mul_le_mul_right _ x.toNat_lt
  have large : UInt32.size - count.toNat < (widen x count).2.toNat := by
    have compared := UInt32.lt_iff_toNat_lt.mp doubt
    rwa [UInt32.toNat_sub, UInt32.toNat_zero, Nat.add_zero, Nat.mod_eq_of_lt (by omega)] at compared
  have split := Nat.div_add_mod (x.toNat * count.toNat) UInt32.size
  rw [widen_lower] at large
  rw [widen_upper]
  rw [Nat.succ_mul] at below
  simp only [UInt32.size] at *
  omega

/-- What is drawn from a range is its low end plus an integer below the count, or any word at all when
the range has every word. -/
private theorem integer_value (low high : UInt32) (g : Generator) :
    (high - low + 1 = 0 ∧ ((integer low high).run g).1 = g.stream g.position) ∨
    ∃ result : UInt32, result.toNat < (high - low + 1).toNat ∧
      ((integer low high).run g).1 = low + result := by
  rw [integer, run_word]
  generalize high - low + 1 = count
  split
  · rename_i full
    exact .inl ⟨full, rfl⟩
  · rename_i nonzero
    right
    rcases upper : widen (g.stream g.position) count with ⟨result, lower⟩
    have inside := widen_upper_lt (g.stream g.position) nonzero
    have room := widen_upper_lt_of_doubt (g.stream g.position) nonzero
    have small := count.toNat_lt
    rw [upper] at inside room
    dsimp only at inside room ⊢
    split
    · rename_i doubt
      have room := room doubt
      rw [run_word]
      split
      · exact ⟨result, inside, rfl⟩
      · refine ⟨result + 1, ?_, rfl⟩
        rw [UInt32.toNat_add, UInt32.toNat_one, Nat.mod_eq_of_lt (by omega)]
        exact room
    · exact ⟨result, inside, rfl⟩

/-- A drawn integer lies between the ends, both included. -/
theorem integer_bounds {low high : UInt32} (ordered : low ≤ high) (g : Generator) :
    low ≤ ((integer low high).run g).1 ∧ ((integer low high).run g).1 ≤ high := by
  have order := UInt32.le_iff_toNat_le.mp ordered
  have top := high.toNat_lt
  have count : (high - low + 1).toNat = (high.toNat - low.toNat + 1) % 2 ^ 32 := by
    rw [UInt32.toNat_add, UInt32.toNat_sub_of_le _ _ ordered]
    rfl
  simp only [UInt32.le_iff_toNat_le]
  rcases integer_value low high g with ⟨all, value⟩ | ⟨result, below, value⟩
  · have full : (high.toNat - low.toNat + 1) % 2 ^ 32 = 0 := by rw [← count, all]; rfl
    have word := (g.stream g.position).toNat_lt
    rw [value]
    omega
  · rw [count] at below
    have sum : (low + result).toNat = low.toNat + result.toNat := by
      rw [UInt32.toNat_add, Nat.mod_eq_of_lt (by omega)]
    rw [value, sum]
    omega

/-- Drawing an integer leaves the words of a generator as they are. -/
theorem integer_stream (low high : UInt32) (g : Generator) :
    ((integer low high).run g).2.stream = g.stream := by
  rw [integer, run_word]
  dsimp only
  split
  · rfl
  · split
    · rw [run_word]
      split <;> rfl
    · rfl

/-- A drawn count lies between the two ends, whichever of them is the larger. -/
theorem countInRange_bounds (ends : UInt32 × UInt32) (g : Generator) :
    min ends.1.toNat ends.2.toNat ≤ ((countInRange ends).run g).1.toNat ∧
      ((countInRange ends).run g).1.toNat ≤ max ends.1.toNat ends.2.toNat := by
  unfold countInRange
  split
  · rename_i ordered
    obtain ⟨above, below⟩ := integer_bounds ordered g
    simp only [UInt32.le_iff_toNat_le] at ordered above below
    omega
  · rename_i reversed
    have ordered := UInt32.le_of_lt (UInt32.not_le.mp reversed)
    obtain ⟨above, below⟩ := integer_bounds ordered g
    simp only [UInt32.le_iff_toNat_le] at ordered above below
    omega

/-! ## Every integer of a range -/

/-- A second word of zero carries nothing. -/
private theorem integer_of_zero {low high : UInt32} {g : Generator} (nonzero : high - low + 1 ≠ 0)
    (zero : g.stream (g.position + 1) = 0) :
    ((integer low high).run g).1 = low + (widen (g.stream g.position) (high - low + 1)).1 := by
  have vanishes : (widen 0 (high - low + 1)).1.toNat = 0 := by
    rw [widen_upper, UInt32.toNat_zero, Nat.zero_mul, Nat.zero_div]
  have fits : (widen (g.stream g.position) (high - low + 1)).2.toNat + 0 < UInt32.size :=
    UInt32.toNat_lt _
  rw [integer, run_word, if_neg nonzero]
  dsimp only
  split
  · rw [run_word, zero, vanishes, if_pos fits]
    rfl
  · rfl

/-- Every block of a line that is cut into equal blocks has a multiple of their number. -/
theorem exists_multiple {block count size : Nat} (inside : block < count) (small : count ≤ size) :
    ∃ n < size, block * size ≤ n * count ∧ n * count < (block + 1) * size := by
  have positive := Nat.zero_lt_of_lt inside
  have rest := Nat.lt_div_mul_add (a := block * size + (count - 1)) positive
  have whole := Nat.div_mul_le_self (block * size + (count - 1)) count
  have last := Nat.mul_le_mul_right size (Nat.succ_le_of_lt inside)
  rw [Nat.succ_mul] at last
  generalize (block * size + (count - 1)) / count = n at rest whole
  refine ⟨n, Nat.lt_of_mul_lt_mul_right (a := count) ?_, by omega, ?_⟩
  · rw [Nat.mul_comm size]
    omega
  · rw [Nat.succ_mul]
    omega

/-- Some word is scaled to each of the integers below a count. -/
theorem widen_reaches {result count : UInt32} (below : result < count) :
    ∃ first : UInt32, (widen first count).1 = result := by
  obtain ⟨n, within, reached, passed⟩ :=
    exists_multiple (UInt32.lt_iff_toNat_lt.mp below) (Nat.le_of_lt count.toNat_lt)
  refine ⟨.ofNat n, UInt32.toNat_inj.mp ?_⟩
  rw [widen_upper, UInt32.toNat_ofNat_of_lt' within]
  exact Nat.div_eq_of_lt_le reached passed

/-- Every integer of a range is drawn for some first word. -/
theorem integer_reaches {low high result : UInt32} (above : low ≤ result) (below : result ≤ high) :
    ∃ first, ∀ g : Generator, g.stream g.position = first → g.stream (g.position + 1) = 0 →
      ((integer low high).run g).1 = result := by
  have ordered := UInt32.le_iff_toNat_le.mp above
  have ordered' := UInt32.le_iff_toNat_le.mp below
  by_cases all : high - low + 1 = 0
  · refine ⟨result, fun g drawn _ => ?_⟩
    rw [integer, run_word, if_pos all]
    exact drawn
  · have inside : result - low < high - low + 1 := by
      have count : (high - low + 1).toNat = (high.toNat - low.toNat + 1) % 2 ^ 32 := by
        rw [UInt32.toNat_add, UInt32.toNat_sub_of_le _ _ (UInt32.le_trans above below)]
        rfl
      have nonzero : (high - low + 1).toNat ≠ 0 := fun vanishes => all (UInt32.toNat_inj.mp vanishes)
      rw [UInt32.lt_iff_toNat_lt, UInt32.toNat_sub_of_le _ _ above]
      have top := high.toNat_lt
      omega
    obtain ⟨first, reached⟩ := widen_reaches inside
    refine ⟨first, fun g drawn zero => ?_⟩
    rw [integer_of_zero all zero, drawn, reached, UInt32.add_comm, UInt32.sub_add_cancel]

end Sapling.Random
