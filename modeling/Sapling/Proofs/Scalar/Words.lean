import Mathlib.Algebra.Order.Floor.Semifield
import Sapling.Proofs.Scalar.Bounds

/-! Words of 32 bits as single-precision numbers. Words of up to 24 bits stay what they are; longer ones are
rounded, which keeps their order but may make two of them one. A number that is whole becomes its word again. -/
namespace Sapling.Scalar

open Float.Model
open UnpackedFloat (Sign)

/-- A word turned into a number is between zero and two to the thirty-second. -/
theorem word_between (n : UInt32) : Between 0 (2 ^ (32 : ℤ)) n.toFloat32 := by
  refine (rounds_word n).between representable_zero (representable_power (by decide) (by decide))
    (Nat.cast_nonneg _) ?_
  have below : (n.toNat : ℝ) ≤ 2 ^ 32 := by exact_mod_cast (UInt32.toNat_lt n).le
  norm_num at below ⊢
  exact below

theorem word_isFinite (n : UInt32) : n.toFloat32.isFinite := (word_between n).finite

/-- Rounding keeps words in order. -/
theorem value_word_mono {m n : UInt32} (ordered : m ≤ n) : value m.toFloat32 ≤ value n.toFloat32 := by
  rcases Nat.lt_or_eq_of_le (UInt32.le_iff_toNat_le.mp ordered) with less | same
  · exact (rounds_word m).le (rounds_word n) (by exact_mod_cast less) (word_isFinite m) (word_isFinite n)
  · rw [UInt32.toNat_inj.mp same]

/-- A whole number times a power of two is rounded to itself if it has no more than 24 bits. -/
theorem representable_word {k e : Nat} (small : k ≤ 2 ^ 24) (most : e ≤ 103) :
    Representable ((k * 2 ^ e : Nat) : ℝ) := by
  have value : ((k * 2 ^ e : Nat) : ℝ) = dyadic k e := by
    rw [dyadic, zpow_natCast]
    push_cast
    rfl
  rw [value]
  exact representable_wide small (by omega) (by omega)

/-- Words up to two to the twenty-fourth are turned into numbers without rounding. -/
theorem value_word_of_small {n : UInt32} (small : n.toNat ≤ 2 ^ 24) : value n.toFloat32 = n.toNat := by
  have whole := representable_word small (show 0 ≤ 103 by decide)
  rw [pow_zero, mul_one] at whole
  exact ((rounds_word n).exact whole).2

/-- Among the largest words every 256th is a number, so no word is farther from its own. -/
theorem value_word_near (n : UInt32) : |value n.toFloat32 - n.toNat| ≤ 128 := by
  have bound := UInt32.toNat_lt n
  obtain ⟨y, finite, isValue⟩ :=
    representable_word (show (n.toNat + 128) / 256 ≤ 2 ^ 24 by omega) (show 8 ≤ 103 by decide)
  have near : |value y - n.toNat| ≤ 128 := by
    have above : n.toNat ≤ (n.toNat + 128) / 256 * 2 ^ 8 + 128 := by omega
    have below : (n.toNat + 128) / 256 * 2 ^ 8 ≤ n.toNat + 128 := by omega
    rw [isValue, abs_le]
    generalize (n.toNat + 128) / 256 * 2 ^ 8 = grid at above below
    have above : (n.toNat : ℝ) ≤ grid + 128 := by exact_mod_cast above
    have below : (grid : ℝ) ≤ n.toNat + 128 := by exact_mod_cast below
    exact ⟨by linarith, by linarith⟩
  exact ((rounds_word n).nearest (word_isFinite n) y finite).trans near

/-- Every word but zero is rounded to one or more. -/
theorem one_le_value_word {n : UInt32} (positive : 0 < n.toNat) : 1 ≤ value n.toFloat32 :=
  (rounds_word n).at_least representable_one (by exact_mod_cast positive) (word_isFinite n)

private theorem level_word_ne_zero {n : UInt32} (positive : 0 < n.toNat) : level n.toFloat32 ≠ 0 := by
  intro nothing
  have least := one_le_value_word positive
  have zero : level 0 = 0 := by decide
  have most := (level_le_iff (word_isFinite n) (y := 0) rfl).mp (nothing.trans zero.symm).le
  rw [value_zero] at most
  linarith

/-- Words are in order as numbers if they are so themselves, or if both are rounded to one number. -/
theorem word_le_iff {m n : UInt32} :
    m.toFloat32 ≤ n.toFloat32 ↔ m ≤ n ∨ m.toFloat32 = n.toFloat32 := by
  rw [le_iff_value (word_isFinite m) (word_isFinite n)]
  constructor
  · intro below
    by_cases ordered : m ≤ n
    · exact .inl ordered
    · have reversed := UInt32.not_le.mp ordered
      have same := le_antisymm below (value_word_mono (UInt32.le_of_lt reversed))
      have positive := Nat.zero_lt_of_lt (UInt32.lt_iff_toNat_lt.mp reversed)
      exact .inr (eq_of_value_eq (word_isFinite m) (word_isFinite n) same (level_word_ne_zero positive))
  · rintro (ordered | same)
    · exact value_word_mono ordered
    · rw [same]

/-- Words out of order that are rounded to one number have more bits than it has, and are no farther apart than
the largest words of one number. -/
theorem apart_of_toFloat32_eq {m n : UInt32} (reversed : n < m) (same : m.toFloat32 = n.toFloat32) :
    2 ^ 24 ≤ n.toNat ∧ m.toNat ≤ n.toNat + 256 := by
  have more := UInt32.lt_iff_toNat_lt.mp reversed
  constructor
  · by_contra small
    rw [Nat.not_le] at small
    -- the word after the smaller one still has a number of its own, and the larger one is not below it
    have next := representable_word (show n.toNat + 1 ≤ 2 ^ 24 by omega) (show 0 ≤ 103 by decide)
    rw [pow_zero, mul_one] at next
    have above := (rounds_word m).at_least next (by exact_mod_cast more) (word_isFinite m)
    rw [same, value_word_of_small small.le] at above
    push_cast at above
    linarith
  · have first := abs_le.mp (value_word_near m)
    have second := abs_le.mp (value_word_near n)
    rw [same] at first
    have near : (m.toNat : ℝ) ≤ n.toNat + 256 := by linarith
    exact_mod_cast near

/-! ## Back to words -/

/-- A number without its fraction. -/
theorem roundToInt_eq (sign : Sign) (m : Nat) (e : Int) :
    UnpackedFloat.roundToInt sign m e = sign.apply (m * 2 ^ e.toNat / 2 ^ (-e).toNat : Nat) := by
  have shift : (0 - (e - e.toNat)).toNat = (-e).toNat := by omega
  simp only [UnpackedFloat.roundToInt, UnpackedFloat.decreaseExponent, UnpackedFloat.shiftToExponent,
    cut_mantissa, Nat.shiftLeft_eq, Int.sub_zero, shift]

private theorem cut_eq_floor (m : Nat) (e : Int) : m * 2 ^ e.toNat / 2 ^ (-e).toNat = ⌊dyadic m e⌋₊ := by
  have powers : (2 : ℝ) ^ e * 2 ^ (-e).toNat = 2 ^ e.toNat := by
    rw [← zpow_natCast, ← zpow_natCast, ← zpow_add₀ two_ne_zero]
    congr 1
    omega
  have quotient : dyadic m e = (m * 2 ^ e.toNat : Nat) / (2 ^ (-e).toNat : Nat) := by
    rw [eq_div_iff (by positivity), dyadic]
    push_cast
    rw [mul_assoc, powers]
  rw [quotient, Nat.floor_div_eq_div]

/-- The word of a number that is not negative is the number without its fraction. -/
theorem toNat_toUInt32 {x : Float32} (finite : x.isFinite) (up : 0 ≤ value x) (small : value x < 2 ^ 32) :
    x.toUInt32.toNat = ⌊value x⌋₊ := by
  have fits : ⌊value x⌋₊ < 2 ^ 32 := by
    rw [Nat.floor_lt up]
    exact_mod_cast small
  have within (n : Nat) (fits : n < 2 ^ 32) : (UInt32.ofNatClamp n).toNat = n := by
    rw [UInt32.ofNatClamp, dif_pos (show n < UInt32.size from fits), UInt32.toNat_ofNatLT]
  have word : x.toUInt32 = .ofNatClamp (x.toModel.unpack.toInt 0 (UInt32.size - 1)).toNat := rfl
  unfold value at up fits ⊢
  rw [word]
  rcases shape_of_isFinite finite with ⟨sign, shape⟩ | ⟨sign, m, e, mantissaPos, shape⟩
  · rw [shape, unpackedValue_zero, Nat.floor_zero]
    rfl
  · rw [shape, unpackedValue_finite] at up fits
    rw [shape]
    cases sign with
    | negative =>
      have above := dyadic_pos (e := e) mantissaPos
      rw [signed_negative] at up
      exact absurd above (not_lt.mpr (neg_nonneg.mp up))
    | positive =>
      dsimp only [UnpackedFloat.toInt]
      rw [roundToInt_eq, cut_eq_floor]
      exact within _ fits

/-- A number whose value is a word becomes that word. -/
theorem toUInt32_of_value {x : Float32} {n : UInt32} (finite : x.isFinite) (same : value x = n.toNat) :
    x.toUInt32 = n := by
  have small : value x < 2 ^ 32 := by
    rw [same]
    exact_mod_cast n.toNat_lt
  apply UInt32.toNat_inj.mp
  rw [toNat_toUInt32 finite (same ▸ Nat.cast_nonneg _) small, same, Nat.floor_natCast]

/-- A word of up to 24 bits is read back from its number. -/
theorem toUInt32_of_small {n : UInt32} (small : n.toNat ≤ 2 ^ 24) : n.toFloat32.toUInt32 = n :=
  toUInt32_of_value (word_isFinite n) (value_word_of_small small)

end Sapling.Scalar
