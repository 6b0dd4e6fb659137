import Mathlib.Algebra.Order.Floor.Semifield
import Sapling.Proofs.Scalar.Bounds

/-! Remainders of finite numbers. What is left of a division by a positive number lies between zero and that
number, whatever is divided. -/
namespace Sapling.Scalar

open Float.Model
open UnpackedFloat (Sign)

variable {x y : Float32}

private theorem rounds_ofDyadic (sign : Sign) (m : Nat) (e : Int) :
    Rounds (signed sign (dyadic m e)) (ofDyadic sign m e) := by
  unfold ofDyadic
  by_cases vanishes : m = 0
  · rw [if_pos vanishes, vanishes, dyadic_zero, signed_zero]
    exact rounds_zero sign
  · rw [if_neg vanishes]
    exact rounds_round e (Nat.pos_of_ne_zero vanishes) sign

/-- The remainder of two mantissas on their common grid has no more bits than one of them. -/
theorem representable_remainder {m n : Nat} {e f : Int} (first : m < 2 ^ 24 ∧ -149 ≤ e ∧ e ≤ 104)
    (second : n < 2 ^ 24 ∧ -149 ≤ f ∧ f ≤ 104) (positive : 0 < n) :
    Representable (dyadic ((m <<< (e - Min.min e f).toNat) % (n <<< (f - Min.min e f).toNat))
      (Min.min e f)) := by
  rcases Int.le_total e f with below | above
  · rw [Int.min_eq_left below, Int.sub_self, Int.toNat_zero, Nat.shiftLeft_zero]
    exact representable_dyadic (Nat.lt_of_le_of_lt (Nat.mod_le ..) first.1) first.2.1 first.2.2
  · rw [Int.min_eq_right above, Int.sub_self, Int.toNat_zero, Nat.shiftLeft_zero]
    exact representable_dyadic (Nat.lt_trans (Nat.mod_lt _ positive) second.1) second.2.1 second.2.2

private theorem dyadic_remainder {m n : Nat} {e f grid : Int} (low : grid ≤ e) (low' : grid ≤ f) :
    dyadic ((m <<< (e - grid).toNat) % (n <<< (f - grid).toNat)) grid =
      dyadic m e - dyadic n f * ⌊dyadic m e / dyadic n f⌋₊ := by
  have unit : (2 : ℝ) ^ grid ≠ 0 := by positivity
  rw [Nat.shiftLeft_eq, Nat.shiftLeft_eq, ← dyadic_shift m low, ← dyadic_shift n low']
  generalize m * 2 ^ (e - grid).toNat = a
  generalize n * 2 ^ (f - grid).toNat = b
  have quotient : dyadic a grid / dyadic b grid = (a : ℝ) / b := by
    rw [dyadic, dyadic, mul_div_mul_right _ _ unit]
  have whole : (a : ℝ) = b * (a / b : Nat) + (a % b : Nat) := by exact_mod_cast (Nat.div_add_mod a b).symm
  rw [quotient, Nat.floor_div_eq_div, dyadic, dyadic, dyadic, whole]
  ring

/-- What is left of a magnitude after taking away a positive number as often as it fits. -/
theorem rest_bounds {a b : ℝ} (up : 0 ≤ a) (divisorPos : 0 < b) :
    0 ≤ a - b * ⌊a / b⌋₊ ∧ a - b * ⌊a / b⌋₊ < b := by
  have low := Nat.floor_le (div_nonneg up divisorPos.le)
  have high := Nat.lt_floor_add_one (a / b)
  rw [le_div_iff₀ divisorPos] at low
  rw [div_lt_iff₀ divisorPos] at high
  constructor <;> linarith

/-- Remainders need no rounding: they are what is left of a magnitude, with its sign. -/
theorem remainder_exact (finite : x.isFinite) (finite' : y.isFinite) (divisorPos : 0 < value y) :
    (remainder x y).isFinite ∧ ∃ sign, value x = signed sign |value x| ∧
      value (remainder x y) = signed sign (|value x| - value y * ⌊|value x| / value y⌋₊) := by
  obtain ⟨sign', n, f, mantissaPos, divisor⟩ := finite_of_value_ne_zero finite' divisorPos.ne'
  have size : value y = signed sign' (dyadic n f) := value_of_parts divisor
  have above := dyadic_pos (e := f) mantissaPos
  cases sign' with
  | negative =>
    rw [size, signed_negative] at divisorPos
    linarith
  | positive =>
    have first := (unpack_fields x).canonical
    have second := (unpack_fields y).canonical
    rw [divisor] at second
    rcases shape_of_isFinite finite with ⟨sign, dividend⟩ | ⟨sign, m, e, positive, dividend⟩
    · have kept : remainder x y = x := by
        unfold remainder
        rw [dividend, divisor]
      have nothing : value x = 0 := by rw [value, dividend, unpackedValue_zero]
      rw [kept]
      exact ⟨finite, sign, by rw [nothing, abs_zero, signed_zero], by simp [nothing]⟩
    · have outcome : remainder x y =
          ofDyadic sign ((m <<< (e - Min.min e f).toNat) % (n <<< (f - Min.min e f).toNat))
            (Min.min e f) := by
        unfold remainder
        rw [dividend, divisor, Int.min_def]
      rw [dividend] at first
      have magnitude : |value x| = dyadic m e := by
        rw [value_of_parts dividend, abs_signed, abs_of_nonneg (dyadic_nonneg m e)]
      have representable := representable_remainder ⟨first.1, first.2.1, first.2.2.1⟩
        ⟨second.1, second.2.1, second.2.2.1⟩ mantissaPos
      have rest := dyadic_remainder (m := m) (n := n) (Int.min_le_left e f) (Int.min_le_right e f)
      have exact := (rounds_ofDyadic sign _ (Min.min e f)).exact (representable.signed sign)
      rw [outcome, magnitude, size, signed_positive, ← rest]
      exact ⟨exact.1, sign, value_of_parts dividend, exact.2⟩

/-- A remainder is no larger than the divisor, with the sign of what is divided. -/
theorem remainder_between (finite : x.isFinite) (finite' : y.isFinite) (divisorPos : 0 < value y) :
    Between (-value y) (value y) (remainder x y) := by
  obtain ⟨isFinite, sign, -, isValue⟩ := remainder_exact finite finite' divisorPos
  obtain ⟨low, high⟩ := rest_bounds (abs_nonneg (value x)) divisorPos
  refine ⟨isFinite, ?_, ?_⟩ <;> rw [isValue] <;> cases sign <;>
    simp only [signed_positive, signed_negative] <;> linarith

/-- Where a remainder is negative the divisor is added once. -/
theorem euclideanRemainder_between (finite : x.isFinite) (finite' : y.isFinite) (divisorPos : 0 < value y) :
    Between 0 (value y) (euclideanRemainder x y) := by
  have rest := remainder_between finite finite' divisorPos
  have abs : value y.abs = value y := by rw [value_abs, abs_of_pos divisorPos]
  unfold euclideanRemainder
  by_cases below : remainder x y < 0
  · have negative := (lt_iff_value rest.finite (y := 0) rfl).mp below
    have sum := rounds_add rest.finite ((isFinite_abs y).trans finite')
    rw [value_zero] at negative
    rw [abs] at sum
    simp only [below, if_true]
    exact sum.between representable_zero (representable_value finite') (by linarith [rest.low])
      (by linarith)
  · have up := not_lt.mp (mt (lt_iff_value rest.finite (y := 0) rfl).mpr below)
    rw [value_zero] at up
    simp only [below, if_false]
    exact ⟨rest.finite, up, rest.high⟩

/-- Of a number that is not negative the remainder is exact. -/
theorem value_euclideanRemainder (finite : x.isFinite) (finite' : y.isFinite) (divisorPos : 0 < value y)
    (up : 0 ≤ value x) :
    value (euclideanRemainder x y) = value x - value y * ⌊value x / value y⌋₊ := by
  obtain ⟨isFinite, sign, isSigned, isValue⟩ := remainder_exact finite finite' divisorPos
  obtain ⟨low, -⟩ := rest_bounds up divisorPos
  have rest : value (remainder x y) = value x - value y * ⌊value x / value y⌋₊ := by
    rw [abs_of_nonneg up] at isSigned isValue
    cases sign with
    | positive => exact isValue
    | negative =>
      -- only a zero has the other sign
      rw [signed_negative] at isSigned
      have nothing : value x = 0 := by linarith
      rw [isValue, nothing]
      simp
  have kept : ¬ remainder x y < 0 := by
    rw [lt_iff_value isFinite rfl, value_zero, rest]
    exact not_lt.mpr low
  simp only [euclideanRemainder, kept, if_false, rest]

/-- To a negative number that is less than the divisor the divisor is added. -/
theorem rounds_euclideanRemainder (finite : x.isFinite) (finite' : y.isFinite) (below : value x < 0)
    (near : -value y < value x) : Rounds (value x + value y) (euclideanRemainder x y) := by
  have divisorPos : 0 < value y := by linarith
  obtain ⟨isFinite, sign, isSigned, isValue⟩ := remainder_exact finite finite' divisorPos
  have floorZero : ⌊|value x| / value y⌋₊ = 0 := by
    rw [Nat.floor_eq_zero, div_lt_one divisorPos, abs_of_neg below]
    linarith
  rw [floorZero, Nat.cast_zero, mul_zero, sub_zero, ← isSigned] at isValue
  have negative : remainder x y < 0 := by rwa [lt_iff_value isFinite rfl, value_zero, isValue]
  have sum := rounds_add isFinite ((isFinite_abs y).trans finite')
  rw [isValue, value_abs, abs_of_pos divisorPos] at sum
  simp only [euclideanRemainder, negative, if_true]
  exact sum

/-- There is no remainder of what is no number. -/
theorem euclideanRemainder_isNaN (odd : x.isNaN) (y : Float32) : (euclideanRemainder x y).isNaN := by
  have rest : remainder x y = notANumber := by
    unfold remainder
    rw [unpack_of_isNaN odd]
  have kept : ¬ notANumber < 0 := by decide +kernel
  simp only [euclideanRemainder, rest, kept, if_false]
  rfl

end Sapling.Scalar
