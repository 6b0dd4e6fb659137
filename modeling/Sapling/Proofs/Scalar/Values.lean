import Mathlib.Algebra.Order.Field.Power
import Mathlib.Analysis.Real.Sqrt
import Mathlib.Tactic.FieldSimp
import Mathlib.Tactic.Linarith
import Sapling.Proofs.Scalar.Negation

/-! The real value of a number. Finite numbers are in the order of their values, so a bound on the exact
result of an operation is a bound on what the operation gives. -/
namespace Sapling.Scalar

open Float.Model
open UnpackedFloat (Sign ExtendedMantissa)

/-- A mantissa at an exponent. -/
noncomputable def dyadic (mantissa : Nat) (exponent : Int) : ℝ := mantissa * 2 ^ exponent

/-- A magnitude with a sign. -/
def signed (sign : Sign) (magnitude : ℝ) : ℝ :=
  match sign with
  | .positive => magnitude
  | .negative => -magnitude

/-- The value of an unpacked number; what is not finite counts as zero. -/
noncomputable def unpackedValue : UnpackedFloat → ℝ
  | .finite sign mantissa exponent _ => signed sign (dyadic mantissa exponent)
  | _ => 0

@[simp] theorem unpackedValue_zero (sign : Sign) : unpackedValue (.zero sign) = 0 := rfl

@[simp] theorem unpackedValue_finite (sign : Sign) (m : Nat) (e : Int) (positive : 0 < m) :
    unpackedValue (.finite sign m e positive) = signed sign (dyadic m e) := rfl

noncomputable def value (x : Float32) : ℝ := unpackedValue x.toModel.unpack

/-- What the bits of a cut mantissa tell about the value that was cut, in units of the last place. -/
def Describes (unit v : ℝ) : ExtendedMantissa → Prop
  | ⟨m, false, false⟩ => v = m * unit
  | ⟨m, false, true⟩ => m * unit < v ∧ v < (m + 1 / 2) * unit
  | ⟨m, true, false⟩ => v = (m + 1 / 2) * unit
  | ⟨m, true, true⟩ => (m + 1 / 2) * unit < v ∧ v < (m + 1) * unit

/-! ## Mantissas and exponents -/

/-- A mantissa as rounding leaves it before the last carry, which may fill one bit more. -/
def Wide (mantissa : Nat) (exponent : Int) : Prop :=
  mantissa ≤ 2 ^ 24 ∧ -149 ≤ exponent ∧ (exponent ≠ -149 → 2 ^ 23 ≤ mantissa)

/-- A mantissa in rounded form has not filled the bit of the carry. -/
theorem Rounded.wide {m : Nat} {e : Int} (rounded : Rounded m e) : Wide m e :=
  ⟨Nat.le_of_lt rounded.1, rounded.2⟩

theorem rounded_zero : Rounded 0 (-149) := ⟨by decide, Int.le_refl _, fun high => absurd rfl high⟩

section
variable {m n : Nat} {e f : Int}

theorem dyadic_nonneg (m : Nat) (e : Int) : 0 ≤ dyadic m e := by
  unfold dyadic
  positivity

@[simp] theorem dyadic_zero (e : Int) : dyadic 0 e = 0 := by simp [dyadic]

theorem dyadic_pos (positive : 0 < m) : 0 < dyadic m e := by
  unfold dyadic
  positivity

/-- The same value with a smaller exponent. -/
theorem dyadic_shift (m : Nat) (below : e ≤ f) : dyadic (m * 2 ^ (f - e).toNat) e = dyadic m f := by
  have power : (2 : ℝ) ^ f = 2 ^ (f - e).toNat * 2 ^ e := by
    rw [← zpow_natCast, ← zpow_add₀ two_ne_zero]
    congr 1
    omega
  rw [dyadic, dyadic, power]
  push_cast
  ring

/-- A mantissa that has filled one bit more is half of it at the next exponent. -/
theorem dyadic_carry (e : Int) : dyadic (2 ^ 24) e = dyadic (2 ^ 23) (e + 1) := by
  rw [← dyadic_shift (2 ^ 23) (show e ≤ e + 1 by omega), show (e + 1 - e).toNat = 1 by omega,
    ← Nat.pow_add]

private theorem dyadic_lt_of_place (first : Wide m e) (second : Wide n f) (before : placeOf m e < placeOf n f) :
    dyadic m e < dyadic n f := by
  obtain ⟨most, least, normal⟩ := first
  obtain ⟨most', least', normal'⟩ := second
  simp only [placeOf] at before
  have ordered : e ≤ f := by
    by_contra above
    have large := normal (by omega)
    omega
  have mantissa : m < n * 2 ^ (f - e).toNat := by
    rcases Int.lt_or_eq_of_le ordered with less | same
    · have large := normal' (by omega)
      obtain ⟨shift, exceeds⟩ : ∃ shift, (f - e).toNat = shift + 1 := ⟨(f - e).toNat - 1, by omega⟩
      have power : 1 ≤ 2 ^ shift := Nat.one_le_two_pow
      have least : n * 2 ≤ n * 2 ^ (f - e).toNat := by
        rw [exceeds, Nat.pow_succ]
        exact Nat.mul_le_mul_left n (by omega)
      by_cases more : 2 ^ 23 < n ∨ m < 2 ^ 24
      · omega
      · -- The one case left is that of two neighbouring powers of two, and then the exponents are apart.
        obtain ⟨more, apart⟩ : ∃ more, shift = more + 1 := ⟨shift - 1, by omega⟩
        have power : 2 ≤ 2 ^ shift := by
          rw [apart, Nat.pow_succ]
          exact Nat.le_mul_of_pos_left 2 (Nat.two_pow_pos more)
        have larger : n * 4 ≤ n * 2 ^ (f - e).toNat := by
          rw [exceeds, Nat.pow_succ]
          exact Nat.mul_le_mul_left n (by omega)
        omega
    · subst same
      simp only [Int.sub_self, Int.toNat_zero, Nat.pow_zero, Nat.mul_one]
      omega
  rw [← dyadic_shift n ordered, dyadic, dyadic]
  have larger : (m : ℝ) < (n * 2 ^ (f - e).toNat : Nat) := by exact_mod_cast mantissa
  have power : (0 : ℝ) < 2 ^ e := by positivity
  nlinarith

/-- Mantissas of one place have one value. -/
theorem dyadic_eq_of_place (first : Wide m e) (second : Wide n f) (same : placeOf m e = placeOf n f) :
    dyadic m e = dyadic n f := by
  obtain ⟨most, least, normal⟩ := first
  obtain ⟨most', least', normal'⟩ := second
  simp only [placeOf] at same
  rcases Int.lt_trichotomy e f with less | rfl | more
  · have large := normal' (by omega)
    obtain ⟨rfl, rfl, rfl⟩ : m = 2 ^ 24 ∧ n = 2 ^ 23 ∧ f = e + 1 := by omega
    exact dyadic_carry e
  · obtain rfl : m = n := by omega
    rfl
  · have large := normal (by omega)
    obtain ⟨rfl, rfl, rfl⟩ : n = 2 ^ 24 ∧ m = 2 ^ 23 ∧ e = f + 1 := by omega
    exact (dyadic_carry f).symm

/-- Places are in the order of values. -/
theorem dyadic_lt_iff (first : Wide m e) (second : Wide n f) :
    dyadic m e < dyadic n f ↔ placeOf m e < placeOf n f := by
  refine ⟨fun less => ?_, dyadic_lt_of_place first second⟩
  by_contra above
  rcases Int.lt_or_eq_of_le (Int.not_lt.mp above) with more | same
  · exact absurd (dyadic_lt_of_place second first more) (not_lt.mpr less.le)
  · exact absurd (dyadic_eq_of_place second first same) less.ne'

/-- The values of mantissas are in the order of their places. -/
theorem dyadic_le_iff (first : Wide m e) (second : Wide n f) :
    dyadic m e ≤ dyadic n f ↔ placeOf m e ≤ placeOf n f := by
  rw [← not_lt, dyadic_lt_iff second first, Int.not_lt]

end

/-! ## Signs -/

@[simp] theorem signed_positive (x : ℝ) : signed .positive x = x := rfl

@[simp] theorem signed_negative (x : ℝ) : signed .negative x = -x := rfl

@[simp] theorem signed_zero (sign : Sign) : signed sign 0 = 0 := by cases sign <;> simp

theorem abs_signed (sign : Sign) (x : ℝ) : |signed sign x| = |x| := by cases sign <;> simp

private theorem signed_neg (sign : Sign) (x : ℝ) : signed (-sign) x = -signed sign x := by
  cases sign
  · exact (neg_neg x).symm
  · rfl

theorem signed_mul (s t : Sign) (x y : ℝ) : signed (s * t) (x * y) = signed s x * signed t y := by
  cases s <;> cases t
  · exact (neg_mul_neg x y).symm
  · exact (neg_mul x y).symm
  · exact (mul_neg x y).symm
  · rfl

theorem signed_apply (sign : Sign) (n : Nat) (unit : ℝ) :
    signed sign (n * unit) = (sign.apply n : ℤ) * unit := by
  cases sign <;> simp [Sign.apply]

/-! ## Finite numbers -/

section
variable {x y : Float32}

/-- A finite number by sign, mantissa and exponent. Zeros have mantissa zero. -/
theorem parts_of_isFinite (finite : x.isFinite) : ∃ sign m e, Rounded m e ∧
    placeOf m e < 255 * 2 ^ 23 ∧ level x = sign.apply (placeOf m e) ∧ value x = signed sign (dyadic m e) := by
  have place := level_eq (isNaN_of_isFinite finite)
  have canonical := (unpack_fields x).canonical
  unfold value
  rcases shape_of_isFinite finite with ⟨sign, shape⟩ | ⟨sign, m, e, positive, shape⟩
  · rw [shape] at place ⊢
    refine ⟨.positive, 0, -149, rounded_zero, by decide, place.symm, ?_⟩
    rw [dyadic_zero]
    rfl
  · rw [shape] at place canonical ⊢
    obtain ⟨rounded, -, small⟩ := canonical.rounded
    exact ⟨sign, m, e, rounded, small, place.symm, rfl⟩

/-- What a finite unpacked number is packed to is finite and has its value. -/
theorem pack_value {u : UnpackedFloat} (canonical : Canonical u) (finite : u.isFinite) :
    (Float32.ofModel (.pack u)).isFinite ∧ value (.ofModel (.pack u)) = unpackedValue u := by
  have same : (Float32.ofModel (.pack u)).toModel.unpack = u := unpack_pack canonical
  refine ⟨?_, by rw [value, same]⟩
  change (Float32.ofModel (.pack u)).toModel.unpack.isFinite = true
  rw [same, finite]

/-- The places of finite numbers are in the order of their values. -/
theorem level_le_iff (first : x.isFinite) (second : y.isFinite) :
    level x ≤ level y ↔ value x ≤ value y := by
  obtain ⟨s, m, e, rounded, -, place, isValue⟩ := parts_of_isFinite first
  obtain ⟨t, n, f, rounded', -, place', isValue'⟩ := parts_of_isFinite second
  have nonneg := dyadic_nonneg m e
  have nonneg' := dyadic_nonneg n f
  have up := dyadic_le_iff rounded_zero.wide rounded.wide
  have up' := dyadic_le_iff rounded_zero.wide rounded'.wide
  have down := dyadic_le_iff rounded.wide rounded_zero.wide
  have down' := dyadic_le_iff rounded'.wide rounded_zero.wide
  have ordered := dyadic_le_iff rounded.wide rounded'.wide
  have ordered' := dyadic_le_iff rounded'.wide rounded.wide
  have zero : placeOf 0 (-149) = 0 := by decide
  rw [zero, dyadic_zero] at up up' down down'
  rw [place, place', isValue, isValue']
  cases s <;> cases t <;> simp only [Sign.apply, signed_positive, signed_negative, neg_le_neg_iff]
  · exact ordered'.symm
  · exact iff_of_true (by have := up.mp nonneg; have := up'.mp nonneg'; omega) (by linarith)
  · constructor
    · intro below
      have nothing := down.mpr (by have := up'.mp nonneg'; omega)
      have nothing' := down'.mpr (by have := up.mp nonneg; omega)
      linarith
    · intro below
      have nothing := down.mp (by linarith)
      have nothing' := down'.mp (by linarith)
      omega
  · exact ordered.symm

/-- Finite numbers are compared by their values. -/
theorem le_iff_value (first : x.isFinite) (second : y.isFinite) : x ≤ y ↔ value x ≤ value y := by
  rw [le_iff, level_le_iff first second]
  simp only [isNaN_of_isFinite first, isNaN_of_isFinite second, true_and]

theorem lt_iff_value (first : x.isFinite) (second : y.isFinite) : x < y ↔ value x < value y := by
  rw [← not_le, ← le_iff_value second first,
    not_le_iff (isNaN_of_isFinite second) (isNaN_of_isFinite first)]

/-- Finite numbers count as equal where their values are, so the two zeros do. -/
theorem beq_iff_value (first : x.isFinite) (second : y.isFinite) : x == y ↔ value x = value y := by
  rw [beq_iff]
  simp only [isNaN_of_isFinite first, isNaN_of_isFinite second, true_and, le_antisymm_iff,
    level_le_iff first second, level_le_iff second first]

theorem value_max (first : x.isFinite) (second : y.isFinite) : value (max x y) = value x ⊔ value y := by
  unfold max
  rw [isNaN_of_isFinite first, Bool.or_false]
  split
  · rename_i below
    rw [decide_eq_true_eq, lt_iff_value first second] at below
    exact (sup_eq_right.mpr below.le).symm
  · rename_i above
    rw [decide_eq_true_eq, lt_iff_value first second, not_lt] at above
    exact (sup_eq_left.mpr above).symm

theorem value_min (first : x.isFinite) (second : y.isFinite) : value (min x y) = value x ⊓ value y := by
  unfold min
  rw [isNaN_of_isFinite first, Bool.or_false]
  split
  · rename_i below
    rw [decide_eq_true_eq, lt_iff_value second first] at below
    exact (inf_eq_right.mpr below.le).symm
  · rename_i above
    rw [decide_eq_true_eq, lt_iff_value second first, not_lt] at above
    exact (inf_eq_left.mpr above).symm

theorem value_neg (x : Float32) : value (-x) = -value x := by
  rw [value, value, unpack_neg]
  cases x.toModel.unpack with
  | finite sign m e positive => exact signed_neg sign (dyadic m e)
  | _ => exact neg_zero.symm

theorem value_abs (x : Float32) : value x.abs = |value x| := by
  rw [value, value, unpack_abs]
  cases x.toModel.unpack with
  | finite sign m e positive =>
    have absolute := abs_of_nonneg (dyadic_nonneg m e)
    dsimp only [UnpackedFloat.abs, unpackedValue]
    rw [abs_signed, absolute, signed_positive]
  | _ => exact abs_zero.symm

/-- Finite numbers of one value are the same number, unless they are zeros. -/
theorem eq_of_value_eq (first : x.isFinite) (second : y.isFinite) (same : value x = value y)
    (away : level x ≠ 0) : x = y :=
  eq_of_level_eq (Int.le_antisymm ((level_le_iff first second).mpr same.le)
    ((level_le_iff second first).mpr same.ge)) away

/-- Every value is a whole multiple of the least positive one. -/
theorem value_grid (finite : x.isFinite) : ∃ k : ℤ, value x = k * 2 ^ (-149 : Int) := by
  obtain ⟨sign, m, e, rounded, -, -, isValue⟩ := parts_of_isFinite finite
  refine ⟨sign.apply (m * 2 ^ (e - -149).toNat : Nat), ?_⟩
  rw [isValue, ← signed_apply, ← dyadic, dyadic_shift m rounded.2.1]

end


end Sapling.Scalar
