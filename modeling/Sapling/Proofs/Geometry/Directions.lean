import Sapling.Proofs.Geometry.Frames
import Sapling.Proofs.Geometry.Vectors
import Sapling.Proofs.Scalar.Errors

/-! Directions without rounding. The components of a vector over its length are those of the exact unit vector up to
a few roundings, unless the vector is so short that its squared length loses bits. -/
namespace Sapling

open Scalar Matrix

namespace Scalar

variable {c k l square : Float32} {n : ℝ}

/-- The root of a squared length is the length, up to six halves of a unit in its last place. -/
theorem root_near (finite : square.isFinite) (large : 2 ^ (-60 : ℤ) ≤ n)
    (near : |value square - n ^ 2| ≤ 2 ^ (-22 : ℤ) * n ^ 2) :
    square.sqrt.isFinite ∧ |value square.sqrt - n| ≤ 6 * 2 ^ (-24 : ℤ) * n := by
  have positive : 0 < n := lt_of_lt_of_le (by positivity) large
  obtain ⟨low, high⟩ := abs_le.mp near
  norm_num at low high large
  have squarePos : 0 < value square := by nlinarith
  have under : n * (1 - 1 / 4194304) ≤ √(value square) := by
    refine Real.le_sqrt_of_sq_le ?_
    nlinarith
  have beyond : √(value square) ≤ n * (1 + 1 / 4194304) := by
    refine Real.sqrt_le_iff.mpr ⟨by positivity, ?_⟩
    nlinarith
  have isFinite := (root_between finite squarePos).finite
  have error := (rounds_sqrt finite squarePos.le).relative_error isFinite
  rw [abs_of_nonneg (Real.sqrt_nonneg _)] at error
  refine ⟨isFinite, ?_⟩
  norm_num at error ⊢
  rw [abs_le] at error ⊢
  constructor <;> linarith

/-- How far the ratio of a length to its rounded value is from one. -/
theorem ratio_near (positive : 0 < n) (near : |value l - n| ≤ 6 * 2 ^ (-24 : ℤ) * n) :
    0 < value l ∧ |n / value l - 1| ≤ 7 * 2 ^ (-24 : ℤ) := by
  obtain ⟨low, high⟩ := abs_le.mp near
  norm_num at low high
  have lengthPos : 0 < value l := by linarith
  refine ⟨lengthPos, ?_⟩
  rw [div_sub_one lengthPos.ne', abs_div, abs_of_pos lengthPos, div_le_iff₀ lengthPos, abs_le]
  norm_num
  constructor <;> linarith

private theorem inverse_near (finite : l.isFinite) (large : 2 ^ (-60 : ℤ) ≤ n) (small : n ≤ 2 ^ (65 : ℤ))
    (near : |value l - n| ≤ 6 * 2 ^ (-24 : ℤ) * n) :
    (1 / l).isFinite ∧ |value (1 / l) * n - 1| ≤ 9 * 2 ^ (-24 : ℤ) := by
  have positive : 0 < n := lt_of_lt_of_le (by positivity) large
  obtain ⟨rootPos, ratio⟩ := ratio_near positive near
  have rounds := rounds_div (show (1 : Float32).isFinite from rfl) finite rootPos.ne'
  rw [value_one] at rounds
  have most : 1 / value l ≤ 2 ^ (61 : ℤ) := by
    obtain ⟨low, -⟩ := abs_le.mp near
    rw [div_le_iff₀ rootPos]
    norm_num at low large ⊢
    linarith
  have isFinite := (rounds.between representable_zero (representable_power (by decide) (by decide))
    (by positivity) most).finite
  have error := rounds.relative_error isFinite
  have scaled : |value (1 / l) * n - n / value l| ≤ 2 ^ (-24 : ℤ) * (n / value l) + 2 ^ (-150 : ℤ) * n := by
    have split : value (1 / l) * n - n / value l = (value (1 / l) - 1 / value l) * n := by ring
    rw [abs_of_pos (one_div_pos.mpr rootPos)] at error
    rw [split, abs_mul, abs_of_pos positive]
    calc |value (1 / l) - 1 / value l| * n
      _ ≤ (2 ^ (-24 : ℤ) * (1 / value l) + 2 ^ (-150 : ℤ)) * n := by gcongr
      _ = 2 ^ (-24 : ℤ) * (n / value l) + 2 ^ (-150 : ℤ) * n := by ring
  refine ⟨isFinite, ?_⟩
  norm_num at scaled ratio small ⊢
  rw [abs_le] at scaled ratio ⊢
  constructor <;> linarith

/-- A component times the inverse of a length. -/
theorem product_near (first : c.isFinite) (second : k.isFinite) (positive : 0 < n) (part : |value c| ≤ n)
    (near : |value k * n - 1| ≤ 9 * 2 ^ (-24 : ℤ)) :
    Close 1 (2 ^ (-20 : ℤ)) (value c / n) (c * k) := by
  have size : |value c / n| ≤ 1 := by
    rw [abs_div, abs_of_pos positive]
    exact div_le_one_of_le₀ part positive.le
  have apart : |value c * value k - value c / n| ≤ 9 * 2 ^ (-24 : ℤ) := by
    have split : value c * value k - value c / n = value c / n * (value k * n - 1) := by
      field_simp
    rw [split, abs_mul]
    exact (mul_le_mul size near (abs_nonneg _) zero_le_one).trans_eq (one_mul _)
  have fits : |value c * value k| ≤ 2 ^ (1 : ℤ) := by
    have reach := abs_sub_abs_le_abs_sub (value c * value k) (value c / n)
    rw [zpow_one]
    norm_num at apart
    linarith
  refine ((rounds_mul first second).close 1 fits (by norm_num) size apart).weaken le_rfl ?_
  norm_num

/-- A component over a length. -/
theorem quotient_near (first : c.isFinite) (second : l.isFinite) (positive : 0 < n) (part : |value c| ≤ n)
    (near : |value l - n| ≤ 6 * 2 ^ (-24 : ℤ) * n) : Close 1 (2 ^ (-20 : ℤ)) (value c / n) (c / l) := by
  obtain ⟨rootPos, ratio⟩ := ratio_near positive near
  have size : |value c / n| ≤ 1 := by
    rw [abs_div, abs_of_pos positive]
    exact div_le_one_of_le₀ part positive.le
  have apart : |value c / value l - value c / n| ≤ 7 * 2 ^ (-24 : ℤ) := by
    have split : value c / value l - value c / n = value c / n * (n / value l - 1) := by
      field_simp
    rw [split, abs_mul]
    exact (mul_le_mul size ratio (abs_nonneg _) zero_le_one).trans_eq (one_mul _)
  have fits : |value c / value l| ≤ 2 ^ (1 : ℤ) := by
    have reach := abs_sub_abs_le_abs_sub (value c / value l) (value c / n)
    rw [zpow_one]
    norm_num at apart
    linarith
  refine ((rounds_div first second rootPos.ne').close 1 fits (by norm_num) size apart).weaken le_rfl ?_
  norm_num

/-- The inverse of the root of what is no finite number is no positive number. -/
theorem finite_of_inverse_pos (positive : 0 < 1 / square.sqrt) : square.isFinite := by
  rw [sqrt_unpack] at positive
  change square.toModel.unpack.isFinite = true
  cases shape : square.toModel.unpack with
  | notANumber =>
    rw [shape] at positive
    exact absurd positive (by decide +kernel)
  | infinity sign =>
    rw [shape] at positive
    cases sign <;> exact absurd positive (by decide +kernel)
  | _ => rfl

end Scalar

/-- Near an exact unit vector, up to a few roundings for each component. -/
structure NearUnit (v r : Fin 3 → ℝ) : Prop where
  unit : r ⬝ᵥ r = 1
  error (i : Fin 3) : |v i - r i| ≤ 2 ^ (-20 : ℤ)

section
variable {v r : Fin 3 → ℝ}

theorem NearUnit.exact_le_one (near : NearUnit v r) (i : Fin 3) : |r i| ≤ 1 := by
  have component := abs_le_sqrt_dot_self r i
  rwa [near.unit, Real.sqrt_one] at component

theorem NearUnit.small (near : NearUnit v r) (i : Fin 3) : |v i| ≤ 3 / 2 := by
  have error := (abs_sub_abs_le_abs_sub (v i) (r i)).trans (near.error i)
  have component := near.exact_le_one i
  norm_num at error
  linarith

/-- The square of its length is one up to the errors of three components. -/
theorem NearUnit.dot_self (near : NearUnit v r) : |v ⬝ᵥ v - 1| ≤ 2 ^ (-17 : ℤ) := by
  have part (i : Fin 3) : |v i * v i - r i * r i| ≤ 2 ^ (-20 : ℤ) * (5 / 2) := by
    have split : v i * v i - r i * r i = (v i - r i) * (v i + r i) := by ring
    have sum := (abs_add_le (v i) (r i)).trans (add_le_add (near.small i) (near.exact_le_one i))
    rw [split, abs_mul]
    exact mul_le_mul (near.error i) (sum.trans (by norm_num)) (abs_nonneg _) (by positivity)
  rw [← near.unit]
  exact (dot_near part).trans (by norm_num)

end

namespace Vec3

/-- The components in a row. -/
def part (a : Vec3) : Fin 3 → Float32 := ![a.x, a.y, a.z]

/-- The components as real numbers. -/
noncomputable def exact (a : Vec3) : Fin 3 → ℝ := fun i => value (a.part i)

/-- The length without rounding. -/
noncomputable def size (a : Vec3) : ℝ := √(a.exact ⬝ᵥ a.exact)

/-- The unit vector without rounding. -/
noncomputable def heading (a : Vec3) : Fin 3 → ℝ := unitOf a.exact

variable {a b : Vec3}

theorem isFinite_iff_part : a.isFinite ↔ ∀ i, (a.part i).isFinite := by
  simp [isFinite, Fin.forall_fin_succ, part, and_assoc]

theorem part_mul (a : Vec3) (k : Float32) (i : Fin 3) : (a * k).part i = a.part i * k := by
  fin_cases i <;> rfl

theorem size_nonneg (a : Vec3) : 0 ≤ a.size := Real.sqrt_nonneg _

/-- The exact length is the root of the exact sum of squares. -/
theorem size_sq (a : Vec3) : a.size ^ 2 = a.exact ⬝ᵥ a.exact := Real.sq_sqrt (dot_self_nonneg _)

theorem abs_le_size (a : Vec3) (i : Fin 3) : |a.exact i| ≤ a.size := abs_le_sqrt_dot_self a.exact i

private theorem heading_dot_self (positive : 0 < a.size) : a.heading ⬝ᵥ a.heading = 1 :=
  unitOf_dot_self (Real.sqrt_pos.mp positive)

/-- Squares and their sums lose a few halves of a unit in the last place, unless the whole is tiny. -/
theorem lengthSquared_near (whole : a.lengthSquared.isFinite) (large : 2 ^ (-60 : ℤ) ≤ a.size) :
    |value a.lengthSquared - a.size ^ 2| ≤ 2 ^ (-22 : ℤ) * a.size ^ 2 := by
  obtain ⟨plane, high⟩ := finite_of_add whole
  obtain ⟨left, right⟩ := finite_of_add plane
  have square {c : Float32} (fits : (c * c).isFinite) :
      |value (c * c) - value c ^ 2| ≤ 2 ^ (-24 : ℤ) * value c ^ 2 + 2 ^ (-150 : ℤ) ∧ 0 ≤ value (c * c) := by
    have finite := finite_of_mul_self fits
    have error := (rounds_mul finite finite).relative_error fits
    rw [abs_mul_self, ← sq] at error
    exact ⟨error, (nonneg_square (isNaN_of_isFinite finite)).value_nonneg fits⟩
  obtain ⟨squareX, up⟩ := square left
  obtain ⟨squareY, up'⟩ := square right
  obtain ⟨squareZ, up''⟩ := square high
  have sum := (rounds_add left right).relative_error plane
  have total := (rounds_add plane high).relative_error whole
  have upward : 0 ≤ value (a.x * a.x + a.y * a.y) :=
    (rounds_add left right).at_least representable_zero (by linarith) plane
  rw [abs_of_nonneg (add_nonneg up up')] at sum
  rw [abs_of_nonneg (add_nonneg upward up'')] at total
  have least : (2 : ℝ) ^ (-120 : ℤ) ≤ a.size ^ 2 := by
    have power : (2 : ℝ) ^ (-120 : ℤ) = (2 ^ (-60 : ℤ)) ^ 2 := by norm_num
    rw [power]
    gcongr
  have parts : a.size ^ 2 = value a.x ^ 2 + value a.y ^ 2 + value a.z ^ 2 := by
    rw [size_sq, dot_three]
    simp only [sq]
    rfl
  change |value (a.x * a.x + a.y * a.y + a.z * a.z) - a.size ^ 2| ≤ _
  rw [abs_le] at squareX squareY squareZ sum total ⊢
  norm_num at squareX squareY squareZ sum total least ⊢
  constructor <;> linarith [sq_nonneg (value a.x), sq_nonneg (value a.y), sq_nonneg (value a.z)]

/-- A vector is normalized where the inverse of its length is finite and positive, and by that inverse. -/
theorem mem_normalize?_iff : b ∈ a.normalize? ↔
    (1 / a.length).isFinite ∧ 0 < 1 / a.length ∧ a * (1 / a.length) = b := by
  simp only [normalize?, Option.mem_def, Option.ite_none_right_eq_some, Bool.and_eq_true, decide_eq_true_eq,
    Option.some.injEq, and_assoc]

/-- A vector that has a direction is finite. -/
theorem isFinite_of_normalize? (found : b ∈ a.normalize?) : a.isFinite ∧ a.lengthSquared.isFinite := by
  have whole := finite_of_inverse_pos (mem_normalize?_iff.mp found).2.1
  obtain ⟨plane, high⟩ := finite_of_add whole
  obtain ⟨left, right⟩ := finite_of_add plane
  exact ⟨isFinite_iff.mpr ⟨finite_of_mul_self left, finite_of_mul_self right, finite_of_mul_self high⟩, whole⟩

/-- The inverse of the length, with the length as the unit. -/
theorem inverse_length_near (whole : a.lengthSquared.isFinite) (large : 2 ^ (-60 : ℤ) ≤ a.size) :
    (1 / a.length).isFinite ∧ |value (1 / a.length) * a.size - 1| ≤ 9 * 2 ^ (-24 : ℤ) := by
  have near := lengthSquared_near whole large
  obtain ⟨isRoot, root⟩ := root_near whole large near
  refine inverse_near isRoot large ?_ root
  have most := (le_abs_self _).trans (abs_value_lt whole).le
  refine le_of_sq_le_sq ?_ (by positivity)
  norm_num at near most ⊢
  rw [abs_le] at near
  linarith

/-- The unit vector of a direction is that of its exact components, up to a few roundings. -/
theorem normalize?_near (large : 2 ^ (-60 : ℤ) ≤ a.size) (found : b ∈ a.normalize?) (i : Fin 3) :
    Close 1 (2 ^ (-20 : ℤ)) (a.heading i) (b.part i) := by
  obtain ⟨finite, whole⟩ := isFinite_of_normalize? found
  obtain ⟨-, squarePos, rfl⟩ := mem_normalize?_iff.mp found
  obtain ⟨isInverse, near⟩ := inverse_length_near whole large
  have positive : 0 < a.size := lt_of_lt_of_le (by positivity) large
  rw [part_mul]
  exact product_near (isFinite_iff_part.mp finite i) isInverse positive (a.abs_le_size i) near

/-- A vector that is not tiny is normalized to the direction it has, up to rounding. -/
theorem nearUnit_of_mem (large : 2 ^ (-60 : ℤ) ≤ a.size) (found : b ∈ a.normalize?) :
    NearUnit b.exact a.heading :=
  ⟨heading_dot_self (lt_of_lt_of_le (by positivity) large), fun i => (normalize?_near large found i).error⟩

/-- Every vector of moderate length has a direction. -/
theorem exists_normalize? (finite : a.isFinite) (large : 2 ^ (-60 : ℤ) ≤ a.size)
    (small : a.size ≤ 2 ^ (60 : ℤ)) : ∃ b, b ∈ a.normalize? := by
  have close (i : Fin 3) := close_value (isFinite_iff_part.mp finite i) ((a.abs_le_size i).trans small)
  have square (i : Fin 3) := (close i).mul (close i) 120 (by norm_num)
  have plane := (square 0).add (square 1) 122 (by norm_num)
  have whole := plane.add (square 2) 123 (by norm_num)
  obtain ⟨isInverse, near⟩ := inverse_length_near whole.finite large
  refine ⟨_, mem_normalize?_iff.mpr ⟨isInverse, ?_, rfl⟩⟩
  rw [lt_iff_value rfl isInverse, value_zero]
  obtain ⟨low, -⟩ := abs_le.mp near
  norm_num at low
  exact pos_of_mul_pos_left (by linarith) a.size_nonneg

end Vec3


end Sapling
