import Sapling.Geometry.Orientation
import Sapling.Proofs.Scalar.Bounds

/-! Vectors component by component, and bounds on them. A vector over its length has components of at most
two, however long or short it is, unless its squared length vanishes. -/
namespace Sapling

open Scalar Float.Model

namespace Scalar

variable {c square : Float32}

/-- The root of a positive number is far from both underflow and overflow. -/
theorem root_between (finite : square.isFinite) (positive : 0 < value square) :
    Between (2 ^ (-75 : ℤ)) (2 ^ (64 : ℤ)) square.sqrt := by
  have least := least_le finite positive
  have most := abs_value_lt finite
  rw [abs_of_pos positive] at most
  refine (rounds_sqrt finite positive.le).between (representable_power (by decide) (by decide))
    (representable_power (by decide) (by decide)) ?_ ?_
  · refine Real.le_sqrt_of_sq_le (LE.le.trans ?_ least)
    norm_num
  · rw [Real.sqrt_le_left (by positivity)]
    norm_num at most ⊢
    exact most.le

/-- A finite number is small, or a power of two tells its size up to a factor of two. -/
theorem exists_size (finite : c.isFinite) : |value c| ≤ 2 ^ (-74 : ℤ) ∨
    ∃ j : ℤ, -74 ≤ j ∧ j ≤ 127 ∧ 2 ^ j ≤ |value c| ∧ |value c| ≤ 2 ^ (j + 1) := by
  obtain ⟨sign, m, e, ⟨small, least, normal⟩, place, -, isValue⟩ := parts_of_isFinite finite
  have size : |value c| = m * 2 ^ e := by
    rw [isValue, abs_signed, abs_of_nonneg (dyadic_nonneg m e), dyadic]
  have above : |value c| ≤ 2 ^ (e + 24) := by
    have small : (m : ℝ) ≤ 2 ^ 24 := by exact_mod_cast small.le
    rw [size, zpow_add₀ two_ne_zero, mul_comm]
    exact mul_le_mul_of_nonneg_left (by norm_num at small ⊢; exact small) (by positivity)
  rcases Int.lt_or_le e (-97) with low | high
  · exact .inl (above.trans (zpow_le_zpow_right₀ one_le_two (by omega)))
  · have large : (2 ^ 23 : ℝ) ≤ m := by exact_mod_cast normal (by omega)
    simp only [placeOf] at place
    refine .inr ⟨e + 23, by omega, by omega, ?_, above.trans_eq (by ring_nf)⟩
    rw [size, zpow_add₀ two_ne_zero, mul_comm]
    exact mul_le_mul_of_nonneg_right (by norm_num at large ⊢; exact large) (by positivity)

/-- The squared length that a component is part of gives the length at least the size of the component. -/
theorem size_le_root (finite : square.isFinite) (positive : 0 < value square) (isNumber : c.isFinite)
    (part : (c * c).isFinite) (below : value (c * c) ≤ value square) :
    ∃ j : ℤ, -75 ≤ j ∧ j ≤ 63 ∧ |value c| ≤ 2 ^ (j + 1) ∧ 2 ^ j ≤ value square.sqrt := by
  have rounds := rounds_mul isNumber isNumber
  have root := rounds_sqrt finite positive.le
  rcases exists_size isNumber with small | ⟨j, least, most, low, high⟩
  · exact ⟨-75, le_rfl, by decide, small, (root_between finite positive).low⟩
  · have square_low : (2 : ℝ) ^ (2 * j) ≤ value c * value c := by
      rw [← abs_mul_abs_self, two_mul, zpow_add₀ two_ne_zero]
      exact mul_le_mul low low (by positivity) (abs_nonneg _)
    have fits : j ≤ 63 := by
      by_contra large
      refine absurd part (rounds.huge ?_)
      rw [abs_mul_self]
      refine LE.le.trans ?_ square_low
      rw [show (2 : ℝ) ^ 128 = 2 ^ (128 : ℤ) by norm_num]
      exact zpow_le_zpow_right₀ one_le_two (by omega)
    refine ⟨j, by omega, fits, high, root.at_least (representable_power (by omega) (by omega)) ?_
      (root_between finite positive).finite⟩
    refine Real.le_sqrt_of_sq_le ?_
    rw [← zpow_natCast, ← zpow_mul, mul_comm]
    exact (rounds.at_least (representable_power (by omega) (by omega)) square_low part).trans below

/-- A component over the length. Where the squared length is infinite, the inverse of the length vanishes. -/
theorem component_within (isNumber : c.isFinite) (nonneg : Nonneg square) (away : 0 < level square)
    (part : square.isFinite → (c * c).isFinite ∧ value (c * c) ≤ value square) :
    Between (-2) 2 (c * (1 / square.sqrt)) := by
  have two : Representable 2 := ⟨2, rfl, value_two⟩
  by_cases finite : square.isFinite
  · have squarePos : 0 < value square := by
      by_contra vanishes
      have below := (level_le_iff finite (show (0 : Float32).isFinite from rfl)).mpr
        (value_zero.symm ▸ not_lt.mp vanishes)
      exact absurd away (Int.not_lt.mpr below)
    obtain ⟨j, least, most, high, low⟩ :=
      size_le_root finite squarePos isNumber (part finite).1 (part finite).2
    have root := root_between finite squarePos
    have power : (0 : ℝ) < 2 ^ j := by positivity
    have positive : 0 < value square.sqrt := power.trans_le low
    have rounds := rounds_div (show (1 : Float32).isFinite from rfl) root.finite positive.ne'
    rw [value_one] at rounds
    have inverse : Between 0 (2 ^ (-j)) (1 / square.sqrt) := by
      refine rounds.between representable_zero (representable_power (by omega) (by omega))
        (by positivity) ?_
      rw [zpow_neg, ← one_div]
      exact one_div_le_one_div_of_le power low
    have product : |value c * value (1 / square.sqrt)| ≤ 2 := by
      rw [abs_mul, abs_of_nonneg inverse.low]
      calc |value c| * value (1 / square.sqrt)
        _ ≤ 2 ^ (j + 1) * 2 ^ (-j) := mul_le_mul high inverse.high inverse.low (by positivity)
        _ = 2 := by rw [← zpow_add₀ two_ne_zero]; norm_num
    obtain ⟨below, above⟩ := abs_le.mp product
    exact (rounds_mul isNumber inverse.finite).between two.neg two below above
  · have vanishes : 1 / square.sqrt = 0 := by
      rw [sqrt_unpack, infinite_of_nonneg nonneg finite]
      decide +kernel
    have rounds := rounds_mul isNumber (show (0 : Float32).isFinite from rfl)
    rw [value_zero, mul_zero] at rounds
    rw [vanishes]
    exact rounds.between two.neg two (by norm_num) (by norm_num)

/-- The inverse of a length of zero is infinite. -/
theorem away_of_inverse (nonneg : Nonneg square) (finite : (1 / square.sqrt).isFinite) :
    0 < level square := by
  by_contra vanishes
  have zero : level square = 0 := Int.le_antisymm (Int.not_lt.mp vanishes) nonneg.up
  have isFinite := nonneg.isFinite_of_level (zero.trans_lt (by decide))
  have place := level_eq nonneg.isNumber
  rw [sqrt_unpack] at finite
  rcases shape_of_isFinite isFinite with ⟨sign, shape⟩ | ⟨sign, m, e, positive, shape⟩
  · rw [shape] at finite
    exact absurd finite (by cases sign <;> decide +kernel)
  · have canonical := (unpack_fields square).canonical
    rw [shape, zero] at place
    rw [shape] at canonical
    have mantissaPos := canonical.rounded.2.1
    cases sign <;> dsimp only [unpackedLevel, UnpackedFloat.Sign.apply, placeOf] at place mantissaPos <;> omega

end Scalar

namespace Vec3

/-- All components are within a bound of zero. -/
structure Within (bound : ℝ) (a : Vec3) : Prop where
  x : Between (-bound) bound a.x
  y : Between (-bound) bound a.y
  z : Between (-bound) bound a.z

variable {a b : Vec3} {k : Float32} {bound bound' : ℝ}

theorem isFinite_iff : a.isFinite ↔ a.x.isFinite ∧ a.y.isFinite ∧ a.z.isFinite := by
  simp only [isFinite, Bool.and_eq_true, and_assoc]

theorem Within.isFinite (within : Within bound a) : a.isFinite :=
  isFinite_iff.mpr ⟨within.x.finite, within.y.finite, within.z.finite⟩

theorem Within.weaken (within : Within bound a) (wider : bound ≤ bound') : Within bound' a :=
  ⟨within.x.weaken (neg_le_neg wider) wider, within.y.weaken (neg_le_neg wider) wider,
    within.z.weaken (neg_le_neg wider) wider⟩

theorem zero_within : Between (-2) 2 (0 : Float32) := ⟨rfl, by norm_num, by norm_num⟩

theorem one_within : Between (-2) 2 (1 : Float32) := ⟨rfl, by norm_num, by norm_num⟩

theorem unitX_within : unitX.Within 2 := ⟨one_within, zero_within, zero_within⟩

theorem unitY_within : unitY.Within 2 := ⟨zero_within, one_within, zero_within⟩

theorem unitZ_within : unitZ.Within 2 := ⟨zero_within, zero_within, one_within⟩

/-- The bounds of a sum add up where their sum is a number itself. -/
theorem Within.add (first : Within bound a) (second : Within bound' b)
    (sum : Representable (bound + bound')) : Within (bound + bound') (a + b) :=
  ⟨within_add first.x second.x sum, within_add first.y second.y sum, within_add first.z second.z sum⟩

theorem Within.sub (first : Within bound a) (second : Within bound' b)
    (sum : Representable (bound + bound')) : Within (bound + bound') (a - b) :=
  ⟨within_sub first.x second.x sum, within_sub first.y second.y sum, within_sub first.z second.z sum⟩

/-- The bounds of a scaled vector multiply where their product is a number itself. -/
theorem Within.scale (first : Within bound a) (factor : Between (-bound') bound' k)
    (product : Representable (bound * bound')) : Within (bound * bound') (a * k) :=
  ⟨first.x.mul factor product, first.y.mul factor product, first.z.mul factor product⟩

theorem Within.weigh (factor : Between (-bound) bound k) (second : Within bound' a)
    (product : Representable (bound * bound')) : Within (bound * bound') (k * a) :=
  ⟨factor.mul second.x product, factor.mul second.y product, factor.mul second.z product⟩

/-- The components of a cross product are within two products of the bounds. -/
theorem Within.cross (first : Within bound a) (second : Within bound' b)
    (product : Representable (bound * bound')) (both : Representable (bound * bound' + bound' * bound)) :
    Within (bound * bound' + bound' * bound) (a.cross b) := by
  have product' : Representable (bound' * bound) := mul_comm bound bound' ▸ product
  exact ⟨within_sub (first.y.mul second.z product) (second.y.mul first.z product') both,
    within_sub (first.z.mul second.x product) (second.z.mul first.x product') both,
    within_sub (first.x.mul second.y product) (second.x.mul first.y product') both⟩

/-- A squared length is never negative, even where it is infinite. -/
theorem nonneg_lengthSquared (x : a.x.isNaN = false) (y : a.y.isNaN = false) (z : a.z.isNaN = false) :
    Nonneg a.lengthSquared :=
  ((nonneg_square x).add (nonneg_square y)).add (nonneg_square z)

private theorem nonneg_of_isFinite (finite : a.isFinite) : Nonneg a.lengthSquared :=
  have parts := isFinite_iff.mp finite
  nonneg_lengthSquared (isNaN_of_isFinite parts.1) (isNaN_of_isFinite parts.2.1)
    (isNaN_of_isFinite parts.2.2)

/-- A vector over its length, if that is not zero. -/
theorem normalize_within (finite : a.isFinite) (away : 0 < level a.lengthSquared) : Within 2 a.normalize := by
  obtain ⟨x, y, z⟩ := isFinite_iff.mp finite
  have nonneg := nonneg_of_isFinite finite
  have first := nonneg_square (isNaN_of_isFinite x)
  have second := nonneg_square (isNaN_of_isFinite y)
  have third := nonneg_square (isNaN_of_isFinite z)
  have sums (whole : a.lengthSquared.isFinite) :=
    And.intro (finite_of_add whole) (le_of_add (first.add second) third whole)
  refine ⟨component_within x nonneg away fun whole => ?_, component_within y nonneg away fun whole => ?_,
    component_within z nonneg away fun whole => ?_⟩
  · obtain ⟨⟨plane, -⟩, most, -⟩ := sums whole
    exact ⟨(finite_of_add plane).1, (le_of_add first second plane).1.trans most⟩
  · obtain ⟨⟨plane, -⟩, most, -⟩ := sums whole
    exact ⟨(finite_of_add plane).2, (le_of_add first second plane).2.trans most⟩
  · obtain ⟨⟨-, isFinite⟩, -, most⟩ := sums whole
    exact ⟨isFinite, most⟩

/-- Whatever is normalized, its components are at most two, also where the length loses its precision. -/
theorem normalize?_within (finite : a.isFinite) (found : b ∈ a.normalize?) : Within 2 b := by
  unfold normalize? at found
  by_cases fits : ((1 / a.length).isFinite && 0 < 1 / a.length) = true
  · rw [if_pos fits, Option.mem_some_iff] at found
    have away := away_of_inverse (nonneg_of_isFinite finite) (Bool.and_eq_true_iff.mp fits).1
    exact found ▸ normalize_within finite away
  · rw [if_neg fits] at found
    cases found

end Vec3

end Sapling
