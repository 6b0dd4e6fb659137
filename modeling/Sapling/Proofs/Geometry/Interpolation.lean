import Sapling.Proofs.Scalar.Bounds
import Sapling.Proofs.Scalar.Order
import Sapling.Proofs.Settings.Checks
import Sapling.Scalar

/-! Numbers between two others. A ratio lies between zero and one unless both its differences overflow, and a
blend of two widths only vanishes where it is complete and the smaller one is lost beside the larger. -/
namespace Sapling

open Scalar

section
variable {a b v : Float32}

/-- What the settings take for a number of the unit interval is one by its value. -/
theorem unitNumber_iff_between : UnitNumber v ↔ Between 0 1 v := by
  constructor
  · rintro ⟨above, below⟩
    exact between_unit above below
  · intro between
    refine ⟨(le_iff_value rfl between.finite).mpr ?_, (le_iff_value between.finite rfl).mpr ?_⟩
    · rw [value_zero]
      exact between.low
    · rw [value_one]
      exact between.high

/-! ## Ratios -/

theorem epsilon_between : Between 0 1 epsilon := by
  have finite : epsilon.isFinite := by decide +kernel
  have one : (1 : Float32).isFinite := rfl
  have zero : (0 : Float32).isFinite := rfl
  have low := (le_iff_value zero finite).mp (by decide +kernel)
  have high := (le_iff_value finite one).mp (by decide +kernel)
  rw [value_zero] at low
  rw [value_one] at high
  exact ⟨finite, low, high⟩

/-- The tolerance for equal ends is two to the minus twenty-third. -/
theorem le_epsilon_iff (finite : v.isFinite) : v ≤ epsilon ↔ value v ≤ 2 ^ (-23 : ℤ) := by
  rw [le_iff_value finite epsilon_between.finite, value_epsilon]

/-- No infinite difference is within the tolerance. -/
theorem not_abs_le_epsilon (isNumber : v.isNaN = false) (infinite : ¬ v.isFinite) :
    ¬ v.abs ≤ epsilon := by
  intro small
  obtain ⟨sign, shape⟩ := infinity_of_not_isFinite isNumber infinite
  have place := level_eq ((isNaN_abs v).trans isNumber)
  rw [unpack_abs, shape] at place
  have place : level v.abs = 255 * 2 ^ 23 := place.symm
  have top := (levels_of_isFinite epsilon_between.finite).2
  have small := (le_iff.mp small).2.2
  omega

private theorem value_ne_zero_of_far (finite : v.isFinite) (far : ¬ v.abs ≤ epsilon) : value v ≠ 0 := by
  intro vanishes
  rw [le_iff_value ((isFinite_abs v).trans finite) epsilon_between.finite, value_abs, vanishes, abs_zero] at far
  exact far epsilon_between.low

/-- A ratio lies in the unit interval as soon as one of the two differences does not overflow. -/
theorem inverseLerp_between (first : a.isFinite) (second : b.isFinite) (third : v.isFinite)
    (fits : (b - a).isFinite ∨ (v - a).isFinite) : Between 0 1 (inverseLerp a b v) := by
  have span := (rounds_sub second first).isNumber
  have rise := (rounds_sub third first).isNumber
  unfold inverseLerp
  by_cases near : (b - a).abs ≤ epsilon
  · rw [if_pos near]
    exact ⟨rfl, value_zero.ge, value_zero.trans_le zero_le_one⟩
  · rw [if_neg near]
    exact clamp_unit (div_isNumber rise span (fun finite => value_ne_zero_of_far finite near) fits.symm)

/-- Without a finite difference a ratio is no number. -/
theorem inverseLerp_isNaN (first : a.isFinite) (second : b.isFinite) (third : v.isFinite)
    (span : ¬ (b - a).isFinite) (rise : ¬ (v - a).isFinite) : (inverseLerp a b v).isNaN := by
  have isNumber := (rounds_sub second first).isNumber
  have quotient := div_isNaN (rounds_sub third first).isNumber isNumber rise span
  unfold inverseLerp
  rw [if_neg (not_abs_le_epsilon isNumber span)]
  change (clamp ((v - a) / (b - a)) 0 1).isNaN
  rw [clamp_nan quotient]
  exact quotient

end

/-! ## Neighbours -/

section
variable {x f : Float32}

/-- The gap below a number that is large enough to have a full mantissa. -/
theorem exists_below (finite : x.isFinite) (large : 2 ^ (-126 : ℤ) < value x) :
    ∃ gap, 0 < gap ∧ gap * 2 ^ 23 < value x ∧ Representable (value x - gap) := by
  obtain ⟨sign, m, e, rounded, place, -, isValue⟩ := parts_of_isFinite finite
  obtain rfl : sign = .positive := by
    cases sign with
    | positive => rfl
    | negative =>
      have nonneg := dyadic_nonneg m e
      have power : (0 : ℝ) < 2 ^ (-126 : ℤ) := by positivity
      rw [isValue, signed_negative] at large
      linarith
  rw [signed_positive] at isValue
  rw [isValue] at large ⊢
  obtain ⟨small, least, normal⟩ := rounded
  have normalized : 2 ^ 23 ≤ m := by
    by_contra short
    obtain rfl : e = -149 := by
      by_contra high
      exact short (normal high)
    have least : dyadic m (-149) < dyadic (2 ^ 23) (-149) := by
      rw [dyadic, dyadic]
      gcongr
      omega
    norm_num [dyadic] at least large
    linarith
  have most : e ≤ 104 := by
    simp only [placeOf] at place
    omega
  have power : (0 : ℝ) < 2 ^ e := by positivity
  rcases Nat.lt_or_eq_of_le normalized with more | same
  · refine ⟨2 ^ e, power, ?_, ?_⟩
    · have more : (2 ^ 23 : ℝ) < m := by exact_mod_cast more
      rw [dyadic, mul_comm]
      gcongr
    · have less : dyadic m e - 2 ^ e = dyadic (m - 1) e := by
        rw [dyadic, dyadic, Nat.cast_sub (by omega)]
        push_cast
        ring
      rw [less]
      exact representable_dyadic (by omega) least most
  · -- Below a power of two the numbers are twice as close.
    subst same
    have half : (2 : ℝ) ^ e = 2 * 2 ^ (e - 1) := by
      rw [← zpow_one_add₀ two_ne_zero]
      congr 1
      omega
    have high : e ≠ -149 := by
      rintro rfl
      norm_num [dyadic] at large
    refine ⟨2 ^ (e - 1), by positivity, ?_, ?_⟩
    · rw [dyadic]
      push_cast
      linarith
    · have less : dyadic (2 ^ 23) e - 2 ^ (e - 1) = dyadic (2 ^ 24 - 1) (e - 1) := by
        rw [dyadic, dyadic, half]
        push_cast
        ring
      rw [less]
      exact representable_dyadic (by omega) (by omega) (by omega)

private theorem le_of_lt_one (finite : f.isFinite) (below : value f < 1) : value f ≤ 1 - 2 ^ (-24 : ℤ) := by
  obtain ⟨sign, m, e, rounded, -, -, isValue⟩ := parts_of_isFinite finite
  have nonneg := dyadic_nonneg m e
  rw [isValue] at below ⊢
  cases sign with
  | negative =>
    rw [signed_negative]
    have least : (2 : ℝ) ^ (-24 : ℤ) ≤ 1 := by norm_num
    linarith
  | positive =>
    have one : dyadic (2 ^ 23) (-23) = 1 := by norm_num [dyadic]
    have next : dyadic (2 ^ 24 - 1) (-24) = 1 - 2 ^ (-24 : ℤ) := by norm_num [dyadic]
    have first : Wide (2 ^ 23) (-23) := ⟨by decide, by decide, fun _ => Nat.le_refl _⟩
    have second : Wide (2 ^ 24 - 1) (-24) := ⟨by decide, by decide, fun _ => by decide⟩
    rw [signed_positive] at below ⊢
    rw [← one, dyadic_lt_iff rounded.wide first] at below
    rw [← next, dyadic_le_iff rounded.wide second]
    simp only [placeOf] at below ⊢
    omega

end

/-! ## Blends -/

section
variable {low high f : Float32}

/-- A number that passed the check for positive ones has a positive value. -/
theorem Positive.value_pos {x : Float32} (positive : Positive x) : 0 < value x := by
  have above := (lt_iff_value rfl positive.finite).mp positive.above
  rwa [value_zero] at above

/-- A difference of numbers as small as these is exact. -/
theorem sub_exact_of_small (first : Positive low) (second : Positive high)
    (ordered : value low ≤ value high) (small : value high ≤ 2 ^ (-126 : ℤ)) :
    value (low - high) = value low - value high := by
  obtain ⟨k, isLow⟩ := value_grid first.finite
  obtain ⟨l, isHigh⟩ := value_grid second.finite
  have unit : (0 : ℝ) < 2 ^ (-149 : ℤ) := by positivity
  have difference : value low - value high = -dyadic (l - k).toNat (-149) := by
    have up : k ≤ l := by
      rw [isLow, isHigh] at ordered
      exact_mod_cast le_of_mul_le_mul_right ordered unit
    have cast : (((l - k).toNat : ℤ) : ℝ) = l - k := by
      rw [Int.toNat_of_nonneg (by omega)]
      push_cast
      ring
    rw [isLow, isHigh, dyadic, ← Int.cast_natCast, cast]
    ring
  have few : (l - k).toNat < 2 ^ 24 := by
    have top : (2 : ℝ) ^ (-126 : ℤ) = 2 ^ 23 * 2 ^ (-149 : ℤ) := by norm_num
    have positive := first.value_pos
    rw [isHigh, top] at small
    rw [isLow] at positive
    have most : l ≤ 2 ^ 23 := by exact_mod_cast le_of_mul_le_mul_right small unit
    have least : 0 < k := by exact_mod_cast pos_of_mul_pos_left positive unit.le
    omega
  rw [difference]
  have rounds := rounds_sub first.finite second.finite
  rw [difference] at rounds
  exact (rounds.exact (representable_dyadic few le_rfl (by decide)).neg).2

/-- The part of the way from the larger width to the smaller one that a blend takes. -/
theorem way_between (first : Positive low) (second : Positive high) (ordered : value low ≤ value high)
    (part : Between 0 1 f) : Between (-value high) 0 (low - high) ∧
      Between (value (low - high)) 0 ((low - high) * f) := by
  have positive := first.value_pos
  have way : Between (-value high) 0 (low - high) :=
    (rounds_sub first.finite second.finite).between (representable_value second.finite).neg
      representable_zero (by linarith) (by linarith)
  refine ⟨way, (rounds_mul way.finite part.finite).between (representable_value way.finite)
    representable_zero ?_ ?_⟩
  · nlinarith [part.high, way.high]
  · exact mul_nonpos_of_nonpos_of_nonneg way.high part.low

/-- A product with a number below one stays away from the larger factor, if that one is large. -/
theorem lt_of_lt_one (finite : high.isFinite) (large : 2 ^ (-126 : ℤ) < value high) (part : Between 0 1 f)
    (below : value f < 1) : -value high < value (-high * f) := by
  obtain ⟨gap, gapPos, narrow, y, finite', isValue⟩ := exists_below finite large
  have rounds := rounds_mul ((isFinite_neg high).trans finite) part.finite
  rw [value_neg] at rounds
  have power : (0 : ℝ) < 2 ^ (-126 : ℤ) := by positivity
  have least := le_of_lt_one part.finite below
  have between := rounds.between (representable_value finite).neg representable_zero
    (by nlinarith [part.high]) (by nlinarith [part.low])
  refine lt_of_le_of_ne between.low fun same => ?_
  -- The neighbour of the larger factor would be nearer.
  have nearer := rounds.nearest between.finite (-y) ((isFinite_neg y).trans finite')
  rw [value_neg, isValue, ← same] at nearer
  have left : value high * 2 ^ (-24 : ℤ) ≤ value high * (1 - value f) := by
    gcongr
    linarith
  have half : gap < 2 * (value high * 2 ^ (-24 : ℤ)) := by
    norm_num at narrow ⊢
    linarith
  have away : 0 ≤ value high * (1 - value f) := by nlinarith
  rw [show -value high - -value high * value f = -(value high * (1 - value f)) by ring, abs_neg,
    abs_of_nonneg away, show -(value high - gap) - -value high * value f =
      gap - value high * (1 - value f) by ring] at nearer
  rcases abs_cases (gap - value high * (1 - value f)) with ⟨isAbs, _⟩ | ⟨isAbs, _⟩ <;>
    rw [isAbs] at nearer <;> linarith

/-- Going from the larger of two positive ends to the smaller one stays between zero and the larger end. -/
theorem lerp_between (first : Positive low) (second : Positive high) (ordered : value low ≤ value high)
    (part : Between 0 1 f) : Between 0 (value high) (lerp high low f) := by
  obtain ⟨way, taken⟩ := way_between first second ordered part
  refine (rounds_add second.finite taken.finite).between representable_zero
    (representable_value second.finite) ?_ ?_
  · linarith [way.low, taken.low]
  · linarith [taken.high]

/-- A blend is positive unless all of the larger width is taken away. -/
theorem lerp_positive_iff_way (first : Positive low) (second : Positive high)
    (ordered : value low ≤ value high) (part : Between 0 1 f) :
    Positive (lerp high low f) ↔ value ((low - high) * f) ≠ -value high := by
  obtain ⟨way, taken⟩ := way_between first second ordered part
  have blend := lerp_between first second ordered part
  have rounds := rounds_add second.finite taken.finite
  rw [positive_iff, and_iff_right blend.finite, lt_iff_value rfl blend.finite, value_zero]
  constructor
  · intro above all
    rw [all, add_neg_cancel] at rounds
    have vanishes : value (lerp high low f) = 0 := (rounds.exact representable_zero).2
    exact absurd vanishes above.ne'
  · intro short
    obtain ⟨k, isHigh⟩ := value_grid second.finite
    obtain ⟨l, isTaken⟩ := value_grid taken.finite
    have unit : (0 : ℝ) < 2 ^ (-149 : ℤ) := by positivity
    have least : dyadic 1 (-149) ≤ value high + value ((low - high) * f) := by
      have positive : -value high < value ((low - high) * f) :=
        lt_of_le_of_ne (way.low.trans taken.low) short.symm
      have positive : 0 < ((k + l : ℤ) : ℝ) * 2 ^ (-149 : ℤ) := by
        push_cast
        rw [isHigh, isTaken] at positive
        linarith
      have positive : (1 : ℤ) ≤ k + l := by exact_mod_cast pos_of_mul_pos_left positive unit.le
      have positive : (1 : ℝ) ≤ k + l := by exact_mod_cast positive
      rw [isHigh, isTaken, dyadic, Nat.cast_one, ← add_mul]
      gcongr
    have between := rounds.between (representable_dyadic (by decide) le_rfl (by decide))
      (representable_value second.finite) least (by linarith [taken.high])
    exact (dyadic_pos Nat.one_pos).trans_le between.low

/-- A blend of two widths is positive unless it is complete and the smaller width is lost beside the
larger. -/
theorem lerp_positive_iff (first : Positive low) (second : Positive high) (ordered : low ≤ high)
    (part : Between 0 1 f) :
    Positive (lerp high low f) ↔ ¬ (low - high = -high ∧ 1 ≤ f) := by
  have ordered := (le_iff_value first.finite second.finite).mp ordered
  obtain ⟨way, taken⟩ := way_between first second ordered part
  have positive := second.value_pos
  have finite : (-high).isFinite := (isFinite_neg high).trans second.finite
  rw [lerp_positive_iff_way first second ordered part, ne_eq, not_iff_not,
    le_iff_value rfl part.finite, value_one]
  constructor
  · intro all
    have whole : value (low - high) = -value high :=
      le_antisymm (all ▸ taken.low) way.low
    have lost : low - high = -high := by
      refine eq_of_value_eq way.finite finite (whole.trans (value_neg high).symm) fun level => ?_
      have above := (level_le_iff (x := 0) rfl way.finite).mp level.ge
      rw [value_zero] at above
      linarith
    refine ⟨lost, ?_⟩
    by_contra below
    have large : 2 ^ (-126 : ℤ) < value high := by
      by_contra small
      have exact := sub_exact_of_small first second ordered (not_lt.mp small)
      linarith [first.value_pos]
    have short := lt_of_lt_one second.finite large part (not_le.mp below)
    rw [← lost, all] at short
    exact lt_irrefl _ short
  · rintro ⟨lost, complete⟩
    have rounds := rounds_mul finite part.finite
    rw [value_neg, le_antisymm part.high complete, mul_one] at rounds
    rw [lost]
    exact (rounds.exact (representable_value second.finite).neg).2

end

/-! ## Order

Ratios and blends in order. Between two ends in order the ratio of a number does not fall as the number moves
up, and a blend from the larger of two widths to the smaller one does not rise as its part grows. Each step is
rounded, and none of the roundings turns anything around.
-/

section
variable {a b v w : Float32}

/-- The ratio for an accepted range is always in the unit interval. -/
theorem inverseLerp_inside (ends : Span (a, b)) (finite : v.isFinite) : Between 0 1 (inverseLerp a b v) :=
  inverseLerp_between ends.low ends.high finite (.inl ends.width)

/-- Ends that do not nearly agree are a positive distance apart. -/
theorem Span.value_pos (ends : Span (a, b)) (far : ¬ (b - a).abs ≤ epsilon) : 0 < value (b - a) := by
  have ordered := (le_iff_value ends.low ends.high).mp ends.ordered
  have least := (rounds_sub ends.high ends.low).at_least representable_zero (sub_nonneg.mpr ordered)
    ends.width
  exact lt_of_le_of_ne least (value_ne_zero_of_far ends.width far).symm

/-- The ratio of a higher number is no smaller, even where its distance to the low end overflows. -/
theorem inverseLerp_mono (ends : Span (a, b)) (finite : v.isFinite) (finite' : w.isFinite)
    (ordered : v ≤ w) : inverseLerp a b v ≤ inverseLerp a b w := by
  unfold inverseLerp
  by_cases near : (b - a).abs ≤ epsilon
  · simp only [near, if_true]
    exact number_le_self rfl
  · simp only [near, if_false]
    have rise := difference_mono finite finite' ends.low ordered
    have ratio := quotient_mono rise ends.width (ends.value_pos near)
    exact clamp_mono rfl rfl (by decide) ratio

end

section
variable {low high f g : Float32}

/-- A larger part of the way from the larger width to the smaller one leaves no more. -/
theorem lerp_anti (first : Positive low) (second : Positive high) (ordered : value low ≤ value high)
    (part : Between 0 1 f) (part' : Between 0 1 g) (more : f ≤ g) :
    lerp high low g ≤ lerp high low f := by
  obtain ⟨way, taken⟩ := way_between first second ordered part
  obtain ⟨-, taken'⟩ := way_between first second ordered part'
  have further : (low - high) * g ≤ (low - high) * f := by
    rw [product_comm _ g, product_comm _ f]
    exact product_anti part.finite part'.finite way.finite more way.high
  exact sum_mono_right taken'.finite taken.finite second.finite further

end

end Sapling
