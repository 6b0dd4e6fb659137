import Sapling.Proofs.Geometry.Interpolation

/-! Ratios of any finite numbers. Where one of the two differences is finite the ratio is a number of the unit
interval, and where both overflow it is no number. Between ends in order ratios do not fall as long as they are
numbers: ends too far apart for their difference leave a ratio of zero to all numbers that have one. -/
namespace Sapling

open Scalar Float.Model
open UnpackedFloat (Sign)

namespace Scalar

variable {x y : Float32}

/-- A finite number divided by an infinity vanishes. -/
theorem level_div_infinite (finite : x.isFinite) (isNumber : y.isNaN = false) (infinite : ¬ y.isFinite) :
    level (x / y) = 0 := by
  obtain ⟨sign', shape'⟩ := infinity_of_not_isFinite isNumber infinite
  have vanished (sign : Sign) : level (.ofModel (.pack (.zero sign))) = 0 := by cases sign <;> decide
  rw [div_unpack, shape']
  rcases shape_of_isFinite finite with ⟨sign, shape⟩ | ⟨sign, m, e, mantissaPos, shape⟩
    <;> rw [shape] <;> exact vanished (sign / sign')

/-- Zeros of both signs lie in the unit interval already. -/
theorem clamp_of_level_zero (origin : level x = 0) : clamp x 0 1 = x := by
  have zero : level 0 = 0 := by decide
  have one : 0 < level 1 := by decide
  have kept : ¬ x < 0 := fun under => absurd (lt_iff.mp under).2.2 (by omega)
  have kept' : ¬ 1 < x := fun beyond => absurd (lt_iff.mp beyond).2.2 (by omega)
  simp only [clamp, kept, kept', if_false]

end Scalar

section
variable {a b v w : Float32}

private theorem inverseLerp_unit_iff (first : a.isFinite) (second : b.isFinite) (third : v.isFinite) :
    UnitNumber (inverseLerp a b v) ↔ (b - a).isFinite ∨ (v - a).isFinite := by
  rw [unitNumber_iff_between]
  constructor
  · intro unit
    by_contra lost
    obtain ⟨span, rise⟩ := not_or.mp lost
    have odd := inverseLerp_isNaN first second third span rise
    rw [isNaN_of_isFinite unit.finite] at odd
    cases odd
  · exact inverseLerp_between first second third

private theorem inverseLerp_isNaN_iff (first : a.isFinite) (second : b.isFinite) (third : v.isFinite) :
    (inverseLerp a b v).isNaN ↔ ¬ ((b - a).isFinite ∨ (v - a).isFinite) := by
  constructor
  · intro odd bounded
    have isNumber := isNaN_of_isFinite (inverseLerp_between first second third bounded).finite
    rw [odd] at isNumber
    cases isNumber
  · intro lost
    obtain ⟨span, rise⟩ := not_or.mp lost
    exact inverseLerp_isNaN first second third span rise

/-- Ends whose difference overflows leave a ratio of zero to what is not so far from the low end. -/
theorem level_inverseLerp_of_wide (first : a.isFinite) (second : b.isFinite) (span : ¬ (b - a).isFinite)
    (rise : (v - a).isFinite) : level (inverseLerp a b v) = 0 := by
  have isNumber := (rounds_sub second first).isNumber
  have quotient := level_div_infinite rise isNumber span
  unfold inverseLerp
  rw [if_neg (not_abs_le_epsilon isNumber span)]
  change level (clamp ((v - a) / (b - a)) 0 1) = 0
  rw [clamp_of_level_zero quotient, quotient]

/-- Ratios between ends in order are in the order of what they are taken of, as long as both are numbers. -/
theorem inverseLerp_le_iff (first : a.isFinite) (second : b.isFinite) (ends : a < b) (third : v.isFinite)
    (fourth : w.isFinite) (ordered : v ≤ w) : inverseLerp a b v ≤ inverseLerp a b w ↔
      (b - a).isFinite ∨ (v - a).isFinite ∧ (w - a).isFinite := by
  by_cases span : (b - a).isFinite
  · obtain ⟨isFirst, isSecond, less⟩ := lt_iff.mp ends
    have range : Span (a, b) := ⟨first, second, le_iff.mpr ⟨isFirst, isSecond, less.le⟩, span⟩
    exact iff_of_true (inverseLerp_mono range third fourth ordered) (.inl span)
  · simp only [span, Bool.false_eq_true, false_or]
    constructor
    · intro below
      obtain ⟨isNumber, isNumber', -⟩ := le_iff.mp below
      have bounded {u : Float32} (finite : u.isFinite) (isNumber : (inverseLerp a b u).isNaN = false) :
          (u - a).isFinite := by
        by_contra rise
        rw [inverseLerp_isNaN first second finite span rise] at isNumber
        cases isNumber
      exact ⟨bounded third isNumber, bounded fourth isNumber'⟩
    · rintro ⟨rise, rise'⟩
      have ratio := inverseLerp_between first second third (.inr rise)
      have ratio' := inverseLerp_between first second fourth (.inr rise')
      refine le_of_level_eq (isNaN_of_isFinite ratio.finite) (isNaN_of_isFinite ratio'.finite) ?_
      rw [level_inverseLerp_of_wide first second span rise, level_inverseLerp_of_wide first second span rise']

/-- The ratio of a finite number between finite ends is a number, and then one from zero to one, if and only if one
of its two differences is finite. Between ends in order it does not fall as long as it is a number. -/
theorem ratios_are_clamped_iff (first : a.isFinite) (second : b.isFinite) :
    (∀ v : Float32, v.isFinite →
      ((inverseLerp a b v).isNaN = false ↔ (b - a).isFinite ∨ (v - a).isFinite) ∧
      (UnitNumber (inverseLerp a b v) ↔ (b - a).isFinite ∨ (v - a).isFinite)) ∧
    (a < b → ∀ v w : Float32, v.isFinite → w.isFinite → v ≤ w →
      (inverseLerp a b v ≤ inverseLerp a b w ↔
        (b - a).isFinite ∨ (v - a).isFinite ∧ (w - a).isFinite)) := by
  refine ⟨fun v third => ⟨?_, inverseLerp_unit_iff first second third⟩,
    fun ends v w third fourth ordered => inverseLerp_le_iff first second ends third fourth ordered⟩
  rw [← Bool.not_eq_true, inverseLerp_isNaN_iff first second third, not_not]

/-- Between the ends of all numbers the middle has a ratio, and the high end has none. -/
theorem ratio_of_high_end_is_lost :
    let most : Float32 := 3e38
    UnitNumber (inverseLerp (-most) most 0) ∧ ¬ UnitNumber (inverseLerp (-most) most most) ∧
      ¬ inverseLerp (-most) most 0 ≤ inverseLerp (-most) most most := by
  intro most
  have finite : most.isFinite := by decide +kernel
  obtain ⟨unit, ordered⟩ := ratios_are_clamped_iff ((isFinite_neg most).trans finite) finite
  refine ⟨(unit 0 rfl).2.mpr (by decide +kernel), ?_, ?_⟩
  · rw [(unit most finite).2]
    decide +kernel
  · rw [ordered (by decide +kernel) 0 most rfl finite (by decide +kernel)]
    decide +kernel

end


end Sapling
