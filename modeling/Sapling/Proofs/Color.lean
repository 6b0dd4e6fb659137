import Sapling.Color
import Sapling.Proofs.Geometry.Interpolation
import Sapling.Proofs.Scalar.Order
import Sapling.Proofs.Scalar.Remainders

/-! Colors and their hues. Hue, saturation and value from zero to one make a color. A hue that is not a number
makes none. -/
namespace Sapling

open Sapling.Scalar

/-! ## Parts of colors -/

/-- A color whose components are numbers from zero to one. -/
structure Color.Proper (color : Color) : Prop where
  red : UnitNumber color.r
  green : UnitNumber color.g
  blue : UnitNumber color.b

instance (color : Color) : Decidable color.Proper :=
  decidable_of_iff ((0 ≤ color.r ∧ color.r ≤ 1) ∧ (0 ≤ color.g ∧ color.g ≤ 1) ∧ 0 ≤ color.b ∧ color.b ≤ 1)
    ⟨fun ⟨red, green, blue⟩ => ⟨⟨red.1, red.2⟩, ⟨green.1, green.2⟩, ⟨blue.1, blue.2⟩⟩,
      fun ⟨red, green, blue⟩ => ⟨⟨red.1, red.2⟩, ⟨green.1, green.2⟩, blue.1, blue.2⟩⟩

/-- Hue, saturation and value that are numbers from zero to one. -/
structure Hsv.Proper (hsv : Hsv) : Prop where
  hue : UnitNumber hsv.hue
  saturation : UnitNumber hsv.saturation
  value : UnitNumber hsv.value

namespace Scalar

variable {x y : Float32}

theorem max_unit (first : Between 0 1 x) (second : Between 0 1 y) : Between 0 1 (max x y) := by
  unfold max
  split
  · exact second
  · exact first

theorem min_unit (first : Between 0 1 x) (second : Between 0 1 y) : Between 0 1 (min x y) := by
  unfold min
  split
  · exact second
  · exact first

/-- Numbers of the unit interval are at most one apart, and so is the rounded difference. -/
theorem difference_within (first : Between 0 1 x) (second : Between 0 1 y) : Between (-1) 1 (x - y) := by
  have difference := first.sub second (by rw [zero_sub]; exact representable_one.neg)
    (by rw [sub_zero]; exact representable_one)
  rwa [zero_sub, sub_zero] at difference

@[simp] theorem value_four : value 4 = 4 := by
  have shape : (4 : Float32).toModel.unpack = .finite .positive (2 ^ 23) (-21) (by decide) := rfl
  norm_num [value_of_parts shape, dyadic, zpow_neg]

@[simp] theorem value_six : value 6 = 6 := by
  have shape : (6 : Float32).toModel.unpack = .finite .positive (3 * 2 ^ 22) (-21) (by decide) := rfl
  norm_num [value_of_parts shape, dyadic, zpow_neg]

end Scalar

namespace Color

variable {color : Color}

theorem white_proper : white.Proper := by decide +kernel

/-! ## To colors -/

section
variable {hue saturation level : Float32}

/-- How far a hue is from the place midway between two primary colors. -/
theorem midway_between {turn : Float32} (finite : turn.isFinite) :
    Between 0 1 (euclideanRemainder turn 2 - 1).abs := by
  have phase := euclideanRemainder_between finite (y := 2) rfl (by norm_num)
  have one : Between 1 1 (1 : Float32) := ⟨rfl, value_one.ge, value_one.le⟩
  rw [value_two] at phase
  have middle := phase.sub one (by norm_num; exact representable_one.neg)
    (by norm_num; exact representable_one)
  refine ⟨(isFinite_abs _).trans middle.finite, ?_, ?_⟩
  · rw [value_abs]
    exact abs_nonneg _
  · rw [value_abs, abs_le]
    exact ⟨by linarith [middle.low], by linarith [middle.high]⟩

/-- How far a hue is from the primary color nearest to it. -/
theorem nearness_between {turn : Float32} (finite : turn.isFinite) :
    Between 0 1 (1 - (euclideanRemainder turn 2 - 1).abs) := one_sub_between (midway_between finite)

/-- The place of a hue on a wheel of six places, whichever turn it is on. -/
def turn (hue : Float32) : Float32 := euclideanRemainder hue 1 * 6

/-- A hue of the unit interval is a place from zero to six on the wheel. -/
theorem turn_between (unit : Between 0 1 hue) : Between 0 6 (turn hue) := by
  have fraction := euclideanRemainder_between unit.finite (y := 1) rfl (by norm_num)
  rw [value_one] at fraction
  have six : Between 0 6 (6 : Float32) := ⟨rfl, by norm_num, by norm_num⟩
  have sixths := fraction.mul_unsigned six (representable_natural (n := 6) (by decide) (by norm_num))
  rwa [one_mul] at sixths

/-- Hue, saturation and level from the unit interval give a color with all components in it. -/
theorem ofHsv_proper (first : Between 0 1 hue) (second : Between 0 1 saturation) (third : Between 0 1 level) :
    (ofHsv ⟨hue, saturation, level⟩).Proper := by
  have sixths := turn_between first
  have full := second.part third.finite third.low
  rw [product_comm saturation] at full
  have mixed := (nearness_between sixths.finite).part full.finite full.low
  rw [product_comm _ (level * saturation)] at mixed
  -- whatever part of the full component is taken, what the color has of white is added to it
  have part {c : Float32} (less : Between 0 (value (level * saturation)) c) :
      UnitNumber (c + (level - level * saturation)) :=
    unitNumber_iff_between.mpr (add_rest_between third full less)
  have first := part ⟨full.finite, full.low, le_rfl⟩
  have second := part mixed
  have third := part ⟨rfl, value_zero.ge, value_zero.trans_le full.low⟩
  unfold ofHsv
  dsimp only
  split
  · exact ⟨first, second, third⟩
  · exact ⟨second, first, third⟩
  · exact ⟨third, first, second⟩
  · exact ⟨third, second, first⟩
  · exact ⟨second, third, first⟩
  · exact ⟨first, third, second⟩

/-- Every color made from the wheel is opaque. -/
theorem ofHsv_alpha (hsv : Hsv) : (ofHsv hsv).a = 1 := by
  unfold ofHsv
  dsimp only
  split <;> rfl

/-- A hue that is not a number falls into the first sector, where green is what it is mixed into. -/
theorem ofHsv_isNaN (odd : hue.isNaN) : (ofHsv ⟨hue, saturation, level⟩).g.isNaN := by
  have turn := mul_isNaN_of_first (y := 6) (euclideanRemainder_isNaN odd 1)
  have sector : (euclideanRemainder hue 1 * 6).toUInt32.toNat = 0 := by
    have word : (euclideanRemainder hue 1 * 6).toUInt32 = .ofNatClamp
      ((euclideanRemainder hue 1 * 6).toModel.unpack.toInt 0 (UInt32.size - 1)).toNat := rfl
    rw [word, unpack_of_isNaN turn]
    rfl
  unfold ofHsv
  dsimp only
  rw [sector]
  refine add_isNaN (.inl (mul_isNaN (sub_isNaN (.inr ?_))))
  rw [isNaN_abs]
  exact sub_isNaN (.inl (euclideanRemainder_isNaN turn 2))

end

end Color


end Sapling
