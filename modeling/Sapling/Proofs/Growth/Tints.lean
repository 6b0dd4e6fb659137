import Sapling.Growth.Settings
import Sapling.Proofs.Color.Places
import Sapling.Proofs.Random.Extents
import Sapling.Proofs.Random.Integers

/-! Tints of bark. Shifts of hue, saturation and value are drawn at their usual size and multiplied with a strength.
A clamp makes every number of the unit interval out of what they give, so tints are colors as long as the
shifted parts are numbers. They are for a finite strength. An infinite one makes no number of a shift of zero. -/
namespace Sapling

open Sapling.Random
open Sapling.Scalar hiding max

namespace Random

/-- Draws from a narrow range that begins near zero stay near it. -/
theorem between_within {low high : Float32}
    (narrow : (0 ≤ high - low ∧ high - low ≤ 0.5) ∧ -0.5 ≤ low ∧ low ≤ 0.5) (g : Generator) :
    Between (-1) 1 ((between low high).run g).1 := by
  have width := between_of_le rfl rfl narrow.1.1 narrow.1.2
  have start := between_of_le rfl rfl narrow.2.1 narrow.2.2
  have part := (coarseFraction_between (g.stream g.position)).part width.finite (by simpa using width.low)
  have half : value (-0.5) = -(1 / 2) := by rw [value_neg, value_half]
  rw [half, value_half] at start
  rw [value_zero, value_half] at width
  have sum := within_add (part.weaken (by norm_num) width.high) start
    (by norm_num; exact representable_one)
  rw [between_run]
  norm_num at sum
  exact sum

end Random

namespace BarkPalette

variable {palette : BarkPalette} {base : Color}

/-- What the shifts are multiplied with. -/
def strength (palette : BarkPalette) : Float32 := palette.colorVariance / nominalVariance

private theorem strength_isNumber (valid : palette.validate = .ok ()) : palette.strength.isNaN = false := by
  have nonneg := (Ensure.nonNegative_ok_iff.mp valid).nonneg
  have nominal : nominalVariance.toModel.unpack = .finite .positive 13421773 (-27) (by decide) := rfl
  exact (nonneg.div nominal).isNumber

/-- A shift drawn at its usual size, with a finite strength. -/
theorem shift_isFinite {shift : Float32} (bounded : palette.strength.isFinite) (drawn : Between (-1) 1 shift) :
    (palette.strength * shift).isFinite := by
  have size : Representable |value palette.strength| :=
    ⟨palette.strength.abs, (isFinite_abs _).trans bounded, value_abs _⟩
  have self : Between (-|value palette.strength|) |value palette.strength| palette.strength :=
    ⟨bounded, neg_abs_le _, le_abs_self _⟩
  exact (self.mul drawn (by rwa [mul_one])).finite

/-! ## Tints -/

/-- A tint by its parts, each drawn where the one before left the generator. -/
theorem drawTint_parts (palette : BarkPalette) (base : Color) (g : Generator) :
    let first := (between hueShift.1 hueShift.2).run g
    let second := (between saturationShift.1 saturationShift.2).run first.2
    let third := (between darkening.1 darkening.2).run second.2
    ((palette.drawTint base).run g).1 = .ofHsv
      ⟨clamp (base.toHsv.hue + palette.strength * first.1) 0 1,
        clamp (base.toHsv.saturation + palette.strength * second.1) 0 1,
        clamp (base.toHsv.value - palette.strength * third.1) 0 1⟩ := by
  unfold drawTint
  -- what is made of the parts does not matter here
  generalize Color.ofHsv = color
  rfl

private theorem tint_proper (bounded : palette.strength.isFinite) (proper : base.Proper) (g : Generator) :
    ((palette.drawTint base).run g).1.Proper := by
  have unit := Color.toHsv_proper proper
  have hue := (unitNumber_iff_between.mp unit.hue).finite
  have saturation := (unitNumber_iff_between.mp unit.saturation).finite
  have level := (unitNumber_iff_between.mp unit.value).finite
  rw [drawTint_parts]
  refine Color.ofHsv_proper (clamp_unit ?_) (clamp_unit ?_) (clamp_unit ?_)
  · exact (rounds_add hue (shift_isFinite bounded (between_within (by decide +kernel) _))).isNumber
  · exact (rounds_add saturation (shift_isFinite bounded (between_within (by decide +kernel) _))).isNumber
  · exact (rounds_sub level (shift_isFinite bounded (between_within (by decide +kernel) _))).isNumber

/-- The word in the middle shifts no hue. -/
theorem tint_isNaN (valid : palette.validate = .ok ()) (infinite : ¬ palette.strength.isFinite)
    {g : Generator} (word : g.stream g.position = 0x80000000) :
    ((palette.drawTint base).run g).1.g.isNaN := by
  have zeroShift : ((between hueShift.1 hueShift.2).run g).1 = 0 := by
    rw [between_run, word]
    exact (by decide +kernel : coarseFractionOfWord 0x80000000 * (hueShift.2 - hueShift.1) + hueShift.1 = 0)
  have odd : (base.toHsv.hue + palette.strength * 0).isNaN :=
    add_isNaN (.inr (mul_zero_isNaN (strength_isNumber valid) infinite rfl value_zero))
  rw [drawTint_parts, zeroShift]
  refine Color.ofHsv_isNaN ?_
  rw [clamp_nan odd]
  exact odd

/-! ## Picks -/

/-- A pick by its parts: one of the base colors, and a tint for it. -/
theorem pick_parts (colored : palette.baseColors ≠ []) (g : Generator) :
    let variant := (integer 0 (.ofNat (palette.baseColors.length - 1))).run g
    (palette.pick.run g).1 = ⟨variant.1,
      ((palette.drawTint (palette.baseColors[variant.1.toNat]?.getD .white)).run variant.2).1⟩ := by
  have nonempty : palette.baseColors.isEmpty ≠ true := by
    rw [ne_eq, List.isEmpty_iff]
    exact colored
  unfold pick
  rw [if_neg nonempty]
  generalize palette.drawTint = tint
  rfl

theorem pick_empty (empty : palette.baseColors = []) (g : Generator) : (palette.pick.run g).1 = {} := by
  unfold pick
  rw [empty]
  rfl

/-- Words that are all the one in the middle make a pick with a tint that is no color, however many of them the
variant takes. -/
theorem pick_isNaN (valid : palette.validate = .ok ()) (colored : palette.baseColors ≠ [])
    (infinite : ¬ palette.strength.isFinite) :
    (palette.pick.run ⟨fun _ => 0x80000000, 0⟩).1.tint.g.isNaN := by
  rw [pick_parts colored]
  refine tint_isNaN valid infinite ?_
  rw [integer_stream]

private theorem variant_lt (palette : BarkPalette) (g : Generator) :
    (palette.pick.run g).1.variant.toNat < max 1 palette.baseColors.length := by
  by_cases empty : palette.baseColors = []
  · rw [pick_empty empty]
    exact Nat.lt_of_lt_of_le Nat.one_pos (Nat.le_max_left ..)
  · have all : (0 : UInt32) ≤ .ofNat (palette.baseColors.length - 1) := UInt32.zero_le
    have below := UInt32.le_iff_toNat_le.mp (integer_bounds all g).2
    have last := Nat.mod_le (palette.baseColors.length - 1) (2 ^ 32)
    have positive := List.length_pos_of_ne_nil empty
    rw [UInt32.toNat_ofNat'] at below
    rw [pick_parts empty]
    refine Nat.lt_of_le_of_lt (Nat.le_trans below last) (Nat.lt_of_lt_of_le ?_ (Nat.le_max_right ..))
    omega

private theorem alpha_one (palette : BarkPalette) (g : Generator) : (palette.pick.run g).1.tint.a = 1 := by
  by_cases empty : palette.baseColors = []
  · rw [pick_empty empty]
    rfl
  · rw [pick_parts empty]
    exact Color.ofHsv_alpha _

/-- Base colors that are picked are colors, the white one in place of a missing one included. -/
theorem base_proper (proper : ∀ base ∈ palette.baseColors, base.Proper) (place : Nat) :
    (palette.baseColors[place]?.getD .white).Proper := by
  cases found : palette.baseColors[place]? with
  | none => exact Color.white_proper
  | some base => exact proper base (List.mem_of_getElem? found)

/-- The tints of an accepted palette of colors, whatever words are drawn. The variant is that of a base color, or zero
where there is none, and the tint is opaque. That it is a color is left to the variance: it holds if and
only if there is no base color or the shifts have a finite strength. -/
theorem tints_are_colors_iff (valid : palette.validate = .ok ())
    (proper : ∀ base ∈ palette.baseColors, base.Proper) :
    (∀ g, (palette.pick.run g).1.variant.toNat < max 1 palette.baseColors.length ∧
      (palette.pick.run g).1.tint.a = 1) ∧
    ((∀ g, (palette.pick.run g).1.tint.Proper) ↔
      palette.baseColors = [] ∨ palette.strength.isFinite) := by
  refine ⟨fun g => ⟨variant_lt palette g, alpha_one palette g⟩, ?_, ?_⟩
  · intro all
    by_contra neither
    obtain ⟨colored, infinite⟩ := not_or.mp neither
    have green := unitNumber_iff_between.mp (all ⟨fun _ => 0x80000000, 0⟩).green
    have isNumber := isNaN_of_isFinite green.finite
    rw [pick_isNaN valid colored infinite] at isNumber
    cases isNumber
  · rintro (empty | bounded) g
    · rw [pick_empty empty]
      exact Color.white_proper
    · by_cases empty : palette.baseColors = []
      · rw [pick_empty empty]
        exact Color.white_proper
      · rw [pick_parts empty]
        exact tint_proper bounded (base_proper proper _) _

/-- Tints of the usual palette are colors. Those of the largest variances are not all, though the variances are
accepted. The seed below draws the word in the middle for the hue. -/
theorem large_variances_are_accepted :
    let usual : BarkPalette := {}
    let large : BarkPalette := { colorVariance := 3e38 }
    (usual.validate = .ok () ∧ ∀ g, (usual.pick.run g).1.tint.Proper) ∧
    large.validate = .ok () ∧ (¬ ∀ g, (large.pick.run g).1.tint.Proper) ∧
    (large.pick.run (.ofSeed 17186101)).1.tint.g.isNaN := by
  have valid : ({} : BarkPalette).validate = .ok () := rfl
  have proper : ∀ base ∈ ({} : BarkPalette).baseColors, base.Proper := by decide +kernel
  have valid' : ({ colorVariance := 3e38 } : BarkPalette).validate = .ok () :=
    Ensure.nonNegative_ok_iff.mpr ⟨by decide +kernel, by decide +kernel⟩
  have proper' : ∀ base ∈ ({ colorVariance := 3e38 } : BarkPalette).baseColors, base.Proper := by
    decide +kernel
  refine ⟨⟨valid, (tints_are_colors_iff valid proper).2.mpr (by decide +kernel)⟩, valid', ?_,
    by decide +kernel⟩
  rw [(tints_are_colors_iff valid' proper').2]
  decide +kernel

end BarkPalette


end Sapling
