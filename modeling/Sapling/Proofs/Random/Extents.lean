import Sapling.Proofs.Random.Integers
import Sapling.Proofs.Random.Widths
import Sapling.Proofs.Scalar.Order
import Sapling.Proofs.Scalar.Words

/-! How far numbers drawn from a range reach. They grow with the word they are drawn with, from the low end for
the word zero to a largest number that is not past the high end. -/
namespace Sapling

namespace Random

open Scalar

/-! ## Fractions -/

theorem coarse_bits (w : UInt32) : (w >>> 9).toNat < 2 ^ 23 := by
  have below := w.toNat_lt
  rw [UInt32.toNat_shiftRight, show (9 : UInt32).toNat % 32 = 9 from rfl, Nat.shiftRight_eq_div_pow]
  omega

/-- A fraction has 23 bits, so it is exact. -/
theorem value_coarseFraction (w : UInt32) :
    value (coarseFractionOfWord w) = (w >>> 9).toNat * 2 ^ (-23 : ℤ) := by
  have bits := coarse_bits w
  have product := rounds_mul (word_isFinite (w >>> 9)) (show epsilon.isFinite from rfl)
  rw [value_word_of_small (by omega), value_epsilon] at product
  exact (product.exact (representable_dyadic (by omega) (by decide) (by decide))).2

/-- The drawn fraction lies in the unit interval. -/
theorem coarseFraction_between (w : UInt32) : Between 0 1 (coarseFractionOfWord w) := by
  have bits : ((w >>> 9).toNat : ℝ) ≤ 2 ^ 23 := by exact_mod_cast (coarse_bits w).le
  refine ⟨(coarseFraction_nonneg w).2, ?_, ?_⟩
  · rw [value_coarseFraction]
    positivity
  · have unit : (2 : ℝ) ^ (-23 : ℤ) = (2 ^ 23)⁻¹ := by rw [zpow_neg, zpow_ofNat]
    rw [value_coarseFraction, unit, ← div_eq_mul_inv]
    exact div_le_one_of_le₀ bits (by positivity)

private theorem largestFraction_between : Between 0 1 largestFraction :=
  between_unit (by decide +kernel) (by decide +kernel)

/-- The word with all bits has the largest fraction. -/
theorem coarseFraction_all : coarseFractionOfWord 0xFFFFFFFF = largestFraction := by decide +kernel

private theorem coarseFraction_le (w : UInt32) : coarseFractionOfWord w ≤ largestFraction := by
  have bits : ((w >>> 9).toNat : ℝ) ≤ ((0xFFFFFFFF : UInt32) >>> 9).toNat := by
    exact_mod_cast Nat.le_of_lt_succ (coarse_bits w)
  rw [← coarseFraction_all, le_iff_value (coarseFraction_between w).finite (coarseFraction_between _).finite,
    value_coarseFraction, value_coarseFraction]
  exact mul_le_mul_of_nonneg_right bits (by positivity)

/-! ## Scales -/

section
variable {low high a b : Float32}

/-- A product that vanishes leaves the low end where it is. -/
theorem level_vanishing_add (first : a.isFinite) (second : b.isFinite) (finite : low.isFinite)
    (vanishes : value a * value b = 0) : level (a * b + low) = level low := by
  have product := rounds_mul first second
  rw [vanishes] at product
  obtain ⟨finite', zero⟩ := product.exact representable_zero
  have sum := rounds_add finite' finite
  rw [zero, zero_add] at sum
  exact sum.level_eq finite

private theorem fitScale_fits (finite : low.isFinite) (ordered : low ≤ high) (bits : Nat) :
    ¬ high < fitScale low high bits * largestFraction + low := by
  induction bits with
  | zero =>
    have kept : level (Float32.ofBits 0 * largestFraction + low) = level low :=
      level_vanishing_add rfl rfl finite (by rw [show value (Float32.ofBits 0) = 0 from rfl, zero_mul])
    intro above
    have past := (lt_iff.mp above).2.2
    rw [fitScale, kept] at past
    exact absurd (le_iff.mp ordered).2.2 (Int.not_le.mpr past)
  | succ bits ih =>
    rw [fitScale]
    split
    · exact ih
    · assumption

end

namespace Uniform

/-- The number of a range for a word. -/
def number (range : Uniform) (w : UInt32) : Float32 := coarseFractionOfWord w * range.scale + range.low

/-- The largest number of a range. -/
def greatest (range : Uniform) : Float32 := largestFraction * range.scale + range.low

/-- A range whose numbers go from its low end to no more than a high one. -/
structure Fits (range : Uniform) (high : Float32) : Prop where
  low : range.low.isFinite
  finite : range.scale.isFinite
  up : Nonneg range.scale
  within : range.greatest ≤ high

variable {range : Uniform} {high f f' : Float32}

private theorem Fits.scaled (fits : range.Fits high) (fraction : Between 0 1 f) :
    Between 0 (value range.scale) (f * range.scale) :=
  fraction.part fits.finite (fits.up.value_nonneg fits.finite)

theorem Fits.number_le (fits : range.Fits high) (w : UInt32) : range.number w ≤ range.greatest := by
  have top := largestFraction_between
  refine sum_mono (fits.scaled (coarseFraction_between w)).finite (fits.scaled top).finite fits.low ?_
  exact product_mono (coarseFraction_between w).finite top.finite fits.finite (coarseFraction_le w)
    (fits.up.value_nonneg fits.finite)

theorem Fits.low_le (fits : range.Fits high) (w : UInt32) : range.low ≤ range.number w := by
  have scaled := fits.scaled (coarseFraction_between w)
  have sum := rounds_add scaled.finite fits.low
  exact le_iff.mpr ⟨isNaN_of_isFinite fits.low, sum.isNumber,
    sum.above _ fits.low (le_add_of_nonneg_left scaled.low)⟩

private theorem Fits.number_zero (fits : range.Fits high) : level (range.number 0) = level range.low :=
  level_vanishing_add rfl fits.finite fits.low (by
    rw [show value (coarseFractionOfWord 0) = 0 by rw [value_coarseFraction]; simp, zero_mul])

/-- The scale is fitted to the ends of a range. -/
theorem inclusive_fits {low : Float32} (finite : low.isFinite) (finite' : high.isFinite)
    (found : inclusive? low high = some range) : range.low = low ∧ range.Fits high := by
  have minus : CarriesNowhere low :=
    level_vanishing_add rfl rfl finite
      (by rw [show value (Float32.ofBits (UInt32.ofNat (2 ^ 31))) = 0 from rfl, zero_mul])
  unfold inclusive? at found
  split at found
  · rename_i ordered
    dsimp only at found
    split at found
    · rename_i bounded
      obtain ⟨up, fitted⟩ := fitScale_nonneg minus ordered (scale_nonneg finite ordered) bounded
      cases found
      refine ⟨rfl, finite, fitted, up, ?_⟩
      have scaled := largestFraction_between.part fitted (up.value_nonneg fitted)
      have within := fitScale_fits finite ordered ((high - low) / largestFraction).toBits.toNat
      rw [product_comm] at within
      have isNumber := (rounds_add scaled.finite finite).isNumber
      exact not_not.mp (mt (not_le_iff isNumber (isNaN_of_isFinite finite')).mp within)
    · cases found
  · cases found

end Uniform

/-! ## Draws -/

/-- The largest number that is drawn from a range. -/
def greatest (ends : Float32 × Float32) : Float32 :=
  match Uniform.inclusive? ends.1 ends.2 with
  | some range => range.greatest
  | none => ends.1

section
variable {ends : Float32 × Float32}

/-- Draws are the numbers of the range, or its low end where it cannot be sampled. -/
theorem inRange_cases (sound : (Sample.between ends).Sound) (finite : ends.2.isFinite) :
    (∃ range : Uniform, range.Fits ends.2 ∧ range.low = ends.1 ∧ greatest ends = range.greatest ∧
      ∀ g : Generator, ((inRange ends).run g).1 = range.number (g.stream g.position)) ∨
    greatest ends = ends.1 ∧ ∀ g : Generator, ((inRange ends).run g).1 = ends.1 := by
  unfold greatest
  cases found : Uniform.inclusive? ends.1 ends.2 with
  | some range =>
    obtain ⟨low, fits⟩ := Uniform.inclusive_fits sound.low finite found
    refine .inl ⟨range, fits, low, rfl, fun g => ?_⟩
    by_cases narrow : (Sample.between ends).width < widest
    · obtain ⟨same, found', run⟩ := (sound.settled g).drawn narrow
      obtain rfl : range = same := Option.some.inj (found.symm.trans found')
      exact congrArg Prod.fst run
    · exact absurd (found.symm.trans ((sound.settled g).skipped narrow).1) nofun
  | none =>
    refine .inr ⟨rfl, fun g => ?_⟩
    by_cases narrow : (Sample.between ends).width < widest
    · obtain ⟨range, found', -⟩ := (sound.settled g).drawn narrow
      exact absurd (found.symm.trans found') nofun
    · exact congrArg Prod.fst ((sound.settled g).skipped narrow).2

/-- A draw from a sound range lies between its first end and the greatest number that it can give. -/
theorem inRange_bounds (sound : (Sample.between ends).Sound) (finite : ends.2.isFinite) (g : Generator) :
    ends.1 ≤ ((inRange ends).run g).1 ∧ ((inRange ends).run g).1 ≤ greatest ends ∧
      greatest ends ≤ ends.2 := by
  rcases inRange_cases sound finite with ⟨range, fits, low, top, run⟩ | ⟨top, run⟩
  · rw [run, top, ← low]
    exact ⟨fits.low_le _, fits.number_le _, fits.within⟩
  · rw [run, top]
    have self := number_le_self (isNaN_of_isFinite sound.low)
    exact ⟨self, self, sound.ordered⟩

/-- The low end is drawn with the word zero. -/
theorem inRange_first (sound : (Sample.between ends).Sound) (finite : ends.2.isFinite) {g : Generator}
    (word : g.stream g.position = 0) : level ((inRange ends).run g).1 = level ends.1 := by
  rcases inRange_cases sound finite with ⟨range, fits, low, -, run⟩ | ⟨-, run⟩
  · rw [run, word, fits.number_zero, low]
  · rw [run]

/-- The largest number is drawn with the word that has all bits. -/
theorem inRange_last (sound : (Sample.between ends).Sound) (finite : ends.2.isFinite) {g : Generator}
    (word : g.stream g.position = 0xFFFFFFFF) : ((inRange ends).run g).1 = greatest ends := by
  rcases inRange_cases sound finite with ⟨range, -, -, top, run⟩ | ⟨top, run⟩
  · rw [run, word, top, Uniform.number, coarseFraction_all, Uniform.greatest]
  · rw [run, top]

end

end Random

/-! ## Ends

What is drawn from a range lies between its ends, whichever of them is given first. The fitted scale carries no
fraction past the high end, and sums of rounded numbers keep their order, so an offset that lies within a variance
stays within it when it is added to a base.
-/

namespace Random

open Scalar

section
variable {a b : Float32}

/-! ### Numbers -/

/-- Ends out of order are put in order before anything is drawn. -/
theorem inRange_swap (reversed : b < a) : inRange (a, b) = inRange (b, a) := by
  obtain ⟨isSecond, isFirst, less⟩ := lt_iff.mp reversed
  have apart : ¬ a ≤ b := (not_le_iff isFirst isSecond).mpr reversed
  have ordered : b ≤ a := le_iff.mpr ⟨isSecond, isFirst, less.le⟩
  simp only [inRange, apart, ordered, if_true, if_false]

private theorem inRange_of_le (first : a.isFinite) (second : b.isFinite) (ordered : a ≤ b) (g : Generator) :
    a ≤ ((inRange (a, b)).run g).1 ∧ ((inRange (a, b)).run g).1 ≤ b ∧
      (Uniform.inclusive? a b = none → (inRange (a, b)).run g = (a, g)) := by
  simp only [inRange, ordered, if_true]
  cases found : Uniform.inclusive? a b with
  | some range =>
    obtain ⟨low, fits⟩ := Uniform.inclusive_fits first second found
    exact ⟨low ▸ fits.low_le _, le_trans (fits.number_le _) fits.within,
      fun absent => absurd absent (Option.some_ne_none range)⟩
  | none => exact ⟨number_le_self (isNaN_of_isFinite first), ordered, fun _ => rfl⟩

/-- A range without width can be sampled. -/
theorem inclusive?_self (finite : a.isFinite) : Uniform.inclusive? a a ≠ none := by
  have self := number_le_self (isNaN_of_isFinite finite)
  have width := rounds_sub finite finite
  rw [sub_self] at width
  have narrow : a - a < widest := by
    rw [lt_iff, width.level_zero]
    exact ⟨width.isNumber, rfl, by decide⟩
  have scale := (isFinite_div_largestFraction (nonneg_sub finite self)
    (width.exact representable_zero).1).mpr narrow
  simp only [Uniform.inclusive?, self, scale, if_true]
  exact Option.some_ne_none _

private theorem inRange_between (first : a.isFinite) (second : b.isFinite) (g : Generator) :
    Scalar.min a b ≤ ((inRange (a, b)).run g).1 ∧ ((inRange (a, b)).run g).1 ≤ Scalar.max a b ∧
      (Uniform.inclusive? (Scalar.min a b) (Scalar.max a b) = none →
        (inRange (a, b)).run g = (Scalar.min a b, g)) := by
  have isFirst := isNaN_of_isFinite first
  have isSecond := isNaN_of_isFinite second
  by_cases reversed : b < a
  · have past := (lt_iff.mp reversed).2.2
    have ordered := le_iff.mpr ⟨isSecond, isFirst, past.le⟩
    have kept : ¬ a < b := fun less => past.not_gt (lt_iff.mp less).2.2
    have least : Scalar.min a b = b := if_pos (by rw [decide_eq_true reversed]; rfl)
    have most : Scalar.max a b = a := if_neg (by rw [decide_eq_false kept, isFirst]; decide)
    rw [inRange_swap reversed, least, most]
    exact inRange_of_le second first ordered g
  · have ordered : a ≤ b := not_not.mp (mt (not_le_iff isFirst isSecond).mp reversed)
    have least : Scalar.min a b = a := if_neg (by rw [decide_eq_false reversed, isFirst]; decide)
    obtain ⟨low, high, unsampled⟩ := inRange_of_le first second ordered g
    rw [least]
    by_cases less : a < b
    · have most : Scalar.max a b = b := if_pos (by rw [decide_eq_true less]; rfl)
      rw [most]
      exact ⟨low, high, unsampled⟩
    · -- Ends of one value may still be zeros of both signs, and then the first is taken for the larger.
      have most : Scalar.max a b = a := if_neg (by rw [decide_eq_false less, isFirst]; decide)
      have below : b ≤ a := not_not.mp (mt (not_le_iff isSecond isFirst).mp less)
      rw [most]
      exact ⟨low, le_trans high below, fun absent => absurd absent (inclusive?_self first)⟩

/-! ### Offsets -/

/-- A jittered number is no farther from its base than the variance, up to the rounding of the two ends. -/
theorem jitter_between (first : a.isFinite) (second : b.isFinite) (g : Generator) :
    a - b.abs ≤ ((jitter a b).run g).1 ∧ ((jitter a b).run g).1 ≤ a + b.abs := by
  have finite : b.abs.isFinite := (isFinite_abs b).trans second
  have finite' : (-b.abs).isFinite := (isFinite_neg b.abs).trans finite
  have shifted {x : Float32} (low : -b.abs ≤ x) (high : x ≤ b.abs) : a - b.abs ≤ a + x ∧ a + x ≤ a + b.abs := by
    have inside := (between_of_le finite' finite low high).finite
    rw [sub_eq_add]
    exact ⟨sum_mono_right finite' inside first low, sum_mono_right inside finite first high⟩
  cases found : Uniform.inclusive? (-b.abs) b.abs with
  | some range =>
    obtain ⟨low, fits⟩ := Uniform.inclusive_fits finite' finite found
    have drawn : ((jitter a b).run g).1 = a + range.number (g.stream g.position) := by
      simp only [jitter, found]
      rfl
    rw [drawn]
    exact shifted (low ▸ fits.low_le _) (le_trans (fits.number_le _) fits.within)
  | none =>
    have drawn : ((jitter a b).run g).1 = a := by
      simp only [jitter, found]
      rfl
    have up := (nonneg_abs second).value_nonneg finite
    have isNumber := isNaN_of_isFinite first
    have lower := rounds_sub first finite
    have upper := rounds_add first finite
    rw [drawn]
    exact ⟨le_iff.mpr ⟨lower.isNumber, isNumber, lower.below a first (by linarith)⟩,
      le_iff.mpr ⟨isNumber, upper.isNumber, upper.above a first (by linarith)⟩⟩

end

/-! ### All samples -/

/-- Numbers and counts from a range lie between its ends in either order, and the smaller end is taken without a
draw where the range cannot be sampled. Jittered numbers lie between the rounded ends of their interval. -/
theorem samples_stay_in_range (g : Generator) :
    (∀ a b : Float32, a.isFinite → b.isFinite →
      Scalar.min a b ≤ ((inRange (a, b)).run g).1 ∧ ((inRange (a, b)).run g).1 ≤ Scalar.max a b ∧
      (Uniform.inclusive? (Scalar.min a b) (Scalar.max a b) = none →
        (inRange (a, b)).run g = (Scalar.min a b, g))) ∧
    (∀ base variance : Float32, base.isFinite → variance.isFinite →
      base - variance.abs ≤ ((jitter base variance).run g).1 ∧
      ((jitter base variance).run g).1 ≤ base + variance.abs) ∧
    ∀ m n : UInt32, min m.toNat n.toNat ≤ ((countInRange (m, n)).run g).1.toNat ∧
      ((countInRange (m, n)).run g).1.toNat ≤ max m.toNat n.toNat := by
  exact ⟨fun a b first second => inRange_between first second g,
    fun base variance first second => jitter_between first second g, fun m n => countInRange_bounds (m, n) g⟩

/-- A reversed range, one as wide as all numbers, and an offset that is lost beside its base. -/
theorem samples_of_odd_ranges :
    (0.5 ≤ ((inRange (1, 0.5)).run (.ofSeed 3)).1 ∧ ((inRange (1, 0.5)).run (.ofSeed 3)).1 ≤ 1) ∧
    (inRange (3.4028235e38, -3.4028235e38)).run (.ofSeed 5) = (-3.4028235e38, .ofSeed 5) ∧
    1e10 - 1 ≤ ((jitter 1e10 (-1)).run (.ofSeed 1)).1 ∧ ((jitter 1e10 (-1)).run (.ofSeed 1)).1 ≤ 1e10 + 1 := by
  obtain ⟨numbers, -, -⟩ := samples_stay_in_range (.ofSeed 3)
  obtain ⟨numbers', -, -⟩ := samples_stay_in_range (.ofSeed 5)
  obtain ⟨-, offsets, -⟩ := samples_stay_in_range (.ofSeed 1)
  have smaller : Scalar.min 1 0.5 = 0.5 := by decide +kernel
  have larger : Scalar.max 1 0.5 = 1 := by decide +kernel
  have least : Scalar.min 3.4028235e38 (-3.4028235e38) = -3.4028235e38 := by decide +kernel
  have unit : (-1 : Float32).abs = 1 := by decide +kernel
  obtain ⟨low, high, -⟩ := numbers 1 0.5 rfl rfl
  obtain ⟨-, -, wide⟩ := numbers' 3.4028235e38 (-3.4028235e38) (by decide +kernel) (by decide +kernel)
  have offset := offsets 1e10 (-1) (by decide +kernel) (by decide +kernel)
  have drawn := wide (by decide +kernel)
  rw [smaller] at low
  rw [larger] at high
  rw [least] at drawn
  rw [unit] at offset
  exact ⟨⟨low, high⟩, drawn, offset⟩

end Random

end Sapling
