import Sapling.Proofs.Scalar.Negation
import Sapling.Proofs.Scalar.Signs
import Sapling.Random.Sampling

/-! Which ranges can be sampled, and what is drawn from those that begin at zero or above. -/
namespace Sapling

/-! ## Sound ranges

Numbers drawn from a range that begins at zero or above. The fraction drawn is finite and the scale that
it is multiplied with is too, so the draw is a number, and it is not negative.
-/

namespace Random

open Float.Model
open Scalar (level Nonneg target)

/-! ### Fractions -/

/-- Every word becomes a number of moderate size. -/
theorem word_nonneg (w : UInt32) :
    Nonneg w.toFloat32 ∧ level w.toFloat32 < (160 : Nat) * 2 ^ 23 := by
  change Nonneg (.ofModel (.pack (.normalize .binary32 (w.toNat : Int) 0 .positive))) ∧
    level (.ofModel (.pack (.normalize .binary32 (w.toNat : Int) 0 .positive))) < _
  refine ⟨(Scalar.upward_normalize (Int.natCast_nonneg _) ..).pack, ?_⟩
  rcases Nat.eq_zero_or_pos w.toNat with vanishes | positive
  · rw [vanishes]
    decide
  · have above : compare (w.toNat : Int) 0 = .gt := Int.compare_eq_gt.mpr (by omega)
    have log : w.toNat.log2 < 32 := (Nat.log2_lt (Nat.ne_of_gt positive)).mpr w.toNat_lt
    simp only [UnpackedFloat.normalize, above, UnpackedFloat.round, UnpackedFloat.decreaseExponent,
      Int.toNat_natCast]
    refine Scalar.level_round .exact ?_ (by decide)
    simp only [target, Scalar.log2_shiftLeft positive]
    omega

/-- The fraction drawn for a range is finite and not negative. -/
theorem coarseFraction_nonneg (w : UInt32) :
    Nonneg (coarseFractionOfWord w) ∧ (coarseFractionOfWord w).isFinite := by
  obtain ⟨nonneg, small⟩ := word_nonneg (w >>> 9)
  have unit : Nonneg (1.1920929e-7 : Float32) := ⟨rfl, by decide⟩
  have unitSmall : level (1.1920929e-7 : Float32) < (105 : Nat) * 2 ^ 23 := by decide
  have finite : (w >>> 9).toFloat32.isFinite := nonneg.isFinite_of_level (by omega)
  have product : Nonneg (coarseFractionOfWord w) := nonneg.mul unit finite (.inl rfl)
  have below : level (coarseFractionOfWord w) < (141 : Nat) * 2 ^ 23 :=
    nonneg.level_mul unit small unitSmall (by decide) (by decide) (by decide)
  exact ⟨product, product.isFinite_of_level (by omega)⟩

/-! ### Ranges -/

private theorem fitScale_bits (low high : Float32) (bits : Nat) :
    ∃ fitted ≤ bits, fitScale low high bits = Float32.ofBits (UInt32.ofNat fitted) := by
  induction bits with
  | zero => exact ⟨0, Nat.le_refl 0, rfl⟩
  | succ bits ih =>
    obtain ⟨fitted, below, same⟩ := ih
    simp only [fitScale]
    split
    · exact ⟨fitted, Nat.le_succ_of_le below, same⟩
    · exact ⟨bits + 1, Nat.le_refl _, rfl⟩

/-- Minus zero as a scale leaves the low end where it is. -/
def CarriesNowhere (low : Float32) : Prop :=
  level (Float32.ofBits (UInt32.ofNat (2 ^ 31)) * largestFraction + low) = level low

/-- Minus zero is not fitted, since it carries the low end nowhere. -/
private theorem fitScale_minus_zero {low high : Float32} (kept : CarriesNowhere low) (ordered : low ≤ high)
    (bits : Nat) (minus : bits + 1 = 2 ^ 31) :
    fitScale low high (bits + 1) = Float32.ofBits (UInt32.ofNat (bits + 1)) := by
  refine if_neg fun above => ?_
  rw [minus, Scalar.lt_iff, kept] at above
  rw [Scalar.le_iff] at ordered
  omega

/-- The width of a range is not negative, nor is the scale that it gives. -/
theorem scale_nonneg {low high : Float32} (finite : low.isFinite) (ordered : low ≤ high) :
    Nonneg ((high - low) / largestFraction) := by
  have largest : ∃ m e positive, largestFraction.toModel.unpack = .finite .positive m e positive :=
    ⟨16777214, -24, by decide, rfl⟩
  obtain ⟨m, e, positive, divisor⟩ := largest
  exact (Scalar.nonneg_sub finite ordered).div divisor

/-- The scale of a range stays finite and not negative when it is fitted to the high end. -/
theorem fitScale_nonneg {low high scale : Float32} (kept : CarriesNowhere low) (ordered : low ≤ high)
    (up : Nonneg scale) (finite : scale.isFinite) :
    Nonneg (fitScale low high scale.toBits.toNat) ∧
      (fitScale low high scale.toBits.toNat).isFinite := by
  rcases up.bits_of_isFinite finite with small | minus
  · obtain ⟨fitted, below, same⟩ := fitScale_bits low high scale.toBits.toNat
    have number : (UInt32.ofNat fitted).toNat = fitted :=
      UInt32.toNat_ofNat_of_lt' (show fitted < 2 ^ 32 by omega)
    have bits : (Float32.ofBits (UInt32.ofNat fitted)).toBits.toNat = fitted :=
      (Scalar.toBits_ofBits (by omega)).trans number
    have forward : Scalar.Forward (Float32.ofBits (UInt32.ofNat fitted)) := by
      unfold Scalar.Forward
      omega
    rw [same]
    refine ⟨forward.nonneg, forward.nonneg.isFinite_of_level ?_⟩
    rw [forward.unsigned.2.1, bits]
    omega
  · obtain ⟨bits, shape⟩ : ∃ bits, scale.toBits.toNat = bits + 1 :=
      ⟨scale.toBits.toNat - 1, by omega⟩
    rw [shape, fitScale_minus_zero kept ordered bits (shape ▸ minus), ← shape, minus]
    exact ⟨⟨by decide, by decide⟩, by decide⟩

/-- What is drawn from a range of numbers that are not negative is not negative. -/
theorem inRange_nonneg {ends : Float32 × Float32} (low : Nonneg ends.1) (finite : ends.1.isFinite)
    (ordered : ends.1 ≤ ends.2) (source : Generator) :
    Nonneg ((inRange ends).run source).1 := by
  have scale := scale_nonneg finite ordered
  have sampled (fraction : UInt32) (bounded : ((ends.2 - ends.1) / largestFraction).isFinite) :
      Nonneg (coarseFractionOfWord fraction *
        fitScale ends.1 ends.2 ((ends.2 - ends.1) / largestFraction).toBits.toNat + ends.1) := by
    obtain ⟨up, small⟩ := coarseFraction_nonneg fraction
    obtain ⟨up', small'⟩ := fitScale_nonneg (low.level_zero_add .negative) ordered scale bounded
    exact (up.mul up' small (.inl small')).add low
  by_cases bounded : ((ends.2 - ends.1) / largestFraction).isFinite
  · simp only [inRange, ordered, ↓reduceIte, Uniform.inclusive?, bounded]
    exact sampled _ bounded
  · simp only [inRange, ordered, ↓reduceIte, Uniform.inclusive?, bounded]
    exact low

end Random

/-! ## Widths

Which ranges can be sampled. The width of a range is divided by the largest fraction, which is a little
less than one, and the quotient has to be finite. It is for all widths but the two largest finite ones.
-/

namespace Random

open Float.Model
open UnpackedFloat (Sign)
open Scalar (level Nonneg Rounded placeOf target)

/-- The least width of a range that cannot be sampled. Only one finite number is larger. -/
def widest : Float32 := Float32.ofBits 0x7F7FFFFE

/-- A division by the largest fraction keeps the exponent. -/
private theorem divCore_largest {m : Nat} {e : Int} (positive : 0 < m) (rounded : Rounded m e) :
    UnpackedFloat.divCore .binary32 m e 16777214 (-24) = (m * 2 ^ 24 / 16777214, e,
      UnpackedFloat.accuracyOfFraction (m * 2 ^ 24 % 16777214) 16777214) := by
  have aim := Scalar.target_of_rounded positive rounded
  have exponent : Min.min (e - -24) (Format.binary32.targetExponent
      (totalExponent m e - totalExponent 16777214 (-24))) = e := by
    have divisor : totalExponent 16777214 (-24) = 0 := by decide
    have dividend : Format.binary32.targetExponent (totalExponent m e) = target m e :=
      Scalar.target_eq m e
    rw [divisor, Int.sub_zero, dividend, aim]
    omega
  have shift : (e - -24 - e).toNat = 24 := by omega
  simp only [UnpackedFloat.divCore, exponent, shift, Nat.shiftLeft_eq]

/-- Widths below the two largest ones are divided within the format. -/
private theorem quotient_of_narrow {m : Nat} {e : Int} (positive : 0 < m) (rounded : Rounded m e)
    (narrow : placeOf m e < 0x7F7FFFFE) : Float32.isFinite (.ofModel (.pack
      (.div .binary32 (.finite .positive m e positive)
        (.finite .positive 16777214 (-24) (by decide))))) := by
  obtain ⟨less, least, normal⟩ := rounded
  simp only [placeOf] at narrow
  have kept : m ≤ m * 2 ^ 24 / 16777214 := by omega
  have low : e ≤ target (m * 2 ^ 24 / 16777214) e := by
    have aim := Scalar.target_of_rounded positive ⟨less, least, normal⟩
    have log : m.log2 ≤ (m * 2 ^ 24 / 16777214).log2 := (Nat.le_log2 (by omega)).mpr
      (Nat.le_trans (Nat.log2_self_le (Nat.ne_of_gt positive)) kept)
    unfold target at aim ⊢
    omega
  obtain ⟨m', e', positive', result, rounded', between⟩ := Scalar.round_between
    (UnpackedFloat.accuracyOfFraction (m * 2 ^ 24 % 16777214) 16777214)
    (Nat.lt_of_lt_of_le positive kept) least low .positive
  have within : m * 2 ^ 24 / 16777214 < (2 ^ 24 - 1) * 2 ^ (104 - e).toNat := by
    by_cases top : e = 104
    · have noShift : (104 - e).toNat = 0 := by omega
      rw [noShift]
      omega
    · obtain ⟨shift, exceeds⟩ : ∃ shift, (104 - e).toNat = shift + 1 := ⟨(104 - e).toNat - 1, by omega⟩
      have power : 1 ≤ 2 ^ shift := Nat.one_le_two_pow
      rw [exceeds, Nat.pow_succ]
      omega
  have most := (between (2 ^ 24 - 1) 104 ⟨by decide, by decide, fun _ => by decide⟩
    (by omega)).2 (.inl within)
  have quotient : UnpackedFloat.div .binary32 (.finite .positive m e positive)
      (.finite .positive 16777214 (-24) (by decide)) = .finite .positive m' e' positive' := by
    rw [← result]
    dsimp only [UnpackedFloat.div]
    rw [divCore_largest positive ⟨less, least, normal⟩]
    rfl
  have bits := Scalar.pack_place positive' rounded'
  have forward : Scalar.Forward (.ofModel (.pack (.finite .positive m' e' positive'))) := by
    unfold Scalar.Forward
    omega
  rw [quotient]
  refine forward.nonneg.isFinite_of_level ?_
  rw [forward.unsigned.2.1, bits]
  simp only [placeOf] at most ⊢
  omega

/-- A width can be sampled if and only if it is below the two largest finite numbers. -/
theorem isFinite_div_largestFraction {width : Float32} (nonneg : Nonneg width)
    (finite : width.isFinite) : (width / largestFraction).isFinite ↔ width < widest := by
  have isNumber : widest.isNaN = false := rfl
  have place : level widest = 0x7F7FFFFE := by decide
  rw [Scalar.lt_iff, place]
  constructor
  · intro bounded
    refine ⟨nonneg.isNumber, isNumber, ?_⟩
    by_contra wide
    have below := nonneg.level_lt_of_isFinite finite
    have largest : width = widest ∨ width = Float32.ofBits 0x7F7FFFFF := by
      have last : level (Float32.ofBits 0x7F7FFFFF) = 0x7F7FFFFF := by decide
      by_cases first : level width = 0x7F7FFFFE
      · exact .inl (Scalar.eq_of_level_eq (first.trans place.symm) (by omega))
      · exact .inr (Scalar.eq_of_level_eq (by omega) (by omega))
    rcases largest with rfl | rfl <;> exact absurd bounded (by decide)
  · rintro ⟨-, -, narrow⟩
    have unsigned := Scalar.unsigned_of_level nonneg.isNumber nonneg.up
    have divisor : largestFraction.toModel.unpack = .finite .positive 16777214 (-24) (by decide) := rfl
    rw [Scalar.div_unpack, divisor]
    generalize width.toModel.unpack = u, level width = place at unsigned narrow
    cases unsigned with
    | zero sign => cases sign <;> decide
    | finite positive rounded small => exact quotient_of_narrow positive rounded narrow
    | infinity => omega

/-! ### Samples -/

/-- The generator after some more words. -/
def Generator.skip (g : Generator) (words : Nat) : Generator := { g with position := g.position + words }

theorem Generator.skip_skip (g : Generator) (a b : Nat) : (g.skip a).skip b = g.skip (a + b) := by
  simp only [skip, Nat.add_assoc]

/-- A draw between two ends takes one word and scales its fraction. -/
theorem between_run (low high : Float32) (g : Generator) : (between low high).run g =
    (coarseFractionOfWord (g.stream g.position) * (high - low) + low, g.skip 1) := rfl

/-- A number to draw. -/
inductive Sample where
  | around (mean variance : Float32)
  | between (ends : Float32 × Float32)

namespace Sample

def draw : Sample → Draw Float32
  | around mean variance => jitter mean variance
  | between ends => inRange ends

/-- The ends of the range that is sampled. -/
def ends : Sample → Float32 × Float32
  | around _ variance => (-variance.abs, variance.abs)
  | between ends => ends

def width (s : Sample) : Float32 := s.ends.2 - s.ends.1

/-- The number for what the range gives. -/
def value : Sample → Float32 → Float32
  | around mean _, offset => mean + offset
  | between _, drawn => drawn

/-- The number that stands for a range that cannot be sampled. -/
def fallback : Sample → Float32
  | around mean _ => mean
  | between ends => ends.1

/-- How many words a number takes. -/
def words (s : Sample) : Nat := if s.width < widest then 1 else 0

/-- The range is neither empty nor wider than any number. -/
structure Sound (s : Sample) : Prop where
  low : s.ends.1.isFinite
  ordered : s.ends.1 ≤ s.ends.2
  width : s.width.isFinite

private theorem inclusive_of_sound {s : Sample} (sound : s.Sound) :
    Uniform.inclusive? s.ends.1 s.ends.2 = if s.width < widest then
      some ⟨s.ends.1, fitScale s.ends.1 s.ends.2 (s.width / largestFraction).toBits.toNat⟩ else none := by
  have bounded := isFinite_div_largestFraction (Scalar.nonneg_sub sound.low sound.ordered) sound.width
  simp only [Uniform.inclusive?, sound.ordered, if_true]
  exact if_congr bounded rfl rfl

/-- A number is its value for a range that can be sampled, and the fallback for any other. -/
theorem draw_eq {s : Sample} (sound : s.Sound) : s.draw =
    match Uniform.inclusive? s.ends.1 s.ends.2 with
    | some range => do return s.value (← range.sample)
    | none => return s.fallback := by
  cases s with
  | around mean variance => rfl
  | between ends =>
    have ordered : ends.1 ≤ ends.2 := sound.ordered
    simp only [draw, inRange, ordered, if_true, Sample.ends]
    cases Uniform.inclusive? ends.1 ends.2 <;> rfl

/-- A number takes one word if its range is narrow enough. Else it takes none and is the fallback. -/
structure Settled (s : Sample) (g : Generator) : Prop where
  finite : s.width.isFinite
  drawn : s.width < widest → ∃ range, Uniform.inclusive? s.ends.1 s.ends.2 = some range ∧
    s.draw.run g = (s.value (coarseFractionOfWord (g.stream g.position) * range.scale + range.low),
      g.skip 1)
  skipped : ¬ s.width < widest →
    Uniform.inclusive? s.ends.1 s.ends.2 = none ∧ s.draw.run g = (s.fallback, g)

/-- A sound sample draws one word where its range is narrow enough, and none where it is not. -/
theorem Sound.settled {s : Sample} (sound : s.Sound) (g : Generator) : s.Settled g where
  finite := sound.width
  drawn narrow := by
    have range := inclusive_of_sound sound
    rw [if_pos narrow] at range
    refine ⟨_, range, ?_⟩
    rw [draw_eq sound, range]
    rfl
  skipped wide := by
    have range := inclusive_of_sound sound
    rw [if_neg wide] at range
    refine ⟨range, ?_⟩
    rw [draw_eq sound, range]
    rfl

/-- What follows a number finds the generator after the words of the number. -/
theorem Sound.after {s : Sample} (sound : s.Sound) (g : Generator) :
    (s.draw.run g).2 = g.skip s.words := by
  unfold words
  by_cases narrow : s.width < widest
  · obtain ⟨range, -, run⟩ := (sound.settled g).drawn narrow
    rw [run, if_pos narrow]
  · rw [((sound.settled g).skipped narrow).2, if_neg narrow]
    rfl

end Sample


end Random

end Sapling
