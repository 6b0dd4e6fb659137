import Sapling.Growth.Scheduler
import Sapling.Proofs.Random.Widths
import Sapling.Proofs.Scalar.Words
import Sapling.Proofs.Settings.Checks

/-! The numbers that are drawn for accepted settings. All their ranges are sound, but those of the two
largest widths cannot be sampled: they leave the generator where it is. -/
namespace Sapling

open Sapling.Random Sapling.Scalar

/-! ## What is drawn -/

namespace TurtleSettings

def lengthSample (settings : TurtleSettings) : Sample :=
  .around settings.baseLength settings.lengthVariance

def angleSample (settings : TurtleSettings) : Sample :=
  .around settings.baseAngle settings.angleVariance

def lateralSample (settings : TurtleSettings) : Sample := .around 0 settings.controlJitter.lateral

def verticalSample (settings : TurtleSettings) : Sample := .between settings.controlJitter.vertical

def samples (settings : TurtleSettings) : List Sample :=
  [settings.lengthSample, settings.angleSample, settings.lateralSample, settings.verticalSample]

end TurtleSettings

namespace LeafSettings

def turnSample (settings : LeafSettings) : Sample :=
  .around 0 (toRadians settings.orientationJitterDegrees)

def sizeSample (settings : LeafSettings) : Sample := .between settings.sizeVariation

def redSample (settings : LeafSettings) : Sample := .between settings.tint.r

def greenSample (settings : LeafSettings) : Sample := .between settings.tint.g

def blueSample (settings : LeafSettings) : Sample := .between settings.tint.b

def samples (settings : LeafSettings) : List Sample :=
  [settings.turnSample, settings.sizeSample, settings.redSample, settings.greenSample,
    settings.blueSample]

end LeafSettings

namespace GrowthTiming

def overlapSample (timing : GrowthTiming) : Sample := .between timing.overlapJitter

def durationSample (timing : GrowthTiming) : Sample := .between timing.durationJitter

def settleSample (timing : GrowthTiming) : Sample := .between timing.settleDelay

def samples (timing : GrowthTiming) : List Sample :=
  [timing.overlapSample, timing.durationSample, timing.settleSample]

end GrowthTiming

def TreeSettings.samples (settings : TreeSettings) : List Sample :=
  settings.turtle.samples ++ settings.leaves.samples ++ settings.timing.samples

/-! ## Sound ranges -/

theorem Span.sound {ends : Float32 × Float32} (span : Span ends) : (Sample.between ends).Sound :=
  ⟨span.low, span.ordered, span.width⟩

/-- A range around a mean is sound if its magnitude leaves room for one more exponent. -/
theorem sound_around {mean variance : Float32} (finite : variance.isFinite)
    (room : level variance.abs < (254 : Nat) * 2 ^ 23) : (Sample.around mean variance).Sound where
  low := by
    change (-variance.abs).isFinite
    rw [isFinite_neg, isFinite_abs]
    exact finite
  ordered := neg_abs_le_abs finite
  width := by
    have low : (-variance.abs).isFinite := by
      rw [isFinite_neg, isFinite_abs]
      exact finite
    have nonneg := nonneg_sub low (neg_abs_le_abs finite)
    exact nonneg.isFinite_of_level (level_abs_sub_lt finite room (by decide))

private theorem Variance.sound {variance : Float32} (accepted : Variance variance) (mean : Float32) :
    (Sample.around mean variance).Sound :=
  sound_around accepted.notNegative.finite
    (level_abs_lt_of_double accepted.notNegative.finite accepted.width)

namespace LeafSettings.Accepted

variable {settings : LeafSettings}

/-- In radians an angle is much smaller than in degrees. -/
theorem turn_small (accepted : settings.Accepted) :
    (toRadians settings.orientationJitterDegrees).isFinite ∧
      level (toRadians settings.orientationJitterDegrees).abs < (252 : Nat) * 2 ^ 23 := by
  have degrees := accepted.orientationJitter.notNegative
  have room := level_abs_lt_of_double degrees.finite accepted.orientationJitter.width
  rw [degrees.nonneg.level_abs] at room
  have unit : Nonneg (0.017453292 : Float32) := ⟨rfl, by decide⟩
  have unitSmall : level (0.017453292 : Float32) < (122 : Nat) * 2 ^ 23 := by decide
  have product : Nonneg (toRadians settings.orientationJitterDegrees) :=
    degrees.nonneg.mul unit degrees.finite (.inl rfl)
  have small : level (toRadians settings.orientationJitterDegrees) < (252 : Nat) * 2 ^ 23 :=
    degrees.nonneg.level_mul unit room unitSmall (by decide) (by decide) (by decide)
  refine ⟨product.isFinite_of_level (by omega), ?_⟩
  rw [product.level_abs]
  exact small

theorem turn_sound (accepted : settings.Accepted) : settings.turnSample.Sound :=
  sound_around accepted.turn_small.1 (Int.lt_trans accepted.turn_small.2 (by decide))

/-- The range of turns is far from the widest ones. -/
theorem turn_narrow (accepted : settings.Accepted) : settings.turnSample.width < widest := by
  have sound := accepted.turn_sound
  have small : level settings.turnSample.width < _ :=
    level_abs_sub_lt accepted.turn_small.1 accepted.turn_small.2 (by decide)
  have place : level widest = 0x7F7FFFFE := by decide
  refine lt_iff.mpr ⟨isNaN_of_isFinite sound.width, rfl, ?_⟩
  omega

private theorem sound (accepted : settings.Accepted) : ∀ s ∈ settings.samples, s.Sound := by
  simp only [samples, List.forall_mem_cons]
  exact ⟨accepted.turn_sound, accepted.sizeVariation.sound, accepted.red.sound, accepted.green.sound,
    accepted.blue.sound, nofun⟩

end LeafSettings.Accepted

private theorem TurtleSettings.Accepted.sound {settings : TurtleSettings} (accepted : settings.Accepted) :
    ∀ s ∈ settings.samples, s.Sound := by
  simp only [samples, List.forall_mem_cons]
  exact ⟨accepted.lengthVariance.sound _, accepted.angleVariance.sound _,
    accepted.controlJitter.lateral.sound _, accepted.controlJitter.vertical.sound, nofun⟩

private theorem GrowthTiming.Accepted.sound {timing : GrowthTiming} (accepted : timing.Accepted) :
    ∀ s ∈ timing.samples, s.Sound := by
  simp only [samples, List.forall_mem_cons]
  exact ⟨accepted.overlapJitter.sound, accepted.durationJitter.sound, accepted.settleDelay.sound, nofun⟩

/-! ## Draws -/

namespace TreeSettings

/-- The numbers that are drawn for accepted settings take one word each, except for ranges of the two
largest finite widths: those are accepted too, but give their fallback without drawing. The turns of
leaves are never that wide. What is drawn next finds the generator moved on by the words of all numbers
before. -/
theorem accepted_samples {settings : TreeSettings} (valid : settings.validate = .ok ()) (g : Generator) :
    (∀ s ∈ settings.samples, s.Settled g) ∧ settings.leaves.turnSample.width < widest ∧
    (settings.turtle.drawLength.run g).2 = g.skip settings.turtle.lengthSample.words ∧
    (settings.turtle.drawAngle.run g).2 = g.skip settings.turtle.angleSample.words ∧
    (settings.turtle.drawControlOffset.run g).2 = g.skip (settings.turtle.lateralSample.words +
      settings.turtle.verticalSample.words + settings.turtle.lateralSample.words) ∧
    (settings.leaves.drawJitter.run g).2 = g.skip 3 ∧
    (settings.leaves.drawColor.run g).2 = g.skip (settings.leaves.redSample.words +
      settings.leaves.greenSample.words + settings.leaves.blueSample.words) ∧
    ∀ share, ((Scheduler.drawBranch settings.timing settings.bark share).run g).2 =
      (settings.bark.pick.run (g.skip (settings.timing.durationSample.words +
        settings.timing.settleSample.words))).2 := by
  have accepted := validate_ok_iff.mp valid
  have turtle := accepted.turtle.sound
  have leaves := accepted.leaves.sound
  have timing := accepted.timing.sound
  have all : ∀ s ∈ settings.samples, s.Sound := List.forall_mem_append.mpr
    ⟨List.forall_mem_append.mpr ⟨turtle, leaves⟩, timing⟩
  simp only [TurtleSettings.samples, LeafSettings.samples, GrowthTiming.samples,
    List.forall_mem_cons] at turtle leaves timing
  obtain ⟨length, angle, lateral, vertical, -⟩ := turtle
  obtain ⟨turn, size, red, green, blue, -⟩ := leaves
  obtain ⟨overlap, duration, settle, -⟩ := timing
  have narrow := accepted.leaves.turn_narrow
  have once : settings.leaves.turnSample.words = 1 := if_pos narrow
  refine ⟨fun s held => (all s held).settled g, narrow, length.after g, angle.after g, ?_, ?_, ?_,
    fun share => ?_⟩
  · change (settings.turtle.lateralSample.draw.run (settings.turtle.verticalSample.draw.run
      (settings.turtle.lateralSample.draw.run g).2).2).2 = _
    simp only [lateral.after, vertical.after, Generator.skip_skip, Nat.add_assoc]
  · change (settings.leaves.turnSample.draw.run (settings.leaves.turnSample.draw.run
      (settings.leaves.turnSample.draw.run g).2).2).2 = _
    rw [turn.after, turn.after, turn.after, once]
    rfl
  · change (settings.leaves.blueSample.draw.run (settings.leaves.greenSample.draw.run
      (settings.leaves.redSample.draw.run g).2).2).2 = _
    simp only [red.after, green.after, blue.after, Generator.skip_skip, Nat.add_assoc]
  · change (settings.bark.pick.run (settings.timing.settleSample.draw.run
      (settings.timing.durationSample.draw.run g).2).2).2 = _
    rw [duration.after, settle.after, Generator.skip_skip]

/-- The usual settings with the widest range of red are accepted. No red is drawn for them, and the green
of a leaf takes the word that its red should have taken. -/
theorem widest_red_is_not_drawn :
    let settings : TreeSettings :=
      { leaves := { tint := { r := (0, Float32.ofBits 0x7F7FFFFF) } } }
    settings.validate = .ok () ∧
    (inRange settings.leaves.tint.r).run (.ofSeed 7) = (0, .ofSeed 7) ∧
    (settings.leaves.drawColor.run (.ofSeed 7)).2 = (Generator.ofSeed 7).skip 2 := by
  have valid : ({ leaves := { tint := { r := (0, Float32.ofBits 0x7F7FFFFF) } } } :
      TreeSettings).validate = .ok () := rfl
  obtain ⟨settled, -, -, -, -, -, color, -⟩ := accepted_samples valid (.ofSeed 7)
  have wide : ¬ (Sample.between (0, Float32.ofBits 0x7F7FFFFF)).width < widest := by decide
  have words : (Sample.between (0, Float32.ofBits 0x7F7FFFFF)).words +
      (Sample.between (0.8, 1)).words + (Sample.between (0.3, 0.7)).words = 2 := by decide
  have red := settled (.between (0, Float32.ofBits 0x7F7FFFFF))
    (List.mem_append_left _ (List.mem_append_right _ (.tail _ (.tail _ (.head _)))))
  exact ⟨valid, (red.skipped wide).2, color.trans (congrArg _ words)⟩

end TreeSettings

/-! ## Counts of leaves

The check of the range for the number of leaves of a cluster. Its ends are compared as single-precision
numbers, and rounding keeps the order of words but may make two of them one. So every range in order is
accepted, and of the others those whose ends round to the same number.
-/

namespace GrowthTiming

/-- The other settings of a timing pass all checks, with some range for the number of leaves. -/
def OthersAccepted (timing : GrowthTiming) : Prop :=
  ∃ counts, { timing with leavesPerCluster := counts }.validate = .ok ()

/-- Of words, only the order of the rounded numbers is checked. -/
theorem span_words_iff {m n : UInt32} :
    Span (m.toFloat32, n.toFloat32) ↔ m ≤ n ∨ m.toFloat32 = n.toFloat32 := by
  rw [← Scalar.word_le_iff]
  constructor
  · exact Span.ordered
  · intro ordered
    have most := Scalar.representable_power (e := 32) (by decide) (by decide)
    have width := (Scalar.word_between n).sub (Scalar.word_between m)
      (by rw [zero_sub]; exact most.neg) (by rw [sub_zero]; exact most)
    exact ⟨Scalar.word_isFinite m, Scalar.word_isFinite n, ordered, width.finite⟩

private theorem validate_ok_iff_others {timing : GrowthTiming} : timing.validate = .ok () ↔
    timing.OthersAccepted ∧ (timing.leavesPerCluster.1 ≤ timing.leavesPerCluster.2 ∨
      timing.leavesPerCluster.1.toFloat32 = timing.leavesPerCluster.2.toFloat32) := by
  constructor
  · intro valid
    exact ⟨⟨timing.leavesPerCluster, valid⟩, span_words_iff.mp (validate_ok_iff.mp valid).leavesPerCluster⟩
  · rintro ⟨⟨counts, valid⟩, ordered⟩
    have others := validate_ok_iff.mp valid
    exact validate_ok_iff.mpr { others with leavesPerCluster := span_words_iff.mpr ordered }

/-- Every check before that of the number of leaves passes, and that one does not. -/
theorem validate_of_reversed {timing : GrowthTiming} (others : timing.OthersAccepted)
    (reversed : timing.leavesPerCluster.2.toFloat32 < timing.leavesPerCluster.1.toFloat32) :
    timing.validate = .error (.invalidRange "leaves_per_cluster" timing.leavesPerCluster.1.toFloat32
      timing.leavesPerCluster.2.toFloat32) := by
  obtain ⟨counts, valid⟩ := others
  have others := validate_ok_iff.mp valid
  rw [validate, Validation.after_ok (Ensure.positive_ok_iff.mpr others.totalGrowthTime),
    if_neg others.parallelBranches]
  beta_reduce
  rw [Validation.after_ok (Ensure.positive_ok_iff.mpr others.branchOverlapDelay),
    Validation.after_ok (Ensure.ordered_ok_iff.mpr others.overlapJitter),
    Validation.after_ok (Ensure.positive_ok_iff.mpr others.leastOverlap),
    Validation.after_ok (Ensure.finite_ok_iff.mpr others.longestOverlap),
    Validation.after_ok (Ensure.ordered_ok_iff.mpr others.durationJitter),
    Validation.after_ok (Ensure.positive_ok_iff.mpr others.leastDuration),
    Validation.after_ok (Ensure.finite_ok_iff.mpr others.longestDuration),
    Validation.after_ok (Ensure.ordered_ok_iff.mpr others.settleDelay),
    Validation.after_ok (Ensure.nonNegative_ok_iff.mpr others.leastSettle),
    Validation.after_ok (Ensure.positive_ok_iff.mpr others.leafClusterStagger),
    Ensure.ordered_reversed (Scalar.word_isFinite _) (Scalar.word_isFinite _) reversed]
  rfl

/-- When a range for the number of leaves is accepted. With other settings that pass, every range in order is; a
range out of order is accepted if and only if its ends are rounded to one number, which is so only for ends
from `2 ^ 24` on that are no more than 256 apart. Any other is refused as a range out of order. -/
theorem leaf_counts_accepted_iff (timing : GrowthTiming) :
    let fewest := timing.leavesPerCluster.1
    let most := timing.leavesPerCluster.2
    (timing.validate = .ok () ↔
      timing.OthersAccepted ∧ (fewest ≤ most ∨ fewest.toFloat32 = most.toFloat32)) ∧
    (timing.validate = .ok () →
      fewest ≤ most ∨ 2 ^ 24 ≤ most.toNat ∧ fewest.toNat ≤ most.toNat + 256) ∧
    (timing.OthersAccepted → ¬ timing.validate = .ok () →
      timing.validate = .error (.invalidRange "leaves_per_cluster" fewest.toFloat32 most.toFloat32)) := by
  intro fewest most
  refine ⟨validate_ok_iff_others, fun valid => ?_, fun others refused => ?_⟩
  · by_cases ordered : fewest ≤ most
    · exact .inl ordered
    · have same := (validate_ok_iff_others.mp valid).2.resolve_left ordered
      exact .inr (Scalar.apart_of_toFloat32_eq (UInt32.not_le.mp ordered) same)
  · have unordered : ¬ fewest.toFloat32 ≤ most.toFloat32 := fun ordered =>
      refused (validate_ok_iff_others.mpr ⟨others, Scalar.word_le_iff.mp ordered⟩)
    refine validate_of_reversed others ((Scalar.not_le_iff ?_ ?_).mp unordered)
    · exact Scalar.isNaN_of_isFinite (Scalar.word_isFinite fewest)
    · exact Scalar.isNaN_of_isFinite (Scalar.word_isFinite most)

/-- The two smallest words that are rounded to one number are accepted in either order, and six to two leaves
are not. -/
theorem large_reversed_counts_are_accepted :
    let large : GrowthTiming := { leavesPerCluster := (16777217, 16777216) }
    let small : GrowthTiming := { leavesPerCluster := (6, 2) }
    large.validate = .ok () ∧ ¬ large.leavesPerCluster.1 ≤ large.leavesPerCluster.2 ∧
    2 ^ 24 ≤ large.leavesPerCluster.2.toNat ∧
    { large with leavesPerCluster := (16777216, 16777217) }.validate = .ok () ∧
    small.OthersAccepted ∧ small.validate = .error (.invalidRange "leaves_per_cluster" 6 2) := by
  intro large small
  have usual : ({} : GrowthTiming).validate = .ok () := rfl
  have others (counts : UInt32 × UInt32) :
      ({ leavesPerCluster := counts } : GrowthTiming).OthersAccepted := ⟨(3, 5), usual⟩
  have same : (16777217 : UInt32).toFloat32 = (16777216 : UInt32).toFloat32 := by decide
  have reversed : ¬ large.leavesPerCluster.1 ≤ large.leavesPerCluster.2 := by decide
  have valid : large.validate = .ok () := (leaf_counts_accepted_iff large).1.mpr ⟨others _, .inr same⟩
  have bits := ((leaf_counts_accepted_iff large).2.1 valid).resolve_left reversed
  have turned := (leaf_counts_accepted_iff { large with leavesPerCluster := (16777216, 16777217) }).1.mpr
    ⟨others _, .inl (by decide)⟩
  have apart : ¬ ((6 : UInt32) ≤ 2 ∨ (6 : UInt32).toFloat32 = (2 : UInt32).toFloat32) := by decide
  have refused : ¬ small.validate = .ok () := fun valid =>
    apart ((leaf_counts_accepted_iff small).1.mp valid).2
  have fault := (leaf_counts_accepted_iff small).2.2 (others _) refused
  have six : (6 : UInt32).toFloat32 = 6 := by decide
  have two : (2 : UInt32).toFloat32 = 2 := by decide
  rw [six, two] at fault
  exact ⟨valid, reversed, bits.1, turned, others _, fault⟩

end GrowthTiming

end Sapling
