import Sapling.Growth.Settings
import Sapling.Proofs.Random.Widths
import Sapling.Proofs.Scalar.Signs

/-! What settings are accepted. Each check passes for exactly the numbers that it is there for, and each
group of settings passes its checks if and only if its numbers have the properties listed here. -/
namespace Sapling

open Scalar (level Nonneg)

namespace Validation

theorem and_ok_iff {first second : Validation} :
    (do first; second) = .ok () ↔ first = .ok () ∧ second = .ok () := by
  constructor
  · intro valid
    cases first with
    | error fault => cases valid
    | ok _ => exact ⟨rfl, valid⟩
  · rintro ⟨rfl, valid⟩
    exact valid

/-- Settings that a check turns away are not accepted, whatever is checked after it. -/
theorem unless_ok_iff {refused : Prop} [Decidable refused] {fault : ConfigError}
    {after : Unit → Validation} {rest : Validation} :
    (if refused then (throw fault : Validation) >>= after else rest) = .ok () ↔
      ¬ refused ∧ rest = .ok () := by
  by_cases wrong : refused
  · rw [if_pos wrong]
    exact ⟨nofun, fun accepted => absurd wrong accepted.1⟩
  · rw [if_neg wrong]
    exact (and_iff_right wrong).symm

private theorem last_ok_iff {refused : Prop} [Decidable refused] {fault : ConfigError} :
    (if refused then (throw fault : Validation) else pure ()) = .ok () ↔ ¬ refused := by
  by_cases wrong : refused
  · rw [if_pos wrong]
    exact ⟨nofun, fun accepted => absurd wrong accepted⟩
  · rw [if_neg wrong]
    exact iff_of_true rfl wrong

/-- A check that passes leaves the word to the next one. -/
theorem after_ok {first second : Validation} (passed : first = .ok ()) :
    (do first; second) = second := by
  rw [passed]
  rfl

end Validation

/-! ## Single checks -/

/-- A finite number above zero. -/
@[mk_iff]
structure Positive (x : Float32) : Prop where
  finite : x.isFinite
  above : 0 < x

/-- A finite number from minus zero on. -/
@[mk_iff]
structure NotNegative (x : Float32) : Prop where
  finite : x.isFinite
  above : 0 ≤ x

/-- A half-width whose whole width is finite. -/
@[mk_iff]
structure Variance (x : Float32) : Prop where
  notNegative : NotNegative x
  width : (2 * x).isFinite

/-- A number from zero to one. -/
@[mk_iff]
structure UnitNumber (x : Float32) : Prop where
  low : 0 ≤ x
  high : x ≤ 1

/-- Two finite ends in order, a finite width apart. -/
@[mk_iff]
structure Span (ends : Float32 × Float32) : Prop where
  low : ends.1.isFinite
  high : ends.2.isFinite
  ordered : ends.1 ≤ ends.2
  width : (ends.2 - ends.1).isFinite

theorem Positive.nonneg {x : Float32} (positive : Positive x) : Scalar.Nonneg x := by
  obtain ⟨-, isNumber, up⟩ := Scalar.lt_iff.mp positive.above
  exact ⟨isNumber, Int.le_of_lt up⟩

theorem Positive.level_pos {x : Float32} (positive : Positive x) : 0 < Scalar.level x :=
  (Scalar.lt_iff.mp positive.above).2.2

theorem NotNegative.nonneg {x : Float32} (notNegative : NotNegative x) : Scalar.Nonneg x := by
  obtain ⟨-, isNumber, up⟩ := Scalar.le_iff.mp notNegative.above
  exact ⟨isNumber, up⟩

namespace Ensure

theorem finite_ok_iff : finite field value = .ok () ↔ value.isFinite := by
  unfold finite
  by_cases isFinite : value.isFinite <;> simp [isFinite]

/-- The check for positive numbers passes exactly the finite ones above zero. -/
theorem positive_ok_iff : positive field value = .ok () ↔ Positive value := by
  rw [positive, Validation.and_ok_iff, finite_ok_iff, positive_iff]
  by_cases above : 0 < value <;> simp [above]

theorem nonNegative_ok_iff : nonNegative field value = .ok () ↔ NotNegative value := by
  rw [nonNegative, Validation.and_ok_iff, finite_ok_iff, notNegative_iff]
  by_cases above : 0 ≤ value <;> simp [above]

theorem variance_ok_iff : variance field value = .ok () ↔ Variance value := by
  rw [variance, Validation.and_ok_iff, nonNegative_ok_iff, finite_ok_iff, variance_iff]

private theorem unit_ok_iff : unit field value = .ok () ↔ UnitNumber value := by
  rw [unit, unitNumber_iff]
  by_cases inside : 0 ≤ value ∧ value ≤ 1 <;> simp [inside]

/-- The check of a range passes where both ends are finite, in order and not too far apart. -/
theorem ordered_ok_iff : ordered field ends = .ok () ↔ Span ends := by
  rw [ordered, Validation.and_ok_iff, Validation.and_ok_iff, finite_ok_iff, finite_ok_iff, span_iff]
  by_cases finite : ends.1.isFinite ∧ ends.2.isFinite
  · have inOrder := Scalar.not_le_iff (Scalar.isNaN_of_isFinite finite.1)
      (Scalar.isNaN_of_isFinite finite.2)
    by_cases reversed : ends.2 < ends.1
    · simp [reversed, inOrder.mpr reversed]
    · simp [reversed, not_imp_comm.mp inOrder.mp reversed, finite_ok_iff]
  · constructor
    · exact fun valid => absurd ⟨valid.1, valid.2.1⟩ finite
    · exact fun span => absurd ⟨span.1, span.2.1⟩ finite

/-- A range in the wrong order is refused with its field and both ends. -/
theorem ordered_reversed {low high : Float32} (finite : low.isFinite) (finite' : high.isFinite)
    (reversed : high < low) : ordered field (low, high) = .error (.invalidRange field low high) := by
  rw [ordered, Validation.after_ok (finite_ok_iff.mpr finite),
    Validation.after_ok (finite_ok_iff.mpr finite'), if_pos reversed]

end Ensure

/-! ## Groups of settings -/

@[mk_iff]
structure ControlJitter.Accepted (control : ControlJitter) : Prop where
  lateral : Variance control.lateral
  vertical : Span control.vertical

@[mk_iff]
structure Taper.Accepted (taper : Taper) : Prop where
  minWidth : Positive taper.minWidth
  maxWidth : Positive taper.maxWidth
  widths : Span (taper.minWidth, taper.maxWidth)
  exponent : Positive taper.exponent
  maxHorizontalDistance : Positive taper.maxHorizontalDistance
  trunkWidth : ∀ width ∈ taper.trunkWidth, Positive width

@[mk_iff]
structure TurtleSettings.Accepted (settings : TurtleSettings) : Prop where
  baseLength : Positive settings.baseLength
  lengthVariance : Variance settings.lengthVariance
  longest : (settings.baseLength + settings.lengthVariance).isFinite
  baseAngle : NotNegative settings.baseAngle
  angleVariance : Variance settings.angleVariance
  widest : (settings.baseAngle + settings.angleVariance).isFinite
  branchProbability : UnitNumber settings.branchProbability
  leafThreshold : UnitNumber settings.leafThreshold
  controlJitter : settings.controlJitter.Accepted
  taper : settings.taper.Accepted

@[mk_iff]
structure MeshSettings.Accepted (settings : MeshSettings) : Prop where
  curveSegments : ¬ settings.curveSegments < 1
  radialSegments : ¬ settings.radialSegments < 3

@[mk_iff]
structure LeafSettings.Accepted (settings : LeafSettings) : Prop where
  maxLeavesPerBatch : ¬ settings.maxLeavesPerBatch = 0
  leafSize : Positive settings.leafSize
  smallest : Positive settings.sizeVariation.1
  sizeVariation : Span settings.sizeVariation
  red : Span settings.tint.r
  green : Span settings.tint.g
  blue : Span settings.tint.b
  orientationJitter : Variance settings.orientationJitterDegrees

/-- The sizes that a kind of spread has are not negative. -/
def Spread.Accepted : Spread → Prop
  | .point => True
  | .sphere radius => NotNegative radius
  | .radial length thickness => NotNegative length ∧ NotNegative thickness

@[mk_iff]
structure GrowthTiming.Accepted (timing : GrowthTiming) : Prop where
  totalGrowthTime : Positive timing.totalGrowthTime
  parallelBranches : ¬ timing.parallelBranches = 0
  branchOverlapDelay : Positive timing.branchOverlapDelay
  overlapJitter : Span timing.overlapJitter
  leastOverlap : Positive timing.overlapJitter.1
  longestOverlap : (timing.branchOverlapDelay * timing.overlapJitter.2).isFinite
  durationJitter : Span timing.durationJitter
  leastDuration : Positive timing.durationJitter.1
  longestDuration : (timing.totalGrowthTime * timing.durationJitter.2).isFinite
  settleDelay : Span timing.settleDelay
  leastSettle : NotNegative timing.settleDelay.1
  leafClusterStagger : Positive timing.leafClusterStagger
  leavesPerCluster :
    Span (timing.leavesPerCluster.1.toFloat32, timing.leavesPerCluster.2.toFloat32)
  leafSpread : timing.leafSpread.Accepted

/-- Settings that describe a grammar, and whose other groups are accepted. Of the bark only the variance
matters. -/
@[mk_iff]
structure TreeSettings.Accepted (settings : TreeSettings) : Prop where
  grammar : ∃ system, settings.grammar.system = .ok system
  turtle : settings.turtle.Accepted
  mesh : settings.mesh.Accepted
  leaves : settings.leaves.Accepted
  timing : settings.timing.Accepted
  colorVariance : NotNegative settings.bark.colorVariance

private theorem ControlJitter.validate_ok_iff {control : ControlJitter} :
    control.validate = .ok () ↔ control.Accepted := by
  rw [validate, Validation.and_ok_iff, Ensure.variance_ok_iff, Ensure.ordered_ok_iff, accepted_iff]

theorem Taper.validate_ok_iff {taper : Taper} : taper.validate = .ok () ↔ taper.Accepted := by
  simp only [validate, Validation.and_ok_iff, Ensure.positive_ok_iff, Ensure.ordered_ok_iff,
    accepted_iff]
  cases taper.trunkWidth with
  | none => simp [pure, Except.pure]
  | some width => simp [Ensure.positive_ok_iff]

theorem TurtleSettings.validate_ok_iff {settings : TurtleSettings} :
    settings.validate = .ok () ↔ settings.Accepted := by
  simp only [validate, Validation.and_ok_iff, Ensure.positive_ok_iff, Ensure.variance_ok_iff,
    Ensure.finite_ok_iff, Ensure.nonNegative_ok_iff, Ensure.unit_ok_iff,
    ControlJitter.validate_ok_iff, Taper.validate_ok_iff, accepted_iff]

/-- Meshes need one field along the curve and three around it. -/
theorem MeshSettings.validate_ok_iff {settings : MeshSettings} :
    settings.validate = .ok () ↔ settings.Accepted := by
  simp only [validate, Validation.unless_ok_iff, Validation.last_ok_iff, accepted_iff]

theorem LeafSettings.validate_ok_iff {settings : LeafSettings} :
    settings.validate = .ok () ↔ settings.Accepted := by
  simp only [validate, Validation.unless_ok_iff, Validation.and_ok_iff, Ensure.positive_ok_iff,
    Ensure.ordered_ok_iff, Ensure.variance_ok_iff, accepted_iff]

private theorem Spread.validate_ok_iff {spread : Spread} : spread.validate = .ok () ↔ spread.Accepted := by
  cases spread with
  | point => exact iff_of_true rfl trivial
  | sphere radius => exact Ensure.nonNegative_ok_iff
  | radial length thickness =>
    rw [validate, Validation.and_ok_iff, Ensure.nonNegative_ok_iff, Ensure.nonNegative_ok_iff,
      Accepted]

/-- The timing is accepted where each part passes its own check, and so do the products that are waited for. -/
theorem GrowthTiming.validate_ok_iff {timing : GrowthTiming} :
    timing.validate = .ok () ↔ timing.Accepted := by
  simp only [validate, Validation.unless_ok_iff, Validation.and_ok_iff, Ensure.positive_ok_iff,
    Ensure.ordered_ok_iff, Ensure.finite_ok_iff, Ensure.nonNegative_ok_iff, Spread.validate_ok_iff,
    accepted_iff]

/-- Settings pass all checks if and only if every group of them is accepted. -/
theorem TreeSettings.validate_ok_iff {settings : TreeSettings} :
    settings.validate = .ok () ↔ settings.Accepted := by
  have resolved : settings.validate = .ok () ↔ (∃ system, settings.grammar.system = .ok system) ∧
      (do settings.turtle.validate; settings.mesh.validate; settings.leaves.validate
          settings.timing.validate; settings.bark.validate) = .ok () := by
    unfold validate
    cases settings.grammar.system with
    | error fault => exact ⟨nofun, nofun⟩
    | ok system => exact (and_iff_right ⟨system, rfl⟩).symm
  rw [resolved]
  simp only [Validation.and_ok_iff, TurtleSettings.validate_ok_iff, MeshSettings.validate_ok_iff,
    LeafSettings.validate_ok_iff, GrowthTiming.validate_ok_iff, BarkPalette.validate,
    Ensure.nonNegative_ok_iff, accepted_iff]

/-! ## Times that hold up to a check

What is known of a pace of growth that passed its checks: the pauses between the starts of branches,
after the growth of a branch and between leaf clusters are numbers that are not negative.
-/

/-- A range of numbers that are not negative. -/
structure UnsignedRange (ends : Float32 × Float32) : Prop where
  low : Nonneg ends.1
  high : Nonneg ends.2
  finite : ends.1.isFinite
  ordered : ends.1 ≤ ends.2

private theorem Span.unsigned {ends : Float32 × Float32} (span : Span ends) (low : Nonneg ends.1) :
    UnsignedRange ends := by
  obtain ⟨-, isNumber, above⟩ := Scalar.le_iff.mp span.ordered
  exact ⟨low, ⟨isNumber, Int.le_trans low.up above⟩, span.low, span.ordered⟩

/-- No pause of the growth leads back in time. -/
structure GrowthTiming.Unhurried (timing : GrowthTiming) : Prop where
  overlap : timing.branchOverlapDelay.isFinite ∧ Nonneg timing.branchOverlapDelay ∧
    0 < level timing.branchOverlapDelay
  overlapJitter : UnsignedRange timing.overlapJitter
  settleDelay : UnsignedRange timing.settleDelay
  stagger : Nonneg timing.leafClusterStagger

/-- Under accepted timing no drawn delay goes back in time. -/
theorem GrowthTiming.unhurried {timing : GrowthTiming} (valid : timing.validate = .ok ()) :
    timing.Unhurried := by
  have accepted := validate_ok_iff.mp valid
  have delay := accepted.branchOverlapDelay
  exact ⟨⟨delay.finite, delay.nonneg, delay.level_pos⟩,
    accepted.overlapJitter.unsigned accepted.leastOverlap.nonneg,
    accepted.settleDelay.unsigned accepted.leastSettle.nonneg, accepted.leafClusterStagger.nonneg⟩

/-- What is drawn from such a range has the sign of its ends. -/
theorem UnsignedRange.draw {ends : Float32 × Float32} (range : UnsignedRange ends)
    (source : Random.Generator) : Nonneg ((Random.inRange ends).run source).1 :=
  Random.inRange_nonneg range.low range.finite range.ordered source

end Sapling
