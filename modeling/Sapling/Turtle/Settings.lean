import Sapling.ConfigError
import Sapling.Data.Codec
import Sapling.Geometry.Orientation
import Sapling.Scalar
/-!
The settings that turn symbols into geometry: lengths, angles and how much both vary, and how thick branches
are.
-/
namespace Sapling

/-! ## Taper

How thick branches are: thick near the foot of the trunk, thin at tips that are high or far out.
-/

/-- How the widths of branches go from the thickest to the thinnest (`TaperPolicy`). -/
structure Taper where
  minWidth : Float32 := 0.05
  maxWidth : Float32 := 0.15
  /-- How late the branches thin out. -/
  exponent : Float32 := 1
  /-- From this distance to the trunk on a branch counts as far out. -/
  maxHorizontalDistance : Float32 := 4
  /-- The width of the first segment, whatever its place. -/
  trunkWidth : Option Float32 := none
deriving DecidableEq, Repr

namespace Taper

def validate (taper : Taper) : Validation := do
  Ensure.positive "taper.min_width" taper.minWidth
  Ensure.positive "taper.max_width" taper.maxWidth
  Ensure.ordered "taper.width" (taper.minWidth, taper.maxWidth)
  Ensure.positive "taper.exponent" taper.exponent
  Ensure.positive "taper.max_horizontal_distance" taper.maxHorizontalDistance
  match taper.trunkWidth with
  | some width => Ensure.positive "taper.trunk_width" width
  | none => return

/-- How far a point is from the foot of the trunk, sideways only. -/
def horizontalDistance (point origin : Vec3) : Float32 :=
  Vec3.length ⟨point.x - origin.x, 0, point.z - origin.z⟩

/-- Zero at the foot of the trunk, one at the highest and farthest points (`factor`). -/
def factor (taper : Taper) (point origin : Vec3) (maxHeight : Float32) : Float32 :=
  let vertical := inverseLerp origin.y maxHeight point.y
  let horizontal :=
    Scalar.clamp (horizontalDistance point origin / taper.maxHorizontalDistance) 0 1
  (Scalar.clamp ((vertical + horizontal) * 0.5) 0 1).pow taper.exponent

/-- The width of a segment that ends at `point` (`width`). -/
def width (taper : Taper) (point origin : Vec3) (maxHeight : Float32) : Float32 :=
  lerp taper.maxWidth taper.minWidth (taper.factor point origin maxHeight)

def codec : Data.Codec Taper where
  write taper := .record [("min_width", .ofSingle taper.minWidth),
    ("max_width", .ofSingle taper.maxWidth), ("exponent", .ofSingle taper.exponent),
    ("max_horizontal_distance", .ofSingle taper.maxHorizontalDistance),
    ("trunk_width", .ofOption .ofSingle taper.trunkWidth)]
  read? v := do
    let fields ← Data.Fields.ofValue? 5 v
    let absent : Taper := {}
    let minWidth ← fields.optional 0 "min_width" .single absent.minWidth
    let maxWidth ← fields.optional 1 "max_width" .single absent.maxWidth
    let exponent ← fields.optional 2 "exponent" .single absent.exponent
    let maxHorizontalDistance ←
      fields.optional 3 "max_horizontal_distance" .single absent.maxHorizontalDistance
    let trunkWidth ← fields.optional 4 "trunk_width" (.option .single) absent.trunkWidth
    some ⟨minWidth, maxWidth, exponent, maxHorizontalDistance, trunkWidth⟩

end Taper

/-! ## Settings

The settings that turn symbols into geometry: lengths, angles and how much both vary. -/

/-- How far the control point of a segment strays from its middle, along the axes of the turtle
(`ControlJitter`). -/
structure ControlJitter where
  /-- Sideways, up to this much either way. -/
  lateral : Float32 := 0.4
  /-- Along the direction of growth. -/
  vertical : Float32 × Float32 := (-0.2, 0.4)
deriving DecidableEq, Repr

namespace ControlJitter

def validate (control : ControlJitter) : Validation := do
  Ensure.variance "control_jitter.lateral" control.lateral
  Ensure.ordered "control_jitter.vertical" control.vertical

def codec : Data.Codec ControlJitter where
  write control := .record [("lateral", .ofSingle control.lateral),
    ("vertical", Data.Codec.range.write control.vertical)]
  read? v := do
    let fields ← Data.Fields.ofValue? 2 v
    let absent : ControlJitter := {}
    let lateral ← fields.optional 0 "lateral" .single absent.lateral
    let vertical ← fields.optional 1 "vertical" .range absent.vertical
    some ⟨lateral, vertical⟩

end ControlJitter

/-- What the turtle draws by (`GrowthParams`). -/
structure TurtleSettings where
  /-- The mean length of a step. -/
  baseLength : Float32 := 2
  lengthVariance : Float32 := 0.5
  /-- The mean angle of a turn, in degrees. -/
  baseAngle : Float32 := 25
  angleVariance : Float32 := 10
  /-- The chance that a step is taken at all. -/
  branchProbability : Float32 := 1
  controlJitter : ControlJitter := {}
  /-- The part of the height reached so far from which a branch tip carries leaves. -/
  leafThreshold : Float32 := 0.4
  taper : Taper := {}
deriving DecidableEq, Repr

namespace TurtleSettings

/-- The fields in the order in which their faults are reported (`validate`). -/
def validate (settings : TurtleSettings) : Validation := do
  Ensure.positive "base_length" settings.baseLength
  Ensure.variance "length_variance" settings.lengthVariance
  Ensure.finite "base_length + length_variance" (settings.baseLength + settings.lengthVariance)
  Ensure.nonNegative "base_angle" settings.baseAngle
  Ensure.variance "angle_variance" settings.angleVariance
  Ensure.finite "base_angle + angle_variance" (settings.baseAngle + settings.angleVariance)
  Ensure.unit "branch_probability" settings.branchProbability
  Ensure.unit "leaf_threshold" settings.leafThreshold
  settings.controlJitter.validate
  settings.taper.validate

def codec : Data.Codec TurtleSettings where
  write settings := .record [("base_length", .ofSingle settings.baseLength),
    ("length_variance", .ofSingle settings.lengthVariance),
    ("base_angle", .ofSingle settings.baseAngle),
    ("angle_variance", .ofSingle settings.angleVariance),
    ("branch_probability", .ofSingle settings.branchProbability),
    ("control_jitter", ControlJitter.codec.write settings.controlJitter),
    ("leaf_threshold", .ofSingle settings.leafThreshold),
    ("taper", Taper.codec.write settings.taper)]
  read? v := do
    let fields ← Data.Fields.ofValue? 8 v
    let absent : TurtleSettings := {}
    let baseLength ← fields.optional 0 "base_length" .single absent.baseLength
    let lengthVariance ← fields.optional 1 "length_variance" .single absent.lengthVariance
    let baseAngle ← fields.optional 2 "base_angle" .single absent.baseAngle
    let angleVariance ← fields.optional 3 "angle_variance" .single absent.angleVariance
    let branchProbability ← fields.optional 4 "branch_probability" .single absent.branchProbability
    let controlJitter ← fields.optional 5 "control_jitter" ControlJitter.codec absent.controlJitter
    let leafThreshold ← fields.optional 6 "leaf_threshold" .single absent.leafThreshold
    let taper ← fields.optional 7 "taper" Taper.codec absent.taper
    some ⟨baseLength, lengthVariance, baseAngle, angleVariance, branchProbability, controlJitter,
      leafThreshold, taper⟩

end TurtleSettings

end Sapling
