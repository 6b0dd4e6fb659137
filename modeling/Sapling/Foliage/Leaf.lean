import Sapling.Color
import Sapling.ConfigError
import Sapling.Geometry.Orientation
import Sapling.Random.Sampling
import Sapling.Transform
/-!
Leaves: their settings, how one is made at random for a place and a facing direction, and how those of a
cluster are spread around its anchor.
-/
namespace Sapling

open Sapling.Random

/-! ## Leaves

Leaves: their settings, and how one is made at random for a place and a facing direction. -/

/-- The names under which a renderer receives the parts of a batch (`InstanceProperties`). -/
structure InstanceProperties where
  data : String := "_InstanceData"
  rotation : String := "_InstanceRotation"
  scale : String := "_InstanceScale"
  color : String := "_InstanceColor"
deriving DecidableEq, Repr

def InstanceProperties.codec : Data.Codec InstanceProperties where
  write p := .record [("data", .text p.data), ("rotation", .text p.rotation),
    ("scale", .text p.scale), ("color", .text p.color)]
  read? v := do
    let fields ← Data.Fields.ofValue? 4 v
    let absent : InstanceProperties := {}
    let data ← fields.optional 0 "data" .text absent.data
    let rotation ← fields.optional 1 "rotation" .text absent.rotation
    let scale ← fields.optional 2 "scale" .text absent.scale
    let color ← fields.optional 3 "color" .text absent.color
    some ⟨data, rotation, scale, color⟩

/-- The range of each color component (`TintRanges`). -/
structure TintRanges where
  r : Float32 × Float32 := (0.7, 1)
  g : Float32 × Float32 := (0.8, 1)
  b : Float32 × Float32 := (0.3, 0.7)
deriving DecidableEq, Repr

def TintRanges.codec : Data.Codec TintRanges where
  write t := .record [("r", Data.Codec.range.write t.r), ("g", Data.Codec.range.write t.g),
    ("b", Data.Codec.range.write t.b)]
  read? v := do
    let fields ← Data.Fields.ofValue? 3 v
    let absent : TintRanges := {}
    let r ← fields.optional 0 "r" .range absent.r
    let g ← fields.optional 1 "g" .range absent.g
    let b ← fields.optional 2 "b" .range absent.b
    some ⟨r, g, b⟩

/-- How leaves look and how many are drawn at once (`LeafConfig`). -/
structure LeafSettings where
  leafSize : Float32 := 0.5
  /-- The range of factors on the size. -/
  sizeVariation : Float32 × Float32 := (0.8, 1.2)
  /-- How many leaf pictures there are. None counts as one. -/
  atlasVariations : UInt32 := 4
  maxLeavesPerBatch : UInt64 := 1023
  tint : TintRanges := {}
  /-- Turns of up to this angle about each axis, on top of facing outward. -/
  orientationJitterDegrees : Float32 := 20
  properties : InstanceProperties := {}
deriving DecidableEq, Repr

namespace LeafSettings

/-- The fields in the order in which their faults are reported (`validate`). -/
def validate (settings : LeafSettings) : Validation := do
  if settings.maxLeavesPerBatch = 0 then throw .zeroBatchCapacity
  Ensure.positive "leaf_size" settings.leafSize
  Ensure.positive "size_variation.min" settings.sizeVariation.1
  Ensure.ordered "size_variation" settings.sizeVariation
  Ensure.ordered "tint.r" settings.tint.r
  Ensure.ordered "tint.g" settings.tint.g
  Ensure.ordered "tint.b" settings.tint.b
  Ensure.variance "orientation_jitter_degrees" settings.orientationJitterDegrees

def codec : Data.Codec LeafSettings where
  write settings := .record [("leaf_size", .ofSingle settings.leafSize),
    ("size_variation", Data.Codec.range.write settings.sizeVariation),
    ("atlas_variations", Data.Codec.word32.write settings.atlasVariations),
    ("max_leaves_per_batch", Data.Codec.word64.write settings.maxLeavesPerBatch),
    ("tint", TintRanges.codec.write settings.tint),
    ("orientation_jitter_degrees", .ofSingle settings.orientationJitterDegrees),
    ("properties", InstanceProperties.codec.write settings.properties)]
  read? v := do
    let fields ← Data.Fields.ofValue? 7 v
    let absent : LeafSettings := {}
    let leafSize ← fields.optional 0 "leaf_size" .single absent.leafSize
    let sizeVariation ← fields.optional 1 "size_variation" .range absent.sizeVariation
    let atlasVariations ← fields.optional 2 "atlas_variations" .word32 absent.atlasVariations
    let maxLeavesPerBatch ← fields.optional 3 "max_leaves_per_batch" .word64 absent.maxLeavesPerBatch
    let tint ← fields.optional 4 "tint" TintRanges.codec absent.tint
    let orientationJitterDegrees ←
      fields.optional 5 "orientation_jitter_degrees" .single absent.orientationJitterDegrees
    let properties ← fields.optional 6 "properties" InstanceProperties.codec absent.properties
    some ⟨leafSize, sizeVariation, atlasVariations, maxLeavesPerBatch, tint,
      orientationJitterDegrees, properties⟩

end LeafSettings

/-- A place for a leaf and the direction it faces. -/
structure Placement where
  position : Vec3
  normal : Vec3
deriving DecidableEq, Repr

/-- A leaf as it is drawn (`LeafInstance`). -/
structure Leaf where
  position : Vec3
  rotation : Quat
  scale : Float32
  color : Color
  /-- Which of the leaf pictures it shows. -/
  variant : UInt32
deriving DecidableEq, Repr

namespace Leaf

/-- The matrix that takes the unit square to the leaf (`model_matrix`). -/
def modelMatrix (leaf : Leaf) : Mat4 := .ofParts (.splat leaf.scale) leaf.rotation leaf.position

end Leaf

namespace LeafSettings

/-- Draws the turn of a leaf on top of facing outward. -/
def drawJitter (settings : LeafSettings) : Draw Quat := do
  let most := Scalar.toRadians settings.orientationJitterDegrees
  let a ← jitter 0 most
  let b ← jitter 0 most
  let c ← jitter 0 most
  return .ofEuler a b c

/-- Draws an opaque color. -/
def drawColor (settings : LeafSettings) : Draw Color := do
  let r ← inRange settings.tint.r
  let g ← inRange settings.tint.g
  let b ← inRange settings.tint.b
  return .rgb r g b

/-- Draws a leaf for a place: first how it is turned, then its size, color and picture (`make_leaf`). -/
def drawLeaf (settings : LeafSettings) (placement : Placement) : Draw Leaf := do
  let up ← direction
  let facing := lookRotation placement.normal.normalizeOrUp up
  let turned ← settings.drawJitter
  let factor ← inRange settings.sizeVariation
  let color ← settings.drawColor
  let last := if settings.atlasVariations = 0 then 0 else settings.atlasVariations - 1
  let variant ← integer 0 last
  return ⟨placement.position, (facing * turned).normalize, factor * settings.leafSize, color, variant⟩

end LeafSettings

/-! ## Clusters

How the leaves of a cluster are spread around its anchor. -/

/-- The ways in which the leaves of a cluster lie around an anchor (`SpreadPolicy`). -/
inductive Spread where
  /-- All on the anchor, facing along the branch. -/
  | point
  /-- In a ball around the anchor, hardly below it. -/
  | sphere (radius : Float32)
  /-- Around the last piece of the branch, just off its bark. -/
  | radial (length thickness : Float32)
deriving DecidableEq, Repr

namespace Spread

/-- The part of the radius by which a leaf may lie below its anchor (`SPHERE_DROP`). -/
def sphereDrop : Float32 := 0.2

/-- Offsets shorter than this part of the radius have no direction of their own (`SPHERE_MIN_NORMAL`). -/
def sphereLeastOffset : Float32 := 0.1

/-- Where on the last piece of the branch leaves begin (`RADIAL_START`). -/
def radialStart : Float32 := 0.3

/-- How far off the middle leaves are, in thicknesses of the branch (`RADIAL_SCALE`). -/
def radialReach : Float32 × Float32 := (0.8, 2.5)

/-- How far leaves slide along the branch (`RADIAL_SLIDE`). -/
def radialSlide : Float32 := 0.05

/-- How far normals bend towards a random direction (`RADIAL_NORMAL_NOISE`). -/
def radialNoise : Float32 := 0.3

/-- The sizes of a spread are numbers that are not negative (`validate`). -/
def validate : Spread → Validation
  | point => return
  | sphere radius => Ensure.nonNegative "spread.radius" radius
  | radial length thickness => do
    Ensure.nonNegative "spread.length" length
    Ensure.nonNegative "spread.thickness" thickness

/-- A unit vector turned a part of the way towards another (`bend_towards`). -/
def bend (source target : Vec3) (amount : Float32) : Vec3 :=
  (((Quat.slerp .identity (.arc source target) amount).rotate source).normalize?).getD source

/-- The direction of an offset that is long enough to have one. -/
def offsetNormal? (offset : Vec3) (radius : Float32) : Option Vec3 :=
  offset.normalize?.filter fun _ => sphereLeastOffset * radius ≤ offset.length

/-- Draws a place in a ball, which faces away from the anchor where it is far enough from it. -/
def placeInSphere (radius : Float32) (anchor : Vec3) : Draw Placement := do
  let offset := (← inUnitBall) * radius
  let free := anchor + offset
  let position := { free with y := Scalar.max free.y (anchor.y - sphereDrop * radius) }
  match offsetNormal? offset radius with
  | some normal => return ⟨position, normal⟩
  | none => return ⟨position, ← Random.direction⟩

/-- Draws a place around the last piece of a branch, which faces outward, with some noise. -/
def placeAroundBranch (length thickness : Float32) (anchor along : Vec3) : Draw Placement := do
  let start := anchor - along * length
  let middle := start.lerp anchor (← between radialStart 1)
  let (right, up) := orthonormalBasis along
  let angle ← between 0 Scalar.tau
  let outward := right * angle.cos + up * angle.sin
  let radius := thickness * (← between radialReach.1 radialReach.2)
  let slide ← between (-radialSlide) radialSlide
  let position := middle + outward * radius + along * slide
  return ⟨position, bend outward (← Random.direction) radialNoise⟩

/-- Draws the place of one leaf for an anchor and the direction of its branch (`place`). -/
def place (spread : Spread) (anchor direction : Vec3) : Draw Placement :=
  let along := direction.normalizeOrUp
  match spread with
  | point => return ⟨anchor, along⟩
  | sphere radius => placeInSphere radius anchor
  | radial length thickness => placeAroundBranch length thickness anchor along

/-- The kind of spread is stored beside the fields of that kind, or before them in a list. Fields of no
use to the kind have to be readable all the same. -/
def codec : Data.Codec Spread where
  write
    | point => .record [("kind", .text "point")]
    | sphere radius => .record [("kind", .text "sphere"), ("radius", .ofSingle radius)]
    | radial length thickness => .record [("kind", .text "radial"), ("length", .ofSingle length),
        ("thickness", .ofSingle thickness)]
  read? v := do
    match ← v.settle? with
    | .record fields =>
      let fields := Data.Fields.named fields
      match ← fields.required 0 "kind" .text with
      | "point" => some point
      | "sphere" => do some (sphere (← fields.required 1 "radius" .single))
      | "radial" => do
        let length ← fields.required 1 "length" .single
        let thickness ← fields.required 2 "thickness" .single
        some (radial length thickness)
      | _ => none
    | .list [.text "point"] => some point
    | .list [.text "sphere", radius] => do some (sphere (← Data.Codec.single.read? radius))
    | .list [.text "radial", length, thickness] => do
      some (radial (← Data.Codec.single.read? length) (← Data.Codec.single.read? thickness))
    | _ => none

end Spread

end Sapling
