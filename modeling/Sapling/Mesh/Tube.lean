import Sapling.ConfigError
import Sapling.Geometry.Orientation
import Sapling.Mesh.Basic
import Sapling.Scalar
/-!
Tubes along quadratic curves, thinner with height. A tube is a row of rings; each field between neighbouring
rings is covered by two triangles, and by the same two turned over, so that it is seen from both sides.
-/
namespace Sapling

/-! ## Curves

Quadratic curves through space, from a start past a control point to a tip. -/

/-- A quadratic curve by its three points. -/
structure Curve where
  start : Vec3
  control : Vec3
  tip : Vec3
deriving DecidableEq, Repr

namespace Curve

/-- Squared lengths up to this one give no direction. -/
def degenerate : Float32 := 1e-10

/-- The step along the curve over which its direction is taken (`TANGENT_STEP`). -/
def tangentStep : Float32 := 0.01

/-- The point at parameter `t`, a weighted sum of the three points (`quadratic_bezier`). -/
def point (c : Curve) (t : Float32) : Vec3 :=
  let u := 1 - t
  u * u * c.start + 2 * u * t * c.control + t * t * c.tip

/-- The direction of a difference that is long enough to have one. -/
def direction? (difference : Vec3) : Option Vec3 :=
  if degenerate < difference.lengthSquared then some difference.normalize else none

/-- The direction at parameter `t`: ahead if there is curve ahead, else from behind, and upward on a curve
that is a single point (`tangent`). -/
def tangent (c : Curve) (t : Float32) : Vec3 :=
  let center := c.point t
  let ahead := c.point (Scalar.clamp (t + tangentStep) 0 1) - center
  let behind := center - c.point (Scalar.clamp (t - tangentStep) 0 1)
  ((direction? ahead).or (direction? behind)).getD .unitY

end Curve

/-! ## Tubes

Tubes along a curve, thinner with height. A tube is a row of rings; each field between neighbouring
rings is covered by two triangles, and by the same two turned over, so that it is seen from both sides.
-/

/-- What a tube is swept from (`TubeSpec`). -/
structure Tube where
  curve : Curve
  /-- The width at `baseHeight` and below. -/
  baseWidth : Float32
  baseHeight : Float32
  maxHeight : Float32
  curveSegments : UInt32
  radialSegments : UInt32
deriving DecidableEq, Repr

namespace Tube

/-- Fields along a tube, unless another number is asked for. -/
def defaultCurveSegments : UInt32 := 12

/-- Fields around a tube, unless another number is asked for. -/
def defaultRadialSegments : UInt32 := 8

/-- The part of the width that is left at the greatest height (`TOP_RADIUS_SCALE`). -/
def topScale : Float32 := 0.2

/-- A tube of the usual fineness that thins out from height zero to its higher end (`new`). -/
def along (curve : Curve) (baseWidth : Float32) : Tube where
  curve := curve
  baseWidth := baseWidth
  baseHeight := 0
  maxHeight := Scalar.max curve.start.y curve.tip.y
  curveSegments := defaultCurveSegments
  radialSegments := defaultRadialSegments

/-- The tube is fine enough to be round, and it has a width (`validate`). -/
def validate (tube : Tube) : Validation := do
  if tube.curveSegments < 1 then throw (.tooFewSegments "curve_segments" 1 tube.curveSegments)
  if tube.radialSegments < 3 then throw (.tooFewSegments "radial_segments" 3 tube.radialSegments)
  Ensure.positive "base_width" tube.baseWidth

/-- The radius of a ring at a height (`radius_at`). -/
def radiusAt (tube : Tube) (height : Float32) : Float32 :=
  let ratio := inverseLerp tube.baseHeight tube.maxHeight height
  Scalar.max tube.baseWidth 0 * 0.5 * lerp 1 topScale ratio

/-- Fields along the tube, at least one. -/
def fieldsAlong (tube : Tube) : UInt32 := if tube.curveSegments < 1 then 1 else tube.curveSegments

/-- Fields around the tube, at least three. -/
def fieldsAround (tube : Tube) : UInt32 := if tube.radialSegments < 3 then 3 else tube.radialSegments

/-! ### Vertices -/

/-- Two unit vectors across a direction (`ring_basis`). -/
def ringAxes (forward : Vec3) : Vec3 × Vec3 :=
  let reference := if 0.99 < (forward.dot .unitY).abs then Vec3.unitZ else Vec3.unitY
  let right := (forward.cross reference).normalize?.getD .unitX
  let up := (right.cross forward).normalize?.getD .unitZ
  (right, up)

/-- How far along the curve a ring is. -/
def parameter (tube : Tube) (i : Nat) : Float32 :=
  (UInt32.ofNat i).toFloat32 / tube.fieldsAlong.toFloat32

/-- The center of a ring and its radius. -/
def ring (tube : Tube) (i : Nat) : Ring :=
  let center := tube.curve.point (tube.parameter i)
  ⟨center, tube.radiusAt center.y⟩

/-- The vertices of a ring, around it once. -/
def ringVertices (tube : Tube) (i : Nat) : List Vertex :=
  let t := tube.parameter i
  let ring := tube.ring i
  let (right, up) := ringAxes (tube.curve.tangent t)
  (List.range tube.fieldsAround.toNat).map fun j =>
    let share := (UInt32.ofNat j).toFloat32 / tube.fieldsAround.toFloat32
    let angle := share * Scalar.tau
    let normal := right * angle.cos + up * angle.sin
    ⟨ring.center + normal * ring.radius, normal, share, t⟩

/-! ### Triangles -/

/-- The indices of the field between rings `i` and `i + 1` and columns `j` and `j + 1`: two triangles and
the same two turned over. -/
def fieldIndices (around i j : Nat) : List Nat :=
  let a := i * around + j
  let b := a + around
  let c := i * around + (j + 1) % around
  let d := c + around
  [a, b, c, b, d, c, a, c, b, b, c, d]

/-- The indices of all fields, ring after ring. -/
def indices (along around : Nat) : List Nat :=
  (List.range along).flatMap fun i => (List.range around).flatMap fun j => fieldIndices around i j

/-- The vertices ring after ring, and the triangles of all fields between them (`build_tube_mesh`). -/
def mesh (tube : Tube) : Mesh :=
  let along := tube.fieldsAlong.toNat
  let around := tube.fieldsAround.toNat
  { vertices := ((List.range (along + 1)).flatMap tube.ringVertices).toArray
    indices := ((indices along around).map UInt32.ofNat).toArray
    rings := ((List.range (along + 1)).map tube.ring).toArray }

end Tube

end Sapling
