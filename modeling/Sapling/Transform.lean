import Sapling.Data.Codec
import Sapling.Geometry.Orientation
/-!
The placement of a node: where it is, how it is turned and how large it is, and the matrix of that map.
-/
namespace Sapling

/-! ## Matrices

Matrices of affine maps, by columns. -/

/-- A column of a matrix, or a point with a fourth component. -/
structure Vec4 where
  x : Float32
  y : Float32
  z : Float32
  w : Float32
deriving DecidableEq, Repr

namespace Vec4

instance : Add Vec4 := ⟨fun a b => ⟨a.x + b.x, a.y + b.y, a.z + b.z, a.w + b.w⟩⟩
instance : HMul Vec4 Float32 Vec4 := ⟨fun a k => ⟨a.x * k, a.y * k, a.z * k, a.w * k⟩⟩

def vector (a : Vec4) : Vec3 := ⟨a.x, a.y, a.z⟩

end Vec4

/-- A matrix of four columns. -/
structure Mat4 where
  xAxis : Vec4
  yAxis : Vec4
  zAxis : Vec4
  wAxis : Vec4
deriving DecidableEq, Repr

namespace Mat4

def identity : Mat4 := ⟨⟨1, 0, 0, 0⟩, ⟨0, 1, 0, 0⟩, ⟨0, 0, 1, 0⟩, ⟨0, 0, 0, 1⟩⟩

/-- The matrix of a placement, which scales, then turns, then moves. -/
def ofParts (scale : Vec3) (rotation : Quat) (position : Vec3) : Mat4 :=
  let q := rotation
  let x2 := q.x + q.x
  let y2 := q.y + q.y
  let z2 := q.z + q.z
  let xx := q.x * x2
  let xy := q.x * y2
  let xz := q.x * z2
  let yy := q.y * y2
  let yz := q.y * z2
  let zz := q.z * z2
  let wx := q.w * x2
  let wy := q.w * y2
  let wz := q.w * z2
  { xAxis := (⟨1 - (yy + zz), xy + wz, xz - wy, 0⟩ : Vec4) * scale.x
    yAxis := (⟨xy - wz, 1 - (xx + zz), yz + wx, 0⟩ : Vec4) * scale.y
    zAxis := (⟨xz + wy, yz - wx, 1 - (xx + yy), 0⟩ : Vec4) * scale.z
    wAxis := ⟨position.x, position.y, position.z, 1⟩ }

/-- The image of a column. -/
def apply (m : Mat4) (v : Vec4) : Vec4 :=
  m.xAxis * v.x + m.yAxis * v.y + m.zAxis * v.z + m.wAxis * v.w

instance : Mul Mat4 := ⟨fun a b => ⟨a.apply b.xAxis, a.apply b.yAxis, a.apply b.zAxis, a.apply b.wAxis⟩⟩

/-- The image of a direction. -/
def transformVector (m : Mat4) (v : Vec3) : Vec3 :=
  (m.zAxis * v.z + (m.yAxis * v.y + m.xAxis * v.x)).vector

/-- The image of a point. -/
def transformPoint (m : Mat4) (v : Vec3) : Vec3 :=
  (m.wAxis + (m.zAxis * v.z + (m.yAxis * v.y + m.xAxis * v.x))).vector

/-- The sixteen numbers, column after column. -/
def toList (m : Mat4) : List Float32 :=
  [m.xAxis, m.yAxis, m.zAxis, m.wAxis].flatMap fun c => [c.x, c.y, c.z, c.w]

end Mat4

/-! ## Placements

The placement of a node: where it is, how it is turned and how large it is. -/

/-- A vector is stored as the list of its components. -/
def Vec3.codec : Data.Codec Vec3 where
  write v := (Data.Codec.list .single).write [v.x, v.y, v.z]
  read? v := do
    match ← (Data.Codec.list .single).read? v with
    | [x, y, z] => some ⟨x, y, z⟩
    | _ => none

/-- A quaternion is stored as the list of its components. -/
def Quat.codec : Data.Codec Quat where
  write q := (Data.Codec.list .single).write [q.x, q.y, q.z, q.w]
  read? v := do
    match ← (Data.Codec.list .single).read? v with
    | [x, y, z, w] => some ⟨x, y, z, w⟩
    | _ => none

/-- A placement: position, rotation and scale (`Transform`). -/
structure Transform where
  position : Vec3
  rotation : Quat
  scale : Vec3
deriving DecidableEq, Repr

namespace Transform

def identity : Transform := ⟨.zero, .identity, .one⟩

/-- Neither turned nor scaled (`from_position`). -/
def atPosition (position : Vec3) : Transform := { identity with position }

/-- The placement with one scale for all axes (`with_uniform_scale`). -/
def withUniformScale (t : Transform) (scale : Float32) : Transform := { t with scale := .splat scale }

/-- The matrix of a placement (`to_matrix`). -/
def toMatrix (t : Transform) : Mat4 := .ofParts t.scale t.rotation t.position

/-- Placements are stored as records of their parts, none of which may be left out. -/
def codec : Data.Codec Transform where
  write t := .record [("position", Vec3.codec.write t.position),
    ("rotation", Quat.codec.write t.rotation), ("scale", Vec3.codec.write t.scale)]
  read? v := do
    let fields ← Data.Fields.ofValue? 3 v
    let position ← fields.required 0 "position" Vec3.codec
    let rotation ← fields.required 1 "rotation" Quat.codec
    let scale ← fields.required 2 "scale" Vec3.codec
    some ⟨position, rotation, scale⟩

end Transform

end Sapling
