import Sapling.Scalar
/-!
Points, directions and rotations of space, and the frames around a direction.
-/
namespace Sapling

/-! ## Vectors

Points and directions of space. Sums of three products are taken from the left. -/

/-- A point or a direction. -/
structure Vec3 where
  x : Float32
  y : Float32
  z : Float32
deriving DecidableEq, Repr

namespace Vec3

def zero : Vec3 := ⟨0, 0, 0⟩
def one : Vec3 := ⟨1, 1, 1⟩
def unitX : Vec3 := ⟨1, 0, 0⟩
def unitY : Vec3 := ⟨0, 1, 0⟩
def unitZ : Vec3 := ⟨0, 0, 1⟩

/-- The vector with the same number in every component. -/
def splat (v : Float32) : Vec3 := ⟨v, v, v⟩

instance : Add Vec3 := ⟨fun a b => ⟨a.x + b.x, a.y + b.y, a.z + b.z⟩⟩
instance : Sub Vec3 := ⟨fun a b => ⟨a.x - b.x, a.y - b.y, a.z - b.z⟩⟩
instance : HMul Vec3 Float32 Vec3 := ⟨fun a k => ⟨a.x * k, a.y * k, a.z * k⟩⟩
instance : HMul Float32 Vec3 Vec3 := ⟨fun k a => ⟨k * a.x, k * a.y, k * a.z⟩⟩

def dot (a b : Vec3) : Float32 := a.x * b.x + a.y * b.y + a.z * b.z

def cross (a b : Vec3) : Vec3 :=
  ⟨a.y * b.z - b.y * a.z, a.z * b.x - b.z * a.x, a.x * b.y - b.x * a.y⟩

def lengthSquared (a : Vec3) : Float32 := a.dot a

/-- The length of a vector. -/
def length (a : Vec3) : Float32 := a.lengthSquared.sqrt

/-- How far two points are apart. -/
def distance (a b : Vec3) : Float32 := (a - b).length

/-- The vector times the inverse of its length. -/
def normalize (a : Vec3) : Vec3 := a * (1 / a.length)

/-- The unit vector of a direction, unless the inverse of the length is infinite or vanishes. -/
def normalize? (a : Vec3) : Option Vec3 :=
  let k := 1 / a.length
  if k.isFinite && 0 < k then some (a * k) else none

/-- The unit vector of a direction, or the upward one where there is none. -/
def normalizeOrUp (a : Vec3) : Vec3 := a.normalize?.getD unitY

/-- The point a fraction `t` of the way from `a` to `b`, as a weighted sum. -/
def lerp (a b : Vec3) (t : Float32) : Vec3 := a * (1 - t) + b * t

/-- The smaller of each pair of components. -/
def min (a b : Vec3) : Vec3 := ⟨Scalar.min a.x b.x, Scalar.min a.y b.y, Scalar.min a.z b.z⟩

/-- The larger of each pair of components. -/
def max (a b : Vec3) : Vec3 := ⟨Scalar.max a.x b.x, Scalar.max a.y b.y, Scalar.max a.z b.z⟩

def isFinite (a : Vec3) : Bool := a.x.isFinite && a.y.isFinite && a.z.isFinite

end Vec3

/-! ## Rotations

Rotations as quaternions. Each formula fixes the grouping of its sums, because every operation rounds.
-/

/-- A quaternion: the three components of its vector and the scalar one. -/
structure Quat where
  x : Float32
  y : Float32
  z : Float32
  w : Float32
deriving DecidableEq, Repr

namespace Quat

/-- No rotation at all. -/
def identity : Quat := ⟨0, 0, 0, 1⟩

def vector (q : Quat) : Vec3 := ⟨q.x, q.y, q.z⟩

/-- Every component times the same number. -/
def scale (q : Quat) (k : Float32) : Quat := ⟨q.x * k, q.y * k, q.z * k, q.w * k⟩

instance : Add Quat := ⟨fun p q => ⟨p.x + q.x, p.y + q.y, p.z + q.z, p.w + q.w⟩⟩

/-- The rotation by `b` followed by the rotation by `a`. -/
instance : Mul Quat := ⟨fun a b =>
  { x := (a.w * b.x + a.x * b.w) + (a.y * b.z - a.z * b.y)
    y := (a.w * b.y - a.x * b.z) + (a.y * b.w + a.z * b.x)
    z := (a.w * b.z + a.x * b.y) + (-(a.y * b.x) + a.z * b.w)
    w := (a.w * b.w - a.x * b.x) + (-(a.y * b.y) - a.z * b.z) }⟩

def dot (p q : Quat) : Float32 := (p.x * q.x + p.z * q.z) + (p.y * q.y + p.w * q.w)

def length (q : Quat) : Float32 := (q.dot q).sqrt

/-- The quaternion divided by its length. -/
def normalize (q : Quat) : Quat :=
  let l := q.length
  ⟨q.x / l, q.y / l, q.z / l, q.w / l⟩

def isFinite (q : Quat) : Bool := q.x.isFinite && q.y.isFinite && q.z.isFinite && q.w.isFinite

/-- A vector turned by a rotation. -/
def rotate (q : Quat) (v : Vec3) : Vec3 :=
  let b := q.vector
  let along := q.w * q.w - b.dot b
  let towards := v.dot b * 2
  let across := q.w * 2
  let c : Vec3 := ⟨b.y * v.z - v.y * b.z, b.z * v.x - v.z * b.x, b.x * v.y - v.x * b.y⟩
  v * along + b * towards + c * across

/-! ### Rotations about an axis -/

def aboutX (angle : Float32) : Quat := ⟨(angle * 0.5).sin, 0, 0, (angle * 0.5).cos⟩

def aboutY (angle : Float32) : Quat := ⟨0, (angle * 0.5).sin, 0, (angle * 0.5).cos⟩

def aboutZ (angle : Float32) : Quat := ⟨0, 0, (angle * 0.5).sin, (angle * 0.5).cos⟩

/-- The rotation about an axis of length one. -/
def aboutAxis (axis : Vec3) (angle : Float32) : Quat :=
  let v := axis * (angle * 0.5).sin
  ⟨v.x, v.y, v.z, (angle * 0.5).cos⟩

/-- Turns about the three axes, the one about the first axis outermost. -/
def ofEuler (a b c : Float32) : Quat :=
  let i := a * 0.5
  let j := -b * 0.5
  let h := c * 0.5
  let cc := i.cos * h.cos
  let cs := i.cos * h.sin
  let sc := i.sin * h.cos
  let ss := i.sin * h.sin
  { x := j.cos * sc - j.sin * cs
    y := -(j.cos * ss + j.sin * cc)
    z := j.cos * cs - j.sin * sc
    w := j.cos * cc + j.sin * ss }

/-! ### Rotations between directions -/

/-- The rotation whose images of the axes are the three columns. The largest component of the result is
found from the diagonal and taken as the divisor of the others. -/
def ofColumns (p q r : Vec3) : Quat :=
  if r.z ≤ 0 then
    let difference := q.y - p.x
    let rest := 1 - r.z
    if difference ≤ 0 then
      let square := rest - difference
      let inverse := 0.5 / square.sqrt
      ⟨square * inverse, (p.y + q.x) * inverse, (p.z + r.x) * inverse, (q.z - r.y) * inverse⟩
    else
      let square := rest + difference
      let inverse := 0.5 / square.sqrt
      ⟨(p.y + q.x) * inverse, square * inverse, (q.z + r.y) * inverse, (r.x - p.z) * inverse⟩
  else
    let sum := q.y + p.x
    let rest := 1 + r.z
    if sum ≤ 0 then
      let square := rest - sum
      let inverse := 0.5 / square.sqrt
      ⟨(p.z + r.x) * inverse, (q.z + r.y) * inverse, square * inverse, (p.y - q.x) * inverse⟩
    else
      let square := rest + sum
      let inverse := 0.5 / square.sqrt
      ⟨(q.z - r.y) * inverse, (r.x - p.z) * inverse, (p.y - q.x) * inverse, square * inverse⟩

/-- How close to one the dot product of two directions must be for them to count as parallel. -/
def parallelBound : Float32 := 1 - 2 * Scalar.epsilon

/-- A unit vector perpendicular to a unit vector. -/
def perpendicular (v : Vec3) : Vec3 :=
  let sign := Scalar.signum v.z
  let a := -1 / (sign + v.z)
  let b := v.x * v.y * a
  ⟨b, sign + v.y * v.y * a, -v.y⟩

/-- The least rotation from one unit vector to another. -/
def arc (source target : Vec3) : Quat :=
  let d := source.dot target
  if parallelBound < d then identity
  else if d < -parallelBound then aboutAxis (perpendicular source) Scalar.pi
  else
    let c := source.cross target
    normalize ⟨c.x, c.y, c.z, 1 + d⟩

/-! ### Blending -/

/-- A polynomial, its coefficients given from the highest power down. -/
def horner (coefficients : List Float32) (v : Float32) : Float32 :=
  match coefficients with
  | [] => 0
  | first :: rest => rest.foldl (fun sum c => sum * v + c) first

/-- The angle whose cosine is `v`, for `v` from zero to one. -/
def approximateArccos (v : Float32) : Float32 :=
  let root := (Scalar.max (1 - v) 0).sqrt
  horner [-0.0012624911, 0.00667009, -0.017088126, 0.03089188, -0.050174303, 0.08897899, -0.2145988,
    1.5707963] v * root

/-- The sine of an angle: whole turns are taken away, the rest is folded into a quarter turn. -/
def approximateSin (v : Float32) : Float32 :=
  let turns := Scalar.roundEven (v * 0.15915494)
  let angle := v - Scalar.tau * turns
  let folded := if 1.5707964 < angle.abs then Scalar.copySign Scalar.pi angle - angle else angle
  let square := folded * folded
  horner [-2.3889859e-8, 2.7525562e-6, -0.00019840874, 0.008333331, -0.16666667, 1] square * folded

/-- The rotation a fraction `t` of the way from `p` to `q`, along the shorter arc. -/
def slerp (p q : Quat) (t : Float32) : Quat :=
  let d := p.dot q
  let (q, d) := if d < 0 then (q.scale (-1), -d) else (q, d)
  if 1 - Scalar.epsilon < d then normalize (p.scale (1 - t) + q.scale t)
  else
    let angle := approximateArccos d
    let left := approximateSin (angle * (1 - t))
    let right := approximateSin (angle * t)
    let divisor := approximateSin angle
    let blend := fun (a b : Float32) => (a * left + b * right) / divisor
    ⟨blend p.x q.x, blend p.y q.y, blend p.z q.z, blend p.w q.w⟩

end Quat

/-! ## Frames around a direction

Frames around a direction: the rotation that looks along it, and two axes across it. -/

/-- An axis across a unit vector: the first of some candidates that is not parallel to it (`right_axis`). -/
def rightAxis (forward up : Vec3) : Vec3 :=
  ([up, Vec3.unitY, Vec3.unitZ, Vec3.unitX].findSome? fun c => (c.cross forward).normalize?).getD
    Vec3.unitX

/-- The rotation that takes the third axis to `forward` and the second one as near to `up` as it can
(`look_rotation`). No rotation at all where there is no direction. -/
def lookRotation (forward up : Vec3) : Quat :=
  match forward.normalize? with
  | none => .identity
  | some forward =>
    let right := rightAxis forward up
    (Quat.ofColumns right (forward.cross right) forward).normalize

/-- Two unit vectors across a direction and each other (`orthonormal_basis`). -/
def orthonormalBasis (forward : Vec3) : Vec3 × Vec3 :=
  let forward := forward.normalizeOrUp
  let right := rightAxis forward Vec3.unitY
  (right, forward.cross right)

end Sapling
