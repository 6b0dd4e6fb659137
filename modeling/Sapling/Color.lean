import Sapling.Data.Codec
/-!
Colors with components from zero to one, and their hue, saturation and value.
-/
namespace Sapling

/-- A color: red, green, blue and opacity. -/
structure Color where
  r : Float32
  g : Float32
  b : Float32
  a : Float32
deriving DecidableEq, Repr

/-- Hue as a fraction of the color circle, saturation and value. -/
structure Hsv where
  hue : Float32
  saturation : Float32
  value : Float32
deriving DecidableEq, Repr

namespace Color

/-- An opaque color (`rgb`). -/
def rgb (r g b : Float32) : Color := ⟨r, g, b, 1⟩

/-- Opaque white (`WHITE`). -/
def white : Color := rgb 1 1 1

/-- The four components in their order (`to_array`). -/
def toList (c : Color) : List Float32 := [c.r, c.g, c.b, c.a]

/-- The value is the largest component, the saturation how far the smallest stays behind it, and the hue the
place of the largest one on the circle, moved towards its larger neighbour (`to_hsv`). -/
def toHsv (c : Color) : Hsv :=
  let max := Scalar.max (Scalar.max c.r c.g) c.b
  let min := Scalar.min (Scalar.min c.r c.g) c.b
  let delta := max - min
  let hue :=
    if delta ≤ Scalar.epsilon then 0
    else if max == c.r then Scalar.euclideanRemainder ((c.g - c.b) / delta) 6 / 6
    else if max == c.g then ((c.b - c.r) / delta + 2) / 6
    else ((c.r - c.g) / delta + 4) / 6
  let saturation := if max ≤ Scalar.epsilon then 0 else delta / max
  ⟨hue, saturation, max⟩

/-- The opaque color of a hue, which may lie on any turn of the circle (`from_hsv`). -/
def ofHsv (hsv : Hsv) : Color :=
  let h := Scalar.euclideanRemainder hsv.hue 1 * 6
  let c := hsv.value * hsv.saturation
  let x := c * (1 - (Scalar.euclideanRemainder h 2 - 1).abs)
  let m := hsv.value - c
  let (r, g, b) := match h.toUInt32.toNat with
    | 0 => (c, x, 0)
    | 1 => (x, c, 0)
    | 2 => (0, c, x)
    | 3 => (0, x, c)
    | 4 => (x, 0, c)
    | _ => (c, 0, x)
  rgb (r + m) (g + m) (b + m)

/-- Colors are stored as records of their components, none of which may be left out. -/
def codec : Data.Codec Color where
  write c := .record [("r", .ofSingle c.r), ("g", .ofSingle c.g), ("b", .ofSingle c.b),
    ("a", .ofSingle c.a)]
  read? v := do
    let fields ← Data.Fields.ofValue? 4 v
    let r ← fields.required 0 "r" .single
    let g ← fields.required 1 "g" .single
    let b ← fields.required 2 "b" .single
    let a ← fields.required 3 "a" .single
    some ⟨r, g, b, a⟩

end Color

end Sapling
