/-!
Single-precision scalars. Every length, angle and color component of the library is a `Float32`,
rounded after each operation. This module adds the few operations that have to say what happens to a
signed zero and to a value that is not a number, exact remainders, and blending.
-/
namespace Sapling

namespace Scalar

open Float.Model
open UnpackedFloat (Sign)

/-- The gap between one and the next larger number. -/
def epsilon : Float32 := 1.1920929e-7

/-- Half a turn in radians. -/
def pi : Float32 := 3.1415927

/-- A full turn in radians. -/
def tau : Float32 := 6.2831855

def infinity : Float32 := Float32.ofBits 0x7F800000

/-- A value that is no number. All of them count as one here. -/
def notANumber : Float32 := Float32.ofBits 0x7FC00000

/-- The larger of two numbers. A side that is not a number is ignored, and of two equal numbers the
first is kept. -/
def max (x y : Float32) : Float32 := if x < y || x.isNaN then y else x

/-- The smaller of two numbers, with the conventions of `max`. -/
def min (x y : Float32) : Float32 := if y < x || x.isNaN then y else x

/-- Moves a number into `[low, high]`. What is not a number stays so. -/
def clamp (x low high : Float32) : Float32 :=
  let raised := if x < low then low else x
  if high < raised then high else raised

/-- The number is negative, minus zero included. -/
def signBit (x : Float32) : Bool := 0x80000000 ≤ x.toBits

/-- The magnitude of `x` with the sign of `y`. -/
def copySign (x y : Float32) : Float32 := if signBit y then -x.abs else x.abs

/-- One with the sign of `x`, zeros included. -/
def signum (x : Float32) : Float32 := if x.isNaN then x else copySign 1 x

/-- An angle in degrees as one in radians. -/
def toRadians (degrees : Float32) : Float32 := degrees * 0.017453292

/-- The number nearest to `± mantissa * 2 ^ exponent`, a tie going to the even neighbour. -/
def ofDyadic (sign : Sign) (mantissa : Nat) (exponent : Int) : Float32 :=
  .ofModel (.pack (if mantissa = 0 then .zero sign else .round .binary32 sign mantissa exponent))

/-- The single nearest to a double, a tie going to the even neighbour. -/
def ofDouble (x : Float) : Float32 :=
  match x.toModel.unpack with
  | .finite sign mantissa exponent _ => ofDyadic sign mantissa exponent
  | other => .ofModel (.pack other)

/-- Rounds to an integer, a half going to the even neighbour. Numbers from `2 ^ 23` on are integers
already; below that, adding and taking away `2 ^ 23` rounds in the last place. -/
def roundEven (x : Float32) : Float32 :=
  if x.abs < 8388608 then copySign (x.abs + 8388608 - 8388608) x else x

/-- What is left of `x` after taking away `y` as often as it fits, with the sign of `x`. The result is
exact: it lies on the finer grid of the two numbers and is no larger than either. -/
def remainder (x y : Float32) : Float32 :=
  match x.toModel.unpack, y.toModel.unpack with
  | .finite sign m e _, .finite _ n f _ =>
    let grid := if e ≤ f then e else f
    ofDyadic sign ((m <<< (e - grid).toNat) % (n <<< (f - grid).toNat)) grid
  | .finite .., .infinity _ => x
  | .zero _, .finite .. => x
  | .zero _, .infinity _ => x
  | _, _ => notANumber

/-- The remainder brought into `[0, |y|)`, up to one rounding of the final sum. -/
def euclideanRemainder (x y : Float32) : Float32 :=
  let r := remainder x y
  if r < 0 then r + y.abs else r

/-- A key in the total order of all numbers: negative ones first, minus zero just before zero. -/
def orderKey (x : Float32) : Int :=
  let bits := x.toBits.toNat
  if bits < 0x80000000 then bits else 0x7FFFFFFF - (bits : Int)

end Scalar

/-! ## Between two numbers

Numbers between two others: blending, its inverse, and the smooth step from zero to one. -/

/-- The number a fraction `t` of the way from `a` to `b` (`lerp`). -/
def lerp (a b t : Float32) : Float32 := a + (b - a) * t

/-- How far `value` lies on the way from `a` to `b`, in `[0, 1]`; zero where the two nearly agree
(`inverse_lerp`). -/
def inverseLerp (a b value : Float32) : Float32 :=
  let span := b - a
  if span.abs ≤ Scalar.epsilon then 0 else Scalar.clamp ((value - a) / span) 0 1

/-- The cubic that leaves zero and reaches one with slope zero (`smoothstep`). -/
def smoothstep (t : Float32) : Float32 :=
  let t := Scalar.clamp t 0 1
  t * t * (3 - 2 * t)

end Sapling
