import Sapling.Geometry.Orientation
import Sapling.Random.Generator
import Sapling.Scalar
/-!
Random numbers from random words: fractions of one, ranges of numbers and of integers, and the random
quantities of a growing tree.
-/
namespace Sapling

/-! ## Uniform numbers

Uniform numbers from random words: fractions of one, ranges of numbers, and ranges of integers.
-/

namespace Random

/-- The fraction of one with the upper 24 bits of a word. -/
def fractionOfWord (w : UInt32) : Float32 := (w >>> 8).toFloat32 * 5.9604645e-8

/-- The fraction of one with the upper 23 bits of a word. -/
def coarseFractionOfWord (w : UInt32) : Float32 := (w >>> 9).toFloat32 * 1.1920929e-7

/-- Draws a number from zero to below one. -/
def fraction : Draw Float32 := do return fractionOfWord (← word)

/-! ### Ranges of numbers -/

/-- A range of numbers that can be sampled: the fraction drawn is scaled and added to the low end. -/
structure Uniform where
  low : Float32
  scale : Float32
deriving DecidableEq

/-- The largest fraction that is drawn for a range, one less `2 ^ -23`. -/
def largestFraction : Float32 := 0.99999988

/-- The largest scale with at most the given bits that does not carry the largest fraction past the
high end. Positive numbers are in the order of their bits. -/
def fitScale (low high : Float32) : (bits : Nat) → Float32
  | 0 => Float32.ofBits 0
  | bits + 1 =>
    let scale := Float32.ofBits (UInt32.ofNat (bits + 1))
    if high < scale * largestFraction + low then fitScale low high bits else scale

/-- The range `[low, high]`, unless it is empty or too wide. -/
def Uniform.inclusive? (low high : Float32) : Option Uniform :=
  if low ≤ high then
    let scale := (high - low) / largestFraction
    if scale.isFinite then some ⟨low, fitScale low high scale.toBits.toNat⟩ else none
  else none

/-- Draws a number of the range with one word. -/
def Uniform.sample (u : Uniform) : Draw Float32 := do
  return coarseFractionOfWord (← word) * u.scale + u.low

/-- Draws from a range without fitting the scale to the high end. -/
def between (low high : Float32) : Draw Float32 := do
  return coarseFractionOfWord (← word) * (high - low) + low

/-! ### Ranges of integers -/

/-- The product of two words as upper and lower half. -/
def widen (x y : UInt32) : UInt32 × UInt32 :=
  let product := x.toUInt64 * y.toUInt64
  ((product >>> 32).toUInt32, product.toUInt32)

/-- Draws an integer from `[low, high]`. A word scaled by the count of integers has the result in its
upper half; when the lower half leaves the result in doubt, a second word decides whether it carries. -/
def integer (low high : UInt32) : Draw UInt32 := do
  let count := high - low + 1
  let first ← word
  if count = 0 then return first
  let (result, lower) := widen first count
  if 0 - count < lower then
    let (carry, _) := widen (← word) count
    if lower.toNat + carry.toNat < UInt32.size then return low + result else return low + (result + 1)
  else return low + result

/-! ## Quantities of a tree

The random quantities of a growing tree: jittered numbers, numbers and counts from a range, points of
the unit ball and directions. A range that cannot be sampled gives its low end and draws nothing.
-/

/-- `base` plus an offset of up to `variance` either way (`jitter`). -/
def jitter (base variance : Float32) : Draw Float32 := do
  let v := variance.abs
  match Uniform.inclusive? (-v) v with
  | some range => return base + (← range.sample)
  | none => return base

/-- A number of the range between two ends, which may be given in either order (`in_range`). -/
def inRange (ends : Float32 × Float32) : Draw Float32 := do
  let (low, high) := if ends.1 ≤ ends.2 then ends else (ends.2, ends.1)
  match Uniform.inclusive? low high with
  | some range => range.sample
  | none => return low

/-- An integer of the range between two ends, which may be given in either order (`in_range_u32`). -/
def countInRange (ends : UInt32 × UInt32) : Draw UInt32 :=
  if ends.1 ≤ ends.2 then integer ends.1 ends.2 else integer ends.2 ends.1

/-- Draws candidates until one is accepted. Each attempt is independent of the ones before, so the
bound on them is out of reach; past it the draw gives `fallback`. -/
def reject (candidate : Draw α) (accept : α → Option β) (fallback : β) : (attempts : Nat) → Draw β
  | 0 => return fallback
  | attempts + 1 => do
    match accept (← candidate) with
    | some b => return b
    | none => reject candidate accept fallback attempts

/-- More attempts than any draw makes. -/
def attemptBound : Nat := UInt64.size

/-- A point of the cube around the unit ball. -/
def inUnitCube : Draw Vec3 := do
  let x ← between (-1) 1
  let y ← between (-1) 1
  let z ← between (-1) 1
  return ⟨x, y, z⟩

/-- A point of the unit ball (`in_unit_sphere`). -/
def inUnitBall : Draw Vec3 :=
  reject inUnitCube (fun p => if p.lengthSquared ≤ 1 then some p else none) .zero attemptBound

/-- A direction, every one equally likely (`unit_vector`). -/
def direction : Draw Vec3 :=
  reject inUnitBall Vec3.normalize? .unitY attemptBound

end Random

end Sapling
