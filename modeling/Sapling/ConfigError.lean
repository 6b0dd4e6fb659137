import Sapling.Decimal
import Sapling.Text
/-!
What can be wrong with settings, the message of each fault, and the checks that find them.
-/
namespace Sapling

/-- What is wrong with settings: where a number is at fault, its field and the number itself. -/
inductive ConfigError where
  | iterationsOutOfRange (value max : UInt32)
  | nonPositive (field : String) (value : Float32)
  | nonFinite (field : String) (value : Float32)
  | negative (field : String) (value : Float32)
  | outOfUnitRange (field : String) (value : Float32)
  | invalidRange (field : String) (min max : Float32)
  | zeroBatchCapacity
  | tooFewSegments (field : String) (min value : UInt32)
  | malformedRule (text : List Char)
deriving DecidableEq

namespace ConfigError

/-- Numbers in messages are written out in plain digits. -/
def number (x : Float32) : String := Decimal.text Decimal.plain x

/-- The message of a fault. -/
def message : ConfigError → String
  | iterationsOutOfRange value max => s!"iteration count {value} exceeds the maximum of {max}"
  | nonPositive field value => s!"{field} must be positive, got {number value}"
  | nonFinite field value => s!"{field} must be finite, got {number value}"
  | negative field value => s!"{field} must not be negative, got {number value}"
  | outOfUnitRange field value => s!"{field} must lie in [0, 1], got {number value}"
  | invalidRange field min max => s!"{field} range is inverted: min {number min} > max {number max}"
  | zeroBatchCapacity => "batch capacity must be a positive integer"
  | tooFewSegments field min value => s!"{field} needs at least {min} segments, got {value}"
  | malformedRule text =>
    "malformed rule " ++ Text.quote text ++ ": expected \x60<symbol>=<replacement>\x60"

end ConfigError

/-- The outcome of checking settings: nothing, or the first fault. -/
abbrev Validation := Except ConfigError Unit

namespace Ensure

/-- The number is finite (`ensure_finite`). -/
def finite (field : String) (value : Float32) : Validation :=
  if value.isFinite then .ok () else .error (.nonFinite field value)

/-- The number is finite and above zero (`ensure_positive`). -/
def positive (field : String) (value : Float32) : Validation := do
  finite field value
  if 0 < value then .ok () else .error (.nonPositive field value)

/-- The number is finite and not below zero (`ensure_non_negative`). -/
def nonNegative (field : String) (value : Float32) : Validation := do
  finite field value
  if 0 ≤ value then .ok () else .error (.negative field value)

/-- A half-width whose whole width is finite (`ensure_variance`). -/
def variance (field : String) (value : Float32) : Validation := do
  nonNegative field value
  finite field (2 * value)

/-- The number lies between zero and one (`ensure_unit`). -/
def unit (field : String) (value : Float32) : Validation :=
  if 0 ≤ value ∧ value ≤ 1 then .ok () else .error (.outOfUnitRange field value)

/-- The ends of a range, in order and with a finite width (`ensure_ordered`). -/
def ordered (field : String) (ends : Float32 × Float32) : Validation := do
  finite field ends.1
  finite field ends.2
  if ends.2 < ends.1 then .error (.invalidRange field ends.1 ends.2)
  else finite field (ends.2 - ends.1)

end Ensure

end Sapling
