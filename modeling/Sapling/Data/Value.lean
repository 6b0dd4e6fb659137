import Sapling.Decimal
/-!
Tree-shaped data, in which settings are stored: numbers keep the decimal they were written with, words
keep their spelling, and the fields of a record keep their order.
-/
namespace Sapling

namespace Data

/-- A written number. -/
inductive Number where
  /-- An integer that fits a signed or an unsigned 64-bit word, written with digits alone. -/
  | whole (value : Int)
  | real (value : Decimal)
deriving DecidableEq, Repr

/-- A tree of data: a scalar, a list or a record. -/
inductive Value where
  | null
  | bool (value : Bool)
  | number (value : Number)
  | text (value : String)
  /-- A word without quotes. What it stands for depends on what is asked for. -/
  | plain (word : String)
  | list (items : List Value)
  | record (fields : List (String × Value))
  /-- A place where something is written that has no value. It may be passed over, but not read. -/
  | unread

namespace Value

/-- The shortest decimal of a number, and nothing for one that has no digits. -/
def ofSingle (x : Float32) : Value :=
  match Decimal.shortest? x with
  | some d => .number (.real d)
  | none => .null

def ofNat (n : Nat) : Value := .number (.whole n)

/-- A value that may be missing as data: null stands for none. -/
def ofOption (write : α → Value) : Option α → Value
  | some a => write a
  | none => .null

end Value

end Data

/-! ## Words without quotes

Words without quotes: what one stands for where nothing, a number or anything at all is asked for.
-/

namespace Data.Plain

/-- The words that stand for nothing. -/
def isNull (word : String) : Bool := ["", "~", "null", "Null", "NULL"].contains word

/-- The truth value that a word stands for. -/
def bool? (word : String) : Option Bool :=
  if ["true", "True", "TRUE"].contains word then some true
  else if ["false", "False", "FALSE"].contains word then some false
  else none

/-! ### Integers -/

/-- The value of a digit or of one of the letters that follow nine. -/
def digit? (c : Char) : Option Nat :=
  if c.isDigit then some (c.toNat - '0'.toNat)
  else if 'a' ≤ c.toLower && c.toLower ≤ 'z' then some (c.toLower.toNat - 'a'.toNat + 10)
  else none

/-- A number in some base. -/
def inBase? (base : Nat) (cs : List Char) : Option Nat := do
  let digits ← cs.mapM digit?
  if digits ≠ [] ∧ digits.all (· < base) then some (digits.foldl (fun n d => base * n + d) 0) else none

/-- Digits behind a zero that leads are no integer. -/
def hasLeadingZero : List Char → Bool
  | '0' :: c :: rest => (c :: rest).all Char.isDigit
  | _ => false

/-- A number without a sign, in base ten unless its first two characters name another. -/
def magnitude? : List Char → Option Nat
  | '0' :: 'x' :: digits => inBase? 16 digits
  | '0' :: 'o' :: digits => inBase? 8 digits
  | '0' :: 'b' :: digits => inBase? 2 digits
  | digits => if hasLeadingZero digits then none else inBase? 10 digits

/-- A natural number, perhaps with a plus sign. -/
def natural? (word : String) : Option Nat :=
  match word.toList with
  | '+' :: cs => magnitude? cs
  | cs => magnitude? cs

/-- The magnitude of a word with a minus sign in front. -/
def negative? (word : String) : Option Nat :=
  match word.toList with
  | '-' :: cs => magnitude? cs
  | _ => none

/-! ### Real numbers -/

/-- The number that a word with a point in front stands for. -/
def pointed? (word : String) : Option Float32 :=
  if [".inf", ".Inf", ".INF", "+.inf", "+.Inf", "+.INF"].contains word then some Scalar.infinity
  else if ["-.inf", "-.Inf", "-.INF"].contains word then some (-Scalar.infinity)
  else if [".nan", ".NaN", ".NAN"].contains word then some Scalar.notANumber
  else none

/-- A decimal whose double is finite. -/
def decimal? (word : String) : Option Decimal :=
  (Decimal.ofText? word.toList).filter (·.toDouble.isFinite)

/-- The single that a word stands for. Digits are rounded through a double. -/
def single? (word : String) : Option Float32 :=
  (pointed? word).or ((decimal? word).map (·.toSingleThroughDouble))

/-! ### Anything -/

/-- An integer that fits a word. -/
def whole? (word : String) : Option Int :=
  match natural? word, negative? word with
  | some n, _ => if n < UInt64.size then some n else none
  | none, some n => if -(n : Int) < Int64.minValue.toInt then none else some (-n)
  | none, none => none

/-- A number in the usual digits; a sign does not hide a leading zero. -/
def real? (word : String) : Option Decimal :=
  if hasLeadingZero (Decimal.takeSign word.toList).2 then none else decimal? word

/-- What a word stands for on its own. The numbers without digits stay words. -/
def resolve (word : String) : Value :=
  if isNull word then .null
  else
    match bool? word, whole? word, real? word, pointed? word with
    | some b, _, _, _ => .bool b
    | none, some n, _, _ => .number (.whole n)
    | none, none, some d, _ => .number (.real d)
    | none, none, none, some _ => .plain word
    | none, none, none, none => .text word

end Data.Plain


namespace Data.Value

mutual

/-- The value with all its words resolved, if every part of it can be read. -/
def settle? : Value → Option Value
  | .plain word => some (Plain.resolve word)
  | .number (.real d) => if d.toDouble.isFinite then some (.number (.real d)) else none
  | .list items => do some (.list (← settleItems? items))
  | .record fields => do some (.record (← settleFields? fields))
  | .unread => none
  | value => some value

def settleItems? : List Value → Option (List Value)
  | [] => some []
  | item :: items => do some ((← item.settle?) :: (← settleItems? items))

def settleFields? : List (String × Value) → Option (List (String × Value))
  | [] => some []
  | (name, value) :: fields => do some ((name, ← value.settle?) :: (← settleFields? fields))

end

end Data.Value

end Sapling
