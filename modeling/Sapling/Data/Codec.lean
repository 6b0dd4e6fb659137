import Sapling.Data.Value
/-!
How domain values are stored as data. A codec writes a value and reads it back; reading gives nothing
where the data has another shape. A structure is stored as a record of its fields and may also be given
as a list of them in order.
-/
namespace Sapling.Data

/-- How the values of a type are written as data, and read again. -/
structure Codec (α : Type) where
  write : α → Value
  read? : Value → Option α

/-- Reading gives back what was written. -/
def Codec.Faithful (c : Codec α) (a : α) : Prop := c.read? (c.write a) = some a

namespace Codec

/-! ## Plain values -/

/-- The integer of a number written with digits alone. -/
def wholeNumber? : Value → Option Int
  | .number (.whole n) => some n
  | .plain word => (Plain.natural? word).map Int.ofNat
  | _ => none

/-- The single of a number. An integer is rounded once; a real one goes through a double, which has to
be finite. -/
def readSingle? : Value → Option Float32
  | .number (.whole n) => some (Float32.ofInt n)
  | .number (.real d) => if d.toDouble.isFinite then some d.toSingleThroughDouble else none
  | .plain word => Plain.single? word
  | _ => none

def single : Codec Float32 := ⟨Value.ofSingle, readSingle?⟩

/-- Natural numbers below a bound. -/
def readBelow? (bound : Nat) (v : Value) : Option Nat := do
  let n ← wholeNumber? v
  if 0 ≤ n ∧ n < bound then some n.toNat else none

def word32 : Codec UInt32 where
  write n := .ofNat n.toNat
  read? v := (readBelow? UInt32.size v).map UInt32.ofNat

def word64 : Codec UInt64 where
  write n := .ofNat n.toNat
  read? v := (readBelow? UInt64.size v).map UInt64.ofNat

/-- Texts. A word without quotes is read as the text that it spells. -/
def text : Codec String where
  write s := .text s
  read?
    | .text s | .plain s => some s
    | _ => none

/-- A sequence of characters, stored as text. -/
def chars : Codec (List Char) where
  write cs := .text (String.ofList cs)
  read? v := (text.read? v).map String.toList

/-- A text of one character. -/
def char : Codec Char where
  write c := .text c.toString
  read? v := do
    match (← text.read? v).toList with
    | [c] => some c
    | _ => none

/-! ## Compound values -/

/-- Values that may be missing. Null stands for none. -/
def option (c : Codec α) : Codec (Option α) where
  write
    | some a => c.write a
    | none => .null
  read?
    | .null => some none
    | .plain word => if Plain.isNull word then some none else (c.read? (.plain word)).map some
    | v => (c.read? v).map some

/-- Lists of values of one type. An empty word is read as an empty list. -/
def list (c : Codec α) : Codec (List α) where
  write as := .list (as.map c.write)
  read?
    | .list items => items.mapM c.read?
    | .plain "" => some []
    | _ => none

/-- Two values, stored as a list of both. -/
def pair (c : Codec α) (d : Codec β) : Codec (α × β) where
  write p := .list [c.write p.1, d.write p.2]
  read?
    | .list [v, w] => do some (← c.read? v, ← d.read? w)
    | _ => none

/-- The ends of a range. -/
def range : Codec (Float32 × Float32) := pair single single

end Codec

/-! ## Structures -/

/-- Where the fields of a structure are found. -/
inductive Fields where
  | named (fields : List (String × Value))
  | placed (items : List Value)

namespace Fields

/-- The fields of a structure that has `count` of them: a record, or a list no longer than that. An
empty word is a record without fields. -/
def ofValue? (count : Nat) : Value → Option Fields
  | .record fields => some (.named fields)
  | .plain "" => some (.named [])
  | .list items => if items.length ≤ count then some (.placed items) else none
  | _ => none

/-- The data of a field: all entries of its name, or the item at its place. -/
def entries (fields : Fields) (place : Nat) (name : String) : List Value :=
  match fields with
  | .named fields => (fields.filter (·.1 == name)).map (·.2)
  | .placed items => items[place]?.toList

/-- A field that must be there, once. -/
def required (fields : Fields) (place : Nat) (name : String) (c : Codec α) : Option α :=
  match fields.entries place name with
  | [v] => c.read? v
  | _ => none

/-- A field that may be left out. -/
def optional (fields : Fields) (place : Nat) (name : String) (c : Codec α) (absent : α) : Option α :=
  match fields.entries place name with
  | [] => some absent
  | [v] => c.read? v
  | _ => none

end Fields

end Sapling.Data
