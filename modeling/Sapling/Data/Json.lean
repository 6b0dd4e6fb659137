import Sapling.Data.Value
import Sapling.Decimal
/-!
The JSON text of data. The reader accepts the standard grammar and nothing after the value but blanks.
Texts with lone surrogates, and lists and records below 127 others, are given as places without a value.
-/
namespace Sapling.Data.Json

def isSpace (c : Char) : Bool := c = ' ' || c = '\t' || c = '\n' || c = '\r'

def skipSpace (cs : List Char) : List Char := cs.dropWhile isSpace

/-! ## Reading -/

def hexDigit? (c : Char) : Option Nat :=
  if c.isDigit then some (c.toNat - '0'.toNat)
  else if 'a' ≤ c && c ≤ 'f' then some (c.toNat - 'a'.toNat + 10)
  else if 'A' ≤ c && c ≤ 'F' then some (c.toNat - 'A'.toNat + 10)
  else none

/-- The value of four hexadecimal digits. -/
def hexQuad? (a b c d : Char) : Option Nat := do
  let a ← hexDigit? a
  let b ← hexDigit? b
  let c ← hexDigit? c
  let d ← hexDigit? d
  some (((a * 16 + b) * 16 + c) * 16 + d)

def isHighSurrogate (n : Nat) : Bool := 0xD800 ≤ n && n < 0xDC00

def isLowSurrogate (n : Nat) : Bool := 0xDC00 ≤ n && n < 0xE000

/-- The character of an escape with one letter. -/
def letterEscape? : Char → Option Char
  | '"' => some '"'
  | '\\' => some '\\'
  | '/' => some '/'
  | 'b' => some '\x08'
  | 'f' => some '\x0c'
  | 'n' => some '\n'
  | 'r' => some '\r'
  | 't' => some '\t'
  | _ => none

/-- A part of a string: a character, or a 16-bit unit that is written by its number. -/
inductive Piece where
  | char (c : Char)
  | unit (n : Nat)
deriving DecidableEq, Repr

/-- The parts of a string, up to and with the closing quote, and what follows it. -/
def readPieces : List Char → Option (List Piece × List Char)
  | [] => none
  | '"' :: rest => some ([], rest)
  | '\\' :: 'u' :: a :: b :: c :: d :: rest => do
    let n ← hexQuad? a b c d
    let (pieces, rest) ← readPieces rest
    some (.unit n :: pieces, rest)
  | '\\' :: letter :: rest => do
    let c ← letterEscape? letter
    let (pieces, rest) ← readPieces rest
    some (.char c :: pieces, rest)
  | c :: rest => do
    if c.toNat < 0x20 then none
    else
      let (pieces, rest) ← readPieces rest
      some (.char c :: pieces, rest)

/-- The characters of parts, if every half of a surrogate pair is followed by the other one. `high` is a
first half that waits for the second. -/
def joinPieces : (high : Option Nat) → List Piece → Option (List Char)
  | none, [] => some []
  | none, .char c :: rest => (joinPieces none rest).map (c :: ·)
  | none, .unit n :: rest =>
    if isHighSurrogate n then joinPieces (some n) rest
    else if isLowSurrogate n then none
    else (joinPieces none rest).map (Char.ofNat n :: ·)
  | some high, .unit low :: rest =>
    if isLowSurrogate low then
      let code := 0x10000 + (high - 0xD800) * 0x400 + (low - 0xDC00)
      (joinPieces none rest).map (Char.ofNat code :: ·)
    else none
  | some _, _ => none

/-- The inside of a string, up to and with the closing quote, and what follows it. Half of a surrogate
pair leaves a string without characters. -/
def readText (cs : List Char) : Option (Option (List Char) × List Char) :=
  (readPieces cs).map fun (pieces, rest) => (joinPieces none pieces, rest)

/-- The exponent of a number, zero where none is written. -/
def readExponent : List Char → Option (Int × List Char)
  | e :: rest =>
    if e = 'e' || e = 'E' then
      let (negative, rest) := match rest with
        | '-' :: rest => (true, rest)
        | '+' :: rest => (false, rest)
        | rest => (false, rest)
      let (digits, rest) := rest.span Char.isDigit
      if digits.isEmpty then none
      else
        let power : Int := Decimal.ofDigits digits
        some (if negative then -power else power, rest)
    else some (0, e :: rest)
  | [] => some (0, [])

/-- The digits after the point, none where no point is written. -/
def readFraction : List Char → Option (List Char × List Char)
  | '.' :: rest =>
    let (digits, rest) := rest.span Char.isDigit
    if digits.isEmpty then none else some (digits, rest)
  | rest => some ([], rest)

/-- An integer that fits a word stays whole; minus zero and larger integers are real. -/
def wholeOrReal (negative : Bool) (digits : Nat) : Number :=
  let value : Int := if negative then -digits else digits
  if (negative && digits = 0) || value < Int64.minValue.toInt || UInt64.size ≤ value then .real ⟨negative, digits, 0⟩
  else .whole value

/-- A number and what follows it. No zero may stand in front of other digits. -/
def readNumber (cs : List Char) : Option (Number × List Char) := do
  let (negative, cs) := match cs with
    | '-' :: rest => (true, rest)
    | rest => (false, rest)
  let (whole, cs) := cs.span Char.isDigit
  if whole.isEmpty || (whole.head? = some '0' && whole.length > 1) then none
  else
    let (fraction, afterFraction) ← readFraction cs
    let (exponent, rest) ← readExponent afterFraction
    if rest.length = cs.length then some (wholeOrReal negative (Decimal.ofDigits whole), rest)
    else
      some (.real ⟨negative, Decimal.ofDigits (whole ++ fraction), exponent - fraction.length⟩, rest)

/-- A value that lies below `depth` lists and records less than are allowed. -/
def within (depth : Nat) (value : Value) : Value := if depth = 0 then .unread else value

mutual

/-- One value; `depth` more lists or records may be opened for a value to be kept. -/
def readValue : (fuel : Nat) → (depth : Nat) → List Char → Option (Value × List Char)
  | 0, _, _ => none
  | fuel + 1, depth, cs =>
    match skipSpace cs with
    | 'n' :: 'u' :: 'l' :: 'l' :: rest => some (.null, rest)
    | 't' :: 'r' :: 'u' :: 'e' :: rest => some (.bool true, rest)
    | 'f' :: 'a' :: 'l' :: 's' :: 'e' :: rest => some (.bool false, rest)
    | '"' :: rest => do
      let (text, rest) ← readText rest
      some ((text.map fun cs => .text (String.ofList cs)).getD .unread, rest)
    | '[' :: rest =>
      match skipSpace rest with
      | ']' :: rest => some (within depth (.list []), rest)
      | rest => do
        let (items, rest) ← readItems fuel (depth - 1) rest
        some (within depth (.list items), rest)
    | '\x7b' :: rest =>
      match skipSpace rest with
      | '\x7d' :: rest => some (within depth (.record []), rest)
      | rest => do
        let (fields, rest) ← readFields fuel (depth - 1) rest
        some (within depth ((fields.map .record).getD .unread), rest)
    | cs => do
      let (number, rest) ← readNumber cs
      some (.number number, rest)

/-- The items of a list that has some, up to and with the closing bracket. -/
def readItems : (fuel : Nat) → (depth : Nat) → List Char → Option (List Value × List Char)
  | 0, _, _ => none
  | fuel + 1, depth, cs => do
    let (item, rest) ← readValue fuel depth cs
    match skipSpace rest with
    | ',' :: rest =>
      let (items, rest) ← readItems fuel depth rest
      some (item :: items, rest)
    | ']' :: rest => some ([item], rest)
    | _ => none

/-- The fields of a record that has some, up to and with the closing brace. They are lost if a name is. -/
def readFields : (fuel : Nat) → (depth : Nat) → List Char →
    Option (Option (List (String × Value)) × List Char)
  | 0, _, _ => none
  | fuel + 1, depth, cs =>
    match skipSpace cs with
    | '"' :: rest => do
      let (name, rest) ← readText rest
      match skipSpace rest with
      | ':' :: rest =>
        let (value, rest) ← readValue fuel depth rest
        let field := name.map fun name => (String.ofList name, value)
        match skipSpace rest with
        | ',' :: rest =>
          let (fields, rest) ← readFields fuel depth rest
          some ((do some ((← field) :: (← fields))), rest)
        | '\x7d' :: rest => some (field.map ([·]), rest)
        | _ => none
      | _ => none
    | _ => none

end

/-- The value of a whole text. Each list or record costs two calls and each further item one, so twice
the length is fuel enough. -/
def read? (text : String) : Option Value := do
  let cs := text.toList
  let (value, rest) ← readValue (2 * cs.length + 2) 127 cs
  if (skipSpace rest).isEmpty then some value else none

/-! ## Writing -/

def escape (c : Char) : String :=
  if c = '"' then "\\\"" else if c = '\\' then "\\\\"
  else if c.toNat < 0x20 then
    "\\u00" ++ (if c.toNat < 0x10 then "0" else "") ++ String.ofList (Nat.toDigits 16 c.toNat)
  else c.toString

def renderText (text : String) : String :=
  "\"" ++ String.join (text.toList.map escape) ++ "\""

/-- Real numbers always show a point or an exponent. -/
def renderNumber : Number → String
  | .whole value => toString value
  | .real value => value.render Decimal.pointed

mutual

/-- Adds the text of a value to what is written already. -/
def append (out : String) : Value → String
  | .null | .unread => out ++ "null"
  | .bool value => out ++ (if value then "true" else "false")
  | .number value => out ++ renderNumber value
  | .text value | .plain value => out ++ renderText value
  | .list items => appendItems (out ++ "[") items ++ "]"
  | .record fields => appendFields (out ++ "\x7b") fields ++ "\x7d"

/-- Adds the items of a list with commas between them. -/
def appendItems (out : String) : List Value → String
  | [] => out
  | [item] => append out item
  | item :: items => appendItems (append out item ++ ",") items

/-- Adds the fields of a record with commas between them. -/
def appendFields (out : String) : List (String × Value) → String
  | [] => out
  | [(name, value)] => append (out ++ renderText name ++ ":") value
  | (name, value) :: fields => appendFields (append (out ++ renderText name ++ ":") value ++ ",") fields

end

/-- The text of a value, without blanks between its parts. -/
def render (value : Value) : String := append "" value

end Sapling.Data.Json
