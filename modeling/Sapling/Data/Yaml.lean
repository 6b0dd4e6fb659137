import Sapling.Data.Value
/-!
The YAML text of settings. Records and lists are laid out by indentation or in brackets; scalars are
words or quoted texts and end with their line. Nothing else of the language is read: anchors, tags,
scalars over several lines and further documents are refused.
-/
namespace Sapling.Data.Yaml

def isBlank (c : Char) : Bool := c = ' ' || c = '\t'

def skipBlank (cs : List Char) : List Char := cs.dropWhile isBlank

/-- What follows blanks, line ends and comments, where brackets hold lines together. -/
def skipGap (inComment : Bool) : List Char → List Char
  | [] => []
  | c :: rest =>
    if c = '\n' then skipGap false rest
    else if inComment || c = '#' then skipGap true rest
    else if isBlank c then skipGap false rest
    else c :: rest

/-- Nothing more stands on a line but blanks and a comment. -/
def isBare (cs : List Char) : Bool :=
  match skipBlank cs with
  | [] => true
  | '#' :: _ => true
  | _ => false

/-! ## Scalars -/

/-- Characters that set off parts of a bracketed list or record. -/
def isFlowMark (c : Char) : Bool := c = ',' || c = '[' || c = ']' || c = '\x7b' || c = '\x7d'

/-- Characters that cannot begin a plain scalar. -/
def isIndicator (c : Char) : Bool :=
  isFlowMark c || ['#', '&', '*', '!', '|', '>', '\'', '"', '%', '@', '\x60'].contains c

def isGap (c : Char) : Bool := isBlank c || c = '\n'

/-- Dashes, question marks and colons begin a plain scalar only in front of something else. -/
def startsPlain : List Char → Bool
  | c :: rest =>
    if c = '-' || c = '?' || c = ':' then rest.head?.any (!isGap ·)
    else !isIndicator c && !isGap c
  | [] => false

/-- A plain scalar and what follows it. It ends before a colon with a gap behind it, before a comment,
at the end of its line and, within brackets, before their marks. -/
def takePlain (inBrackets : Bool) (previous : Char) : List Char → List Char × List Char
  | [] => ([], [])
  | c :: rest =>
    let ends :=
      c = '\n' ||
      (c = ':' && (rest.head?.all fun next => isGap next || (inBrackets && isFlowMark next))) ||
      (c = '#' && isBlank previous) || (inBrackets && isFlowMark c)
    if ends then ([], c :: rest)
    else
      let (text, after) := takePlain inBrackets c rest
      (c :: text, after)

def trimRight (cs : List Char) : List Char := (cs.reverse.dropWhile isBlank).reverse

/-- The inside of a single-quoted text, up to and with the closing quote; two quotes stand for one. -/
def readSingleQuoted : List Char → Option (List Char × List Char)
  | [] => none
  | '\'' :: '\'' :: rest => do
    let (text, rest) ← readSingleQuoted rest
    some ('\'' :: text, rest)
  | '\'' :: rest => some ([], rest)
  | '\n' :: _ => none
  | c :: rest => do
    let (text, rest) ← readSingleQuoted rest
    some (c :: text, rest)

/-- The character of an escape with one letter. -/
def letterEscape? : Char → Option Char
  | '0' => some '\x00'
  | 'a' => some '\x07'
  | 'b' => some '\x08'
  | 't' | '\t' => some '\t'
  | 'n' => some '\n'
  | 'v' => some '\x0b'
  | 'f' => some '\x0c'
  | 'r' => some '\r'
  | 'e' => some '\x1b'
  | ' ' => some ' '
  | '"' => some '"'
  | '/' => some '/'
  | '\\' => some '\\'
  | 'N' => some '\u0085'
  | '_' => some '\u00a0'
  | 'L' => some '\u2028'
  | 'P' => some '\u2029'
  | _ => none

/-- The character with a hexadecimal code point. -/
def codePoint? (digits : List Char) : Option Char := do
  let n ← Plain.inBase? 16 digits
  if n.isValidChar then some (Char.ofNat n) else none

/-- The inside of a double-quoted text, up to and with the closing quote. -/
def readDoubleQuoted : List Char → Option (List Char × List Char)
  | [] => none
  | '"' :: rest => some ([], rest)
  | '\\' :: 'x' :: a :: b :: rest => do
    let c ← codePoint? [a, b]
    let (text, rest) ← readDoubleQuoted rest
    some (c :: text, rest)
  | '\\' :: 'u' :: a :: b :: c :: d :: rest => do
    let c ← codePoint? [a, b, c, d]
    let (text, rest) ← readDoubleQuoted rest
    some (c :: text, rest)
  | '\\' :: 'U' :: a :: b :: c :: d :: e :: f :: g :: h :: rest => do
    let c ← codePoint? [a, b, c, d, e, f, g, h]
    let (text, rest) ← readDoubleQuoted rest
    some (c :: text, rest)
  | '\\' :: letter :: rest => do
    let c ← letterEscape? letter
    let (text, rest) ← readDoubleQuoted rest
    some (c :: text, rest)
  | '\n' :: _ => none
  | c :: rest => do
    let (text, rest) ← readDoubleQuoted rest
    some (c :: text, rest)

/-- A scalar and what follows it: its characters, and whether it is plain. -/
def readScalar (inBrackets : Bool) (cs : List Char) : Option (List Char × Bool × List Char) := do
  match cs with
  | '"' :: rest =>
    let (text, rest) ← readDoubleQuoted rest
    some (text, false, rest)
  | '\'' :: rest =>
    let (text, rest) ← readSingleQuoted rest
    some (text, false, rest)
  | _ =>
    if startsPlain cs then
      let (text, rest) := takePlain inBrackets ' ' cs
      some (trimRight text, true, rest)
    else none

/-- The value of a scalar, which is a word if it is plain and a text if it is quoted. -/
def scalarValue (text : List Char) (plain : Bool) : Value :=
  if plain then .plain (String.ofList text) else .text (String.ofList text)

/-- What stands where nothing is written. -/
def nothing : Value := .plain ""

/-! ## In brackets -/

mutual

/-- A value in brackets or a scalar, and what follows it. -/
def readFlow : (fuel : Nat) → List Char → Option (Value × List Char)
  | 0, _ => none
  | fuel + 1, cs =>
    match skipGap false cs with
    | '[' :: rest => do
      let (items, rest) ← readFlowItems fuel rest
      some (.list items, rest)
    | '\x7b' :: rest => do
      let (fields, rest) ← readFlowFields fuel rest
      some (.record fields, rest)
    | cs => do
      let (text, plain, rest) ← readScalar true cs
      some (scalarValue text plain, rest)

/-- Items up to and with the closing bracket. A comma may follow the last one. -/
def readFlowItems : (fuel : Nat) → List Char → Option (List Value × List Char)
  | 0, _ => none
  | fuel + 1, cs =>
    match skipGap false cs with
    | ']' :: rest => some ([], rest)
    | cs => do
      let (item, rest) ← readFlow fuel cs
      match skipGap false rest with
      | ',' :: rest =>
        let (items, rest) ← readFlowItems fuel rest
        some (item :: items, rest)
      | ']' :: rest => some ([item], rest)
      | _ => none

/-- Fields up to and with the closing brace. A comma may follow the last one. -/
def readFlowFields : (fuel : Nat) → List Char → Option (List (String × Value) × List Char)
  | 0, _ => none
  | fuel + 1, cs =>
    match skipGap false cs with
    | '\x7d' :: rest => some ([], rest)
    | cs => do
      let (name, _, rest) ← readScalar true cs
      let (value, rest) ← readFlowValue fuel (skipGap false rest)
      let field := (String.ofList name, value)
      match skipGap false rest with
      | ',' :: rest =>
        let (fields, rest) ← readFlowFields fuel rest
        some (field :: fields, rest)
      | '\x7d' :: rest => some ([field], rest)
      | _ => none

/-- The value of a field behind its colon, which may be missing, or both. -/
def readFlowValue : (fuel : Nat) → List Char → Option (Value × List Char)
  | 0, _ => none
  | fuel + 1, ':' :: rest =>
    match skipGap false rest with
    | [] => none
    | c :: rest => if c = ',' || c = '\x7d' then some (nothing, c :: rest) else readFlow fuel (c :: rest)
  | _, rest => some (nothing, rest)

end

/-- The name of a field and the rest of the line behind its colon. -/
def key? (cs : List Char) : Option (String × List Char) := do
  let (name, _, rest) ← readScalar false cs
  match skipBlank rest with
  | ':' :: rest =>
    if rest.head?.all isBlank then some (String.ofList name, rest) else none
  | _ => none

/-! ## Lines -/

/-- A line that is not bare, without its indentation. -/
structure Line where
  indent : Nat
  text : List Char

/-- A line with its indentation counted off, unless it is bare. -/
def Line.of? (cs : List Char) : Option Line :=
  let (spaces, text) := cs.span (· = ' ')
  if isBare text then none else some ⟨spaces.length, text⟩

/-- The line has a dash in front and is an item of a list. -/
def Line.isItem (line : Line) : Bool :=
  match line.text with
  | ['-'] => true
  | '-' :: c :: _ => isBlank c
  | _ => false

/-- An item as a line of its own, without the dash. -/
def Line.item? (line : Line) : Option Line :=
  let inside := line.text.drop 1
  if isBare inside then none
  else
    let text := inside.dropWhile (· = ' ')
    some ⟨line.indent + (line.text.length - text.length), text⟩

/-- A value in brackets that begins with the given characters and may go on over the next lines, and the
lines behind it. -/
def readBracketed (cs : List Char) (lines : List Line) : Option (Value × List Line) :=
  match readFlow (3 * cs.length + 3) cs, lines with
  | some (value, rest), lines => if isBare rest then some (value, lines) else none
  | none, [] => none
  | none, line :: lines => readBracketed (cs ++ '\n' :: line.text) lines

/-- A value that takes the rest of a line or, in brackets, of several, and the lines behind it. -/
def readInline (cs : List Char) (lines : List Line) : Option (Value × List Line) :=
  match cs with
  | c :: _ => do
    if c = '[' || c = '\x7b' then readBracketed cs lines
    else
      let (text, plain, rest) ← readScalar false cs
      if isBare rest then some (scalarValue text plain, lines) else none
  | [] => none

mutual

/-- The value on the first lines, if they are indented by `indent` or more, and otherwise nothing. -/
def readNode : (fuel : Nat) → (indent : Nat) → List Line → Option (Value × List Line)
  | 0, _, _ => none
  | _, _, [] => some (nothing, [])
  | fuel + 1, indent, line :: lines =>
    if line.indent < indent then some (nothing, line :: lines)
    else if line.isItem then do
      let (items, rest) ← readItems fuel line.indent (line :: lines)
      some (.list items, rest)
    else if (key? line.text).isSome then do
      let (fields, rest) ← readFields fuel line.indent (line :: lines)
      some (.record fields, rest)
    else readInline line.text lines

/-- The items of a list whose dashes are indented by `indent`. -/
def readItems : (fuel : Nat) → (indent : Nat) → List Line → Option (List Value × List Line)
  | 0, _, _ => none
  | _, _, [] => some ([], [])
  | fuel + 1, indent, line :: lines =>
    if line.indent = indent ∧ line.isItem then do
      let (item, rest) ← readNode fuel (indent + 1) (line.item?.toList ++ lines)
      let (items, rest) ← readItems fuel indent rest
      some (item :: items, rest)
    else some ([], line :: lines)

/-- The fields of a record whose names are indented by `indent`. A list may start below its name
without further indentation. -/
def readFields : (fuel : Nat) → (indent : Nat) → List Line →
    Option (List (String × Value) × List Line)
  | 0, _, _ => none
  | _, _, [] => some ([], [])
  | fuel + 1, indent, line :: lines =>
    if line.indent = indent ∧ !line.isItem then do
      let (name, inside) ← key? line.text
      let (value, rest) ←
        if isBare inside then
          match lines with
          | next :: _ =>
            readNode fuel (if next.isItem then indent else indent + 1) lines
          | [] => some (nothing, [])
        else readInline (skipBlank inside) lines
      let (fields, rest) ← readFields fuel indent rest
      some ((name, value) :: fields, rest)
    else some ([], line :: lines)

end

/-- Characters that a text may hold: no controls but tabs and line ends. -/
def isAllowed (c : Char) : Bool :=
  c = '\t' || c = '\n' || c = '\r' || (' ' ≤ c && c ≤ '~') || c = '\u0085' ||
    ('\u00a0' ≤ c && c ≠ '\ufeff' && c ≠ '\ufffe' && c ≠ '\uffff')

/-- The characters behind a byte order mark. -/
def withoutOrderMark (text : String) : List Char :=
  match text.toList with
  | '\ufeff' :: cs => cs
  | cs => cs

/-- The lines of a text, without carriage returns at their ends. -/
def linesOf (cs : List Char) : List (List Char) :=
  (cs.splitOn '\n').map fun line => (line.reverse.dropWhile (· = '\r')).reverse

/-- The line marks where a document begins. -/
def Line.isMark (line : Line) : Bool :=
  line.indent = 0 && line.text.take 3 = ['-', '-', '-'] && isBare (line.text.drop 3)

/-- The line marks where a document ends. -/
def Line.isEnd (line : Line) : Bool :=
  line.indent = 0 && line.text.take 3 = ['.', '.', '.'] && isBare (line.text.drop 3)

/-- The lines of a document without the marks at its ends. -/
def unmarked (lines : List Line) : List Line :=
  let lines := if lines.head?.any (·.isMark) then lines.drop 1 else lines
  if lines.getLast?.any (·.isEnd) then lines.dropLast else lines

/-- The value of a whole text; marks may stand where it begins and ends. Every line starts three values
at most for each of its characters. -/
def read? (text : String) : Option Value := do
  let cs := withoutOrderMark text
  let lines := unmarked ((linesOf cs).filterMap Line.of?)
  let (value, rest) ← readNode (3 * cs.length + 3) 0 lines
  if cs.all isAllowed && rest.isEmpty then some value else none

end Sapling.Data.Yaml
