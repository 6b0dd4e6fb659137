import Sapling.Scalar
/-!
Decimal numbers as they are written: a sign, a whole number of units and the power of ten that a unit
stands for. Reading one as a binary number rounds to nearest, either at once or through a double; a binary
number is written as the shortest decimal that reads back, or with a fixed count of places.
-/
namespace Sapling

/-- The number `± digits * 10 ^ exponent`. -/
structure Decimal where
  negative : Bool
  digits : Nat
  exponent : Int
deriving DecidableEq, Repr

namespace Decimal

/-- A power of ten. -/
def tenTo (n : Nat) : Nat := Nat.pow 10 n

/-- An exponent not far from zero that gives the same nearest numbers: both formats end well before
`10 ^ 400` and start well after `10 ^ -399`. -/
def nearExponent (d : Decimal) : Int :=
  max (-400 - (d.digits.log2 : Int)) (min d.exponent 400)

/-- The single nearest to the decimal. -/
def toSingle (d : Decimal) : Float32 :=
  let magnitude := Float32.ofScientific d.digits (d.nearExponent < 0) d.nearExponent.natAbs
  if d.negative then -magnitude else magnitude

/-- The double nearest to the decimal. -/
def toDouble (d : Decimal) : Float :=
  let magnitude := Float.ofScientific d.digits (d.nearExponent < 0) d.nearExponent.natAbs
  if d.negative then -magnitude else magnitude

/-- The single nearest to the double nearest to the decimal. -/
def toSingleThroughDouble (d : Decimal) : Float32 := Scalar.ofDouble d.toDouble

/-- The value of a digit string, most significant digit first. Other characters count as zero. -/
def ofDigits (cs : List Char) : Nat :=
  cs.foldl (fun n c => 10 * n + (if c.isDigit then c.toNat - '0'.toNat else 0)) 0

/-! ## Shortest decimals

The shortest decimal of a single: of the decimals that read back as the number, one with the fewest
digits, and of those the nearest to it. A number `m * 2 ^ e` owns the reals that round to it; decimal
grids are tried from coarse to fine, and on each grid only the two points around the number can lie in
that interval first.
-/

open Float.Model
open UnpackedFloat (Sign)

/-- The reals that round to a number, in quarters of its last binary place. -/
structure RoundingInterval where
  /-- The weight of a quarter is `2 ^ exponent`. -/
  exponent : Int
  low : Nat
  center : Nat
  high : Nat
  /-- The two ends round to the number too. -/
  closed : Bool

/-- The interval of `mantissa * 2 ^ exponent`. Below a power of two the numbers lie twice as dense,
except at the bottom of the exponent range. -/
def RoundingInterval.of (mantissa : Nat) (exponent : Int) : RoundingInterval where
  exponent := exponent - 2
  low := if mantissa = 0x800000 ∧ Format.minExponent .binary32 < exponent then 4 * mantissa - 1
    else 4 * mantissa - 2
  center := 4 * mantissa
  high := 4 * mantissa + 2
  closed := mantissa % 2 = 0

namespace RoundingInterval

/-- A quarter as a fraction of `10 ^ power`: numerator and denominator. -/
def quarter (i : RoundingInterval) (power : Int) : Nat × Nat :=
  (tenTo (-power).toNat <<< i.exponent.toNat, tenTo power.toNat <<< (-i.exponent).toNat)

/-- The point `units * 10 ^ power` lies in the interval. -/
def holds (i : RoundingInterval) (power : Int) (units : Nat) : Bool :=
  let (num, den) := i.quarter power
  if i.closed then i.low * num ≤ units * den && units * den ≤ i.high * num
  else i.low * num < units * den && units * den < i.high * num

/-- The point of the grid of `10 ^ power` to use, if one lies in the interval: the nearer of the two
neighbours of the center, and the larger of two equally near. -/
def onGrid? (i : RoundingInterval) (power : Int) : Option Nat :=
  let (num, den) := i.quarter power
  let below := i.center * num / den
  let above := below + 1
  match i.holds power below, i.holds power above with
  | true, true => if 2 * (i.center * num) < (below + above) * den then some below else some above
  | true, false => some below
  | false, true => some above
  | false, false => none

/-- The first hit on `tries` grids, each ten times finer than the one before; after those, the last
point below the center. Nine digits always suffice for a single. -/
def search (i : RoundingInterval) : (tries : Nat) → (power : Int) → Nat × Int
  | 0, power => let (num, den) := i.quarter power; (i.center * num / den, power)
  | tries + 1, power =>
    match i.onGrid? power with
    | some units => (units, power)
    | none => i.search tries (power - 1)

end RoundingInterval

/-- A power of ten above `mantissa * 2 ^ exponent`, less than a thousand times as large. -/
def powerAbove (mantissa : Nat) (exponent : Int) : Int :=
  ((mantissa.log2 + 1 + exponent) * 30103).fdiv 100000 + 1

/-- The shortest decimal of a finite number. -/
def shortest? (x : Float32) : Option Decimal :=
  match x.toModel.unpack with
  | .finite sign mantissa exponent _ =>
    let (digits, power) := (RoundingInterval.of mantissa exponent).search 12 (powerAbove mantissa exponent)
    some ⟨sign == .negative, digits, power⟩
  | .zero sign => some ⟨sign == .negative, 0, 0⟩
  | _ => none

end Decimal

/-! ## Layouts

How a decimal is laid out as text: positionally, or with one digit before the point and an exponent.
-/

namespace Decimal

/-- The choices a format makes when it writes a number. -/
structure Layout where
  /-- A whole number is written with one zero after the point. -/
  wholePoint : Bool
  /-- Whether a number whose first digit has this power of ten is written positionally. -/
  positional : Int → Bool

/-- Plain digits, however many zeros that takes. -/
def plain : Layout := ⟨false, fun _ => true⟩

/-- Positional from `0.0001` to below `10 ^ 16`, and always with a point or an exponent. -/
def pointed : Layout := ⟨true, fun power => -4 ≤ power && power < 16⟩

private def zeros (n : Nat) : String := String.ofList (List.replicate n '0')

/-- The digits of a whole number with the point placed `point` digits after the first one's left side. -/
def placePoint (wholePoint : Bool) (digits : List Char) (point : Int) : String :=
  if point ≤ 0 then "0." ++ zeros (-point).toNat ++ String.ofList digits
  else if digits.length ≤ point then
    String.ofList digits ++ zeros (point - digits.length).toNat ++ (if wholePoint then ".0" else "")
  else String.ofList (digits.take point.toNat) ++ "." ++ String.ofList (digits.drop point.toNat)

/-- The text of a decimal without trailing zeros in its digits. -/
def render (layout : Layout) (d : Decimal) : String :=
  let sign := if d.negative then "-" else ""
  let digits := (toString d.digits).toList
  let power := d.exponent + digits.length - 1
  if d.digits = 0 then sign ++ (if layout.wholePoint then "0.0" else "0")
  else if layout.positional power then sign ++ placePoint layout.wholePoint digits (power + 1)
  else
    let fraction := match digits.drop 1 with
      | [] => ""
      | rest => "." ++ String.ofList rest
    sign ++ String.ofList (digits.take 1) ++ fraction ++ "e" ++ toString power

/-- The words for the numbers that have no digits. -/
def nonFinite (x : Float32) : String :=
  if x.isNaN then "NaN" else if x < 0 then "-inf" else "inf"

/-- The shortest text of any single. -/
def text (layout : Layout) (x : Float32) : String :=
  match shortest? x with
  | some d => d.render layout
  | none => nonFinite x

/-! ## Fixed places

Numbers with a fixed count of places after the point. The exact binary value is rounded, and a half
goes to the even last digit.
-/

open Float.Model
open UnpackedFloat (Sign)

/-- The whole number nearest to `num / den`, of two the even one. -/
def roundQuotient (num den : Nat) : Nat :=
  let quotient := num / den
  match compare (2 * (num % den)) den with
  | .lt => quotient
  | .eq => quotient + quotient % 2
  | .gt => quotient + 1

/-- `units` of the last of `places` places, written with a point. -/
def placeFixed (places units : Nat) : String :=
  let fraction := toString (units % tenTo places)
  toString (units / tenTo places) ++ "." ++ "".pushn '0' (places - fraction.length) ++ fraction

/-- A single with `places` places, at least one. The sign of a number that rounds to zero is kept. -/
def fixed (places : Nat) (x : Float32) : String :=
  let write (sign : Sign) (units : Nat) : String :=
    (if sign == .negative then "-" else "") ++ placeFixed places units
  match x.toModel.unpack with
  | .finite sign mantissa exponent _ =>
    write sign (roundQuotient ((mantissa * tenTo places) <<< exponent.toNat) (1 <<< (-exponent).toNat))
  | .zero sign => write sign 0
  | _ => nonFinite x

end Decimal

/-! ## Reading

Numbers as they are typed by hand: a sign may stand in front, a point anywhere among the digits, and an
exponent behind them. Words stand for the numbers that have no digits.
-/

namespace Decimal

/-- A sign and what follows it. Without a sign the number is positive. -/
def takeSign : List Char → Bool × List Char
  | '-' :: rest => (true, rest)
  | '+' :: rest => (false, rest)
  | cs => (false, cs)

/-- A whole number from digits alone. -/
def natural? (cs : List Char) : Option Nat :=
  if cs ≠ [] ∧ cs.all Char.isDigit then some (ofDigits cs) else none

/-- A whole number with a sign. -/
def integer? (cs : List Char) : Option Int := do
  let (negative, digits) := takeSign cs
  let magnitude ← natural? digits
  some (if negative then -magnitude else magnitude)

/-- A whole number with a plus sign or none. -/
def unsigned? : List Char → Option Nat
  | '+' :: digits => natural? digits
  | digits => natural? digits

/-- An exponent, zero where none is written. -/
def exponent? : List Char → Option Int
  | [] => some 0
  | e :: rest => if e = 'e' || e = 'E' then integer? rest else none

/-- A number with digits before the point, after it or on both sides. -/
def ofText? (cs : List Char) : Option Decimal := do
  let (negative, cs) := takeSign cs
  let (whole, rest) := cs.span Char.isDigit
  let (fraction, rest) := match rest with
    | '.' :: rest => rest.span Char.isDigit
    | rest => ([], rest)
  let exponent ← exponent? rest
  if whole = [] ∧ fraction = [] then none
  else some ⟨negative, ofDigits (whole ++ fraction), exponent - fraction.length⟩

/-- The magnitude that a word stands for, in letters of either case. -/
def word? (cs : List Char) : Option Float32 :=
  let name := String.ofList (cs.map Char.toLower)
  if name = "inf" ∨ name = "infinity" then some Scalar.infinity
  else if name = "nan" then some Scalar.notANumber
  else none

/-- The single that a text stands for. -/
def readSingle? (cs : List Char) : Option Float32 :=
  match ofText? cs with
  | some d => some d.toSingle
  | none =>
    let (negative, name) := takeSign cs
    (word? name).map fun magnitude => if negative then -magnitude else magnitude

end Decimal

end Sapling
