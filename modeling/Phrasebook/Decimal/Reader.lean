import Phrasebook.Decimal.Binary64

namespace Phrasebook

/-- The value of a row of digits. -/
def digitsValue (digits : List Char) : Nat :=
  digits.foldl (fun n c => 10 * n + (c.toNat - '0'.toNat)) 0

/-- A sign, if there is one; `true` for minus. -/
def splitSign : List Char → Bool × List Char
  | '-' :: cs => (true, cs)
  | '+' :: cs => (false, cs)
  | cs => (false, cs)

def leastWhole : Int := -Nat.pow 2 63
def greatestWhole : Int := Nat.pow 2 63 - 1

/-- A whole number between the bounds of 64 bits. -/
def wholeNumber? (text : String) : Option Int :=
  let (negative, digits) := splitSign text.toList
  if digits.isEmpty || !digits.all Char.isDigit then none
  else
    let magnitude : Int := digitsValue digits
    let n := if negative then -magnitude else magnitude
    if leastWhole ≤ n ∧ n ≤ greatestWhole then some n else none

namespace Binary64

/-- The exponent after its mark. -/
def exponent? (cs : List Char) : Option Int :=
  let (negative, digits) := splitSign cs
  if digits.isEmpty || !digits.all Char.isDigit then none
  else
    let magnitude : Int := digitsValue digits
    some (if negative then -magnitude else magnitude)

/-- Digits, an optional point with digits, and an optional exponent. -/
def decimal? (negative : Bool) (cs : List Char) : Option Binary64 :=
  let whole := cs.takeWhile Char.isDigit
  let afterWhole := cs.dropWhile Char.isDigit
  let (fraction, rest) := match afterWhole with
    | '.' :: cs => (cs.takeWhile Char.isDigit, cs.dropWhile Char.isDigit)
    | cs => ([], cs)
  if whole.isEmpty && fraction.isEmpty then none
  else
    let value (power : Int) :=
      ofDecimal negative (digitsValue (whole ++ fraction)) (power - fraction.length)
    match rest with
    | [] => some (value 0)
    | c :: cs => if c == 'e' || c == 'E' then (exponent? cs).map value else none

/-- The number that a text spells, rounded to the nearest. -/
def ofText? (text : String) : Option Binary64 :=
  let (negative, cs) := splitSign text.toList
  match String.ofList (cs.map Char.toLower) with
  | "inf" | "infinity" => some (.infinite negative)
  | "nan" => some .nan
  | _ => decimal? negative cs

end Binary64

end Phrasebook
