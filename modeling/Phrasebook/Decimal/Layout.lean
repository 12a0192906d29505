import Phrasebook.Decimal.Shortest

namespace Phrasebook

/-- The choices of a number format. -/
structure NumberLayout where
  tie : Tie
  /-- The exponents of the first digit that are written positionally; all of them without bounds. -/
  positional : Option (Int × Int)
  /-- Whether a whole number ends in `.0`. -/
  keepsPoint : Bool

namespace NumberLayout

/-- Values in phrases: never an exponent, never a bare `.0`; a tie goes up. -/
def value : NumberLayout := ⟨.up, none, false⟩

/-- Numbers named in reading faults: positional between `10 ^ -5` and `10 ^ 16`, with the point
kept; a tie goes to the even digit. -/
def fault : NumberLayout := ⟨.toEven, some (-5, 15), true⟩

def zeros (n : Nat) : String := String.ofList (List.replicate n '0')

/-- Writes a decimal without an exponent. -/
def writePositional (layout : NumberLayout) (d : Decimal) : String :=
  let digits := Nat.toDigits 10 d.coefficient
  let whole := digits.length + d.power
  if 0 ≤ d.power then
    String.ofList digits ++ zeros d.power.toNat ++ (if layout.keepsPoint then ".0" else "")
  else if 0 < whole then
    String.ofList (digits.take whole.toNat) ++ "." ++ String.ofList (digits.drop whole.toNat)
  else "0." ++ zeros (-whole).toNat ++ String.ofList digits

/-- Writes a decimal with one digit before the point and a signed exponent. -/
def writeScientific (d : Decimal) : String :=
  let digits := Nat.toDigits 10 d.coefficient
  let exponent : Int := digits.length + d.power - 1
  let sign := if 0 ≤ exponent then "+" else "-"
  let mantissa := match digits with
    | [] => ""
    | [c] => String.singleton c
    | c :: cs => String.singleton c ++ "." ++ String.ofList cs
  mantissa ++ "e" ++ sign ++ Nat.repr exponent.natAbs

def writeDecimal (layout : NumberLayout) (d : Decimal) : String :=
  match layout.positional with
  | none => layout.writePositional d
  | some (least, greatest) =>
    let exponent : Int := (Nat.toDigits 10 d.coefficient).length + d.power - 1
    if d.coefficient = 0 ∨ (least ≤ exponent ∧ exponent ≤ greatest) then layout.writePositional d
    else writeScientific d

def sign (negative : Bool) : String := if negative then "-" else ""

/-- Writes a number; what is no number has no sign. -/
def write (layout : NumberLayout) : Binary64 → String
  | .nan => "NaN"
  | .infinite negative => sign negative ++ "inf"
  | .finite negative mantissa exponent =>
    sign negative ++ layout.writeDecimal (Decimal.shortest layout.tie mantissa exponent)

end NumberLayout

end Phrasebook
