import Phrasebook.Decimal.Reader
import Phrasebook.Json.Scan

namespace Phrasebook.Json

def greatestWord : Nat := Nat.pow 2 64 - 1

/-- The greatest exponent that is kept as written. -/
def greatestExponent : Nat := Nat.pow 2 31 - 1

/-- The greatest power of ten that is a floating-point number. -/
def greatestPower : Nat := 308

def digitValue (c : Char) : Nat := c.toNat - '0'.toNat

/-- Takes digits while the value stays within `bound`; also returns the digits that are left. -/
def absorb (bound value : Nat) : List Char → Nat × List Char
  | [] => (value, [])
  | d :: ds =>
    let next := 10 * value + digitValue d
    if next ≤ bound then absorb bound next ds else (value, d :: ds)

/-- Divides by `10 ^ power`, in steps that are floating-point numbers. -/
def scaleDown (x : Binary64) (power : Nat) : Binary64 :=
  if power ≤ greatestPower then x.dividedByPowerOfTen power
  else if x.isZero then x
  else scaleDown (x.dividedByPowerOfTen greatestPower) (power - greatestPower)
termination_by power
decreasing_by simp [greatestPower] at *; omega

/-- `significand * 10 ^ power`, unless it is too great. -/
def scale? (significand : Nat) (power : Int) : Option Binary64 :=
  let x := Binary64.ofNat significand
  if power < 0 then some (scaleDown x (-power).toNat)
  else if x.isZero then some x
  else if greatestPower < power then none
  else match x.timesPowerOfTen power.toNat with
    | .finite negative mantissa exponent => some (.finite negative mantissa exponent)
    | _ => none

namespace Numeral

/-- The number as a floating-point number; `rest` is the text after it. The leading digits that fit
a word are scaled by a power of ten in floating-point arithmetic, which nearly always gives the
nearest number, but not by rule. -/
def toFloat (n : Numeral) (rest : List Char) : Except Fault Binary64 := do
  let (whole, dropped) := absorb greatestWord 0 n.whole
  let (significand, ignored) := absorb greatestWord whole n.fraction
  let start : Int := dropped.length - (n.fraction.length - ignored.length : Nat)
  let signed (x : Binary64) := if n.negative then x.negate else x
  match n.exponent with
  | none =>
    match scale? significand start with
    | some x => return signed x
    | none => throw (.here .numberOutOfRange rest)
  | some (negative, digits) =>
    match absorb greatestExponent 0 digits with
    | (exponent, []) =>
      match scale? significand (if negative then start - exponent else start + exponent) with
      | some x => return signed x
      | none => throw (.here .numberOutOfRange rest)
    | (_, _ :: unread) =>
      if significand ≠ 0 ∧ !negative then throw (.here .numberOutOfRange (unread ++ rest))
      else return signed Binary64.zero

/-- The value of the number; `rest` is the text after it. A whole number is exact if it fits 64
bits with its sign; minus zero is not whole. -/
def value (n : Numeral) (rest : List Char) : Except Fault Content :=
  if n.pointed || n.exponent.isSome then Content.float <$> n.toFloat rest
  else
    let magnitude := digitsValue n.whole
    if !n.negative && magnitude ≤ greatestWord then .ok (.integer magnitude)
    else if n.negative && 0 < magnitude && magnitude ≤ Nat.pow 2 63 then .ok (.integer (-magnitude))
    else Content.float <$> n.toFloat rest

end Numeral

end Phrasebook.Json
