namespace Phrasebook

/-- A floating-point number; a finite one is `mantissa * 2 ^ exponent`. -/
inductive Binary64 where
  | nan
  | infinite (negative : Bool)
  | finite (negative : Bool) (mantissa : Nat) (exponent : Int)
deriving DecidableEq, Repr

namespace Binary64

/-- The exponent of the smallest positive number. -/
def leastExponent : Int := -1074

/-- The exponent at which numbers end. -/
def endExponent : Int := 1024

/-- Digits of a full mantissa. -/
def precision : Nat := 53

/-- The least full mantissa. -/
def leastFull : Nat := Nat.pow 2 (precision - 1)

/-- The quotient of two numbers, rounded to the nearest whole number, from a tie to the even one. -/
def roundDiv (num den : Nat) : Nat :=
  let q := num / den
  let r := num % den
  if 2 * r < den then q
  else if den < 2 * r then q + 1
  else q + q % 2

/-- The ratio `num / den` times a power of the base, again as a ratio. -/
def scaled (base num den : Nat) (power : Int) : Nat × Nat :=
  if 0 ≤ power then (num * base.pow power.toNat, den) else (num, den * base.pow (-power).toNat)

/-- The greatest `n` with `2 ^ n ≤ num / den`, for positive `num` and `den`. -/
def floorLog2 (num den : Nat) : Int :=
  let guess : Int := (Nat.log2 num : Int) - Nat.log2 den
  let (n, d) := scaled 2 num den (-guess)
  if d ≤ n then guess else guess - 1

/-- The number nearest to `num / den`, from a tie the one with an even mantissa. -/
def ofRatio (negative : Bool) (num den : Nat) : Binary64 :=
  if num = 0 then .finite negative 0 leastExponent
  else
    let exponent := max (floorLog2 num den - (precision - 1)) leastExponent
    let (n, d) := scaled 2 num den (-exponent)
    let mantissa := roundDiv n d
    let (mantissa, exponent) :=
      if mantissa = 2 * leastFull then (leastFull, exponent + 1)
      else (mantissa, exponent)
    if endExponent < exponent + precision then .infinite negative
    else .finite negative mantissa exponent

def zero : Binary64 := .finite false 0 leastExponent

def ofNat (n : Nat) : Binary64 := ofRatio false n 1

/-- The number nearest to `coefficient * 10 ^ power`. The bounds spare the computation of powers
that are out of range anyway. -/
def ofDecimal (negative : Bool) (coefficient : Nat) (power : Int) : Binary64 :=
  let digits : Int := (Nat.toDigits 10 coefficient).length
  if coefficient = 0 ∨ digits + power < -400 then .finite negative 0 leastExponent
  else if 400 < digits + power then .infinite negative
  else
    let (n, d) := scaled 10 coefficient 1 power
    ofRatio negative n d

def negate : Binary64 → Binary64
  | .nan => .nan
  | .infinite negative => .infinite !negative
  | .finite negative mantissa exponent => .finite (!negative) mantissa exponent

def isZero : Binary64 → Bool
  | .finite _ 0 _ => true
  | _ => false

/-- The product with a power of ten that is itself a floating-point number. -/
def timesPowerOfTen (x : Binary64) (power : Nat) : Binary64 :=
  match x, ofNat (Nat.pow 10 power) with
  | .finite negative m e, .finite _ m' e' =>
    let (n, d) := scaled 2 (m * m') 1 (e + e')
    ofRatio negative n d
  | x, _ => x

/-- The quotient by a power of ten that is itself a floating-point number. -/
def dividedByPowerOfTen (x : Binary64) (power : Nat) : Binary64 :=
  match x, ofNat (Nat.pow 10 power) with
  | .finite negative m e, .finite _ m' e' =>
    let (n, d) := scaled 2 m m' (e - e')
    ofRatio negative n d
  | x, _ => x

end Binary64

end Phrasebook
