import Phrasebook.Decimal.Binary64

namespace Phrasebook

/-- The decimal `coefficient * 10 ^ power`. -/
structure Decimal where
  coefficient : Nat
  power : Int
deriving DecidableEq, Repr

/-- Which of two equally near decimals is taken. -/
inductive Tie where
  | up
  | toEven
deriving DecidableEq, Repr

namespace Decimal

/-- Moves the zeros at the end of the coefficient into the power; `fuel` bounds their number. -/
def trim : Nat → Decimal → Decimal
  | 0, d => d
  | fuel + 1, d =>
    if d.coefficient ≠ 0 ∧ d.coefficient % 10 = 0 then
      trim fuel ⟨d.coefficient / 10, d.power + 1⟩
    else d

/-- The greatest `n` with `10 ^ n ≤ num / den`, for positive `num` and `den`. -/
def floorLog10 (num den : Nat) : Int :=
  let guess : Int := (Nat.toDigits 10 num).length - (Nat.toDigits 10 den).length
  let (n, d) := Binary64.scaled 10 num den (-guess)
  if d ≤ n then guess else guess - 1

/-- The numbers that read back as a given one lie between two bounds, here over one denominator. -/
structure Interval where
  low : Nat
  value : Nat
  high : Nat
  den : Nat
  /-- Whether the bounds themselves read back. -/
  closed : Bool

/-- Halfway to both neighbours of `mantissa * 2 ^ exponent`. Below a power of two the neighbour is
half as far as above. -/
def Interval.around (mantissa : Nat) (exponent : Int) : Interval :=
  let below :=
    if mantissa = Binary64.leastFull ∧ Binary64.leastExponent < exponent then 1 else 2
  let (unit, den) := Binary64.scaled 2 1 1 (exponent - 2)
  { low := (4 * mantissa - below) * unit
    value := 4 * mantissa * unit
    high := (4 * mantissa + 2) * unit
    den := den
    closed := mantissa % 2 = 0 }

/-- Whether `coefficient * 10 ^ power` lies in the interval. -/
def Interval.contains (i : Interval) (coefficient : Nat) (power : Int) : Bool :=
  let (n, d) := Binary64.scaled 10 coefficient 1 power
  let x := n * i.den
  if i.closed then i.low * d ≤ x && x ≤ i.high * d
  else i.low * d < x && x < i.high * d

/-- Of the two decimals at `power` on either side of the value, the nearer one in the interval. -/
def Interval.nearest? (i : Interval) (tie : Tie) (power : Int) : Option Nat :=
  let (n, d) := Binary64.scaled 10 i.value i.den (-power)
  let below := n / d
  let rest := n % d
  match i.contains below power, i.contains (below + 1) power with
  | true, true =>
    if 2 * rest < d then some below
    else if d < 2 * rest then some (below + 1)
    else match tie with
      | .up => some (below + 1)
      | .toEven => some (below + below % 2)
  | true, false => some below
  | false, true => some (below + 1)
  | false, false => none

/-- Tries coefficients of more and more digits; seventeen always suffice. -/
def Interval.search (i : Interval) (tie : Tie) (power : Int) : Nat → Decimal
  | 0 => ⟨(i.nearest? tie power).getD 0, power⟩
  | left + 1 =>
    match i.nearest? tie power with
    | some coefficient => ⟨coefficient, power⟩
    | none => i.search tie (power - 1) left

/-- The shortest decimal that reads back as `mantissa * 2 ^ exponent`, nearest to it. -/
def shortest (tie : Tie) (mantissa : Nat) (exponent : Int) : Decimal :=
  if mantissa = 0 then ⟨0, 0⟩
  else
    let i := Interval.around mantissa exponent
    trim 400 (i.search tie (floorLog10 i.value i.den) 16)

end Decimal

end Phrasebook
