import Phrasebook.Json.Fault

namespace Phrasebook.Json

def isBlank (c : Char) : Bool :=
  c == ' ' || c == '\n' || c == '\t' || c == '\r'

def skipBlanks (cs : List Char) : List Char := cs.dropWhile isBlank

/-- The rest of a keyword whose first character has been read. -/
def keyword : List Char → List Char → Except Fault (List Char)
  | [], cs => .ok cs
  | _ :: _, [] => .error (.here .endInValue [])
  | k :: ks, c :: cs => if k = c then keyword ks cs else .error (.next .badKeyword (c :: cs))

def hexValue? (c : Char) : Option Nat :=
  if '0' ≤ c ∧ c ≤ '9' then some (c.toNat - '0'.toNat)
  else if 'a' ≤ c ∧ c ≤ 'f' then some (c.toNat - 'a'.toNat + 10)
  else if 'A' ≤ c ∧ c ≤ 'F' then some (c.toNat - 'A'.toNat + 10)
  else none

/-- The value of four hexadecimal digits. -/
def codeUnit? (a b c d : Char) : Option Nat := do
  return 4096 * (← hexValue? a) + 256 * (← hexValue? b) + 16 * (← hexValue? c) + (← hexValue? d)

/-- The fault where four hexadecimal digits should stand. -/
def badCodeUnit (cs : List Char) : Fault :=
  if Text.byteLength cs < 4 then .here .endInString []
  else ⟨.badEscape, Text.byteLength cs - 4⟩

/-- The character of a one-letter escape. -/
def shortEscape? : Char → Option Char
  | '"' => some '"'
  | '\\' => some '\\'
  | '/' => some '/'
  | 'b' => some '\x08'
  | 'f' => some '\x0c'
  | 'n' => some '\n'
  | 'r' => some '\r'
  | 't' => some '\t'
  | _ => none

def isLeading (unit : Nat) : Bool := 0xD800 ≤ unit && unit ≤ 0xDBFF
def isTrailing (unit : Nat) : Bool := 0xDC00 ≤ unit && unit ≤ 0xDFFF

/-- The character of a surrogate pair. -/
def pairedChar (leading trailing : Nat) : Char :=
  Char.ofNat (0x10000 + 1024 * (leading - 0xD800) + (trailing - 0xDC00))

/-- A string after its opening quote. -/
def stringTail : List Char → Except Fault (List Char × List Char)
  | [] => .error (.here .endInString [])
  | '"' :: cs => .ok ([], cs)
  | ['\\'] => .error (.here .endInString [])
  | '\\' :: 'u' :: w :: x :: y :: z :: cs =>
    match codeUnit? w x y z with
    | none => .error (badCodeUnit (w :: x :: y :: z :: cs))
    | some unit =>
      if isTrailing unit then .error (.here .loneSurrogate cs)
      else if isLeading unit then
        match cs with
        | [] => .error (.here .endInString [])
        | ['\\'] => .error (.here .endInString [])
        | '\\' :: 'u' :: w' :: x' :: y' :: z' :: cs =>
          match codeUnit? w' x' y' z' with
          | none => .error (badCodeUnit (w' :: x' :: y' :: z' :: cs))
          | some unit' =>
            if isTrailing unit' then do
              let (rest, after) ← stringTail cs
              return (pairedChar unit unit' :: rest, after)
            else .error (.here .loneSurrogate cs)
        | '\\' :: 'u' :: cs => .error (badCodeUnit cs)
        | '\\' :: c :: cs => .error (.next .halfSurrogatePair (c :: cs))
        | c :: cs => .error (.next .halfSurrogatePair (c :: cs))
      else do
        let (rest, after) ← stringTail cs
        return (Char.ofNat unit :: rest, after)
  | '\\' :: 'u' :: cs => .error (badCodeUnit cs)
  | '\\' :: c :: cs =>
    match shortEscape? c with
    | none => .error (.next .badEscape (c :: cs))
    | some e => do
      let (rest, after) ← stringTail cs
      return (e :: rest, after)
  | c :: cs =>
    if c.toNat < 0x20 then .error (.next .controlCharacter (c :: cs))
    else do
      let (rest, after) ← stringTail cs
      return (c :: rest, after)

/-- A string after its opening quote. -/
def string (cs : List Char) : Except Fault (String × List Char) := do
  let (content, rest) ← stringTail cs
  return (String.ofList content, rest)

/-- A number as written. -/
structure Numeral where
  negative : Bool
  whole : List Char
  fraction : List Char
  /-- Sign and digits of the exponent; `true` for minus. -/
  exponent : Option (Bool × List Char)
  /-- Whether there is a point. -/
  pointed : Bool

def digits (cs : List Char) : List Char × List Char :=
  (cs.takeWhile Char.isDigit, cs.dropWhile Char.isDigit)

/-- Digits, at least one. `atEnd` is the fault where the text ends too early. -/
def someDigits (atEnd : Cause) (cs : List Char) : Except Fault (List Char × List Char) :=
  match digits cs with
  | ([], []) => .error (.here atEnd [])
  | ([], rest) => .error (.next .badNumber rest)
  | (ds, rest) => .ok (ds, rest)

/-- The digits of a whole number; only zero begins with a zero. -/
def wholePart (atEnd : Cause) (cs : List Char) : Except Fault (List Char × List Char) :=
  match cs with
  | '0' :: c :: rest =>
    if c.isDigit then .error (.next .badNumber (c :: rest)) else .ok (['0'], c :: rest)
  | cs => someDigits atEnd cs

/-- The digits after the point, if there is one. -/
def fractionPart (atEnd : Cause) (cs : List Char) :
    Except Fault ((Bool × List Char) × List Char) :=
  match cs with
  | '.' :: rest => do
    let (ds, rest) ← someDigits atEnd rest
    return ((true, ds), rest)
  | cs => .ok ((false, []), cs)

/-- Whether there is a minus sign, and what follows the sign. -/
def sign (cs : List Char) : Bool × List Char :=
  match cs with
  | '+' :: rest => (false, rest)
  | '-' :: rest => (true, rest)
  | cs => (false, cs)

/-- Sign and digits of the exponent, if there is one. -/
def exponentPart (atEnd : Cause) (cs : List Char) :
    Except Fault (Option (Bool × List Char) × List Char) :=
  match cs with
  | [] => .ok (none, [])
  | c :: rest =>
    if c == 'e' || c == 'E' then do
      let (ds, after) ← someDigits atEnd (sign rest).2
      return (some ((sign rest).1, ds), after)
    else .ok (none, c :: rest)

/-- A number after its minus sign, if it has one. -/
def numeralTail (atEnd : Cause) (negative : Bool) (cs : List Char) :
    Except Fault (Numeral × List Char) := do
  let (whole, rest) ← wholePart atEnd cs
  let ((pointed, fraction), rest) ← fractionPart atEnd rest
  let (exponent, rest) ← exponentPart atEnd rest
  return (⟨negative, whole, fraction, exponent, pointed⟩, rest)

/-- A number, at its sign or first digit. -/
def numeral (atEnd : Cause) (cs : List Char) : Except Fault (Numeral × List Char) :=
  match cs with
  | '-' :: cs => numeralTail atEnd true cs
  | cs => numeralTail atEnd false cs

end Phrasebook.Json
