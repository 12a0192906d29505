import Phrasebook.Json.Scan

namespace Phrasebook.Json

/-- The text after a string whose opening quote has been read. -/
def skipString : List Char → Except Fault (List Char)
  | [] => .error (.here .endInString [])
  | '"' :: cs => .ok cs
  | ['\\'] => .error (.here .endInString [])
  | '\\' :: 'u' :: w :: x :: y :: z :: cs =>
    match codeUnit? w x y z with
    | none => .error (badCodeUnit (w :: x :: y :: z :: cs))
    | some _ => skipString cs
  | '\\' :: 'u' :: cs => .error (badCodeUnit cs)
  | '\\' :: c :: cs =>
    match shortEscape? c with
    | none => .error (.next .badEscape (c :: cs))
    | some _ => skipString cs
  | c :: cs =>
    if c.toNat < 0x20 then .error (.here .controlCharacter (c :: cs)) else skipString cs

/-- The text after a member's key and colon, at the opening quote of the key. -/
def skipKey (cs : List Char) : Except Fault (List Char) :=
  match skipBlanks cs with
  | [] => .error (.here .endInObject [])
  | '"' :: rest => do
    let rest ← skipString rest
    match skipBlanks rest with
    | [] => throw (.here .endInObject [])
    | ':' :: rest => return rest
    | rest => throw (.next .noColon rest)
  | rest => .error (.next .keyNotString rest)

mutual

/-- The text after a value. `fuel` bounds the nesting and the number of elements. -/
def skipValue : Nat → List Char → Except Fault (List Char)
  | 0, cs => .error (.here .endInValue cs)
  | fuel + 1, cs =>
    match skipBlanks cs with
    | [] => .error (.here .endInValue [])
    | 'n' :: rest => keyword "ull".toList rest
    | 't' :: rest => keyword "rue".toList rest
    | 'f' :: rest => keyword "alse".toList rest
    | '"' :: rest => skipString rest
    | '[' :: rest => skipElements fuel true rest
    | '\x7b' :: rest => skipMembers fuel true rest
    | c :: rest =>
      if c == '-' || c.isDigit then (numeral .badNumber (c :: rest)).map (·.2)
      else .error (.next .noValue (c :: rest))

/-- The text after a list that is open. -/
def skipElements : Nat → Bool → List Char → Except Fault (List Char)
  | 0, _, cs => .error (.here .endInList cs)
  | fuel + 1, first, cs =>
    match skipBlanks cs with
    | [] => .error (.here .endInList [])
    | ']' :: rest => .ok rest
    | c :: rest => do
      if first then
        let rest ← skipValue fuel (c :: rest)
        skipElements fuel false rest
      else if c = ',' then
        let rest ← skipValue fuel rest
        skipElements fuel false rest
      else throw (.next .noCommaOrListEnd (c :: rest))

/-- The text after an object that is open. -/
def skipMembers : Nat → Bool → List Char → Except Fault (List Char)
  | 0, _, cs => .error (.here .endInObject cs)
  | fuel + 1, first, cs =>
    match skipBlanks cs with
    | [] => .error (.here .endInObject [])
    | '\x7d' :: rest => .ok rest
    | c :: rest => do
      if first then
        let rest ← skipValue fuel (← skipKey (c :: rest))
        skipMembers fuel false rest
      else if c = ',' then
        let rest ← skipValue fuel (← skipKey rest)
        skipMembers fuel false rest
      else throw (.next .noCommaOrObjectEnd (c :: rest))

end

/-- The text after a value. It must be JSON, but containers may nest to any depth, numbers may have
any size, and escaped surrogates need no partner. -/
def skip (cs : List Char) : Except Fault (List Char) :=
  skipValue (2 * cs.length + 2) cs

end Phrasebook.Json
