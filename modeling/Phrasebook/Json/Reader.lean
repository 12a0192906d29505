import Phrasebook.Json.Number

namespace Phrasebook.Json

/-- Reads a value from the front of a text, where so many containers may be open, and returns what
follows. The first fault in reading order counts. -/
def Reader (α : Type) : Type := Nat → List Char → Except Fault (α × List Char)

/-- Containers that may be open at once, and one. -/
def depthLimit : Nat := 128

/-- Opens one more container at the bracket `cs` starts with. -/
def descend (depth : Nat) (cs : List Char) : Except Fault Nat :=
  if depth ≤ 1 then .error (.next .tooDeep cs) else .ok (depth - 1)

/-- A value that is no container, at its first character. -/
def scalar (cs : List Char) : Except Fault (Content × List Char) :=
  match cs with
  | 'n' :: rest => do return (.null, ← keyword "ull".toList rest)
  | 't' :: rest => do return (.bool true, ← keyword "rue".toList rest)
  | 'f' :: rest => do return (.bool false, ← keyword "alse".toList rest)
  | '"' :: rest => do
    let (s, rest) ← string rest
    return (.string s, rest)
  | c :: _ =>
    if c == '-' || c.isDigit then do
      let (n, rest) ← numeral .endInValue cs
      return (← n.value rest, rest)
    else .error (.next .noValue cs)
  | [] => .error (.here .endInValue [])

/-- The fault of a value of another type than expected, found after a scalar or before a
container. -/
def wrongType (expected : String) (cs : List Char) : Fault :=
  match cs with
  | '[' :: _ => .here (.wrongType .seq expected) cs
  | '\x7b' :: _ => .here (.wrongType .map expected) cs
  | _ =>
    match scalar cs with
    | .ok (value, rest) => .here (.wrongType value.found expected) rest
    | .error fault => fault

/-- Goes to the next element of a list: `true` if there is one, at the text returned; `false` in
front of the closing bracket. -/
def nextElement (first : Bool) (cs : List Char) : Except Fault (Bool × List Char) :=
  match skipBlanks cs with
  | [] => .error (.here .endInList [])
  | ']' :: rest => .ok (false, ']' :: rest)
  | c :: rest =>
    if first then .ok (true, c :: rest)
    else if c = ',' then
      match skipBlanks rest with
      | [] => .error (.here .endInValue [])
      | ']' :: rest => .error (.next .trailingComma (']' :: rest))
      | rest => .ok (true, rest)
    else .error (.next .noCommaOrListEnd (c :: rest))

/-- Closes a list. -/
def closeList (cs : List Char) : Except Fault (List Char) :=
  match skipBlanks cs with
  | [] => .error (.here .endInList [])
  | ']' :: rest => .ok rest
  | ',' :: rest =>
    match skipBlanks rest with
    | ']' :: rest => .error (.next .trailingComma (']' :: rest))
    | rest => .error (.next .trailingCharacters rest)
  | rest => .error (.next .trailingCharacters rest)

/-- The text after a list in which a fault of shape was found: past the closing bracket or a
comma, if one of them comes next. -/
def leaveList (cs : List Char) : List Char :=
  match skipBlanks cs with
  | ']' :: rest => rest
  | ',' :: rest => skipBlanks rest
  | rest => rest

/-- Goes to the next member of an object: `true` if there is one, at the text after the opening
quote of its key; `false` in front of the closing brace. -/
def nextMember (first : Bool) (cs : List Char) : Except Fault (Bool × List Char) :=
  match skipBlanks cs with
  | [] => .error (.here .endInObject [])
  | '\x7d' :: rest => .ok (false, '\x7d' :: rest)
  | c :: rest =>
    if first then
      if c = '"' then .ok (true, rest) else .error (.next .keyNotString (c :: rest))
    else if c = ',' then
      match skipBlanks rest with
      | [] => .error (.here .endInValue [])
      | '"' :: rest => .ok (true, rest)
      | '\x7d' :: rest => .error (.next .trailingComma ('\x7d' :: rest))
      | rest => .error (.next .keyNotString rest)
    else .error (.next .noCommaOrObjectEnd (c :: rest))

/-- The colon between a key and its value. -/
def colon (cs : List Char) : Except Fault (List Char) :=
  match skipBlanks cs with
  | [] => .error (.here .endInObject [])
  | ':' :: rest => .ok rest
  | rest => .error (.next .noColon rest)

/-- Closes an object. -/
def closeObject (cs : List Char) : Except Fault (List Char) :=
  match skipBlanks cs with
  | [] => .error (.here .endInObject [])
  | '\x7d' :: rest => .ok rest
  | ',' :: rest => .error (.next .trailingComma (',' :: rest))
  | rest => .error (.next .trailingCharacters rest)

/-- The text after an object in which a fault of shape was found: past the closing brace, if it
comes next. -/
def leaveObject (cs : List Char) : List Char :=
  match skipBlanks cs with
  | '\x7d' :: rest => rest
  | rest => rest

namespace Reader

/-- Reads on at the first character that is no blank. -/
def atValue {α : Type} (read : Nat → List Char → Except Fault (α × List Char)) : Reader α :=
  fun depth cs =>
    match skipBlanks cs with
    | [] => .error (.here .endInValue [])
    | cs => read depth cs

/-- A string where `expected` is expected. -/
def stringAs (expected : String) : Reader String :=
  atValue fun _ cs =>
    match cs with
    | '"' :: rest => Json.string rest
    | cs => .error (wrongType expected cs)

def string : Reader String := stringAs "a string"

def bool : Reader Bool :=
  atValue fun _ cs =>
    match cs with
    | 't' :: rest => do return (true, ← keyword "rue".toList rest)
    | 'f' :: rest => do return (false, ← keyword "alse".toList rest)
    | cs => .error (wrongType "a boolean" cs)

/-- Null, or what `r` reads. -/
def optional {α : Type} (r : Reader α) : Reader (Option α) := fun depth cs =>
  match skipBlanks cs with
  | 'n' :: rest => do return (none, ← keyword "ull".toList rest)
  | cs => do
    let (value, rest) ← r depth cs
    return (some value, rest)

def map {α β : Type} (f : α → β) (r : Reader α) : Reader β := fun depth cs => do
  let (value, rest) ← r depth cs
  return (f value, rest)

/-- The elements of a list that is open; each is read by `element` and made by `make`. A fault
that `make` finds is placed after the list. `fuel` bounds the number of elements. -/
def elements {α β : Type} (element : Reader β) (make : β → Except Cause α) (depth : Nat) :
    Nat → Bool → List Char → Except Fault (List α × List Char)
  | 0, _, cs => .error (.here .endInList cs)
  | fuel + 1, first, cs => do
    match ← nextElement first cs with
    | (false, rest) => return ([], ← closeList rest)
    | (true, rest) =>
      let (raw, rest) ← element depth rest
      match make raw with
      | .error cause => throw (.here cause (leaveList rest))
      | .ok value =>
        let (values, rest) ← elements element make depth fuel false rest
        return (value :: values, rest)

/-- A list whose elements are read by `element` and made by `make`. -/
def listOf {α β : Type} (element : Reader β) (make : β → Except Cause α) : Reader (List α) :=
  atValue fun depth cs =>
    match cs with
    | '[' :: rest => do
      let depth ← descend depth cs
      elements element make depth (rest.length + 1) true rest
    | cs => .error (wrongType "a sequence" cs)

def list {α : Type} (element : Reader α) : Reader (List α) := listOf element .ok

/-- The members of an object that is open. `fuel` bounds their number. -/
def members {α : Type} (value : Reader α) (depth : Nat) :
    Nat → Bool → List Char → Except Fault (List (String × α) × List Char)
  | 0, _, cs => .error (.here .endInObject cs)
  | fuel + 1, first, cs => do
    match ← nextMember first cs with
    | (false, rest) => return ([], ← closeObject rest)
    | (true, rest) =>
      let (key, rest) ← Json.string rest
      let rest ← colon rest
      let (v, rest) ← value depth rest
      let (others, rest) ← members value depth fuel false rest
      return ((key, v) :: others, rest)

/-- An object with any keys. -/
def dict {α : Type} (value : Reader α) : Reader (List (String × α)) :=
  atValue fun depth cs =>
    match cs with
    | '\x7b' :: rest => do
      let depth ← descend depth cs
      members value depth (rest.length + 1) true rest
    | cs => .error (wrongType "a map" cs)

/-- Reads a whole text; nothing but blanks may follow. -/
def run {α : Type} (r : Reader α) (text : String) : Except Failure α :=
  let cs := text.toList
  let result := do
    let (value, rest) ← r depthLimit cs
    match skipBlanks rest with
    | [] => return value
    | rest => throw (Fault.next .trailingCharacters rest)
  result.mapError (·.locate cs)

end Reader

end Phrasebook.Json
