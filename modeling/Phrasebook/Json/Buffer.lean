import Phrasebook.Json.Reader

namespace Phrasebook.Json

mutual

/-- Reads any value. `fuel` bounds the nesting and the number of elements. -/
def contentWith : Nat → Nat → List Char → Except Fault (Content × List Char)
  | 0, _, cs => .error (.here .endInValue cs)
  | fuel + 1, depth, cs =>
    match skipBlanks cs with
    | [] => .error (.here .endInValue [])
    | '[' :: rest => do
      let depth ← descend depth ('[' :: rest)
      let (items, rest) ← contentElements fuel depth true rest
      return (.seq items, ← closeList rest)
    | '\x7b' :: rest => do
      let depth ← descend depth ('\x7b' :: rest)
      let (members, rest) ← contentMembers fuel depth true rest
      return (.map members, ← closeObject rest)
    | cs => scalar cs

/-- Reads the elements of a list up to its closing bracket. -/
def contentElements : Nat → Nat → Bool → List Char → Except Fault (List Content × List Char)
  | 0, _, _, cs => .error (.here .endInList cs)
  | fuel + 1, depth, first, cs => do
    match ← nextElement first cs with
    | (false, rest) => return ([], rest)
    | (true, rest) =>
      let (item, rest) ← contentWith fuel depth rest
      let (items, rest) ← contentElements fuel depth false rest
      return (item :: items, rest)

/-- Reads the members of an object up to its closing brace. -/
def contentMembers :
    Nat → Nat → Bool → List Char → Except Fault (List (String × Content) × List Char)
  | 0, _, _, cs => .error (.here .endInObject cs)
  | fuel + 1, depth, first, cs => do
    match ← nextMember first cs with
    | (false, rest) => return ([], rest)
    | (true, rest) =>
      let (key, rest) ← string rest
      let rest ← colon rest
      let (value, rest) ← contentWith fuel depth rest
      let (members, rest) ← contentMembers fuel depth false rest
      return ((key, value) :: members, rest)

end

/-- Enough fuel to read a text. -/
def readingFuel (cs : List Char) : Nat := 2 * cs.length + 2

namespace Reader

/-- Reads any value. -/
def content : Reader Content := fun depth cs => contentWith (readingFuel cs) depth cs

/-- How tagged values of one type are written. -/
structure Tagging where
  /-- What faults call a value of the type. -/
  title : String
  /-- The key of the tag. -/
  key : String
  /-- Whether a tag is known; faults are placed after it. -/
  check : String → Except Cause Unit

/-- Reads a tag. -/
def tag (t : Tagging) : Reader String := fun depth cs => do
  let (s, rest) ← stringAs "variant identifier" depth cs
  match t.check s with
  | .error cause => throw (.here cause rest)
  | .ok () => return (s, rest)

/-- The members of a tagged object up to its closing brace. `tagged` says whether the tag has been
read. -/
def taggedMembers (t : Tagging) (depth : Nat) :
    Nat → Bool → Bool → List Char → Except Fault (List (String × Content) × List Char)
  | 0, _, _, cs => .error (.here .endInObject cs)
  | fuel + 1, first, tagged, cs => do
    match ← nextMember first cs with
    | (false, rest) =>
      if tagged then return ([], rest)
      else throw (.here (.missingField t.key) (leaveObject rest))
    | (true, rest) =>
      let (key, rest) ← Json.string rest
      if key = t.key then
        if tagged then throw (.here (.duplicateField t.key) (leaveObject rest))
        let (name, rest) ← tag t depth (← colon rest)
        let (members, rest) ← taggedMembers t depth fuel false true rest
        return ((key, .string name) :: members, rest)
      else
        let (value, rest) ← content depth (← colon rest)
        let (members, rest) ← taggedMembers t depth fuel false tagged rest
        return ((key, value) :: members, rest)

/-- Reads a tagged value and keeps it whole, since what it must hold depends on the tag. -/
def tagged (t : Tagging) : Reader Content :=
  atValue fun depth cs =>
    match cs with
    | '[' :: rest => do
      let depth ← descend depth cs
      match ← nextElement true rest with
      | (false, rest) => throw (.here (.missingField t.key) (leaveList rest))
      | (true, rest) =>
        let (name, rest) ← tag t depth rest
        let (items, rest) ← contentElements (readingFuel rest) depth false rest
        return (.seq (.string name :: items), ← closeList rest)
    | '\x7b' :: rest => do
      let depth ← descend depth cs
      let (members, rest) ← taggedMembers t depth (rest.length + 1) true false rest
      return (.map members, ← closeObject rest)
    | cs => .error (wrongType t.title cs)

end Reader

end Phrasebook.Json
