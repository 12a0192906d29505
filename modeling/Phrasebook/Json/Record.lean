import Phrasebook.Json.Reader
import Phrasebook.Json.Skip

namespace Phrasebook.Json

/-- A field: its name, whether it must be there, and how its value changes the record. -/
structure Field (σ : Type) where
  name : String
  required : Bool
  set : Reader (σ → σ)

/-- A type of records; `start` holds the values of the fields that are left out. A record is an
object, whose members of other names are skipped, or a list of its fields in order. -/
structure Record (σ : Type) where
  /-- What faults call a record of the type. -/
  title : String
  fields : List (Field σ)
  start : σ

/-- A number of things, in words. -/
def countOf (n : Nat) (thing : String) : String :=
  Nat.repr n ++ " " ++ thing ++ (if n = 1 then "" else "s")

namespace Record

variable {σ : Type}

/-- The members of a record that is open, up to its closing brace. `seen` holds the names of the
fields set so far. -/
def members (r : Record σ) (depth : Nat) :
    Nat → Bool → List String → σ → List Char → Except Fault (σ × List Char)
  | 0, _, _, _, cs => .error (.here .endInObject cs)
  | fuel + 1, first, seen, value, cs => do
    match ← nextMember first cs with
    | (false, rest) =>
      match r.fields.find? fun field => field.required && !seen.contains field.name with
      | some field => throw (.here (.missingField field.name) (leaveObject rest))
      | none => return (value, rest)
    | (true, rest) =>
      let (key, rest) ← string rest
      match r.fields.find? (·.name == key) with
      | none =>
        let rest ← skip (← colon rest)
        members r depth fuel false seen value rest
      | some field =>
        if seen.contains key then throw (.here (.duplicateField key) (leaveObject rest))
        let (change, rest) ← field.set depth (← colon rest)
        members r depth fuel false (key :: seen) (change value) rest

/-- The fields of a record written as a list, up to the closing bracket or what follows the last
field. -/
def elements (r : Record σ) (depth : Nat) :
    List (Field σ) → Nat → σ → List Char → Except Fault (σ × List Char)
  | [], _, value, cs => .ok (value, cs)
  | field :: fields, index, value, cs => do
    match ← nextElement (index == 0) cs with
    | (false, rest) =>
      if field.required then
        let expected := r.title ++ " with " ++ countOf r.fields.length "element"
        throw (.here (.wrongLength index expected) (leaveList rest))
      else elements r depth fields (index + 1) value rest
    | (true, rest) =>
      let (change, rest) ← field.set depth rest
      elements r depth fields (index + 1) (change value) rest

/-- Reads a record. -/
def reader (r : Record σ) : Reader σ :=
  Reader.atValue fun depth cs =>
    match cs with
    | '[' :: rest => do
      let depth ← descend depth cs
      let (value, rest) ← r.elements depth r.fields 0 r.start rest
      return (value, ← closeList rest)
    | '\x7b' :: rest => do
      let depth ← descend depth cs
      let (value, rest) ← r.members depth (rest.length + 1) true [] r.start rest
      return (value, ← closeObject rest)
    | cs => .error (wrongType r.title cs)

end Record

end Phrasebook.Json
