import Phrasebook.Decimal.Layout
import Phrasebook.Decimal.Reader
import Phrasebook.Dict
import Phrasebook.Node

namespace Phrasebook

inductive Value where
  | text (s : String)
  | number (n : Int)
  | float (x : Binary64)
  | fragment (nodes : List Node)
deriving Repr

/-- The values of a call, by name. -/
abbrev Bindings := Dict Value

namespace Value

/-- The number of things; counts beyond 64 signed bits stay at the greatest such number. -/
def ofCount (n : Nat) : Value := .number (min n greatestWhole)

/-- Whole numbers and decimals become numbers, all else stays text. -/
def ofArgument (raw : String) : Value :=
  match wholeNumber? raw with
  | some n => .number n
  | none =>
    match Binary64.ofText? raw with
    | some x => .float x
    | none => .text raw

def display : Value → String
  | .text s => s
  | .number n => toString n
  | .float x => NumberLayout.value.write x
  | .fragment _ => ""

def asText? : Value → Option String
  | .text s => some s
  | _ => none

def asNumber? : Value → Option Int
  | .number n => some n
  | _ => none

def asFragment? : Value → Option (List Node)
  | .fragment nodes => some nodes
  | _ => none

def isFragment : Value → Bool
  | .fragment _ => true
  | _ => false

end Value

end Phrasebook
