import Phrasebook.Json.Record
import Phrasebook.Style

namespace Phrasebook

open Json

namespace Mark

/-- The member that switches the mark on. -/
def member : Mark → String
  | .bold => "isBold"
  | .italic => "isItalic"
  | .underline => "isUnderlined"
  | .strikethrough => "isStrikethrough"
  | .superscript => "isSuperscript"
  | .subscript => "isSubscript"

def ofMember? (s : String) : Option Mark := order.find? (·.member == s)

/-- The mark with a given document name, or the fault that there is none. -/
def ofName (s : String) : Except Cause Mark :=
  match ofName? s with
  | some m => .ok m
  | none => .error (.unknownVariant s (order.map name))

end Mark

namespace Styles

def title : String := "struct StyleFlags"

def record : Record Styles where
  title := title
  start := plain
  fields := Mark.order.map fun m =>
    { name := m.member, required := false, set := Reader.bool.map fun on styles => styles.set m on }

/-- The flag that a value stands for. -/
def flag : Content → Except Cause Bool
  | .bool b => .ok b
  | value => .error (.wrongType value.found "a boolean")

/-- Sets the flags of an object's members; `seen` holds the marks set so far. -/
def ofMembers (seen : List Mark) (styles : Styles) :
    List (String × Content) → Except Cause Styles
  | [] => .ok styles
  | (key, value) :: members =>
    match Mark.ofMember? key with
    | none => ofMembers seen styles members
    | some m => do
      if m ∈ seen then throw (.duplicateField key)
      ofMembers (m :: seen) (styles.set m (← flag value)) members

/-- Sets the flags of a list of `total` values, in nesting order. -/
def ofItems (total : Nat) (styles : Styles) : List Mark → List Content → Except Cause Styles
  | _, [] => .ok styles
  | [], _ :: _ =>
    .error (.wrongLength total (countOf Mark.order.length "element" ++ " in sequence"))
  | m :: marks, value :: values => do
    ofItems total (styles.set m (← flag value)) marks values

/-- The styles that a value stands for. -/
def ofContent : Content → Except Cause Styles
  | .map members => ofMembers [] plain members
  | .seq items => ofItems items.length plain Mark.order items
  | value => .error (.wrongType value.found title)

def toContent (styles : Styles) : Content :=
  .map (Mark.order.map fun m => (m.member, .bool (styles.has m)))

end Styles

end Phrasebook
