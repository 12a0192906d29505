import Phrasebook.Node
import Phrasebook.Style.Json

namespace Phrasebook

open Json

/-- The kind of a node as documents name it. -/
inductive Tag where
  | text
  | link
  | item
  | list (kind : ListKind)
deriving DecidableEq, Repr

namespace Tag

def all : List Tag := [.text, .link, .item, .list .unordered, .list .ordered]

def name : Tag → String
  | .text => "text"
  | .link => "link"
  | .item => "li"
  | .list kind => kind.tag

def ofName? (s : String) : Option Tag := all.find? (·.name == s)

/-- The key of the tag. -/
def key : String := "type"

/-- The members of a node of this kind, in the order of its list form. -/
def members : Tag → List String
  | .text => ["content", "children", "styles"]
  | .link => ["href", "content", "children", "styles", "linkName"]
  | .item => ["children"]
  | .list _ => ["children"]

/-- Finds the tag among members that are no faults themselves; `found` is the tag found so far. -/
def among {τ : Type} (read : Content → Except Cause τ) (found : Option τ) :
    List (String × Content) → Except Cause τ
  | [] =>
    match found with
    | some tag => .ok tag
    | none => .error (.missingField key)
  | (k, value) :: members => do
    if k = key then
      if found.isSome then throw (.duplicateField key)
      among read (some (← read value)) members
    else among read found members

end Tag

/-- The string that a value stands for. -/
def Json.Content.asString : Content → Except Cause String
  | .string s => .ok s
  | value => .error (.wrongType value.found "a string")

/-- The string that a value stands for, or nothing for null. -/
def Json.Content.asOptionalString : Content → Except Cause (Option String)
  | .null => .ok none
  | value => some <$> value.asString

/-- The members of a node read so far. Members that are set twice are a fault. -/
structure Draft (ν : Type) where
  href : Option String := none
  content : Option String := none
  children : Option (List ν) := none
  styles : Option Styles := none
  linkName : Option (Option String) := none

namespace Draft

variable {ν : Type}

def empty : Draft ν := {}

def has (d : Draft ν) : String → Bool
  | "href" => d.href.isSome
  | "content" => d.content.isSome
  | "children" => d.children.isSome
  | "styles" => d.styles.isSome
  | "linkName" => d.linkName.isSome
  | _ => false

/-- Sets a member other than the children. -/
def set (d : Draft ν) (member : String) (value : Content) : Except Cause (Draft ν) :=
  match member with
  | "href" => do return { d with href := some (← value.asString) }
  | "content" => do return { d with content := some (← value.asString) }
  | "styles" => do return { d with styles := some (← Styles.ofContent value) }
  | "linkName" => do return { d with linkName := some (← value.asOptionalString) }
  | _ => .ok d

/-- The fault of a list form that goes on after its last member. -/
def tooLong (length members : Nat) : Cause :=
  .wrongLength length (countOf members "element" ++ " in sequence")

/-- The fault of a list form that ends before a required member. -/
def tooShort (title : String) (tag : Tag) (index : Nat) : Cause :=
  .wrongLength index (title ++ " with " ++ countOf tag.members.length "element")

def getContent (d : Draft ν) : String := d.content.getD ""
def getChildren (d : Draft ν) : List ν := d.children.getD []
def getStyles (d : Draft ν) : Styles := d.styles.getD .plain
def getName (d : Draft ν) : Option String := d.linkName.getD none

end Draft

end Phrasebook
