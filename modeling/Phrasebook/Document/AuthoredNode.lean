import Phrasebook.Json.Buffer
import Phrasebook.Node.Draft

namespace Phrasebook

open Json

/-- A node as written; its strings are not read as templates yet. -/
inductive AuthoredNode where
  | text (content : String) (children : List AuthoredNode) (styles : Styles)
  | link (href content : String) (children : List AuthoredNode) (styles : Styles)
      (name : Option String)
  | item (children : List AuthoredNode)
  | list (kind : ListKind) (children : List AuthoredNode)
  | unknown

namespace AuthoredNode

/-- What faults call an authored node. -/
def title : String := "internally tagged enum RawNode"

/-- What faults call the members of a kind of node. -/
def membersTitle : Tag → String
  | .text => "struct variant RawNode::Text"
  | .link => "struct variant RawNode::Link"
  | .item => "struct variant RawNode::ListItem"
  | .list .unordered => "struct variant RawNode::UnorderedList"
  | .list .ordered => "struct variant RawNode::OrderedList"

/-- The tag that a value stands for, if it is a known one: a name, or a position in the list of
kinds. -/
def tagOfContent : Content → Except Cause (Option Tag)
  | .string s => .ok (Tag.ofName? s)
  | .integer n =>
    if n < 0 then .error (.wrongType (.integer n) "variant identifier")
    else .ok Tag.all[n.toNat]?
  | value => .error (.wrongType value.found "variant identifier")

/-- The node of a draft. -/
def ofDraft (tag : Tag) (d : Draft AuthoredNode) : Except Cause AuthoredNode :=
  match tag with
  | .text => .ok (.text d.getContent d.getChildren d.getStyles)
  | .link =>
    match d.href with
    | none => .error (.missingField "href")
    | some href => .ok (.link href d.getContent d.getChildren d.getStyles d.getName)
  | .item => .ok (.item d.getChildren)
  | .list kind => .ok (.list kind d.getChildren)

mutual

/-- The authored node that a value stands for. The members of a node of unknown type do not
matter, but its list form must end after the type. -/
def ofContent : Content → Except Cause AuthoredNode
  | .map members => do
    match ← Tag.among tagOfContent none members with
    | none => return .unknown
    | some tag => ofDraft tag (← setMembers tag .empty members)
  | .seq (tagged :: items) => do
    match ← tagOfContent tagged with
    | none => if items.isEmpty then return .unknown else throw (Draft.tooLong items.length 0)
    | some tag => ofDraft tag (← setItems tag items.length 0 tag.members .empty items)
  | .seq [] => .error (.missingField Tag.key)
  | value => .error (.wrongType value.found title)

def ofContents : List Content → Except Cause (List AuthoredNode)
  | [] => .ok []
  | value :: values => do
    let node ← ofContent value
    return node :: (← ofContents values)

/-- Sets the children from their written form. -/
def setChildren (d : Draft AuthoredNode) : Content → Except Cause (Draft AuthoredNode)
  | .seq items => do return { d with children := some (← ofContents items) }
  | value => .error (.wrongType value.found "a sequence")

/-- Sets the members of an object in the order in which they are written. -/
def setMembers (tag : Tag) (d : Draft AuthoredNode) :
    List (String × Content) → Except Cause (Draft AuthoredNode)
  | [] => .ok d
  | (key, value) :: members => do
    if key ∈ tag.members then
      if d.has key then throw (.duplicateField key)
      let d ← if key = "children" then setChildren d value else d.set key value
      setMembers tag d members
    else setMembers tag d members

/-- Sets the members of a list form of `total` values, in the order of `names`. -/
def setItems (tag : Tag) (total index : Nat) (names : List String) (d : Draft AuthoredNode) :
    List Content → Except Cause (Draft AuthoredNode)
  | [] =>
    if "href" ∈ names then .error (Draft.tooShort (membersTitle tag) tag index) else .ok d
  | value :: values =>
    match names with
    | [] => .error (Draft.tooLong total tag.members.length)
    | name :: names => do
      let d ← if name = "children" then setChildren d value else d.set name value
      setItems tag total (index + 1) names d values

end

def tagging : Reader.Tagging where
  title := title
  key := Tag.key
  check _ := .ok ()

/-- Reads a list of authored nodes. -/
def reader : Reader (List AuthoredNode) := Reader.listOf (Reader.tagged tagging) ofContent

end AuthoredNode

end Phrasebook
