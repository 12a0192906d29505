import Phrasebook.Json.Buffer
import Phrasebook.Json.Printer
import Phrasebook.Node.Draft

namespace Phrasebook

open Json

namespace Node

/-- The member for a link's name, if it has one. -/
def nameMember : Option String → List (String × Content)
  | none => []
  | some name => [("linkName", .string name)]

mutual

def toContent : Node → Content
  | .text content children styles =>
    .map [(Tag.key, .string Tag.text.name), ("content", .string content),
      ("children", .seq (toContents children)), ("styles", styles.toContent)]
  | .link href content children styles name =>
    .map ([(Tag.key, .string Tag.link.name), ("href", .string href), ("content", .string content),
      ("children", .seq (toContents children)), ("styles", styles.toContent)] ++ nameMember name)
  | .item children =>
    .map [(Tag.key, .string Tag.item.name), ("children", .seq (toContents children))]
  | .list kind items =>
    .map [(Tag.key, .string kind.tag), ("children", .seq (entriesToContents items))]

def toContents : List Node → List Content
  | [] => []
  | node :: nodes => toContent node :: toContents nodes

/-- The entries of a list. -/
def entriesToContents : List (List Node) → List Content
  | [] => []
  | children :: items =>
    .map [("children", .seq (toContents children))] :: entriesToContents items

end

/-- Nodes as JSON on one line. -/
def write (nodes : List Node) : String := (Content.seq (toContents nodes)).compact

/-- What faults call a node. -/
def title : String := "internally tagged enum StaticNode"

/-- What faults call the members of a kind of node. -/
def membersTitle : Tag → String
  | .text => "struct TextNode"
  | .link => "struct LinkNode"
  | .item => "struct ListItemNode"
  | .list _ => "struct ListNode"

def tagOfName (s : String) : Except Cause Tag :=
  match Tag.ofName? s with
  | some tag => .ok tag
  | none => .error (.unknownVariant s (Tag.all.map Tag.name))

/-- The tag that a value stands for: a name, or a position in the list of kinds. -/
def tagOfContent : Content → Except Cause Tag
  | .string s => tagOfName s
  | .integer n =>
    if n < 0 then .error (.wrongType (.integer n) "variant identifier")
    else match Tag.all[n.toNat]? with
      | some tag => .ok tag
      | none => .error (.wrongIndex n Tag.all.length)
  | value => .error (.wrongType value.found "variant identifier")

/-- The children of an item; other nodes are no entries of a list. -/
def entryChildren : Node → List Node
  | .item children => children
  | node => [node]

/-- The node of a draft. -/
def ofDraft (tag : Tag) (d : Draft Node) : Except Cause Node :=
  match tag with
  | .text => .ok (.text d.getContent d.getChildren d.getStyles)
  | .link =>
    match d.href with
    | none => .error (.missingField "href")
    | some href => .ok (.link href d.getContent d.getChildren d.getStyles d.getName)
  | .item => .ok (.item d.getChildren)
  | .list kind => .ok (.list kind (d.getChildren.map entryChildren))

mutual

/-- The node that a value stands for. -/
def ofContent : Content → Except Cause Node
  | .map members => do
    let tag ← Tag.among tagOfContent none members
    ofDraft tag (← setMembers tag .empty members)
  | .seq (tagged :: items) => do
    let tag ← tagOfContent tagged
    ofDraft tag (← setItems tag items.length 0 tag.members .empty items)
  | .seq [] => .error (.missingField Tag.key)
  | value => .error (.wrongType value.found title)

def ofContents : List Content → Except Cause (List Node)
  | [] => .ok []
  | value :: values => do
    let node ← ofContent value
    return node :: (← ofContents values)

/-- The item that an entry of a list stands for; a type among its members is skipped. -/
def ofEntry : Content → Except Cause Node
  | .map members => do ofDraft .item (← setMembers .item .empty members)
  | .seq items => do ofDraft .item (← setItems .item items.length 0 Tag.item.members .empty items)
  | value => .error (.wrongType value.found (membersTitle .item))

def ofEntries : List Content → Except Cause (List Node)
  | [] => .ok []
  | value :: values => do
    let node ← ofEntry value
    return node :: (← ofEntries values)

/-- Sets the children from their written form. -/
def setChildren (tag : Tag) (d : Draft Node) : Content → Except Cause (Draft Node)
  | .seq items => do
    let children ← match tag with
      | .list _ => ofEntries items
      | _ => ofContents items
    return { d with children := some children }
  | value => .error (.wrongType value.found "a sequence")

/-- Sets the members of an object in the order in which they are written. -/
def setMembers (tag : Tag) (d : Draft Node) : List (String × Content) → Except Cause (Draft Node)
  | [] => .ok d
  | (key, value) :: members => do
    if key ∈ tag.members then
      if d.has key then throw (.duplicateField key)
      let d ← if key = "children" then setChildren tag d value else d.set key value
      setMembers tag d members
    else setMembers tag d members

/-- Sets the members of a list form of `total` values, in the order of `names`. -/
def setItems (tag : Tag) (total index : Nat) (names : List String) (d : Draft Node) :
    List Content → Except Cause (Draft Node)
  | [] =>
    if "href" ∈ names then .error (Draft.tooShort (membersTitle tag) tag index) else .ok d
  | value :: values =>
    match names with
    | [] => .error (Draft.tooLong total tag.members.length)
    | name :: names => do
      let d ← if name = "children" then setChildren tag d value else d.set name value
      setItems tag total (index + 1) names d values

end

def tagging : Reader.Tagging where
  title := title
  key := Tag.key
  check s := (tagOfName s).map fun _ => ()

/-- Reads a list of nodes. -/
def reader : Reader (List Node) := Reader.listOf (Reader.tagged tagging) ofContent

/-- The nodes that a text holds. -/
def read (text : String) : Except Failure (List Node) := reader.run text

end Node

end Phrasebook
