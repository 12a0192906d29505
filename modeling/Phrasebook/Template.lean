import Phrasebook.Node

namespace Phrasebook

/-- A stretch of a template. -/
inductive Segment where
  | literal (text : String)
  | placeholder (name : String)
deriving DecidableEq, Repr

/-- A text with placeholders, in order of appearance. -/
structure Template where
  segments : List Segment
deriving DecidableEq, Repr

namespace Template

/-- A template without placeholders; the empty text has no segment. -/
def literal (text : String) : Template :=
  if text = "" then ⟨[]⟩ else ⟨[.literal text]⟩

/-- The placeholders' names, in order and with repetitions. -/
def names (t : Template) : List String :=
  t.segments.filterMap fun
    | .literal _ => none
    | .placeholder name => some name

def isEmpty (t : Template) : Bool := t.segments.isEmpty

end Template

/-- A node whose strings are templates. A list holds the children of each of its items. -/
inductive TemplateNode where
  | text (content : Template) (children : List TemplateNode) (styles : Styles)
  | link (href content : Template) (children : List TemplateNode) (styles : Styles)
      (name : Option String)
  | item (children : List TemplateNode)
  | list (kind : ListKind) (items : List (List TemplateNode))

namespace TemplateNode

mutual

/-- The node and all its descendants, each before its children. -/
def walk : TemplateNode → List TemplateNode
  | .text content children styles => .text content children styles :: walkAll children
  | .link href content children styles name =>
    .link href content children styles name :: walkAll children
  | .item children => .item children :: walkAll children
  | .list kind items => .list kind items :: walkItems items

/-- The walks of the nodes of a list, one after the other. -/
def walkAll : List TemplateNode → List TemplateNode
  | [] => []
  | node :: nodes => walk node ++ walkAll nodes

/-- The walks of the children of all items. -/
def walkItems : List (List TemplateNode) → List TemplateNode
  | [] => []
  | children :: items => walkAll children ++ walkItems items

end

end TemplateNode

end Phrasebook
