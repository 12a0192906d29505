import Phrasebook.Style

namespace Phrasebook

/-- Bulleted or numbered. -/
inductive ListKind where
  | unordered
  | ordered
deriving DecidableEq, Repr

namespace ListKind

def tag : ListKind → String
  | .unordered => "ul"
  | .ordered => "ol"

/-- The label of the item at a position counted from 0. -/
def label : ListKind → Nat → String
  | .unordered, _ => "•"
  | .ordered, i => Nat.repr (i + 1) ++ "."

end ListKind

/-- A node of a phrase tree. Content comes before the children; a list holds the children of
each of its items. -/
inductive Node where
  | text (content : String) (children : List Node) (styles : Styles)
  | link (href content : String) (children : List Node) (styles : Styles) (name : Option String)
  | item (children : List Node)
  | list (kind : ListKind) (items : List (List Node))
deriving Repr

namespace Node

/-- Text without styles or children. -/
def ofText (content : String) : Node := .text content [] .plain

/-- Text without children. -/
def styled (content : String) (styles : Styles) : Node := .text content [] styles

/-- A link without styles, children or name. -/
def ofLink (href content : String) : Node := .link href content [] .plain none

/-- The tag that documents give this kind of node. -/
def kind : Node → String
  | .text .. => "text"
  | .link .. => "link"
  | .item .. => "li"
  | .list k _ => k.tag

def isList : Node → Bool
  | .list .. => true
  | _ => false

end Node

end Phrasebook
