import Phrasebook.Template
import Phrasebook.Value

namespace Phrasebook

/-- Why a template has no instance. -/
inductive BindingFault where
  | unbound (name : String)
  | fragmentInHref (name : String)
deriving DecidableEq, Repr

/-- What a segment stands for. -/
inductive Piece where
  | text (s : String)
  | fragment (nodes : List Node)
deriving Repr

namespace Piece

/-- What a segment of a content stands for. -/
def ofSegment (b : Bindings) : Segment → Except BindingFault Piece
  | .literal s => .ok (.text s)
  | .placeholder name =>
    match b.find? name with
    | none => .error (.unbound name)
    | some (.fragment nodes) => .ok (.fragment nodes)
    | some value => .ok (.text value.display)

def ofSegments (b : Bindings) : List Segment → Except BindingFault (List Piece)
  | [] => .ok []
  | segment :: segments => do
    let piece ← ofSegment b segment
    return piece :: (← ofSegments b segments)

/-- The node of a text between fragments. -/
def textNode (styles : Styles) : Option String → List Node
  | none => []
  | some s => [.styled s styles]

/-- The nodes of the pieces after the first fragment; `pending` is the text read since the last
fragment. -/
def spill (styles : Styles) (pending : Option String) : List Piece → List Node
  | [] => textNode styles pending
  | .text s :: pieces => spill styles (some (pending.getD "" ++ s)) pieces
  | .fragment nodes :: pieces => textNode styles pending ++ nodes ++ spill styles none pieces

/-- The content and the leading children of the node that owns the pieces. Empty fragments in
front of the first one that has nodes leave no trace. -/
def lead (styles : Styles) (content : String) : List Piece → String × List Node
  | [] => (content, [])
  | .text s :: pieces => lead styles (content ++ s) pieces
  | .fragment [] :: pieces => lead styles content pieces
  | .fragment (node :: nodes) :: pieces => (content, node :: nodes ++ spill styles none pieces)

end Piece

namespace Template

/-- The content and the leading children that a content template stands for. -/
def content (t : Template) (styles : Styles) (b : Bindings) :
    Except BindingFault (String × List Node) := do
  return Piece.lead styles "" (← Piece.ofSegments b t.segments)

/-- What a segment of a link target stands for. -/
def hrefPart (b : Bindings) : Segment → Except BindingFault String
  | .literal s => .ok s
  | .placeholder name =>
    match b.find? name with
    | none => .error (.unbound name)
    | some (.fragment _) => .error (.fragmentInHref name)
    | some value => .ok value.display

/-- The link target that the segments stand for. -/
def hrefOf (b : Bindings) : List Segment → Except BindingFault String
  | [] => .ok ""
  | segment :: segments => do
    let part ← hrefPart b segment
    return part ++ (← hrefOf b segments)

def href (t : Template) (b : Bindings) : Except BindingFault String := hrefOf b t.segments

end Template

namespace TemplateNode

mutual

/-- The node that a template node stands for. -/
def instantiate (b : Bindings) : TemplateNode → Except BindingFault Node
  | .text content children styles => do
    let (content, leading) ← content.content styles b
    return .text content (leading ++ (← instantiateAll b children)) styles
  | .link href content children styles name => do
    let href ← href.href b
    let (content, leading) ← content.content styles b
    return .link href content (leading ++ (← instantiateAll b children)) styles name
  | .item children => do return .item (← instantiateAll b children)
  | .list kind items => do return .list kind (← instantiateItems b items)

def instantiateAll (b : Bindings) : List TemplateNode → Except BindingFault (List Node)
  | [] => .ok []
  | node :: nodes => do
    let node ← instantiate b node
    return node :: (← instantiateAll b nodes)

def instantiateItems (b : Bindings) :
    List (List TemplateNode) → Except BindingFault (List (List Node))
  | [] => .ok []
  | children :: items => do
    let children ← instantiateAll b children
    return children :: (← instantiateItems b items)

end

end TemplateNode

end Phrasebook
