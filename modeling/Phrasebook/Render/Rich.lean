import Phrasebook.DebugInfo
import Phrasebook.Render.Renderer

namespace Phrasebook

/-- What activating a link does: the host navigates, or hands the target to its opener. -/
inductive LinkAction where
  | navigate
  | intercept
deriving DecidableEq, Repr

inductive RichNode where
  | text (s : String)
  | lineBreak
  | mark (mark : Mark) (children : List RichNode)
  | anchor (href : String) (name : Option String) (action : LinkAction)
      (children : List RichNode)
  | item (children : List RichNode)
  | list (kind : ListKind) (items : List (String × List RichNode))
  | overlay (info : DebugInfo) (shown : Bool) (children : List RichNode)
deriving Repr

namespace Rich

/-- The lines of a text; one more than it has line feeds. -/
def lines : List Char → List (List Char)
  | [] => [[]]
  | c :: cs =>
    if c = '\n' then [] :: lines cs
    else match lines cs with
      | [] => [[c]]
      | line :: rest => (c :: line) :: rest

/-- A line as nodes; an empty one has none. -/
def lineNodes (line : List Char) : List RichNode :=
  if line.isEmpty then [] else [.text (String.ofList line)]

/-- Content with a break in place of each line feed. -/
def content (s : String) : List RichNode :=
  [RichNode.lineBreak].intercalate ((lines s.toList).map lineNodes)

/-- Nodes inside one mark per style, bold innermost; no nodes need no marks. -/
def wrap (styles : Styles) (inner : List RichNode) : List RichNode :=
  if inner.isEmpty then []
  else styles.marks.foldl (fun children m => [.mark m children]) inner

/-- The items of a list with their labels. -/
def list (kind : ListKind) (items : List (List RichNode)) : List RichNode :=
  [.list kind (items.mapIdx fun i item => (kind.label i, item))]

def renderer : Renderer (List RichNode) where
  join := List.flatten
  text s styles children := wrap styles (content s) ++ children
  link head children :=
    [.anchor head.href head.name .navigate (wrap head.styles (content head.content) ++ children)]
  item children := [.item (children.map (·.2)).flatten]
  list := list

/-- Hands the target of an anchor to the host's opener. -/
def interceptAnchor : RichNode → RichNode
  | .anchor href name _ children => .anchor href name .intercept children
  | node => node

/-- The rich renderer with the links whose target satisfies `p` intercepted. -/
def intercepting (p : String → Bool) : Renderer (List RichNode) :=
  { renderer with
    link := fun head children =>
      let anchors := renderer.link head children
      if p head.href then anchors.map interceptAnchor else anchors }

/-- Renders a phrase. In debug mode one overlay, hidden at first, lies around all of it. -/
def render (r : Renderer (List RichNode)) (debug : Bool) (info : DebugInfo) (nodes : List Node) :
    List RichNode :=
  let rendered := r.render nodes
  if debug then [.overlay info false rendered] else rendered

end Rich

end Phrasebook
