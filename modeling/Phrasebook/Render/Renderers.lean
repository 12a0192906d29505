import Phrasebook.Render.Plain
import Phrasebook.Render.Rich

namespace Phrasebook

/-- What the six functions make of nodes when they are called through a record. -/
structure Calls (ω : Type) where
  nodes : List Node → ω
  text : String → List Node → Styles → ω
  link : LinkHead → List Node → ω
  item : List Node → ω
  unordered : List (List Node) → ω
  ordered : List (List Node) → ω

/-- The call that the kind of a node asks for. -/
def Calls.dispatch {ω : Type} (self : Calls ω) : Node → ω
  | .text content children styles => self.text content children styles
  | .link href content children styles name => self.link ⟨href, content, styles, name⟩ children
  | .item children => self.item children
  | .list .unordered items => self.unordered items
  | .list .ordered items => self.ordered items

/-- Six functions; the first argument of each is the record it is called through. -/
structure Renderers (ω : Type) where
  nodes : Calls ω → List Node → ω
  text : Calls ω → String → List Node → Styles → ω
  link : Calls ω → LinkHead → List Node → ω
  item : Calls ω → List Node → ω
  unordered : Calls ω → List (List Node) → ω
  ordered : Calls ω → List (List Node) → ω

namespace Node

mutual

/-- How deep calls for a node nest: two for each level, and one more for the entries of a list. -/
def callDepth : Node → Nat
  | .text _ children _ => callDepthAll children + 2
  | .link _ _ children _ _ => callDepthAll children + 2
  | .item children => callDepthAll children + 2
  | .list _ items => callDepthItems items + 3

def callDepthAll : List Node → Nat
  | [] => 0
  | n :: ns => max (callDepth n) (callDepthAll ns)

def callDepthItems : List (List Node) → Nat
  | [] => 0
  | children :: items => max (callDepthAll children) (callDepthItems items)

end

end Node

namespace Renderers

variable {ω : Type}

/-- Calls through a record that nest at most so deep. -/
def within [Inhabited ω] (f : Renderers ω) : Nat → Calls ω
  | 0 => ⟨fun _ => default, fun _ _ _ => default, fun _ _ => default, fun _ => default,
      fun _ => default, fun _ => default⟩
  | depth + 1 =>
    let self := f.within depth
    ⟨f.nodes self, f.text self, f.link self, f.item self, f.unordered self, f.ordered self⟩

section

variable [Inhabited ω] (f : Renderers ω) (depth : Nat)

@[simp] theorem nodes_within_succ :
    (f.within (depth + 1)).nodes = f.nodes (f.within depth) := rfl

@[simp] theorem text_within_succ :
    (f.within (depth + 1)).text = f.text (f.within depth) := rfl

@[simp] theorem link_within_succ :
    (f.within (depth + 1)).link = f.link (f.within depth) := rfl

@[simp] theorem item_within_succ :
    (f.within (depth + 1)).item = f.item (f.within depth) := rfl

@[simp] theorem unordered_within_succ :
    (f.within (depth + 1)).unordered = f.unordered (f.within depth) := rfl

@[simp] theorem ordered_within_succ :
    (f.within (depth + 1)).ordered = f.ordered (f.within depth) := rfl

end

/-- What a row of nodes becomes. -/
def render [Inhabited ω] (f : Renderers ω) (ns : List Node) : ω :=
  (f.within (Node.callDepthAll ns + 1)).nodes ns

/-- The record with its function for texts replaced. -/
def withText (f : Renderers ω) (text : Calls ω → String → List Node → Styles → ω) : Renderers ω :=
  { f with text := text }

/-- The record with its function for links replaced. -/
def withLink (f : Renderers ω) (link : Calls ω → LinkHead → List Node → ω) : Renderers ω :=
  { f with link := link }

/-- The record with its function for items replaced. -/
def withItem (f : Renderers ω) (item : Calls ω → List Node → ω) : Renderers ω :=
  { f with item := item }

end Renderers

namespace Plain

def record : Renderers String where
  nodes self ns := String.join (ns.map self.dispatch)
  text self content children _ := content ++ self.nodes children
  link self head children := head.content ++ self.nodes children
  item self children :=
    Line.finish (children.foldl (fun out n => addChild out (n, self.nodes [n])) "")
  unordered self items := list .unordered (items.map self.item)
  ordered self items := list .ordered (items.map self.item)

end Plain

namespace Rich

def record : Renderers (List RichNode) where
  nodes self ns := (ns.map self.dispatch).flatten
  text self s children styles := wrap styles (content s) ++ self.nodes children
  link self head children :=
    [.anchor head.href head.name .navigate
      (wrap head.styles (content head.content) ++ self.nodes children)]
  item self children := [.item (self.nodes children)]
  unordered self items := list .unordered (items.map self.item)
  ordered self items := list .ordered (items.map self.item)

/-- The default record with the links whose target satisfies `p` intercepted. -/
def interceptingRecord (p : String → Bool) : Renderers (List RichNode) :=
  record.withLink fun self head children =>
    let anchors := record.link self head children
    if p head.href then anchors.map interceptAnchor else anchors

end Rich

end Phrasebook
