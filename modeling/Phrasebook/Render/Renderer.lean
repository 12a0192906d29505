import Phrasebook.Node

namespace Phrasebook

/-- A link without its children. -/
structure LinkHead where
  href : String
  content : String
  styles : Styles
  name : Option String
deriving DecidableEq, Repr

/-- What nodes become, at every depth of a tree. An item sees each child next to what the child
became. -/
structure Renderer (ω : Type) where
  join : List ω → ω
  text : String → Styles → ω → ω
  link : LinkHead → ω → ω
  item : List (Node × ω) → ω
  list : ListKind → List ω → ω

namespace Renderer

variable {ω : Type} (r : Renderer ω)

mutual

/-- What a node becomes. -/
def node : Node → ω
  | .text content children styles => r.text content styles (r.join (outputs children))
  | .link href content children styles name =>
    r.link ⟨href, content, styles, name⟩ (r.join (outputs children))
  | .item children => r.item (children.zip (outputs children))
  | .list kind items => r.list kind (itemOutputs items)

/-- What each node of a row becomes. -/
def outputs : List Node → List ω
  | [] => []
  | n :: ns => node n :: outputs ns

/-- What each item of a list becomes. -/
def itemOutputs : List (List Node) → List ω
  | [] => []
  | children :: items => r.item (children.zip (outputs children)) :: itemOutputs items

end

/-- What a row of nodes becomes. -/
def render (nodes : List Node) : ω := r.join (r.outputs nodes)

end Renderer

end Phrasebook
