import Phrasebook.Proofs.Render.Content
import Phrasebook.Proofs.Render.Outputs

namespace Phrasebook.Rich

variable (p : String → Bool)

/-- The default is to intercept nothing. -/
theorem intercepting_never : intercepting (fun _ => false) = renderer := rfl

/-- A link becomes one anchor, whoever follows it. -/
theorem intercepting_link (head : LinkHead) (children : List RichNode) :
    (intercepting p).link head children =
      [.anchor head.href head.name (if p head.href then .intercept else .navigate)
        (wrap head.styles (content head.content) ++ children)] := by
  cases h : p head.href <;> simp [intercepting, renderer, interceptAnchor, h]

theorem render_cons (n : Node) (ns : List Node) :
    (intercepting p).render (n :: ns) = (intercepting p).node n ++ (intercepting p).render ns := rfl

theorem node_text (s : String) (children : List Node) (styles : Styles) :
    (intercepting p).node (.text s children styles) =
      wrap styles (content s) ++ (intercepting p).render children := rfl

theorem node_link (href s : String) (children : List Node) (styles : Styles)
    (name : Option String) :
    (intercepting p).node (.link href s children styles name) =
      [.anchor href name (if p href then .intercept else .navigate)
        (wrap styles (content s) ++ (intercepting p).render children)] := by
  rw [Renderer.node_link, intercepting_link]

theorem node_item (children : List Node) :
    (intercepting p).node (.item children) = [.item ((intercepting p).render children)] := by
  rw [Renderer.node_item, Renderer.render_eq_map]
  show [RichNode.item ((children.map fun n => (n, (intercepting p).node n)).map (·.2)).flatten] =
    [.item (children.map (intercepting p).node).flatten]
  rw [List.map_map]
  rfl

/-- A list has one item for each entry, under the label of its position. -/
theorem node_list (kind : ListKind) (items : List (List Node)) :
    (intercepting p).node (.list kind items) =
      [.list kind ((items.map fun children => [.item ((intercepting p).render children)]).mapIdx
        fun i item => (kind.label i, item))] := by
  simp only [← node_item]
  exact Renderer.node_list _ kind items

/-- A property of rows that content with its marks has, and that is kept when rows are joined or put
inside an anchor, an item or the items of a list. -/
structure Closed (P : List RichNode → Prop) : Prop where
  nil : P []
  append : ∀ {ns ms}, P ns → P ms → P (ns ++ ms)
  content : ∀ styles s, P (wrap styles (content s))
  anchor : ∀ href name action {ns}, P ns → P [.anchor href name action ns]
  item : ∀ {ns}, P ns → P [.item ns]
  list : ∀ kind {rows : List (List RichNode)}, (∀ row ∈ rows, P row) →
    P [.list kind ((rows.map fun row => [.item row]).mapIdx fun i item => (kind.label i, item))]

variable {P : List RichNode → Prop}

mutual

theorem Closed.node (h : Closed P) : ∀ n : Node, P ((intercepting p).node n)
  | .text s children styles => by
    rw [node_text]
    exact h.append (h.content styles s) (h.render children)
  | .link href s children styles name => by
    rw [node_link]
    exact h.anchor _ _ _ (h.append (h.content styles s) (h.render children))
  | .item children => by
    rw [node_item]
    exact h.item (h.render children)
  | .list kind items => by
    have hlist := h.list kind (h.rows items)
    rw [List.map_map] at hlist
    rw [node_list]
    exact hlist

theorem Closed.render (h : Closed P) : ∀ ns : List Node, P ((intercepting p).render ns)
  | [] => h.nil
  | n :: ns => by
    rw [render_cons]
    exact h.append (h.node n) (h.render ns)

theorem Closed.rows (h : Closed P) : ∀ (items : List (List Node)),
    ∀ row ∈ items.map (intercepting p).render, P row
  | [], _, hrow => by cases hrow
  | children :: items, row, hrow => by
    rw [List.map_cons] at hrow
    rcases List.mem_cons.mp hrow with rfl | hrow
    · exact h.render children
    · exact h.rows items row hrow

end

end Phrasebook.Rich
