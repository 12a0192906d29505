import Mathlib.Data.List.Basic
import Phrasebook.Render.Renderer

namespace Phrasebook.Renderer

variable {ω : Type} (r : Renderer ω)

theorem outputs_eq_map (ns : List Node) : r.outputs ns = ns.map r.node := by
  induction ns with
  | nil => rfl
  | cons n ns ih => simp [outputs, ih]

theorem itemOutputs_eq_map (items : List (List Node)) :
    r.itemOutputs items = items.map fun children => r.node (.item children) := by
  induction items with
  | nil => rfl
  | cons children items ih => simp [itemOutputs, ih, node]

theorem render_eq_map (ns : List Node) : r.render ns = r.join (ns.map r.node) := by
  rw [render, outputs_eq_map]

theorem node_text (content : String) (children : List Node) (styles : Styles) :
    r.node (.text content children styles) = r.text content styles (r.render children) := rfl

theorem node_link (href content : String) (children : List Node) (styles : Styles)
    (name : Option String) :
    r.node (.link href content children styles name) =
      r.link ⟨href, content, styles, name⟩ (r.render children) := rfl

/-- An item sees each child next to what the child becomes. -/
theorem node_item (children : List Node) :
    r.node (.item children) = r.item (children.map fun n => (n, r.node n)) := by
  rw [node, outputs_eq_map, List.map_prod_left_eq_zip]

theorem node_list (kind : ListKind) (items : List (List Node)) :
    r.node (.list kind items) = r.list kind (items.map fun children => r.node (.item children)) := by
  rw [node, itemOutputs_eq_map]

end Phrasebook.Renderer
