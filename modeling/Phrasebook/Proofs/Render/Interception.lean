import Phrasebook.Proofs.Render.Override
import Phrasebook.Proofs.Render.Rich
import Phrasebook.Render.Activation

namespace Phrasebook

namespace RichNode

variable (p : String → Bool)

mutual

/-- The node with each anchor in it intercepted if `p` holds of its target, and followed by the host
if not. -/
def relabel : RichNode → RichNode
  | .text s => .text s
  | .lineBreak => .lineBreak
  | .mark m children => .mark m (relabelAll children)
  | .anchor href name _ children =>
    .anchor href name (if p href then .intercept else .navigate) (relabelAll children)
  | .item children => .item (relabelAll children)
  | .list kind items => .list kind (relabelItems items)
  | .overlay info shown children => .overlay info shown (relabelAll children)

def relabelAll : List RichNode → List RichNode
  | [] => []
  | n :: ns => relabel n :: relabelAll ns

def relabelItems : List (String × List RichNode) → List (String × List RichNode)
  | [] => []
  | (label, children) :: items => (label, relabelAll children) :: relabelItems items

end

theorem relabelAll_append (ns ms : List RichNode) :
    relabelAll p (ns ++ ms) = relabelAll p ns ++ relabelAll p ms := by
  induction ns with
  | nil => rfl
  | cons n ns ih => rw [List.cons_append, relabelAll, relabelAll, ih, List.cons_append]

/-- Labels are kept. -/
theorem relabelItems_mapIdx (label : Nat → String) (rows : List (List RichNode)) :
    relabelItems p (rows.mapIdx fun i row => (label i, row)) =
      (rows.map (relabelAll p)).mapIdx fun i row => (label i, row) := by
  induction rows generalizing label with
  | nil => rfl
  | cons row rows ih =>
    rw [List.mapIdx_cons, relabelItems, ih fun i => label (i + 1), List.map_cons, List.mapIdx_cons]

theorem anchorsAll_append (ns ms : List RichNode) :
    anchorsAll (ns ++ ms) = anchorsAll ns ++ anchorsAll ms := by
  induction ns with
  | nil => rfl
  | cons n ns ih => rw [List.cons_append, anchorsAll, anchorsAll, ih, List.append_assoc]

theorem anchorsItems_mapIdx (label : Nat → String) (rows : List (List RichNode)) :
    anchorsItems (rows.mapIdx fun i row => (label i, row)) = rows.flatMap anchorsAll := by
  induction rows generalizing label with
  | nil => rfl
  | cons row rows ih =>
    rw [List.mapIdx_cons, anchorsItems, ih fun i => label (i + 1), List.flatMap_cons]

end RichNode

namespace Node

mutual

/-- The links of a node, each before those inside it. -/
def links : Node → List LinkHead
  | .text _ children _ => linksAll children
  | .link href content children styles name =>
    ⟨href, content, styles, name⟩ :: linksAll children
  | .item children => linksAll children
  | .list _ items => linksItems items

def linksAll : List Node → List LinkHead
  | [] => []
  | n :: ns => links n ++ linksAll ns

def linksItems : List (List Node) → List LinkHead
  | [] => []
  | children :: items => linksAll children ++ linksItems items

end

end Node

namespace Rich

open RichNode

variable (p : String → Bool)

/-- Neither content nor the marks around it have anchors to relabel. -/
theorem relabelAll_wrap_content (styles : Styles) (s : String) :
    relabelAll p (wrap styles (content s)) = wrap styles (content s) := by
  apply wrap_content_induction (P := fun ns => relabelAll p ns = ns)
  · rfl
  · intro ns h
    rw [relabelAll, relabel, h]
  · intro t ns _ h
    rw [relabelAll, relabel, h]
  · intro m ns h
    rw [relabelAll, relabel, h, relabelAll]

theorem anchorsAll_wrap_content (styles : Styles) (s : String) :
    anchorsAll (wrap styles (content s)) = [] := by
  apply wrap_content_induction (P := fun ns => anchorsAll ns = [])
  · rfl
  · exact fun _ h => h
  · exact fun _ _ _ h => h
  · intro m ns h
    rw [anchorsAll, anchors, h, anchorsAll]
    rfl

/-- Interception shows in the items of a list as it does in their rows. -/
theorem list_relabel (kind : ListKind) {items : List (List Node)}
    (hitems : ∀ children ∈ items, (intercepting p).render children =
      relabelAll p (renderer.render children)) :
    (intercepting p).node (.list kind items) = relabelAll p (renderer.node (.list kind items)) := by
  have hrows : items.map (fun children => [RichNode.item ((intercepting p).render children)]) =
      (items.map fun children => [RichNode.item (renderer.render children)]).map
        (relabelAll p) := by
    rw [List.map_map]
    apply List.map_congr_left
    intro children hchildren
    rw [hitems children hchildren]
    rfl
  rw [← intercepting_never, node_list, node_list, relabelAll, relabel, relabelItems_mapIdx,
    intercepting_never, hrows, relabelAll]

mutual

theorem node_relabel : ∀ n : Node, (intercepting p).node n = relabelAll p (renderer.node n)
  | .text s children styles => by
    have hrow := render_relabel children
    rw [← intercepting_never] at hrow ⊢
    rw [node_text, node_text, relabelAll_append, relabelAll_wrap_content, hrow]
  | .link href s children styles name => by
    have hrow := render_relabel children
    rw [← intercepting_never] at hrow ⊢
    rw [node_link, node_link, relabelAll, relabel, relabelAll_append, relabelAll_wrap_content,
      hrow, relabelAll]
  | .item children => by
    have hrow := render_relabel children
    rw [← intercepting_never] at hrow ⊢
    rw [node_item, node_item, relabelAll, relabel, hrow, relabelAll]
  | .list kind items => list_relabel p kind (render_relabel_of_mem items)

theorem render_relabel : ∀ ns : List Node,
    (intercepting p).render ns = relabelAll p (renderer.render ns)
  | [] => rfl
  | n :: ns => by
    have hn := node_relabel n
    have hns := render_relabel ns
    rw [← intercepting_never] at hn hns ⊢
    rw [render_cons, render_cons, relabelAll_append, hn, hns]

theorem render_relabel_of_mem : ∀ items : List (List Node), ∀ children ∈ items,
    (intercepting p).render children = relabelAll p (renderer.render children)
  | [] => by simp
  | children :: items => by
    have hchildren := render_relabel children
    have hitems := render_relabel_of_mem items
    simpa using ⟨hchildren, hitems⟩

end

/-- The anchor that a link becomes. -/
def anchorOf (link : LinkHead) : Anchor :=
  ⟨link.href, link.name, if p link.href then .intercept else .navigate⟩

mutual

theorem anchorsAll_node : ∀ n : Node,
    anchorsAll ((intercepting p).node n) = n.links.map (anchorOf p)
  | .text s children styles => by
    rw [node_text, anchorsAll_append, anchorsAll_wrap_content, anchorsAll_render children]
    rfl
  | .link href s children styles name => by
    rw [node_link, anchorsAll, anchors, anchorsAll_append, anchorsAll_wrap_content,
      anchorsAll_render children, anchorsAll, List.append_nil]
    rfl
  | .item children => by
    rw [node_item, anchorsAll, anchors, anchorsAll_render children, anchorsAll, List.append_nil]
    rfl
  | .list kind items => by
    rw [node_list, anchorsAll, anchors, anchorsItems_mapIdx, List.flatMap_map, anchorsAll_items items,
      anchorsAll, List.append_nil]
    rfl

theorem anchorsAll_render : ∀ ns : List Node,
    anchorsAll ((intercepting p).render ns) = (Node.linksAll ns).map (anchorOf p)
  | [] => rfl
  | n :: ns => by
    rw [render_cons, anchorsAll_append, anchorsAll_node n, anchorsAll_render ns, Node.linksAll,
      List.map_append]

theorem anchorsAll_items : ∀ items : List (List Node),
    (items.flatMap fun children => anchorsAll [.item ((intercepting p).render children)]) =
      (Node.linksItems items).map (anchorOf p)
  | [] => rfl
  | children :: items => by
    rw [List.flatMap_cons, anchorsAll_items items, anchorsAll, anchors, anchorsAll_render children,
      anchorsAll, List.append_nil, Node.linksItems, List.map_append]

end

theorem opened_map_anchorOf (links : List LinkHead) :
    Anchor.opened (links.map (anchorOf p)) = (links.map LinkHead.href).filter p := by
  induction links with
  | nil => rfl
  | cons link links ih =>
    rw [Anchor.opened] at ih ⊢
    cases h : p link.href with
    | false => simpa [anchorOf, h] using ih
    | true => simpa [anchorOf, h] using ih

theorem activate_anchorOf (link : LinkHead) :
    (anchorOf p link).activate = if p link.href then .opened else .navigate link.href := by
  cases h : p link.href <;> simp [anchorOf, Anchor.activate, h]

theorem phrase_relabel (debug : Bool) (info : DebugInfo) (ns : List Node) :
    render (intercepting p) debug info ns = relabelAll p (render renderer debug info ns) := by
  rw [render, render, render_relabel]
  cases debug with
  | false => rfl
  | true => rfl

theorem phrase_anchors (debug : Bool) (info : DebugInfo) (ns : List Node) :
    anchorsAll (render (intercepting p) debug info ns) = (Node.linksAll ns).map (anchorOf p) := by
  rw [← anchorsAll_render, render]
  cases debug with
  | false => rfl
  | true => exact List.append_nil _

/-- Interception does nothing but label each anchor by its own target, through a record as by the
renderer. The anchors are the links of the phrase in reading order, and activating them in that
order hands the opener the targets that are intercepted and leaves the others to the host. -/
theorem intercepting_only_labels (p : String → Bool) (debug : Bool) (info : DebugInfo)
    (ns : List Node) :
    (interceptingRecord p).render ns = relabelAll p (record.render ns) ∧
      render (intercepting p) debug info ns = relabelAll p (render renderer debug info ns) ∧
      anchorsAll (render (intercepting p) debug info ns) =
        (Node.linksAll ns).map (fun link =>
          ⟨link.href, link.name, if p link.href then .intercept else .navigate⟩) ∧
      Anchor.opened (anchorsAll (render (intercepting p) debug info ns)) =
        ((Node.linksAll ns).map LinkHead.href).filter p ∧
      (anchorsAll (render (intercepting p) debug info ns)).map Anchor.activate =
        (Node.linksAll ns).map (fun link =>
          if p link.href then .opened else .navigate link.href) := by
  have hrecord : (interceptingRecord p).render ns = relabelAll p (record.render ns) := by
    rw [(interceptingRecord_follows p).render_eq, render_record, render_relabel]
  have hanchors := phrase_anchors p debug info ns
  refine ⟨hrecord, phrase_relabel p debug info ns, hanchors, ?_, ?_⟩
  · rw [hanchors, opened_map_anchorOf]
  · rw [hanchors, List.map_map]
    apply List.map_congr_left
    intro link _
    exact activate_anchorOf p link

end Rich

end Phrasebook
