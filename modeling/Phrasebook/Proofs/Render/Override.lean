import Phrasebook.Proofs.Render.Outputs
import Phrasebook.Render.Renderers

namespace Phrasebook

namespace Renderers

variable {ω : Type}

/-- The functions of a record do what those of a renderer do, given what calls through the record
make of the nodes inside. -/
structure Follows (f : Renderers ω) (r : Renderer ω) : Prop where
  nodes (self : Calls ω) (ns : List Node) : f.nodes self ns = r.join (ns.map self.dispatch)
  text (self : Calls ω) (content : String) (children : List Node) (styles : Styles) :
    f.text self content children styles = r.text content styles (self.nodes children)
  link (self : Calls ω) (head : LinkHead) (children : List Node) :
    f.link self head children = r.link head (self.nodes children)
  item (self : Calls ω) (children : List Node) (out : Node → ω)
    (h : ∀ ns ⊆ children, self.nodes ns = r.join (ns.map out)) :
    f.item self children = r.item (children.map fun n => (n, out n))
  unordered (self : Calls ω) (items : List (List Node)) :
    f.unordered self items = r.list .unordered (items.map self.item)
  ordered (self : Calls ω) (items : List (List Node)) :
    f.ordered self items = r.list .ordered (items.map self.item)

namespace Follows

variable {f : Renderers ω} {r : Renderer ω}

theorem withText (h : f.Follows r) {text : Calls ω → String → List Node → Styles → ω}
    {text' : String → Styles → ω → ω}
    (ht : ∀ self content children styles,
      text self content children styles = text' content styles (self.nodes children)) :
    (f.withText text).Follows { r with text := text' } :=
  { h with text := ht }

theorem withLink (h : f.Follows r) {link : Calls ω → LinkHead → List Node → ω}
    {link' : LinkHead → ω → ω}
    (hl : ∀ self head children, link self head children = link' head (self.nodes children)) :
    (f.withLink link).Follows { r with link := link' } :=
  { h with link := hl }

variable [Inhabited ω]

/-- A row of nodes becomes what the renderer makes of it, if each of its nodes does. -/
theorem nodes_within (h : f.Follows r) {ns : List Node} {depth : Nat}
    (hns : ∀ n ∈ ns, (f.within depth).dispatch n = r.node n) :
    (f.within (depth + 1)).nodes ns = r.render ns := by
  have hmap : ns.map (f.within depth).dispatch = ns.map r.node := List.map_congr_left hns
  rw [nodes_within_succ, h.nodes, hmap, r.render_eq_map]

theorem item_within (h : f.Follows r) {children : List Node} {depth : Nat}
    (hchildren : ∀ n ∈ children, (f.within depth).dispatch n = r.node n) :
    (f.within (depth + 2)).item children = r.node (.item children) := by
  have hrows : ∀ ns ⊆ children, (f.within (depth + 1)).nodes ns = r.join (ns.map r.node) := by
    intro ns hns
    rw [← r.render_eq_map]
    exact h.nodes_within fun n hn => hchildren n (hns hn)
  rw [item_within_succ, h.item _ children r.node hrows, r.node_item]

theorem list_within (h : f.Follows r) (kind : ListKind) {items : List (List Node)} {depth : Nat}
    (hitems : ∀ children ∈ items, (f.within depth).item children = r.node (.item children)) :
    (f.within (depth + 1)).dispatch (.list kind items) = r.node (.list kind items) := by
  have hmap : items.map (f.within depth).item =
      items.map fun children => r.node (.item children) := List.map_congr_left hitems
  rw [r.node_list]
  cases kind with
  | unordered => rw [Calls.dispatch, unordered_within_succ, h.unordered, hmap]
  | ordered => rw [Calls.dispatch, ordered_within_succ, h.ordered, hmap]

mutual

theorem dispatch_within (h : f.Follows r) : ∀ (n : Node) (depth : Nat), n.callDepth ≤ depth →
    (f.within depth).dispatch n = r.node n
  | .text content children styles, depth, hdepth => by
    rw [Node.callDepth] at hdepth
    obtain ⟨d, rfl⟩ := Nat.exists_eq_add_of_le' (Nat.le_of_add_left_le hdepth)
    have hrow := h.nodes_within (dispatch_within_all h children d (by omega))
    rw [Calls.dispatch, text_within_succ, h.text, hrow, r.node_text]
  | .link href content children styles name, depth, hdepth => by
    rw [Node.callDepth] at hdepth
    obtain ⟨d, rfl⟩ := Nat.exists_eq_add_of_le' (Nat.le_of_add_left_le hdepth)
    have hrow := h.nodes_within (dispatch_within_all h children d (by omega))
    rw [Calls.dispatch, link_within_succ, h.link, hrow, r.node_link]
  | .item children, depth, hdepth => by
    rw [Node.callDepth] at hdepth
    obtain ⟨d, rfl⟩ := Nat.exists_eq_add_of_le' (Nat.le_of_add_left_le hdepth)
    exact h.item_within (dispatch_within_all h children d (by omega))
  | .list kind items, depth, hdepth => by
    rw [Node.callDepth] at hdepth
    obtain ⟨d, rfl⟩ := Nat.exists_eq_add_of_le' (Nat.le_of_add_left_le hdepth)
    exact h.list_within kind (item_within_all h items d (by omega))

theorem dispatch_within_all (h : f.Follows r) : ∀ (ns : List Node) (depth : Nat),
    Node.callDepthAll ns ≤ depth → ∀ n ∈ ns, (f.within depth).dispatch n = r.node n
  | [], _, _ => by simp
  | n :: ns, depth, hdepth => by
    rw [Node.callDepthAll] at hdepth
    have hn := dispatch_within h n depth (by omega)
    have hns := dispatch_within_all h ns depth (by omega)
    simpa using ⟨hn, hns⟩

theorem item_within_all (h : f.Follows r) : ∀ (items : List (List Node)) (depth : Nat),
    Node.callDepthItems items ≤ depth →
      ∀ children ∈ items, (f.within (depth + 2)).item children = r.node (.item children)
  | [], _, _ => by simp
  | children :: items, depth, hdepth => by
    rw [Node.callDepthItems] at hdepth
    have hchildren := h.item_within (dispatch_within_all h children depth (by omega))
    have hitems := item_within_all h items depth (by omega)
    simpa using ⟨hchildren, hitems⟩

end

/-- A record that follows a renderer renders as the renderer does. -/
theorem render_eq (h : f.Follows r) (ns : List Node) : f.render ns = r.render ns :=
  h.nodes_within (dispatch_within_all h ns _ (Nat.le_refl _))

end Follows

end Renderers

namespace Node

variable (g : String → String)

mutual

/-- The node with `g` applied to the content of each text in it. -/
def mapTexts : Node → Node
  | .text content children styles => .text (g content) (mapTextsAll children) styles
  | .link href content children styles name => .link href content (mapTextsAll children) styles name
  | .item children => .item (mapTextsAll children)
  | .list kind items => .list kind (mapTextsItems items)

def mapTextsAll : List Node → List Node
  | [] => []
  | n :: ns => mapTexts n :: mapTextsAll ns

def mapTextsItems : List (List Node) → List (List Node)
  | [] => []
  | children :: items => mapTextsAll children :: mapTextsItems items

end

theorem mapTextsAll_eq_map (ns : List Node) : mapTextsAll g ns = ns.map (mapTexts g) := by
  induction ns with
  | nil => rfl
  | cons n ns ih => rw [mapTextsAll, ih, List.map_cons]

theorem mapTextsItems_eq_map (items : List (List Node)) :
    mapTextsItems g items = items.map (mapTextsAll g) := by
  induction items with
  | nil => rfl
  | cons children items ih => rw [mapTextsItems, ih, List.map_cons]

theorem isList_mapTexts (n : Node) : (n.mapTexts g).isList = n.isList := by
  cases n <;> rfl

end Node

namespace Renderer

variable {ω : Type}

/-- The renderer that applies `g` to the content of texts before it does anything else. -/
def mapText (g : String → String) (r : Renderer ω) : Renderer ω :=
  { r with text := fun content => r.text (g content) }

/-- An item does not depend on the contents of the texts in it other than by what they become. -/
def ItemBlind (g : String → String) (r : Renderer ω) : Prop :=
  ∀ (children : List Node) (out : Node → ω),
    r.item (children.map fun n => (n, out n)) = r.item (children.map fun n => (n.mapTexts g, out n))

variable {g : String → String} {r : Renderer ω}

theorem row_mapText {ns : List Node}
    (hns : ∀ n ∈ ns, (r.mapText g).node n = r.node (n.mapTexts g)) :
    (r.mapText g).render ns = r.render (Node.mapTextsAll g ns) := by
  have hmap : ns.map (r.mapText g).node = ns.map (r.node ∘ Node.mapTexts g) :=
    List.map_congr_left hns
  rw [render_eq_map, render_eq_map, hmap, Node.mapTextsAll_eq_map, List.map_map]
  rfl

theorem item_mapText (h : r.ItemBlind g) {children : List Node}
    (hchildren : ∀ n ∈ children, (r.mapText g).node n = r.node (n.mapTexts g)) :
    (r.mapText g).node (.item children) = r.node (.item (Node.mapTextsAll g children)) := by
  have hmap : (children.map fun n => (n, (r.mapText g).node n)) =
      children.map fun n => (n, r.node (n.mapTexts g)) := by
    apply List.map_congr_left
    intro n hn
    rw [hchildren n hn]
  rw [node_item, node_item, hmap, Node.mapTextsAll_eq_map, List.map_map]
  exact h children fun n => r.node (n.mapTexts g)

theorem list_mapText (kind : ListKind) {items : List (List Node)}
    (hitems : ∀ children ∈ items,
      (r.mapText g).node (.item children) = r.node (.item (Node.mapTextsAll g children))) :
    (r.mapText g).node (.list kind items) = r.node (.list kind (Node.mapTextsItems g items)) := by
  rw [node_list, node_list, List.map_congr_left hitems, Node.mapTextsItems_eq_map, List.map_map]
  rfl

mutual

theorem node_mapText (h : r.ItemBlind g) : ∀ n : Node,
    (r.mapText g).node n = r.node (n.mapTexts g)
  | .text content children styles => by
    rw [Node.mapTexts, node_text, node_text, row_mapText (node_mapText_of_mem h children)]
    rfl
  | .link href content children styles name => by
    rw [Node.mapTexts, node_link, node_link, row_mapText (node_mapText_of_mem h children)]
    rfl
  | .item children => item_mapText h (node_mapText_of_mem h children)
  | .list kind items => list_mapText kind (item_mapText_of_mem h items)

theorem node_mapText_of_mem (h : r.ItemBlind g) : ∀ ns : List Node, ∀ n ∈ ns,
    (r.mapText g).node n = r.node (n.mapTexts g)
  | [] => by simp
  | n :: ns => by
    have hn := node_mapText h n
    have hns := node_mapText_of_mem h ns
    simpa using ⟨hn, hns⟩

theorem item_mapText_of_mem (h : r.ItemBlind g) : ∀ items : List (List Node),
    ∀ children ∈ items,
      (r.mapText g).node (.item children) = r.node (.item (Node.mapTextsAll g children))
  | [] => by simp
  | children :: items => by
    have hchildren := item_mapText h (node_mapText_of_mem h children)
    have hitems := item_mapText_of_mem h items
    simpa using ⟨hchildren, hitems⟩

end

/-- Applying `g` while rendering is rendering what `g` has been applied to. -/
theorem render_mapText (h : r.ItemBlind g) (ns : List Node) :
    (r.mapText g).render ns = r.render (Node.mapTextsAll g ns) :=
  row_mapText (node_mapText_of_mem h ns)

end Renderer

namespace Plain

theorem record_follows : record.Follows renderer where
  nodes _ _ := rfl
  text _ _ _ _ := rfl
  link _ _ _ := rfl
  item self children out h := by
    have hchild : ∀ n ∈ children, self.nodes [n] = out n := by
      intro n hn
      have hrow := h [n] (by simpa using hn)
      simpa [renderer] using hrow
    show Line.finish _ = Line.finish ((children.map fun n => (n, out n)).foldl addChild "")
    rw [List.foldl_map]
    apply congrArg Line.finish
    apply List.foldl_ext
    intro text n hn
    rw [hchild n hn]
  unordered _ _ := rfl
  ordered _ _ := rfl

theorem render_record (ns : List Node) : record.render ns = render ns :=
  record_follows.render_eq ns

theorem itemBlind (g : String → String) : renderer.ItemBlind g := by
  intro children out
  show Line.finish _ = Line.finish _
  rw [List.foldl_map, List.foldl_map]
  apply congrArg Line.finish
  apply List.foldl_ext
  intro text n _
  rw [addChild, addChild, Node.isList_mapTexts]

theorem follows_withText (g : String → String) :
    (record.withText fun self content children _ => g content ++ self.nodes children).Follows
      (renderer.mapText g) :=
  record_follows.withText fun _ _ _ _ => rfl

end Plain

namespace Rich

theorem record_follows : record.Follows renderer where
  nodes _ _ := rfl
  text _ _ _ _ := rfl
  link _ _ _ := rfl
  item self children out h := by
    have hrow : self.nodes children = (children.map out).flatten := h children (List.Subset.refl _)
    show [RichNode.item (self.nodes children)] =
      [.item ((children.map fun n => (n, out n)).map (·.2)).flatten]
    rw [hrow, List.map_map]
    rfl
  unordered _ _ := rfl
  ordered _ _ := rfl

theorem render_record (ns : List Node) : record.render ns = renderer.render ns :=
  record_follows.render_eq ns

theorem interceptingRecord_follows (p : String → Bool) :
    (interceptingRecord p).Follows (intercepting p) :=
  record_follows.withLink fun _ _ _ => rfl

theorem itemBlind (g : String → String) : renderer.ItemBlind g := by
  intro children out
  show [RichNode.item _] = [RichNode.item _]
  rw [List.map_map, List.map_map]
  rfl

theorem follows_withText (g : String → String) :
    (record.withText fun self content children styles =>
      record.text self (g content) children styles).Follows (renderer.mapText g) :=
  record_follows.withText fun _ _ _ _ => rfl

end Rich

/-- A new function for texts acts on every text, however deep, and on nothing else. -/
theorem render_withText (g : String → String) (ns : List Node) :
    (Plain.record.withText fun self content children _ =>
        g content ++ self.nodes children).render ns =
      Plain.render (Node.mapTextsAll g ns) ∧
    (Rich.record.withText fun self content children styles =>
        Rich.record.text self (g content) children styles).render ns =
      Rich.renderer.render (Node.mapTextsAll g ns) := by
  constructor
  · rw [(Plain.follows_withText g).render_eq]
    exact Renderer.render_mapText (Plain.itemBlind g) ns
  · rw [(Rich.follows_withText g).render_eq]
    exact Renderer.render_mapText (Rich.itemBlind g) ns

example :
    (Plain.record.withText fun self content children _ =>
        "~" ++ content ++ self.nodes children).render
      [.list .unordered [[.text "a" [.ofText "b"] .plain]]] = "• ~a~b\n" := by
  decide

end Phrasebook
