import Phrasebook.Proofs.Render.ItemPart
import Phrasebook.Proofs.Render.Rich
import Phrasebook.Render.Plain

namespace Phrasebook

namespace Node

mutual

/-- What a node adds to the item around it, when `say` tells the text of a node by itself. Texts
are opened, so that a list in them shows up as nested. -/
def parts (say : Node → String) (nested : Bool) : Node → List ItemPart
  | .text content children _ => .words content :: partsAll say true children
  | .link href content children styles name =>
    [.words (say (.link href content children styles name))]
  | .item children => [.words (say (.item children))]
  | .list kind items => [.list nested (say (.list kind items))]

/-- What a row of nodes adds to the item around it. -/
def partsAll (say : Node → String) (nested : Bool) : List Node → List ItemPart
  | [] => []
  | n :: ns => parts say nested n ++ partsAll say nested ns

end

/-- Whether `say` tells a text as its content and then what its children tell. -/
def OpensTexts (say : Node → String) : Prop :=
  ∀ content children styles,
    say (.text content children styles) = content ++ String.join (children.map say)

mutual

theorem join_parts {say : Node → String} (h : OpensTexts say) (nested : Bool) :
    ∀ n : Node, String.join ((parts say nested n).map ItemPart.text) = say n
  | .text content children styles => by
    rw [parts, List.map_cons, String.join_cons, join_partsAll h true children, h]
    rfl
  | .link .. => by simp [parts]
  | .item _ => by simp [parts]
  | .list .. => by simp [parts]

theorem join_partsAll {say : Node → String} (h : OpensTexts say) (nested : Bool) :
    ∀ ns : List Node,
      String.join ((partsAll say nested ns).map ItemPart.text) = String.join (ns.map say)
  | [] => rfl
  | n :: ns => by
    rw [partsAll, List.map_append, String.join_append, join_parts h nested n,
      join_partsAll h nested ns, List.map_cons, String.join_cons]

end

end Node

namespace Plain

theorem render_eq_join (ns : List Node) : render ns = String.join (ns.map renderer.node) := by
  rw [render, Renderer.render, Renderer.outputs_eq_map]
  rfl

theorem node_text (content : String) (children : List Node) (styles : Styles) :
    renderer.node (.text content children styles) =
      content ++ String.join (children.map renderer.node) :=
  congrArg (content ++ ·) (render_eq_join children)

theorem node_link (href content : String) (children : List Node) (styles : Styles)
    (name : Option String) :
    renderer.node (.link href content children styles name) =
      content ++ String.join (children.map renderer.node) :=
  congrArg (content ++ ·) (render_eq_join children)

mutual

/-- A nested list breaks no line. -/
theorem lay_parts_nested (out : String) : ∀ n : Node,
    ItemPart.lay false out (n.parts renderer.node true) = out ++ renderer.node n
  | .text content children styles => by
    rw [Node.parts, ItemPart.lay, lay_partsAll_nested, node_text, String.append_assoc]
  | .link .. => rfl
  | .item _ => rfl
  | .list .. => rfl

theorem lay_partsAll_nested (out : String) : ∀ ns : List Node,
    ItemPart.lay false out (Node.partsAll renderer.node true ns) =
      out ++ String.join (ns.map renderer.node)
  | [] => by simp [Node.partsAll, ItemPart.lay]
  | n :: ns => by
    rw [Node.partsAll, ItemPart.lay_append, lay_parts_nested, lay_partsAll_nested, List.map_cons,
      String.join_cons, String.append_assoc]

end

theorem addChild_eq_lay (out : String) (n : Node) :
    addChild out (n, renderer.node n) = ItemPart.lay false out (n.parts renderer.node false) := by
  cases n with
  | text content children styles =>
    rw [Node.parts, ItemPart.lay, lay_partsAll_nested, addChild, node_text, String.append_assoc]
    rfl
  | link => rfl
  | item => rfl
  | list => rfl

theorem node_item (children : List Node) :
    renderer.node (.item children) =
      Line.finish (ItemPart.lay false "" (Node.partsAll renderer.node false children)) := by
  have hfold : ∀ (out : String) (ns : List Node),
      (ns.zip (ns.map renderer.node)).foldl addChild out =
        ItemPart.lay false out (Node.partsAll renderer.node false ns) := by
    intro out ns
    induction ns generalizing out with
    | nil => rfl
    | cons n ns ih =>
      rw [List.map_cons, List.zip_cons_cons, List.foldl_cons, addChild_eq_lay, ih, Node.partsAll,
        ItemPart.lay_append]
  rw [Renderer.node, Renderer.outputs_eq_map, ← hfold]
  rfl

end Plain

namespace RichNode

theorem visibleAll_flatten (rows : List (List RichNode)) :
    visibleAll rows.flatten = String.join (rows.map visibleAll) := by
  induction rows with
  | nil => rfl
  | cons row rows ih => simp [ih]

end RichNode

namespace Rich

open RichNode

/-- What a reader sees of the rich form of a node by itself. -/
def shown (p : String → Bool) (n : Node) : String := visibleAll ((intercepting p).node n)

variable (p : String → Bool)

theorem visibleAll_render (ns : List Node) :
    visibleAll ((intercepting p).render ns) = String.join (ns.map (shown p)) := by
  rw [Renderer.render, Renderer.outputs_eq_map]
  exact (visibleAll_flatten _).trans (by rw [List.map_map]; rfl)

theorem visibleAll_content_render (content : String) (children : List Node) (styles : Styles) :
    visibleAll (wrap styles (Rich.content content) ++ (intercepting p).render children) =
      content ++ String.join (children.map (shown p)) := by
  rw [visibleAll_append, visibleAll_wrap, visibleAll_content, visibleAll_render]

theorem shown_text (content : String) (children : List Node) (styles : Styles) :
    shown p (.text content children styles) = content ++ String.join (children.map (shown p)) :=
  visibleAll_content_render p content children styles

theorem shown_link (href content : String) (children : List Node) (styles : Styles)
    (name : Option String) :
    shown p (.link href content children styles name) =
      content ++ String.join (children.map (shown p)) := by
  rw [shown, Renderer.node, intercepting_link, visibleAll, visible, visibleAll, String.append_empty]
  exact visibleAll_content_render p content children styles

theorem shown_list (kind : ListKind) (items : List (List Node)) :
    shown p (.list kind items) =
      visibleItems (((intercepting p).itemOutputs items).mapIdx fun i item => (kind.label i, item)) :=
  String.append_empty

mutual

/-- Rich output opens texts for the item around them, and every list breaks the line. -/
theorem visibleItem_node (nested : Bool) (out : String) : ∀ n : Node,
    visibleItem out ((intercepting p).node n) = ItemPart.lay true out (n.parts (shown p) nested)
  | .text content children styles => by
    have h := visibleItem_append out (wrap styles (Rich.content content))
      ((intercepting p).outputs children).flatten
    rw [visibleItem_wrap_content, visibleItem_outputs true] at h
    exact h
  | .link href content children styles name => by
    have hlink : ∀ n ∈ (intercepting p).node (.link href content children styles name),
        n.isList = false := by
      simp [Renderer.node, intercepting_link, isList]
    exact visibleItem_of_no_list out hlink
  | .item children => by
    have hitem : ∀ n ∈ (intercepting p).node (.item children), n.isList = false := by
      simp [Renderer.node, intercepting, renderer, isList]
    exact visibleItem_of_no_list out hitem
  | .list kind items => by
    rw [Node.parts, ItemPart.lay, shown_list, Bool.not_true, Bool.and_false]
    rfl

theorem visibleItem_outputs (nested : Bool) (out : String) : ∀ ns : List Node,
    visibleItem out ((intercepting p).outputs ns).flatten =
      ItemPart.lay true out (Node.partsAll (shown p) nested ns)
  | [] => rfl
  | n :: ns => by
    rw [Renderer.outputs, List.flatten_cons, visibleItem_append, visibleItem_node nested,
      visibleItem_outputs nested, Node.partsAll, ItemPart.lay_append]

end

theorem shown_item (children : List Node) :
    shown p (.item children) =
      Line.finish (ItemPart.lay true "" (Node.partsAll (shown p) false children)) := by
  have hitem : visible (.item ((intercepting p).render children)) =
      Line.finish (visibleItem "" ((intercepting p).outputs children).flatten) := by
    rw [visible]
    rfl
  rw [shown, node_item, visibleAll, visibleAll, hitem, visibleItem_outputs p false,
    String.append_empty]

end Rich

namespace Node

mutual

/-- Whether no list that texts separate from the item around it is written on an open line, nor
anything after it before the item ends or a list directly in the item begins. -/
def settled : Node → Bool
  | .text _ children _ => settledAll children
  | .link _ _ children _ _ => settledAll children
  | .item children =>
    settledAll children && ItemPart.settled "" (partsAll Plain.renderer.node false children)
  | .list _ items => settledItems items

def settledAll : List Node → Bool
  | [] => true
  | n :: ns => settled n && settledAll ns

def settledItems : List (List Node) → Bool
  | [] => true
  | children :: items =>
    settledAll children && ItemPart.settled "" (partsAll Plain.renderer.node false children) &&
      settledItems items

end

end Node

namespace Rich

open RichNode

variable (p : String → Bool)

theorem item_trails {b : Bool} {children : List Node}
    (h : ItemPart.Trail b (Node.partsAll Plain.renderer.node false children)
      (Node.partsAll (shown p) false children)) :
    Line.Trails (b && ItemPart.settled "" (Node.partsAll Plain.renderer.node false children))
      (Plain.renderer.node (.item children)) (shown p (.item children)) := by
  rw [Plain.node_item, shown_item]
  exact h.alike.level (.same "")

theorem join_trails {b : Bool} {nested : Bool} {ns : List Node}
    (h : ItemPart.Trail b (Node.partsAll Plain.renderer.node nested ns)
      (Node.partsAll (shown p) nested ns)) :
    Line.Trails b (String.join (ns.map Plain.renderer.node)) (String.join (ns.map (shown p))) := by
  have hj := h.join
  rwa [Node.join_partsAll Plain.node_text, Node.join_partsAll (shown_text p)] at hj

mutual

theorem parts_trail (nested : Bool) : ∀ n : Node,
    ItemPart.Trail n.settled (n.parts Plain.renderer.node nested) (n.parts (shown p) nested)
  | .text content children _ => .words (.same content) (partsAll_trail true children)
  | .link href content children styles name => by
    have h := (Line.Trails.same content).append (join_trails p (partsAll_trail true children))
    rw [← Plain.node_link href content children styles name,
      ← shown_link p href content children styles name] at h
    exact .single_words h
  | .item children => .single_words (item_trails p (partsAll_trail false children))
  | .list kind items => by
    have h := items_trail kind.label items
    rw [← shown_list] at h
    exact .single_list nested h

theorem partsAll_trail (nested : Bool) : ∀ ns : List Node,
    ItemPart.Trail (Node.settledAll ns) (Node.partsAll Plain.renderer.node nested ns)
      (Node.partsAll (shown p) nested ns)
  | [] => .nil
  | n :: ns => (parts_trail nested n).append (partsAll_trail nested ns)

/-- The items of a list under any labels. -/
theorem items_trail (label : Nat → String) : ∀ items : List (List Node),
    Line.Trails (Node.settledItems items)
      (String.join ((Plain.renderer.itemOutputs items).mapIdx fun i item =>
        label i ++ " " ++ item))
      (visibleItems (((intercepting p).itemOutputs items).mapIdx fun i item => (label i, item)))
  | [] => .same ""
  | children :: items => by
    have hlabel := (Line.Trails.same (label 0 ++ " ")).append
      (item_trails p (partsAll_trail false children))
    have h := hlabel.append (items_trail (fun i => label (i + 1)) items)
    rw [Renderer.itemOutputs, Renderer.itemOutputs, List.mapIdx_cons, List.mapIdx_cons,
      String.join_cons, visibleItems]
    exact h

end

/-- Plain text trails what a reader of the rich tree sees. -/
theorem render_trails (ns : List Node) :
    Line.Trails (Node.settledAll ns) (Plain.render ns)
      (visibleAll ((intercepting p).render ns)) := by
  rw [Plain.render_eq_join, visibleAll_render]
  exact join_trails p (partsAll_trail p false ns)

theorem visibleText_render (debug : Bool) (info : DebugInfo) (ns : List Node) :
    visibleText (render (intercepting p) debug info ns) =
      visibleAll ((intercepting p).render ns) := by
  cases debug with
  | false => rfl
  | true => exact String.append_empty

end Rich

namespace Node

mutual

/-- Whether a list is reached inside the node through texts only. -/
def hidesList : Node → Bool
  | .text _ children _ => showsList children
  | _ => false

/-- Whether a list is among the nodes or hidden in one of them. -/
def showsList : List Node → Bool
  | [] => false
  | n :: ns => n.isList || hidesList n || showsList ns

end

mutual

/-- Whether no item inside the node reaches a list through texts. -/
def listsDirect : Node → Bool
  | .text _ children _ => listsDirectAll children
  | .link _ _ children _ _ => listsDirectAll children
  | .item children => !children.any hidesList && listsDirectAll children
  | .list _ items => listsDirectItems items

def listsDirectAll : List Node → Bool
  | [] => true
  | n :: ns => listsDirect n && listsDirectAll ns

def listsDirectItems : List (List Node) → Bool
  | [] => true
  | children :: items =>
    !children.any hidesList && listsDirectAll children && listsDirectItems items

end

mutual

/-- Whether the node has neither styles nor links. -/
def bare : Node → Bool
  | .text _ children styles => styles.isPlain && bareAll children
  | .link .. => false
  | .item children => bareAll children
  | .list _ items => bareItems items

def bareAll : List Node → Bool
  | [] => true
  | n :: ns => bare n && bareAll ns

def bareItems : List (List Node) → Bool
  | [] => true
  | children :: items => bareAll children && bareItems items

end

variable (say : Node → String)

mutual

theorem any_isNested_parts : ∀ n : Node,
    (parts say true n).any ItemPart.isNested = (n.isList || hidesList n)
  | .text _ children _ => by
    rw [parts, List.any_cons, any_isNested_partsAll children, hidesList]
    rfl
  | .link .. => rfl
  | .item _ => rfl
  | .list .. => rfl

theorem any_isNested_partsAll : ∀ ns : List Node,
    (partsAll say true ns).any ItemPart.isNested = showsList ns
  | [] => rfl
  | n :: ns => by
    rw [partsAll, List.any_append, any_isNested_parts n, any_isNested_partsAll ns, showsList]

end

/-- An item has a nested list where a child hides one. -/
theorem any_isNested_item (children : List Node) :
    (partsAll say false children).any ItemPart.isNested = children.any hidesList := by
  induction children with
  | nil => rfl
  | cons n ns ih =>
    have hn : (parts say false n).any ItemPart.isNested = hidesList n := by
      cases n with
      | text content children styles =>
        rw [parts, List.any_cons, any_isNested_partsAll, hidesList]
        rfl
      | link => rfl
      | item => rfl
      | list => rfl
    rw [partsAll, List.any_append, hn, ih, List.any_cons]

theorem settled_item_of_not_hidden {children : List Node} (h : children.any hidesList = false) :
    ItemPart.settled "" (partsAll Plain.renderer.node false children) = true :=
  ItemPart.settled_of_not_nested "" (by rw [any_isNested_item, h])

mutual

theorem settled_of_listsDirect : ∀ n : Node, listsDirect n = true → settled n = true
  | .text _ children _, h => settledAll_of_listsDirect children h
  | .link _ _ children _ _, h => settledAll_of_listsDirect children h
  | .item children, h => by
    rw [listsDirect, Bool.and_eq_true, Bool.not_eq_true'] at h
    rw [settled, settledAll_of_listsDirect children h.2, settled_item_of_not_hidden h.1]
    rfl
  | .list _ items, h => settledItems_of_listsDirect items h

theorem settledAll_of_listsDirect : ∀ ns : List Node,
    listsDirectAll ns = true → settledAll ns = true
  | [], _ => rfl
  | n :: ns, h => by
    rw [listsDirectAll, Bool.and_eq_true] at h
    rw [settledAll, settled_of_listsDirect n h.1, settledAll_of_listsDirect ns h.2]
    rfl

theorem settledItems_of_listsDirect : ∀ items : List (List Node),
    listsDirectItems items = true → settledItems items = true
  | [], _ => rfl
  | children :: items, h => by
    rw [listsDirectItems, Bool.and_eq_true, Bool.and_eq_true, Bool.not_eq_true'] at h
    obtain ⟨⟨hidden, hchildren⟩, hitems⟩ := h
    rw [settledItems, settledAll_of_listsDirect children hchildren,
      settled_item_of_not_hidden hidden, settledItems_of_listsDirect items hitems]
    rfl

end

end Node

/-- Plain text and the words of the rich tree are the same exactly when nothing is written on an
open line from a list on that texts separate from the item around it. -/
theorem plain_eq_visible_iff (ns : List Node) :
    Plain.render ns = visibleText (Rich.renderer.render ns) ↔ Node.settledAll ns = true := by
  rw [← Rich.intercepting_never]
  exact (Rich.render_trails _ ns).eq_iff

/-- Even without styles and links the words may differ by a line break: a list inside a text of an
item begins a line in rich output only. -/
theorem not_plain_eq_visible_of_bare :
    ¬ ∀ ns : List Node, Node.bareAll ns = true →
      Plain.render ns = visibleText (Rich.renderer.render ns) := by
  intro h
  have hlist := h [.item [.text "a" [.list .unordered [[.ofText "b"]]] .plain]] (by decide)
  revert hlist
  decide

/-- Styles, links, interception and debug mode change no word, if lists stand directly in the
items around them. -/
theorem visible_eq_plain (ns : List Node) (h : Node.listsDirectAll ns = true)
    (p : String → Bool) (debug : Bool) (info : DebugInfo) :
    visibleText (Rich.render (Rich.intercepting p) debug info ns) = Plain.render ns := by
  rw [Rich.visibleText_render]
  exact ((Rich.render_trails p ns).eq_iff.mpr (Node.settledAll_of_listsDirect ns h)).symm

/-- A styled text around a link that holds a list, and a list of items right after it. -/
def Node.styledNesting : List Node :=
  [.list .ordered
    [[.text "a\nb" [.link "/x" "c" [.list .unordered [[.ofText "d"]]] .all (some "n")] .all,
      .list .unordered [[.item [.styled "e" .all]], []]]]]

theorem visible_styledNesting_eq_plain :
    Node.listsDirectAll Node.styledNesting = true ∧
      visibleText (Rich.render (Rich.intercepting (· == "/x")) true ⟨"g", "k"⟩
        Node.styledNesting) = Plain.render Node.styledNesting :=
  ⟨by decide, visible_eq_plain Node.styledNesting (by decide) _ true _⟩

end Phrasebook
