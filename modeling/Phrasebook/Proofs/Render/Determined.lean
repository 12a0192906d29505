import Phrasebook.Proofs.Render.Merged
import Phrasebook.Proofs.Render.Rich
import Phrasebook.Proofs.Render.Unambiguous

namespace Phrasebook

open RichNode

namespace ListKind

variable {kind : ListKind} {place : Nat} {label : Nat → String}

/-- Labels of the places from `place` on. -/
def LabelsFrom (kind : ListKind) (place : Nat) (label : Nat → String) : Prop :=
  ∀ i, label i = kind.label (place + i)

theorem labelsFrom_label (kind : ListKind) : kind.LabelsFrom 0 kind.label := by
  intro i
  rw [Nat.zero_add]

theorem LabelsFrom.head (h : kind.LabelsFrom place label) : label 0 = kind.label place := h 0

theorem LabelsFrom.tail (h : kind.LabelsFrom place label) :
    kind.LabelsFrom (place + 1) fun i => label (i + 1) := by
  intro i
  rw [Nat.add_right_comm, Nat.add_assoc]
  exact h (i + 1)

end ListKind

/-- The node of an element with its children. A list labels them by their places. -/
def Head.node : Head → List RichNode → RichNode
  | .mark m, children => .mark m children
  | .anchor href name action, children => .anchor href name action children
  | .item, children => .item children
  | .list kind, children => .list kind (children.mapIdx fun i item => (kind.label i, [item]))
  | .overlay info, children => .overlay info false children

namespace Markup

mutual

/-- The node that a piece of markup stands for. -/
def gather : Markup → RichNode
  | .letter c => .text (String.singleton c)
  | .lineBreak => .lineBreak
  | .element head children => head.node (gatherAll children)

/-- The row that a markup stands for, with letters gathered to texts. -/
def gatherAll : List Markup → List RichNode
  | [] => []
  | m :: ms => joinFront (gather m) (gatherAll ms)

end

theorem gatherAll_letters {cs : List Char} (h : cs ≠ []) (ms : List Markup) :
    gatherAll (cs.map .letter ++ ms) = joinFront (.text (String.ofList cs)) (gatherAll ms) := by
  induction cs with
  | nil => exact absurd rfl h
  | cons c cs ih =>
    cases cs with
    | nil => rfl
    | cons d cs =>
      have htext : String.singleton c ++ String.ofList (d :: cs) =
          String.ofList (c :: d :: cs) := by
        apply String.toList_inj.mp
        simp
      rw [List.map_cons, List.cons_append, gatherAll, ih (by simp), gather,
        joinFront_text_joinFront, htext]

end Markup

namespace RichNode

open Markup

mutual

/-- As renderers leave a tree: texts are not empty, overlays are hidden, and each entry of a list
has the label of its place and one item. -/
def Regular : RichNode → Prop
  | .text s => s ≠ ""
  | .lineBreak => True
  | .mark _ children => RegularAll children
  | .anchor _ _ _ children => RegularAll children
  | .item children => RegularAll children
  | .list kind items => RegularItems kind 0 items
  | .overlay _ shown children => shown = false ∧ RegularAll children

def RegularAll : List RichNode → Prop
  | [] => True
  | n :: ns => Regular n ∧ RegularAll ns

/-- Entries of a list from a place on. -/
def RegularItems (kind : ListKind) : Nat → List (String × List RichNode) → Prop
  | _, [] => True
  | place, (label, children) :: items =>
    label = kind.label place ∧ (∃ row, children = [.item row]) ∧ RegularAll children ∧
      RegularItems kind (place + 1) items

end

theorem regularAll_append {ns ms : List RichNode} (hns : RegularAll ns) (hms : RegularAll ms) :
    RegularAll (ns ++ ms) := by
  induction ns with
  | nil => exact hms
  | cons n ns ih => exact ⟨hns.1, ih hns.2⟩

theorem regularItems_mapIdx {kind : ListKind} {label : Nat → String} {place : Nat}
    (hlabel : kind.LabelsFrom place label) {rows : List (List RichNode)}
    (h : ∀ row ∈ rows, RegularAll row) :
    RegularItems kind place
      ((rows.map fun row => [RichNode.item row]).mapIdx fun i item => (label i, item)) := by
  induction rows generalizing label place with
  | nil => trivial
  | cons row rows ih =>
    have hrow : RegularAll row := h row (by simp)
    have hrows : ∀ r ∈ rows, RegularAll r := fun r hr => h r (by simp [hr])
    rw [List.map_cons, List.mapIdx_cons]
    exact ⟨hlabel.head, ⟨row, rfl⟩, ⟨hrow, trivial⟩, ih hlabel.tail hrows⟩

mutual

theorem gatherAll_spell : ∀ {n : RichNode}, Regular n → ∀ ms : List Markup,
    gatherAll (spell n ++ ms) = joinFront (merged n) (gatherAll ms)
  | .text s, h, ms => by
    have hletters : s.toList ≠ [] := by simpa [Regular] using h
    rw [spell, letters, gatherAll_letters hletters, String.ofList_toList, merged]
  | .lineBreak, _, _ => rfl
  | .mark m children, h, ms => by
    rw [spell, List.singleton_append, gatherAll, gather, gatherAll_spellAll h, Head.node, merged]
  | .anchor href name action children, h, ms => by
    rw [spell, List.singleton_append, gatherAll, gather, gatherAll_spellAll h, Head.node, merged]
  | .item children, h, ms => by
    rw [spell, List.singleton_append, gatherAll, gather, gatherAll_spellAll h, Head.node, merged]
  | .list kind items, h, ms => by
    rw [spell, List.singleton_append, gatherAll, gather, Head.node,
      gatherAll_spellItems kind.labelsFrom_label h, merged]
  | .overlay info shown children, h, ms => by
    obtain ⟨rfl, hchildren⟩ := h
    rw [spell, List.singleton_append, gatherAll, gather, gatherAll_spellAll hchildren, Head.node,
      merged]

theorem gatherAll_spellAll : ∀ {ns : List RichNode}, RegularAll ns →
    gatherAll (spellAll ns) = mergedAll ns
  | [], _ => rfl
  | n :: ns, h => by
    rw [spellAll, gatherAll_spell h.1, gatherAll_spellAll h.2, mergedAll]

theorem gatherAll_spellItems {kind : ListKind} {label : Nat → String} {place : Nat}
    (hlabel : kind.LabelsFrom place label) :
    ∀ {items : List (String × List RichNode)}, RegularItems kind place items →
      (gatherAll (spellItems items)).mapIdx (fun i item => (label i, [item])) = mergedItems items
  | [], _ => rfl
  | (_, children) :: items, h => by
    obtain ⟨rfl, ⟨row, rfl⟩, hrow, hitems⟩ := h
    have hitem : [RichNode.item (gatherAll (spellAll row))] = mergedAll [.item row] :=
      gatherAll_spellAll hrow
    -- entries are gathered apart, since an item joins with nothing
    have hgather : gatherAll (spellItems ((kind.label place, [.item row]) :: items)) =
        .item (gatherAll (spellAll row)) :: gatherAll (spellItems items) := rfl
    rw [hgather, List.mapIdx_cons, gatherAll_spellItems hlabel.tail hitems, hlabel.head, hitem,
      mergedItems]

end

end RichNode

namespace Rich

variable (p : String → Bool)

theorem regularAll_wrap_content (styles : Styles) (s : String) :
    RegularAll (wrap styles (content s)) := by
  apply wrap_content_induction (P := RegularAll)
  · trivial
  · exact fun _ h => ⟨trivial, h⟩
  · exact fun _ _ ht h => ⟨ht, h⟩
  · exact fun _ _ h => ⟨h, trivial⟩

theorem closed_regularAll : Closed RegularAll where
  nil := trivial
  append := regularAll_append
  content := regularAll_wrap_content
  anchor _ _ _ _ h := ⟨h, trivial⟩
  item h := ⟨h, trivial⟩
  list kind _ h := ⟨regularItems_mapIdx kind.labelsFrom_label h, trivial⟩

theorem regularAll_render (ns : List Node) : RegularAll ((intercepting p).render ns) :=
  closed_regularAll.render p ns

/-- A tree of a phrase, with or without interception and overlay. -/
def Rendered (tree : List RichNode) : Prop :=
  ∃ p debug info ns, tree = render (intercepting p) debug info ns

theorem rendered_default (debug : Bool) (info : DebugInfo) (ns : List Node) :
    Rendered (render renderer debug info ns) :=
  ⟨fun _ => false, debug, info, ns, rfl⟩

theorem Rendered.regular {tree : List RichNode} (h : Rendered tree) : RegularAll tree := by
  obtain ⟨p, debug, info, ns, rfl⟩ := h
  cases debug with
  | false => exact regularAll_render p ns
  | true => exact ⟨⟨rfl, regularAll_render p ns⟩, trivial⟩

/-- Trees with one markup differ at most in where texts are broken. -/
theorem merged_eq_of_markup_eq {tree tree' : List RichNode} (htree : Rendered tree)
    (htree' : Rendered tree') (h : markup tree = markup tree') :
    mergedAll tree = mergedAll tree' ∧ visibleText tree = visibleText tree' ∧
      anchorsAll tree = anchorsAll tree' ∧ landmarksAll tree = landmarksAll tree' := by
  have hmerged : mergedAll tree = mergedAll tree' := by
    rw [← gatherAll_spellAll htree.regular, ← gatherAll_spellAll htree'.regular,
      spellAll_eq_of_markup_eq h]
  have hlandmarks : landmarksAll tree = landmarksAll tree' := by
    rw [← landmarksAll_merged, hmerged, landmarksAll_merged]
  refine ⟨hmerged, ?_, ?_, hlandmarks⟩
  · rw [visibleText, visibleText, ← visibleAll_merged, hmerged, visibleAll_merged]
  · rw [anchorsAll_eq, anchorsAll_eq, hlandmarks]

/-- A link and an entry with the words of each in one node. -/
def wholePhrase : List Node := [.ofLink "/x" "ab", .list .ordered [[.ofText "cd"]]]

/-- The same words, broken in two. -/
def brokenPhrase : List Node :=
  [.link "/x" "a" [.ofText "b"] .plain none, .list .ordered [[.ofText "c", .ofText "d"]]]

theorem merged_eq_of_markup_eq_broken :
    mergedAll (render renderer true ⟨"g", "k"⟩ wholePhrase) =
      mergedAll (render (intercepting (· == "/y")) true ⟨"g", "k"⟩ brokenPhrase) := by
  have hmarkup : markup (render renderer true ⟨"g", "k"⟩ wholePhrase) =
      markup (render (intercepting (· == "/y")) true ⟨"g", "k"⟩ brokenPhrase) := by
    decide
  exact (merged_eq_of_markup_eq (rendered_default true _ _) ⟨_, _, _, _, rfl⟩ hmarkup).1

end Rich

end Phrasebook
