import Phrasebook.Proofs.Render.Rich
import Phrasebook.Proofs.Render.Skeleton

namespace Phrasebook

/-- As many line breaks, and both texts empty or none. -/
structure SameLines (s t : String) : Prop where
  breaks : s.toList.count '\n' = t.toList.count '\n'
  empty : s = "" ↔ t = ""

namespace SameLines

variable {s s' t t' : String}

theorem refl (s : String) : SameLines s s := ⟨rfl, Iff.rfl⟩

theorem append (h : SameLines s t) (h' : SameLines s' t') : SameLines (s ++ s') (t ++ t') := by
  constructor
  · simp [h.breaks, h'.breaks]
  · simp [h.empty, h'.empty]

end SameLines

namespace Rich

open RichNode Markup

/-- The characters of a content, with its breaks. -/
def spelled (cs : List Char) : List Markup :=
  cs.map fun c => if c = '\n' then .lineBreak else .letter c

theorem spellAll_lineNodes (line : List Char) : spellAll (lineNodes line) = line.map .letter := by
  cases line with
  | nil => rfl
  | cons c cs => simp [lineNodes, spellAll, spell, letters]

/-- The first line of a text, then the other ones with a break in front of each. -/
theorem spellAll_breaks_cons (line : List Char) (ls : List (List Char)) :
    spellAll ([RichNode.lineBreak].intercalate ((line :: ls).map lineNodes)) =
      line.map .letter ++ ls.flatMap fun l => .lineBreak :: l.map .letter := by
  induction ls generalizing line with
  | nil => simp [spellAll_lineNodes]
  | cons l ls ih =>
    have htail := ih l
    rw [List.map_cons] at htail
    rw [List.map_cons, List.map_cons, List.intercalate_cons_cons, spellAll_append, htail,
      spellAll_append, spellAll_lineNodes, List.flatMap_cons]
    simp [spellAll, spell]

theorem spellAll_breaks (cs : List Char) :
    spellAll ([RichNode.lineBreak].intercalate ((lines cs).map lineNodes)) = spelled cs := by
  induction cs with
  | nil => rfl
  | cons c cs ih =>
    obtain ⟨line, ls, h⟩ := List.exists_cons_of_ne_nil (lines_ne_nil cs)
    rw [h, spellAll_breaks_cons] at ih
    rw [lines, h]
    by_cases hc : c = '\n'
    · rw [if_pos hc, spellAll_breaks_cons, List.flatMap_cons]
      simp [spelled, hc, ih]
    · rw [if_neg hc, spellAll_breaks_cons, List.map_cons, List.cons_append, ih]
      simp [spelled, hc]

theorem spellAll_content (s : String) : spellAll (content s) = spelled s.toList :=
  spellAll_breaks s.toList

theorem blankAll_spelled (cs : List Char) :
    blankAll (spelled cs) = List.replicate (cs.count '\n') .lineBreak := by
  induction cs with
  | nil => rfl
  | cons c cs ih =>
    rw [spelled, List.map_cons, blankAll]
    rw [spelled] at ih
    by_cases hc : c = '\n'
    · rw [if_pos hc, ih, hc, List.count_cons_self, List.replicate_succ]
      rfl
    · rw [if_neg hc, ih, List.count_cons_of_ne hc]
      rfl

theorem content_eq_nil_iff (s : String) : content s = [] ↔ s = "" := by
  constructor
  · intro h
    have hvisible := visibleAll_content s
    rw [h] at hvisible
    exact hvisible.symm
  · rintro rfl
    rfl

/-- What a skeleton has of a row of rich nodes. -/
def bare (ns : List RichNode) : List Markup := blankAll (spellAll ns)

theorem bare_append (ns ms : List RichNode) : bare (ns ++ ms) = bare ns ++ bare ms := by
  rw [bare, spellAll_append, blankAll_append, bare, bare]

theorem bare_content {s t : String} (h : SameLines s t) : bare (content s) = bare (content t) := by
  rw [bare, bare, spellAll_content, spellAll_content, blankAll_spelled, blankAll_spelled, h.breaks]

theorem bare_marks (ms : List Mark) {inner inner' : List RichNode} (h : bare inner = bare inner') :
    bare (ms.foldl (fun children m => [.mark m children]) inner) =
      bare (ms.foldl (fun children m => [.mark m children]) inner') := by
  induction ms generalizing inner inner' with
  | nil => exact h
  | cons m ms ih =>
    apply ih
    show [Markup.element (.mark m) (bare inner)] = [Markup.element (.mark m) (bare inner')]
    rw [h]

theorem bare_wrap_content (styles : Styles) {s t : String} (h : SameLines s t) :
    bare (wrap styles (content s)) = bare (wrap styles (content t)) := by
  have hempty : (content s).isEmpty = (content t).isEmpty := by
    rw [Bool.eq_iff_iff, List.isEmpty_iff, List.isEmpty_iff, content_eq_nil_iff,
      content_eq_nil_iff]
    exact h.empty
  rw [wrap, wrap, hempty]
  split
  · rfl
  · exact bare_marks styles.marks (bare_content h)

/-- What a skeleton has of a row of nodes. -/
def outline (ns : List Node) : List Markup := bare (renderer.render ns)

theorem outline_cons (n : Node) (ns : List Node) :
    outline (n :: ns) = bare (renderer.node n) ++ outline ns := by
  rw [outline, ← intercepting_never, render_cons, bare_append]
  rfl

theorem outline_append (ns ms : List Node) : outline (ns ++ ms) = outline ns ++ outline ms := by
  induction ns with
  | nil => rfl
  | cons n ns ih => rw [List.cons_append, outline_cons, ih, outline_cons, List.append_assoc]

theorem bare_node_text (s : String) (children : List Node) (styles : Styles) :
    bare (renderer.node (.text s children styles)) =
      bare (wrap styles (content s)) ++ outline children := by
  rw [← intercepting_never, node_text, bare_append]
  rfl

theorem bare_node_link (href s : String) (children : List Node) (styles : Styles)
    (name : Option String) :
    bare (renderer.node (.link href s children styles name)) =
      [.element (.anchor "" (name.map fun _ => "") .navigate)
        (bare (wrap styles (content s)) ++ outline children)] := by
  rw [outline, ← bare_append]
  rfl

theorem bare_node_item (children : List Node) :
    bare (renderer.node (.item children)) = [.element .item (outline children)] := by
  rw [← intercepting_never, node_item]
  rfl

theorem bare_node_list (kind : ListKind) (items : List (List Node)) :
    bare (renderer.node (.list kind items)) =
      [.element (.list kind) (items.map fun children => .element .item (outline children))] := by
  have hitems : blankAll ((items.map fun children =>
      [RichNode.item (renderer.render children)]).flatMap spellAll) =
        items.map fun children => .element .item (outline children) := by
    induction items with
    | nil => rfl
    | cons children items ih =>
      rw [List.map_cons, List.flatMap_cons, blankAll_append, ih]
      rfl
  rw [← hitems, ← spellItems_mapIdx kind.label, ← intercepting_never, node_list]
  rfl

end Rich

end Phrasebook
