import Phrasebook.Render.Visible

namespace Phrasebook

namespace RichNode

/-- A break, or a text that is not empty. -/
def IsWord (n : RichNode) : Prop := n = .lineBreak ∨ ∃ s, s ≠ "" ∧ n = .text s

@[simp] theorem visibleAll_append (ns ms : List RichNode) :
    visibleAll (ns ++ ms) = visibleAll ns ++ visibleAll ms := by
  induction ns with
  | nil => simp [visibleAll]
  | cons n ns ih => simp [visibleAll, ih, String.append_assoc]

theorem visibleItem_append (out : String) (ns ms : List RichNode) :
    visibleItem out (ns ++ ms) = visibleItem (visibleItem out ns) ms := by
  induction ns generalizing out with
  | nil => rfl
  | cons n ns ih => exact ih _

/-- Without lists an item only collects the texts of its nodes. -/
theorem visibleItem_of_no_list (out : String) {ns : List RichNode}
    (h : ∀ n ∈ ns, n.isList = false) : visibleItem out ns = out ++ visibleAll ns := by
  induction ns generalizing out with
  | nil => simp [visibleItem, visibleAll]
  | cons n ns ih =>
    have hn : n.isList = false := h n (by simp)
    have htail : ∀ m ∈ ns, m.isList = false := fun m hm => h m (by simp [hm])
    rw [visibleItem, ih _ htail]
    simp [visibleAll, hn, String.append_assoc]

end RichNode

namespace Rich

open RichNode

/-- The lines of a text are its stretches between line feeds. -/
theorem lines_eq_splitOn (cs : List Char) : lines cs = cs.splitOn '\n' := by
  induction cs with
  | nil => rfl
  | cons c cs ih =>
    rw [lines, ih, List.splitOn_cons_eq_if_modifyHead]
    by_cases hc : c = '\n'
    · simp [hc]
    · obtain ⟨line, rest, h⟩ := List.exists_cons_of_ne_nil (List.splitOn_ne_nil '\n' cs)
      simp [hc, h]

theorem lines_ne_nil (cs : List Char) : lines cs ≠ [] := by
  rw [lines_eq_splitOn]
  exact List.splitOn_ne_nil '\n' cs

theorem visibleAll_lineNodes (line : List Char) :
    visibleAll (lineNodes line) = String.ofList line := by
  cases line with
  | nil => rfl
  | cons c cs => simp [lineNodes, visibleAll, visible]

theorem visibleAll_breaks (ls : List (List Char)) :
    visibleAll ([RichNode.lineBreak].intercalate (ls.map lineNodes)) =
      String.ofList (['\n'].intercalate ls) := by
  induction ls with
  | nil => rfl
  | cons l ls ih =>
    cases ls with
    | nil => simpa using visibleAll_lineNodes l
    | cons m ls =>
      have hbreak : visibleAll [RichNode.lineBreak] = String.ofList ['\n'] := by decide
      rw [List.map_cons, List.map_cons, List.intercalate_cons_cons, ← List.map_cons,
        visibleAll_append, visibleAll_append, visibleAll_lineNodes, hbreak, ih,
        List.intercalate_cons_cons, String.ofList_append, String.ofList_append]

@[simp] theorem visibleAll_content (s : String) : visibleAll (content s) = s := by
  rw [content, visibleAll_breaks, lines_eq_splitOn, List.intercalate_splitOn, String.ofList_toList]

theorem mem_breaks {n : RichNode} {ls : List (List Char)}
    (h : n ∈ [RichNode.lineBreak].intercalate (ls.map lineNodes)) :
    n = .lineBreak ∨ ∃ line ∈ ls, n ∈ lineNodes line := by
  induction ls with
  | nil => simp at h
  | cons l ls ih =>
    cases ls with
    | nil => exact .inr ⟨l, by simp, by simpa using h⟩
    | cons m ls =>
      rw [List.map_cons, List.map_cons, List.intercalate_cons_cons, ← List.map_cons] at h
      rcases List.mem_append.mp h with h | h
      · rcases List.mem_append.mp h with h | h
        · exact .inr ⟨l, by simp, h⟩
        · exact .inl (by simpa using h)
      · rcases ih h with h | ⟨line, hline, h⟩
        · exact .inl h
        · exact .inr ⟨line, List.mem_cons_of_mem _ hline, h⟩

/-- Content is made of breaks and texts, none of them empty. -/
theorem isWord_of_mem_content {s : String} {n : RichNode} (h : n ∈ content s) : n.IsWord := by
  rcases mem_breaks h with rfl | ⟨line, -, h⟩
  · exact .inl rfl
  · cases line with
    | nil => simp [lineNodes] at h
    | cons c cs =>
      obtain rfl : n = .text (String.ofList (c :: cs)) := by simpa [lineNodes] using h
      exact .inr ⟨_, by simp, rfl⟩

theorem marks_induction {P : List RichNode → Prop} (hmark : ∀ m ns, P ns → P [.mark m ns])
    (ms : List Mark) {inner : List RichNode} (h : P inner) :
    P (ms.foldl (fun children m => [.mark m children]) inner) := by
  induction ms generalizing inner with
  | nil => exact h
  | cons m ms ih => exact ih (hmark m inner h)

/-- What holds of no nodes and is kept by a word in front of a row and by a mark around it holds of
content with its marks. -/
theorem wrap_content_induction {P : List RichNode → Prop} (hnil : P [])
    (hbreak : ∀ ns, P ns → P (.lineBreak :: ns))
    (htext : ∀ t ns, t ≠ "" → P ns → P (.text t :: ns)) (hmark : ∀ m ns, P ns → P [.mark m ns])
    (styles : Styles) (s : String) : P (wrap styles (content s)) := by
  have hwords : ∀ ns : List RichNode, (∀ n ∈ ns, n.IsWord) → P ns := by
    intro ns hns
    induction ns with
    | nil => exact hnil
    | cons n ns ih =>
      have htail := ih fun m hm => hns m (by simp [hm])
      obtain rfl | ⟨t, ht, rfl⟩ := hns n (by simp)
      · exact hbreak ns htail
      · exact htext t ns ht htail
  rw [wrap]
  split
  · exact hnil
  · exact marks_induction hmark styles.marks (hwords _ fun _ => isWord_of_mem_content)

theorem visibleAll_marks (ms : List Mark) (inner : List RichNode) :
    visibleAll (ms.foldl (fun children m => [.mark m children]) inner) = visibleAll inner := by
  induction ms generalizing inner with
  | nil => rfl
  | cons m ms ih => simpa [visibleAll, visible] using ih [.mark m inner]

/-- Marks hide nothing. -/
@[simp] theorem visibleAll_wrap (styles : Styles) (inner : List RichNode) :
    visibleAll (wrap styles inner) = visibleAll inner := by
  rw [wrap]
  split
  · next h => rw [List.isEmpty_iff.mp h]
  · exact visibleAll_marks _ inner

theorem isList_of_mem_wrap_content {styles : Styles} {s : String} :
    ∀ n ∈ wrap styles (content s), n.isList = false := by
  apply wrap_content_induction (P := fun ns => ∀ n ∈ ns, n.isList = false)
  · simp
  · intro ns h
    simpa [isList] using h
  · intro t ns _ h
    simpa [isList] using h
  · intro m ns _
    simp [isList]

/-- Content shows in an item as it is written. -/
@[simp] theorem visibleItem_wrap_content (out : String) (styles : Styles) (s : String) :
    visibleItem out (wrap styles (content s)) = out ++ s := by
  rw [visibleItem_of_no_list out isList_of_mem_wrap_content, visibleAll_wrap, visibleAll_content]

end Rich

end Phrasebook
