import Mathlib.Data.List.Basic
import Phrasebook.Proofs.Render.Rich

namespace Phrasebook

namespace Mark

/-- The first mark comes before the second in the order of nesting. -/
def Inside (k m : Mark) : Prop := [k, m].Sublist order

end Mark

namespace RichNode

mutual

/-- The node and all nodes in it, each before those inside it. -/
def walk : RichNode → List RichNode
  | .text s => [.text s]
  | .lineBreak => [.lineBreak]
  | .mark m children => .mark m children :: walkAll children
  | .anchor href name action children => .anchor href name action children :: walkAll children
  | .item children => .item children :: walkAll children
  | .list kind items => .list kind items :: walkItems items
  | .overlay info shown children => .overlay info shown children :: walkAll children

def walkAll : List RichNode → List RichNode
  | [] => []
  | n :: ns => walk n ++ walkAll ns

def walkItems : List (String × List RichNode) → List RichNode
  | [] => []
  | (_, children) :: items => walkAll children ++ walkItems items

end

theorem walkAll_append (ns ms : List RichNode) : walkAll (ns ++ ms) = walkAll ns ++ walkAll ms := by
  induction ns with
  | nil => rfl
  | cons n ns ih => rw [List.cons_append, walkAll, walkAll, ih, List.append_assoc]

theorem walkItems_eq_flatMap (items : List (String × List RichNode)) :
    walkItems items = items.flatMap fun row => walkAll row.2 := by
  induction items with
  | nil => rfl
  | cons row items ih => rw [walkItems, ih, List.flatMap_cons]

def isBreak : RichNode → Bool
  | .lineBreak => true
  | _ => false

/-- Texts, breaks and marks can stand inside a mark. -/
def isInline : RichNode → Bool
  | .text _ | .lineBreak | .mark _ _ => true
  | _ => false

/-- A break, or a text of one line that is not empty. -/
def IsLineWord (n : RichNode) : Prop :=
  n = .lineBreak ∨ ∃ s, s ≠ "" ∧ '\n' ∉ s.toList ∧ n = .text s

/-- What holds of each node of a tree on its own. Overlays have no place in a tree. -/
def WellFormed : RichNode → Prop
  | .text s => s ≠ "" ∧ '\n' ∉ s.toList
  | .lineBreak => True
  | .mark m inner => inner ≠ [] ∧ ∀ n ∈ walkAll inner, n.isInline = true ∧
      ∀ k ks, n = .mark k ks → k.Inside m
  | .anchor .. => True
  | .item _ => True
  | .list kind rows => ∀ i row, rows[i]? = some row →
      row.1 = kind.label i ∧ ∃ inner, row.2 = [.item inner]
  | .overlay .. => False

/-- Words have as many breaks as what they spell has line feeds. -/
theorem countP_isBreak {words : List RichNode} (h : ∀ n ∈ words, n.IsLineWord) :
    words.countP isBreak = (visibleAll words).toList.count '\n' := by
  induction words with
  | nil => rfl
  | cons n words ih =>
    have hrest := ih fun m hm => h m (List.mem_cons_of_mem _ hm)
    rw [List.countP_cons, visibleAll, String.toList_append, List.count_append, hrest, Nat.add_comm]
    obtain rfl | ⟨s, -, hs, rfl⟩ := h n List.mem_cons_self
    · rfl
    · rw [visible, List.count_eq_zero_of_not_mem hs]
      rfl

/-- A row inside marks, the first of which is the innermost. -/
def around : List Mark → List RichNode → List RichNode
  | [], inner => inner
  | m :: ms, inner => around ms [.mark m inner]

theorem around_eq_foldl (ms : List Mark) (inner : List RichNode) :
    around ms inner = ms.foldl (fun children m => [.mark m children]) inner := by
  induction ms generalizing inner with
  | nil => rfl
  | cons m ms ih => exact ih _

/-- Marks in their order around text make a tree that is well formed. -/
theorem wellFormed_around {ms : List Mark} (hms : ms.Pairwise Mark.Inside) {inner : List RichNode}
    (hne : inner ≠ [])
    (h : ∀ n ∈ walkAll inner, n.WellFormed ∧ n.isInline = true ∧
      ∀ k ks, n = .mark k ks → ∀ m ∈ ms, k.Inside m) :
    ∀ n ∈ walkAll (around ms inner), n.WellFormed := by
  induction ms generalizing inner with
  | nil => exact fun n hn => (h n hn).1
  | cons m ms ih =>
    obtain ⟨hm, hms⟩ := List.pairwise_cons.mp hms
    apply ih hms (List.cons_ne_nil _ _)
    intro n hn
    rw [walkAll, walkAll, List.append_nil, walk] at hn
    rcases List.mem_cons.mp hn with rfl | hn
    · refine ⟨⟨hne, ?_⟩, rfl, ?_⟩
      · intro n hn
        obtain ⟨-, hinline, hmarks⟩ := h n hn
        exact ⟨hinline, fun k ks hk => hmarks k ks hk m List.mem_cons_self⟩
      · intro k ks hk m' hm'
        cases hk
        exact hm m' hm'
    · obtain ⟨hwell, hinline, hmarks⟩ := h n hn
      exact ⟨hwell, hinline, fun k ks hk m' hm' => hmarks k ks hk m' (List.mem_cons_of_mem _ hm')⟩

theorem walkAll_of_words {words : List RichNode} (h : ∀ n ∈ words, n.IsLineWord) :
    walkAll words = words := by
  induction words with
  | nil => rfl
  | cons n words ih =>
    rw [walkAll, ih fun m hm => h m (List.mem_cons_of_mem _ hm)]
    obtain rfl | ⟨s, -, -, rfl⟩ := h n List.mem_cons_self
    · rfl
    · rfl

end RichNode

open RichNode

namespace Styles

theorem marks_sublist (styles : Styles) : styles.marks.Sublist Mark.order := List.filter_sublist

theorem pairwise_marks (styles : Styles) : styles.marks.Pairwise Mark.Inside := by
  rw [List.pairwise_iff_forall_sublist]
  exact fun h => h.trans styles.marks_sublist

end Styles

/-- The content of a node in its marks: words that spell it, in as many lines, inside the marks that
are on, in their order. -/
structure Dressing (styles : Styles) (s : String) where
  marks : List Mark
  words : List RichNode
  ordered : marks.Sublist Mark.order
  active : ∀ m, m ∈ marks ↔ styles.has m = true
  lineWords : ∀ n ∈ words, n.IsLineWord
  spelled : visibleAll words = s
  breaks : words.countP isBreak = s.toList.count '\n'

/-- Without words there is nothing to mark. -/
def Dressing.nodes {styles : Styles} {s : String} (d : Dressing styles s) : List RichNode :=
  if d.words.isEmpty then [] else around d.marks d.words

namespace Node

variable (p : String → Bool)

mutual

/-- What a node looks like where the links whose target satisfies `p` are intercepted. -/
def Depicted : Node → List RichNode → Prop
  | .text s children styles, out =>
    ∃ (d : Dressing styles s) (inner : List RichNode), DepictedAll children inner ∧
      out = d.nodes ++ inner
  | .link href s children styles name, out =>
    ∃ (d : Dressing styles s) (inner : List RichNode), DepictedAll children inner ∧
      out = [.anchor href name (if p href then .intercept else .navigate) (d.nodes ++ inner)]
  | .item children, out => ∃ inner, DepictedAll children inner ∧ out = [.item inner]
  | .list kind items, out => ∃ rows, DepictedItems kind 0 items rows ∧ out = [.list kind rows]

/-- Neighbours are depicted one after the other. -/
def DepictedAll : List Node → List RichNode → Prop
  | [], out => out = []
  | n :: ns, out => ∃ first rest, Depicted n first ∧ DepictedAll ns rest ∧ out = first ++ rest

/-- The entries of a list from a place on, each an item under the label of its place. -/
def DepictedItems (kind : ListKind) : Nat → List (List Node) → List (String × List RichNode) → Prop
  | _, [], rows => rows = []
  | place, children :: items, rows =>
    ∃ inner rest, DepictedAll children inner ∧ DepictedItems kind (place + 1) items rest ∧
      rows = (kind.label place, [.item inner]) :: rest

end

end Node

namespace Rich

theorem newline_notMem_of_mem_lines {cs line : List Char} (h : line ∈ lines cs) : '\n' ∉ line := by
  induction cs generalizing line with
  | nil =>
    obtain rfl : line = [] := by simpa [lines] using h
    simp
  | cons c cs ih =>
    rw [lines] at h
    split at h
    · rcases List.mem_cons.mp h with rfl | h
      · simp
      · exact ih h
    · next hc =>
      obtain ⟨first, rest, hlines⟩ := List.exists_cons_of_ne_nil (lines_ne_nil cs)
      rw [hlines] at h ih
      rcases List.mem_cons.mp h with rfl | h
      · simp [Ne.symm hc, ih List.mem_cons_self]
      · exact ih (List.mem_cons_of_mem _ h)

theorem isLineWord_of_mem_content {s : String} {n : RichNode} (h : n ∈ content s) :
    n.IsLineWord := by
  rcases mem_breaks h with rfl | ⟨line, hline, h⟩
  · exact .inl rfl
  · cases line with
    | nil => simp [lineNodes] at h
    | cons c cs =>
      obtain rfl : n = .text (String.ofList (c :: cs)) := by simpa [lineNodes] using h
      refine .inr ⟨_, by simp, ?_, rfl⟩
      rw [String.toList_ofList]
      exact newline_notMem_of_mem_lines hline

/-- Content as the renderer dresses it. -/
def dressing (styles : Styles) (s : String) : Dressing styles s where
  marks := styles.marks
  words := content s
  ordered := styles.marks_sublist
  active _ := Styles.mem_marks
  lineWords _ := isLineWord_of_mem_content
  spelled := visibleAll_content s
  breaks := by
    rw [countP_isBreak fun _ => isLineWord_of_mem_content, visibleAll_content]

theorem nodes_dressing (styles : Styles) (s : String) :
    (dressing styles s).nodes = wrap styles (content s) := by
  rw [Dressing.nodes, around_eq_foldl]
  rfl

theorem wellFormed_wrap_content (styles : Styles) (s : String) :
    ∀ n ∈ walkAll (wrap styles (content s)), n.WellFormed := by
  rw [wrap]
  split
  · intro n hn
    cases hn
  · next hne =>
    rw [← around_eq_foldl]
    apply wellFormed_around styles.pairwise_marks (by simpa using hne)
    rw [walkAll_of_words fun _ => isLineWord_of_mem_content]
    intro n hn
    obtain rfl | ⟨t, ht, hlines, rfl⟩ := isLineWord_of_mem_content hn
    · exact ⟨trivial, rfl, by simp⟩
    · exact ⟨⟨ht, hlines⟩, rfl, by simp⟩

variable (p : String → Bool)

mutual

theorem depicted_node : ∀ n : Node, n.Depicted p ((intercepting p).node n)
  | .text s children styles => by
    refine ⟨dressing styles s, _, depictedAll_render children, ?_⟩
    rw [node_text, nodes_dressing]
  | .link href s children styles name => by
    refine ⟨dressing styles s, _, depictedAll_render children, ?_⟩
    rw [node_link, nodes_dressing]
  | .item children => ⟨_, depictedAll_render children, node_item p children⟩
  | .list kind items => by
    refine ⟨_, depictedItems_rows kind 0 items, ?_⟩
    rw [node_list]
    simp only [Nat.zero_add]

theorem depictedAll_render : ∀ ns : List Node, Node.DepictedAll p ns ((intercepting p).render ns)
  | [] => rfl
  | n :: ns => ⟨_, _, depicted_node n, depictedAll_render ns, render_cons p n ns⟩

theorem depictedItems_rows (kind : ListKind) (place : Nat) : ∀ items : List (List Node),
    Node.DepictedItems p kind place items
      ((items.map fun children => [.item ((intercepting p).render children)]).mapIdx
        fun i item => (kind.label (place + i), item))
  | [] => rfl
  | children :: items => by
    refine ⟨_, _, depictedAll_render children, depictedItems_rows kind (place + 1) items, ?_⟩
    rw [List.map_cons, List.mapIdx_cons]
    simp only [Nat.add_zero, Nat.add_assoc, Nat.add_comm 1]

end

/-- Being well formed is kept by every way in which rows are put together. -/
theorem closed_wellFormed : Closed fun ns => ∀ n ∈ walkAll ns, n.WellFormed := by
  refine ⟨?_, ?_, wellFormed_wrap_content, ?_, ?_, ?_⟩
  · intro n hn
    cases hn
  · intro ns ms hns hms n hn
    rw [walkAll_append] at hn
    rcases List.mem_append.mp hn with hn | hn
    · exact hns n hn
    · exact hms n hn
  · intro href name action ns h n hn
    rw [walkAll, walkAll, List.append_nil, walk] at hn
    rcases List.mem_cons.mp hn with rfl | hn
    · trivial
    · exact h n hn
  · intro ns h n hn
    rw [walkAll, walkAll, List.append_nil, walk] at hn
    rcases List.mem_cons.mp hn with rfl | hn
    · trivial
    · exact h n hn
  · intro kind rows h n hn
    rw [walkAll, walkAll, List.append_nil, walk] at hn
    rcases List.mem_cons.mp hn with rfl | hn
    · intro i row hrow
      rw [List.getElem?_mapIdx, List.getElem?_map] at hrow
      cases hchildren : rows[i]? with
      | none =>
        rw [hchildren] at hrow
        cases hrow
      | some children =>
        rw [hchildren] at hrow
        cases hrow
        exact ⟨rfl, children, rfl⟩
    · rw [walkItems_eq_flatMap, List.mem_flatMap] at hn
      obtain ⟨row, hrow, hn⟩ := hn
      obtain ⟨i, hi, rfl⟩ := List.mem_mapIdx.mp hrow
      rw [List.getElem_map, walkAll, walkAll, List.append_nil, walk] at hn
      rcases List.mem_cons.mp hn with rfl | hn
      · trivial
      · exact h _ (List.getElem_mem _) n hn

end Rich

/-- A rendering that depicts its nodes in a tree that is well formed throughout. -/
structure WellRendered (p : String → Bool) (nodes : List Node) (out : List RichNode) : Prop where
  depicted : Node.DepictedAll p nodes out
  wellFormed : ∀ n ∈ RichNode.walkAll out, n.WellFormed

/-- Whatever is rendered, with links intercepted or not, is depicted as it should be, and the tree
is well formed. -/
theorem rendering_wellRendered (nodes : List Node) :
    WellRendered (fun _ => false) nodes (Rich.renderer.render nodes) ∧
      ∀ p, WellRendered p nodes ((Rich.intercepting p).render nodes) := by
  have h : ∀ p, WellRendered p nodes ((Rich.intercepting p).render nodes) := fun p =>
    ⟨Rich.depictedAll_render p nodes, Rich.closed_wellFormed.render p nodes⟩
  exact ⟨h fun _ => false, h⟩

end Phrasebook
