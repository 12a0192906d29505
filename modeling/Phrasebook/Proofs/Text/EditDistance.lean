import Mathlib.Order.Bounds.Defs
import Phrasebook.Text.EditDistance

namespace Phrasebook.Text

/-- A character is inserted, deleted or replaced. -/
inductive Edit : List Char → List Char → Prop
  | insert (before after : List Char) (c : Char) : Edit (before ++ after) (before ++ c :: after)
  | delete (before after : List Char) (c : Char) : Edit (before ++ c :: after) (before ++ after)
  | replace (before after : List Char) (c d : Char) :
    Edit (before ++ c :: after) (before ++ d :: after)

/-- A number of edits, one after the other. -/
inductive Edits : Nat → List Char → List Char → Prop
  | refl (cs : List Char) : Edits 0 cs cs
  | step {n : Nat} {cs ds es : List Char} (edit : Edit cs ds) (edits : Edits n ds es) :
    Edits (n + 1) cs es

variable {n : Nat} {cs ds es : List Char}

theorem Edit.cons (b : Char) (h : Edit cs ds) : Edit (b :: cs) (b :: ds) := by
  cases h with
  | insert before after c => exact .insert (b :: before) after c
  | delete before after c => exact .delete (b :: before) after c
  | replace before after c d => exact .replace (b :: before) after c d

theorem Edits.cons (b : Char) (h : Edits n cs ds) : Edits n (b :: cs) (b :: ds) := by
  induction h with
  | refl cs => exact .refl _
  | step edit _ ih => exact .step (edit.cons b) ih

theorem Edits.concat (h : Edits n cs ds) (edit : Edit ds es) : Edits (n + 1) cs es := by
  induction h with
  | refl cs => exact .step edit (.refl _)
  | step first _ ih => exact .step first (ih edit)

theorem Edit.reverse (h : Edit cs ds) : Edit cs.reverse ds.reverse := by
  cases h with
  | insert before after c => simpa using Edit.insert after.reverse before.reverse c
  | delete before after c => simpa using Edit.delete after.reverse before.reverse c
  | replace before after c d => simpa using Edit.replace after.reverse before.reverse c d

theorem Edits.reverse (h : Edits n cs ds) : Edits n cs.reverse ds.reverse := by
  induction h with
  | refl cs => exact .refl _
  | step edit _ ih => exact .step edit.reverse ih

theorem Edits.eq_of_zero (h : Edits 0 cs ds) : cs = ds := by
  cases h
  rfl

theorem edits_reverse_iff : Edits n cs.reverse ds.reverse ↔ Edits n cs ds := by
  refine ⟨fun h => ?_, Edits.reverse⟩
  simpa using h.reverse

/-- The least number of edits, by what becomes of the first characters. -/
def fewestEdits : List Char → List Char → Nat
  | [], ds => ds.length
  | c :: cs, [] => (c :: cs).length
  | c :: cs, d :: ds =>
    min (min (fewestEdits (c :: cs) ds + 1) (fewestEdits cs (d :: ds) + 1))
      (if c = d then fewestEdits cs ds else fewestEdits cs ds + 1)
termination_by cs ds => cs.length + ds.length

theorem fewestEdits_nil_left (ds : List Char) : fewestEdits [] ds = ds.length := by
  rw [fewestEdits]

theorem fewestEdits_nil_right (cs : List Char) : fewestEdits cs [] = cs.length := by
  cases cs with
  | nil => exact fewestEdits_nil_left []
  | cons c cs => rw [fewestEdits]

theorem fewestEdits_cons_cons (c d : Char) (cs ds : List Char) :
    fewestEdits (c :: cs) (d :: ds) =
      min (min (fewestEdits (c :: cs) ds + 1) (fewestEdits cs (d :: ds) + 1))
        (if c = d then fewestEdits cs ds else fewestEdits cs ds + 1) := by
  rw [fewestEdits]

theorem fewestEdits_self (cs : List Char) : fewestEdits cs cs = 0 := by
  induction cs with
  | nil => exact fewestEdits_nil_left []
  | cons c cs ih => rw [fewestEdits_cons_cons, if_pos rfl, ih, Nat.min_zero]

theorem fewestEdits_cons_left_le (c : Char) (cs es : List Char) :
    fewestEdits (c :: cs) es ≤ fewestEdits cs es + 1 := by
  cases es with
  | nil => simp only [fewestEdits_nil_right, List.length_cons, Nat.le_refl]
  | cons e es =>
    rw [fewestEdits_cons_cons]
    omega

theorem fewestEdits_cons_right_le (e : Char) (cs es : List Char) :
    fewestEdits cs (e :: es) ≤ fewestEdits cs es + 1 := by
  cases cs with
  | nil => simp only [fewestEdits_nil_left, List.length_cons, Nat.le_refl]
  | cons c cs =>
    rw [fewestEdits_cons_cons]
    omega

theorem fewestEdits_le_cons_left (c : Char) (cs es : List Char) :
    fewestEdits cs es ≤ fewestEdits (c :: cs) es + 1 := by
  induction es with
  | nil =>
    simp only [fewestEdits_nil_right, List.length_cons]
    omega
  | cons e es ih =>
    have hright := fewestEdits_cons_right_le e cs es
    rw [fewestEdits_cons_cons]
    split <;> omega

theorem fewestEdits_replace_le (c d : Char) (cs es : List Char) :
    fewestEdits (c :: cs) es ≤ fewestEdits (d :: cs) es + 1 := by
  induction es with
  | nil => simp only [fewestEdits_nil_right, List.length_cons, Nat.le_add_right]
  | cons e es ih =>
    rw [fewestEdits_cons_cons, fewestEdits_cons_cons]
    split <;> split <;> omega

theorem fewestEdits_cons_le_cons (b : Char)
    (h : ∀ es, fewestEdits cs es ≤ fewestEdits ds es + 1) (es : List Char) :
    fewestEdits (b :: cs) es ≤ fewestEdits (b :: ds) es + 1 := by
  induction es with
  | nil =>
    have hlength := h []
    simp only [fewestEdits_nil_right] at hlength
    simp only [fewestEdits_nil_right, List.length_cons]
    omega
  | cons e es ih =>
    have hleft := h (e :: es)
    have hboth := h es
    rw [fewestEdits_cons_cons, fewestEdits_cons_cons]
    split <;> omega

/-- One edit changes the number by one at most. -/
theorem Edit.fewestEdits_le (h : Edit cs ds) : ∀ es, fewestEdits cs es ≤ fewestEdits ds es + 1 := by
  have hbefore : ∀ {cs ds : List Char} (before : List Char),
      (∀ es, fewestEdits cs es ≤ fewestEdits ds es + 1) →
      ∀ es, fewestEdits (before ++ cs) es ≤ fewestEdits (before ++ ds) es + 1 := by
    intro cs ds before h
    induction before with
    | nil => exact h
    | cons b before ih => exact fewestEdits_cons_le_cons b ih
  cases h with
  | insert before after c => exact hbefore before fun es => fewestEdits_le_cons_left c after es
  | delete before after c => exact hbefore before fun es => fewestEdits_cons_left_le c after es
  | replace before after c d =>
    exact hbefore before fun es => fewestEdits_replace_le c d after es

theorem Edits.fewestEdits_le (h : Edits n cs ds) : fewestEdits cs ds ≤ n := by
  induction h with
  | refl cs => exact Nat.le_of_eq (fewestEdits_self cs)
  | step edit _ ih => exact Nat.le_trans (edit.fewestEdits_le _) (Nat.succ_le_succ ih)

theorem edits_of_nil_left (ds : List Char) : Edits ds.length [] ds := by
  induction ds with
  | nil => exact .refl _
  | cons d ds ih => exact ih.concat (.insert [] ds d)

theorem edits_of_nil_right (cs : List Char) : Edits cs.length cs [] := by
  induction cs with
  | nil => exact .refl _
  | cons c cs ih => exact .step (.delete [] cs c) ih

theorem edits_fewestEdits (cs ds : List Char) : Edits (fewestEdits cs ds) cs ds := by
  fun_induction fewestEdits cs ds with
  | case1 ds => exact edits_of_nil_left ds
  | case2 c cs => exact edits_of_nil_right (c :: cs)
  | case3 c cs d ds ihRight ihLeft ihBoth =>
    -- Whichever of the three ways is the shortest leads there.
    have hinsert : Edits (fewestEdits (c :: cs) ds + 1) (c :: cs) (d :: ds) :=
      ihRight.concat (.insert [] ds d)
    have hdelete : Edits (fewestEdits cs (d :: ds) + 1) (c :: cs) (d :: ds) :=
      .step (.delete [] cs c) ihLeft
    have hboth : Edits (if c = d then fewestEdits cs ds else fewestEdits cs ds + 1)
        (c :: cs) (d :: ds) := by
      split
      · next heq =>
        subst heq
        exact ihBoth.cons c
      · exact .step (.replace [] cs c d) (ihBoth.cons d)
    generalize (if c = d then fewestEdits cs ds else fewestEdits cs ds + 1) = both at hboth ⊢
    rcases Nat.le_total (min (fewestEdits (c :: cs) ds + 1) (fewestEdits cs (d :: ds) + 1)) both
      with h | h
    · rw [Nat.min_eq_left h]
      rcases Nat.le_total (fewestEdits (c :: cs) ds + 1) (fewestEdits cs (d :: ds) + 1) with h | h
      · rw [Nat.min_eq_left h]
        exact hinsert
      · rw [Nat.min_eq_right h]
        exact hdelete
    · rw [Nat.min_eq_right h]
      exact hboth

/-- The cells of the row of a text, both texts being read backwards: `seen` of the second text is
read already. -/
def rowFrom (cs seen : List Char) : List Char → List Nat
  | [] => [fewestEdits cs seen]
  | d :: ds => fewestEdits cs seen :: rowFrom cs (d :: seen) ds

/-- The cells behind the first one. -/
def laterCells (cs seen : List Char) : List Char → List Nat
  | [] => []
  | d :: ds => rowFrom cs (d :: seen) ds

theorem rowFrom_eq_cons (cs seen ds : List Char) :
    rowFrom cs seen ds = fewestEdits cs seen :: laterCells cs seen ds := by
  cases ds <;> rfl

theorem nextCells_laterCells (c : Char) (cs seen ds : List Char) :
    nextCells c (fewestEdits (c :: cs) seen) (fewestEdits cs seen) ds (laterCells cs seen ds) =
      laterCells (c :: cs) seen ds := by
  induction ds generalizing seen with
  | nil => rfl
  | cons d ds ih =>
    rw [laterCells, laterCells, rowFrom_eq_cons, rowFrom_eq_cons, nextCells,
      ← fewestEdits_cons_cons, ih]

theorem nextRow_rowFrom (c : Char) (cs ds : List Char) :
    nextRow ds (rowFrom cs [] ds) c = rowFrom (c :: cs) [] ds := by
  have hfirst : fewestEdits cs [] + 1 = fewestEdits (c :: cs) [] := by
    rw [fewestEdits_nil_right, fewestEdits_nil_right, List.length_cons]
  rw [rowFrom_eq_cons, rowFrom_eq_cons, nextRow, hfirst, nextCells_laterCells]

theorem foldl_nextRow (cs before ds : List Char) :
    cs.foldl (nextRow ds) (rowFrom before [] ds) = rowFrom (cs.reverse ++ before) [] ds := by
  induction cs generalizing before with
  | nil => rfl
  | cons c cs ih =>
    rw [List.foldl_cons, nextRow_rowFrom, ih, List.reverse_cons, List.append_assoc]
    rfl

theorem rowFrom_nil (seen ds : List Char) :
    rowFrom [] seen ds = List.range' seen.length (ds.length + 1) := by
  induction ds generalizing seen with
  | nil => rw [rowFrom, fewestEdits_nil_left, List.length_nil, Nat.zero_add, List.range'_one]
  | cons d ds ih =>
    rw [rowFrom, ih, fewestEdits_nil_left, List.length_cons, List.length_cons,
      ← List.range'_succ]

theorem getLastD_rowFrom (cs seen ds : List Char) (n : Nat) :
    (rowFrom cs seen ds).getLastD n = fewestEdits cs (ds.reverse ++ seen) := by
  induction ds generalizing seen n with
  | nil => rfl
  | cons d ds ih =>
    rw [rowFrom, List.getLastD_cons, ih, List.reverse_cons, List.append_assoc]
    rfl

theorem editDistance_eq (first second : String) :
    editDistance first second =
      fewestEdits first.toList.reverse second.toList.reverse := by
  have hstart : List.range (second.toList.length + 1) = rowFrom [] [] second.toList := by
    rw [rowFrom_nil, List.range_eq_range', List.length_nil]
  rw [editDistance]
  simp only [hstart, foldl_nextRow, getLastD_rowFrom, List.append_nil]

/-- The distance is the least number of edits. -/
theorem isLeast_editDistance (first second : String) :
    IsLeast {n | Edits n first.toList second.toList} (editDistance first second) := by
  rw [editDistance_eq]
  refine ⟨edits_reverse_iff.mp (edits_fewestEdits _ _), ?_⟩
  intro n h
  exact (edits_reverse_iff.mpr h).fewestEdits_le

theorem editDistance_eq_zero_iff {first second : String} :
    editDistance first second = 0 ↔ first = second := by
  constructor
  · intro h
    have hleast := (isLeast_editDistance first second).1
    rw [h] at hleast
    exact String.toList_injective hleast.eq_of_zero
  · rintro rfl
    rw [editDistance_eq, fewestEdits_self]

end Phrasebook.Text
