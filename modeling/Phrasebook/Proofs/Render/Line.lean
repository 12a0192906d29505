import Phrasebook.Render.Line

namespace Phrasebook.Line

/-- Whether a text stops inside a line. -/
def isOpen (out : String) : Bool := !out.isEmpty && !isEnded out

@[simp] theorem isOpen_empty : isOpen "" = false := rfl

theorem isEnded_append (s : String) {t : String} (ht : t ≠ "") :
    isEnded (s ++ t) = isEnded t := by
  have hne : t.toList ≠ [] := by simpa using ht
  rw [isEnded, isEnded, String.toList_append, List.getLast?_append,
    List.getLast?_eq_some_getLast hne]
  rfl

@[simp] theorem isEnded_append_newline (s : String) : isEnded (s ++ "\n") = true := by
  rw [isEnded_append s (by decide)]
  decide

@[simp] theorem isOpen_append_newline (s : String) : isOpen (s ++ "\n") = false := by
  simp [isOpen]

theorem ne_empty_of_isOpen {out : String} (h : isOpen out = true) : out ≠ "" := by
  rintro rfl
  simp at h

theorem start_eq (out : String) : start out = if isOpen out then out ++ "\n" else out := by
  rw [start, isOpen]
  cases out.isEmpty <;> cases isEnded out <;> rfl

theorem finish_of_isOpen {out : String} (h : isOpen out = true) : finish out = out ++ "\n" := by
  have hs : isEnded out = false := by
    cases he : isEnded out with
    | false => rfl
    | true => simp [isOpen, he] at h
  simp [finish, hs]

theorem start_eq_empty_iff (out : String) : start out = "" ↔ out = "" := by
  rw [start_eq]
  split
  next h => simp [ne_empty_of_isOpen h]
  next => rfl

/-- Going to the start of a line leaves a text at the start of one, whatever stands in front of
it, unless it has nothing to break. -/
theorem isOpen_append_start (before : String) {out : String} (h : out ≠ "") :
    isOpen (before ++ start out) = false := by
  have hne : start out ≠ "" := fun he => h ((start_eq_empty_iff out).mp he)
  have hend : isEnded (start out) = true := by
    rw [start_eq]
    split
    next => exact isEnded_append_newline out
    next ho => simpa [isOpen, h] using ho
  rw [isOpen, isEnded_append before hne, hend]
  simp

theorem isOpen_append_blank (before : String) : isOpen (before ++ " ") = true := by
  have hend : isEnded (before ++ " ") = false := by
    rw [isEnded_append before (by decide)]
    decide
  simp [isOpen, hend]

@[simp] theorem finish_append_newline (out : String) : finish (out ++ "\n") = out ++ "\n" := by
  simp [finish]

/-- The second text is the first one when `same`; otherwise it is longer, but neither is empty and
both end their line or both do not. -/
inductive Trails : Bool → String → String → Prop
  | same (s : String) : Trails true s s
  | behind {p r : String} (hne : p ≠ "") (hlen : p.length < r.length)
      (hend : isEnded p = isEnded r) : Trails false p r

namespace Trails

variable {a b : Bool} {p q r s : String}

theorem eq_iff (h : Trails a p r) : p = r ↔ a = true := by
  cases h with
  | same => simp
  | behind hne hlen hend =>
    constructor
    · rintro rfl
      exact absurd hlen (Nat.lt_irrefl _)
    · simp

theorem length_le (h : Trails a p r) : p.length ≤ r.length := by
  cases h with
  | same => exact Nat.le_refl _
  | behind hne hlen hend => exact Nat.le_of_lt hlen

theorem isEnded_eq (h : Trails a p r) : isEnded p = isEnded r := by
  cases h with
  | same => rfl
  | behind hne hlen hend => exact hend

theorem eq_empty_iff (h : Trails a p r) : p = "" ↔ r = "" := by
  cases h with
  | same => rfl
  | behind hne hlen hend =>
    have hr : r ≠ "" := by
      rintro rfl
      simp at hlen
    exact iff_of_false hne hr

theorem isOpen_eq (h : Trails a p r) : isOpen p = isOpen r := by
  have he : p.isEmpty = r.isEmpty := by
    rw [Bool.eq_iff_iff, String.isEmpty_iff, String.isEmpty_iff]
    exact h.eq_empty_iff
  rw [isOpen, isOpen, h.isEnded_eq, he]

/-- An empty text is trailed by no other text. -/
theorem eq_true_of_empty (h : Trails a "" r) : a = true ∧ r = "" := by
  have hr : r = "" := h.eq_empty_iff.mp rfl
  exact ⟨h.eq_iff.mp hr.symm, hr⟩

theorem append (h : Trails a p r) (k : Trails b q s) : Trails (a && b) (p ++ q) (r ++ s) := by
  have hlen : (p ++ q).length ≤ (r ++ s).length := by
    simpa only [String.length_append] using Nat.add_le_add h.length_le k.length_le
  have hend : isEnded (p ++ q) = isEnded (r ++ s) := by
    by_cases hq : q = ""
    · have hs : s = "" := k.eq_empty_iff.mp hq
      simpa [hq, hs] using h.isEnded_eq
    · have hs : s ≠ "" := fun hs => hq (k.eq_empty_iff.mpr hs)
      rw [isEnded_append p hq, isEnded_append r hs, k.isEnded_eq]
  cases h with
  | same =>
    cases k with
    | same => exact .same _
    | behind hne hlt _ =>
      refine .behind (by simp [hne]) ?_ hend
      simpa [String.length_append] using hlt
  | behind hne hlt _ =>
    have hk := k.length_le
    refine .behind (by simp [hne]) ?_ hend
    simp only [String.length_append]
    omega

theorem start (h : Trails a p r) : Trails a (start p) (start r) := by
  rw [start_eq, start_eq, h.isOpen_eq]
  split
  · simpa using h.append (.same "\n")
  · exact h

theorem finish (h : Trails a p r) : Trails a (finish p) (finish r) := by
  rw [Line.finish, Line.finish, h.isEnded_eq]
  split
  · exact h
  · simpa using h.append (.same "\n")

/-- Once a line feed has come between, equal words keep the texts apart. -/
theorem append_newline (h : Trails a p r) (hp : p ≠ "") (k : Trails b q s) (hq : q ≠ "") :
    Trails false (p ++ q) (r ++ "\n" ++ s) := by
  have hs : s ≠ "" := fun hs => hq (k.eq_empty_iff.mpr hs)
  have hpr := h.length_le
  have hqs := k.length_le
  refine .behind (by simp [hp]) ?_ ?_
  · have hn : ("\n" : String).length = 1 := by decide
    simp only [String.length_append, hn]
    omega
  · rw [isEnded_append p hq, isEnded_append _ hs, k.isEnded_eq]

end Trails

end Phrasebook.Line
