import Mathlib.Data.List.Chain
import Phrasebook.Template.Parser

namespace Phrasebook

namespace Segment

def isLiteral : Segment → Bool
  | .literal _ => true
  | .placeholder _ => false

/-- A segment of one character. -/
def ofChar (c : Char) : Segment := .literal (String.singleton c)

/-- The characters of a literal one by one, or a placeholder. -/
def atoms : Segment → List Segment
  | .literal s => s.toList.map ofChar
  | .placeholder name => [.placeholder name]

@[simp] theorem atoms_ofChar (c : Char) : (ofChar c).atoms = [ofChar c] := by
  simp [ofChar, atoms]

/-- Putting a segment in front of others keeps every character and placeholder. -/
theorem atoms_push (segment : Segment) (segments : List Segment) :
    (segment.push segments).flatMap atoms = segment.atoms ++ segments.flatMap atoms := by
  unfold push
  split
  · simp [atoms]
  · rfl

theorem push_of_head {segment : Segment} {segments : List Segment}
    (h : ∀ next ∈ segments.head?, next.isLiteral = false) :
    segment.push segments = segment :: segments := by
  cases segments with
  | nil => cases segment <;> rfl
  | cons next rest =>
    cases next with
    | literal t => simp [isLiteral] at h
    | placeholder name => cases segment <;> rfl

/-- A literal comes together from its characters. -/
theorem foldr_push_ofChar {segments : List Segment}
    (h : ∀ next ∈ segments.head?, next.isLiteral = false) (c : Char) (cs : List Char) :
    ((c :: cs).map ofChar).foldr push segments = .literal (String.ofList (c :: cs)) :: segments := by
  induction cs generalizing c with
  | nil => exact push_of_head h
  | cons d cs ih =>
    have hcons : String.ofList (c :: d :: cs) = String.singleton c ++ String.ofList (d :: cs) :=
      String.ofList_cons
    rw [List.map_cons, List.foldr_cons, ih, hcons]
    rfl

end Segment

/-- No literal is empty and no two literals are neighbours. -/
structure Merged (segments : List Segment) : Prop where
  nonempty : Segment.literal "" ∉ segments
  apart : segments.IsChain fun a b => ¬ (a.isLiteral = true ∧ b.isLiteral = true)

/-- The segments with neighbouring literals put together. -/
def merge (segments : List Segment) : List Segment := segments.foldr Segment.push []

namespace Merged

variable {segment : Segment} {segments : List Segment}

theorem nil : Merged [] := ⟨by simp, .nil⟩

theorem tail (h : Merged (segment :: segments)) : Merged segments :=
  ⟨fun hmem => h.nonempty (List.mem_cons_of_mem _ hmem), h.apart.tail⟩

theorem cons (hne : segment ≠ .literal "")
    (hapart : ∀ next ∈ segments.head?, ¬ (segment.isLiteral = true ∧ next.isLiteral = true))
    (h : Merged segments) : Merged (segment :: segments) := by
  refine ⟨?_, ?_⟩
  · intro hmem
    rcases List.mem_cons.mp hmem with heq | hmem
    · exact hne heq.symm
    · exact h.nonempty hmem
  · cases segments with
    | nil => exact .singleton _
    | cons next rest => exact .cons_cons (hapart next (by simp)) h.apart

theorem push (hne : segment ≠ .literal "") (h : Merged segments) :
    Merged (segment.push segments) := by
  unfold Segment.push
  split
  · next s t rest =>
    have hs : s ≠ "" := by simpa using hne
    refine .cons (by simp [hs]) ?_ h.tail
    cases rest with
    | nil => simp
    | cons next rest => simpa [Segment.isLiteral] using (List.isChain_cons_cons.mp h.apart).1
  · next hother =>
    refine .cons hne ?_ h
    rintro next hnext ⟨hlit, hnextlit⟩
    obtain ⟨rest, rfl⟩ := List.head?_eq_some_iff.mp hnext
    cases segment with
    | placeholder name => simp [Segment.isLiteral] at hlit
    | literal s =>
      cases next with
      | placeholder name => simp [Segment.isLiteral] at hnextlit
      | literal t => exact hother s t rest rfl rfl

theorem head_tail {s : String} (h : Merged (.literal s :: segments)) :
    ∀ next ∈ segments.head?, next.isLiteral = false := by
  cases segments with
  | nil => simp
  | cons next rest => simpa [Segment.isLiteral] using (List.isChain_cons_cons.mp h.apart).1

/-- Merged segments come back from their characters and placeholders. -/
theorem merge_atoms (h : Merged segments) : merge (segments.flatMap Segment.atoms) = segments := by
  induction segments with
  | nil => rfl
  | cons segment segments ih =>
    have hrest : (segments.flatMap Segment.atoms).foldr Segment.push [] = segments := ih h.tail
    rw [List.flatMap_cons, merge, List.foldr_append, hrest]
    cases segment with
    | placeholder name => rfl
    | literal s =>
      have hs : s.toList ≠ [] := by
        intro hs
        have hempty : s = "" := by simpa using hs
        exact h.nonempty (by simp [hempty])
      obtain ⟨c, cs, hcs⟩ := List.exists_cons_of_ne_nil hs
      rw [Segment.atoms, hcs, Segment.foldr_push_ofChar h.head_tail, ← hcs, String.ofList_toList]

end Merged

theorem merged_merge {segments : List Segment} (h : ∀ s ∈ segments, s ≠ .literal "") :
    Merged (merge segments) := by
  induction segments with
  | nil => exact .nil
  | cons segment segments ih =>
    exact (ih fun s hs => h s (List.mem_cons_of_mem _ hs)).push (h segment List.mem_cons_self)

theorem atoms_merge (segments : List Segment) :
    (merge segments).flatMap Segment.atoms = segments.flatMap Segment.atoms := by
  induction segments with
  | nil => rfl
  | cons segment segments ih =>
    rw [merge, List.foldr_cons, Segment.atoms_push, ← merge, ih, List.flatMap_cons]

end Phrasebook
