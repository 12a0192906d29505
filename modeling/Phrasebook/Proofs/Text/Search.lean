import Mathlib.Order.Bounds.Basic
import Phrasebook.Proofs.Text.Position
import Phrasebook.Text.Search

namespace Phrasebook.Text

/-- The word stands in the text at a byte offset. -/
def StandsAt (word text : List Char) (offset : Nat) : Prop :=
  ∃ before after, text = before ++ (word ++ after) ∧ byteLength before = offset

variable {word text before after : List Char} {c : Char} {offset start : Nat}

theorem byteLength_eq_zero_iff : byteLength text = 0 ↔ text = [] := by
  cases text with
  | nil => simp
  | cons c cs =>
    have hpos := c.utf8Size_pos
    simp only [byteLength_cons, List.cons_ne_nil, iff_false]
    omega

theorem standsAt_zero_iff : StandsAt word text 0 ↔ word <+: text := by
  constructor
  · intro h
    obtain ⟨before, after, rfl, hzero⟩ := h
    rw [byteLength_eq_zero_iff.mp hzero]
    exact List.prefix_append word after
  · intro h
    obtain ⟨after, rfl⟩ := h
    exact ⟨[], after, rfl, rfl⟩

theorem standsAt_nil_iff : StandsAt word [] offset ↔ word = [] ∧ offset = 0 := by
  constructor
  · intro h
    obtain ⟨before, after, hsplit, rfl⟩ := h
    obtain ⟨rfl, hword⟩ := List.nil_eq_append_iff.mp hsplit
    exact ⟨(List.append_eq_nil_iff.mp hword).1, rfl⟩
  · intro h
    obtain ⟨rfl, rfl⟩ := h
    exact standsAt_zero_iff.mpr List.prefix_rfl

/-- A word stands at the front of a text, or somewhere behind its first character. -/
theorem standsAt_cons_iff : StandsAt word (c :: text) offset ↔
    (word <+: c :: text ∧ offset = 0) ∨
      ∃ rest, StandsAt word text rest ∧ c.utf8Size + rest = offset := by
  constructor
  · intro h
    obtain ⟨before, after, hsplit, rfl⟩ := h
    cases before with
    | nil => exact .inl ⟨⟨after, hsplit.symm⟩, rfl⟩
    | cons d before =>
      obtain ⟨rfl, rfl⟩ := List.cons.inj hsplit
      exact .inr ⟨byteLength before, ⟨before, after, rfl, rfl⟩, rfl⟩
  · intro h
    obtain ⟨hfront, rfl⟩ | ⟨_, ⟨before, after, rfl, rfl⟩, rfl⟩ := h
    · exact standsAt_zero_iff.mpr hfront
    · exact ⟨c :: before, after, rfl, rfl⟩

/-- Behind a stretch of a text, a word stands where it does in what follows the stretch. -/
theorem standsAt_append_iff :
    StandsAt word (before ++ after) (byteLength before + offset) ↔ StandsAt word after offset := by
  constructor
  · intro h
    obtain ⟨front, back, hsplit, hlength⟩ := h
    obtain ⟨middle, rfl, hafter⟩ | ⟨middle, rfl, hback⟩ := List.append_eq_append_iff.mp hsplit
    · rw [byteLength_append, Nat.add_left_cancel_iff] at hlength
      exact ⟨middle, back, hafter, hlength⟩
    · rw [byteLength_append] at hlength
      obtain rfl := byteLength_eq_zero_iff.mp (show byteLength middle = 0 by omega)
      obtain rfl : offset = 0 := by omega
      exact ⟨[], back, hback.symm, rfl⟩
  · intro h
    obtain ⟨front, back, rfl, rfl⟩ := h
    exact ⟨before ++ front, back, (List.append_assoc ..).symm, byteLength_append before front⟩

theorem isLeast_of_find? (h : find? word text = some offset) :
    IsLeast {k | StandsAt word text k} offset := by
  induction text generalizing offset with
  | nil =>
    rw [find?] at h
    split at h
    · next hword =>
      cases h
      exact ⟨standsAt_nil_iff.mpr ⟨List.isEmpty_iff.mp hword, rfl⟩, fun k _ => Nat.zero_le k⟩
    · cases h
  | cons c text ih =>
    rw [find?] at h
    split at h
    · next hhead =>
      cases h
      exact ⟨standsAt_zero_iff.mpr (List.isPrefixOf_iff_prefix.mp hhead), fun k _ => Nat.zero_le k⟩
    · next hhead =>
      obtain ⟨rest, hrest, rfl⟩ := Option.map_eq_some_iff.mp h
      obtain ⟨hstands, hleast⟩ := ih hrest
      refine ⟨standsAt_cons_iff.mpr (.inr ⟨rest, hstands, rfl⟩), ?_⟩
      intro k hk
      obtain ⟨hfront, -⟩ | ⟨rest', hrest', rfl⟩ := standsAt_cons_iff.mp hk
      · exact absurd (List.isPrefixOf_iff_prefix.mpr hfront) hhead
      · exact Nat.add_le_add_left (hleast hrest') _

theorem not_standsAt_of_find? (h : find? word text = none) (k : Nat) : ¬ StandsAt word text k := by
  induction text generalizing k with
  | nil =>
    rw [find?] at h
    split at h
    · cases h
    · next hword =>
      intro hk
      exact hword (List.isEmpty_iff.mpr (standsAt_nil_iff.mp hk).1)
  | cons c text ih =>
    rw [find?] at h
    split at h
    · cases h
    · next hhead =>
      intro hk
      obtain ⟨hfront, -⟩ | ⟨rest, hrest, -⟩ := standsAt_cons_iff.mp hk
      · exact hhead (List.isPrefixOf_iff_prefix.mpr hfront)
      · exact ih (Option.map_eq_none_iff.mp h) rest hrest

theorem find?_eq_none_iff : find? word text = none ↔ ∀ k, ¬ StandsAt word text k := by
  constructor
  · exact not_standsAt_of_find?
  · intro h
    cases hfind : find? word text with
    | none => rfl
    | some offset => exact absurd (isLeast_of_find? hfind).1 (h offset)

/-- A search finds the first place of the word. -/
theorem find?_eq_some_iff :
    find? word text = some offset ↔ IsLeast {k | StandsAt word text k} offset := by
  constructor
  · exact isLeast_of_find?
  · intro h
    cases hfind : find? word text with
    | none => exact absurd h.1 (not_standsAt_of_find? hfind offset)
    | some found => rw [(isLeast_of_find? hfind).unique h]

theorem dropBytes_byteLength (before after : List Char) :
    dropBytes (byteLength before) (before ++ after) = after := by
  induction before with
  | nil => rw [byteLength_nil, List.nil_append, dropBytes]
  | cons c before ih =>
    obtain ⟨n, hn⟩ := Nat.exists_eq_add_one_of_ne_zero (Nat.ne_of_gt c.utf8Size_pos)
    have hlength : byteLength (c :: before) = n + byteLength before + 1 := by
      rw [byteLength_cons, hn]
      omega
    have hrest : n + byteLength before + 1 - c.utf8Size = byteLength before := by omega
    rw [hlength, List.cons_append, dropBytes, hrest, ih]

/-- The first place of the word that is not before `start`. -/
def FirstFrom (start : Nat) (word text : List Char) (offset : Nat) : Prop :=
  IsLeast {k | start ≤ k ∧ StandsAt word text k} offset

theorem firstFrom_append_iff :
    FirstFrom (byteLength before) word (before ++ after) (byteLength before + offset) ↔
      find? word after = some offset := by
  rw [find?_eq_some_iff]
  constructor
  · intro h
    obtain ⟨⟨-, hstands⟩, hleast⟩ := h
    refine ⟨standsAt_append_iff.mp hstands, ?_⟩
    intro k hk
    have hle := hleast ⟨Nat.le_add_right _ k, standsAt_append_iff.mpr hk⟩
    exact Nat.le_of_add_le_add_left hle
  · intro h
    obtain ⟨hstands, hleast⟩ := h
    refine ⟨⟨Nat.le_add_right _ _, standsAt_append_iff.mpr hstands⟩, ?_⟩
    intro k hk
    obtain ⟨hle, hk⟩ := hk
    obtain ⟨rest, rfl⟩ := Nat.exists_eq_add_of_le hle
    exact Nat.add_le_add_left (hleast (standsAt_append_iff.mp hk)) _

end Phrasebook.Text
