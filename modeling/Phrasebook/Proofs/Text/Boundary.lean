import Phrasebook.Proofs.Text.Search

namespace Phrasebook.Text

/-- A byte offset that is not inside a character: even the empty word stands there. -/
def IsBoundary (text : List Char) (offset : Nat) : Prop := StandsAt [] text offset

variable {word text before after : List Char} {c : Char} {offset : Nat}

theorem isBoundary_zero (text : List Char) : IsBoundary text 0 :=
  standsAt_zero_iff.mpr List.nil_prefix

theorem isBoundary_nil_iff : IsBoundary [] offset ↔ offset = 0 := by
  rw [IsBoundary, standsAt_nil_iff]
  simp

/-- A boundary behind the first character is one of what follows that character. -/
theorem isBoundary_cons_iff : IsBoundary (c :: text) offset ↔
    offset = 0 ∨ ∃ rest, IsBoundary text rest ∧ c.utf8Size + rest = offset := by
  rw [IsBoundary, standsAt_cons_iff]
  simp [IsBoundary]

theorem isBoundary_iff : IsBoundary text offset ↔
    ∃ before after, text = before ++ after ∧ byteLength before = offset := Iff.rfl

/-- A word begins and ends at boundaries. -/
theorem StandsAt.isBoundary (h : StandsAt word text offset) :
    IsBoundary text offset ∧ IsBoundary text (offset + byteLength word) := by
  obtain ⟨before, after, rfl, rfl⟩ := h
  refine ⟨⟨before, word ++ after, rfl, rfl⟩, before ++ word, after, ?_, byteLength_append _ _⟩
  rw [List.append_assoc, List.nil_append]

theorem utf8ByteSize_ofList (cs : List Char) : (String.ofList cs).utf8ByteSize = byteLength cs := by
  induction cs with
  | nil => rfl
  | cons c cs ih =>
    rw [String.ofList_cons, String.utf8ByteSize_append, String.utf8ByteSize_singleton, ih,
      byteLength_cons]

theorem byteLength_toList (s : String) : byteLength s.toList = s.utf8ByteSize := by
  rw [← utf8ByteSize_ofList, String.ofList_toList]

theorem isBoundary_toList_iff {s : String} :
    IsBoundary s.toList offset ↔ (⟨offset⟩ : String.Pos.Raw).IsValid s := by
  rw [isBoundary_iff, String.Pos.Raw.isValid_iff_exists_append]
  constructor
  · intro h
    obtain ⟨before, after, hsplit, rfl⟩ := h
    refine ⟨String.ofList before, String.ofList after, ?_, ?_⟩
    · rw [← String.ofList_append, ← hsplit, String.ofList_toList]
    · rw [← utf8ByteSize_ofList]
      rfl
  · intro h
    obtain ⟨front, back, rfl, hend⟩ := h
    refine ⟨front.toList, back.toList, String.toList_append, ?_⟩
    rw [byteLength_toList]
    exact (congrArg String.Pos.Raw.byteIdx hend).symm

/-- Moving back to where a character begins leads to the last boundary on the way. -/
theorem isGreatest_floorBoundary (text : List Char) (offset : Nat) :
    IsGreatest {k | IsBoundary text k ∧ k ≤ offset} (floorBoundary text offset) := by
  induction text generalizing offset with
  | nil =>
    refine ⟨⟨isBoundary_zero [], Nat.zero_le offset⟩, ?_⟩
    intro k hk
    exact Nat.le_of_eq (isBoundary_nil_iff.mp hk.1)
  | cons c cs ih =>
    rw [floorBoundary]
    split
    · next hinside =>
      refine ⟨⟨isBoundary_zero _, Nat.zero_le offset⟩, ?_⟩
      intro k hk
      obtain ⟨hk, hle⟩ := hk
      obtain rfl | ⟨rest, -, rfl⟩ := isBoundary_cons_iff.mp hk
      · exact Nat.le_refl 0
      · omega
    · next hbehind =>
      obtain ⟨⟨hfloor, hle⟩, hgreatest⟩ := ih (offset - c.utf8Size)
      refine ⟨⟨isBoundary_cons_iff.mpr (.inr ⟨_, hfloor, rfl⟩), by omega⟩, ?_⟩
      intro k hk
      obtain ⟨hk, hkle⟩ := hk
      obtain rfl | ⟨rest, hrest, rfl⟩ := isBoundary_cons_iff.mp hk
      · exact Nat.zero_le _
      · exact Nat.add_le_add_left (hgreatest ⟨hrest, by omega⟩) _

theorem isBoundary_floorBoundary (text : List Char) (offset : Nat) :
    IsBoundary text (floorBoundary text offset) := (isGreatest_floorBoundary text offset).1.1

end Phrasebook.Text
