import Mathlib.Data.Set.Operations
import Phrasebook.Document.Diagnostic
import Phrasebook.Proofs.Text.Boundary
import Phrasebook.Proofs.Text.Bytes

namespace Phrasebook.Diagnostic

open Text

theorem lineStart_one (cs : List Char) : lineStart 1 cs = 0 := by
  cases cs <;> rfl

/-- A line begins behind the line feeds that end the lines before it. -/
theorem lineStart_succ (n : Nat) (cs : List Char) :
    lineStart (n + 1) cs = throughFeeds n (utf8 cs) := by
  induction cs generalizing n with
  | nil => cases n <;> rfl
  | cons c cs ih =>
    cases n with
    | zero => rw [lineStart_one, throughFeeds]
    | succ n =>
      rw [lineStart, utf8_cons]
      by_cases hc : c = '\n'
      · subst hc
        rw [if_pos rfl, ih, utf8EncodeChar_newline, List.singleton_append, throughFeeds,
          if_pos rfl]
        rfl
      · rw [if_neg hc, ih, throughFeeds_append_of_notMem n (lineFeed_notMem hc),
          String.length_utf8EncodeChar]

/-- The line of a byte begins as many bytes before it as its column says. -/
theorem lineStart_add_column (text : String) {offset : Nat} (h : offset ≤ text.utf8ByteSize) :
    lineStart (lineOf text offset) text.toList + (columnOf text offset - 1) = offset := by
  have hlength : ((bytes text).take offset).length = offset := by
    rw [List.length_take, bytes_eq_utf8, length_utf8, byteLength_toList, Nat.min_eq_left h]
  have hcount := throughFeeds_add_length ((bytes text).take offset) ((bytes text).drop offset)
  rw [List.take_append_drop, hlength] at hcount
  rw [lineOf, columnOf, Nat.add_comm 1, lineStart_succ, ← bytes_eq_utf8, Nat.add_sub_cancel_left,
    hcount]

theorem offsetOf_line_column_eq_floor (text : String) {offset : Nat}
    (h : offset ≤ text.utf8ByteSize) :
    offsetOf text.toList (lineOf text offset) (columnOf text offset) =
      floorBoundary text.toList offset := by
  rw [offsetOf, lineStart_add_column text h, byteLength_toList, Nat.min_eq_left h]

theorem floorBoundary_of_isBoundary {text : List Char} {offset : Nat}
    (h : IsBoundary text offset) : floorBoundary text offset = offset :=
  (isGreatest_floorBoundary text offset).unique ⟨⟨h, Nat.le_refl offset⟩, fun _ hk => hk.2⟩

/-- Line and column of a byte lead back to the last boundary up to it, so to a boundary itself, and no
two boundaries have the same place. -/
theorem offsetOf_line_column (text : String) :
    (∀ i ≤ text.utf8ByteSize,
      IsGreatest {k | (⟨k⟩ : String.Pos.Raw).IsValid text ∧ k ≤ i}
        (offsetOf text.toList (lineOf text i) (columnOf text i))) ∧
    (∀ i, (⟨i⟩ : String.Pos.Raw).IsValid text →
      offsetOf text.toList (lineOf text i) (columnOf text i) = i) ∧
    Set.InjOn (fun i => offsetOf text.toList (lineOf text i) (columnOf text i))
      {i | (⟨i⟩ : String.Pos.Raw).IsValid text} := by
  have hback : ∀ i, (⟨i⟩ : String.Pos.Raw).IsValid text →
      offsetOf text.toList (lineOf text i) (columnOf text i) = i := by
    intro i hi
    rw [offsetOf_line_column_eq_floor text hi.le_utf8ByteSize]
    exact floorBoundary_of_isBoundary (isBoundary_toList_iff.mpr hi)
  refine ⟨?_, hback, ?_⟩
  · intro i hi
    rw [offsetOf_line_column_eq_floor text hi]
    simpa only [isBoundary_toList_iff] using isGreatest_floorBoundary text.toList i
  · intro i hi j hj heq
    exact (hback i hi).symm.trans (heq.trans (hback j hj))

/-- A character of two bytes and a line that ends with a carriage return and a line feed. -/
def twoLines : String := "é\r\nb"

theorem offsetOf_line_column_twoLines :
    (1 ≤ twoLines.utf8ByteSize ∧ lineOf twoLines 1 = 1 ∧ columnOf twoLines 1 = 2 ∧
      IsGreatest {k | (⟨k⟩ : String.Pos.Raw).IsValid twoLines ∧ k ≤ 1}
        (offsetOf twoLines.toList (lineOf twoLines 1) (columnOf twoLines 1))) ∧
    ((⟨4⟩ : String.Pos.Raw).IsValid twoLines ∧ lineOf twoLines 4 = 2 ∧ columnOf twoLines 4 = 1 ∧
      offsetOf twoLines.toList (lineOf twoLines 4) (columnOf twoLines 4) = 4) ∧
    (⟨3⟩ : String.Pos.Raw).IsValid twoLines ∧
      offsetOf twoLines.toList (lineOf twoLines 3) (columnOf twoLines 3) ≠
        offsetOf twoLines.toList (lineOf twoLines 4) (columnOf twoLines 4) := by
  have hthree : (⟨3⟩ : String.Pos.Raw).IsValid twoLines := by decide +kernel
  have hfour : (⟨4⟩ : String.Pos.Raw).IsValid twoLines := by decide +kernel
  obtain ⟨hgreatest, hback, hinj⟩ := offsetOf_line_column twoLines
  refine ⟨⟨by decide +kernel, by decide +kernel, by decide +kernel, hgreatest 1 (by decide +kernel)⟩,
    ⟨hfour, by decide +kernel, by decide +kernel, hback 4 hfour⟩, hthree, ?_⟩
  intro heq
  exact absurd (hinj hthree hfour heq) (by decide)

end Phrasebook.Diagnostic
