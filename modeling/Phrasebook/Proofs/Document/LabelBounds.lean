import Phrasebook.Proofs.Document.Label
import Phrasebook.Proofs.Document.Offset
import Phrasebook.Proofs.Document.Order

namespace Phrasebook

open Json Text

/-- The run of bytes lies in the text, from one boundary of characters to another. -/
structure Label.Inside (label : Label) (text : String) : Prop where
  begins : (⟨label.offset⟩ : String.Pos.Raw).IsValid text
  ends : (⟨label.offset + label.length⟩ : String.Pos.Raw).IsValid text

/-- One character is covered, or nothing at the end of the text. -/
def Label.CoversCharacter (label : Label) (text : List Char) : Prop :=
  (∃ before c after, text = before ++ c :: after ∧ label.Covers before [c]) ∨ label.Covers text []

/-- The fault has a place in the text of the document. -/
def LoadFault.IsLocated : LoadFault → Prop
  | .malformed _ => True
  | .template _ _ _ => True
  | _ => False

theorem Label.inside_iff {label : Label} {text : String} : label.Inside text ↔
    IsBoundary text.toList label.offset ∧ IsBoundary text.toList (label.offset + label.length) := by
  rw [isBoundary_toList_iff, isBoundary_toList_iff]
  exact ⟨fun h => ⟨h.begins, h.ends⟩, fun h => ⟨h.1, h.2⟩⟩

/-- A label that covers a run of characters in the text lies in the text. -/
theorem Label.Covers.inside {label : Label} {text : String} {before run after : List Char}
    (h : label.Covers before run) (hsplit : text.toList = before ++ (run ++ after)) :
    label.Inside text := by
  have hstands : StandsAt run text.toList label.offset := ⟨before, after, hsplit, h.1.symm⟩
  rw [inside_iff, h.2]
  exact hstands.isBoundary

theorem Label.CoversCharacter.inside {label : Label} {text : String}
    (h : label.CoversCharacter text.toList) : label.Inside text := by
  obtain ⟨before, c, after, hsplit, hcovers⟩ | hcovers := h
  · exact hcovers.inside hsplit
  · exact hcovers.inside (List.append_nil _).symm

namespace Document

theorem read_of_malformed {text : String} {failure : Failure}
    (h : Catalog.ofText text = .error (.malformed failure)) :
    read text = .error failure := by
  obtain ⟨failure', hread, heq⟩ | ⟨d, -, hcatalog⟩ := Catalog.ofText_eq_error_iff.mp h
  · cases heq
    exact hread
  · obtain ⟨_, hfault⟩ | ⟨_, _, _, hfault⟩ := fault_of_toCatalog hcatalog
    · cases hfault
    · cases hfault

/-- A document begins with a character of one byte. -/
theorem exists_cons_of_read {text : String} {d : Document} (h : read text = .ok d) :
    ∃ first tail, text.toList = first :: tail ∧ first.utf8Size = 1 := by
  obtain ⟨rest, hread, -⟩ := Reader.run_eq_ok_iff.mp h
  obtain ⟨c, tail, hskip, hread⟩ := Reader.atValue_eq_ok hread
  split at hread
  · next heq =>
    cases heq
    exact exists_cons_of_skipBlanks hskip (by decide)
  · next heq =>
    cases heq
    exact exists_cons_of_skipBlanks hskip (by decide)
  · cases hread

end Document

namespace Diagnostic

theorem lineStart_le (line : Nat) (text : List Char) : lineStart line text ≤ byteLength text := by
  fun_induction lineStart line text with
  | case1 => exact Nat.zero_le _
  | case2 => exact Nat.zero_le _
  | case3 => exact Nat.le_refl 0
  | case4 n c cs ihNext ihHere =>
    rw [byteLength_cons]
    split <;> omega

theorem charLength_front (before : List Char) (c : Char) (after : List Char) :
    charLength (before ++ c :: after) (byteLength before) = c.utf8Size := by
  rw [charLength, dropBytes_byteLength]

theorem charLength_byteLength (text : List Char) : charLength text (byteLength text) = 0 := by
  have hdrop := dropBytes_byteLength text []
  rw [List.append_nil] at hdrop
  rw [charLength, hdrop]

/-- At a boundary there is a character or the end of the text. -/
theorem coversCharacter_of_isBoundary {text : List Char} {offset : Nat} (h : IsBoundary text offset)
    (remark : String) : Label.CoversCharacter ⟨offset, charLength text offset, remark⟩ text := by
  obtain ⟨before, after, rfl, rfl⟩ := isBoundary_iff.mp h
  cases after with
  | nil =>
    rw [List.append_nil]
    exact .inr ⟨rfl, charLength_byteLength before⟩
  | cons c after => exact .inl ⟨before, c, after, rfl, rfl, charLength_front before c after⟩

/-- The one label of a malformed text covers the character its offset leads to. -/
theorem exists_label_of_malformed (path text : String) (failure : Failure) :
    ∃ label, (ofFault path text (.malformed failure)).labels = [label] ∧
      label.CoversCharacter text.toList :=
  ⟨_, rfl, coversCharacter_of_isBoundary (isBoundary_floorBoundary _ _) "here"⟩

/-- A place that reading finds is no further on than the end of the text. -/
theorem lineStart_add_column_le {text : String} {failure : Failure}
    (h : Catalog.ofText text = .error (.malformed failure)) :
    lineStart failure.position.line text.toList + (failure.position.column - 1) ≤
      text.utf8ByteSize := by
  obtain ⟨offset, hle, hposition⟩ := Reader.exists_offset_of_run (Document.read_of_malformed h)
  rw [byteLength_toList] at hle
  rw [Position.ofOffset_toList] at hposition
  rw [hposition]
  calc lineStart (lineOf text offset) text.toList + (columnOf text offset - 1 - 1)
    _ ≤ lineStart (lineOf text offset) text.toList + (columnOf text offset - 1) := by omega
    _ = offset := lineStart_add_column text hle
    _ ≤ text.utf8ByteSize := hle

theorem KeysFrom.isBoundary {text : List Char} {start : Nat} (h : KeysFrom text start) :
    IsBoundary text start := by
  obtain ⟨before, after, rfl, rfl⟩ := exists_split_of_keysFrom h
  exact isBoundary_iff.mpr ⟨before, after, rfl, rfl⟩

theorem keySpan_cases (text : List Char) (key : String) :
    (∃ offset, keySpan text key = (offset, byteLength (quotedKey key))) ∨
      keySpan text key = (0, 1) := by
  rw [keySpan]
  split
  · exact .inl ⟨_, rfl⟩
  · exact .inr rfl

/-- The key is found in the text, or else the mark is on the one byte that the text begins with. -/
theorem isBoundary_keySpan {text tail : List Char} {c : Char} (key : String)
    (htext : text = c :: tail) (hsize : c.utf8Size = 1) :
    IsBoundary text (keySpan text key).1 ∧
      IsBoundary text ((keySpan text key).1 + (keySpan text key).2) := by
  obtain ⟨offset, hspan⟩ | hspan := keySpan_cases text key
  · have hfirst := (keySpan_eq_iff (keysFrom_iff.mpr rfl)).mp hspan
    rw [hspan]
    exact hfirst.1.2.isBoundary
  · rw [hspan]
    have hstands : StandsAt [c] text 0 := standsAt_zero_iff.mpr ⟨tail, htext.symm⟩
    have hbyte : byteLength [c] = 1 := by rw [byteLength_cons, hsize, byteLength_nil]
    have hboundary := hstands.isBoundary
    rwa [hbyte] at hboundary

theorem exists_label_of_template {path text key locale : String} {fault : Template.Fault}
    (h : Catalog.ofText text = .error (.template key locale fault)) :
    ∃ label, (ofFault path text (.template key locale fault)).labels = [label] ∧
      label.Inside text := by
  obtain ⟨_, -, heq⟩ | ⟨d, hread, -⟩ := Catalog.ofText_eq_error_iff.mp h
  · cases heq
  · obtain ⟨c, tail, htext, hsize⟩ := Document.exists_cons_of_read hread
    exact ⟨_, rfl, Label.inside_iff.mpr (isBoundary_keySpan key htext hsize)⟩

/-- A fault with a place in the document is marked by one label, which lies in the text. The label of
a malformed text covers one character, or nothing at the end, for every line and column whose sum
with the length of the text is a machine word: no step towards the offset leaves the words. Keys are
searched for from a boundary on. -/
theorem labels_inside (path text : String) :
    (∀ fault, Catalog.ofText text = .error fault → fault.IsLocated →
      ∃ report label, load path (.ok text) = .error report ∧ report.labels = [label] ∧
        label.Inside text ∧
        ∀ failure, fault = .malformed failure → label.CoversCharacter text.toList ∧
          lineStart failure.position.line text.toList + (failure.position.column - 1) ≤
            text.utf8ByteSize) ∧
    (∀ failure : Failure,
      failure.position.line + failure.position.column + text.utf8ByteSize < USize.size →
      ∃ label, (ofFault path text (.malformed failure)).labels = [label] ∧
        label.Inside text ∧ label.CoversCharacter text.toList ∧
        lineStart failure.position.line text.toList + (failure.position.column - 1) < USize.size) ∧
    ∀ start, KeysFrom text.toList start → (⟨start⟩ : String.Pos.Raw).IsValid text := by
  refine ⟨?_, ?_, fun start hstart => isBoundary_toList_iff.mp hstart.isBoundary⟩
  · intro fault hfault hlocated
    have hload := load_of_fault hfault path
    cases fault with
    | malformed failure =>
      obtain ⟨label, hlabels, hcovers⟩ := exists_label_of_malformed path text failure
      refine ⟨_, label, hload, hlabels, hcovers.inside, ?_⟩
      rintro _ ⟨⟩
      exact ⟨hcovers, lineStart_add_column_le hfault⟩
    | template key locale cause =>
      obtain ⟨label, hlabels, hinside⟩ := exists_label_of_template hfault
      exact ⟨_, label, hload, hlabels, hinside, nofun⟩
    | unreadable _ _ => exact hlocated.elim
    | roster _ => exact hlocated.elim
    | noSource => exact hlocated.elim
  · intro failure hfits
    obtain ⟨label, hlabels, hcovers⟩ := exists_label_of_malformed path text failure
    refine ⟨label, hlabels, hcovers.inside, hcovers, ?_⟩
    have hstart := lineStart_le failure.position.line text.toList
    rw [byteLength_toList] at hstart
    omega

/-- A text of one character, of two bytes. -/
def letter : String := "é"

theorem ofText_letter : Catalog.ofText letter = .error (.malformed ⟨.noValue, ⟨1, 1⟩⟩) :=
  fault?_eq_some_iff.mp (by decide +kernel)

theorem labels_inside_letter :
    (Catalog.ofText letter = .error (.malformed ⟨.noValue, ⟨1, 1⟩⟩) ∧
      ∃ report label, load "a.json" (.ok letter) = .error report ∧ report.labels = [label] ∧
        label.Inside letter ∧ label.CoversCharacter letter.toList) ∧
    (1 + 2 + letter.utf8ByteSize < USize.size ∧
      ∃ label, (ofFault "a.json" letter (.malformed ⟨.noValue, ⟨1, 2⟩⟩)).labels = [label] ∧
        label.Inside letter ∧ label.CoversCharacter letter.toList) ∧
    (Catalog.ofText typedText = .error (.template "text" "EN" ⟨⟨1, 1⟩, '\x7b'⟩) ∧
      ∃ report label, load "a.json" (.ok typedText) = .error report ∧ report.labels = [label] ∧
        label.Inside typedText) ∧
    ∃ start, KeysFrom typedText.toList start ∧ (⟨start⟩ : String.Pos.Raw).IsValid typedText := by
  have hfits : 1 + 2 + letter.utf8ByteSize < USize.size :=
    Nat.lt_of_lt_of_le (by decide +kernel : 1 + 2 + letter.utf8ByteSize < 4294967296) USize.le_size
  have hstart : KeysFrom typedText.toList
      ((find? "\"phrases\"".toList typedText.toList).getD 0) := keysFrom_iff.mpr rfl
  obtain ⟨hloaded, hplaces, -⟩ := labels_inside "a.json" letter
  obtain ⟨hrejected, -, hcuts⟩ := labels_inside "a.json" typedText
  refine ⟨⟨ofText_letter, ?_⟩, ⟨hfits, ?_⟩, ⟨ofText_typedText, ?_⟩, _, hstart, hcuts _ hstart⟩
  · obtain ⟨report, label, hload, hlabels, hinside, hfault⟩ := hloaded _ ofText_letter trivial
    exact ⟨report, label, hload, hlabels, hinside, (hfault _ rfl).1⟩
  · obtain ⟨label, hlabels, hinside, hcovers, -⟩ := hplaces ⟨.noValue, ⟨1, 2⟩⟩ hfits
    exact ⟨label, hlabels, hinside, hcovers⟩
  · obtain ⟨report, label, hload, hlabels, hinside, -⟩ := hrejected _ ofText_typedText trivial
    exact ⟨report, label, hload, hlabels, hinside⟩

end Diagnostic

end Phrasebook
