import Phrasebook.Document.Diagnostic
import Phrasebook.Proofs.Document.FirstFault
import Phrasebook.Proofs.Json.Names
import Phrasebook.Proofs.Text.Search

namespace Phrasebook

open Json

theorem Locale.skippable_fields : ∀ field ∈ Locale.record.fields, field.set.Skippable := by
  simp only [Locale.record, List.forall_mem_cons]
  refine ⟨?_, ?_, ?_, ?_, nofun⟩
  · exact Reader.skippable_string.map _
  · exact Reader.skippable_string.map _
  · exact Reader.skippable_string.optional.map _
  · exact Reader.skippable_bool.map _

theorem DebugInfo.skippable_fields : ∀ field ∈ DebugInfo.record.fields, field.set.Skippable := by
  simp only [DebugInfo.record, List.forall_mem_cons]
  refine ⟨?_, ?_, nofun⟩
  · exact Reader.skippable_string.map _
  · exact Reader.skippable_string.map _

theorem AuthoredNode.skippable_reader : AuthoredNode.reader.Skippable :=
  ((Reader.whole_tagged tagging).listOf ofContent).skippable

namespace Document

theorem skippable_dict {α : Type} {value : Reader α} (h : value.Skippable) :
    (dict value).Skippable := h.dict.map _

theorem skippable_fields : ∀ field ∈ record.fields, field.set.Skippable := by
  simp only [record, List.forall_mem_cons]
  refine ⟨?_, ?_, ?_, ?_, ?_, nofun⟩
  · exact Reader.skippable_string.optional.map _
  · exact Reader.skippable_string.optional.map _
  · exact ((Record.skippable_reader Locale.skippable_fields).listOf _).map _
  · exact (skippable_dict (skippable_dict AuthoredNode.skippable_reader)).map _
  · exact (skippable_dict (Record.skippable_reader DebugInfo.skippable_fields)).map _

/-- The names in the `phrases` object of a document's text, each as the text after its opening
quote. -/
def phraseNames (text : List Char) : List (List Char) :=
  (record.valuesOf "phrases" text).flatMap names

theorem quote_suffix_of_phraseNames {text name : List Char} (h : name ∈ phraseNames text) :
    '"' :: name <:+ text := by
  obtain ⟨value, hvalue, hname⟩ := List.mem_flatMap.mp h
  exact (quote_suffix_of_names hname).trans (Record.suffix_of_valuesOf hvalue)

/-- Every key of the document is a name in the `phrases` object of the text. -/
def KeysNamed (text : List Char) (d : Document) : Prop :=
  ∀ key ∈ d.phrases.keys, ∃ name ∈ phraseNames text, ∃ after, Json.string name = .ok (key, after)

theorem keysNamed_of_read {text : String} {d : Document} (h : read text = .ok d) :
    KeysNamed text.toList d := by
  obtain ⟨rest, hread, -⟩ := Reader.run_eq_ok_iff.mp h
  refine Record.reader_keeps skippable_fields (by decide) hread ?_ ?_
  · intro key hkey
    cases hkey
  · -- No field but one changes the phrases.
    simp only [record, List.forall_mem_cons]
    refine ⟨?_, ?_, ?_, ?_, ?_, nofun⟩
    · exact Field.keeps_map_of_forall _ _ fun _ _ hd => hd
    · exact Field.keeps_map_of_forall _ _ fun _ _ hd => hd
    · exact Field.keeps_map_of_forall _ _ fun _ _ hd => hd
    · apply Field.keeps_map
      intro start hstart depth phrases after hphrases d _ key hkey
      obtain ⟨⟨ps, after'⟩, hps, hphrases⟩ := bind_eq_ok_iff.mp hphrases
      cases hphrases
      obtain ⟨p, hp, rfl⟩ := Dict.mem_of_mem_keys_ofList hkey
      obtain ⟨name, hname, hstring⟩ :=
        Reader.exists_name_of_dict (skippable_dict AuthoredNode.skippable_reader) hps hp
      exact ⟨name, List.mem_flatMap.mpr ⟨start, hstart, hname⟩, hstring⟩
    · exact Field.keeps_map_of_forall _ _ fun _ _ hd => hd

/-- The `phrases` object of the text names the key between `before` and `after`; `name` is the text
after the opening quote. -/
structure NamedAt (text : List Char) (key : String) (before name after : List Char) : Prop where
  split : text = before ++ '"' :: name
  isName : name ∈ phraseNames text
  reads : Json.string name = .ok (key, after)

/-- The name is written without escapes. -/
def PlainAt (text : List Char) (key : String) (before after : List Char) : Prop :=
  NamedAt text key before (key.toList ++ '"' :: after) after

/-- The document is an object, and its `phrases` is written without escapes. -/
structure PlainPhrases (text : List Char) : Prop where
  isObject : ∃ rest, skipBlanks text = '\x7b' :: rest
  plain : ∀ name ∈ names text, ∀ rest, Json.string name = .ok ("phrases", rest) →
    name = "phrases".toList ++ '"' :: rest

/-- Every name in the `phrases` object comes after the name of that object. -/
theorem PlainPhrases.exists_of_mem {text name : List Char} (h : PlainPhrases text)
    (hname : name ∈ phraseNames text) :
    ∃ rest, '"' :: ("phrases".toList ++ '"' :: rest) <:+ text ∧ '"' :: name <:+ rest := by
  obtain ⟨value, hvalue, hname⟩ := List.mem_flatMap.mp hname
  obtain ⟨start, hstart⟩ := h.isObject
  rw [Record.valuesOf, hstart] at hvalue
  obtain ⟨name', hname', hvalue⟩ := List.mem_filterMap.mp hvalue
  obtain ⟨rest, hstring, hcolon⟩ := valueOf?_eq_some_iff.mp hvalue
  refine ⟨rest, ?_, (quote_suffix_of_names hname).trans (suffix_of_colon hcolon)⟩
  rw [← h.plain name' hname' rest hstring]
  exact quote_suffix_of_names hname'

theorem exists_namedAt {text key locale : String} {fault : Template.Fault}
    (h : Catalog.ofText text = .error (.template key locale fault)) :
    ∃ before name after, NamedAt text.toList key before name after := by
  obtain ⟨failure, -, hmalformed⟩ | ⟨d, hread, hcatalog⟩ := Catalog.ofText_eq_error_iff.mp h
  · cases hmalformed
  · cases hroster : Roster.ofList d.locales with
    | error rosterFault =>
      rw [toCatalog, hroster] at hcatalog
      cases hcatalog
    | ok r =>
      obtain ⟨s, fault', hfault, -⟩ := exists_firstFault hroster hcatalog
      cases hfault
      obtain ⟨entries, hentries, -⟩ := Option.bind_eq_some_iff.mp s.found
      have hkey : s.key ∈ d.phrases.keys :=
        Dict.mem_keys_iff.mpr (Option.isSome_iff_exists.mpr ⟨entries, hentries⟩)
      obtain ⟨name, hname, after, hstring⟩ := keysNamed_of_read hread s.key hkey
      obtain ⟨before, hsplit⟩ := quote_suffix_of_phraseNames hname
      exact ⟨before, name, after, hsplit.symm, hname, hstring⟩

end Document

/-- The label covers a run of characters that stands after `before`. -/
def Label.Covers (label : Label) (before run : List Char) : Prop :=
  label.offset = Text.byteLength before ∧ label.length = Text.byteLength run

namespace Diagnostic

open Text

/-- A key as it is searched for. -/
def quotedKey (key : String) : List Char := '"' :: key.toList ++ ['"']

/-- Keys are searched for from the first `"phrases"` of the text on, or from the start of a text
without one. -/
def KeysFrom (text : List Char) (start : Nat) : Prop :=
  IsLeast {k | StandsAt "\"phrases\"".toList text k} start ∨
    (∀ k, ¬ StandsAt "\"phrases\"".toList text k) ∧ start = 0

variable {text : List Char} {key : String} {start offset : Nat}

theorem keysFrom_iff : KeysFrom text start ↔
    (find? "\"phrases\"".toList text).getD 0 = start := by
  rw [KeysFrom, ← find?_eq_some_iff, ← find?_eq_none_iff]
  cases find? "\"phrases\"".toList text with
  | none => simp [eq_comm]
  | some found => simp

theorem exists_split_of_keysFrom (h : KeysFrom text start) :
    ∃ before after, text = before ++ after ∧ byteLength before = start := by
  obtain ⟨⟨before, after, hsplit, hlength⟩, -⟩ | ⟨-, rfl⟩ := h
  · exact ⟨before, _, hsplit, hlength⟩
  · exact ⟨[], text, rfl, rfl⟩

theorem one_lt_byteLength_quotedKey (key : String) : 1 < byteLength (quotedKey key) := by
  have hsize : ('"' : Char).utf8Size = 1 := by decide
  simp only [quotedKey, byteLength_append, byteLength_cons, byteLength_nil, hsize]
  omega

/-- The mark covers the first quoted occurrence of the key from where keys are searched for. -/
theorem keySpan_eq_iff (hstart : KeysFrom text start) :
    keySpan text key = (offset, byteLength (quotedKey key)) ↔
      FirstFrom start (quotedKey key) text offset := by
  obtain ⟨before, after, rfl, rfl⟩ := exists_split_of_keysFrom hstart
  have hspan : keySpan (before ++ after) key = (find? (quotedKey key) after).elim (0, 1)
      fun found => (byteLength before + found, byteLength (quotedKey key)) := by
    rw [keySpan]
    simp only [keysFrom_iff.mp hstart, dropBytes_byteLength, quotedKey]
    cases find? ('"' :: key.toList ++ ['"']) after <;> rfl
  rw [hspan]
  constructor
  · intro h
    cases hfind : find? (quotedKey key) after with
    | none =>
      -- One byte is too short for a key between quotes.
      rw [hfind] at h
      exact absurd (Prod.mk.inj h).2 (Nat.ne_of_lt (one_lt_byteLength_quotedKey key))
    | some found =>
      rw [hfind] at h
      cases h
      exact firstFrom_append_iff.mpr hfind
  · intro h
    obtain ⟨found, rfl⟩ := Nat.exists_eq_add_of_le h.1.1
    rw [firstFrom_append_iff.mp h]
    rfl

theorem standsAt_of_plainAt {before after : List Char} (h : Document.PlainAt text key before after) :
    StandsAt (quotedKey key) text (byteLength before) :=
  ⟨before, after, by simpa [quotedKey] using h.split, rfl⟩

/-- A name stands first in the search if the search begins in front of it and meets no other quoted
occurrence of the key on the way. -/
theorem firstFrom_iff_of_plainAt {before after : List Char}
    (h : Document.PlainAt text key before after) :
    FirstFrom start (quotedKey key) text (byteLength before) ↔ start ≤ byteLength before ∧
      ∀ k, start ≤ k → k < byteLength before → ¬ StandsAt (quotedKey key) text k := by
  constructor
  · intro hfirst
    obtain ⟨⟨hle, -⟩, hleast⟩ := hfirst
    refine ⟨hle, ?_⟩
    intro k hk hlt hstands
    exact Nat.not_le_of_lt hlt (hleast ⟨hk, hstands⟩)
  · intro hnone
    obtain ⟨hle, hnone⟩ := hnone
    refine ⟨⟨hle, standsAt_of_plainAt h⟩, ?_⟩
    intro k hk
    obtain ⟨hk, hstands⟩ := hk
    by_contra hlt
    exact hnone k hk (Nat.lt_of_not_le hlt) hstands

/-- Where an object writes `phrases` without escapes, keys are searched for from in front of every name
in that member. -/
theorem le_of_plainPhrases (h : Document.PlainPhrases text) (hstart : KeysFrom text start)
    {before name after : List Char} (hname : Document.NamedAt text key before name after) :
    start ≤ byteLength before := by
  obtain ⟨rest, ⟨front, hfront⟩, ⟨middle, hmiddle⟩⟩ := h.exists_of_mem hname.isName
  have hstands : StandsAt "\"phrases\"".toList text (byteLength front) :=
    ⟨front, rest, hfront.symm, rfl⟩
  have hsplit : front ++ "\"phrases\"".toList ++ middle = before := by
    refine List.append_cancel_right (?_ : _ ++ '"' :: name = before ++ '"' :: name)
    rw [← hname.split, List.append_assoc, List.append_assoc, hmiddle]
    exact hfront
  have hle : byteLength front ≤ byteLength before := by
    rw [← hsplit, byteLength_append, byteLength_append]
    omega
  obtain hleast | ⟨hnone, -⟩ := hstart
  · exact (hleast.2 hstands).trans hle
  · exact absurd hstands (hnone _)

/-- The one label of a bad template lies where the key is found. -/
theorem covers_iff {path text key locale : String} {fault : Template.Fault} {label : Label}
    (h : (ofFault path text (.template key locale fault)).labels = [label])
    {before run : List Char} :
    label.Covers before run ↔ keySpan text.toList key = (byteLength before, byteLength run) := by
  obtain rfl := (List.cons.inj h).1
  rw [Prod.ext_iff]
  rfl

theorem load_of_fault {text : String} {fault : LoadFault} (h : Catalog.ofText text = .error fault)
    (path : String) : load path (.ok text) = .error (ofFault path text fault) := by
  rw [load, h]
  rfl

/-- A bad template is marked at the key of its phrase, which the `phrases` object always names. If a
name of the key is written without escapes, the label covers it exactly if keys are searched for
from in front of it and no other quoted occurrence of the key comes first. They are searched for
from in front of it if the document is an object that writes `phrases` without escapes. -/
theorem label_covers_name_iff {path text key locale : String} {fault : Template.Fault}
    (h : Catalog.ofText text = .error (.template key locale fault)) :
    ∃ report label, load path (.ok text) = .error report ∧ report.labels = [label] ∧
      (∃ before name after, Document.NamedAt text.toList key before name after) ∧
      ∀ before after, Document.PlainAt text.toList key before after →
        ∃ start, KeysFrom text.toList start ∧
          (label.Covers before (quotedKey key) ↔ start ≤ byteLength before ∧
            ∀ k, start ≤ k → k < byteLength before → ¬ StandsAt (quotedKey key) text.toList k) ∧
          (Document.PlainPhrases text.toList → start ≤ byteLength before) := by
  refine ⟨_, _, load_of_fault h path, rfl, Document.exists_namedAt h, ?_⟩
  intro before after hplain
  have hstart := keysFrom_iff.mpr (Eq.refl ((find? "\"phrases\"".toList text.toList).getD 0))
  refine ⟨_, hstart, ?_, fun hphrases => le_of_plainPhrases hphrases hstart hplain⟩
  rw [@covers_iff path text key locale fault _ rfl, keySpan_eq_iff hstart]
  exact firstFrom_iff_of_plainAt hplain

/-- The front of a document in which a key is also the type of a node of an earlier phrase. -/
def typedFront : String :=
  "\x7b\"locales\":[\x7b\"localeCode\":\"EN\",\"name\":\"\",\"isGlobalDefault\":true\x7d],"
    ++ "\"phrases\":\x7b\"a\":\x7b\"EN\":[\x7b\"type\":\"text\"\x7d]\x7d,"

def typedBack : String :=
  ":\x7b\"EN\":[\x7b\"type\":\"text\",\"content\":\"\x7b\"\x7d]\x7d\x7d\x7d"

def typedText : String := typedFront ++ "\"text\"" ++ typedBack

theorem ofText_typedText :
    Catalog.ofText typedText = .error (.template "text" "EN" ⟨⟨1, 1⟩, '\x7b'⟩) :=
  fault?_eq_some_iff.mp (by decide +kernel)

theorem plainAt_typedText :
    Document.PlainAt typedText.toList "text" typedFront.toList typedBack.toList where
  split := by simp [typedText]
  isName := by decide +kernel
  reads := toOption_eq_some_iff.mp (by decide +kernel)

theorem plainPhrases_typedText : Document.PlainPhrases typedText.toList where
  isObject := ⟨typedText.toList.tail, by decide +kernel⟩
  plain := by
    have hplain : ∀ name ∈ names typedText.toList, ((string name).toOption.all fun p =>
        p.1 != "phrases" || name == "phrases".toList ++ '"' :: p.2) = true := by decide +kernel
    intro name hname rest hstring
    have hcheck := hplain name hname
    rw [toOption_eq_some_iff.mpr hstring] at hcheck
    simpa using hcheck

theorem label_covers_name_iff_typed :
    Catalog.ofText typedText = .error (.template "text" "EN" ⟨⟨1, 1⟩, '\x7b'⟩) ∧
    Document.PlainAt typedText.toList "text" typedFront.toList typedBack.toList ∧
    ∃ report label, load "a.json" (.ok typedText) = .error report ∧ report.labels = [label] ∧
      ∃ start, KeysFrom typedText.toList start ∧
        (label.Covers typedFront.toList (quotedKey "text") ↔
          start ≤ byteLength typedFront.toList ∧
            ∀ k, start ≤ k → k < byteLength typedFront.toList →
              ¬ StandsAt (quotedKey "text") typedText.toList k) ∧
        start ≤ byteLength typedFront.toList := by
  obtain ⟨report, label, hload, hlabels, -, hnames⟩ :=
    @label_covers_name_iff "a.json" _ _ _ _ ofText_typedText
  obtain ⟨start, hstart, hcovers, hle⟩ := hnames _ _ plainAt_typedText
  exact ⟨ofText_typedText, plainAt_typedText, report, label, hload, hlabels, start, hstart,
    hcovers, hle plainPhrases_typedText⟩

/-- The label covers the type of a node, not the name of the phrase. -/
theorem not_label_covers_name : ¬ ∀ (path text key locale : String) (fault : Template.Fault),
    Catalog.ofText text = .error (.template key locale fault) →
    (∃ before after, Document.PlainAt text.toList key before after) →
    ∃ report label before after, load path (.ok text) = .error report ∧
      report.labels = [label] ∧ Document.PlainAt text.toList key before after ∧
      label.Covers before (quotedKey key) := by
  intro h
  obtain ⟨report, label, before, after, hload, hlabels, hplain, hcovers⟩ :=
    h "a.json" typedText "text" "EN" _ ofText_typedText ⟨_, _, plainAt_typedText⟩
  rw [load_of_fault ofText_typedText] at hload
  cases hload
  have hoffset := congrArg Prod.fst ((covers_iff hlabels).mp hcovers)
  have hlength : byteLength typedText.toList = byteLength before +
      (1 + byteLength ("text".toList ++ '"' :: after)) := by
    rw [hplain.split, byteLength_append, byteLength_cons]
    rfl
  have helsewhere : ∀ name ∈ Document.phraseNames typedText.toList,
      byteLength typedText.toList ≠
        (keySpan typedText.toList "text").1 + (1 + byteLength name) := by
    decide +kernel
  apply helsewhere _ hplain.isName
  rw [hlength, hoffset]

end Diagnostic

end Phrasebook
