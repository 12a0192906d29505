import Phrasebook.Proofs.Command.Run
import Phrasebook.Proofs.Document.Kept

namespace Phrasebook

namespace Check

theorem anyWarning_add (json verbose : Bool) (path : String) (c : Catalog)
    (warnings : List Warning) (f : Findings) :
    (add json verbose path c warnings f).anyWarning = (f.anyWarning || !warnings.isEmpty) := by
  simp only [add]
  split <;> rfl

/-- If no warning is found, all documents are loaded without one. -/
theorem load_of_all {files : String → Except FileFault String} {json verbose : Bool}
    {paths : List String} {f g : Findings} (h : all files json verbose paths f = .ok g)
    (hg : g.anyWarning = false) :
    f.anyWarning = false ∧
      ∀ path ∈ paths, ∃ c, Diagnostic.load path (files path) = .ok (c, []) := by
  induction paths generalizing f with
  | nil =>
    cases h
    exact ⟨hg, fun _ hpath => nomatch hpath⟩
  | cons path paths ih =>
    rw [all] at h
    cases hload : Diagnostic.load path (files path) with
    | error d =>
      rw [hload] at h
      cases h
    | ok result =>
      obtain ⟨c, warnings⟩ := result
      rw [hload] at h
      obtain ⟨hadd, hrest⟩ := ih h
      rw [anyWarning_add, Bool.or_eq_false_iff, Bool.not_eq_false', List.isEmpty_iff] at hadd
      obtain ⟨hf, rfl⟩ := hadd
      exact ⟨hf, List.forall_mem_cons.mpr ⟨⟨c, hload⟩, hrest⟩⟩

theorem code_of_all {files : String → Except FileFault String} {json verbose : Bool}
    {paths : List String} {f : Findings} {outcome : Outcome}
    (h : all files json verbose paths f = .error outcome) : outcome.code = Outcome.noCatalog := by
  induction paths generalizing f with
  | nil => cases h
  | cons path paths ih =>
    rw [all] at h
    cases hload : Diagnostic.load path (files path) with
    | error d =>
      rw [hload] at h
      cases h
      rfl
    | ok result =>
      rw [hload] at h
      exact ih h

theorem load_of_strict {files : String → Except FileFault String} {options : CheckOptions}
    {verbose : Bool} (hstrict : options.strict = true) (h : (run files options verbose).code = 0)
    {path : String} (hpath : path ∈ options.files) :
    ∃ c, Diagnostic.load path (files path) = .ok (c, []) := by
  rw [run] at h
  cases hall : all files options.json verbose options.files {} with
  | error outcome =>
    rw [hall] at h
    rw [code_of_all hall] at h
    cases h
  | ok g =>
    rw [hall] at h
    have hg : g.anyWarning = false := by
      cases hwarning : g.anyWarning with
      | false => rfl
      | true =>
        simp only [hstrict, hwarning] at h
        cases h
    exact (load_of_all hall hg).2 path hpath

end Check

/-- A key of a document that is loaded has an entry in the global default, or a warning names it,
exactly if it has entries. Where a strict check ends with code 0, the keys that can be resolved in
every locale, as far as the bindings allow, are exactly those with entries. -/
theorem kept_iff_has_entries (text : String) :
    (∀ c warnings, Catalog.ofText text = .ok (c, warnings) →
      ∃ d, Document.read text = .ok d ∧ ∀ key entries, d.phrases.find? key = some entries →
        (((c.find? key c.roster.home.code).isSome = true ∨ ∃ w ∈ warnings, w.key? = some key) ↔
          entries.entries ≠ [])) ∧
    ∀ files args env i options path, Invocation.parse args env = .ok i →
      i.command = .check options → options.strict = true → path ∈ options.files →
      files path = .ok text → (Program.run files args env).code = 0 →
      ∃ d c, Document.read text = .ok d ∧ Catalog.ofText text = .ok (c, []) ∧
        ∀ key entries, d.phrases.find? key = some entries →
          ((∀ locale b, ¬ c.Misses locale key b) ↔ entries.entries ≠ []) := by
  constructor
  · intro c warnings h
    obtain ⟨d, hread, hd⟩ := Catalog.ofText_eq_ok_iff.mp h
    exact ⟨d, hread, fun key entries hentries => Document.kept_or_named_iff hd hentries⟩
  · intro files args env i options path hparse hcommand hstrict hpath htext hcode
    have hrun : (Check.run files options i.verbose).code = 0 := by
      rw [← Program.run_check hparse hcommand]
      exact hcode
    obtain ⟨c, hload⟩ := Check.load_of_strict hstrict hrun hpath
    obtain ⟨text', htext', hc⟩ := Diagnostic.load_eq_ok_iff.mp hload
    obtain rfl : text = text' := Except.ok.inj (htext.symm.trans htext')
    obtain ⟨d, hread, hd⟩ := Catalog.ofText_eq_ok_iff.mp hc
    refine ⟨d, c, hread, hc, ?_⟩
    intro key entries hentries
    constructor
    · intro hfound hempty
      exact hfound "" .empty (Document.misses_of_no_entries hd hentries hempty "" .empty)
    · intro hne
      rcases (Document.kept_or_named_iff hd hentries).mpr hne with hhome | ⟨w, hw, -⟩
      · exact Catalog.not_misses_of_home hhome
      · cases hw

/-- A document with a phrase that has an entry and one that has none. -/
def gapText : String :=
  "\x7b\"locales\":[\x7b\"localeCode\":\"EN\",\"name\":\"\",\"isGlobalDefault\":true\x7d],"
    ++ "\"phrases\":\x7b\"a\":\x7b\"EN\":[]\x7d,\"k\":\x7b\x7d\x7d,"
    ++ "\"debugInfo\":\x7b\"a\":\x7b\"groupName\":\"\",\"phraseKey\":\"\"\x7d\x7d\x7d"

theorem read_gapText :
    ∃ d filled empty, Document.read gapText = .ok d ∧ d.phrases.find? "a" = some filled ∧
      filled.entries ≠ [] ∧ d.phrases.find? "k" = some empty ∧ empty.entries = [] := by
  have hkeys : ((Document.read gapText).toOption.map fun d =>
      ((d.phrases.find? "a").map Dict.keys, (d.phrases.find? "k").map Dict.keys)) =
        some (some ["EN"], some []) := by decide +kernel
  obtain ⟨d, hread, hd⟩ := Option.map_eq_some_iff.mp hkeys
  obtain ⟨ha, hk⟩ := Prod.mk.inj hd
  obtain ⟨filled, hfilled, hlocales⟩ := Option.map_eq_some_iff.mp ha
  obtain ⟨empty, hempty, hnone⟩ := Option.map_eq_some_iff.mp hk
  refine ⟨d, filled, empty, toOption_eq_some_iff.mp hread, hfilled, ?_, hempty, ?_⟩
  · intro h
    rw [Dict.keys, h] at hlocales
    cases hlocales
  · exact List.map_eq_nil_iff.mp hnone

theorem check_gapText :
    (Program.run (fun _ => .ok gapText) ["check", "--strict", "a.json"] fun _ => none).code =
      0 := by
  decide +kernel

theorem ofText_gapText : ∃ c, Catalog.ofText gapText = .ok (c, []) := by
  have hrun : (Check.run (fun _ => .ok gapText) ⟨["a.json"], false, true⟩ false).code = 0 :=
    check_gapText
  obtain ⟨c, hload⟩ := Check.load_of_strict rfl hrun List.mem_cons_self
  obtain ⟨text, htext, hc⟩ := Diagnostic.load_eq_ok_iff.mp hload
  cases htext
  exact ⟨c, hc⟩

theorem kept_iff_has_entries_gap :
    ∃ options, Invocation.parse ["check", "--strict", "a.json"] (fun _ => none) =
        .ok ⟨false, .check options⟩ ∧
      options.strict = true ∧ "a.json" ∈ options.files ∧
      (Program.run (fun _ => .ok gapText) ["check", "--strict", "a.json"] fun _ => none).code = 0 ∧
      ∃ d c filled empty, Document.read gapText = .ok d ∧ Catalog.ofText gapText = .ok (c, []) ∧
        d.phrases.find? "a" = some filled ∧ d.phrases.find? "k" = some empty ∧
        ((c.find? "a" c.roster.home.code).isSome = true ∨
          ∃ w ∈ ([] : List Warning), w.key? = some "a") ∧
        (∀ locale b, ¬ c.Misses locale "a" b) ∧ ¬ ∀ locale b, ¬ c.Misses locale "k" b := by
  obtain ⟨hloaded, hchecked⟩ := kept_iff_has_entries gapText
  have hparse : Invocation.parse ["check", "--strict", "a.json"] (fun _ => none) =
      .ok ⟨false, .check ⟨["a.json"], false, true⟩⟩ := rfl
  refine ⟨⟨["a.json"], false, true⟩, hparse, rfl, List.mem_cons_self, check_gapText, ?_⟩
  obtain ⟨d, c, hread, hc, hfound⟩ := hchecked (fun _ => .ok gapText)
    ["check", "--strict", "a.json"] (fun _ => none) _ _ "a.json" hparse rfl rfl List.mem_cons_self
    rfl check_gapText
  obtain ⟨d', filled, empty, hread', hfilled, hentries, hempty, hnone⟩ := read_gapText
  obtain rfl : d = d' := Except.ok.inj (hread.symm.trans hread')
  obtain ⟨d', hread', hkept⟩ := hloaded c [] hc
  obtain rfl : d = d' := Except.ok.inj (hread.symm.trans hread')
  refine ⟨d, c, filled, empty, hread, hc, hfilled, hempty,
    (hkept "a" filled hfilled).mpr hentries, (hfound "a" filled hfilled).mpr hentries, ?_⟩
  intro h
  exact (hfound "k" empty hempty).mp h hnone

/-- The phrase without entries stands nowhere in the catalog, and there is no warning. -/
theorem not_kept_of_no_entries :
    ¬ ∀ text d c warnings, Document.read text = .ok d → d.toCatalog = .ok (c, warnings) →
      ∀ key entries, d.phrases.find? key = some entries →
        (c.find? key c.roster.home.code).isSome = true ∨ ∃ w ∈ warnings, w.key? = some key := by
  intro h
  obtain ⟨d, filled, empty, hread, -, -, hempty, hnone⟩ := read_gapText
  obtain ⟨c, hc⟩ := ofText_gapText
  obtain ⟨d', hread', hd⟩ := Catalog.ofText_eq_ok_iff.mp hc
  obtain rfl : d = d' := Except.ok.inj (hread.symm.trans hread')
  exact (Document.kept_or_named_iff hd hempty).mp (h _ _ _ _ hread hd _ _ hempty) hnone

end Phrasebook
