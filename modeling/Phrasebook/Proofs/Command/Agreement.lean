import Phrasebook.Proofs.Catalog.Walk
import Phrasebook.Proofs.Command.Printed
import Phrasebook.Proofs.Document.Decoding

namespace Phrasebook

open Json

/-- A catalog that is loaded has entries for declared locales only. -/
theorem Catalog.declares_of_find? {text : String} {c : Catalog} {warnings : List Warning}
    (h : ofText text = .ok (c, warnings)) {key locale : String} {entry : Entry}
    (hfind : c.find? key locale = some entry) : c.roster.declares locale = true := by
  obtain ⟨d, -, hd⟩ := ofText_eq_ok_iff.mp h
  obtain ⟨r, -, -, rfl, -⟩ := Document.toCatalog_eq_ok_iff.mp hd
  rw [Document.find?_built] at hfind
  obtain ⟨nodes, -, hentry⟩ := Option.bind_eq_some_iff.mp hfind
  rw [Document.roster_built]
  cases hdeclares : r.declares locale with
  | true => rfl
  | false =>
    rw [Document.Placed.entry?, hdeclares] at hentry
    cases hentry

namespace Catalog

theorem mem_unresolved_iff {c : Catalog} {code key : String} (b : Bindings) :
    key ∈ (c.coverage code).unresolved ↔ key ∈ c.keys ∧ c.Misses code key b := by
  obtain ⟨hcounts, hlocale⟩ := c.counts_coverage code
  rw [hcounts.unresolved, hlocale, List.mem_filter, Option.isNone_iff_eq_none,
    source?_eq_none_iff, exists_lookup_error_iff, misses_iff]

/-- What the global default lacks and one of its fallbacks has. -/
def Borrows (c : Catalog) (key : String) : Prop :=
  c.find? key c.roster.home.code = none ∧
    ∃ code ∈ c.roster.chain c.roster.home.code, (c.find? key code).isSome = true

/-- A locale misses a phrase if the one selected in its place does, or if it is not declared and the
global default borrows the phrase. -/
theorem misses_iff_selection {c : Catalog} {code key : String} {b : Bindings} (b' : Bindings)
    (h : ∀ entry, c.find? key code = some entry → c.roster.declares code = true) :
    (c.Misses code key b ↔
      c.Misses (Store.selection c code) key b' ∨ c.roster.declares code = false ∧ c.Borrows key) ∧
    ¬ (c.Misses (Store.selection c code) key b' ∧
      c.roster.declares code = false ∧ c.Borrows key) := by
  cases hdeclares : c.roster.declares code with
  -- A declared code is selected itself, so both sides walk the same chain.
  | true => simp [Store.selection, hdeclares, misses_iff]
  | false =>
    have hnone : c.find? key code = none := by
      rw [Option.eq_none_iff_forall_ne_some]
      intro entry hentry
      rw [h entry hentry] at hdeclares
      cases hdeclares
    have hselection : Store.selection c code = c.roster.home.code := by
      simp [Store.selection, hdeclares]
    -- The report ends at the global default, the rendering begins there.
    have hmisses : c.Misses code key b ↔ c.find? key c.roster.home.code = none := by
      rw [misses_iff, Roster.chain_of_undeclared hdeclares]
      simp [hnone]
    have hborrows : c.Borrows key ↔
        c.find? key c.roster.home.code = none ∧ ¬ c.Misses c.roster.home.code key b' := by
      rw [Borrows, misses_iff]
      simp [Option.isSome_iff_ne_none]
    have hhome : c.Misses c.roster.home.code key b' → c.find? key c.roster.home.code = none := by
      intro hmisses
      exact misses_iff.mp hmisses _ (c.roster.home_mem_chain _)
    rw [hselection, hmisses, hborrows]
    by_cases hresolved : c.Misses c.roster.home.code key b'
    · simp [hresolved, hhome hresolved]
    · simp [hresolved]

end Catalog

theorem Invocation.splitLocales_of_notMem {value : String} (h : ',' ∉ value.toList) :
    splitLocales value = [value] := by
  rw [splitLocales, List.splitOn_eq_singleton h, List.map_singleton, String.ofList_toList]

/-- A catalog whose global default borrows has a chain that goes on behind the global default. -/
theorem Catalog.Borrows.getLast?_ne {c : Catalog} {key : String} (h : c.Borrows key) :
    (c.roster.chain c.roster.home.code).getLast? ≠ some c.roster.home.code := by
  obtain ⟨hnone, code, hcode, hsome⟩ := h
  obtain ⟨rest, hchain, -⟩ := c.roster.chain_eq_cons c.roster.home.code
  have hnodup := c.roster.nodup_chain c.roster.home.code
  rw [hchain] at hcode hnodup ⊢
  cases rest with
  | nil =>
    rw [List.mem_singleton.mp hcode, hnone] at hsome
    cases hsome
  | cons next rest =>
    intro hlast
    rw [List.getLast?_cons_cons] at hlast
    exact (List.nodup_cons.mp hnodup).1 (List.mem_of_getLast? hlast)

variable {files : String → Except FileFault String} {args args' : List String}
  {env env' : String → Option String}

/-- The arguments ask for a coverage report in a locale. -/
structure CoverageReport.Asked (args : List String) (env : String → Option String)
    (options : CoverageOptions) (document locale : String) : Prop where
  parse : ∃ verbose, Invocation.parse args env = .ok ⟨verbose, .coverage options⟩
  document : options.document = document
  locales : options.locales = Invocation.splitLocales locale

/-- The arguments ask for a phrase in a locale. -/
structure Phrase.Asked (args : List String) (env : String → Option String)
    (options : RenderOptions) (verbose : Bool) (document key locale : String) : Prop where
  parse : Invocation.parse args env = .ok ⟨verbose, .render options⟩
  document : options.document = document
  key : options.key = key
  locale : options.locale = some locale

section

variable {text document locale key : String} {c : Catalog} {warnings : List Warning}

theorem CoverageReport.lists_iff {options : CoverageOptions} (htext : files document = .ok text)
    (hload : Catalog.ofText text = .ok (c, warnings)) (hlocale : ',' ∉ locale.toList)
    (hasked : Asked args env options document locale) :
    Lists c options.json (Program.run files args env).out locale key ↔
      key ∈ (c.coverage locale).unresolved := by
  obtain ⟨⟨verbose, hparse⟩, hdocument, hlocales⟩ := hasked
  rw [Invocation.splitLocales_of_notMem hlocale] at hlocales
  subst hdocument
  have hloaded : Diagnostic.load options.document (files options.document) = .ok (c, warnings) :=
    Diagnostic.load_eq_ok_iff.mpr ⟨text, htext, hload⟩
  have hcodes : codes c options = [locale] := by
    rw [codes, hlocales]
    rfl
  rw [Program.run_coverage hparse rfl]
  exact lists_iff_unresolved hloaded hcodes

theorem Phrase.fails_iff {options : RenderOptions} {verbose : Bool}
    (htext : files document = .ok text) (hload : Catalog.ofText text = .ok (c, warnings))
    (hasked : Asked args env options verbose document key locale) :
    Fails (told c warnings options verbose).err options.json (Program.run files args env) key ↔
      c.Misses (Store.selection c locale) key (bindings options.params) := by
  obtain ⟨hparse, hdocument, hkey, hlocale⟩ := hasked
  subst hdocument hkey
  have hloaded : Diagnostic.load options.document (files options.document) = .ok (c, warnings) :=
    Diagnostic.load_eq_ok_iff.mpr ⟨text, htext, hload⟩
  have hresolution : resolution c options =
      c.resolution (Store.selection c locale) options.key (bindings options.params) := by
    simp [resolution, store, Store.ofCatalog, hlocale, Store.resolve, Store.resolveIn]
  rw [Program.run_render hparse rfl, fails_iff_missing hloaded, hresolution]
  rfl

/-- A coverage report tells a key as unresolved in a locale exactly if rendering the phrase there
fails since it is missing, unless the locale is not declared and the global default borrows the
phrase from one of its fallbacks: then the report tells it and rendering does not fail. No global
default borrows whose chain ends at it. -/
theorem listed_iff_fails_iff {options : CoverageOptions} {options' : RenderOptions} {verbose : Bool}
    (htext : files document = .ok text) (hload : Catalog.ofText text = .ok (c, warnings))
    (hkey : key ∈ c.keys) (hlocale : ',' ∉ locale.toList)
    (hreport : CoverageReport.Asked args env options document locale)
    (hrender : Phrase.Asked args' env' options' verbose document key locale) :
    let lists := CoverageReport.Lists c options.json (Program.run files args env).out locale key
    let fails := Phrase.Fails (Phrase.told c warnings options' verbose).err options'.json
      (Program.run files args' env') key
    ((lists ↔ fails) ↔ ¬ (c.roster.declares locale = false ∧ c.Borrows key)) ∧
    (lists ↔ fails ∨ c.roster.declares locale = false ∧ c.Borrows key) ∧
    ¬ (fails ∧ c.roster.declares locale = false ∧ c.Borrows key) ∧
    (c.Borrows key →
      (c.roster.chain c.roster.home.code).getLast? ≠ some c.roster.home.code) := by
  intro lists fails
  have hlists : lists ↔ key ∈ c.keys ∧ c.Misses locale key .empty :=
    (CoverageReport.lists_iff htext hload hlocale hreport).trans
      (Catalog.mem_unresolved_iff .empty)
  have hfails : fails ↔ c.Misses (Store.selection c locale) key (Phrase.bindings options'.params) :=
    Phrase.fails_iff htext hload hrender
  have hdeclared : ∀ entry, c.find? key locale = some entry → c.roster.declares locale = true := by
    intro entry hentry
    exact Catalog.declares_of_find? hload hentry
  obtain ⟨hmisses, hnot⟩ :=
    Catalog.misses_iff_selection (b := .empty) (Phrase.bindings options'.params) hdeclared
  rw [← hfails] at hmisses hnot
  have heither : lists ↔ fails ∨ c.roster.declares locale = false ∧ c.Borrows key := by
    rw [hlists, hmisses]
    exact and_iff_right hkey
  refine ⟨?_, heither, hnot, Catalog.Borrows.getLast?_ne⟩
  rw [heither]
  constructor
  · intro hagree hborrows
    exact hnot ⟨hagree.mp (.inr hborrows), hborrows⟩
  · intro hnone
    exact or_iff_left hnone

end

/-- A document whose global default borrows a phrase. -/
def borrowingValue : Content :=
  .map [("locales", .seq [
      .map [("localeCode", .string "EN"), ("name", .string "English"),
        ("isGlobalDefault", .bool true), ("defaultFallbackCode", .string "FR")],
      .map [("localeCode", .string "FR"), ("name", .string "French")]]),
    ("phrases", .map [("k", .map [("FR", .seq [.map [("type", .string "text"),
      ("content", .string "Salut")]])])]),
    ("debugInfo", .map [("k", .map [("groupName", .string "g"), ("phraseKey", .string "k")])])]

def borrowingText : String := borrowingValue.compact

theorem ofText_borrowingText :
    ∃ c warnings, Catalog.ofText borrowingText = .ok (c, warnings) ∧ "k" ∈ c.keys ∧
      c.roster.declares "ZZ" = false ∧ c.Borrows "k" := by
  have hvalues : (Document.catalog? borrowingValue).map (fun c =>
      (c.keys, c.roster.declares "ZZ", (c.find? "k" c.roster.home.code).isSome,
        (c.roster.chain c.roster.home.code).any fun code => (c.find? "k" code).isSome)) =
      some (["k"], false, false, true) := by decide +kernel
  have hplain : borrowingValue.Numberless := by
    simp [borrowingValue, Content.Numberless, Content.NumberlessAll, Content.NumberlessPairs]
  obtain ⟨c, warnings, hc, hvalues⟩ := Document.ofText_compact hplain (by decide) hvalues
  simp only [Prod.mk.injEq] at hvalues
  obtain ⟨hkeys, hdeclares, hhome, hchain⟩ := hvalues
  refine ⟨c, warnings, hc, ?_, hdeclares, ?_, List.any_eq_true.mp hchain⟩
  · simp [hkeys]
  · simpa using hhome

theorem asked_report : CoverageReport.Asked ["coverage", "a.json", "--locale", "ZZ", "--json"]
    (fun _ => none) ⟨"a.json", ["ZZ"], true, false⟩ "a.json" "ZZ" :=
  ⟨⟨false, rfl⟩, rfl, by decide +kernel⟩

theorem asked_rendering :
    Phrase.Asked ["render", "a.json", "--key", "k", "--locale", "ZZ", "--plain"] (fun _ => none)
      ⟨"a.json", "k", some "ZZ", [], true, false, false⟩ false "a.json" "k" "ZZ" :=
  ⟨rfl, rfl, rfl, rfl⟩

theorem listed_iff_fails_iff_borrowed :
    ∃ c warnings options options', Catalog.ofText borrowingText = .ok (c, warnings) ∧
      "k" ∈ c.keys ∧ ',' ∉ "ZZ".toList ∧
      CoverageReport.Asked ["coverage", "a.json", "--locale", "ZZ", "--json"] (fun _ => none) options
        "a.json" "ZZ" ∧
      Phrase.Asked ["render", "a.json", "--key", "k", "--locale", "ZZ", "--plain"] (fun _ => none)
        options' false "a.json" "k" "ZZ" ∧
      c.roster.declares "ZZ" = false ∧ c.Borrows "k" ∧
      CoverageReport.Lists c options.json (Program.run (fun _ => .ok borrowingText)
        ["coverage", "a.json", "--locale", "ZZ", "--json"] fun _ => none).out "ZZ" "k" ∧
      ¬ Phrase.Fails (Phrase.told c warnings options' false).err options'.json
        (Program.run (fun _ => .ok borrowingText)
          ["render", "a.json", "--key", "k", "--locale", "ZZ", "--plain"] fun _ => none) "k" := by
  obtain ⟨c, warnings, hc, hkey, hdeclares, hborrows⟩ := ofText_borrowingText
  have hcomma : ',' ∉ "ZZ".toList := by decide
  let files : String → Except FileFault String := fun _ => .ok borrowingText
  have htext : files "a.json" = .ok borrowingText := rfl
  obtain ⟨-, hlisted, hnot, -⟩ :=
    listed_iff_fails_iff htext hc hkey hcomma asked_report asked_rendering
  refine ⟨c, warnings, _, _, hc, hkey, hcomma, asked_report, asked_rendering, hdeclares, hborrows,
    ?_, ?_⟩
  · exact hlisted.mpr (.inr ⟨hdeclares, hborrows⟩)
  · intro hfails
    exact hnot ⟨hfails, hdeclares, hborrows⟩

/-- A rendering in the place of a code that is not declared follows the fallbacks of the global
default, which a report of that code does not. -/
theorem not_listed_iff_fails :
    ¬ ∀ files document text c warnings key locale args env options args' env' options' verbose,
      files document = .ok text → Catalog.ofText text = .ok (c, warnings) → key ∈ c.keys →
      locale ≠ "" → ',' ∉ locale.toList →
      CoverageReport.Asked args env options document locale →
      Phrase.Asked args' env' options' verbose document key locale →
      (CoverageReport.Lists c options.json (Program.run files args env).out locale key ↔
        Phrase.Fails (Phrase.told c warnings options' verbose).err options'.json
          (Program.run files args' env') key) := by
  intro h
  obtain ⟨c, warnings, hc, hkey, hdeclares, hborrows⟩ := ofText_borrowingText
  have hcomma : ',' ∉ "ZZ".toList := by decide
  let files : String → Except FileFault String := fun _ => .ok borrowingText
  have htext : files "a.json" = .ok borrowingText := rfl
  have hdeclared : ∀ entry, c.find? "k" "ZZ" = some entry → c.roster.declares "ZZ" = true := by
    intro entry hentry
    exact Catalog.declares_of_find? hc hentry
  obtain ⟨hmisses, hnot⟩ :=
    Catalog.misses_iff_selection (b := .empty) (Phrase.bindings []) hdeclared
  have hlisted := (CoverageReport.lists_iff htext hc hcomma asked_report).mpr
    ((Catalog.mem_unresolved_iff .empty).mpr ⟨hkey, hmisses.mpr (.inr ⟨hdeclares, hborrows⟩)⟩)
  have hfails := (h files _ _ _ _ _ _ _ _ _ _ _ _ _ htext hc hkey (by decide) hcomma asked_report
    asked_rendering).mp hlisted
  exact hnot ⟨(Phrase.fails_iff htext hc asked_rendering).mp hfails, hdeclares, hborrows⟩

end Phrasebook
