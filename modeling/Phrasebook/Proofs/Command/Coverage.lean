import Phrasebook.Proofs.Catalog.Coverage
import Phrasebook.Proofs.Command.Run
import Phrasebook.Proofs.Document.Decoding

namespace Phrasebook

open Json

theorem Catalog.unresolved_eq_nil_iff {c : Catalog} {code : String} :
    (c.coverage code).unresolved = [] ↔
      ¬ ∃ key ∈ c.keys, ∃ fault, c.lookup code key = .error fault := by
  obtain ⟨hcounts, hlocale⟩ := c.counts_coverage code
  rw [hcounts.unresolved, hlocale, List.filter_eq_nil_iff]
  simp [← source?_eq_none_iff]

namespace CoverageReport

variable {files : String → Except FileFault String} {options : CoverageOptions}

theorem any_unresolved_iff {c : Catalog} {codes : List String} :
    ((codes.map c.coverage).any fun cov => !cov.unresolved.isEmpty) = true ↔
      ∃ code ∈ codes, ∃ key ∈ c.keys, ∃ fault, c.lookup code key = .error fault := by
  have hcode : ∀ code, (!(c.coverage code).unresolved.isEmpty) = true ↔
      ∃ key ∈ c.keys, ∃ fault, c.lookup code key = .error fault := by
    intro code
    rw [Bool.not_eq_true', ← Bool.not_eq_true, List.isEmpty_iff, Catalog.unresolved_eq_nil_iff,
      Classical.not_not]
  simp [hcode]

/-- A strict report of a document that is loaded. -/
theorem code_of_load {c : Catalog} {warnings : List Warning} (hstrict : options.strict = true)
    (h : Diagnostic.load options.document (files options.document) = .ok (c, warnings)) :
    (run files options).code = Outcome.dataProblem ↔
      ∃ code ∈ codes c options, ∃ key ∈ c.keys, ∃ fault, c.lookup code key = .error fault := by
  rw [← any_unresolved_iff, run, h]
  simp only [hstrict, Bool.true_and]
  split
  · next hlacking => simp [hlacking]
  · next hlacking => simp [hlacking, Outcome.dataProblem]

theorem code_of_fault {d : Diagnostic}
    (h : Diagnostic.load options.document (files options.document) = .error d) :
    (run files options).code = Outcome.noCatalog := by
  rw [run, h]
  rfl

theorem code_eq_dataProblem_iff (hstrict : options.strict = true) :
    (run files options).code = Outcome.dataProblem ↔
      ∃ text c warnings, files options.document = .ok text ∧
        Catalog.ofText text = .ok (c, warnings) ∧
        ∃ code ∈ codes c options, ∃ key ∈ c.keys, ∃ fault, c.lookup code key = .error fault := by
  constructor
  · intro hcode
    cases hload : Diagnostic.load options.document (files options.document) with
    | error d =>
      rw [code_of_fault hload] at hcode
      cases hcode
    | ok result =>
      obtain ⟨c, warnings⟩ := result
      obtain ⟨text, htext, hc⟩ := Diagnostic.load_eq_ok_iff.mp hload
      exact ⟨text, c, warnings, htext, hc, (code_of_load hstrict hload).mp hcode⟩
  · intro h
    obtain ⟨text, c, warnings, htext, hc, h⟩ := h
    exact (code_of_load hstrict (Diagnostic.load_eq_ok_iff.mpr ⟨text, htext, hc⟩)).mpr h

end CoverageReport

/-- Coverage agrees with look-ups. A key is counted as translated if a look-up in the reported
locale, declared or not, gives an entry of its own, as translated by a fallback if it gives an entry
of another locale, and as unresolved if it fails; these are all the keys. The missing keys are those
without an entry of their own, in order, the unresolved ones among them. A strict report ends with
the code for problems in the data exactly if it is about a document that is loaded and some look-up
of its keys in the reported locales fails. -/
theorem coverage_agrees_with_lookup :
    (∀ (c : Catalog) (cov : Coverage) (key : String),
      let counted := c.count (c.roster.chain cov.locale) cov key
      (counted.translated = cov.translated + 1 ↔
        ∃ entry, c.lookup cov.locale key = .ok (entry, cov.locale)) ∧
      (counted.viaFallback = cov.viaFallback + 1 ↔
        ∃ entry code, code ≠ cov.locale ∧ c.lookup cov.locale key = .ok (entry, code)) ∧
      (counted.unresolved = cov.unresolved ++ [key] ↔
        ∃ fault, c.lookup cov.locale key = .error fault)) ∧
    (∀ (c : Catalog) (code : String),
      (c.coverage code).locale = code ∧ (c.coverage code).Counts c c.keys ∧
      (c.coverage code).translated + (c.coverage code).viaFallback +
        (c.coverage code).unresolved.length = c.keys.length ∧
      (c.coverage code).missing.Pairwise (· < ·) ∧
      (c.coverage code).unresolved ⊆ (c.coverage code).missing) ∧
    ∀ files args env i options, Invocation.parse args env = .ok i →
      i.command = .coverage options → options.strict = true →
      ((Program.run files args env).code = 65 ↔
        ∃ text c warnings, files options.document = .ok text ∧
          Catalog.ofText text = .ok (c, warnings) ∧
          ∃ code ∈ CoverageReport.codes c options, ∃ key ∈ c.keys, ∃ fault,
            c.lookup code key = .error fault) := by
  refine ⟨Catalog.counted_iff_lookup, ?_, ?_⟩
  · intro c code
    obtain ⟨hcounts, hlocale⟩ := c.counts_coverage code
    have hsorted : (c.coverage code).missing.Pairwise (· < ·) := by
      rw [hcounts.missing]
      exact c.phrases.pairwise_keys.filter _
    exact ⟨hlocale, hcounts, hcounts.total, hsorted, hcounts.unresolved_subset⟩
  · intro files args env i options hparse hcommand hstrict
    rw [Program.run_coverage hparse hcommand]
    exact CoverageReport.code_eq_dataProblem_iff hstrict

/-- A document with a phrase that the global default lacks. -/
def untranslatedValue : Content :=
  .map [("locales", .seq [
      .map [("localeCode", .string "EN"), ("name", .string ""), ("isGlobalDefault", .bool true)],
      .map [("localeCode", .string "FR"), ("name", .string "")]]),
    ("phrases", .map [("k", .map [("FR", .seq [])])])]

def untranslatedText : String := untranslatedValue.compact

theorem ofText_untranslatedText :
    ∃ c warnings, Catalog.ofText untranslatedText = .ok (c, warnings) ∧ "EN" ∈ c.roster.codes ∧
      "k" ∈ c.keys ∧ ∃ fault, c.lookup "EN" "k" = .error fault := by
  have hvalues : (Document.catalog? untranslatedValue).map (fun c =>
      (c.roster.codes, c.keys, c.source? "EN" "k")) = some (["EN", "FR"], ["k"], none) := by
    decide +kernel
  have hplain : untranslatedValue.Numberless := by
    simp [untranslatedValue, Content.Numberless, Content.NumberlessAll, Content.NumberlessPairs]
  obtain ⟨c, warnings, hc, hvalues⟩ := Document.ofText_compact hplain (by decide) hvalues
  simp only [Prod.mk.injEq] at hvalues
  obtain ⟨hcodes, hkeys, hsource⟩ := hvalues
  refine ⟨c, warnings, hc, ?_, ?_, Catalog.source?_eq_none_iff.mp hsource⟩
  · simp [hcodes]
  · simp [hkeys]

theorem coverage_agrees_with_lookup_untranslated :
    ∃ options, Invocation.parse ["coverage", "--strict", "a.json"] (fun _ => none) =
        .ok ⟨false, .coverage options⟩ ∧
      options.strict = true ∧
      (∃ c warnings, Catalog.ofText untranslatedText = .ok (c, warnings) ∧
        ∃ code ∈ CoverageReport.codes c options, ∃ key ∈ c.keys, ∃ fault,
          c.lookup code key = .error fault) ∧
      (Program.run (fun _ => .ok untranslatedText) ["coverage", "--strict", "a.json"]
        fun _ => none).code = 65 := by
  obtain ⟨-, -, hrun⟩ := coverage_agrees_with_lookup
  have hparse : Invocation.parse ["coverage", "--strict", "a.json"] (fun _ => none) =
      .ok ⟨false, .coverage ⟨"a.json", [], false, true⟩⟩ := rfl
  obtain ⟨c, warnings, hc, hcode, hkey, hfails⟩ := ofText_untranslatedText
  refine ⟨_, hparse, rfl, ⟨c, warnings, hc, "EN", hcode, "k", hkey, hfails⟩, ?_⟩
  exact (hrun (fun _ => .ok untranslatedText) _ _ _ _ hparse rfl rfl).mpr
    ⟨_, c, warnings, rfl, hc, "EN", hcode, "k", hkey, hfails⟩

end Phrasebook
