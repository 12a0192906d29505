import Phrasebook.Proofs.Catalog.Lint
import Phrasebook.Proofs.Document.Entries

namespace Phrasebook

theorem Document.Placed.key?_of_mem_notes {r : Roster} {e : Placed} {w : Warning}
    (h : w ∈ e.notes r) : w.key? = some e.key := by
  rw [notes] at h
  split at h
  · split at h
    · next repairs _ =>
      obtain ⟨repair, -, rfl⟩ := List.mem_map.mp h
      cases repair <;> rfl
    · cases h
  · rw [List.mem_singleton] at h
    rw [h]
    rfl

namespace Document

theorem find?_eq_none_of_no_entries {d : Document} {key : String}
    {entries : Dict (List AuthoredNode)} (hentries : d.phrases.find? key = some entries)
    (h : entries.entries = []) (locale : String) : d.find? key locale = none := by
  rw [find?, hentries]
  change Dict.lookup locale entries.entries = none
  rw [h]
  rfl

/-- A key of a document that is loaded has an entry in the global default, or a warning names it,
exactly if it has entries at all. -/
theorem kept_or_named_iff {d : Document} {c : Catalog} {warnings : List Warning}
    (h : d.toCatalog = .ok (c, warnings)) {key : String} {entries : Dict (List AuthoredNode)}
    (hentries : d.phrases.find? key = some entries) :
    ((c.find? key c.roster.home.code).isSome = true ∨ ∃ w ∈ warnings, w.key? = some key) ↔
      entries.entries ≠ [] := by
  obtain ⟨r, -, hcompiles, rfl, rfl⟩ := toCatalog_eq_ok_iff.mp h
  rw [d.roster_built r]
  constructor
  · intro hkept hempty
    have hnone := find?_eq_none_of_no_entries hentries hempty
    rcases hkept with hfind | ⟨w, hw, hkey⟩
    · rw [find?_built, hnone] at hfind
      cases hfind
    · have hnot : ∀ e ∈ d.placed, e.key ≠ key := by
        intro e he hk
        rw [mem_placed, hk, hnone] at he
        cases he
      rcases List.mem_append.mp hw with hw | hw
      · obtain ⟨e, he, hw⟩ := List.mem_flatMap.mp hw
        rw [Placed.key?_of_mem_notes hw] at hkey
        exact hnot e he (Option.some.inj hkey)
      · obtain ⟨e, he, hk, -⟩ := mem_keys_built.mp (Catalog.mem_keys_of_mem_lint hw hkey)
        exact hnot e he hk
  · intro hne
    obtain ⟨⟨locale, nodes⟩, hmem⟩ := List.exists_mem_of_ne_nil _ hne
    have hplaced : (⟨key, locale, nodes⟩ : Placed) ∈ d.placed := by
      rw [mem_placed, find?, hentries]
      exact Dict.find?_eq_some_iff.mpr hmem
    cases hfind : (d.built r).find? key r.home.code with
    | some entry => exact .inl rfl
    | none =>
      refine .inr ?_
      by_cases hdeclared : r.declares locale = true
      · obtain ⟨compiled, hcompiled⟩ := hcompiles _ hplaced hdeclared
        have hkey : key ∈ (d.built r).keys := by
          refine mem_keys_built.mpr ⟨_, hplaced, rfl, ?_⟩
          rw [Placed.entry?, if_pos hdeclared, hcompiled]
          rfl
        have hlint := Catalog.missingInDefault_mem_lint hkey (by rw [d.roster_built r]; exact hfind)
        exact ⟨_, List.mem_append_right _ hlint, rfl⟩
      · have hnote : Warning.undeclaredEntry key locale ∈
            Placed.notes r ⟨key, locale, nodes⟩ := by
          rw [Placed.notes, if_neg hdeclared]
          exact List.mem_cons_self
        exact ⟨_, List.mem_append_left _ (List.mem_flatMap.mpr ⟨_, hplaced, hnote⟩), rfl⟩

/-- A key without entries is found in no locale. -/
theorem misses_of_no_entries {d : Document} {c : Catalog} {warnings : List Warning}
    (h : d.toCatalog = .ok (c, warnings)) {key : String} {entries : Dict (List AuthoredNode)}
    (hentries : d.phrases.find? key = some entries) (hempty : entries.entries = [])
    (locale : String) (b : Bindings) : c.Misses locale key b := by
  obtain ⟨r, -, -, rfl, -⟩ := toCatalog_eq_ok_iff.mp h
  refine Catalog.misses_iff.mpr ?_
  intro code _
  rw [find?_built, find?_eq_none_of_no_entries hentries hempty]
  rfl

end Document

end Phrasebook
