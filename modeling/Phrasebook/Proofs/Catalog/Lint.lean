import Phrasebook.Catalog.Lint
import Phrasebook.Proofs.Catalog.Lookup
import Phrasebook.Proofs.Dict
import Mathlib.Data.Fintype.EquivFin
import Mathlib.Data.List.Nodup

namespace Phrasebook

/-- The key that a warning is about. -/
def Warning.key? : Warning → Option String
  | .unknownKind key _ | .nonItemInList key _ | .undeclaredEntry key _ | .missingInDefault key _
  | .missingDebugInfo key => some key
  | .undeclaredFallback _ _ => none

namespace Catalog

theorem key?_of_mem_lintLocale {c : Catalog} {l : Locale} {w : Warning} (h : w ∈ c.lintLocale l) :
    w.key? = none := by
  rw [lintLocale] at h
  split at h
  · cases h
  · split at h
    · cases h
    · rw [List.mem_singleton] at h
      rw [h]
      rfl

theorem key?_of_mem_lintKey {c : Catalog} {key : String} {w : Warning} (h : w ∈ c.lintKey key) :
    w.key? = some key := by
  simp only [lintKey, List.mem_append] at h
  rcases h with h | h
  all_goals
    split at h
    · cases h
    · rw [List.mem_singleton] at h
      rw [h]
      rfl

theorem mem_keys_of_mem_lint {c : Catalog} {key : String} {w : Warning} (h : w ∈ c.lint)
    (hw : w.key? = some key) : key ∈ c.keys := by
  rw [lint] at h
  rcases List.mem_append.mp h with h | h
  · obtain ⟨l, -, h⟩ := List.mem_flatMap.mp h
    rw [key?_of_mem_lintLocale h] at hw
    cases hw
  · obtain ⟨k, hk, h⟩ := List.mem_flatMap.mp h
    rw [key?_of_mem_lintKey h] at hw
    cases hw
    exact hk

theorem missingInDefault_mem_lint {c : Catalog} {key : String} (hkey : key ∈ c.keys)
    (h : c.find? key c.roster.home.code = none) :
    .missingInDefault key c.roster.home.code ∈ c.lint := by
  have hlint : Warning.missingInDefault key c.roster.home.code ∈ c.lintKey key := by
    simp only [lintKey, h]
    exact List.mem_append_left _ List.mem_cons_self
  exact List.mem_append_right _ (List.mem_flatMap.mpr ⟨key, hkey, hlint⟩)

/-- The warnings of a locale name its code. -/
theorem disjoint_lintLocale {c : Catalog} {l l' : Locale} (h : l.code ≠ l'.code) :
    List.Disjoint (c.lintLocale l) (c.lintLocale l') := by
  have hcode : ∀ (l : Locale) w, w ∈ c.lintLocale l →
      ∃ fallback, w = .undeclaredFallback l.code fallback := by
    intro l w hw
    rw [lintLocale] at hw
    split at hw
    · cases hw
    · split at hw
      · cases hw
      · exact ⟨_, List.mem_singleton.mp hw⟩
  intro w hw hw'
  obtain ⟨_, rfl⟩ := hcode l w hw
  obtain ⟨_, heq⟩ := hcode l' _ hw'
  exact h (Warning.undeclaredFallback.inj heq).1

theorem disjoint_lintKey {c : Catalog} {key key' : String} (h : key ≠ key') :
    List.Disjoint (c.lintKey key) (c.lintKey key') := by
  intro w hw hw'
  have hkey := key?_of_mem_lintKey hw
  rw [key?_of_mem_lintKey hw'] at hkey
  exact h (Option.some.inj hkey).symm

theorem nodup_lintLocale (c : Catalog) (l : Locale) : (c.lintLocale l).Nodup := by
  rw [lintLocale]
  split
  · exact List.nodup_nil
  · split
    · exact List.nodup_nil
    · exact List.nodup_singleton _

theorem nodup_lintKey (c : Catalog) (key : String) : (c.lintKey key).Nodup := by
  simp only [lintKey]
  split <;> split <;> simp

theorem nodup_lint (c : Catalog) : c.lint.Nodup := by
  have hlocales : (c.roster.locales.flatMap c.lintLocale).Nodup := by
    apply List.nodup_flatMap.mpr
    refine ⟨fun l _ => c.nodup_lintLocale l, ?_⟩
    exact (List.pairwise_map.mp c.roster.distinct).imp disjoint_lintLocale
  have hkeys : (c.keys.flatMap c.lintKey).Nodup := by
    apply List.nodup_flatMap.mpr
    refine ⟨fun key _ => c.nodup_lintKey key, ?_⟩
    exact c.phrases.nodup_keys.imp disjoint_lintKey
  refine List.nodup_append'.mpr ⟨hlocales, hkeys, ?_⟩
  intro w hw hw'
  obtain ⟨l, -, hl⟩ := List.mem_flatMap.mp hw
  obtain ⟨key, -, hkey⟩ := List.mem_flatMap.mp hw'
  have hnone := key?_of_mem_lintLocale hl
  rw [key?_of_mem_lintKey hkey] at hnone
  cases hnone

theorem missingInDefault_mem_lint_iff {c : Catalog} {key locale : String} :
    .missingInDefault key locale ∈ c.lint ↔
      locale = c.roster.home.code ∧ key ∈ c.keys ∧ c.find? key c.roster.home.code = none := by
  constructor
  · intro h
    have hkeys := mem_keys_of_mem_lint h rfl
    rcases List.mem_append.mp h with h | h
    · obtain ⟨l, -, h⟩ := List.mem_flatMap.mp h
      cases key?_of_mem_lintLocale h
    · obtain ⟨k, -, h⟩ := List.mem_flatMap.mp h
      cases key?_of_mem_lintKey h
      cases hfind : c.find? key c.roster.home.code with
      | none => simpa [lintKey, hfind, hkeys] using h
      | some entry => simp [lintKey, hfind] at h
  · intro h
    obtain ⟨rfl, hkey, hfind⟩ := h
    exact missingInDefault_mem_lint hkey hfind

/-- Some code is neither declared nor has an entry for a key. -/
theorem exists_code_without_entry (c : Catalog) (key : String) :
    ∃ code, c.roster.declares code = false ∧ c.find? key code = none := by
  let entries := (c.phrases.find? key).getD .empty
  obtain ⟨code, hcode⟩ :=
    Infinite.exists_notMem_finset (c.roster.codes ++ entries.keys).toFinset
  rw [List.mem_toFinset, List.mem_append, not_or, Dict.mem_keys_iff] at hcode
  obtain ⟨hcodes, hentries⟩ := hcode
  refine ⟨code, ?_, ?_⟩
  · rw [← c.roster.declares_iff] at hcodes
    exact Bool.eq_false_iff.mpr hcodes
  · rw [find?]
    cases hkey : c.phrases.find? key with
    | none => rfl
    | some found => simpa [entries, hkey] using hentries

/-- A key that the global default lacks fails for some code, and only such a key does. -/
theorem exists_lookup_error_iff_home {c : Catalog} {key : String} :
    (∃ code fault, c.lookup code key = .error fault) ↔
      c.find? key c.roster.home.code = none := by
  simp only [exists_lookup_error_iff]
  constructor
  · intro h
    obtain ⟨code, h⟩ := h
    exact h _ (c.roster.home_mem_chain code)
  · intro h
    obtain ⟨code, hdeclares, hfind⟩ := c.exists_code_without_entry key
    refine ⟨code, ?_⟩
    simp [Roster.chain_of_undeclared hdeclares, hfind, h]

/-- The lint is exact. It warns that the global default lacks a key of the catalog, once, exactly if
some locale code, declared or not, cannot resolve the key. A key with an entry in the global default
is resolved from every code, whatever the fallbacks are, and no other key is. -/
theorem missing_warned_iff_unresolvable (c : Catalog) (key : String) :
    (c.lint.count (.missingInDefault key c.roster.home.code) = 1 ↔
      key ∈ c.keys ∧ ∃ code fault, c.lookup code key = .error fault) ∧
    (∀ locale, c.lint.count (.missingInDefault key locale) ≤ 1 ∧
      (.missingInDefault key locale ∈ c.lint → locale = c.roster.home.code)) ∧
    ((c.find? key c.roster.home.code).isSome = true ↔
      ∀ code, ∃ found, c.lookup code key = .ok found) := by
  have hle : ∀ locale, c.lint.count (.missingInDefault key locale) ≤ 1 := by
    intro locale
    exact List.nodup_iff_count_le_one.mp c.nodup_lint _
  refine ⟨?_, ?_, ?_⟩
  · have hmem : c.lint.count (.missingInDefault key c.roster.home.code) = 1 ↔
        .missingInDefault key c.roster.home.code ∈ c.lint := by
      have hcount := hle c.roster.home.code
      rw [← List.count_pos_iff]
      omega
    rw [hmem, missingInDefault_mem_lint_iff, exists_lookup_error_iff_home]
    simp
  · intro locale
    exact ⟨hle locale, fun h => (missingInDefault_mem_lint_iff.mp h).1⟩
  · have hresolves : (∀ code, ∃ found, c.lookup code key = .ok found) ↔
        ¬ ∃ code fault, c.lookup code key = .error fault := by
      simp only [not_exists]
      apply forall_congr'
      intro code
      cases c.lookup code key <;> simp
    rw [hresolves, exists_lookup_error_iff_home, Option.isSome_iff_ne_none]

end Catalog

end Phrasebook
