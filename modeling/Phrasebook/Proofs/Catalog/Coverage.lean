import Phrasebook.Coverage
import Phrasebook.Proofs.Catalog.Lookup
import Phrasebook.Proofs.Dict
import Phrasebook.Proofs.Except

namespace Phrasebook

namespace Catalog

/-- The code whose entry answers a look-up. -/
def source? (c : Catalog) (locale key : String) : Option String :=
  (c.lookup locale key).toOption.map (·.2)

theorem source?_eq_some_iff {c : Catalog} {locale key code : String} :
    c.source? locale key = some code ↔ ∃ entry, c.lookup locale key = .ok (entry, code) := by
  simp [source?, toOption_eq_some_iff]

theorem source?_eq_none_iff {c : Catalog} {locale key : String} :
    c.source? locale key = none ↔ ∃ fault, c.lookup locale key = .error fault := by
  rw [source?]
  cases c.lookup locale key <;> simp [Except.toOption]

theorem source?_self_iff {c : Catalog} {locale key : String} :
    c.source? locale key = some locale ↔ (c.find? key locale).isSome = true := by
  simp only [source?_eq_some_iff, lookup_eq_ok_self_iff, Option.isSome_iff_exists]

theorem reaches_iff {c : Catalog} {locale key : String} :
    c.reaches (c.roster.chain locale) key = true ↔ c.source? locale key ≠ none := by
  rw [ne_eq, source?_eq_none_iff, exists_lookup_error_iff, reaches, List.any_eq_true]
  simp [Option.isSome_iff_ne_none]

/-- What a phrase adds to the coverage of a locale: it has an entry there, or another locale answers
for it, or none does. -/
theorem count_cases (c : Catalog) (cov : Coverage) (key : String) :
    (c.source? cov.locale key = some cov.locale ∧
      c.count (c.roster.chain cov.locale) cov key =
        { cov with translated := cov.translated + 1 }) ∨
    (∃ code, code ≠ cov.locale ∧ c.source? cov.locale key = some code ∧
      c.count (c.roster.chain cov.locale) cov key =
        { cov with viaFallback := cov.viaFallback + 1, missing := cov.missing ++ [key] }) ∨
    (c.source? cov.locale key = none ∧
      c.count (c.roster.chain cov.locale) cov key =
        { cov with missing := cov.missing ++ [key], unresolved := cov.unresolved ++ [key] }) := by
  -- The loop asks first for an entry of the locale itself, and a chain begins with it.
  by_cases hown : c.source? cov.locale key = some cov.locale
  · have hfind := source?_self_iff.mp hown
    exact .inl ⟨hown, by rw [count, if_pos hfind]⟩
  · have hfind := mt source?_self_iff.mpr hown
    cases hsource : c.source? cov.locale key with
    | some code =>
      have hreaches : c.reaches (c.roster.chain cov.locale) key = true := by
        simp [reaches_iff, hsource]
      have hne : code ≠ cov.locale := by
        intro heq
        rw [hsource, heq] at hown
        exact hown rfl
      refine .inr (.inl ⟨code, hne, rfl, ?_⟩)
      simp [count, hfind, hreaches]
    | none =>
      have hreaches : ¬ c.reaches (c.roster.chain cov.locale) key = true := by
        simp [reaches_iff, hsource]
      refine .inr (.inr ⟨rfl, ?_⟩)
      simp [count, hfind, hreaches]

theorem locale_count (c : Catalog) (cov : Coverage) (key : String) :
    (c.count (c.roster.chain cov.locale) cov key).locale = cov.locale := by
  obtain ⟨-, h⟩ | ⟨_, -, -, h⟩ | ⟨-, h⟩ := c.count_cases cov key
  all_goals rw [h]

end Catalog

namespace Coverage

/-- The counts of a coverage are those of look-ups of some keys in its locale. -/
structure Counts (c : Catalog) (keys : List String) (cov : Coverage) : Prop where
  translated : cov.translated = keys.countP fun key => c.source? cov.locale key == some cov.locale
  viaFallback :
    cov.viaFallback = keys.countP fun key => (c.source? cov.locale key).any (· != cov.locale)
  missing : cov.missing = keys.filter fun key => c.source? cov.locale key != some cov.locale
  unresolved : cov.unresolved = keys.filter fun key => (c.source? cov.locale key).isNone

variable {c : Catalog} {keys : List String} {cov : Coverage}

theorem Counts.count (h : cov.Counts c keys) (key : String) :
    (c.count (c.roster.chain cov.locale) cov key).Counts c (keys ++ [key]) := by
  obtain ⟨hsource, hcount⟩ | ⟨code, hne, hsource, hcount⟩ | ⟨hsource, hcount⟩ :=
    c.count_cases cov key
  all_goals
    rw [hcount]
    constructor
  case inl.translated | inl.viaFallback | inl.missing | inl.unresolved =>
    simp [hsource, h.translated, h.viaFallback, h.missing, h.unresolved]
  case inr.inl.translated | inr.inl.viaFallback | inr.inl.missing | inr.inl.unresolved =>
    simp [hsource, hne, h.translated, h.viaFallback, h.missing, h.unresolved]
  case inr.inr.translated | inr.inr.viaFallback | inr.inr.missing | inr.inr.unresolved =>
    simp [hsource, h.translated, h.viaFallback, h.missing, h.unresolved]

theorem Counts.foldl (h : cov.Counts c keys) (more : List String) :
    (more.foldl (c.count (c.roster.chain cov.locale)) cov).Counts c (keys ++ more) ∧
      (more.foldl (c.count (c.roster.chain cov.locale)) cov).locale = cov.locale := by
  induction more generalizing keys cov with
  | nil => simpa using h
  | cons key more ih =>
    have hstep := ih (h.count key)
    rw [c.locale_count] at hstep
    simpa using hstep

/-- A key is translated, or answered by a fallback, or unresolved. -/
theorem Counts.total (h : cov.Counts c keys) :
    cov.translated + cov.viaFallback + cov.unresolved.length = keys.length := by
  rw [h.translated, h.viaFallback, h.unresolved, ← List.countP_eq_length_filter]
  clear h
  induction keys with
  | nil => rfl
  | cons key keys ih =>
    simp only [List.countP_cons, List.length_cons]
    cases hsource : c.source? cov.locale key with
    | none =>
      simp
      omega
    | some code =>
      by_cases hown : code = cov.locale
      · simp [hown]
        omega
      · simp [hown]
        omega

theorem Counts.unresolved_subset (h : cov.Counts c keys) : cov.unresolved ⊆ cov.missing := by
  intro key hkey
  rw [h.unresolved, List.mem_filter, Option.isNone_iff_eq_none] at hkey
  obtain ⟨hmem, hsource⟩ := hkey
  rw [h.missing, List.mem_filter, hsource]
  exact ⟨hmem, rfl⟩

end Coverage

/-- A key is counted as translated if a look-up gives the entry of the reported locale, as translated
by a fallback if it gives the entry of another one, and as unresolved if it fails. -/
theorem Catalog.counted_iff_lookup (c : Catalog) (cov : Coverage) (key : String) :
    let counted := c.count (c.roster.chain cov.locale) cov key
    (counted.translated = cov.translated + 1 ↔
      ∃ entry, c.lookup cov.locale key = .ok (entry, cov.locale)) ∧
    (counted.viaFallback = cov.viaFallback + 1 ↔
      ∃ entry code, code ≠ cov.locale ∧ c.lookup cov.locale key = .ok (entry, code)) ∧
    (counted.unresolved = cov.unresolved ++ [key] ↔
      ∃ fault, c.lookup cov.locale key = .error fault) := by
  have hother : (∃ entry code, code ≠ cov.locale ∧ c.lookup cov.locale key = .ok (entry, code)) ↔
      ∃ code, code ≠ cov.locale ∧ c.source? cov.locale key = some code := by
    simp only [source?_eq_some_iff]
    constructor
    · intro h
      obtain ⟨entry, code, hne, h⟩ := h
      exact ⟨code, hne, entry, h⟩
    · intro h
      obtain ⟨code, hne, entry, h⟩ := h
      exact ⟨entry, code, hne, h⟩
  rw [← source?_eq_some_iff, hother, ← source?_eq_none_iff]
  obtain ⟨hsource, hcount⟩ | ⟨code, hne, hsource, hcount⟩ | ⟨hsource, hcount⟩ :=
    c.count_cases cov key
  · simp [hsource, hcount]
  · simp [hsource, hcount, hne]
  · simp [hsource, hcount]

theorem Catalog.counts_coverage (c : Catalog) (code : String) :
    (c.coverage code).Counts c c.keys ∧ (c.coverage code).locale = code := by
  have hempty : ({ locale := code, isDefault := c.roster.home.code == code } : Coverage).Counts c
      [] := ⟨rfl, rfl, rfl, rfl⟩
  exact hempty.foldl c.keys

end Phrasebook
