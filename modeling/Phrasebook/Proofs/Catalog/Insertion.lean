import Phrasebook.Proofs.Catalog.LastResort

namespace Phrasebook

/-- Two look-ups find the same entry in the same locale, or miss the same key in the same locales.
The keys that they suggest may differ. -/
inductive SameFinding :
    Except ResolveFault (Entry × String) → Except ResolveFault (Entry × String) → Prop
  | found (entry : Entry) (code : String) : SameFinding (.ok (entry, code)) (.ok (entry, code))
  | missed (key : String) (tried suggested suggested' : List String) :
    SameFinding (.error (.missingKey key tried suggested))
      (.error (.missingKey key tried suggested'))

theorem SameFinding.exists_ok {x y : Except ResolveFault (Entry × String)} (h : SameFinding x y)
    (hy : ∃ found, y = .ok found) : ∃ found, x = .ok found := by
  cases h with
  | found entry code => exact hy
  | missed key tried suggested suggested' =>
    obtain ⟨found, hy⟩ := hy
    cases hy

namespace Catalog

/-- The search for a key along a chain comes to a locale: the chain has it, and no code in front of
it has an entry. -/
def Reaches (c : Catalog) (key : String) (chain : List String) (locale : String) : Prop :=
  ∃ before after, chain = before ++ locale :: after ∧ ∀ code ∈ before, c.find? key code = none

variable {c : Catalog} {key other locale code : String} {codes : List String} {entry : Entry}

@[simp] theorem roster_insert (c : Catalog) (key locale : String) (entry : Entry) :
    (c.insert key locale entry).roster = c.roster := rfl

theorem reaches_cons_self (codes : List String) : c.Reaches key (locale :: codes) locale :=
  ⟨[], codes, rfl, fun _ h => nomatch h⟩

theorem Reaches.cons (h : c.Reaches key codes locale) (hcode : c.find? key code = none) :
    c.Reaches key (code :: codes) locale := by
  obtain ⟨before, after, rfl, hbefore⟩ := h
  exact ⟨code :: before, after, rfl, List.forall_mem_cons.mpr ⟨hcode, hbefore⟩⟩

theorem provider?_eq_of_find? {c' : Catalog}
    (h : ∀ code ∈ codes, c'.find? key code = c.find? key code) :
    provider? c' key codes = c.provider? key codes := by
  induction codes with
  | nil => rfl
  | cons code codes ih =>
    obtain ⟨hcode, hcodes⟩ := List.forall_mem_cons.mp h
    rw [provider?, provider?, hcode, ih hcodes]

theorem provider?_insert_of_ne (h : other ≠ key) :
    provider? (c.insert key locale entry) other codes = c.provider? other codes := by
  apply provider?_eq_of_find?
  intro code _
  rw [find?_insert, if_neg fun heq => h heq.1]

theorem provider?_insert_of_reaches (h : c.Reaches key codes locale) :
    provider? (c.insert key locale entry) key codes = some (entry, locale) := by
  obtain ⟨before, after, rfl, hbefore⟩ := h
  induction before with
  | nil => rw [List.nil_append, provider?, find?_insert, if_pos ⟨rfl, rfl⟩]
  | cons code before ih =>
    obtain ⟨hcode, hbefore⟩ := List.forall_mem_cons.mp hbefore
    rw [List.cons_append, provider?, find?_insert]
    by_cases hlocale : code = locale
    · rw [if_pos ⟨rfl, hlocale⟩, hlocale]
    · rw [if_neg fun heq => hlocale heq.2, hcode]
      exact ih hbefore

theorem provider?_insert_of_not_reaches (h : ¬ c.Reaches key codes locale) :
    provider? (c.insert key locale entry) key codes = c.provider? key codes := by
  induction codes with
  | nil => rfl
  | cons code codes ih =>
    have hlocale : code ≠ locale := by
      rintro rfl
      exact h (reaches_cons_self codes)
    rw [provider?, provider?, find?_insert, if_neg fun heq => hlocale heq.2]
    cases hfind : c.find? key code with
    | some found => rfl
    | none => exact ih fun hreaches => h (hreaches.cons hfind)

/-- Look-ups along the same chain agree if the same entry comes first in it. -/
theorem sameFinding_lookup {c' : Catalog} (hroster : c'.roster = c.roster)
    (h : Catalog.provider? c' key (c.roster.chain code) = c.provider? key (c.roster.chain code)) :
    SameFinding (c'.lookup code key) (c.lookup code key) := by
  simp only [lookup, hroster, h]
  cases c.provider? key (c.roster.chain code) with
  | none => exact .missed _ _ _ _
  | some found => exact .found found.1 found.2

/-- An entry put under a key and a locale redirects only what it should. Other keys are found as
before, or missed in the same locales. The key itself is found in that locale if the chain of the
requested code comes to it before any other entry, and as before if not. What was found before is
still found. -/
theorem insert_redirects (c : Catalog) (key locale : String) (entry : Entry) (code : String) :
    (∀ other, other ≠ key →
      SameFinding ((c.insert key locale entry).lookup code other) (c.lookup code other)) ∧
    (c.Reaches key (c.roster.chain code) locale →
      (c.insert key locale entry).lookup code key = .ok (entry, locale)) ∧
    (¬ c.Reaches key (c.roster.chain code) locale →
      SameFinding ((c.insert key locale entry).lookup code key) (c.lookup code key)) ∧
    ∀ other, (∃ found, c.lookup code other = .ok found) →
      ∃ found, (c.insert key locale entry).lookup code other = .ok found := by
  have hother : ∀ other, other ≠ key →
      SameFinding ((c.insert key locale entry).lookup code other) (c.lookup code other) :=
    fun other hne => sameFinding_lookup rfl (provider?_insert_of_ne hne)
  have hreached : c.Reaches key (c.roster.chain code) locale →
      (c.insert key locale entry).lookup code key = .ok (entry, locale) :=
    fun h => lookup_eq_ok_iff.mpr (provider?_insert_of_reaches h)
  have hmissed : ¬ c.Reaches key (c.roster.chain code) locale →
      SameFinding ((c.insert key locale entry).lookup code key) (c.lookup code key) :=
    fun h => sameFinding_lookup rfl (provider?_insert_of_not_reaches h)
  refine ⟨hother, hreached, hmissed, ?_⟩
  intro other hfound
  by_cases hkey : other = key
  · subst hkey
    by_cases hreaches : c.Reaches other (c.roster.chain code) locale
    · exact ⟨_, hreached hreaches⟩
    · exact (hmissed hreaches).exists_ok hfound
  · exact (hother other hkey).exists_ok hfound

end Catalog

end Phrasebook
