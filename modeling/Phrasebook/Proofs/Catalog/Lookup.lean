import Phrasebook.Catalog.Lookup
import Phrasebook.Proofs.Except

namespace Phrasebook

theorem Roster.home_mem_chain (r : Roster) (code : String) : r.home.code ∈ r.chain code := by
  simp only [chain]
  split
  · next h => exact h
  · exact List.mem_append_right _ List.mem_cons_self

theorem Roster.follow_prefix (r : Roster) (hops : Nat) (chain : List String)
    (current : Option Locale) : chain <+: r.follow hops chain current := by
  induction hops generalizing chain current with
  | zero => exact List.prefix_refl _
  | succ hops ih =>
    cases current with
    | none => exact List.prefix_refl _
    | some current =>
      rw [follow]
      split
      · exact List.prefix_refl _
      · split
        · exact List.prefix_refl _
        · split
          · exact List.prefix_refl _
          · exact (List.prefix_append chain _).trans (ih _ _)

theorem Roster.head?_chain (r : Roster) (code : String) : (r.chain code).head? = some code := by
  obtain ⟨rest, hrest⟩ := r.follow_prefix r.locales.length [code] (r.find? code)
  simp only [chain, ← hrest]
  split <;> rfl

/-- The chain of a code that is not declared goes to the global default at once. -/
theorem Roster.chain_of_undeclared {r : Roster} {code : String} (h : r.declares code = false) :
    r.chain code = [code, r.home.code] := by
  have hnone : r.find? code = none := by simpa [declares] using h
  have hwalk : ∀ hops, r.follow hops [code] none = [code] := by
    intro hops
    cases hops <;> rfl
  have hne : r.home.code ≠ code := by
    intro heq
    rw [← heq, r.declares_home] at h
    cases h
  simp [chain, hnone, hwalk, hne]

namespace Catalog

theorem provider?_eq_none_iff {c : Catalog} {key : String} {codes : List String} :
    c.provider? key codes = none ↔ ∀ code ∈ codes, c.find? key code = none := by
  induction codes with
  | nil => simp [provider?]
  | cons code codes ih =>
    rw [provider?]
    cases hfind : c.find? key code with
    | none => simp [ih, hfind]
    | some entry => simp [hfind]

theorem lookup_eq_ok_of_entry {c : Catalog} {locale key : String} {entry : Entry}
    (h : c.find? key locale = some entry) : c.lookup locale key = .ok (entry, locale) := by
  obtain ⟨rest, hchain⟩ := List.head?_eq_some_iff.mp (c.roster.head?_chain locale)
  rw [lookup, hchain, provider?, h]

theorem find?_of_provider? {c : Catalog} {key code : String} {codes : List String}
    {entry : Entry} (h : c.provider? key codes = some (entry, code)) :
    c.find? key code = some entry := by
  induction codes with
  | nil => cases h
  | cons first codes ih =>
    rw [provider?] at h
    cases hfind : c.find? key first with
    | none =>
      rw [hfind] at h
      exact ih h
    | some found =>
      rw [hfind] at h
      cases h
      exact hfind

/-- A look-up fails if no locale of the chain has an entry. -/
theorem exists_lookup_error_iff {c : Catalog} {locale key : String} :
    (∃ fault, c.lookup locale key = .error fault) ↔
      ∀ code ∈ c.roster.chain locale, c.find? key code = none := by
  rw [← provider?_eq_none_iff, lookup]
  cases c.provider? key (c.roster.chain locale) <;> simp

theorem find?_of_lookup {c : Catalog} {locale key code : String} {entry : Entry}
    (h : c.lookup locale key = .ok (entry, code)) : c.find? key code = some entry := by
  apply find?_of_provider?
  rw [lookup] at h
  cases hfirst : c.provider? key (c.roster.chain locale) with
  | none => simp [hfirst] at h
  | some found => simpa [hfirst] using h

/-- The requested locale comes first in its chain, so it answers if it has an entry. -/
theorem lookup_eq_ok_self_iff {c : Catalog} {locale key : String} {entry : Entry} :
    c.lookup locale key = .ok (entry, locale) ↔ c.find? key locale = some entry :=
  ⟨find?_of_lookup, lookup_eq_ok_of_entry⟩

/-- The phrase cannot be resolved because no locale of the chain has it. -/
def Misses (c : Catalog) (locale key : String) (b : Bindings) : Prop :=
  ∃ tried suggestions, c.resolution locale key b = .error (.missingKey key tried suggestions)

/-- A phrase is missing if no locale of the chain has it; otherwise it is resolved, or its bindings
do not fit. -/
theorem resolution_cases (c : Catalog) (locale key : String) (b : Bindings) :
    (∀ code ∈ c.roster.chain locale, c.find? key code = none) ∧ c.Misses locale key b ∨
      (¬ ∀ code ∈ c.roster.chain locale, c.find? key code = none) ∧
        ((∃ r, c.resolution locale key b = .ok r) ∨
          ∃ misfit, c.resolution locale key b = .error (.binding key misfit)) := by
  rw [Misses, resolution, lookup, ← provider?_eq_none_iff]
  simp only
  cases c.provider? key (c.roster.chain locale) with
  | none => exact .inl ⟨rfl, _, _, rfl⟩
  | some found =>
    obtain ⟨entry, code⟩ := found
    refine .inr ⟨Option.some_ne_none _, ?_⟩
    cases hnodes : entry.instantiate b with
    | error misfit =>
      refine .inr ⟨misfit, ?_⟩
      simp only [ok_bind, Entry.invoke, hnodes]
      rfl
    | ok nodes =>
      refine .inl ⟨⟨nodes, code, (c.debugInfo.find? key).getD ⟨"", key⟩⟩, ?_⟩
      simp only [ok_bind, Entry.invoke, hnodes]
      rfl

theorem misses_iff {c : Catalog} {locale key : String} {b : Bindings} :
    c.Misses locale key b ↔ ∀ code ∈ c.roster.chain locale, c.find? key code = none := by
  obtain ⟨hnone, hmisses⟩ | ⟨hsome, ⟨r, hr⟩ | ⟨misfit, hr⟩⟩ := c.resolution_cases locale key b
  · exact iff_of_true hmisses hnone
  · refine iff_of_false ?_ hsome
    rw [Misses, hr]
    simp
  · refine iff_of_false ?_ hsome
    rw [Misses, hr]
    simp

/-- A key with an entry in the global default is found in every locale. -/
theorem not_misses_of_home {c : Catalog} {key : String}
    (h : (c.find? key c.roster.home.code).isSome = true) (locale : String) (b : Bindings) :
    ¬ c.Misses locale key b := by
  intro hmisses
  rw [misses_iff.mp hmisses _ (c.roster.home_mem_chain locale)] at h
  cases h

end Catalog

end Phrasebook
