import Phrasebook.Proofs.Catalog.Walk

namespace Phrasebook

namespace Roster

/-- The walk from a code meets the global default and goes on to a fallback of it. -/
def Passes (r : Roster) (start : String) : Prop :=
  ∃ met next, r.Walk start met r.home.code ∧ r.Hop met r.home.code next

variable {r : Roster} {start code next : String} {met : List String}

/-- A walk is the beginning of the whole walk. -/
theorem Walk.prefix_whole {met' : List String} {code' : String} (h : r.Walk start met code)
    (hwhole : r.WholeWalk start met' code') : met <+: met' := by
  rw [← hwhole.follow_eq (Nat.le_add_right _ met.length), h.follow_eq]
  exact r.follow_prefix _ _ _

/-- The walk stood at each code that it met. -/
theorem Walk.exists_at {other : String} (h : r.Walk start met code) (hother : other ∈ met) :
    ∃ before, r.Walk start before other := by
  induction h with
  | start =>
    obtain rfl := List.mem_singleton.mp hother
    exact ⟨[other], .start⟩
  | hop walk hop ih =>
    rcases List.mem_append.mp hother with hother | hother
    · exact ih hother
    · obtain rfl := List.mem_singleton.mp hother
      exact ⟨_, walk.hop hop⟩

/-- What a walk goes on to from the global default stands behind it in the chain. -/
theorem exists_chain_of_passes (h : r.Passes start) :
    ∃ before next rest, r.chain start = before ++ r.home.code :: next :: rest := by
  obtain ⟨met, next, walk, hop⟩ := h
  obtain ⟨whole, code, hwhole⟩ := r.exists_wholeWalk start
  obtain ⟨rest, rfl⟩ := (walk.hop hop).prefix_whole hwhole
  obtain ⟨before, rfl⟩ := List.getLast?_eq_some_iff.mp walk.getLast?_eq
  refine ⟨before, next, rest, ?_⟩
  rw [hwhole.chain_eq, if_pos (by simp)]
  simp

theorem getLast?_chain_of_not_passes (h : ¬ r.Passes start) :
    (r.chain start).getLast? = some r.home.code := by
  obtain ⟨met, code, hwhole⟩ := r.exists_wholeWalk start
  rw [hwhole.chain_eq]
  split
  · next hhome =>
    -- A walk that does not pass the global default ends where it meets it.
    obtain ⟨before, walk⟩ := hwhole.walk.exists_at hhome
    have hends : r.WholeWalk start before r.home.code :=
      ⟨walk, fun next hop => h ⟨before, next, walk, hop⟩⟩
    rw [← hwhole.unique hends]
    exact walk.getLast?_eq
  · exact List.getLast?_concat

theorem find?_of_mem {locale : Locale} (h : locale ∈ r.locales) :
    r.find? locale.code = some locale := by
  cases hfind : r.find? locale.code with
  | none =>
    have hne := List.find?_eq_none.mp hfind locale h
    simp at hne
  | some other =>
    have hcode : other.code = locale.code := by simpa using List.find?_some hfind
    rw [List.inj_on_of_nodup_map r.distinct (List.mem_of_find?_eq_some hfind) h hcode]

/-- Some walk passes the global default exactly if that has a fallback to go on to. -/
theorem exists_passes_iff : (∃ start, r.Passes start) ↔
    ∃ next, r.home.fallback = some next ∧ r.declares next = true ∧ next ≠ r.home.code := by
  have hhome : (r.find? r.home.code).bind Locale.fallback = r.home.fallback := by
    rw [find?_of_mem r.home_mem]
    rfl
  constructor
  · intro h
    obtain ⟨start, met, next, walk, hop⟩ := h
    refine ⟨next, hhome.symm.trans hop.fallback, hop.declared, ?_⟩
    rintro rfl
    exact hop.fresh (List.mem_of_getLast? walk.getLast?_eq)
  · intro h
    obtain ⟨next, hfallback, hdeclared, hne⟩ := h
    exact ⟨r.home.code, [r.home.code], next, .start, hhome.trans hfallback, hdeclared,
      by simpa using hne⟩

end Roster

namespace Catalog

variable {c : Catalog} {key code locale : String} {codes : List String} {entry : Entry}

theorem provider?_append (codes codes' : List String) :
    c.provider? key (codes ++ codes') =
      (c.provider? key codes).or (c.provider? key codes') := by
  induction codes with
  | nil => rfl
  | cons code codes ih =>
    rw [List.cons_append, provider?, provider?, ih]
    cases c.find? key code <;> rfl

theorem mem_of_provider? (h : c.provider? key codes = some (entry, code)) : code ∈ codes := by
  induction codes with
  | nil => cases h
  | cons first codes ih =>
    rw [provider?] at h
    cases hfind : c.find? key first with
    | none =>
      rw [hfind] at h
      exact List.mem_cons_of_mem _ (ih h)
    | some found =>
      rw [hfind] at h
      cases h
      exact List.mem_cons_self

theorem lookup_eq_ok_iff {found : Entry × String} :
    c.lookup locale key = .ok found ↔
      c.provider? key (c.roster.chain locale) = some found := by
  rw [lookup]
  cases c.provider? key (c.roster.chain locale) <;> simp

end Catalog

namespace Roster

/-- The entries of the global default are found for a code only if no other locale of its chain has
one, whatever the catalog. -/
def AsksHomeLast (r : Roster) (start : String) : Prop :=
  ∀ c : Catalog, c.roster = r → ∀ key entry, c.lookup start key = .ok (entry, r.home.code) →
    ∀ code ∈ r.chain start, code ≠ r.home.code → c.find? key code = none

variable {r : Roster} {start : String}

theorem asksHomeLast_of_getLast? (h : (r.chain start).getLast? = some r.home.code) :
    r.AsksHomeLast start := by
  rintro c rfl key entry hlookup code hcode hne
  obtain ⟨others, hchain⟩ := List.getLast?_eq_some_iff.mp h
  have hnodup := c.roster.nodup_chain start
  rw [Catalog.lookup_eq_ok_iff, hchain, Catalog.provider?_append] at hlookup
  rw [hchain] at hcode hnodup
  cases hothers : c.provider? key others with
  | none =>
    rcases List.mem_append.mp hcode with hcode | hcode
    · exact Catalog.provider?_eq_none_iff.mp hothers code hcode
    · exact absurd (List.mem_singleton.mp hcode) hne
  | some found =>
    -- An entry among the others would have been found first.
    rw [hothers] at hlookup
    cases hlookup
    have hmem := Catalog.mem_of_provider? hothers
    exact absurd rfl ((List.nodup_append.mp hnodup).2.2 _ hmem _ (List.mem_singleton_self _))

/-- A catalog with one phrase, in two locales. -/
def twoEntries (r : Roster) (code code' : String) : Catalog :=
  ((⟨r, none, none, .empty, .empty⟩ : Catalog).insert "" code (.template [])).insert "" code'
    (.template [])

theorem find?_twoEntries (r : Roster) (code code' other : String) :
    (r.twoEntries code code').find? "" other =
      if other = code ∨ other = code' then some (.template []) else none := by
  rw [twoEntries, Catalog.find?_insert, Catalog.find?_insert]
  by_cases hcode : other = code <;> by_cases hcode' : other = code' <;>
    simp [hcode, hcode', Catalog.find?]

theorem not_asksHomeLast_of_passes (h : r.Passes start) : ¬ r.AsksHomeLast start := by
  obtain ⟨before, next, rest, hchain⟩ := exists_chain_of_passes h
  have hnodup := r.nodup_chain start
  rw [hchain] at hnodup
  obtain ⟨-, hrest, hbefore⟩ := List.nodup_append.mp hnodup
  have hne : next ≠ r.home.code := by
    rintro rfl
    exact (List.nodup_cons.mp hrest).1 List.mem_cons_self
  have hnone : Catalog.provider? (r.twoEntries r.home.code next) "" before = none := by
    rw [Catalog.provider?_eq_none_iff]
    intro code hcode
    rw [find?_twoEntries, if_neg]
    rintro (rfl | rfl)
    · exact hbefore _ hcode _ List.mem_cons_self rfl
    · exact hbefore _ hcode _ (List.mem_cons_of_mem _ List.mem_cons_self) rfl
  have hlookup : (r.twoEntries r.home.code next).lookup start "" =
      .ok (.template [], r.home.code) := by
    rw [Catalog.lookup_eq_ok_iff]
    show Catalog.provider? _ "" (r.chain start) = _
    rw [hchain, Catalog.provider?_append, hnone, Catalog.provider?, find?_twoEntries,
      if_pos (.inl rfl)]
    rfl
  intro hlast
  have hfind := hlast _ rfl "" _ hlookup next (by rw [hchain]; simp) hne
  rw [find?_twoEntries, if_pos (.inr rfl)] at hfind
  cases hfind

theorem getLast?_chain_ne_of_passes (h : r.Passes start) :
    (r.chain start).getLast? ≠ some r.home.code :=
  fun hlast => not_asksHomeLast_of_passes h (asksHomeLast_of_getLast? hlast)

/-- A chain ends with the global default, and the global default is asked after all other locales of
the chain, if and only if the walk from the requested code does not pass the global default. All
chains do so if and only if the global default has no fallback, or one that is not declared or is
itself. -/
theorem chain_ends_at_home_iff (r : Roster) (start : String) :
    ((r.chain start).getLast? = some r.home.code ↔ ¬ r.Passes start) ∧
    (r.AsksHomeLast start ↔ ¬ r.Passes start) ∧
    ((∀ other, (r.chain other).getLast? = some r.home.code) ↔
      ∀ next, r.home.fallback = some next → r.declares next = true → next = r.home.code) := by
  have hlast : ∀ other, (r.chain other).getLast? = some r.home.code ↔ ¬ r.Passes other := by
    intro other
    exact ⟨fun hends hpasses => getLast?_chain_ne_of_passes hpasses hends,
      getLast?_chain_of_not_passes⟩
  refine ⟨hlast start, ⟨fun hasks hpasses => not_asksHomeLast_of_passes hpasses hasks, ?_⟩, ?_⟩
  · intro h
    exact asksHomeLast_of_getLast? (getLast?_chain_of_not_passes h)
  · simp only [hlast]
    rw [← not_exists, exists_passes_iff]
    simp only [not_exists, not_and, not_ne_iff]

/-- Two locales, the first of them the global default with the other as its fallback. -/
def borrowing : Roster where
  locales := [⟨"EN", "English", some "FR", true⟩, ⟨"FR", "French", none, false⟩]
  home := ⟨"EN", "English", some "FR", true⟩
  distinct := by decide
  onlyDefault := by decide

/-- A global default with a fallback does not come last. -/
theorem not_chain_ends_at_home :
    ¬ ∀ (r : Roster) (start : String), (r.chain start).getLast? = some r.home.code := by
  intro h
  have hchain := h borrowing "EN"
  revert hchain
  decide

end Roster

end Phrasebook
