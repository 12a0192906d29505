import Phrasebook.Catalog.Lookup
import Phrasebook.Proofs.Dict
import Phrasebook.Proofs.Except
import Phrasebook.Proofs.Text.ByteOrder
import Phrasebook.Proofs.Text.EditDistance

namespace Phrasebook

/-- One key is suggested no later than another: it is nearer, or as near and not greater byte by
byte. -/
def NoLater (target a b : String) : Prop :=
  Text.editDistance target a < Text.editDistance target b ∨
    Text.editDistance target a = Text.editDistance target b ∧ Text.bytes a ≤ Text.bytes b

/-- The keys near enough to be suggested. -/
def candidates (target : String) (available : List String) : List String :=
  available.filter fun key => Text.editDistance target key ≤ suggestionReach target

/-- The keys near enough, in the order in which they are suggested. -/
def ranked (target : String) (available : List String) : List String :=
  (candidates target available).mergeSort fun a b =>
    nearerFirst (Text.editDistance target a, a) (Text.editDistance target b, b)

variable {target : String} {available available' : List String}

theorem suggestions_eq_take (target : String) (available : List String) :
    suggestions target available = (ranked target available).take 3 := by
  rw [suggestions, List.map_take, ranked, candidates, List.filter_map]
  rw [List.map_mergeSort (s := fun a b =>
    nearerFirst (Text.editDistance target a, a) (Text.editDistance target b, b))]
  · rw [List.map_map]
    exact congrArg (fun keys => (List.mergeSort keys _).take 3) (List.map_id _)
  · intro a ha b hb
    obtain ⟨_, -, rfl⟩ := List.mem_map.mp ha
    obtain ⟨_, -, rfl⟩ := List.mem_map.mp hb
    rfl

theorem nearerFirst_iff {a b : Nat × String} :
    nearerFirst a b = true ↔ a.1 < b.1 ∨ a.1 = b.1 ∧ a.2 ≤ b.2 := by
  simp [nearerFirst]

theorem noLater_iff {a b : String} : NoLater target a b ↔
    nearerFirst (Text.editDistance target a, a) (Text.editDistance target b, b) = true := by
  have hbytes : Text.bytes a ≤ Text.bytes b ↔ a ≤ b := not_congr Text.bytes_lt_iff
  rw [nearerFirst_iff, NoLater, hbytes]

theorem nearerFirst_trans {a b c : Nat × String} (hab : nearerFirst a b = true)
    (hbc : nearerFirst b c = true) : nearerFirst a c = true := by
  rw [nearerFirst_iff] at hab hbc ⊢
  obtain hab | ⟨hab, hle⟩ := hab
  · exact .inl (by omega)
  · obtain hbc | ⟨hbc, hle'⟩ := hbc
    · exact .inl (by omega)
    · exact .inr ⟨hab.trans hbc, String.le_trans hle hle'⟩

theorem nearerFirst_total (a b : Nat × String) :
    (nearerFirst a b || nearerFirst b a) = true := by
  rw [Bool.or_eq_true, nearerFirst_iff, nearerFirst_iff]
  rcases Nat.lt_trichotomy a.1 b.1 with h | h | h
  · exact .inl (.inl h)
  · exact (String.le_total a.2 b.2).imp (fun hle => .inr ⟨h, hle⟩) fun hle => .inr ⟨h.symm, hle⟩
  · exact .inr (.inl h)

theorem NoLater.antisymm {a b : String} (hab : NoLater target a b) (hba : NoLater target b a) :
    a = b := by
  rw [noLater_iff, nearerFirst_iff] at hab hba
  obtain hab | ⟨heq, hab⟩ := hab
  · obtain hba | ⟨heq, -⟩ := hba
    · exact absurd hab (Nat.lt_asymm hba)
    · exact absurd heq (Nat.ne_of_gt hab)
  · obtain hba | ⟨-, hba⟩ := hba
    · exact absurd heq (Nat.ne_of_gt hba)
    · exact String.le_antisymm hab hba

theorem pairwise_ranked (target : String) (available : List String) :
    (ranked target available).Pairwise (NoLater target) := by
  refine (List.pairwise_mergeSort ?_ ?_ _).imp noLater_iff.mpr
  · intro a b c hab hbc
    exact nearerFirst_trans hab hbc
  · intro a b
    exact nearerFirst_total _ _

theorem ranked_perm (target : String) (available : List String) :
    (ranked target available).Perm (candidates target available) :=
  List.mergeSort_perm _ _

/-- Keys that come in no order of their own are equal, so one order of the keys is as good as
another. -/
theorem ranked_eq_of_perm (h : available.Perm available') :
    ranked target available = ranked target available' := by
  have hperm : (ranked target available).Perm (ranked target available') :=
    (ranked_perm _ _).trans ((h.filter _).trans (ranked_perm _ _).symm)
  exact hperm.eq_of_pairwise (fun _ _ _ _ => NoLater.antisymm) (pairwise_ranked _ _)
    (pairwise_ranked _ _)

/-- The nearest keys are suggested, at most three of them, the nearer first and of two as near the
smaller first. They are as near as one edit, or two edits if the target has more than three
characters; the other keys that are as near come no sooner than those suggested, which are three
then. The order in which the keys are given does not matter. Here the distance of two texts is the
least number of characters to be inserted, deleted or replaced. -/
theorem suggestions_nearest (target : String) (available : List String) :
    (∀ key, IsLeast {n | Text.Edits n target.toList key.toList} (Text.editDistance target key)) ∧
    (suggestions target available).length ≤ 3 ∧
    (suggestions target available).Pairwise (NoLater target) ∧
    (∃ others, (suggestions target available ++ others).Perm (available.filter fun key =>
        Text.editDistance target key ≤ if target.toList.length ≤ 3 then 1 else 2) ∧
      (∀ key ∈ others, ∀ suggested ∈ suggestions target available,
        NoLater target suggested key) ∧
      (others ≠ [] → (suggestions target available).length = 3)) ∧
    ∀ available', available.Perm available' →
      suggestions target available' = suggestions target available := by
  simp only [suggestions_eq_take]
  have hsplit := List.take_append_drop 3 (ranked target available)
  have hsorted := pairwise_ranked target available
  rw [← hsplit, List.pairwise_append] at hsorted
  obtain ⟨hfirst, -, hothers⟩ := hsorted
  refine ⟨fun key => Text.isLeast_editDistance target key, List.length_take_le _ _, hfirst,
    ⟨(ranked target available).drop 3, ?_, ?_, ?_⟩, ?_⟩
  · rw [hsplit]
    exact ranked_perm target available
  · intro key hkey suggested hsuggested
    exact hothers suggested hsuggested key hkey
  · intro hne
    have hlength := List.length_pos_iff.mpr hne
    rw [List.length_drop] at hlength
    rw [List.length_take]
    omega
  · intro available' hperm
    rw [ranked_eq_of_perm hperm]

/-- A key that is available comes first among its own suggestions. -/
theorem head?_suggestions_self {key : String} (h : key ∈ available) :
    (suggestions key available).head? = some key := by
  have hself : Text.editDistance key key = 0 := Text.editDistance_eq_zero_iff.mpr rfl
  have hcandidate : key ∈ candidates key available := by
    rw [candidates, List.mem_filter, hself]
    exact ⟨h, by simp⟩
  have hranked := (ranked_perm key available).mem_iff.mpr hcandidate
  have hsorted := pairwise_ranked key available
  rw [suggestions_eq_take]
  cases hkeys : ranked key available with
  | nil =>
    rw [hkeys] at hranked
    cases hranked
  | cons first rest =>
    rw [hkeys] at hranked hsorted
    rw [List.take_succ_cons, List.head?_cons]
    rcases List.mem_cons.mp hranked with rfl | hrest
    · rfl
    · have hfirst := (List.pairwise_cons.mp hsorted).1 key hrest
      rw [NoLater, hself] at hfirst
      have hzero : Text.editDistance key first = 0 := by omega
      rw [Text.editDistance_eq_zero_iff.mp hzero]

theorem mem_of_mem_suggestions {key : String} (h : key ∈ suggestions target available) :
    key ∈ available := by
  rw [suggestions_eq_take] at h
  exact (List.mem_filter.mp ((ranked_perm target available).mem_iff.mp (List.mem_of_mem_take h))).1

namespace Catalog

/-- Catalogs made of locales to which entries and debug info are added. -/
inductive Assembled : Catalog → Prop
  | ofLocales {locales : List Locale} {c : Catalog} (h : ofLocales locales = .ok c) : Assembled c
  | insert {c : Catalog} (h : Assembled c) (key locale : String) (entry : Entry) :
    Assembled (c.insert key locale entry)
  | insertDebugInfo {c : Catalog} (h : Assembled c) (key : String) (info : DebugInfo) :
    Assembled (c.insertDebugInfo key info)

theorem mem_keys_of_find? {c : Catalog} {key code : String}
    (h : (c.find? key code).isSome = true) : key ∈ c.keys := by
  rw [keys, Dict.mem_keys_iff]
  cases hentries : c.phrases.find? key with
  | none =>
    rw [find?, hentries] at h
    cases h
  | some entries => rfl

/-- No key of such a catalog is without entries. -/
theorem Assembled.mem_keys_iff {c : Catalog} (h : c.Assembled) {key : String} :
    key ∈ c.keys ↔ ∃ code, (c.find? key code).isSome = true := by
  refine ⟨fun hkey => ?_, fun hfind => hfind.elim fun _ => mem_keys_of_find?⟩
  induction h with
  | ofLocales h =>
    obtain ⟨roster, -, hc⟩ := bind_eq_ok_iff.mp h
    cases hc
    cases hkey
  | @insert c _ key' locale entry ih =>
    by_cases heq : key = key'
    · refine ⟨locale, ?_⟩
      rw [find?_insert, if_pos ⟨heq, rfl⟩]
      rfl
    · have hkey' : key ∈ c.keys := by
        rw [keys, Dict.mem_keys_iff] at hkey ⊢
        rwa [Catalog.insert, Dict.find?_insert, if_neg heq] at hkey
      obtain ⟨code, hcode⟩ := ih hkey'
      refine ⟨code, ?_⟩
      rw [find?_insert, if_neg fun hboth => heq hboth.1]
      exact hcode
  | insertDebugInfo _ _ _ ih => exact ih hkey

theorem lookup_eq_error {c : Catalog} {locale key : String} {tried suggested : List String}
    (h : c.lookup locale key = .error (.missingKey key tried suggested)) :
    suggested = suggestions key c.keys := by
  rw [lookup] at h
  cases hfirst : c.provider? key (c.roster.chain locale) with
  | none =>
    rw [hfirst] at h
    cases h
    rfl
  | some found =>
    rw [hfirst] at h
    cases h

/-- A key that is missed in a locale is left out of its own suggestions if no locale at all has an
entry for it. If some locale outside the chain has one, the key is the first suggestion. -/
theorem missed_key_not_suggested_iff {c : Catalog} (h : c.Assembled) {locale key : String}
    {tried suggested : List String}
    (hmiss : c.lookup locale key = .error (.missingKey key tried suggested)) :
    (key ∉ suggested ↔ ∀ code, c.find? key code = none) ∧
      (key ∈ suggested → suggested.head? = some key) := by
  obtain rfl := lookup_eq_error hmiss
  have hmem : key ∈ suggestions key c.keys ↔ ∃ code, (c.find? key code).isSome = true := by
    rw [← h.mem_keys_iff]
    exact ⟨mem_of_mem_suggestions, fun hkey => List.mem_of_mem_head? (head?_suggestions_self hkey)⟩
  refine ⟨?_, fun hsuggested => head?_suggestions_self (mem_of_mem_suggestions hsuggested)⟩
  rw [hmem, not_exists]
  simp only [Option.not_isSome_iff_eq_none]

/-- Two locales without phrases; neither falls back to the other. -/
def unfilled : Catalog where
  roster :=
    { locales := [⟨"EN", "English", none, true⟩, ⟨"FR", "French", none, false⟩]
      home := ⟨"EN", "English", none, true⟩
      distinct := by decide
      onlyDefault := by decide }

/-- A phrase that only the locale outside the chain has. -/
def frenchOnly : Catalog := unfilled.insert "k" "FR" (.template [])

theorem assembled_unfilled : unfilled.Assembled :=
  @Assembled.ofLocales unfilled.roster.locales unfilled rfl

theorem lookup_frenchOnly :
    frenchOnly.lookup "EN" "k" = .error (.missingKey "k" ["EN"] ["k"]) := by
  have hsuggestions : suggestions "k" ["k"] = ["k"] := by decide +kernel
  show Except.error (ResolveFault.missingKey "k" ["EN"] (suggestions "k" ["k"])) = _
  rw [hsuggestions]

theorem missed_key_not_suggested_frenchOnly : frenchOnly.Assembled ∧
    frenchOnly.lookup "EN" "k" = .error (.missingKey "k" ["EN"] ["k"]) ∧
    ("k" ∉ ["k"] ↔ ∀ code, frenchOnly.find? "k" code = none) ∧
      ("k" ∈ ["k"] → ["k"].head? = some "k") := by
  have hassembled : frenchOnly.Assembled := assembled_unfilled.insert "k" "FR" _
  exact ⟨hassembled, lookup_frenchOnly,
    missed_key_not_suggested_iff hassembled lookup_frenchOnly⟩

/-- A key that is missed may be among its own suggestions. -/
theorem not_missed_key_not_suggested : ¬ ∀ (c : Catalog) (locale key : String)
    (tried suggested : List String), c.Assembled →
    c.lookup locale key = .error (.missingKey key tried suggested) → key ∉ suggested := by
  intro h
  exact h frenchOnly "EN" "k" ["EN"] ["k"] (assembled_unfilled.insert "k" "FR" _)
    lookup_frenchOnly List.mem_cons_self

end Catalog

end Phrasebook
