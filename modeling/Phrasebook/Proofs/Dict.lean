import Phrasebook.Dict
import Mathlib.Data.List.Nodup

namespace Phrasebook.Dict

variable {α : Type}

theorem lookup_eq_some_iff {entries : List (String × α)}
    (h : entries.Pairwise fun a b => a.1 < b.1) {key : String} {value : α} :
    lookup key entries = some value ↔ (key, value) ∈ entries := by
  induction entries with
  | nil => simp [lookup]
  | cons e rest ih =>
    obtain ⟨k, v⟩ := e
    obtain ⟨hk, hrest⟩ := List.pairwise_cons.mp h
    rw [lookup]
    by_cases hkey : key = k
    · subst hkey
      have hnot : (key, value) ∉ rest := fun hmem => String.lt_irrefl key (hk _ hmem)
      simp [hnot, eq_comm]
    · rw [if_neg hkey, ih hrest]
      simp [hkey]

theorem find?_eq_some_iff {d : Dict α} {key : String} {value : α} :
    d.find? key = some value ↔ (key, value) ∈ d.entries :=
  lookup_eq_some_iff d.sorted

theorem mem_keys_iff {d : Dict α} {key : String} :
    key ∈ d.keys ↔ (d.find? key).isSome = true := by
  rw [keys, List.mem_map, Option.isSome_iff_exists]
  constructor
  · intro h
    obtain ⟨⟨k, value⟩, hmem, rfl⟩ := h
    exact ⟨value, find?_eq_some_iff.mpr hmem⟩
  · intro h
    obtain ⟨value, h⟩ := h
    exact ⟨(key, value), find?_eq_some_iff.mp h, rfl⟩

theorem pairwise_keys (d : Dict α) : d.keys.Pairwise (· < ·) :=
  List.pairwise_map.mpr d.sorted

theorem nodup_keys (d : Dict α) : d.keys.Nodup :=
  d.pairwise_keys.imp String.ne_of_lt

theorem find?_foldl_insert (pairs : List (String × α)) (d : Dict α) (key : String) :
    (pairs.foldl (fun d p => d.insert p.1 p.2) d).find? key =
      ((pairs.reverse.find? (·.1 == key)).map (·.2)).or (d.find? key) := by
  induction pairs generalizing d with
  | nil => rfl
  | cons p pairs ih =>
    rw [List.foldl_cons, ih, find?_insert, List.reverse_cons, List.find?_append]
    cases pairs.reverse.find? (·.1 == key) with
    | some q => rfl
    | none =>
      by_cases hkey : key = p.1
      · simp [hkey]
      · simp [hkey, Ne.symm hkey]

/-- The last pair of a key counts. -/
theorem find?_ofList (pairs : List (String × α)) (key : String) :
    (ofList pairs).find? key = (pairs.reverse.find? (·.1 == key)).map (·.2) := by
  rw [ofList, find?_foldl_insert, find?_empty, Option.or_none]

theorem mem_of_mem_keys_ofList {pairs : List (String × α)} {key : String}
    (h : key ∈ (ofList pairs).keys) : ∃ p ∈ pairs, p.1 = key := by
  rw [mem_keys_iff, find?_ofList, Option.isSome_map, List.find?_isSome] at h
  obtain ⟨p, hp, hkey⟩ := h
  exact ⟨p, List.mem_reverse.mp hp, eq_of_beq hkey⟩

/-- A pair that no later pair replaces. -/
theorem find?_ofList_append_cons {before after : List (String × α)} {key : String} (value : α)
    (h : key ∉ after.map (·.1)) (k : String) :
    (ofList (before ++ (key, value) :: after)).find? k =
      if k = key then some value else (ofList (before ++ after)).find? k := by
  simp only [find?_ofList, List.reverse_append, List.reverse_cons, List.find?_append,
    List.append_assoc]
  by_cases hk : k = key
  · subst hk
    have hnone : after.reverse.find? (·.1 == k) = none := by
      rw [List.find?_eq_none]
      intro p hp hpk
      exact h (List.mem_map.mpr ⟨p, List.mem_reverse.mp hp, eq_of_beq hpk⟩)
    simp [hnone]
  · simp [hk, Ne.symm hk]

/-- Of pairs with different keys, none replaces another. -/
theorem find?_ofList_eq_some_iff {pairs : List (String × α)} (h : (pairs.map (·.1)).Nodup)
    {key : String} {value : α} :
    (ofList pairs).find? key = some value ↔ (key, value) ∈ pairs := by
  rw [find?_ofList, Option.map_eq_some_iff]
  constructor
  · intro hfound
    obtain ⟨p, hp, rfl⟩ := hfound
    have hkey : p.1 = key := by simpa using List.find?_some hp
    rw [← hkey]
    exact List.mem_reverse.mp (List.mem_of_find?_eq_some hp)
  · intro hmem
    have hsome : (pairs.reverse.find? (·.1 == key)).isSome = true := by
      rw [List.find?_isSome]
      exact ⟨_, List.mem_reverse.mpr hmem, beq_self_eq_true key⟩
    obtain ⟨p, hp⟩ := Option.isSome_iff_exists.mp hsome
    have hkey : p.1 = key := by simpa using List.find?_some hp
    have hpairs := List.mem_reverse.mp (List.mem_of_find?_eq_some hp)
    have heq := List.inj_on_of_nodup_map h hpairs hmem hkey
    exact ⟨p, hp, congrArg Prod.snd heq⟩

/-- The order of pairs with different keys leaves no trace. -/
theorem ofList_eq_of_perm {pairs pairs' : List (String × α)} (h : (pairs.map (·.1)).Nodup)
    (hperm : pairs.Perm pairs') : ofList pairs = ofList pairs' := by
  have h' : (pairs'.map (·.1)).Nodup := (hperm.map _).nodup h
  apply ext_find?
  intro key
  apply Option.ext
  intro value
  rw [find?_ofList_eq_some_iff h, find?_ofList_eq_some_iff h', hperm.mem_iff]

end Phrasebook.Dict
