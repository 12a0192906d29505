namespace Phrasebook

/-- Key-value pairs with keys in strictly ascending order. -/
structure Dict (α : Type) where
  entries : List (String × α)
  sorted : entries.Pairwise fun a b => a.1 < b.1

namespace Dict

variable {α β : Type}

def empty : Dict α := ⟨[], .nil⟩

instance : Inhabited (Dict α) := ⟨empty⟩

def keys (d : Dict α) : List String := d.entries.map (·.1)

def size (d : Dict α) : Nat := d.entries.length

/-- The value of the first pair with a key. -/
def lookup (key : String) : List (String × α) → Option α
  | [] => none
  | (k, v) :: rest => if key = k then some v else lookup key rest

def find? (d : Dict α) (key : String) : Option α := lookup key d.entries

def contains (d : Dict α) (key : String) : Bool := (d.find? key).isSome

/-- Puts a pair at its place, instead of one with the same key. -/
def insertEntry (key : String) (value : α) : List (String × α) → List (String × α)
  | [] => [(key, value)]
  | (k, v) :: rest =>
    if key < k then (key, value) :: (k, v) :: rest
    else if key = k then (key, value) :: rest
    else (k, v) :: insertEntry key value rest

theorem mem_insertEntry {key : String} {value : α} {entries : List (String × α)}
    {p : String × α} (h : p ∈ insertEntry key value entries) : p = (key, value) ∨ p ∈ entries := by
  induction entries with
  | nil => simpa [insertEntry] using h
  | cons e rest ih =>
    obtain ⟨k, v⟩ := e
    simp only [insertEntry] at h
    split at h
    · simpa using h
    · split at h
      · rcases List.mem_cons.1 h with h | h
        · exact .inl h
        · exact .inr (List.mem_cons_of_mem _ h)
      · rcases List.mem_cons.1 h with h | h
        · exact .inr (h ▸ List.mem_cons_self)
        · exact (ih h).imp id (List.mem_cons_of_mem _)

theorem lt_of_not_lt_of_ne {a b : String} (h : ¬a < b) (hne : a ≠ b) : b < a := by
  rcases String.le_total a b with hab | hba
  · exact absurd (String.le_antisymm hab (String.not_lt.1 h)) hne
  · exact String.not_le.1 fun hab => hne (String.le_antisymm hab hba)

theorem sorted_insertEntry (key : String) (value : α) {entries : List (String × α)}
    (h : entries.Pairwise fun a b => a.1 < b.1) :
    (insertEntry key value entries).Pairwise fun a b => a.1 < b.1 := by
  induction entries with
  | nil => simp [insertEntry]
  | cons e rest ih =>
    obtain ⟨k, v⟩ := e
    obtain ⟨hk, hrest⟩ := List.pairwise_cons.1 h
    simp only [insertEntry]
    split
    · next hlt =>
      refine List.pairwise_cons.2 ⟨fun p hp => ?_, h⟩
      rcases List.mem_cons.1 hp with rfl | hp
      · exact hlt
      · exact String.lt_trans hlt (hk p hp)
    · next hnlt =>
      split
      · next heq =>
        subst heq
        exact List.pairwise_cons.2 ⟨hk, hrest⟩
      · next hne =>
        refine List.pairwise_cons.2 ⟨fun p hp => ?_, ih hrest⟩
        rcases mem_insertEntry hp with rfl | hp
        · exact lt_of_not_lt_of_ne hnlt hne
        · exact hk p hp

/-- Adds or replaces the value of a key. -/
def insert (d : Dict α) (key : String) (value : α) : Dict α :=
  ⟨insertEntry key value d.entries, sorted_insertEntry key value d.sorted⟩

/-- The dictionary of a list of pairs; of two pairs with one key the later one counts. -/
def ofList (pairs : List (String × α)) : Dict α :=
  pairs.foldl (fun d p => d.insert p.1 p.2) empty

theorem lookup_insertEntry (key : String) (value : α) (entries : List (String × α)) (k : String) :
    lookup k (insertEntry key value entries)
      = if k = key then some value else lookup k entries := by
  induction entries with
  | nil => simp [insertEntry, lookup]
  | cons e rest ih =>
    obtain ⟨k', v⟩ := e
    simp only [insertEntry]
    split
    · simp [lookup]
    · split
      · next heq =>
        subst heq
        by_cases h : k = key <;> simp [lookup, h]
      · next hne =>
        by_cases h : k = k'
        · subst h
          simp [lookup, Ne.symm hne]
        · simp [lookup, h, ih]

theorem find?_insert (d : Dict α) (key : String) (value : α) (k : String) :
    (d.insert key value).find? k = if k = key then some value else d.find? k :=
  lookup_insertEntry key value d.entries k

@[simp] theorem find?_empty (key : String) : (empty : Dict α).find? key = none := rfl

theorem lookup_eq_none {key : String} {entries : List (String × α)}
    (h : ∀ p ∈ entries, key < p.1) : lookup key entries = none := by
  induction entries with
  | nil => rfl
  | cons e rest ih =>
    obtain ⟨k, v⟩ := e
    have hne : key ≠ k := fun heq => String.lt_irrefl k (heq ▸ h (k, v) List.mem_cons_self)
    simp [lookup, hne, ih fun p hp => h p (List.mem_cons_of_mem _ hp)]

theorem entries_eq_of_lookup {xs ys : List (String × α)}
    (hx : xs.Pairwise fun a b => a.1 < b.1) (hy : ys.Pairwise fun a b => a.1 < b.1)
    (h : ∀ k, lookup k xs = lookup k ys) : xs = ys := by
  induction xs generalizing ys with
  | nil =>
    cases ys with
    | nil => rfl
    | cons e _ => simpa [lookup] using h e.1
  | cons e xs ih =>
    obtain ⟨k, v⟩ := e
    cases ys with
    | nil => simpa [lookup] using h k
    | cons e' ys =>
      obtain ⟨k', v'⟩ := e'
      obtain ⟨hk, hxs⟩ := List.pairwise_cons.1 hx
      obtain ⟨hk', hys⟩ := List.pairwise_cons.1 hy
      have hkk : k = k' := by
        refine Decidable.byContradiction fun hne => ?_
        by_cases hlt : k < k'
        · have hnone : lookup k ys = none :=
            lookup_eq_none fun p hp => String.lt_trans hlt (hk' p hp)
          simpa [lookup, hne, hnone] using h k
        · have hlt' := lt_of_not_lt_of_ne hlt hne
          have hnone : lookup k' xs = none :=
            lookup_eq_none fun p hp => String.lt_trans hlt' (hk p hp)
          simpa [lookup, Ne.symm hne, hnone] using h k'
      subst hkk
      have hv : v = v' := by simpa [lookup] using h k
      subst hv
      rw [ih hxs hys fun key => ?_]
      by_cases hkey : key = k
      · subst hkey
        rw [lookup_eq_none hk, lookup_eq_none hk']
      · simpa [lookup, hkey] using h key

theorem ext_find? {d e : Dict α} (h : ∀ k, d.find? k = e.find? k) : d = e := by
  obtain ⟨xs, hx⟩ := d
  obtain ⟨ys, hy⟩ := e
  have heq : xs = ys := entries_eq_of_lookup hx hy h
  subst heq
  rfl

end Dict

end Phrasebook
