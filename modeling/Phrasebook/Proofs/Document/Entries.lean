import Phrasebook.Document.Load
import Phrasebook.Proofs.Dict
import Phrasebook.Proofs.Except

namespace Phrasebook

namespace Document

/-- An authored entry at its place. -/
structure Placed where
  key : String
  locale : String
  nodes : List AuthoredNode

namespace Placed

/-- The entry can be compiled, if its locale is declared. -/
def Compiles (r : Roster) (e : Placed) : Prop :=
  r.declares e.locale = true → ∃ result, AuthoredNode.compileAll e.nodes = .ok result

/-- The entry as it stands in the catalog. -/
def entry? (r : Roster) (e : Placed) : Option Entry :=
  if r.declares e.locale then
    (AuthoredNode.compileAll e.nodes).toOption.map fun result => .template result.1
  else none

/-- The warnings of reading the entry. -/
def notes (r : Roster) (e : Placed) : List Warning :=
  if r.declares e.locale then
    match AuthoredNode.compileAll e.nodes with
    | .ok (_, repairs) => repairs.map (Repair.warning e.key e.locale)
    | .error _ => []
  else [.undeclaredEntry e.key e.locale]

/-- Puts the entry into a catalog. -/
def place (c : Catalog) (e : Placed) : Catalog :=
  match e.entry? c.roster with
  | some entry => c.insert e.key e.locale entry
  | none => c

end Placed

/-- Adds entries one after the other. -/
def addAll : List Placed → Catalog → Except LoadFault (Catalog × List Warning)
  | [], c => .ok (c, [])
  | e :: es, c => do
    let (c, warnings) ← addEntry e.key e.locale e.nodes c
    let (c, more) ← addAll es c
    return (c, warnings ++ more)

/-- The entries of a key. -/
def placedAt (key : String) (entries : List (String × List AuthoredNode)) : List Placed :=
  entries.map fun e => ⟨key, e.1, e.2⟩

/-- The entries of a document, in ascending order of key and locale. -/
def placed (d : Document) : List Placed :=
  d.phrases.entries.flatMap fun p => placedAt p.1 p.2.entries

/-- The authored entry of a key in a locale. -/
def find? (d : Document) (key locale : String) : Option (List AuthoredNode) :=
  (d.phrases.find? key).bind (·.find? locale)

theorem mem_placed {d : Document} {e : Placed} :
    e ∈ d.placed ↔ d.find? e.key e.locale = some e.nodes := by
  obtain ⟨key, locale, nodes⟩ := e
  simp only [placed, placedAt, List.mem_flatMap, List.mem_map, find?, Option.bind_eq_some_iff,
    Dict.find?_eq_some_iff]
  constructor
  · intro h
    obtain ⟨⟨k, entries⟩, hk, ⟨l, ns⟩, hl, h⟩ := h
    cases h
    exact ⟨entries, hk, hl⟩
  · intro h
    obtain ⟨entries, hk, hl⟩ := h
    exact ⟨(key, entries), hk, (locale, nodes), hl, rfl⟩

/-- One entry stands before another if its key is smaller, or its locale code under the same
key. -/
def Placed.Before (e e' : Placed) : Prop :=
  e.key < e'.key ∨ e.key = e'.key ∧ e.locale < e'.locale

theorem Placed.Before.asymm {e e' : Placed} (h : e.Before e') : ¬ e'.Before e := by
  intro h'
  obtain hkey | ⟨hkey, hlocale⟩ := h
  · obtain hkey' | ⟨hkey', -⟩ := h'
    · exact String.lt_asymm hkey hkey'
    · rw [hkey'] at hkey
      exact String.lt_irrefl _ hkey
  · obtain hkey' | ⟨-, hlocale'⟩ := h'
    · rw [hkey] at hkey'
      exact String.lt_irrefl _ hkey'
    · exact String.lt_asymm hlocale hlocale'

theorem pairwise_placed (d : Document) : d.placed.Pairwise Placed.Before := by
  rw [placed, List.pairwise_flatMap]
  refine ⟨?_, d.phrases.sorted.imp ?_⟩
  · intro p _
    rw [placedAt, List.pairwise_map]
    exact p.2.sorted.imp fun hlocale => .inr ⟨rfl, hlocale⟩
  · intro p q hkey e he e' he'
    obtain ⟨_, -, rfl⟩ := List.mem_map.mp he
    obtain ⟨_, -, rfl⟩ := List.mem_map.mp he'
    exact .inl hkey

theorem addAll_append (es es' : List Placed) (c : Catalog) :
    addAll (es ++ es') c = (do
      let (c, warnings) ← addAll es c
      let (c, more) ← addAll es' c
      return (c, warnings ++ more)) := by
  induction es generalizing c with
  | nil =>
    rw [List.nil_append, addAll, ok_bind]
    exact (bind_pure _).symm
  | cons e es ih =>
    simp only [List.cons_append, addAll, ih, bind_assoc, pure_bind, List.append_assoc]

theorem addEntries_eq (key : String) (entries : List (String × List AuthoredNode)) (c : Catalog) :
    addEntries key entries c = addAll (placedAt key entries) c := by
  induction entries generalizing c with
  | nil => rfl
  | cons e entries ih =>
    obtain ⟨locale, nodes⟩ := e
    rw [addEntries, placedAt, List.map_cons, addAll]
    simp only [ih]
    rfl

theorem addPhrases_eq (phrases : List (String × Dict (List AuthoredNode))) (c : Catalog) :
    addPhrases phrases c = addAll (phrases.flatMap fun p => placedAt p.1 p.2.entries) c := by
  induction phrases generalizing c with
  | nil => rfl
  | cons p phrases ih =>
    obtain ⟨key, entries⟩ := p
    rw [addPhrases, List.flatMap_cons, addAll_append, addEntries_eq]
    simp only [ih]

theorem addEntry_eq_ok_iff {e : Placed} {c : Catalog} {result : Catalog × List Warning} :
    addEntry e.key e.locale e.nodes c = .ok result ↔
      e.Compiles c.roster ∧ result = (e.place c, e.notes c.roster) := by
  simp only [addEntry, Placed.Compiles, Placed.place, Placed.entry?, Placed.notes]
  by_cases hdeclared : c.roster.declares e.locale = true
  · cases hcompile : AuthoredNode.compileAll e.nodes with
    | error fault => simp [hdeclared]
    | ok compiled => simp [hdeclared, Except.toOption, eq_comm]
  · simp [hdeclared, eq_comm]

theorem Placed.roster_place (c : Catalog) (e : Placed) : (e.place c).roster = c.roster := by
  rw [place]
  split <;> rfl

/-- A row of entries is added if all of them can be compiled, and they are put into the catalog from
the first to the last. -/
theorem addAll_eq_ok_iff {es : List Placed} {c : Catalog} {result : Catalog × List Warning} :
    addAll es c = .ok result ↔
      (∀ e ∈ es, e.Compiles c.roster) ∧
        result = (es.foldl Placed.place c, es.flatMap (Placed.notes c.roster)) := by
  induction es generalizing c result with
  | nil => simp [addAll, eq_comm]
  | cons e es ih =>
    rw [addAll, bind_eq_ok_iff]
    constructor
    · intro h
      obtain ⟨first, hfirst, h⟩ := h
      obtain ⟨hcompiles, rfl⟩ := addEntry_eq_ok_iff.mp hfirst
      obtain ⟨second, hsecond, h⟩ := bind_eq_ok_iff.mp h
      obtain ⟨hall, rfl⟩ := ih.mp hsecond
      rw [e.roster_place] at hall h
      cases h
      exact ⟨List.forall_mem_cons.mpr ⟨hcompiles, hall⟩, rfl⟩
    · intro h
      obtain ⟨hall, rfl⟩ := h
      obtain ⟨hcompiles, hrest⟩ := List.forall_mem_cons.mp hall
      refine ⟨_, addEntry_eq_ok_iff.mpr ⟨hcompiles, rfl⟩, ?_⟩
      rw [← e.roster_place c] at hrest
      refine bind_eq_ok_iff.mpr ⟨_, ih.mpr ⟨hrest, rfl⟩, ?_⟩
      rw [e.roster_place]
      rfl

theorem roster_foldl_place (es : List Placed) (c : Catalog) :
    (es.foldl Placed.place c).roster = c.roster := by
  induction es generalizing c with
  | nil => rfl
  | cons e es ih => rw [List.foldl_cons, ih, Placed.roster_place]

/-- What the entry puts at a place. -/
def Placed.at? (r : Roster) (key locale : String) (e : Placed) : Option Entry :=
  if key = e.key ∧ locale = e.locale then e.entry? r else none

theorem Placed.find?_place (c : Catalog) (e : Placed) (key locale : String) :
    (e.place c).find? key locale = (e.at? c.roster key locale).or (c.find? key locale) := by
  rw [place, at?]
  cases e.entry? c.roster with
  | none => simp
  | some entry =>
    simp only [Catalog.find?_insert]
    by_cases h : key = e.key ∧ locale = e.locale
    · simp [h]
    · simp [h]

theorem find?_foldl_place (es : List Placed) (c : Catalog) (key locale : String) :
    (es.foldl Placed.place c).find? key locale =
      (es.reverse.findSome? (Placed.at? c.roster key locale)).or (c.find? key locale) := by
  induction es generalizing c with
  | nil => rfl
  | cons e es ih =>
    rw [List.foldl_cons, ih, Placed.roster_place, Placed.find?_place, List.reverse_cons,
      List.findSome?_append]
    simp [Option.or_assoc, List.findSome?_cons]
    cases e.at? c.roster key locale with
    | none => rfl
    | some entry => rfl

theorem mem_keys_insert {c : Catalog} {key locale : String} {entry : Entry} {k : String} :
    k ∈ (c.insert key locale entry).keys ↔ k = key ∨ k ∈ c.keys := by
  rw [Catalog.keys, Catalog.keys, Catalog.insert, Dict.mem_keys_iff, Dict.mem_keys_iff,
    Dict.find?_insert]
  by_cases h : k = key
  · simp [h]
  · simp [h]

theorem mem_keys_foldl_place {es : List Placed} {c : Catalog} {key : String} :
    key ∈ (es.foldl Placed.place c).keys ↔
      key ∈ c.keys ∨ ∃ e ∈ es, e.key = key ∧ (e.entry? c.roster).isSome = true := by
  induction es generalizing c with
  | nil => simp
  | cons e es ih =>
    have hplace : key ∈ (e.place c).keys ↔
        key ∈ c.keys ∨ e.key = key ∧ (e.entry? c.roster).isSome = true := by
      rw [Placed.place]
      cases e.entry? c.roster with
      | none => simp
      | some entry =>
        rw [mem_keys_insert]
        simp [or_comm, eq_comm]
    rw [List.foldl_cons, ih, Placed.roster_place, hplace]
    simp [or_assoc]

/-- The catalog of a document before its entries are put in. -/
def bare (d : Document) (r : Roster) : Catalog where
  roster := r
  repositoryId := d.repositoryId
  version := d.version

/-- The catalog of a document over its roster. -/
def built (d : Document) (r : Roster) : Catalog :=
  { d.placed.foldl Placed.place (d.bare r) with debugInfo := d.debugInfo }

theorem roster_built (d : Document) (r : Roster) : (d.built r).roster = r :=
  roster_foldl_place _ _

/-- A document has a catalog if its locales make up a roster and the entries of declared locales can
be compiled. The warnings are those of the entries, then those of the catalog. -/
theorem toCatalog_eq_ok_iff {d : Document} {c : Catalog} {warnings : List Warning} :
    d.toCatalog = .ok (c, warnings) ↔
      ∃ r, Roster.ofList d.locales = .ok r ∧ (∀ e ∈ d.placed, e.Compiles r) ∧ c = d.built r ∧
        warnings = d.placed.flatMap (Placed.notes r) ++ c.lint := by
  rw [toCatalog, bind_eq_ok_iff]
  constructor
  · intro h
    obtain ⟨r, hroster, h⟩ := h
    obtain ⟨added, hadded, h⟩ := bind_eq_ok_iff.mp h
    rw [addPhrases_eq, addAll_eq_ok_iff] at hadded
    obtain ⟨hcompiles, rfl⟩ := hadded
    cases h
    exact ⟨r, mapError_eq_ok_iff.mp hroster, hcompiles, rfl, rfl⟩
  · intro h
    obtain ⟨r, hroster, hcompiles, rfl, rfl⟩ := h
    have hadded : addPhrases d.phrases.entries (d.bare r) =
        .ok (d.placed.foldl Placed.place (d.bare r), d.placed.flatMap (Placed.notes r)) := by
      rw [addPhrases_eq, addAll_eq_ok_iff]
      exact ⟨hcompiles, rfl⟩
    exact ⟨r, mapError_eq_ok_iff.mpr hroster, bind_eq_ok_iff.mpr ⟨_, hadded, rfl⟩⟩

/-- If all other members of a row give nothing, a search of the row gives what that one gives. -/
theorem findSome?_eq_of_unique {α β : Type} {f : α → Option β} {row : List α} {a : α}
    (ha : a ∈ row) (hothers : ∀ b ∈ row, b ≠ a → f b = none) : row.findSome? f = f a := by
  cases h : row.findSome? f with
  | none => exact (List.findSome?_eq_none_iff.mp h a ha).symm
  | some found =>
    obtain ⟨b, hb, hfound⟩ := List.exists_of_findSome?_eq_some h
    by_contra hne
    have hba : b ≠ a := by
      rintro rfl
      exact hne hfound.symm
    rw [hothers b hb hba] at hfound
    cases hfound

/-- The entries of a document that stand at a place are those it has there. -/
theorem eq_of_mem_placed {d : Document} {e : Placed} {key locale : String} (he : e ∈ d.placed)
    (hat : key = e.key ∧ locale = e.locale) :
    d.find? key locale = some e.nodes ∧ e = ⟨key, locale, e.nodes⟩ := by
  obtain ⟨rfl, rfl⟩ := hat
  exact ⟨mem_placed.mp he, rfl⟩

/-- What a document makes of a place. -/
theorem find?_built (d : Document) (r : Roster) (key locale : String) :
    (d.built r).find? key locale =
      (d.find? key locale).bind fun nodes => Placed.entry? r ⟨key, locale, nodes⟩ := by
  have hbuilt : (d.built r).find? key locale =
      d.placed.reverse.findSome? (Placed.at? r key locale) := by
    have hplaced := find?_foldl_place d.placed (d.bare r) key locale
    rw [show (d.bare r).find? key locale = none from rfl, Option.or_none] at hplaced
    exact hplaced
  rw [hbuilt]
  cases hnodes : d.find? key locale with
  | none =>
    refine List.findSome?_eq_none_iff.mpr ?_
    intro e he
    refine if_neg ?_
    intro hat
    have hfind := (eq_of_mem_placed (List.mem_reverse.mp he) hat).1
    rw [hnodes] at hfind
    cases hfind
  | some nodes =>
    -- Only one entry stands at the place, so it is the first to be met from the end.
    have hmem : (⟨key, locale, nodes⟩ : Placed) ∈ d.placed.reverse :=
      List.mem_reverse.mpr (mem_placed.mpr hnodes)
    rw [findSome?_eq_of_unique hmem, Placed.at?, if_pos ⟨rfl, rfl⟩]
    · rfl
    · intro e he hne
      refine if_neg ?_
      intro hat
      obtain ⟨hfind, heq⟩ := eq_of_mem_placed (List.mem_reverse.mp he) hat
      rw [hnodes] at hfind
      cases hfind
      exact hne heq

theorem mem_keys_built {d : Document} {r : Roster} {key : String} :
    key ∈ (d.built r).keys ↔ ∃ e ∈ d.placed, e.key = key ∧ (e.entry? r).isSome = true := by
  have hplaced : key ∈ (d.built r).keys ↔ key ∈ (d.bare r).keys ∨
      ∃ e ∈ d.placed, e.key = key ∧ (e.entry? r).isSome = true := mem_keys_foldl_place
  rw [hplaced]
  exact or_iff_right List.not_mem_nil

end Document

theorem Repair.warning_inj {repair repair' : Repair} {key locale key' locale' : String}
    (h : repair.warning key locale = repair'.warning key' locale') :
    key = key' ∧ locale = locale' := by
  cases repair <;> cases repair' <;> cases h <;> exact ⟨rfl, rfl⟩

theorem Catalog.warning_not_mem_lint (c : Catalog) (key locale : String) (repair : Repair) :
    repair.warning key locale ∉ c.lint := by
  intro h
  rw [lint, List.mem_append, List.mem_flatMap, List.mem_flatMap] at h
  obtain ⟨l, -, h⟩ | ⟨k, -, h⟩ := h
  · rw [lintLocale] at h
    split at h
    · cases h
    · split at h
      · cases h
      · cases repair <;> cases List.mem_singleton.mp h
  · rw [lintKey] at h
    simp only [List.mem_append] at h
    obtain h | h := h
    · split at h
      · cases h
      · cases repair <;> cases List.mem_singleton.mp h
    · split at h
      · cases h
      · cases repair <;> cases List.mem_singleton.mp h

namespace Document

theorem Placed.of_warning_mem_notes {r : Roster} {e : Placed} {key locale : String}
    {repair : Repair} (h : repair.warning key locale ∈ e.notes r) :
    e.key = key ∧ e.locale = locale ∧
      ∃ compiled repairs, AuthoredNode.compileAll e.nodes = .ok (compiled, repairs) ∧
        repairs ≠ [] := by
  rw [notes] at h
  split at h
  · split at h
    · next compiled repairs hcompile =>
      obtain ⟨other, hother, heq⟩ := List.mem_map.mp h
      obtain ⟨hkey, hlocale⟩ := Repair.warning_inj heq
      exact ⟨hkey, hlocale, compiled, repairs, hcompile, List.ne_nil_of_mem hother⟩
    · cases h
  · cases repair <;> cases List.mem_singleton.mp h

/-- An entry that needs no repair leaves no warning of a repair. -/
theorem no_repair_warning {d : Document} {c : Catalog} {warnings : List Warning}
    (h : d.toCatalog = .ok (c, warnings)) {key locale : String} {nodes : List AuthoredNode}
    {compiled : List TemplateNode} (hnodes : d.find? key locale = some nodes)
    (hcompile : AuthoredNode.compileAll nodes = .ok (compiled, [])) (repair : Repair) :
    repair.warning key locale ∉ warnings := by
  obtain ⟨r, -, -, rfl, rfl⟩ := toCatalog_eq_ok_iff.mp h
  intro hmem
  obtain hmem | hmem := List.mem_append.mp hmem
  · obtain ⟨e, he, hnote⟩ := List.mem_flatMap.mp hmem
    obtain ⟨rfl, rfl, compiled', repairs, hcompile', hne⟩ := Placed.of_warning_mem_notes hnote
    rw [mem_placed, hnodes] at he
    cases he
    rw [hcompile] at hcompile'
    cases hcompile'
    exact hne rfl
  · exact (d.built r).warning_not_mem_lint key locale repair hmem

/-- A document stays valid when an entry is changed for one that can be compiled. -/
theorem toCatalog_of_changed {d d' : Document} {key locale : String} {nodes : List AuthoredNode}
    (hlocales : d'.locales = d.locales)
    (hfind : ∀ k l, d'.find? k l = if k = key ∧ l = locale then some nodes else d.find? k l)
    (hnodes : ∃ result, AuthoredNode.compileAll nodes = .ok result)
    {c : Catalog} {warnings : List Warning} (h : d.toCatalog = .ok (c, warnings)) :
    ∃ warnings', d'.toCatalog = .ok (d'.built c.roster, warnings') := by
  obtain ⟨r, hroster, hcompiles, rfl, rfl⟩ := toCatalog_eq_ok_iff.mp h
  rw [roster_built]
  refine ⟨_, toCatalog_eq_ok_iff.mpr ⟨r, by rw [hlocales, hroster], ?_, rfl, rfl⟩⟩
  intro e he
  rw [mem_placed, hfind] at he
  split at he
  · cases he
    exact fun _ => hnodes
  · exact hcompiles e (mem_placed.mpr he)

end Document

theorem Catalog.ofText_of_read {text : String} {d : Document} (h : Document.read text = .ok d) :
    ofText text = d.toCatalog := by
  rw [ofText, h]
  rfl

theorem Catalog.ofText_eq_ok_iff {text : String} {result : Catalog × List Warning} :
    ofText text = .ok result ↔ ∃ d, Document.read text = .ok d ∧ d.toCatalog = .ok result := by
  rw [ofText, bind_eq_ok_iff]
  simp only [mapError_eq_ok_iff]

/-- A text has no catalog because it is no document, or because of what the document says. -/
theorem Catalog.ofText_eq_error_iff {text : String} {fault : LoadFault} :
    ofText text = .error fault ↔
      (∃ failure, Document.read text = .error failure ∧ .malformed failure = fault) ∨
        ∃ d, Document.read text = .ok d ∧ d.toCatalog = .error fault := by
  cases hread : Document.read text with
  | error failure =>
    rw [ofText, hread]
    constructor
    · intro h
      cases h
      exact .inl ⟨failure, rfl, rfl⟩
    · rintro (⟨_, ⟨⟩, rfl⟩ | ⟨_, ⟨⟩, _⟩)
      rfl
  | ok d =>
    rw [ofText_of_read hread]
    constructor
    · intro h
      exact .inr ⟨d, rfl, h⟩
    · rintro (⟨_, ⟨⟩, _⟩ | ⟨_, ⟨⟩, h⟩)
      exact h

end Phrasebook
