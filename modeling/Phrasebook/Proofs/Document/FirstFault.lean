import Phrasebook.Proofs.Document.Entries
import Phrasebook.Proofs.Document.Strings
import Phrasebook.Proofs.Text.ByteOrder

namespace Phrasebook

namespace Document

/-- The fault of an entry: that of its first string that is no template, if its locale is
declared. -/
def Placed.fault? (r : Roster) (e : Placed) : Option LoadFault :=
  if r.declares e.locale then
    (Template.firstFault (AuthoredNode.stringsAll e.nodes)).map (.template e.key e.locale)
  else none

theorem fault?_addEntry (e : Placed) (c : Catalog) :
    fault? (addEntry e.key e.locale e.nodes c) = e.fault? c.roster := by
  rw [addEntry, Placed.fault?, ← AuthoredNode.fault?_compileAll]
  split
  · cases AuthoredNode.compileAll e.nodes <;> rfl
  · rfl

theorem fault?_addAll (es : List Placed) (c : Catalog) :
    fault? (addAll es c) = es.findSome? (Placed.fault? c.roster) := by
  induction es generalizing c with
  | nil => rfl
  | cons e es ih =>
    have hrest : ∀ first, addEntry e.key e.locale e.nodes c = .ok first →
        fault? (addAll es first.1) = es.findSome? (Placed.fault? c.roster) := by
      intro first hfirst
      obtain ⟨-, rfl⟩ := addEntry_eq_ok_iff.mp hfirst
      rw [ih, e.roster_place]
    have hcons : fault? (addAll (e :: es) c) =
        (e.fault? c.roster).or (es.findSome? (Placed.fault? c.roster)) := by
      rw [addAll, ← fault?_addEntry]
      apply fault?_bind
      intro first hfirst
      exact (fault?_bind_of_ok fun _ => ⟨_, rfl⟩).trans (hrest first hfirst)
    rw [hcons, List.findSome?_cons]
    cases e.fault? c.roster <;> rfl

theorem fault?_toCatalog {d : Document} {r : Roster} (hroster : Roster.ofList d.locales = .ok r) :
    fault? d.toCatalog = d.placed.findSome? (Placed.fault? r) := by
  have hphrases : fault? (addPhrases d.phrases.entries (d.bare r)) =
      d.placed.findSome? (Placed.fault? r) := by
    rw [addPhrases_eq, fault?_addAll]
    rfl
  rw [toCatalog, hroster]
  exact (fault?_bind_of_ok fun _ => ⟨_, rfl⟩).trans hphrases

/-- What stands before an entry of a sorted row comes first in it. -/
theorem Placed.mem_before {before after : List Placed} {e e' : Placed}
    (hsorted : (before ++ e :: after).Pairwise Placed.Before) (hmem : e' ∈ before ++ e :: after)
    (h : e'.Before e) : e' ∈ before := by
  obtain hbefore | hmem := List.mem_append.mp hmem
  · exact hbefore
  · obtain rfl | hafter := List.mem_cons.mp hmem
    · exact absurd h h.asymm
    · have hlater := (List.pairwise_cons.mp (List.pairwise_append.mp hsorted).2.1).1 e' hafter
      exact absurd h hlater.asymm

/-- A string of an entry for a declared locale. -/
structure Site (d : Document) (r : Roster) where
  key : String
  locale : String
  nodes : List AuthoredNode
  /-- The strings of the entry that are read before it. -/
  before : List String
  string : String
  after : List String
  found : d.find? key locale = some nodes
  declared : r.declares locale = true
  split : AuthoredNode.stringsAll nodes = before ++ string :: after

namespace Site

variable {d : Document} {r : Roster}

/-- Reading order: by key, then by locale code, both compared byte by byte, then as the strings
stand in the entry. -/
def Precedes (s t : Site d r) : Prop :=
  Text.bytes s.key < Text.bytes t.key ∨
    s.key = t.key ∧ (Text.bytes s.locale < Text.bytes t.locale ∨
      s.locale = t.locale ∧ s.before.length < t.before.length)

/-- The string is a template. -/
def Parses (s : Site d r) : Prop := ∃ template, Template.parse s.string = .ok template

def entry (s : Site d r) : Placed := ⟨s.key, s.locale, s.nodes⟩

theorem entry_mem (s : Site d r) : s.entry ∈ d.placed := mem_placed.mpr s.found

theorem parses_iff (s : Site d r) : s.Parses ↔ fault? (Template.parse s.string) = none :=
  fault?_eq_none_iff.symm

theorem parses_of_fault?_eq_none {s : Site d r} (h : s.entry.fault? r = none) : s.Parses := by
  have hdeclared : r.declares s.entry.locale = true := s.declared
  rw [Placed.fault?, if_pos hdeclared, Option.map_eq_none_iff,
    Template.firstFault_eq_none_iff] at h
  apply h
  show s.string ∈ AuthoredNode.stringsAll s.nodes
  rw [s.split]
  exact List.mem_append_right _ List.mem_cons_self

theorem nodes_eq {s t : Site d r} (hkey : s.key = t.key) (hlocale : s.locale = t.locale) :
    s.nodes = t.nodes := by
  have hs := s.found
  rw [hkey, hlocale, t.found] at hs
  exact (Option.some.inj hs).symm

/-- Of two places in one entry, the one with fewer strings before it is read before the other. -/
theorem string_mem_before {s t : Site d r} (hkey : s.key = t.key) (hlocale : s.locale = t.locale)
    (h : s.before.length < t.before.length) : s.string ∈ t.before := by
  have hsplit := s.split
  rw [nodes_eq hkey hlocale, t.split] at hsplit
  have hget : (t.before ++ t.string :: t.after)[s.before.length]? = some s.string := by
    rw [hsplit]
    simp
  rw [List.getElem?_append_left h] at hget
  exact List.mem_of_getElem? hget

theorem string_eq {s t : Site d r} (hkey : s.key = t.key) (hlocale : s.locale = t.locale)
    (h : s.before.length = t.before.length) : s.string = t.string := by
  have hsplit := s.split
  rw [nodes_eq hkey hlocale, t.split] at hsplit
  obtain ⟨-, hcons⟩ := List.append_inj hsplit h.symm
  exact (List.cons.inj hcons).1.symm

theorem precedes_trichotomy (s t : Site d r) :
    s.Precedes t ∨ t.Precedes s ∨ s.key = t.key ∧ s.locale = t.locale ∧ s.string = t.string := by
  simp only [Precedes, Text.bytes_lt_iff]
  obtain hkey | hkey | hkey := Std.lt_trichotomy s.key t.key
  · exact .inl (.inl hkey)
  · obtain hlocale | hlocale | hlocale := Std.lt_trichotomy s.locale t.locale
    · exact .inl (.inr ⟨hkey, .inl hlocale⟩)
    · obtain hlength | hlength | hlength := Nat.lt_trichotomy s.before.length t.before.length
      · exact .inl (.inr ⟨hkey, .inr ⟨hlocale, hlength⟩⟩)
      · exact .inr (.inr ⟨hkey, hlocale, string_eq hkey hlocale hlength⟩)
      · exact .inr (.inl (.inr ⟨hkey.symm, .inr ⟨hlocale.symm, hlength⟩⟩))
    · exact .inr (.inl (.inr ⟨hkey.symm, .inl hlocale⟩))
  · exact .inr (.inl (.inl hkey))

/-- The first string that is no template, with its fault. -/
structure IsFirstFault (s : Site d r) (fault : Template.Fault) : Prop where
  here : Template.parse s.string = .error fault
  first : ∀ t : Site d r, t.Precedes s → t.Parses

theorem IsFirstFault.unique {s t : Site d r} {fault fault' : Template.Fault}
    (hs : s.IsFirstFault fault) (ht : t.IsFirstFault fault') :
    s.key = t.key ∧ s.locale = t.locale ∧ fault = fault' := by
  obtain h | h | ⟨hkey, hlocale, hstring⟩ := precedes_trichotomy s t
  · obtain ⟨template, hparse⟩ := ht.first s h
    rw [hs.here] at hparse
    cases hparse
  · obtain ⟨template, hparse⟩ := hs.first t h
    rw [ht.here] at hparse
    cases hparse
  · have hsame := hs.here
    rw [hstring, ht.here] at hsame
    cases hsame
    exact ⟨hkey, hlocale, rfl⟩

end Site

/-- What keeps a document from being a catalog is the first string that is no template. -/
theorem exists_firstFault {d : Document} {r : Roster}
    (hroster : Roster.ofList d.locales = .ok r) {loadFault : LoadFault}
    (h : d.toCatalog = .error loadFault) :
    ∃ (s : Site d r) (fault : Template.Fault),
      loadFault = .template s.key s.locale fault ∧ s.IsFirstFault fault := by
  rw [← fault?_eq_some_iff, fault?_toCatalog hroster, List.findSome?_eq_some_iff] at h
  obtain ⟨before, e, after, hplaced, he, hbefore⟩ := h
  have hmem : e ∈ d.placed := by
    rw [hplaced]
    exact List.mem_append_right _ List.mem_cons_self
  rw [Placed.fault?] at he
  split at he
  · next hdeclared =>
    obtain ⟨fault, hfault, rfl⟩ := Option.map_eq_some_iff.mp he
    obtain ⟨strings, string, rest, hstrings, hparse, hearlier⟩ :=
      List.findSome?_eq_some_iff.mp hfault
    let site : Site d r :=
      ⟨e.key, e.locale, e.nodes, strings, string, rest, mem_placed.mp hmem, hdeclared, hstrings⟩
    refine ⟨site, fault, rfl, fault?_eq_some_iff.mp hparse, ?_⟩
    intro t ht
    have hother : t.entry.Before e → t.Parses := by
      intro hbeforeEntry
      have hsorted := d.pairwise_placed
      have htmem := t.entry_mem
      rw [hplaced] at hsorted htmem
      exact Site.parses_of_fault?_eq_none
        (hbefore _ (Placed.mem_before hsorted htmem hbeforeEntry))
    simp only [Site.Precedes, Text.bytes_lt_iff] at ht
    obtain hkey | ⟨hkey, hlocale | ⟨hlocale, hlength⟩⟩ := ht
    · exact hother (.inl hkey)
    · exact hother (.inr ⟨hkey, hlocale⟩)
    · exact t.parses_iff.mpr (hearlier _ (Site.string_mem_before hkey hlocale hlength))
  · cases he

theorem exists_toCatalog_iff {d : Document} {r : Roster}
    (hroster : Roster.ofList d.locales = .ok r) :
    (∃ result, d.toCatalog = .ok result) ↔ ∀ s : Site d r, s.Parses := by
  rw [← fault?_eq_none_iff, fault?_toCatalog hroster, List.findSome?_eq_none_iff]
  constructor
  · intro h s
    exact Site.parses_of_fault?_eq_none (h _ s.entry_mem)
  · intro h e he
    rw [Placed.fault?]
    split
    · next hdeclared =>
      rw [Option.map_eq_none_iff, Template.firstFault_eq_none_iff]
      intro string hstring
      obtain ⟨before, after, hsplit⟩ := List.append_of_mem hstring
      exact h ⟨e.key, e.locale, e.nodes, before, string, after, mem_placed.mp he, hdeclared, hsplit⟩
    · rfl

/-- A document whose locales make up a roster has a catalog if all strings of its entries for
declared locales are templates, whatever its other entries hold. If not, the fault is that of the
first string that is none, under its key and locale code. -/
theorem template_fault_iff_first {d : Document} {r : Roster}
    (hroster : Roster.ofList d.locales = .ok r) :
    ((∃ result, d.toCatalog = .ok result) ↔ ∀ s : Site d r, s.Parses) ∧
    ((∃ key locale fault, d.toCatalog = .error (.template key locale fault)) ↔
      ∃ (s : Site d r) (fault : Template.Fault), Template.parse s.string = .error fault) ∧
    ∀ key locale fault, d.toCatalog = .error (.template key locale fault) ↔
      ∃ s : Site d r, s.key = key ∧ s.locale = locale ∧ s.IsFirstFault fault := by
  have hfails : ∀ loadFault, d.toCatalog = .error loadFault →
      ∃ (s : Site d r) (fault : Template.Fault), loadFault = .template s.key s.locale fault ∧
        s.IsFirstFault fault := fun _ h => exists_firstFault hroster h
  have hbad : ∀ (s : Site d r) (fault : Template.Fault), Template.parse s.string = .error fault →
      ∃ loadFault, d.toCatalog = .error loadFault := by
    intro s fault hparse
    cases hcatalog : d.toCatalog with
    | error loadFault => exact ⟨loadFault, rfl⟩
    | ok result =>
      obtain ⟨template, htemplate⟩ := (exists_toCatalog_iff hroster).mp ⟨result, hcatalog⟩ s
      rw [hparse] at htemplate
      cases htemplate
  refine ⟨exists_toCatalog_iff hroster, ?_, ?_⟩
  · constructor
    · intro h
      obtain ⟨key, locale, fault, h⟩ := h
      obtain ⟨s, fault', -, hfirst⟩ := hfails _ h
      exact ⟨s, fault', hfirst.here⟩
    · intro h
      obtain ⟨s, fault, hparse⟩ := h
      obtain ⟨loadFault, hcatalog⟩ := hbad s fault hparse
      obtain ⟨t, fault', rfl, -⟩ := hfails _ hcatalog
      exact ⟨_, _, _, hcatalog⟩
  · intro key locale fault
    constructor
    · intro h
      obtain ⟨s, fault', hfault, hfirst⟩ := hfails _ h
      cases hfault
      exact ⟨s, rfl, rfl, hfirst⟩
    · intro h
      obtain ⟨s, rfl, rfl, hfirst⟩ := h
      obtain ⟨loadFault, hcatalog⟩ := hbad s fault hfirst.here
      obtain ⟨t, fault', rfl, hfirst'⟩ := hfails _ hcatalog
      obtain ⟨hkey, hlocale, rfl⟩ := hfirst.unique hfirst'
      rw [hcatalog, hkey, hlocale]

/-- Bad strings under an undeclared locale, in a node of unknown type, in the content and the child
of a link and under a later key. -/
def memo : Document where
  locales := [{ code := "EN", name := "English", isDefault := true }]
  phrases := Dict.ofList
    [("c", Dict.ofList [("EN", [.text "\x7d" [] {}])]),
      ("b", Dict.ofList
        [("EN", [.unknown, .text "b" [.link "/" "ab\x7d" [.text "\x7d" [] {}] {} none] {}]),
          ("FR", [.text "\x7d" [] {}])]),
      ("a", Dict.ofList [("EN", [.text "a" [] {}]), ("FR", [.text "\x7d" [] {}])])]

theorem template_fault_iff_first_memo :
    ∃ r, Roster.ofList memo.locales = .ok r ∧
      memo.toCatalog = .error (.template "b" "EN" ⟨⟨1, 3⟩, '\x7d'⟩) ∧
      ∃ s : Site memo r, s.key = "b" ∧ s.locale = "EN" ∧ s.IsFirstFault ⟨⟨1, 3⟩, '\x7d'⟩ := by
  obtain ⟨r, hroster⟩ : ∃ r, Roster.ofList memo.locales = .ok r :=
    fault?_eq_none_iff.mp (by decide +kernel)
  have hcatalog : memo.toCatalog = .error (.template "b" "EN" ⟨⟨1, 3⟩, '\x7d'⟩) :=
    fault?_eq_some_iff.mp (by decide +kernel)
  exact ⟨r, hroster, hcatalog, ((template_fault_iff_first hroster).2.2 _ _ _).mp hcatalog⟩

end Document

end Phrasebook
