import Phrasebook.DebugInfo
import Phrasebook.Locale
import Phrasebook.Template.Instance

namespace Phrasebook

/-- The content of a phrase in one locale: an authored template, or code. -/
inductive Entry where
  | template (nodes : List TemplateNode)
  | code (run : Bindings → List Node)

/-- The nodes of an entry for one call. -/
def Entry.instantiate (b : Bindings) : Entry → Except BindingFault (List Node)
  | .template nodes => TemplateNode.instantiateAll b nodes
  | .code run => .ok (run b)

/-- Localized phrases. Entries are found by key, then by locale code; an entry may stand under a
code that is not declared. -/
structure Catalog where
  roster : Roster
  repositoryId : Option String := none
  version : Option String := none
  phrases : Dict (Dict Entry) := .empty
  debugInfo : Dict DebugInfo := .empty

namespace Catalog

/-- A catalog without phrases. -/
def ofLocales (locales : List Locale) : Except RosterFault Catalog :=
  return { roster := ← Roster.ofList locales }

/-- Adds or replaces the entry of a key in a locale. -/
def insert (c : Catalog) (key locale : String) (entry : Entry) : Catalog :=
  let entries := (c.phrases.find? key).getD .empty
  { c with phrases := c.phrases.insert key (entries.insert locale entry) }

/-- Adds or replaces the debug info of a key. -/
def insertDebugInfo (c : Catalog) (key : String) (info : DebugInfo) : Catalog :=
  { c with debugInfo := c.debugInfo.insert key info }

def find? (c : Catalog) (key locale : String) : Option Entry := do
  (← c.phrases.find? key).find? locale

/-- All keys, in ascending order. -/
def keys (c : Catalog) : List String := c.phrases.keys

/-- The keys with an entry in a locale, in ascending order. -/
def keysFor (c : Catalog) (locale : String) : List String :=
  c.keys.filter fun key => (c.find? key locale).isSome

theorem find?_insert (c : Catalog) (key locale : String) (entry : Entry) (k l : String) :
    (c.insert key locale entry).find? k l
      = if k = key ∧ l = locale then some entry else c.find? k l := by
  by_cases hk : k = key
  · subst hk
    by_cases hl : l = locale
    · simp [find?, insert, Dict.find?_insert, hl]
    · cases h : c.phrases.find? k <;> simp [find?, insert, Dict.find?_insert, hl, h]
  · simp [find?, insert, Dict.find?_insert, hk]

end Catalog

end Phrasebook
