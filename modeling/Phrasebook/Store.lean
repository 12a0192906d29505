import Phrasebook.Catalog.Lookup
import Phrasebook.Document.Load

namespace Phrasebook

/-- What subscribers are told. -/
inductive Event where
  | replaced (version : Option String)
  | selected (locale : String)
deriving DecidableEq, Repr

/-- An event as one subscriber got it. -/
structure Delivery where
  subscriber : String
  event : Event
deriving DecidableEq, Repr

structure Store where
  catalog : Catalog
  selected : String
  source : Option String := none
  /-- In order of registration. -/
  subscribers : List String := []

/-- What became of a pushed document. -/
inductive UpdateResult where
  | replaced (warnings : List Warning)
  | unchanged
  | foreign (expected : String) (received : Option String)
deriving DecidableEq, Repr

namespace Store

/-- The code selected when `code` is asked for: itself if declared, or else the global default. -/
def selection (c : Catalog) (code : String) : String :=
  if c.roster.declares code then code else c.roster.home.code

/-- A store over a catalog. The preferred locale is selected if it is declared. -/
def ofCatalog (c : Catalog) (preferred : Option String) : Store where
  catalog := c
  selected := match preferred with
    | some code => selection c code
    | none => c.roster.home.code

/-- A store over a document in a file, with the warnings of reading it. -/
def ofFile (path : String) (content : Except FileFault String) (preferred : Option String) :
    Except LoadFault (Store × List Warning) := do
  let (c, warnings) ← Catalog.ofFile path content
  return ({ ofCatalog c preferred with source := some path }, warnings)

/-- An event delivered to all subscribers. -/
def notify (s : Store) (e : Event) : List Delivery :=
  s.subscribers.map (⟨·, e⟩)

def subscribe (s : Store) (name : String) : Store :=
  { s with subscribers := s.subscribers ++ [name] }

/-- Selects a locale, or the global default in place of one that is not declared. -/
def select (s : Store) (code : String) : Store × List Delivery :=
  let s := { s with selected := selection s.catalog code }
  (s, s.notify (.selected s.selected))

/-- Publishes a catalog. The selected locale stays if it is declared there, and else becomes the
global default. -/
def replace (s : Store) (c : Catalog) : Store × List Delivery :=
  let s :=
    { s with
      catalog := c
      selected := if c.roster.declares s.selected then s.selected else c.roster.home.code }
  (s, s.notify (.replaced c.version))

/-- Takes a pushed document. One of another repository and one of the published version are left
aside. -/
def update (s : Store) (text : String) :
    Except LoadFault UpdateResult × Store × List Delivery :=
  match Catalog.ofText text with
  | .error fault => (.error fault, s, [])
  | .ok (c, warnings) =>
    match s.catalog.repositoryId with
    | some expected =>
      if c.repositoryId = some expected then publish c warnings
      else (.ok (.foreign expected c.repositoryId), s, [])
    | none => publish c warnings
where
  publish (c : Catalog) (warnings : List Warning) :
      Except LoadFault UpdateResult × Store × List Delivery :=
    if s.catalog.version.isSome && s.catalog.version == c.version then (.ok .unchanged, s, [])
    else (.ok (.replaced warnings), s.replace c)

/-- Reads the file of the store again; `files` tells what is in a file now. -/
def reload (s : Store) (files : String → Except FileFault String) :
    Except LoadFault (List Warning) × Store × List Delivery :=
  match s.source with
  | none => (.error .noSource, s, [])
  | some path =>
    match Catalog.ofFile path (files path) with
    | .error fault => (.error fault, s, [])
    | .ok (c, warnings) => (.ok warnings, s.replace c)

/-- A phrase in a requested locale. -/
def resolveIn (s : Store) (locale key : String) (b : Bindings) :
    Except ResolveFault Catalog.Resolution :=
  s.catalog.resolution locale key b

/-- A phrase in the selected locale. -/
def resolve (s : Store) (key : String) (b : Bindings) : Except ResolveFault Catalog.Resolution :=
  s.resolveIn s.selected key b

end Store

end Phrasebook
