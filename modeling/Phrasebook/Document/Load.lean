import Phrasebook.Catalog.Lint
import Phrasebook.Document.Basic
import Phrasebook.Document.Repair

namespace Phrasebook

/-- Why a file has no text. -/
inductive FileFault where
  | absent
  | notUtf8
deriving DecidableEq, Repr

def FileFault.message : FileFault → String
  | .absent => "No such file or directory (os error 2)"
  | .notUtf8 => "stream did not contain valid UTF-8"

/-- Why there is no catalog. -/
inductive LoadFault where
  | unreadable (path : String) (fault : FileFault)
  | malformed (failure : Json.Failure)
  | template (key locale : String) (fault : Template.Fault)
  | roster (fault : RosterFault)
  | noSource
deriving DecidableEq, Repr

/-- A position as line and column. -/
def Text.Position.text (p : Text.Position) : String :=
  Nat.repr p.line ++ ":" ++ Nat.repr p.column

def LoadFault.message : LoadFault → String
  | .unreadable path fault => "failed to read '" ++ path ++ "': " ++ fault.message
  | .malformed failure =>
    "invalid document at " ++ failure.position.text ++ ": " ++ failure.message
  | .template key locale fault =>
    "phrase '" ++ key ++ "' (" ++ locale ++ "): template error at " ++ fault.position.text ++ ": "
      ++ fault.detail
  | .roster fault => fault.message
  | .noSource => "cannot reload: store was not loaded from a file"

/-- The warning of a repair in an entry. -/
def Repair.warning (key locale : String) : Repair → Warning
  | .droppedUnknown => .unknownKind key locale
  | .wrappedInItem => .nonItemInList key locale

namespace Document

/-- Adds one authored entry; an entry for an undeclared locale is left out. -/
def addEntry (key locale : String) (nodes : List AuthoredNode) (c : Catalog) :
    Except LoadFault (Catalog × List Warning) :=
  if c.roster.declares locale then
    match AuthoredNode.compileAll nodes with
    | .error fault => .error (.template key locale fault)
    | .ok (compiled, repairs) =>
      .ok (c.insert key locale (.template compiled), repairs.map (Repair.warning key locale))
  else .ok (c, [.undeclaredEntry key locale])

/-- Adds the authored entries of a key. -/
def addEntries (key : String) :
    List (String × List AuthoredNode) → Catalog → Except LoadFault (Catalog × List Warning)
  | [], c => .ok (c, [])
  | (locale, nodes) :: entries, c => do
    let (c, warnings) ← addEntry key locale nodes c
    let (c, more) ← addEntries key entries c
    return (c, warnings ++ more)

/-- Adds authored phrases. -/
def addPhrases :
    List (String × Dict (List AuthoredNode)) → Catalog → Except LoadFault (Catalog × List Warning)
  | [], c => .ok (c, [])
  | (key, entries) :: phrases, c => do
    let (c, warnings) ← addEntries key entries.entries c
    let (c, more) ← addPhrases phrases c
    return (c, warnings ++ more)

/-- The catalog of a document, with the warnings of reading it and of the catalog itself. Keys and
codes are taken in ascending order, whatever their order in the text. -/
def toCatalog (d : Document) : Except LoadFault (Catalog × List Warning) := do
  let roster ← (Roster.ofList d.locales).mapError .roster
  let start : Catalog :=
    { roster := roster, repositoryId := d.repositoryId, version := d.version }
  let (c, warnings) ← addPhrases d.phrases.entries start
  let c := { c with debugInfo := d.debugInfo }
  return (c, warnings ++ c.lint)

end Document

namespace Catalog

/-- The catalog of a document's text, with all warnings. -/
def ofText (text : String) : Except LoadFault (Catalog × List Warning) := do
  let document ← (Document.read text).mapError .malformed
  document.toCatalog

/-- The catalog of a document that was read from a file. -/
def ofFile (path : String) (content : Except FileFault String) :
    Except LoadFault (Catalog × List Warning) := do
  let text ← content.mapError (.unreadable path)
  ofText text

end Catalog

end Phrasebook
