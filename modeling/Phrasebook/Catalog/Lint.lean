import Phrasebook.Catalog

namespace Phrasebook

inductive Warning where
  | unknownKind (key locale : String)
  | nonItemInList (key locale : String)
  | undeclaredEntry (key locale : String)
  | undeclaredFallback (locale fallback : String)
  | missingInDefault (key locale : String)
  | missingDebugInfo (key : String)
deriving DecidableEq, Repr

def Warning.message : Warning → String
  | .unknownKind key locale =>
    "phrase '" ++ key ++ "' (" ++ locale ++ "): dropped node of unknown type"
  | .nonItemInList key locale =>
    "phrase '" ++ key ++ "' (" ++ locale ++ "): list child is not 'li', wrapped in an item"
  | .undeclaredEntry key locale =>
    "phrase '" ++ key ++ "': entry for undeclared locale '" ++ locale ++ "' skipped"
  | .undeclaredFallback locale fallback =>
    "locale '" ++ locale ++ "' falls back to undeclared locale '" ++ fallback ++ "'"
  | .missingInDefault key locale =>
    "phrase '" ++ key ++ "' has no entry in global default locale '" ++ locale ++ "'"
  | .missingDebugInfo key => "phrase '" ++ key ++ "' has no debug info"

namespace Catalog

/-- The warning that a locale falls back to none that is declared. -/
def lintLocale (c : Catalog) (l : Locale) : List Warning :=
  match l.fallback with
  | none => []
  | some code => if c.roster.declares code then [] else [.undeclaredFallback l.code code]

/-- The warnings of a key. -/
def lintKey (c : Catalog) (key : String) : List Warning :=
  let home := c.roster.home.code
  (if (c.find? key home).isSome then [] else [.missingInDefault key home])
    ++ (if c.debugInfo.contains key then [] else [.missingDebugInfo key])

/-- The warnings of a catalog: those of its locales as declared, then those of its keys. -/
def lint (c : Catalog) : List Warning :=
  c.roster.locales.flatMap c.lintLocale ++ c.keys.flatMap c.lintKey

end Catalog

end Phrasebook
