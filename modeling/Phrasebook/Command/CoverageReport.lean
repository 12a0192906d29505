import Phrasebook.Command.Grid
import Phrasebook.Command.Invocation
import Phrasebook.Command.Outcome
import Phrasebook.Coverage
import Phrasebook.Json.Printer

namespace Phrasebook.CoverageReport

open Json

def header : List String := ["Locale", "Coverage", "Via fallback", "Missing"]

def row (total : Nat) (c : Coverage) : List String :=
  [if c.isDefault then c.locale ++ " (default)" else c.locale,
   Nat.repr c.translated ++ "/" ++ Nat.repr total,
   Nat.repr c.viaFallback,
   Nat.repr c.missing.length]

/-- The missing keys of a locale, if there are any. -/
def missingList (c : Coverage) : String :=
  if c.missing.isEmpty then ""
  else
    "\nMissing in " ++ c.locale ++ ":\n" ++ String.join (c.missing.map fun key =>
      "  - " ++ key ++ (if c.unresolved.contains key then " (unresolved)" else "") ++ "\n")

def text (total : Nat) (coverages : List Coverage) : String :=
  Grid.render header (coverages.map (row total)) ++ "\n" ++ String.join (coverages.map missingList)

def keysContent (keys : List String) : Content := .seq (keys.map .string)

def content (total : Nat) (c : Coverage) : Content :=
  .map [("locale", .string c.locale), ("translated", .integer c.translated),
    ("via_fallback", .integer c.viaFallback), ("total", .integer total),
    ("missing", keysContent c.missing), ("unresolved", keysContent c.unresolved)]

/-- What the run prints. -/
def report (options : CoverageOptions) (total : Nat) (coverages : List Coverage) : String :=
  if options.json then (Content.seq (coverages.map (content total))).pretty ++ "\n"
  else text total coverages

/-- The codes to report. -/
def codes (c : Catalog) (options : CoverageOptions) : List String :=
  if options.locales.isEmpty then c.roster.codes else options.locales

def run (files : String → Except FileFault String) (options : CoverageOptions) : Outcome :=
  match Diagnostic.load options.document (files options.document) with
  | .error d => .failed d
  | .ok (c, _) =>
    let coverages := (codes c options).map c.coverage
    let lacking := coverages.any fun c => !c.unresolved.isEmpty
    { code := if options.strict && lacking then Outcome.dataProblem else 0,
      out := report options c.keys.length coverages }

end Phrasebook.CoverageReport
