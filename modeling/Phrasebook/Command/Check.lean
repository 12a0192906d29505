import Phrasebook.Command.Invocation
import Phrasebook.Command.Outcome
import Phrasebook.Json.Printer

namespace Phrasebook.Check

open Json

/-- The summary of a document, as a line. -/
def summary (path : String) (c : Catalog) (warnings : List Warning) : String :=
  highlight .green "ok" ++ " " ++ path ++ " (" ++ Nat.repr c.roster.locales.length ++ " locales, "
    ++ Nat.repr c.keys.length ++ " phrases, " ++ Nat.repr warnings.length ++ " warnings)"

/-- The summary of a document, as JSON. -/
def report (path : String) (c : Catalog) (warnings : List Warning) : Content :=
  .map [("file", .string path), ("locales", .integer c.roster.locales.length),
    ("phrases", .integer c.keys.length),
    ("warnings", .seq (warnings.map fun w => .string w.message))]

/-- What has been found in the documents checked so far. -/
structure Findings where
  outcome : Outcome := {}
  reports : List Content := []
  anyWarning : Bool := false

/-- Checks one more document. -/
def add (json verbose : Bool) (path : String) (c : Catalog) (warnings : List Warning)
    (f : Findings) : Findings :=
  let anyWarning := f.anyWarning || !warnings.isEmpty
  if json then
    { f with reports := f.reports ++ [report path c warnings], anyWarning := anyWarning }
  else
    let told := f.outcome.andThen (.warnings path warnings)
    let outcome :=
      if verbose || warnings.isEmpty then told.andThen (.print (summary path c warnings))
      else told
    { f with outcome := outcome, anyWarning := anyWarning }

/-- Checks documents one after the other, up to the first that cannot be loaded. -/
def all (files : String → Except FileFault String) (json verbose : Bool) :
    List String → Findings → Except Outcome Findings
  | [], f => .ok f
  | path :: paths, f =>
    match Diagnostic.load path (files path) with
    | .error d => .error (f.outcome.andThen (.failed d))
    | .ok (c, warnings) => all files json verbose paths (add json verbose path c warnings f)

def run (files : String → Except FileFault String) (options : CheckOptions) (verbose : Bool) :
    Outcome :=
  match all files options.json verbose options.files {} with
  | .error outcome => outcome
  | .ok f =>
    let told :=
      if options.json then f.outcome.andThen (.print (Content.seq f.reports).pretty)
      else f.outcome
    { told with code := if options.strict && f.anyWarning then Outcome.dataProblem else 0 }

end Phrasebook.Check
