import Phrasebook.Command.Invocation
import Phrasebook.Command.Outcome
import Phrasebook.Json.Printer
import Phrasebook.Render.Markup
import Phrasebook.Render.Plain
import Phrasebook.Catalog.Lookup
import Phrasebook.Store

namespace Phrasebook.Phrase

open Json

/-- The values of a call from its parameters; of two with one name the later one counts. -/
def bindings (params : List (String × String)) : Bindings :=
  Dict.ofList (params.map fun (name, raw) => (name, Value.ofArgument raw))

/-- The rendered phrase. -/
def output (options : RenderOptions) (r : Catalog.Resolution) : String :=
  if options.plain then Plain.render r.nodes
  else markup (Rich.render Rich.renderer options.debug r.debugInfo r.nodes)

/-- Tells that a locale asked for is not declared. -/
def localeWarning (c : Catalog) : Option String → Outcome
  | none => {}
  | some code =>
    if c.roster.declares code then {}
    else .report (highlight .yellow "warning" ++ ": locale '" ++ code
      ++ "' is not declared, using '" ++ c.roster.home.code ++ "'")

/-- The end of a run whose phrase cannot be resolved. -/
def unresolved (json : Bool) (fault : ResolveFault) : Outcome :=
  let line :=
    if json then (Content.map [("error", .string fault.message)]).pretty
    else highlight .red "error" ++ ": " ++ fault.message
  { Outcome.report line with code := Outcome.dataProblem }

/-- The end of a run that resolved a phrase while `selected` was the locale. -/
def resolved (options : RenderOptions) (verbose : Bool) (selected : String)
    (r : Catalog.Resolution) : Outcome :=
  let out := output options r
  if options.json then
    .print (Content.map [("key", .string options.key), ("locale", .string r.locale),
      ("output", .string out)]).pretty
  else
    let note : Outcome :=
      if verbose && r.locale != selected then
        .report ("resolved from fallback locale '" ++ r.locale ++ "'")
      else {}
    note.andThen (.print out)

/-- The store of a run: the locale asked for is selected if it is declared. -/
def store (c : Catalog) (options : RenderOptions) : Store := Store.ofCatalog c options.locale

/-- The phrase asked for. -/
def resolution (c : Catalog) (options : RenderOptions) :
    Except ResolveFault Catalog.Resolution :=
  (store c options).resolve options.key (bindings options.params)

/-- What a run tells before it resolves the phrase. -/
def told (c : Catalog) (warnings : List Warning) (options : RenderOptions) (verbose : Bool) :
    Outcome :=
  let told : Outcome := if verbose then .warnings options.document warnings else {}
  told.andThen (localeWarning c options.locale)

def run (files : String → Except FileFault String) (options : RenderOptions) (verbose : Bool) :
    Outcome :=
  match Diagnostic.load options.document (files options.document) with
  | .error d => .failed d
  | .ok (c, warnings) =>
    let told := told c warnings options verbose
    match resolution c options with
    | .error fault => told.andThen (unresolved options.json fault)
    | .ok r => told.andThen (resolved options verbose (store c options).selected r)

end Phrasebook.Phrase
