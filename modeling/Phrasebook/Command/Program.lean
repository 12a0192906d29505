import Phrasebook.Command.Check
import Phrasebook.Command.CoverageReport
import Phrasebook.Command.Phrase

namespace Phrasebook.Program

def version : String := "glossa 0.1.0"

def help : String :=
  "Phrase content document tools\n\nUsage: glossa [OPTIONS] <COMMAND>\n\nCommands:\n"
    ++ "  check     Load documents and report lint warnings\n"
    ++ "  coverage  Tabulate direct, fallback and unresolved phrases per locale\n"
    ++ "  render    Resolve one phrase and print its rich markup or plain text\n"
    ++ "  help      Print this message"

/-- The documents that an invocation reads. -/
def paths (i : Invocation) : List String :=
  match i.command with
  | .check options => options.files
  | .coverage options => [options.document]
  | .render options => [options.document]

/-- Runs what was asked for. -/
def execute (files : String → Except FileFault String) (i : Invocation) : Outcome :=
  match i.command with
  | .check options => Check.run files options i.verbose
  | .coverage options => CoverageReport.run files options
  | .render options => Phrase.run files options i.verbose

/-- The end of a run whose arguments ask for nothing to be done. -/
def interrupted : Interrupt → Outcome
  | .help => .print help
  | .version => .print version
  | .fault fault => { Outcome.report ("error: " ++ fault.message) with code := Outcome.badUsage }

/-- Runs the program; the files are told beforehand. -/
def run (files : String → Except FileFault String) (args : List String)
    (env : String → Option String) : Outcome :=
  match Invocation.parse args env with
  | .error i => interrupted i
  | .ok i => execute files i

end Phrasebook.Program
