import Phrasebook.Document.Diagnostic

namespace Phrasebook

structure Outcome where
  code : Nat := 0
  out : String := ""
  err : String := ""
deriving DecidableEq, Repr

namespace Outcome

/-- The exit code of a run that found problems in the data. -/
def dataProblem : Nat := 65

/-- The exit code of a run without a catalog. -/
def noCatalog : Nat := 70

/-- The exit code of a run with arguments it does not understand. -/
def badUsage : Nat := 2

/-- Two runs, one after the other; the code is that of the second. -/
def andThen (first second : Outcome) : Outcome :=
  ⟨second.code, first.out ++ second.out, first.err ++ second.err⟩

def print (line : String) : Outcome := { out := line ++ "\n" }

def report (line : String) : Outcome := { err := line ++ "\n" }

/-- The end of a run whose document cannot be loaded. -/
def failed (d : Diagnostic) : Outcome := { report ("Error: " ++ d.message) with code := noCatalog }

end Outcome

/-- Colors of highlighted words, by their terminal codes. -/
inductive Color where
  | red
  | green
  | yellow
deriving DecidableEq, Repr

def Color.code : Color → String
  | .red => "31"
  | .green => "32"
  | .yellow => "33"

/-- A word in bold and in color. -/
def highlight (color : Color) (word : String) : String :=
  "\x1b[1m\x1b[" ++ color.code ++ "m" ++ word ++ "\x1b[39m\x1b[0m"

/-- Reports warnings of a document, one a line. -/
def Outcome.warnings (path : String) (warnings : List Warning) : Outcome :=
  { err := String.join (warnings.map fun w =>
      highlight .yellow "warning" ++ ": " ++ path ++ ": " ++ w.message ++ "\n") }

end Phrasebook
