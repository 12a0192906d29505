import Phrasebook.Command.Program

namespace Phrasebook

/-- What is in a file. -/
def readDocument (path : String) : IO (Except FileFault String) := do
  try
    let bytes ← IO.FS.readBinFile path
    match String.fromUTF8? bytes with
    | some text => return .ok text
    | none => return .error .notUtf8
  catch _ => return .error .absent

end Phrasebook

open Phrasebook in
def main (args : List String) : IO UInt32 := do
  let color ← IO.getEnv Invocation.colorVariable
  let locale ← IO.getEnv Invocation.localeVariable
  let env (name : String) : Option String :=
    if name = Invocation.colorVariable then color
    else if name = Invocation.localeVariable then locale
    else none
  let paths := match Invocation.parse args env with
    | .ok invocation => Program.paths invocation
    | .error _ => []
  let files ← paths.mapM fun path => return (path, ← readDocument path)
  let outcome := Program.run (fun path => (files.lookup path).getD (.error .absent)) args env
  IO.print outcome.out
  IO.eprint outcome.err
  return outcome.code.toUInt32
