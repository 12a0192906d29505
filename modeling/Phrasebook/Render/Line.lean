namespace Phrasebook.Line

/-- Whether a text ends with a line feed. -/
def isEnded (out : String) : Bool := out.toList.getLast? == some '\n'

/-- Goes to the start of a line, unless there. -/
def start (out : String) : String :=
  if out.isEmpty || isEnded out then out else out ++ "\n"

/-- Ends the line, unless it has just been ended. -/
def finish (out : String) : String :=
  if isEnded out then out else out ++ "\n"

end Phrasebook.Line
