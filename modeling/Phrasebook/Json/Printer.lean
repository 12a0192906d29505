import Phrasebook.Decimal.Layout
import Phrasebook.Json.Content
import Phrasebook.Text.Quoted

namespace Phrasebook.Json

/-- A character inside a string. Only quotes, backslashes and controls are escaped. -/
def escapedChar (c : Char) : String :=
  match c with
  | '"' => "\\\""
  | '\\' => "\\\\"
  | '\x08' => "\\b"
  | '\x0c' => "\\f"
  | '\n' => "\\n"
  | '\r' => "\\r"
  | '\t' => "\\t"
  | c =>
    if c.toNat < 0x10 then "\\u000" ++ Text.hexDigits c.toNat
    else if c.toNat < 0x20 then "\\u00" ++ Text.hexDigits c.toNat
    else String.singleton c

/-- A string with its quotes. -/
def quote (s : String) : String :=
  "\"" ++ String.join (s.toList.map escapedChar) ++ "\""

/-- A value that is no container. -/
def writeScalar : Content → String
  | .null => "null"
  | .bool b => if b then "true" else "false"
  | .integer n => toString n
  | .float x => NumberLayout.fault.write x
  | .string s => quote s
  | .seq _ => "[]"
  | .map _ => "\x7b\x7d"

mutual

/-- Writes a value on one line. -/
def Content.compact : Content → String
  | .seq items => "[" ++ compactItems items ++ "]"
  | .map members => "\x7b" ++ compactMembers members ++ "\x7d"
  | value => writeScalar value

/-- The elements of a list, between commas. -/
def Content.compactItems : List Content → String
  | [] => ""
  | [item] => item.compact
  | item :: items => item.compact ++ "," ++ compactItems items

/-- The members of an object, between commas. -/
def Content.compactMembers : List (String × Content) → String
  | [] => ""
  | [(key, value)] => quote key ++ ":" ++ value.compact
  | (key, value) :: members => quote key ++ ":" ++ value.compact ++ "," ++ compactMembers members

end

/-- A new line, indented. -/
def newLine (depth : Nat) : String := "\n" ++ String.ofList (List.replicate (2 * depth) ' ')

mutual

/-- Writes a value over lines, `depth` levels in. Empty containers stay on one line. -/
def Content.prettyAt (depth : Nat) : Content → String
  | .seq [] => "[]"
  | .seq (item :: items) =>
    "[" ++ prettyItems (depth + 1) (item :: items) ++ newLine depth ++ "]"
  | .map [] => "\x7b\x7d"
  | .map (member :: members) =>
    "\x7b" ++ prettyMembers (depth + 1) (member :: members) ++ newLine depth ++ "\x7d"
  | value => writeScalar value

def Content.prettyItems (depth : Nat) : List Content → String
  | [] => ""
  | [item] => newLine depth ++ item.prettyAt depth
  | item :: items => newLine depth ++ item.prettyAt depth ++ "," ++ prettyItems depth items

def Content.prettyMembers (depth : Nat) : List (String × Content) → String
  | [] => ""
  | [(key, value)] => newLine depth ++ quote key ++ ": " ++ value.prettyAt depth
  | (key, value) :: members =>
    newLine depth ++ quote key ++ ": " ++ value.prettyAt depth ++ "," ++ prettyMembers depth members

end

/-- Writes a value over lines. -/
def Content.pretty (value : Content) : String := value.prettyAt 0

end Phrasebook.Json
