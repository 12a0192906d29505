import Phrasebook.Decimal.Layout
import Phrasebook.Json.Content
import Phrasebook.Text.Position
import Phrasebook.Text.Quoted

namespace Phrasebook.Json

/-- What is wrong. -/
inductive Cause where
  | endInList
  | endInObject
  | endInString
  | endInValue
  | noColon
  | noCommaOrListEnd
  | noCommaOrObjectEnd
  | badKeyword
  | noValue
  | badEscape
  | badNumber
  | numberOutOfRange
  | controlCharacter
  | keyNotString
  | loneSurrogate
  | halfSurrogatePair
  | trailingComma
  | trailingCharacters
  | tooDeep
  | wrongType (found : Found) (expected : String)
  | wrongLength (length : Nat) (expected : String)
  | wrongIndex (index : Int) (bound : Nat)
  | unknownVariant (name : String) (known : List String)
  | missingField (name : String)
  | duplicateField (name : String)
deriving DecidableEq, Repr

def Found.text : Found → String
  | .null => "null"
  | .bool b => "boolean `" ++ (if b then "true" else "false") ++ "`"
  | .integer n => "integer `" ++ toString n ++ "`"
  | .float x => "floating point `" ++ NumberLayout.fault.write x ++ "`"
  | .string s => "string " ++ Text.quoted s
  | .seq => "sequence"
  | .map => "map"

/-- A name between grave accents. -/
def ticked (name : String) : String := "`" ++ name ++ "`"

/-- The cause in words. -/
def Cause.message : Cause → String
  | .endInList => "EOF while parsing a list"
  | .endInObject => "EOF while parsing an object"
  | .endInString => "EOF while parsing a string"
  | .endInValue => "EOF while parsing a value"
  | .noColon => "expected `:`"
  | .noCommaOrListEnd => "expected `,` or `]`"
  | .noCommaOrObjectEnd => "expected `,` or `\x7d`"
  | .badKeyword => "expected ident"
  | .noValue => "expected value"
  | .badEscape => "invalid escape"
  | .badNumber => "invalid number"
  | .numberOutOfRange => "number out of range"
  | .controlCharacter => "control character (\\u0000-\\u001F) found while parsing a string"
  | .keyNotString => "key must be a string"
  | .loneSurrogate => "lone leading surrogate in hex escape"
  | .halfSurrogatePair => "unexpected end of hex escape"
  | .trailingComma => "trailing comma"
  | .trailingCharacters => "trailing characters"
  | .tooDeep => "recursion limit exceeded"
  | .wrongType found expected => "invalid type: " ++ found.text ++ ", expected " ++ expected
  | .wrongLength length expected =>
    "invalid length " ++ Nat.repr length ++ ", expected " ++ expected
  | .wrongIndex index bound =>
    "invalid value: " ++ (Found.integer index).text ++ ", expected variant index 0 <= i < "
      ++ Nat.repr bound
  | .unknownVariant name known =>
    "unknown variant " ++ ticked name ++ ", expected one of "
      ++ String.intercalate ", " (known.map ticked)
  | .missingField name => "missing field " ++ ticked name
  | .duplicateField name => "duplicate field " ++ ticked name

/-- A fault while reading: its cause, and how many bytes of the text lie after its place. -/
structure Fault where
  cause : Cause
  left : Nat
deriving DecidableEq, Repr

namespace Fault

/-- A fault in front of `rest`. -/
def here (cause : Cause) (rest : List Char) : Fault := ⟨cause, Text.byteLength rest⟩

/-- A fault at the first byte of `rest`, or at the end of the text. -/
def next (cause : Cause) (rest : List Char) : Fault := ⟨cause, Text.byteLength rest - 1⟩

end Fault

/-- A fault with its place in the text that was read. -/
structure Failure where
  cause : Cause
  position : Text.Position
deriving DecidableEq, Repr

/-- The fault in words, with its place. -/
def Failure.message (f : Failure) : String :=
  f.cause.message ++ " at line " ++ Nat.repr f.position.line ++ " column "
    ++ Nat.repr f.position.column

/-- Finds the place of a fault in the whole text. -/
def Fault.locate (fault : Fault) (text : List Char) : Failure :=
  ⟨fault.cause, Text.Position.ofOffset text (Text.byteLength text - fault.left)⟩

end Phrasebook.Json
