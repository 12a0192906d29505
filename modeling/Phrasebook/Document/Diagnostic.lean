import Phrasebook.Document.Load
import Phrasebook.Text.Search

namespace Phrasebook

/-- A run of bytes with a remark. -/
structure Label where
  offset : Nat
  length : Nat
  text : String
deriving DecidableEq, Repr

/-- A report on a fault. -/
structure Diagnostic where
  message : String
  /-- The kind of the report, if it points into a document. -/
  code : Option String := none
  help : Option String := none
  labels : List Label := []
deriving DecidableEq, Repr

namespace Diagnostic

/-- The byte offset where a line begins, lines being counted from 1; the end of the text if there
are not so many lines. -/
def lineStart : Nat → List Char → Nat
  | 0, _ => 0
  | 1, _ => 0
  | _ + 2, [] => 0
  | n + 2, c :: cs => c.utf8Size + (if c = '\n' then lineStart (n + 1) cs else lineStart (n + 2) cs)

/-- The byte offset of a line and a column, both counted from 1 and clamped to the text, moved
back to where a character begins. -/
def offsetOf (text : List Char) (line column : Nat) : Nat :=
  Text.floorBoundary text (min (lineStart line text + (column - 1)) (Text.byteLength text))

/-- The bytes of the character at an offset; none at the end of the text. -/
def charLength (text : List Char) (offset : Nat) : Nat :=
  match Text.dropBytes offset text with
  | [] => 0
  | c :: _ => c.utf8Size

/-- The place of a phrase's key: its first quoted occurrence after the word `phrases`, or else the
start of the text. -/
def keySpan (text : List Char) (key : String) : Nat × Nat :=
  let quoted := '"' :: key.toList ++ ['"']
  let start := (Text.find? "\"phrases\"".toList text).getD 0
  match Text.find? quoted (Text.dropBytes start text) with
  | some found => (start + found, Text.byteLength quoted)
  | none => (0, 1)

/-- The code of diagnostics that point into a document. -/
def documentCode : String := "glossa::document"

/-- The report on a fault of the document `text` at `path`. -/
def ofFault (path : String) (text : String) : LoadFault → Diagnostic
  | .malformed failure =>
    let offset := offsetOf text.toList failure.position.line failure.position.column
    { message := "invalid document: " ++ failure.message
      code := some documentCode
      labels := [⟨offset, charLength text.toList offset, "here"⟩] }
  | .template key locale fault =>
    let (offset, length) := keySpan text.toList key
    { message := "template error: " ++ fault.detail
      code := some documentCode
      help := some ("the error is at " ++ fault.position.text
        ++ " of the template text; interpolations are written \x7b$name\x7d and literal braces as "
        ++ "\x7b\x7b and \x7d\x7d")
      labels := [⟨offset, length, "in this phrase's " ++ locale ++ " entry"⟩] }
  | fault => { message := path ++ ": " ++ fault.message }

/-- The catalog of a document, or the report on its fault. -/
def load (path : String) (content : Except FileFault String) :
    Except Diagnostic (Catalog × List Warning) :=
  match content with
  | .error fault =>
    .error { message := "Failed to read document " ++ path ++ ": " ++ fault.message }
  | .ok text => (Catalog.ofText text).mapError (ofFault path text)

end Diagnostic

end Phrasebook
