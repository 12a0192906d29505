import Phrasebook.Text.Position

namespace Phrasebook.Text

/-- The byte offset of the first occurrence of `word`. -/
def find? (word : List Char) : List Char → Option Nat
  | [] => if word.isEmpty then some 0 else none
  | c :: cs =>
    if word.isPrefixOf (c :: cs) then some 0
    else (find? word cs).map (c.utf8Size + ·)

/-- The text from a byte offset on that is a boundary. -/
def dropBytes : Nat → List Char → List Char
  | 0, cs => cs
  | _ + 1, [] => []
  | n + 1, c :: cs => dropBytes (n + 1 - c.utf8Size) cs

/-- The greatest boundary of characters that is not beyond a byte offset. -/
def floorBoundary : List Char → Nat → Nat
  | [], _ => 0
  | c :: cs, offset =>
    if offset < c.utf8Size then 0 else c.utf8Size + floorBoundary cs (offset - c.utf8Size)

end Phrasebook.Text
