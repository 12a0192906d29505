import Phrasebook.Template

namespace Phrasebook

/-- Doubles every brace. -/
def doubleBraces : List Char → List Char
  | [] => []
  | '\x7b' :: cs => '\x7b' :: '\x7b' :: doubleBraces cs
  | '\x7d' :: cs => '\x7d' :: '\x7d' :: doubleBraces cs
  | c :: cs => c :: doubleBraces cs

def Segment.print : Segment → List Char
  | .literal text => doubleBraces text.toList
  | .placeholder name => '\x7b' :: '$' :: name.toList ++ ['\x7d']

/-- The template as a text. -/
def Template.print (t : Template) : String :=
  String.ofList (t.segments.flatMap Segment.print)

end Phrasebook
