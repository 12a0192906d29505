import Phrasebook.Render.Line
import Phrasebook.Render.Rich

namespace Phrasebook

namespace RichNode

def isList : RichNode → Bool
  | .list .. => true
  | _ => false

mutual

/-- The visible text of a node. -/
def visible : RichNode → String
  | .text s => s
  | .lineBreak => "\n"
  | .mark _ children => visibleAll children
  | .anchor _ _ _ children => visibleAll children
  | .item children => Line.finish (visibleItem "" children)
  | .list _ items => visibleItems items
  | .overlay _ _ children => visibleAll children

/-- The visible text of a row of nodes. -/
def visibleAll : List RichNode → String
  | [] => ""
  | n :: ns => visible n ++ visibleAll ns

/-- The text of an item that begins with `out`; a list in it begins on a line of its own. -/
def visibleItem (out : String) : List RichNode → String
  | [] => out
  | n :: ns => visibleItem ((if n.isList then Line.start out else out) ++ visible n) ns

/-- The items of a list after their labels. -/
def visibleItems : List (String × List RichNode) → String
  | [] => ""
  | (label, children) :: items => label ++ " " ++ visibleAll children ++ visibleItems items

end

end RichNode

/-- The text that a reader sees. -/
def visibleText (nodes : List RichNode) : String := RichNode.visibleAll nodes

end Phrasebook
