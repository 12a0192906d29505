import Phrasebook.Render.Line
import Phrasebook.Render.Renderer

namespace Phrasebook.Plain

/-- The text of an item after some of its children. -/
def addChild (out : String) (child : Node × String) : String :=
  (if child.1.isList then Line.start out else out) ++ child.2

def item (children : List (Node × String)) : String :=
  Line.finish (children.foldl addChild "")

/-- The items of a list after their labels. -/
def list (kind : ListKind) (items : List String) : String :=
  String.join (items.mapIdx fun i item => kind.label i ++ " " ++ item)

def renderer : Renderer String where
  join := String.join
  text content _ children := content ++ children
  link head children := head.content ++ children
  item := item
  list := list

def render (nodes : List Node) : String := renderer.render nodes

end Phrasebook.Plain
