import Phrasebook.Render.Rich

namespace Phrasebook

/-- A character in text or in an attribute. -/
def escapedMarkup (c : Char) : String :=
  match c with
  | '&' => "&amp;"
  | '<' => "&lt;"
  | '>' => "&gt;"
  | '"' => "&quot;"
  | c => String.singleton c

def escapeMarkup (s : String) : String := String.join (s.toList.map escapedMarkup)

/-- An attribute after a blank. -/
def markupAttribute (name value : String) : String :=
  " " ++ name ++ "=\"" ++ escapeMarkup value ++ "\""

namespace RichNode

mutual

/-- The markup of a node. -/
def markup : RichNode → String
  | .text s => escapeMarkup s
  | .lineBreak => "<br>"
  | .mark m children => "<" ++ m.tag ++ ">" ++ markupAll children ++ "</" ++ m.tag ++ ">"
  | .anchor href name action children =>
    "<a" ++ markupAttribute "href" href
      ++ (match name with
        | none => ""
        | some name => markupAttribute "name" name)
      ++ (match action with
        | .navigate => ""
        | .intercept => " data-intercept")
      ++ ">" ++ markupAll children ++ "</a>"
  | .item children => "<li>" ++ markupAll children ++ "</li>"
  | .list kind items => "<" ++ kind.tag ++ ">" ++ markupItems items ++ "</" ++ kind.tag ++ ">"
  | .overlay info _ children =>
    "<debug" ++ markupAttribute "group" info.group ++ markupAttribute "key" info.key ++ ">"
      ++ markupAll children ++ "</debug>"

/-- The markup of a row of nodes. -/
def markupAll : List RichNode → String
  | [] => ""
  | n :: ns => markup n ++ markupAll ns

/-- The markup of the items of a list; labels are left to the list element. -/
def markupItems : List (String × List RichNode) → String
  | [] => ""
  | (_, children) :: items => markupAll children ++ markupItems items

end

end RichNode

/-- The markup of a rich tree. -/
def markup (nodes : List RichNode) : String := RichNode.markupAll nodes

end Phrasebook
