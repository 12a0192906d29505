import Phrasebook.Render.Rich

namespace Phrasebook

/-- A link of a rich tree, without its children. -/
structure Anchor where
  href : String
  name : Option String
  action : LinkAction
deriving DecidableEq, Repr

/-- What comes of activating a link. -/
inductive Activation where
  | navigate (href : String)
  | opened
deriving DecidableEq, Repr

namespace Anchor

def activate (a : Anchor) : Activation :=
  match a.action with
  | .navigate => .navigate a.href
  | .intercept => .opened

/-- The targets that the opener gets when the links are activated one after the other. -/
def opened (anchors : List Anchor) : List String :=
  anchors.filterMap fun a => if a.action = .intercept then some a.href else none

end Anchor

namespace RichNode

mutual

/-- The links of a node, each before those inside it. -/
def anchors : RichNode → List Anchor
  | .text _ => []
  | .lineBreak => []
  | .mark _ children => anchorsAll children
  | .anchor href name action children => ⟨href, name, action⟩ :: anchorsAll children
  | .item children => anchorsAll children
  | .list _ items => anchorsItems items
  | .overlay _ _ children => anchorsAll children

def anchorsAll : List RichNode → List Anchor
  | [] => []
  | n :: ns => anchors n ++ anchorsAll ns

def anchorsItems : List (String × List RichNode) → List Anchor
  | [] => []
  | (_, children) :: items => anchorsAll children ++ anchorsItems items

end

end RichNode

end Phrasebook
