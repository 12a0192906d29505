import Phrasebook.Render.Rich

namespace Phrasebook

/-- What a pointer does to an overlay. -/
inductive PointerEvent where
  | enter
  | leave
  | click
  | touch
  | close
deriving DecidableEq, Repr

/-- Whether the panel is shown after an event, whatever it was before. -/
def PointerEvent.shows : PointerEvent → Bool
  | .enter | .click | .touch => true
  | .leave | .close => false

namespace RichNode

/-- Delivers an event. -/
def handle (e : PointerEvent) : RichNode → RichNode
  | .overlay info _ children => .overlay info e.shows children
  | node => node

/-- What the panel of an overlay shows. -/
def panel? : RichNode → Option DebugInfo
  | .overlay info true _ => some info
  | _ => none

end RichNode

/-- A phrase on display: the switch for debug mode and the latest output. -/
structure Display where
  debug : Bool
  latest : List RichNode

/-- What can be done to a display. -/
inductive DisplayStep where
  | enable
  | disable
  | toggle
  /-- Renders the phrase as the switch says. -/
  | render
  /-- Puts an overlay around the phrase whatever the switch says. -/
  | wrap
  | event (e : PointerEvent)
deriving DecidableEq, Repr

/-- The display after a step. Events go to the first node of the latest output. -/
def Display.step (info : DebugInfo) (nodes : List Node) (d : Display) : DisplayStep → Display
  | .enable => { d with debug := true }
  | .disable => { d with debug := false }
  | .toggle => { d with debug := !d.debug }
  | .render => { d with latest := Rich.render Rich.renderer d.debug info nodes }
  | .wrap => { d with latest := Rich.render Rich.renderer true info nodes }
  | .event e =>
    match d.latest with
    | [] => d
    | node :: rest => { d with latest := node.handle e :: rest }

end Phrasebook
