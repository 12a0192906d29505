import Phrasebook.Document.AuthoredNode
import Phrasebook.Template.Parser

namespace Phrasebook

/-- What was repaired. -/
inductive Repair where
  | droppedUnknown
  | wrappedInItem
deriving DecidableEq, Repr

namespace AuthoredNode

mutual

/-- The template node of an authored node, if its type is known, and what was repaired. The first
string in reading order that is no template is the fault. -/
def compile : AuthoredNode → Except Template.Fault (Option TemplateNode × List Repair)
  | .text content children styles => do
    let content ← Template.parse content
    let (children, repairs) ← compileAll children
    return (some (.text content children styles), repairs)
  | .link href content children styles name => do
    let href ← Template.parse href
    let content ← Template.parse content
    let (children, repairs) ← compileAll children
    return (some (.link href content children styles name), repairs)
  | .item children => do
    let (children, repairs) ← compileAll children
    return (some (.item children), repairs)
  | .list kind children => do
    let (items, repairs) ← compileItems children
    return (some (.list kind items), repairs)
  | .unknown => return (none, [.droppedUnknown])

def compileAll : List AuthoredNode → Except Template.Fault (List TemplateNode × List Repair)
  | [] => .ok ([], [])
  | node :: nodes => do
    let (compiled, repairs) ← compile node
    let (others, more) ← compileAll nodes
    return (compiled.toList ++ others, repairs ++ more)

/-- The children of the items of a list. -/
def compileItems :
    List AuthoredNode → Except Template.Fault (List (List TemplateNode) × List Repair)
  | [] => .ok ([], [])
  | .item children :: nodes => do
    let (children, repairs) ← compileAll children
    let (items, more) ← compileItems nodes
    return (children :: items, repairs ++ more)
  | node :: nodes => do
    let (compiled, repairs) ← compile node
    let (items, more) ← compileItems nodes
    match compiled with
    | none => return (items, repairs ++ more)
    | some compiled => return ([compiled] :: items, repairs ++ .wrappedInItem :: more)

end

end AuthoredNode

end Phrasebook
