import Phrasebook.Document.Repair
import Phrasebook.Proofs.Except

namespace Phrasebook

/-- The fault of the first string that is no template. -/
def Template.firstFault (strings : List String) : Option Fault :=
  strings.findSome? fun s => fault? (parse s)

theorem Template.firstFault_cons (s : String) (strings : List String) :
    firstFault (s :: strings) = (fault? (parse s)).or (firstFault strings) := by
  rw [firstFault, List.findSome?_cons]
  cases fault? (parse s) <;> rfl

theorem Template.firstFault_append (strings strings' : List String) :
    firstFault (strings ++ strings') = (firstFault strings).or (firstFault strings') :=
  List.findSome?_append

theorem Template.firstFault_eq_none_iff {strings : List String} :
    firstFault strings = none ↔ ∀ s ∈ strings, ∃ t, parse s = .ok t := by
  rw [firstFault, List.findSome?_eq_none_iff]
  simp only [fault?_eq_none_iff]

namespace AuthoredNode

mutual

/-- The strings that are templates, in reading order: the target of a link comes before its content,
and both come before the strings of the children. A node of unknown type has none. -/
def strings : AuthoredNode → List String
  | .text content children _ => content :: stringsAll children
  | .link href content children _ _ => href :: content :: stringsAll children
  | .item children => stringsAll children
  | .list _ children => stringsAll children
  | .unknown => []

def stringsAll : List AuthoredNode → List String
  | [] => []
  | node :: nodes => strings node ++ stringsAll nodes

end

open Template

theorem fault?_compile_item (children : List AuthoredNode) :
    fault? (compile (.item children)) = fault? (compileAll children) := by
  rw [compile]
  exact fault?_bind_of_ok fun _ => ⟨_, rfl⟩

mutual

theorem fault?_compile : ∀ node : AuthoredNode, fault? node.compile = firstFault node.strings
  | .text content children styles => by
    rw [compile, strings, firstFault_cons]
    apply fault?_bind
    intro t _
    exact (fault?_bind_of_ok fun _ => ⟨_, rfl⟩).trans (fault?_compileAll children)
  | .link href content children styles name => by
    rw [compile, strings, firstFault_cons, firstFault_cons]
    apply fault?_bind
    intro t _
    apply fault?_bind
    intro u _
    exact (fault?_bind_of_ok fun _ => ⟨_, rfl⟩).trans (fault?_compileAll children)
  | .item children => by
    rw [fault?_compile_item, strings, fault?_compileAll children]
  | .list kind children => by
    rw [compile, strings]
    exact (fault?_bind_of_ok fun _ => ⟨_, rfl⟩).trans (fault?_compileItems children)
  | .unknown => rfl

theorem fault?_compileAll : ∀ nodes : List AuthoredNode,
    fault? (compileAll nodes) = firstFault (stringsAll nodes)
  | [] => rfl
  | node :: nodes => by
    rw [compileAll, stringsAll, firstFault_append, ← fault?_compile node]
    apply fault?_bind
    intro result _
    exact (fault?_bind_of_ok fun _ => ⟨_, rfl⟩).trans (fault?_compileAll nodes)

theorem fault?_compileItems : ∀ nodes : List AuthoredNode,
    fault? (compileItems nodes) = firstFault (stringsAll nodes)
  | [] => rfl
  | node :: nodes => by
    have hnodes := fault?_compileItems nodes
    rw [stringsAll, firstFault_append, ← fault?_compile node]
    by_cases hitem : ∃ children, node = .item children
    · obtain ⟨children, rfl⟩ := hitem
      rw [compileItems, fault?_compile_item]
      apply fault?_bind
      intro result _
      exact (fault?_bind_of_ok fun _ => ⟨_, rfl⟩).trans hnodes
    · rw [compileItems.eq_3 _ _ fun children h => hitem ⟨children, h⟩]
      apply fault?_bind
      intro result _
      refine (fault?_bind_of_ok fun _ => ?_).trans hnodes
      cases result.1 with
      | none => exact ⟨_, rfl⟩
      | some compiled => exact ⟨_, rfl⟩

end

theorem exists_compileAll_iff {nodes : List AuthoredNode} :
    (∃ result, compileAll nodes = .ok result) ↔ ∀ s ∈ stringsAll nodes, ∃ t, parse s = .ok t := by
  rw [← fault?_eq_none_iff, fault?_compileAll, firstFault_eq_none_iff]

end AuthoredNode

end Phrasebook
