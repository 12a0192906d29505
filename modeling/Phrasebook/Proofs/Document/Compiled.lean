import Mathlib.Data.List.Forall2
import Phrasebook.Proofs.Document.Repairs

namespace Phrasebook

namespace TemplateNode

mutual

/-- The node and all its descendants without their children, each before those. A list has an item
for each of its items. -/
def pieces : TemplateNode → List TemplateNode
  | .text content children styles => .text content [] styles :: piecesAll children
  | .link href content children styles name =>
    .link href content [] styles name :: piecesAll children
  | .item children => .item [] :: piecesAll children
  | .list kind items => .list kind [] :: piecesItems items

def piecesAll : List TemplateNode → List TemplateNode
  | [] => []
  | node :: nodes => pieces node ++ piecesAll nodes

def piecesItems : List (List TemplateNode) → List TemplateNode
  | [] => []
  | children :: items => .item [] :: piecesAll children ++ piecesItems items

end

end TemplateNode

namespace AuthoredNode

/-- The template node has the kind and the styles of the authored one, its strings read as
templates, and its children one for one. -/
inductive Shows : AuthoredNode → TemplateNode → Prop
  | text {content : String} {t : Template} {children : List AuthoredNode}
      {compiled : List TemplateNode} (styles : Styles) (hcontent : Template.parse content = .ok t)
      (hchildren : List.Forall₂ Shows children compiled) :
      Shows (.text content children styles) (.text t compiled styles)
  | link {href content : String} {u t : Template} {children : List AuthoredNode}
      {compiled : List TemplateNode} (styles : Styles) (name : Option String)
      (hhref : Template.parse href = .ok u) (hcontent : Template.parse content = .ok t)
      (hchildren : List.Forall₂ Shows children compiled) :
      Shows (.link href content children styles name) (.link u t compiled styles name)
  | item {children : List AuthoredNode} {compiled : List TemplateNode}
      (hchildren : List.Forall₂ Shows children compiled) : Shows (.item children) (.item compiled)
  | list {children : List AuthoredNode} {items : List (List TemplateNode)} (kind : ListKind)
      (hitems : List.Forall₂ (fun node item => Shows node (.item item)) children items) :
      Shows (.list kind children) (.list kind items)

mutual

/-- What is compiled without a repair shows what was authored. -/
theorem shows_compile : ∀ {node : AuthoredNode} {template : TemplateNode},
    compile node = .ok (some template, []) → Shows node template
  | .text content children styles, template, h => by
    rw [compile] at h
    obtain ⟨t, hcontent, h⟩ := bind_eq_ok_iff.mp h
    obtain ⟨⟨compiled, own⟩, hchildren, h⟩ := bind_eq_ok_iff.mp h
    cases h
    exact .text styles hcontent (shows_compileAll hchildren)
  | .link href content children styles name, template, h => by
    rw [compile] at h
    obtain ⟨u, hhref, h⟩ := bind_eq_ok_iff.mp h
    obtain ⟨t, hcontent, h⟩ := bind_eq_ok_iff.mp h
    obtain ⟨⟨compiled, own⟩, hchildren, h⟩ := bind_eq_ok_iff.mp h
    cases h
    exact .link styles name hhref hcontent (shows_compileAll hchildren)
  | .item children, template, h => by
    rw [compile] at h
    obtain ⟨⟨compiled, own⟩, hchildren, h⟩ := bind_eq_ok_iff.mp h
    cases h
    exact .item (shows_compileAll hchildren)
  | .list kind children, template, h => by
    rw [compile] at h
    obtain ⟨⟨items, own⟩, hchildren, h⟩ := bind_eq_ok_iff.mp h
    cases h
    exact .list kind (shows_compileItems hchildren)
  | .unknown, template, h => by cases h

theorem shows_compileAll : ∀ {nodes : List AuthoredNode} {compiled : List TemplateNode},
    compileAll nodes = .ok (compiled, []) → List.Forall₂ Shows nodes compiled
  | [], compiled, h => by
    cases h
    exact .nil
  | node :: nodes, compiled, h => by
    obtain ⟨others, more, hothers, ⟨rfl, -, hnone⟩ | ⟨template, own, -, hnode, rfl, hnone⟩⟩ :=
      compileAll_cons_eq_ok h
    · cases hnone
    · obtain ⟨rfl, rfl⟩ := List.nil_eq_append_iff.mp hnone
      exact .cons (shows_compile hnode) (shows_compileAll hothers)

theorem shows_compileItems : ∀ {nodes : List AuthoredNode} {items : List (List TemplateNode)},
    compileItems nodes = .ok (items, []) →
    List.Forall₂ (fun node item => Shows node (.item item)) nodes items
  | [], items, h => by
    cases h
    exact .nil
  | node :: nodes, items, h => by
    obtain ⟨others, more, hothers, hfirst⟩ := compileItems_cons_eq_ok h
    obtain ⟨compiled, own, -, hnode, rfl, hnone⟩ | ⟨rfl, -, hnone⟩ |
      ⟨template, own, -, -, -, -, hnone⟩ := hfirst
    · obtain ⟨rfl, rfl⟩ := List.nil_eq_append_iff.mp hnone
      exact .cons (shows_compile hnode) (shows_compileItems hothers)
    -- A child that is no item leaves a repair, whether it is dropped or wrapped.
    · cases hnone
    · cases (List.nil_eq_append_iff.mp hnone).2

end

mutual

/-- What a template node shows, it shows node by node in reading order. -/
theorem shows_pieces : ∀ {node : AuthoredNode} {template : TemplateNode}, Shows node template →
    List.Forall₂ Shows ((walk node).map bare) template.pieces
  | .text content children styles, _, h => by
    cases h with
    | text _ hcontent hchildren =>
      rw [walk, TemplateNode.pieces]
      exact .cons (.text styles hcontent .nil) (shows_piecesAll hchildren)
  | .link href content children styles name, _, h => by
    cases h with
    | link _ _ hhref hcontent hchildren =>
      rw [walk, TemplateNode.pieces]
      exact .cons (.link styles name hhref hcontent .nil) (shows_piecesAll hchildren)
  | .item children, _, h => by
    cases h with
    | item hchildren =>
      rw [walk, TemplateNode.pieces]
      exact .cons (.item .nil) (shows_piecesAll hchildren)
  | .list kind children, _, h => by
    cases h with
    | list _ hitems =>
      rw [walk, TemplateNode.pieces]
      exact .cons (.list kind .nil) (shows_piecesItems hitems)

theorem shows_piecesAll : ∀ {nodes : List AuthoredNode} {compiled : List TemplateNode},
    List.Forall₂ Shows nodes compiled →
    List.Forall₂ Shows ((walkAll nodes).map bare) (TemplateNode.piecesAll compiled)
  | [], _, h => by
    cases h
    exact .nil
  | node :: nodes, _, h => by
    cases h with
    | cons hnode hnodes =>
      rw [walkAll, TemplateNode.piecesAll, List.map_append]
      exact List.rel_append (shows_pieces hnode) (shows_piecesAll hnodes)

theorem shows_piecesItems : ∀ {nodes : List AuthoredNode} {items : List (List TemplateNode)},
    List.Forall₂ (fun node item => Shows node (.item item)) nodes items →
    List.Forall₂ Shows ((walkAll nodes).map bare) (TemplateNode.piecesItems items)
  | [], _, h => by
    cases h
    exact .nil
  | node :: nodes, _, h => by
    cases h with
    | @cons _ item _ items hnode hnodes =>
      have hpieces := shows_pieces hnode
      rw [TemplateNode.pieces] at hpieces
      rw [walkAll, TemplateNode.piecesItems, List.map_append]
      exact List.rel_append hpieces (shows_piecesItems hnodes)

end

end AuthoredNode

end Phrasebook
