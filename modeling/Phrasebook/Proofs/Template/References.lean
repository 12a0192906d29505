import Phrasebook.Catalog.Lookup
import Phrasebook.Proofs.Except

namespace Phrasebook

/-- A placeholder at its place, which is a link target or a content. -/
structure Reference where
  name : String
  inHref : Bool
deriving DecidableEq, Repr

namespace Reference

/-- The name has a value, and in a link target that is no fragment. -/
structure Fits (b : Bindings) (ref : Reference) : Prop where
  bound : ∃ value, b.find? ref.name = some value
  noFragment : ref.inHref = true → ∀ nodes, b.find? ref.name ≠ some (.fragment nodes)

/-- What is wrong with a placeholder. -/
inductive Misfit (b : Bindings) (ref : Reference) : BindingFault → Prop
  | unbound (h : b.find? ref.name = none) : Misfit b ref (.unbound ref.name)
  | fragment (nodes : List Node) (place : ref.inHref = true)
      (h : b.find? ref.name = some (.fragment nodes)) : Misfit b ref (.fragmentInHref ref.name)

def misfit? (b : Bindings) (ref : Reference) : Option BindingFault :=
  match b.find? ref.name, ref.inHref with
  | none, _ => some (.unbound ref.name)
  | some (.fragment _), true => some (.fragmentInHref ref.name)
  | some _, _ => none

/-- The first thing that is wrong with a row of placeholders. -/
def firstMisfit (b : Bindings) (refs : List Reference) : Option BindingFault :=
  refs.findSome? (misfit? b)

variable {b : Bindings} {ref : Reference}

theorem misfit?_eq_none_iff : ref.misfit? b = none ↔ ref.Fits b := by
  constructor
  · intro h
    cases hfind : b.find? ref.name with
    | none => simp [misfit?, hfind] at h
    | some value =>
      refine ⟨⟨value, hfind⟩, ?_⟩
      intro place nodes hfragment
      simp [misfit?, hfragment, place] at h
  · intro h
    obtain ⟨value, hfind⟩ := h.bound
    rw [misfit?]
    split
    · next hnone =>
      rw [hnone] at hfind
      cases hfind
    · next nodes hfragment place => exact absurd hfragment (h.noFragment place nodes)
    · rfl

theorem misfit?_eq_some_iff {fault : BindingFault} :
    ref.misfit? b = some fault ↔ ref.Misfit b fault := by
  constructor
  · intro h
    rw [misfit?] at h
    split at h
    · next hfind =>
      cases h
      exact .unbound hfind
    · next hfind hplace =>
      cases h
      exact .fragment _ hplace hfind
    · cases h
  · intro h
    cases h with
    | unbound h => simp [misfit?, h]
    | fragment nodes place h => simp [misfit?, h, place]

theorem firstMisfit_cons (refs : List Reference) :
    firstMisfit b (ref :: refs) = (ref.misfit? b).or (firstMisfit b refs) := by
  rw [firstMisfit, List.findSome?_cons]
  cases ref.misfit? b <;> rfl

theorem firstMisfit_append (refs refs' : List Reference) :
    firstMisfit b (refs ++ refs') = (firstMisfit b refs).or (firstMisfit b refs') :=
  List.findSome?_append

theorem firstMisfit_eq_none_iff {refs : List Reference} :
    firstMisfit b refs = none ↔ ∀ ref ∈ refs, ref.Fits b := by
  rw [firstMisfit, List.findSome?_eq_none_iff]
  simp only [misfit?_eq_none_iff]

theorem firstMisfit_eq_some_iff {refs : List Reference} {fault : BindingFault} :
    firstMisfit b refs = some fault ↔
      ∃ before ref after, refs = before ++ ref :: after ∧ ref.Misfit b fault ∧
        ∀ earlier ∈ before, earlier.Fits b := by
  rw [firstMisfit, List.findSome?_eq_some_iff]
  simp only [misfit?_eq_none_iff, misfit?_eq_some_iff]

end Reference

open Reference

namespace Template

/-- The placeholders of a template at a place. -/
def references (inHref : Bool) (t : Template) : List Reference := t.names.map (⟨·, inHref⟩)

variable (b : Bindings)

theorem fault?_ofSegment (name : String) :
    fault? (Piece.ofSegment b (.placeholder name)) = misfit? b ⟨name, false⟩ := by
  rw [Piece.ofSegment, misfit?]
  cases b.find? name with
  | none => rfl
  | some value => cases value <;> rfl

theorem fault?_hrefPart (name : String) :
    fault? (hrefPart b (.placeholder name)) = misfit? b ⟨name, true⟩ := by
  rw [hrefPart, misfit?]
  cases b.find? name with
  | none => rfl
  | some value => cases value <;> rfl

theorem fault?_ofSegments (segments : List Segment) :
    fault? (Piece.ofSegments b segments) = firstMisfit b (references false ⟨segments⟩) := by
  induction segments with
  | nil => rfl
  | cons segment segments ih =>
    rw [Piece.ofSegments, fault?_both, ih]
    cases segment with
    | literal s => rfl
    | placeholder name =>
      rw [fault?_ofSegment]
      exact (firstMisfit_cons _).symm

theorem fault?_hrefOf (segments : List Segment) :
    fault? (hrefOf b segments) = firstMisfit b (references true ⟨segments⟩) := by
  induction segments with
  | nil => rfl
  | cons segment segments ih =>
    rw [hrefOf, fault?_both, ih]
    cases segment with
    | literal s => rfl
    | placeholder name =>
      rw [fault?_hrefPart]
      exact (firstMisfit_cons _).symm

theorem fault?_content (t : Template) (styles : Styles) :
    fault? (t.content styles b) = firstMisfit b (t.references false) := by
  rw [content]
  exact (fault?_bind_of_ok fun _ => ⟨_, rfl⟩).trans (fault?_ofSegments b t.segments)

theorem fault?_href (t : Template) : fault? (t.href b) = firstMisfit b (t.references true) :=
  fault?_hrefOf b t.segments

end Template

namespace TemplateNode

/-- The placeholders of the node's own strings, the target of a link before its content. -/
def references : TemplateNode → List Reference
  | .text content _ _ => content.references false
  | .link href content _ _ _ => href.references true ++ content.references false
  | .item _ => []
  | .list _ _ => []

/-- The placeholders of a tree in the order of a walk. -/
def referencesAll (nodes : List TemplateNode) : List Reference :=
  (walkAll nodes).flatMap references

variable (b : Bindings)

mutual

theorem fault?_instantiate : ∀ node : TemplateNode,
    fault? (node.instantiate b) = firstMisfit b (node.walk.flatMap references)
  | .text content children styles => by
    rw [instantiate, walk, List.flatMap_cons, references, firstMisfit_append,
      ← Template.fault?_content b content styles, ← fault?_instantiateAll children]
    apply fault?_bind
    intro result _
    exact fault?_bind_of_ok fun _ => ⟨_, rfl⟩
  | .link href content children styles name => by
    rw [instantiate, walk, List.flatMap_cons, references, List.append_assoc, firstMisfit_append,
      firstMisfit_append, ← Template.fault?_href, ← Template.fault?_content b content styles,
      ← fault?_instantiateAll children]
    apply fault?_bind
    intro target _
    apply fault?_bind
    intro result _
    exact fault?_bind_of_ok fun _ => ⟨_, rfl⟩
  | .item children => by
    rw [instantiate, walk, List.flatMap_cons, references, List.nil_append,
      ← fault?_instantiateAll children]
    exact fault?_bind_of_ok fun _ => ⟨_, rfl⟩
  | .list kind items => by
    rw [instantiate, walk, List.flatMap_cons, references, List.nil_append,
      ← fault?_instantiateItems items]
    exact fault?_bind_of_ok fun _ => ⟨_, rfl⟩

theorem fault?_instantiateAll : ∀ nodes : List TemplateNode,
    fault? (instantiateAll b nodes) = firstMisfit b ((walkAll nodes).flatMap references)
  | [] => rfl
  | node :: nodes => by
    rw [instantiateAll, fault?_both, fault?_instantiate node, fault?_instantiateAll nodes, walkAll,
      List.flatMap_append, firstMisfit_append]

theorem fault?_instantiateItems : ∀ items : List (List TemplateNode),
    fault? (instantiateItems b items) = firstMisfit b ((walkItems items).flatMap references)
  | [] => rfl
  | children :: items => by
    rw [instantiateItems, fault?_both, fault?_instantiateAll children,
      fault?_instantiateItems items, walkItems, List.flatMap_append, firstMisfit_append]

end

end TemplateNode

/-- A template entry has nodes for a call exactly if each of its placeholders has a value, and those
in link targets no fragment. If not, the fault is that of the first placeholder in the order of a
walk that lacks a value or has a fragment in a link target, under its name. -/
theorem Entry.invoke_fails_at_first_misfit (nodes : List TemplateNode) (key : String)
    (b : Bindings) :
    ((∃ result, (Entry.template nodes).invoke key b = .ok result) ↔
      ∀ ref ∈ TemplateNode.referencesAll nodes, ref.Fits b) ∧
    ∀ fault, (Entry.template nodes).invoke key b = .error fault ↔
      ∃ before ref after cause, TemplateNode.referencesAll nodes = before ++ ref :: after ∧
        (∀ earlier ∈ before, earlier.Fits b) ∧ ref.Misfit b cause ∧
        fault = .binding key cause := by
  have hfirst := TemplateNode.fault?_instantiateAll b nodes
  constructor
  · simp only [invoke, mapError_eq_ok_iff]
    rw [instantiate, ← fault?_eq_none_iff, hfirst]
    exact firstMisfit_eq_none_iff
  · intro fault
    have hcause : ∀ cause, TemplateNode.instantiateAll b nodes = .error cause ↔
        ∃ before ref after, TemplateNode.referencesAll nodes = before ++ ref :: after ∧
          ref.Misfit b cause ∧ ∀ earlier ∈ before, earlier.Fits b := by
      intro cause
      rw [← fault?_eq_some_iff, hfirst]
      exact firstMisfit_eq_some_iff
    rw [invoke, mapError_eq_error_iff]
    simp only [instantiate, hcause]
    constructor
    · intro h
      obtain ⟨cause, ⟨before, ref, after, hsplit, hmisfit, hfits⟩, rfl⟩ := h
      exact ⟨before, ref, after, cause, hsplit, hfits, hmisfit, rfl⟩
    · intro h
      obtain ⟨before, ref, after, cause, hsplit, hfits, hmisfit, rfl⟩ := h
      exact ⟨cause, ⟨before, ref, after, hsplit, hmisfit, hfits⟩, rfl⟩

end Phrasebook
