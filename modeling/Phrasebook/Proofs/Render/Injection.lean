import Phrasebook.Catalog.Lookup
import Phrasebook.Proofs.Except
import Phrasebook.Proofs.Render.Outline

namespace Phrasebook

/-- Not empty and without line breaks. -/
def Inline (s : String) : Prop := s ≠ "" ∧ '\n' ∉ s.toList

theorem Inline.sameLines {s t : String} (hs : Inline s) (ht : Inline t) : SameLines s t := by
  constructor
  · rw [List.count_eq_zero_of_not_mem hs.2, List.count_eq_zero_of_not_mem ht.2]
  · simp [hs.1, ht.1]

/-- Each name has the same value in both, or a text on one line in each. -/
def Bindings.Vary (b b' : Bindings) : Prop :=
  ∀ name, b.find? name = b'.find? name ∨
    ∃ s t, b.find? name = some (.text s) ∧ b'.find? name = some (.text t) ∧ Inline s ∧ Inline t

namespace Bindings.Vary

theorem refl (b : Bindings) : b.Vary b := fun _ => .inl rfl

theorem insert {b b' : Bindings} (h : b.Vary b') (name : String) {s t : String} (hs : Inline s)
    (ht : Inline t) : Bindings.Vary (b.insert name (.text s)) (b'.insert name (.text t)) := by
  intro n
  rw [Dict.find?_insert, Dict.find?_insert]
  by_cases hn : n = name
  · rw [if_pos hn, if_pos hn]
    exact .inr ⟨s, t, rfl, rfl, hs, ht⟩
  · rw [if_neg hn, if_neg hn]
    exact h n

end Bindings.Vary

namespace Piece

/-- Texts with the same lines, or one fragment. -/
inductive Similar : Piece → Piece → Prop
  | text {s t : String} (h : SameLines s t) : Similar (.text s) (.text t)
  | fragment (nodes : List Node) : Similar (.fragment nodes) (.fragment nodes)

theorem Similar.refl : ∀ piece : Piece, Similar piece piece
  | .text s => .text (SameLines.refl s)
  | .fragment nodes => .fragment nodes

theorem outline_spill (styles : Styles) {pending pending' : Option String}
    (hpending : Option.Rel SameLines pending pending') {pieces pieces' : List Piece}
    (h : List.Forall₂ Similar pieces pieces') :
    Rich.outline (spill styles pending pieces) = Rich.outline (spill styles pending' pieces') := by
  -- the text that is pending when a fragment comes, or at the end
  have htext : ∀ {pending pending'}, Option.Rel SameLines pending pending' →
      Rich.outline (textNode styles pending) = Rich.outline (textNode styles pending') := by
    intro pending pending' hpending
    cases hpending with
    | none => rfl
    | some hs =>
      rw [textNode, textNode, Rich.outline_cons, Rich.outline_cons, Node.styled, Node.styled,
        Rich.bare_node_text, Rich.bare_node_text, Rich.bare_wrap_content styles hs]
  induction h generalizing pending pending' with
  | nil => exact htext hpending
  | cons hpiece _ ih =>
    cases hpiece with
    | text hs =>
      apply ih
      cases hpending with
      | none => exact .some ((SameLines.refl "").append hs)
      | some hs' => exact .some (hs'.append hs)
    | fragment nodes =>
      rw [spill, spill, Rich.outline_append, Rich.outline_append, htext hpending, ih .none,
        Rich.outline_append, Rich.outline_append]

theorem outline_lead (styles : Styles) {content content' : String}
    (hcontent : SameLines content content') {pieces pieces' : List Piece}
    (h : List.Forall₂ Similar pieces pieces') :
    SameLines (lead styles content pieces).1 (lead styles content' pieces').1 ∧
      Rich.outline (lead styles content pieces).2 =
        Rich.outline (lead styles content' pieces').2 := by
  induction h generalizing content content' with
  | nil => exact ⟨hcontent, rfl⟩
  | cons hpiece hpieces ih =>
    cases hpiece with
    | text hs => exact ih (hcontent.append hs)
    | fragment nodes =>
      cases nodes with
      | nil => exact ih hcontent
      | cons node nodes =>
        refine ⟨hcontent, ?_⟩
        rw [lead, lead, Rich.outline_append, Rich.outline_append,
          outline_spill styles .none hpieces]

end Piece

section Calls

variable {b b' : Bindings}

theorem Piece.ofSegment_vary (h : b.Vary b') (segment : Segment) :
    SameOutcome Similar (ofSegment b segment) (ofSegment b' segment) := by
  cases segment with
  | literal s => exact .value (.refl _)
  | placeholder name =>
    rw [ofSegment, ofSegment]
    rcases h name with heq | ⟨s, t, hs, ht, hins, hint⟩
    · rw [heq]
      exact .refl Similar.refl _
    · rw [hs, ht]
      exact .value (.text (hins.sameLines hint))

theorem Piece.ofSegments_vary (h : b.Vary b') (segments : List Segment) :
    SameOutcome (List.Forall₂ Similar) (ofSegments b segments) (ofSegments b' segments) := by
  induction segments with
  | nil => exact .value .nil
  | cons segment segments ih =>
    apply (Piece.ofSegment_vary h segment).bind
    intro piece piece' hpiece
    apply ih.bind
    intro pieces pieces' hpieces
    exact .value (.cons hpiece hpieces)

namespace Template

theorem content_vary (h : b.Vary b') (t : Template) (styles : Styles) :
    SameOutcome (fun c c' => SameLines c.1 c'.1 ∧ Rich.outline c.2 = Rich.outline c'.2)
      (t.content styles b) (t.content styles b') := by
  apply (Piece.ofSegments_vary h t.segments).bind
  intro pieces pieces' hpieces
  exact .value (Piece.outline_lead styles (SameLines.refl "") hpieces)

/-- Targets fail alike; nothing of a target is in a skeleton. -/
theorem hrefOf_vary (h : b.Vary b') (segments : List Segment) :
    SameOutcome (fun _ _ => True) (hrefOf b segments) (hrefOf b' segments) := by
  induction segments with
  | nil => exact .value trivial
  | cons segment segments ih =>
    have hpart : SameOutcome (fun _ _ => True) (hrefPart b segment) (hrefPart b' segment) := by
      cases segment with
      | literal s => exact .value trivial
      | placeholder name =>
        rw [hrefPart, hrefPart]
        rcases h name with heq | ⟨s, t, hs, ht, -, -⟩
        · rw [heq]
          exact .refl (fun _ => trivial) _
        · rw [hs, ht]
          exact .value trivial
    apply hpart.bind
    intro part part' _
    apply ih.bind
    intro rest rest' _
    exact .value trivial

end Template

namespace TemplateNode

mutual

theorem instantiate_vary (h : b.Vary b') : ∀ node : TemplateNode,
    SameOutcome (fun n n' => Rich.bare (Rich.renderer.node n) = Rich.bare (Rich.renderer.node n'))
      (node.instantiate b) (node.instantiate b')
  | .text content children styles => by
    apply (content.content_vary h styles).bind
    rintro ⟨s, leading⟩ ⟨s', leading'⟩ ⟨hs, hleading⟩
    apply (instantiateAll_vary h children).bind
    intro ns ns' hns
    apply SameOutcome.value
    rw [Rich.bare_node_text, Rich.bare_node_text, Rich.bare_wrap_content styles hs,
      Rich.outline_append, Rich.outline_append, hleading, hns]
  | .link href content children styles name => by
    apply (Template.hrefOf_vary h href.segments).bind
    intro target target' _
    apply (content.content_vary h styles).bind
    rintro ⟨s, leading⟩ ⟨s', leading'⟩ ⟨hs, hleading⟩
    apply (instantiateAll_vary h children).bind
    intro ns ns' hns
    apply SameOutcome.value
    rw [Rich.bare_node_link, Rich.bare_node_link, Rich.bare_wrap_content styles hs,
      Rich.outline_append, Rich.outline_append, hleading, hns]
  | .item children => by
    apply (instantiateAll_vary h children).bind
    intro ns ns' hns
    apply SameOutcome.value
    rw [Rich.bare_node_item, Rich.bare_node_item, hns]
  | .list kind items => by
    apply (instantiateItems_vary h items).bind
    intro rows rows' hrows
    apply SameOutcome.value
    have helements : (rows.map fun ns => Markup.element .item (Rich.outline ns)) =
        rows'.map fun ns => Markup.element .item (Rich.outline ns) := by
      have hmap := congrArg (List.map (Markup.element .item)) hrows
      rwa [List.map_map, List.map_map] at hmap
    rw [Rich.bare_node_list, Rich.bare_node_list, helements]

theorem instantiateAll_vary (h : b.Vary b') : ∀ nodes : List TemplateNode,
    SameOutcome (fun ns ns' => Rich.outline ns = Rich.outline ns')
      (instantiateAll b nodes) (instantiateAll b' nodes)
  | [] => .value rfl
  | node :: nodes => by
    apply (instantiate_vary h node).bind
    intro n n' hn
    apply (instantiateAll_vary h nodes).bind
    intro ns ns' hns
    apply SameOutcome.value
    rw [Rich.outline_cons, Rich.outline_cons, hn, hns]

theorem instantiateItems_vary (h : b.Vary b') : ∀ items : List (List TemplateNode),
    SameOutcome (fun rows rows' => rows.map Rich.outline = rows'.map Rich.outline)
      (instantiateItems b items) (instantiateItems b' items)
  | [] => .value rfl
  | children :: items => by
    apply (instantiateAll_vary h children).bind
    intro ns ns' hns
    apply (instantiateItems_vary h items).bind
    intro rows rows' hrows
    apply SameOutcome.value
    rw [List.map_cons, List.map_cons, hns, hrows]

end

end TemplateNode

end Calls

/-- The values of a call leave no trace in the skeleton of the markup, and none in whether the call
succeeds. -/
theorem skeleton_eq_of_vary {b b' : Bindings} (h : b.Vary b') (key : String)
    (nodes : List TemplateNode) (debug : Bool) (info : DebugInfo) :
    ((Entry.template nodes).invoke key b).map
        (fun ns => skeleton (markup (Rich.render Rich.renderer debug info ns))) =
      ((Entry.template nodes).invoke key b').map
        fun ns => skeleton (markup (Rich.render Rich.renderer debug info ns)) := by
  have hinvoke := (TemplateNode.instantiateAll_vary h nodes).mapError (ResolveFault.binding key)
  apply SameOutcome.map_eq hinvoke
  intro ns ns' hns
  have hbare : Rich.bare (Rich.render Rich.renderer debug info ns) =
      Rich.bare (Rich.render Rich.renderer debug info ns') := by
    cases debug with
    | false => exact hns
    | true => exact congrArg (fun children => [Markup.element (.overlay ⟨"", ""⟩) children]) hns
  rw [skeleton_markup, skeleton_markup]
  exact congrArg (fun ms => String.ofList (Markup.writeAll ms)) hbare

/-- A link to a member, with a badge after the member's name. -/
def memberLink : List TemplateNode :=
  [.link ⟨[.literal "/m?id=", .placeholder "id"]⟩ ⟨[.placeholder "name", .placeholder "badge"]⟩ []
    { bold := true } (some "member")]

/-- The values of a call for a member with a badge. -/
def memberBindings (id name : String) : Bindings :=
  ((Dict.empty.insert "badge" (.fragment [.styled "!" { italic := true }])).insert "id"
    (.text id)).insert "name" (.text name)

theorem skeleton_eq_of_vary_member :
    (memberBindings "7" "Ann").Vary (memberBindings "\">\x7b" "</a><b>&") ∧
      ((Entry.template memberLink).invoke "member" (memberBindings "\">\x7b" "</a><b>&")).map
          (fun ns => skeleton (markup (Rich.render Rich.renderer true ⟨"g", "member"⟩ ns))) =
        .ok "<debug group=\"\" key=\"\"><a href=\"\" name=\"\"><b></b><i></i></a></debug>" := by
  have h : (memberBindings "7" "Ann").Vary (memberBindings "\">\x7b" "</a><b>&") := by
    apply Bindings.Vary.insert
    · exact (Bindings.Vary.refl _).insert "id" ⟨by decide, by decide⟩ ⟨by decide, by decide⟩
    · exact ⟨by decide, by decide⟩
    · exact ⟨by decide, by decide⟩
  refine ⟨h, ?_⟩
  rw [← skeleton_eq_of_vary h "member" memberLink true ⟨"g", "member"⟩]
  decide

end Phrasebook
