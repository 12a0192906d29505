import Phrasebook.Node.Json
import Phrasebook.Proofs.Json.Whole
import Phrasebook.Proofs.Node.Draft

namespace Phrasebook

open Json

namespace Node

theorem ofContent_withTag {tag : Tag} {members : List (String × Content)}
    (h : Tag.key ∉ members.map (·.1)) :
    ofContent (.map ((Tag.key, .string tag.name) :: members)) =
      setMembers tag .empty members >>= ofDraft tag := by
  have htag : Tag.among tagOfContent none ((Tag.key, .string tag.name) :: members) = .ok tag := by
    rw [Tag.among, if_pos rfl]
    show (tagOfContent (.string tag.name) >>= fun t => Tag.among tagOfContent (some t) members) = _
    rw [tagOfContent, tagOfName, Tag.ofName?_name, ok_bind]
    exact Tag.among_some h
  have hskip : setMembers tag .empty ((Tag.key, .string tag.name) :: members) =
      setMembers tag .empty members := by
    rw [setMembers, if_neg]
    cases tag <;> simp [Tag.key, Tag.members]
  rw [ofContent, htag, ok_bind, hskip]

variable {tag : Tag} {d d' : Draft Node} {members : List (String × Content)}

theorem setMembers_cons_set {key : String} {value : Content} (hkey : key ∈ tag.members)
    (hnew : d.has key = false) (hother : key ≠ "children") (hset : d.set key value = .ok d') :
    setMembers tag d ((key, value) :: members) = setMembers tag d' members := by
  rw [setMembers, if_pos hkey]
  simp only [hnew, Bool.false_eq_true, if_false, if_neg hother, hset, ok_bind]

theorem setMembers_cons_children {value : Content} (hkey : "children" ∈ tag.members)
    (hnew : d.has "children" = false) (hset : setChildren tag d value = .ok d') :
    setMembers tag d (("children", value) :: members) = setMembers tag d' members := by
  rw [setMembers, if_pos hkey]
  simp only [hnew, Bool.false_eq_true, if_false, if_true, hset, ok_bind]

theorem setChildren_of_contents {items : List Content} {nodes : List Node}
    (hlist : ∀ kind, tag ≠ .list kind) (hitems : ofContents items = .ok nodes) :
    setChildren tag d (.seq items) = .ok { d with children := some nodes } := by
  rw [setChildren, hitems, ok_bind]
  · rfl
  · exact hlist

theorem setChildren_of_entries {kind : ListKind} {items : List Content} {nodes : List Node}
    (hitems : ofEntries items = .ok nodes) :
    setChildren (.list kind) d (.seq items) = .ok { d with children := some nodes } := by
  rw [setChildren]
  simp only
  rw [hitems, ok_bind]
  rfl

theorem map_entryChildren_item (items : List (List Node)) :
    (items.map Node.item).map entryChildren = items := by
  rw [List.map_map]
  exact List.map_id _

mutual

theorem ofContent_toContent : ∀ node : Node, ofContent node.toContent = .ok node
  | .text content children styles => by
    have hchildren := ofContents_toContents children
    rw [toContent, ofContent_withTag (by simp [Tag.key]),
      setMembers_cons_set (by decide) rfl (by decide) rfl,
      setMembers_cons_children (by decide) rfl (setChildren_of_contents (by simp) hchildren),
      setMembers_cons_set (by decide) rfl (by decide) (Draft.set_styles _ styles)]
    rfl
  | .link href content children styles name => by
    have hchildren := ofContents_toContents children
    have htype : Tag.key ∉ (nameMember name).map (·.1) := by
      cases name <;> simp [Tag.key, nameMember]
    rw [toContent, List.cons_append, ofContent_withTag (by simpa [Tag.key] using htype)]
    simp only [List.cons_append]
    rw [setMembers_cons_set (by decide) rfl (by decide) rfl,
      setMembers_cons_set (by decide) rfl (by decide) rfl,
      setMembers_cons_children (by decide) rfl (setChildren_of_contents (by simp) hchildren),
      setMembers_cons_set (by decide) rfl (by decide) (Draft.set_styles _ styles)]
    cases name <;> rfl
  | .item children => by
    have hchildren := ofContents_toContents children
    rw [toContent, ofContent_withTag (by simp [Tag.key]),
      setMembers_cons_children (by decide) rfl (setChildren_of_contents (by simp) hchildren)]
    rfl
  | .list kind items => by
    have hentries := ofEntries_entriesToContents items
    show ofContent (.map [(Tag.key, .string (Tag.list kind).name), _]) = _
    rw [ofContent_withTag (by simp [Tag.key]),
      setMembers_cons_children List.mem_cons_self rfl (setChildren_of_entries hentries)]
    show Except.ok (Node.list kind ((items.map Node.item).map entryChildren)) = _
    rw [map_entryChildren_item]

theorem ofContents_toContents : ∀ nodes : List Node, ofContents (toContents nodes) = .ok nodes
  | [] => rfl
  | node :: nodes => by
    rw [toContents, ofContents, ofContent_toContent node, ok_bind, ofContents_toContents nodes,
      ok_bind]
    rfl

theorem ofEntries_entriesToContents : ∀ items : List (List Node),
    ofEntries (entriesToContents items) = .ok (items.map Node.item)
  | [] => rfl
  | children :: items => by
    have hchildren := ofContents_toContents children
    rw [entriesToContents, ofEntries, ofEntry,
      setMembers_cons_children (by decide) rfl (setChildren_of_contents (by simp) hchildren)]
    show (Except.ok (Node.item children) >>= _) = _
    rw [ok_bind, ofEntries_entriesToContents items, ok_bind]
    rfl

end

theorem ofContents_eq_mapM (vs : List Content) : ofContents vs = vs.mapM ofContent := by
  induction vs with
  | nil => rfl
  | cons v vs ih => rw [ofContents, List.mapM_cons, ih]

/-- The nodes that a value stands for, if it is a list. -/
def ofList? : Content → Option (List Node) :=
  Content.list? fun v => (tagging.tagged? v).bind fun w => (ofContent w).toOption

theorem read_eq_ok_iff {text : String} {nodes : List Node} :
    read text = .ok nodes ↔ ∃ v, Reader.content.run text = .ok v ∧ ofList? v = some nodes :=
  ((Reader.whole_tagged tagging).listOf ofContent).run_eq_ok_iff
    ((Reader.decodes_tagged tagging).listOf ofContent)

theorem tagged?_toContent (node : Node) :
    tagging.tagged? node.toContent = some node.toContent := by
  cases node with
  | link href content children styles name => cases name <;> rfl
  | list kind items => cases kind <;> rfl
  | _ => rfl

theorem ofList?_toContents (nodes : List Node) :
    ofList? (.seq (toContents nodes)) = some nodes := by
  rw [ofList?, Content.list?]
  induction nodes with
  | nil => rfl
  | cons node nodes ih =>
    rw [toContents, List.mapM_cons, ih, tagged?_toContent, Option.bind_some, ofContent_toContent]
    rfl

end Node

end Phrasebook
