import Phrasebook.Document.Repair
import Phrasebook.Node.Json
import Phrasebook.Proofs.Node.Draft
import Phrasebook.Proofs.Template.Printing
import Phrasebook.Template.Instance

namespace Phrasebook

open Json

/-- The template of a text: its braces are doubled. -/
def Template.escape (s : String) : String := String.ofList (doubleBraces s.toList)

namespace Node

mutual

/-- The document form of a node. -/
def toDocument : Node → Content
  | .text content children styles =>
    .map [(Tag.key, .string Tag.text.name), ("content", .string (Template.escape content)),
      ("children", .seq (allToDocument children)), ("styles", styles.toContent)]
  | .link href content children styles name =>
    .map ([(Tag.key, .string Tag.link.name), ("href", .string (Template.escape href)),
      ("content", .string (Template.escape content)), ("children", .seq (allToDocument children)),
      ("styles", styles.toContent)] ++ nameMember name)
  | .item children =>
    .map [(Tag.key, .string Tag.item.name), ("children", .seq (allToDocument children))]
  | .list kind items =>
    .map [(Tag.key, .string kind.tag), ("children", .seq (itemsToDocument items))]

def allToDocument : List Node → List Content
  | [] => []
  | node :: nodes => node.toDocument :: allToDocument nodes

/-- The items of a list, each with its type. -/
def itemsToDocument : List (List Node) → List Content
  | [] => []
  | children :: items =>
    .map [(Tag.key, .string Tag.item.name), ("children", .seq (allToDocument children))]
      :: itemsToDocument items

end

mutual

/-- The node as an author writes it. -/
def authored : Node → AuthoredNode
  | .text content children styles =>
    .text (Template.escape content) (allAuthored children) styles
  | .link href content children styles name =>
    .link (Template.escape href) (Template.escape content) (allAuthored children) styles name
  | .item children => .item (allAuthored children)
  | .list kind items => .list kind (itemsAuthored items)

def allAuthored : List Node → List AuthoredNode
  | [] => []
  | node :: nodes => node.authored :: allAuthored nodes

def itemsAuthored : List (List Node) → List AuthoredNode
  | [] => []
  | children :: items => .item (allAuthored children) :: itemsAuthored items

end

mutual

/-- The node as a template without placeholders. -/
def template : Node → TemplateNode
  | .text content children styles => .text (.literal content) (allTemplates children) styles
  | .link href content children styles name =>
    .link (.literal href) (.literal content) (allTemplates children) styles name
  | .item children => .item (allTemplates children)
  | .list kind items => .list kind (itemTemplates items)

def allTemplates : List Node → List TemplateNode
  | [] => []
  | node :: nodes => node.template :: allTemplates nodes

def itemTemplates : List (List Node) → List (List TemplateNode)
  | [] => []
  | children :: items => allTemplates children :: itemTemplates items

end

end Node

namespace AuthoredNode

theorem ofContent_tagged {tag : Tag} {members : List (String × Content)}
    (h : Tag.key ∉ members.map (·.1)) :
    ofContent (.map ((Tag.key, .string tag.name) :: members)) =
      setMembers tag .empty members >>= ofDraft tag := by
  have htag : Tag.among tagOfContent none ((Tag.key, .string tag.name) :: members) =
      .ok (some tag) := by
    rw [Tag.among, if_pos rfl]
    show (tagOfContent (.string tag.name) >>= fun t => Tag.among tagOfContent (some t) members) = _
    rw [tagOfContent, Tag.ofName?_name, ok_bind]
    exact Tag.among_some h
  have hskip : setMembers tag .empty ((Tag.key, .string tag.name) :: members) =
      setMembers tag .empty members := by
    rw [setMembers, if_neg]
    cases tag <;> simp [Tag.key, Tag.members]
  rw [ofContent, htag, ok_bind]
  simp only
  rw [hskip]

variable {tag : Tag} {d d' : Draft AuthoredNode} {members : List (String × Content)}

theorem setMembers_set {key : String} {value : Content} (hkey : key ∈ tag.members)
    (hnew : d.has key = false) (hother : key ≠ "children") (hset : d.set key value = .ok d') :
    setMembers tag d ((key, value) :: members) = setMembers tag d' members := by
  rw [setMembers, if_pos hkey]
  simp only [hnew, Bool.false_eq_true, if_false, if_neg hother, hset, ok_bind]

theorem setMembers_children {items : List Content} {nodes : List AuthoredNode}
    (hkey : "children" ∈ tag.members) (hnew : d.has "children" = false)
    (hitems : ofContents items = .ok nodes) :
    setMembers tag d (("children", .seq items) :: members) =
      setMembers tag { d with children := some nodes } members := by
  have hset : setChildren d (.seq items) = .ok { d with children := some nodes } := by
    rw [setChildren, hitems, ok_bind]
    rfl
  rw [setMembers, if_pos hkey]
  simp only [hnew, Bool.false_eq_true, if_false, if_true, hset, ok_bind]

end AuthoredNode

namespace Node

open AuthoredNode

mutual

theorem ofContent_toDocument : ∀ node : Node,
    AuthoredNode.ofContent node.toDocument = .ok node.authored
  | .text content children styles => by
    rw [toDocument, ofContent_tagged (by simp [Tag.key]),
      setMembers_set (by decide) rfl (by decide) rfl,
      setMembers_children (by decide) rfl (ofContents_allToDocument children),
      setMembers_set (by decide) rfl (by decide) (Draft.set_styles _ styles)]
    rfl
  | .link href content children styles name => by
    have htype : Tag.key ∉ (nameMember name).map (·.1) := by
      cases name <;> simp [Tag.key, nameMember]
    rw [toDocument, List.cons_append, ofContent_tagged (by simpa [Tag.key] using htype)]
    simp only [List.cons_append]
    rw [setMembers_set (by decide) rfl (by decide) rfl,
      setMembers_set (by decide) rfl (by decide) rfl,
      setMembers_children (by decide) rfl (ofContents_allToDocument children),
      setMembers_set (by decide) rfl (by decide) (Draft.set_styles _ styles)]
    cases name <;> rfl
  | .item children => by
    rw [toDocument, ofContent_tagged (by simp [Tag.key]),
      setMembers_children (by decide) rfl (ofContents_allToDocument children)]
    rfl
  | .list kind items => by
    show AuthoredNode.ofContent (.map [(Tag.key, .string (Tag.list kind).name), _]) = _
    rw [ofContent_tagged (by simp [Tag.key]),
      setMembers_children List.mem_cons_self rfl (ofContents_itemsToDocument items)]
    rfl

theorem ofContents_allToDocument : ∀ nodes : List Node,
    AuthoredNode.ofContents (allToDocument nodes) = .ok (allAuthored nodes)
  | [] => rfl
  | node :: nodes => by
    rw [allToDocument, AuthoredNode.ofContents, ofContent_toDocument node, ok_bind,
      ofContents_allToDocument nodes, ok_bind]
    rfl

theorem ofContents_itemsToDocument : ∀ items : List (List Node),
    AuthoredNode.ofContents (itemsToDocument items) = .ok (itemsAuthored items)
  | [] => rfl
  | children :: items => by
    rw [itemsToDocument, AuthoredNode.ofContents, ofContent_tagged (by simp [Tag.key]),
      setMembers_children (by decide) rfl (ofContents_allToDocument children)]
    show (Except.ok (AuthoredNode.item (allAuthored children)) >>= _) = _
    rw [ok_bind, ofContents_itemsToDocument items, ok_bind]
    rfl

end

end Node

theorem Template.parse_escape (s : String) : parse (escape s) = .ok (literal s) := by
  rw [escape, ← print_literal]
  exact (canonical_literal s).parse_eq

namespace Node

mutual

theorem compile_authored : ∀ node : Node, node.authored.compile = .ok (some node.template, [])
  | .text content children styles => by
    rw [authored, AuthoredNode.compile, Template.parse_escape, ok_bind,
      compileAll_authored children, ok_bind]
    rfl
  | .link href content children styles name => by
    rw [authored, AuthoredNode.compile, Template.parse_escape, ok_bind, Template.parse_escape,
      ok_bind, compileAll_authored children, ok_bind]
    rfl
  | .item children => by
    rw [authored, AuthoredNode.compile, compileAll_authored children, ok_bind]
    rfl
  | .list kind items => by
    rw [authored, AuthoredNode.compile, compileItems_authored items, ok_bind]
    rfl

theorem compileAll_authored : ∀ nodes : List Node,
    AuthoredNode.compileAll (allAuthored nodes) = .ok (allTemplates nodes, [])
  | [] => rfl
  | node :: nodes => by
    rw [allAuthored, AuthoredNode.compileAll, compile_authored node, ok_bind]
    simp only
    rw [compileAll_authored nodes, ok_bind]
    rfl

theorem compileItems_authored : ∀ items : List (List Node),
    AuthoredNode.compileItems (itemsAuthored items) = .ok (itemTemplates items, [])
  | [] => rfl
  | children :: items => by
    rw [itemsAuthored, AuthoredNode.compileItems, compileAll_authored children, ok_bind]
    simp only
    rw [compileItems_authored items, ok_bind]
    rfl

end

end Node

theorem Template.content_literal (s : String) (styles : Styles) (b : Bindings) :
    (literal s).content styles b = .ok (s, []) := by
  unfold literal
  split
  · next hs =>
    rw [hs]
    rfl
  · show Except.ok ("" ++ s, []) = _
    rw [String.empty_append]

theorem Template.href_literal (s : String) (b : Bindings) : (literal s).href b = .ok s := by
  unfold literal
  split
  · next hs =>
    rw [hs]
    rfl
  · show Except.ok (s ++ "") = _
    rw [String.append_empty]

namespace Node

mutual

theorem instantiate_template (b : Bindings) : ∀ node : Node, node.template.instantiate b = .ok node
  | .text content children styles => by
    rw [template, TemplateNode.instantiate, Template.content_literal, ok_bind]
    simp only
    rw [instantiateAll_templates b children, ok_bind]
    rfl
  | .link href content children styles name => by
    rw [template, TemplateNode.instantiate, Template.href_literal, ok_bind,
      Template.content_literal, ok_bind]
    simp only
    rw [instantiateAll_templates b children, ok_bind]
    rfl
  | .item children => by
    rw [template, TemplateNode.instantiate, instantiateAll_templates b children, ok_bind]
    rfl
  | .list kind items => by
    rw [template, TemplateNode.instantiate, instantiateItems_templates b items, ok_bind]
    rfl

theorem instantiateAll_templates (b : Bindings) : ∀ nodes : List Node,
    TemplateNode.instantiateAll b (allTemplates nodes) = .ok nodes
  | [] => rfl
  | node :: nodes => by
    rw [allTemplates, TemplateNode.instantiateAll, instantiate_template b node, ok_bind,
      instantiateAll_templates b nodes, ok_bind]
    rfl

theorem instantiateItems_templates (b : Bindings) : ∀ items : List (List Node),
    TemplateNode.instantiateItems b (itemTemplates items) = .ok items
  | [] => rfl
  | children :: items => by
    rw [itemTemplates, TemplateNode.instantiateItems, instantiateAll_templates b children, ok_bind,
      instantiateItems_templates b items, ok_bind]
    rfl

end

end Node

end Phrasebook
