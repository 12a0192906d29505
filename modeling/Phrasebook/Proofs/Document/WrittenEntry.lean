import Phrasebook.Proofs.Document.LiteralEntry
import Phrasebook.Proofs.Json.Whole

namespace Phrasebook

open Json

/-- The text has no braces. -/
def Template.Braceless (s : String) : Prop := '\x7b' ∉ s.toList ∧ '\x7d' ∉ s.toList

theorem Template.doubleBraces_of_braceless {cs : List Char} (hopen : '\x7b' ∉ cs)
    (hclose : '\x7d' ∉ cs) : doubleBraces cs = cs := by
  induction cs with
  | nil => rfl
  | cons c cs ih =>
    rw [List.mem_cons, not_or] at hopen hclose
    rw [doubleBraces, ih hopen.2 hclose.2]
    · exact Ne.symm hopen.1
    · exact Ne.symm hclose.1

theorem Template.escape_of_braceless {s : String} (h : Braceless s) : escape s = s := by
  rw [escape, doubleBraces_of_braceless h.1 h.2, String.ofList_toList]

namespace Node

mutual

/-- No content and no target of a link has braces. -/
def Braceless : Node → Prop
  | .text content children _ => Template.Braceless content ∧ BracelessAll children
  | .link href content children _ _ =>
    Template.Braceless href ∧ Template.Braceless content ∧ BracelessAll children
  | .item children => BracelessAll children
  | .list _ items => BracelessItems items

def BracelessAll : List Node → Prop
  | [] => True
  | node :: nodes => Braceless node ∧ BracelessAll nodes

def BracelessItems : List (List Node) → Prop
  | [] => True
  | children :: items => BracelessAll children ∧ BracelessItems items

end

mutual

/-- No list has an entry. -/
def Entryless : Node → Prop
  | .text _ children _ => EntrylessAll children
  | .link _ _ children _ _ => EntrylessAll children
  | .item children => EntrylessAll children
  | .list _ items => items = []

def EntrylessAll : List Node → Prop
  | [] => True
  | node :: nodes => Entryless node ∧ EntrylessAll nodes

end

mutual

theorem toContent_eq_toDocument : ∀ {node : Node}, node.Braceless → node.Entryless →
    node.toContent = node.toDocument
  | .text content children styles, hbraces, hentries => by
    rw [toContent, toDocument, Template.escape_of_braceless hbraces.1,
      toContents_eq_allToDocument hbraces.2 hentries]
  | .link href content children styles name, hbraces, hentries => by
    rw [toContent, toDocument, Template.escape_of_braceless hbraces.1,
      Template.escape_of_braceless hbraces.2.1, toContents_eq_allToDocument hbraces.2.2 hentries]
  | .item children, hbraces, hentries => by
    rw [toContent, toDocument, toContents_eq_allToDocument hbraces hentries]
  | .list kind items, _, hentries => by
    have hitems : items = [] := hentries
    rw [hitems]
    rfl

theorem toContents_eq_allToDocument : ∀ {nodes : List Node}, BracelessAll nodes →
    EntrylessAll nodes → toContents nodes = allToDocument nodes
  | [], _, _ => rfl
  | node :: nodes, hbraces, hentries => by
    rw [toContents, allToDocument, toContent_eq_toDocument hbraces.1 hentries.1,
      toContents_eq_allToDocument hbraces.2 hentries.2]

end

end Node

namespace AuthoredNode

theorem setMembers_children_error {tag : Tag} {d : Draft AuthoredNode}
    {members : List (String × Content)} {items : List Content} {cause : Cause}
    (hkey : "children" ∈ tag.members) (hnew : d.has "children" = false)
    (hitems : ofContents items = .error cause) :
    setMembers tag d (("children", .seq items) :: members) = .error cause := by
  have hset : setChildren d (.seq items) = .error cause := by
    rw [setChildren, hitems]
    rfl
  rw [setMembers, if_pos hkey]
  simp only [hnew, Bool.false_eq_true, if_false, if_true, hset]
  rfl

theorem ofContents_eq_mapM (vs : List Content) : ofContents vs = vs.mapM ofContent := by
  induction vs with
  | nil => rfl
  | cons v vs ih => rw [ofContents, List.mapM_cons, ih]

theorem entryOfContent_eq_none {vs : List Content} {cause : Cause}
    (h : ofContents vs = .error cause) : entryOfContent (.seq vs) = none := by
  cases hentry : entryOfContent (.seq vs) with
  | none => rfl
  | some nodes =>
    obtain ⟨vs', hvs, hnodes⟩ := Reader.Tagging.mapM_of_list? hentry
    cases hvs
    rw [← ofContents_eq_mapM, h] at hnodes
    cases hnodes

end AuthoredNode

namespace Node

open AuthoredNode

mutual

/-- An entry of a list is written without the type that a document wants. -/
theorem ofContent_toContent_of_entries : ∀ {node : Node}, node.Braceless → ¬ node.Entryless →
    AuthoredNode.ofContent node.toContent = .error (.missingField Tag.key)
  | .text content children styles, hbraces, hentries => by
    have hchildren := ofContents_toContents_of_entries hbraces.2 hentries
    rw [toContent, AuthoredNode.ofContent_tagged (by simp [Tag.key]),
      AuthoredNode.setMembers_set (by decide) rfl (by decide) rfl,
      setMembers_children_error (by decide) rfl hchildren]
    rfl
  | .link href content children styles name, hbraces, hentries => by
    have hchildren := ofContents_toContents_of_entries hbraces.2.2 hentries
    have htype : Tag.key ∉ (nameMember name).map (·.1) := by
      cases name <;> simp [Tag.key, nameMember]
    rw [toContent, List.cons_append, AuthoredNode.ofContent_tagged (by simpa [Tag.key] using htype)]
    simp only [List.cons_append]
    rw [AuthoredNode.setMembers_set (by decide) rfl (by decide) rfl,
      AuthoredNode.setMembers_set (by decide) rfl (by decide) rfl,
      setMembers_children_error (by decide) rfl hchildren]
    rfl
  | .item children, hbraces, hentries => by
    have hchildren := ofContents_toContents_of_entries hbraces hentries
    rw [toContent, AuthoredNode.ofContent_tagged (by simp [Tag.key]),
      setMembers_children_error (by decide) rfl hchildren]
    rfl
  | .list kind [], _, hentries => absurd rfl hentries
  | .list kind (children :: items), _, _ => by
    have hentry : AuthoredNode.ofContents (entriesToContents (children :: items)) =
        .error (.missingField Tag.key) := by
      rw [entriesToContents, AuthoredNode.ofContents]
      rfl
    show AuthoredNode.ofContent (.map [(Tag.key, .string (Tag.list kind).name), _]) = _
    rw [AuthoredNode.ofContent_tagged (by simp [Tag.key]),
      setMembers_children_error List.mem_cons_self rfl hentry]
    rfl

theorem ofContents_toContents_of_entries : ∀ {nodes : List Node}, BracelessAll nodes →
    ¬ EntrylessAll nodes →
    AuthoredNode.ofContents (toContents nodes) = .error (.missingField Tag.key)
  | [], _, hentries => absurd trivial hentries
  | node :: nodes, hbraces, hentries => by
    by_cases hnode : node.Entryless
    · have hnodes : ¬ EntrylessAll nodes := fun hnodes => hentries ⟨hnode, hnodes⟩
      rw [toContents, AuthoredNode.ofContents, toContent_eq_toDocument hbraces.1 hnode,
        ofContent_toDocument, ok_bind, ofContents_toContents_of_entries hbraces.2 hnodes]
      rfl
    · rw [toContents, AuthoredNode.ofContents, ofContent_toContent_of_entries hbraces.1 hnode]
      rfl

end

end Node

theorem Document.ofText_eq_malformed {text : String} {v : Content}
    (hv : Reader.content.run text = .ok v) (h : ofContent v = none) :
    ∃ failure, Catalog.ofText text = .error (.malformed failure) := by
  cases hread : read text with
  | ok d =>
    rw [(read_eq_ok_iff hv).mp hread] at h
    cases h
  | error failure => exact ⟨failure, Catalog.ofText_eq_error_iff.mpr (.inl ⟨failure, hread, rfl⟩)⟩

/-- A document stays valid with another entry that can be compiled, and holds what it is compiled
to. -/
theorem Document.Frame.find?_of_compiles (f : Frame) {text text' : String} {entry v : Content}
    {c : Catalog} {warnings : List Warning} {nodes : List AuthoredNode}
    {compiled : List TemplateNode} {repairs : List Repair}
    (htext : Reader.content.run text = .ok (f.fill entry))
    (hload : Catalog.ofText text = .ok (c, warnings))
    (hdeclared : c.roster.declares f.locale = true)
    (hentry : AuthoredNode.entryOfContent v = some nodes)
    (hcompile : AuthoredNode.compileAll nodes = .ok (compiled, repairs))
    (htext' : Reader.content.run text' = .ok (f.fill v)) :
    ∃ c' warnings', Catalog.ofText text' = .ok (c', warnings') ∧
      c'.find? f.key f.locale = some (.template compiled) := by
  obtain ⟨d, hread, hd⟩ := Catalog.ofText_eq_ok_iff.mp hload
  obtain ⟨d', hvalue, hlocales, hfind⟩ :=
    f.ofContent_fill ((read_eq_ok_iff htext).mp hread) hentry
  have hread' := (read_eq_ok_iff htext').mpr hvalue
  obtain ⟨warnings', hd'⟩ := toCatalog_of_changed hlocales hfind ⟨_, hcompile⟩ hd
  refine ⟨_, warnings', Catalog.ofText_eq_ok_iff.mpr ⟨d', hread', hd'⟩, ?_⟩
  rw [find?_built, hfind, if_pos ⟨rfl, rfl⟩, Option.bind_some, Placed.entry?, if_pos hdeclared,
    hcompile]
  rfl

theorem Catalog.resolve_templates {c : Catalog} {key locale : String} {nodes : List Node}
    (h : c.find? key locale = some (.template (Node.allTemplates nodes))) (b : Bindings) :
    c.resolve locale key b = .ok nodes := by
  rw [resolve, lookup_eq_ok_of_entry h, ok_bind]
  show (TemplateNode.instantiateAll b (Node.allTemplates nodes)).mapError _ = _
  rw [Node.instantiateAll_templates]
  rfl

/-- Nodes without braces, written and put into a document in the place of some entry, are accepted
and resolve to themselves if, and only if, no list in them has an entry. The document is malformed
otherwise. -/
theorem written_entry_resolves_iff (f : Document.Frame) {text text' : String} {entry : Content}
    {c : Catalog} {warnings : List Warning} {nodes : List Node}
    (htext : Reader.content.run text = .ok (f.fill entry))
    (hload : Catalog.ofText text = .ok (c, warnings))
    (hdeclared : c.roster.declares f.locale = true) (hbraces : Node.BracelessAll nodes)
    (htext' : Reader.content.run text' = .ok (f.fill (.seq (Node.toContents nodes)))) :
    ((∃ c' warnings', Catalog.ofText text' = .ok (c', warnings') ∧
        ∀ b, c'.resolve f.locale f.key b = .ok nodes) ↔ Node.EntrylessAll nodes) ∧
      (¬ Node.EntrylessAll nodes →
        ∃ failure, Catalog.ofText text' = .error (.malformed failure)) := by
  have hmalformed : ¬ Node.EntrylessAll nodes →
      ∃ failure, Catalog.ofText text' = .error (.malformed failure) := by
    intro hentries
    have hnone := AuthoredNode.entryOfContent_eq_none
      (Node.ofContents_toContents_of_entries hbraces hentries)
    apply Document.ofText_eq_malformed htext'
    cases hdocument : Document.ofContent (f.fill (.seq (Node.toContents nodes))) with
    | none => rfl
    | some d =>
      obtain ⟨authored, hauthored, -⟩ := f.find?_of_fill hdocument
      rw [hnone] at hauthored
      cases hauthored
  refine ⟨⟨?_, ?_⟩, hmalformed⟩
  · intro h
    obtain ⟨c', warnings', hload', -⟩ := h
    by_contra hentries
    obtain ⟨failure, hfailure⟩ := hmalformed hentries
    rw [hload'] at hfailure
    cases hfailure
  · intro hentries
    rw [Node.toContents_eq_allToDocument hbraces hentries] at htext'
    obtain ⟨c', warnings', hload', hfind⟩ := f.find?_of_compiles htext hload hdeclared
      (Node.entryOfContent_allToDocument nodes) (Node.compileAll_authored nodes) htext'
    exact ⟨c', warnings', hload', Catalog.resolve_templates hfind⟩

/-- Every kind of node, a list without entries among them. -/
def plainNodes : List Node :=
  [.text "a" [.list .unordered []] .plain, .item [.link "/" "b" [] .plain none]]

def plainStyles : List String :=
  ["\"styles\":\x7b", "\"isBold\":false,", "\"isItalic\":false,", "\"isUnderlined\":false,",
    "\"isStrikethrough\":false,", "\"isSuperscript\":false,", "\"isSubscript\":false", "\x7d"]

def plainEntry : List String :=
  ["[\x7b\"type\":\"text\",", "\"content\":\"a\",", "\"children\":[\x7b", "\"type\":\"ul\",",
    "\"children\":[]\x7d],"] ++ plainStyles ++
  ["\x7d,\x7b\"type\":\"li\",", "\"children\":[\x7b", "\"type\":\"link\",", "\"href\":\"/\",",
    "\"content\":\"b\",", "\"children\":[],"] ++ plainStyles ++ ["\x7d]\x7d]"]

theorem content_plainPage : Reader.content.run (page plainEntry) =
    .ok (pageFrame.fill (.seq (Node.toContents plainNodes))) := by
  apply toOption_eq_some_iff.mp
  rw [Reader.run, page, spelled, String.toList_ofList]
  decide +kernel

theorem written_entry_resolves_plain :
    ∃ c warnings c' warnings', Reader.content.run (page ["[]"]) = .ok (pageFrame.fill (.seq [])) ∧
      Catalog.ofText (page ["[]"]) = .ok (c, warnings) ∧ c.roster.declares "EN" = true ∧
      Node.BracelessAll plainNodes ∧ Node.EntrylessAll plainNodes ∧
      Reader.content.run (page plainEntry) =
        .ok (pageFrame.fill (.seq (Node.toContents plainNodes))) ∧
      Catalog.ofText (page plainEntry) = .ok (c', warnings') ∧
      ∀ b, c'.resolve "EN" "k" b = .ok plainNodes := by
  obtain ⟨c, warnings, hload, hdeclared⟩ := ofText_emptyPage
  have hbraces : Node.BracelessAll plainNodes := by
    simp [plainNodes, Node.BracelessAll, Node.Braceless, Node.BracelessItems, Template.Braceless]
  have hentries : Node.EntrylessAll plainNodes := by
    simp [plainNodes, Node.EntrylessAll, Node.Entryless]
  obtain ⟨hresolves, -⟩ := written_entry_resolves_iff pageFrame content_emptyPage hload hdeclared
    hbraces content_plainPage
  obtain ⟨c', warnings', hload', hresolve⟩ := hresolves.mpr hentries
  exact ⟨c, warnings, c', warnings', content_emptyPage, hload, hdeclared, hbraces, hentries,
    content_plainPage, hload', hresolve⟩

/-- A list of one entry, which has no type. -/
def listedEntry : List String :=
  ["[\x7b\"type\":\"ul\",", "\"children\":[\x7b", "\"children\":[]", "\x7d]\x7d]"]

theorem not_written_entry_resolves :
    ∃ c warnings, Reader.content.run (page ["[]"]) = .ok (pageFrame.fill (.seq [])) ∧
      Catalog.ofText (page ["[]"]) = .ok (c, warnings) ∧ c.roster.declares "EN" = true ∧
      Node.BracelessAll [.list .unordered [[]]] ∧
      Reader.content.run (page listedEntry) =
        .ok (pageFrame.fill (.seq (Node.toContents [.list .unordered [[]]]))) ∧
      ∃ failure, Catalog.ofText (page listedEntry) = .error (.malformed failure) := by
  obtain ⟨c, warnings, hload, hdeclared⟩ := ofText_emptyPage
  have hbraces : Node.BracelessAll [.list .unordered [[]]] := ⟨⟨trivial, trivial⟩, trivial⟩
  have hcontent : Reader.content.run (page listedEntry) =
      .ok (pageFrame.fill (.seq (Node.toContents [.list .unordered [[]]]))) := by
    apply toOption_eq_some_iff.mp
    rw [Reader.run, page, spelled, String.toList_ofList]
    decide +kernel
  have hnone : Document.ofContent
      (pageFrame.fill (.seq (Node.toContents [.list .unordered [[]]]))) = none :=
    Option.isNone_iff_eq_none.mp (by decide +kernel)
  exact ⟨c, warnings, content_emptyPage, hload, hdeclared, hbraces, hcontent,
    Document.ofText_eq_malformed hcontent hnone⟩

end Phrasebook
