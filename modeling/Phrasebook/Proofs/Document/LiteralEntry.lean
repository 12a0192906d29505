import Phrasebook.Proofs.Catalog.Lookup
import Phrasebook.Proofs.Document.Frame
import Phrasebook.Proofs.Document.Literal

namespace Phrasebook

open Json

theorem Json.Reader.Tagging.tags_of_tagged {t : Reader.Tagging} {members : List (String × Content)}
    (h : t.key ∉ members.map (·.1)) : t.tags true members = true := by
  induction members with
  | nil => rfl
  | cons p members ih =>
    obtain ⟨key, v⟩ := p
    rw [List.map_cons, List.mem_cons, not_or] at h
    rw [tags, if_neg (Ne.symm h.1)]
    exact ih h.2

namespace Node

/-- The type comes first in the document form, and only there. -/
theorem exists_toDocument (node : Node) :
    ∃ tag members, Tag.key ∉ members.map (·.1) ∧
      node.toDocument = .map ((Tag.key, .string (Tag.name tag)) :: members) := by
  cases node with
  | text content children styles =>
    refine ⟨.text, _, ?_, by rw [toDocument]⟩
    simp [Tag.key]
  | link href content children styles name =>
    refine ⟨.link, _, ?_, by rw [toDocument, List.cons_append]⟩
    cases name <;> simp [Tag.key, nameMember]
  | item children =>
    refine ⟨.item, _, ?_, by rw [toDocument]⟩
    simp [Tag.key]
  | list kind items =>
    refine ⟨.list kind, _, ?_, by rw [toDocument]; rfl⟩
    simp [Tag.key]

theorem tagged?_toDocument (node : Node) :
    AuthoredNode.tagging.tagged? node.toDocument = some node.toDocument := by
  obtain ⟨tag, members, hmembers, hnode⟩ := node.exists_toDocument
  have htags : AuthoredNode.tagging.tags false ((Tag.key, .string tag.name) :: members) = true := by
    have hkey : Tag.key = AuthoredNode.tagging.key := rfl
    rw [Reader.Tagging.tags, if_pos hkey]
    exact Reader.Tagging.tags_of_tagged hmembers
  rw [hnode, Reader.Tagging.tagged?, if_pos htags]

theorem entryOfContent_allToDocument (nodes : List Node) :
    AuthoredNode.entryOfContent (.seq (allToDocument nodes)) = some (allAuthored nodes) := by
  induction nodes with
  | nil => rfl
  | cons node nodes ih =>
    have hrest : (allToDocument nodes).mapM (fun v => (AuthoredNode.tagging.tagged? v).bind fun v =>
        (AuthoredNode.ofContent v).toOption) = some (allAuthored nodes) := ih
    rw [AuthoredNode.entryOfContent, Content.list?, allToDocument, List.mapM_cons, hrest,
      tagged?_toDocument, Option.bind_some, ofContent_toDocument]
    rfl

end Node

/-- A document with a literal tree as one of its entries is valid if it is with some other entry
there. The tree needs no repair, and the phrase resolves to it whatever the variables. -/
theorem resolve_literal_entry (f : Document.Frame) {text text' : String} {entry : Content}
    {c : Catalog} {warnings : List Warning} {nodes : List Node}
    (htext : Reader.content.run text = .ok (f.fill entry))
    (hload : Catalog.ofText text = .ok (c, warnings))
    (hdeclared : c.roster.declares f.locale = true)
    (htext' : Reader.content.run text' = .ok (f.fill (.seq (Node.allToDocument nodes)))) :
    ∃ c' warnings', Catalog.ofText text' = .ok (c', warnings') ∧
      (∀ repair : Repair, repair.warning f.key f.locale ∉ warnings') ∧
      ∀ b, c'.resolve f.locale f.key b = .ok nodes := by
  obtain ⟨d, hread, hd⟩ := Catalog.ofText_eq_ok_iff.mp hload
  have hentry := Node.entryOfContent_allToDocument nodes
  have hcompile := Node.compileAll_authored nodes
  obtain ⟨d', hvalue, hlocales, hfind⟩ :=
    f.ofContent_fill ((Document.read_eq_ok_iff htext).mp hread) hentry
  have hread' := (Document.read_eq_ok_iff htext').mpr hvalue
  obtain ⟨warnings', hd'⟩ := Document.toCatalog_of_changed hlocales hfind ⟨_, hcompile⟩ hd
  have hnodes : d'.find? f.key f.locale = some (Node.allAuthored nodes) := by
    rw [hfind, if_pos ⟨rfl, rfl⟩]
  refine ⟨_, warnings', Catalog.ofText_eq_ok_iff.mpr ⟨d', hread', hd'⟩,
    Document.no_repair_warning hd' hnodes hcompile, ?_⟩
  intro b
  have hfound : (d'.built c.roster).find? f.key f.locale =
      some (.template (Node.allTemplates nodes)) := by
    rw [Document.find?_built, hnodes, Option.bind_some, Document.Placed.entry?, if_pos hdeclared,
      hcompile]
    rfl
  rw [Catalog.resolve, Catalog.lookup_eq_ok_of_entry hfound, ok_bind]
  show (TemplateNode.instantiateAll b (Node.allTemplates nodes)).mapError _ = _
  rw [Node.instantiateAll_templates]
  rfl

/-- A text as a row of words. -/
def spelled (words : List String) : String := String.ofList (words.flatMap String.toList)

/-- A page of one phrase, around its English entry. -/
def pageFrame : Document.Frame where
  envelope := .members [("locales", .seq [.map [("localeCode", .string "EN"),
    ("name", .string "English"), ("isGlobalDefault", .bool true)]])] []
  key := "k"
  locale := "EN"
  phrasesBefore := []
  phrasesAfter := []
  entriesBefore := []
  entriesAfter := []
  keyLast := List.not_mem_nil
  localeLast := List.not_mem_nil

/-- The page with an entry in its place. -/
def page (entry : List String) : String :=
  spelled (["\x7b\"locales\":[\x7b", "\"localeCode\":\"EN\",", "\"name\":\"English\",",
    "\"isGlobalDefault\":true", "\x7d],", "\"phrases\":\x7b", "\"k\":\x7b", "\"EN\":"] ++ entry ++
    ["\x7d\x7d\x7d"])

/-- A numbered list of one item, whose text has a brace in it. -/
def pageNodes : List Node := [.list .ordered [[.ofText "a\x7bb"]]]

def pageEntry : List String :=
  ["[\x7b\"type\":\"ol\",", "\"children\":[\x7b", "\"type\":\"li\",", "\"children\":[\x7b",
    "\"type\":\"text\",", "\"content\":\"a\x7b\x7bb\",", "\"children\":[],", "\"styles\":\x7b",
    "\"isBold\":false,", "\"isItalic\":false,", "\"isUnderlined\":false,",
    "\"isStrikethrough\":false,", "\"isSuperscript\":false,", "\"isSubscript\":false",
    "\x7d\x7d]\x7d]\x7d]"]

theorem content_emptyPage :
    Reader.content.run (page ["[]"]) = .ok (pageFrame.fill (.seq [])) := by
  apply toOption_eq_some_iff.mp
  rw [Reader.run, page, spelled, String.toList_ofList]
  decide +kernel

theorem content_page : Reader.content.run (page pageEntry) =
    .ok (pageFrame.fill (.seq (Node.allToDocument pageNodes))) := by
  apply toOption_eq_some_iff.mp
  rw [Reader.run, page, spelled, String.toList_ofList]
  decide +kernel

theorem ofText_emptyPage : ∃ c warnings, Catalog.ofText (page ["[]"]) = .ok (c, warnings) ∧
    c.roster.declares "EN" = true := by
  have hdeclares : ((Document.ofContent (pageFrame.fill (.seq []))).bind fun d =>
      d.toCatalog.toOption.map fun r => r.1.roster.declares "EN") = some true := by decide +kernel
  obtain ⟨d, hd, hcatalog⟩ := Option.bind_eq_some_iff.mp hdeclares
  obtain ⟨⟨c, warnings⟩, hc, hdeclared⟩ := Option.map_eq_some_iff.mp hcatalog
  have hread := (Document.read_eq_ok_iff content_emptyPage).mpr hd
  have hload := Catalog.ofText_eq_ok_iff.mpr ⟨d, hread, toOption_eq_some_iff.mp hc⟩
  exact ⟨c, warnings, hload, hdeclared⟩

/-- The page without nodes is valid, so the page with the list is, and gives the list back. -/
theorem resolve_literal_entry_page :
    ∃ c warnings c' warnings', Reader.content.run (page ["[]"]) = .ok (pageFrame.fill (.seq [])) ∧
      Catalog.ofText (page ["[]"]) = .ok (c, warnings) ∧ c.roster.declares "EN" = true ∧
      Reader.content.run (page pageEntry) =
        .ok (pageFrame.fill (.seq (Node.allToDocument pageNodes))) ∧
      Catalog.ofText (page pageEntry) = .ok (c', warnings') ∧
      (∀ repair : Repair, repair.warning "k" "EN" ∉ warnings') ∧
      ∀ b, c'.resolve "EN" "k" b = .ok pageNodes := by
  obtain ⟨c, warnings, hload, hdeclared⟩ := ofText_emptyPage
  obtain ⟨c', warnings', hload', hwarnings, hresolve⟩ :=
    resolve_literal_entry pageFrame content_emptyPage hload hdeclared content_page
  exact ⟨c, warnings, c', warnings', content_emptyPage, hload, hdeclared, content_page, hload',
    hwarnings, hresolve⟩

end Phrasebook
