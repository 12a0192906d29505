import Phrasebook.Proofs.Document.Entries
import Phrasebook.Proofs.Json.Record
import Phrasebook.Proofs.Json.Written

namespace Phrasebook

open Json

/-- An object as a dictionary; of two members with one key the later one counts. -/
def Json.Content.dict? {α : Type} (decode : Content → Option α) (v : Content) : Option (Dict α) :=
  (v.pairs? decode).map Dict.ofList

theorem Json.Reader.Decodes.asDict {α : Type} {value : Reader α} {decode : Content → Option α}
    (h : value.Decodes decode) : (Document.dict value).Decodes (Content.dict? decode) :=
  h.dict.map _

def Locale.decodeField : String → Content → Option (Locale → Locale)
  | "localeCode", v => v.string?.map fun s l => { l with code := s }
  | "name", v => v.string?.map fun s l => { l with name := s }
  | "defaultFallbackCode", v =>
    (v.optional? Content.string?).map fun s l => { l with fallback := s }
  | "isGlobalDefault", v => v.bool?.map fun b l => { l with isDefault := b }
  | _, _ => none

def Locale.ofContent : Content → Option Locale := Locale.record.ofContent decodeField

theorem Locale.decodes_reader : Locale.record.reader.Decodes ofContent := by
  apply Record.decodes_reader
  simp only [Locale.record, List.forall_mem_cons]
  refine ⟨?_, ?_, ?_, ?_, nofun⟩
  · exact Reader.decodes_string.map _
  · exact Reader.decodes_string.map _
  · exact Reader.decodes_string.optional.map _
  · exact Reader.decodes_bool.map _

def DebugInfo.decodeField : String → Content → Option (DebugInfo → DebugInfo)
  | "groupName", v => v.string?.map fun s info => { info with group := s }
  | "phraseKey", v => v.string?.map fun s info => { info with key := s }
  | _, _ => none

def DebugInfo.ofContent : Content → Option DebugInfo := DebugInfo.record.ofContent decodeField

theorem DebugInfo.decodes_reader : DebugInfo.record.reader.Decodes ofContent := by
  apply Record.decodes_reader
  simp only [DebugInfo.record, List.forall_mem_cons]
  refine ⟨?_, ?_, nofun⟩
  · exact Reader.decodes_string.map _
  · exact Reader.decodes_string.map _

/-- The entry of a phrase. -/
def AuthoredNode.entryOfContent : Content → Option (List AuthoredNode) :=
  Content.list? fun v => (tagging.tagged? v).bind fun v => (ofContent v).toOption

theorem AuthoredNode.decodes_reader : reader.Decodes entryOfContent :=
  (Reader.decodes_tagged tagging).listOf ofContent

namespace Document

/-- The entries of a phrase, by locale code. -/
def entriesOfContent : Content → Option (Dict (List AuthoredNode)) :=
  Content.dict? AuthoredNode.entryOfContent

def phrasesOfContent : Content → Option (Dict (Dict (List AuthoredNode))) :=
  Content.dict? entriesOfContent

def decodeField : String → Content → Option (Document → Document)
  | "repositoryId", v =>
    (v.optional? Content.string?).map fun s d => { d with repositoryId := s }
  | "version", v => (v.optional? Content.string?).map fun s d => { d with version := s }
  | "locales", v => (v.list? Locale.ofContent).map fun ls d => { d with locales := ls }
  | "phrases", v => (phrasesOfContent v).map fun ps d => { d with phrases := ps }
  | "debugInfo", v =>
    (v.dict? DebugInfo.ofContent).map fun infos d => { d with debugInfo := infos }
  | _, _ => none

def ofContent : Content → Option Document := record.ofContent decodeField

theorem decodes_reader : record.reader.Decodes ofContent := by
  apply Record.decodes_reader
  simp only [record, List.forall_mem_cons]
  refine ⟨?_, ?_, ?_, ?_, ?_, nofun⟩
  · exact Reader.decodes_string.optional.map _
  · exact Reader.decodes_string.optional.map _
  · exact Locale.decodes_reader.list.map _
  · exact AuthoredNode.decodes_reader.asDict.asDict.map _
  · exact DebugInfo.decodes_reader.asDict.map _

/-- The document of a text depends on the value that the text holds alone. -/
theorem read_eq_ok_iff {text : String} {v : Content} (hv : Reader.content.run text = .ok v)
    {d : Document} : read text = .ok d ↔ ofContent v = some d :=
  decodes_reader.run_eq_ok_iff hv

/-- The catalog that a value stands for. -/
def catalog? (v : Content) : Option Catalog :=
  (ofContent v).bind fun d => d.toCatalog.toOption.map Prod.fst

/-- What is known of the catalog of a value holds of the catalog of its text. -/
theorem ofText_compact {v : Content} (hplain : v.Numberless) (hnesting : v.nesting < depthLimit)
    {α : Type} {f : Catalog → α} {a : α} (h : (catalog? v).map f = some a) :
    ∃ c warnings, Catalog.ofText v.compact = .ok (c, warnings) ∧ f c = a := by
  obtain ⟨c, hcatalog, hf⟩ := Option.map_eq_some_iff.mp h
  obtain ⟨d, hd, hresult⟩ := Option.bind_eq_some_iff.mp hcatalog
  obtain ⟨⟨c, warnings⟩, hc, rfl⟩ := Option.map_eq_some_iff.mp hresult
  have hread : read v.compact = .ok d :=
    (read_eq_ok_iff (Reader.run_compact hplain hnesting)).mpr hd
  exact ⟨c, warnings, (Catalog.ofText_of_read hread).trans (toOption_eq_some_iff.mp hc), hf⟩

end Document

end Phrasebook
