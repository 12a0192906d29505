import Phrasebook.Catalog
import Phrasebook.Document.AuthoredNode
import Phrasebook.Json.Record

namespace Phrasebook

open Json

structure Document where
  repositoryId : Option String := none
  version : Option String := none
  locales : List Locale := []
  /-- Authored nodes by key and locale code. -/
  phrases : Dict (Dict (List AuthoredNode)) := .empty
  debugInfo : Dict DebugInfo := .empty

def Locale.record : Record Locale where
  title := "struct LocaleInfo"
  start := { code := "", name := "" }
  fields :=
    [{ name := "localeCode", required := true
       set := Reader.string.map fun s l => { l with code := s } },
     { name := "name", required := true
       set := Reader.string.map fun s l => { l with name := s } },
     { name := "defaultFallbackCode", required := false
       set := (Reader.optional Reader.string).map fun s l => { l with fallback := s } },
     { name := "isGlobalDefault", required := false
       set := Reader.bool.map fun b l => { l with isDefault := b } }]

def DebugInfo.record : Record DebugInfo where
  title := "struct DebugInfo"
  start := ⟨"", ""⟩
  fields :=
    [{ name := "groupName", required := true
       set := Reader.string.map fun s info => { info with group := s } },
     { name := "phraseKey", required := true
       set := Reader.string.map fun s info => { info with key := s } }]

namespace Document

/-- Reads an object as a dictionary; of two members with one key the later one counts. -/
def dict {α : Type} (value : Reader α) : Reader (Dict α) := (Reader.dict value).map Dict.ofList

def record : Record Document where
  title := "struct Document"
  start := {}
  fields :=
    [{ name := "repositoryId", required := false
       set := (Reader.optional Reader.string).map fun s d => { d with repositoryId := s } },
     { name := "version", required := false
       set := (Reader.optional Reader.string).map fun s d => { d with version := s } },
     { name := "locales", required := true
       set := (Reader.list Locale.record.reader).map fun ls d => { d with locales := ls } },
     { name := "phrases", required := false
       set := (dict (dict AuthoredNode.reader)).map fun ps d => { d with phrases := ps } },
     { name := "debugInfo", required := false
       set := (dict DebugInfo.record.reader).map fun infos d => { d with debugInfo := infos } }]

/-- The document that a text holds. -/
def read (text : String) : Except Failure Document := record.reader.run text

end Document

end Phrasebook
