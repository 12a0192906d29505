import Phrasebook.Document.Basic
import Phrasebook.Proofs.Json.Matching

namespace Phrasebook

open Json

/-- A document as it is written. -/
structure Manuscript where
  repositoryId : Option String := none
  version : Option String := none
  locales : List Locale := []
  /-- The phrases, each with its key, and their entries, each with its locale code. -/
  phrases : List (String × List (String × List AuthoredNode)) := []
  debugInfo : List (String × DebugInfo) := []

namespace Manuscript

def record : Record Manuscript where
  title := Document.record.title
  start := {}
  fields :=
    [{ name := "repositoryId", required := false
       set := (Reader.optional Reader.string).map fun s m => { m with repositoryId := s } },
     { name := "version", required := false
       set := (Reader.optional Reader.string).map fun s m => { m with version := s } },
     { name := "locales", required := true
       set := (Reader.list Locale.record.reader).map fun ls m => { m with locales := ls } },
     { name := "phrases", required := false
       set := (Reader.dict (Reader.dict AuthoredNode.reader)).map fun ps m =>
        { m with phrases := ps } },
     { name := "debugInfo", required := false
       set := (Reader.dict DebugInfo.record.reader).map fun infos m =>
        { m with debugInfo := infos } }]

/-- The manuscript that a text holds. -/
def read (text : String) : Except Failure Manuscript := record.reader.run text

/-- The phrases of a manuscript, found by key and locale code. -/
def shelve (phrases : List (String × List (String × List AuthoredNode))) :
    Dict (Dict (List AuthoredNode)) :=
  Dict.ofList (phrases.map fun p => (p.1, Dict.ofList p.2))

def toDocument (m : Manuscript) : Document where
  repositoryId := m.repositoryId
  version := m.version
  locales := m.locales
  phrases := shelve m.phrases
  debugInfo := Dict.ofList m.debugInfo

theorem matches_phrases :
    (Reader.dict (Reader.dict AuthoredNode.reader)).Matches (fun ps d => d = shelve ps)
      (Document.dict (Document.dict AuthoredNode.reader)) := by
  have hentries : (Reader.dict AuthoredNode.reader).Matches (fun es d => d = Dict.ofList es)
      (Document.dict AuthoredNode.reader) := Reader.matches_make _ _
  apply hentries.dict.make
  intro ps qs hvalues
  have hsame := map_eq_of_onValues hvalues fun es d hd => hd.symm
  rw [shelve, hsame]
  simp

/-- A field that is read alike and put alike. -/
theorem matches_field {α β : Type} {R : α → β → Prop} {r : Reader α} {r' : Reader β}
    (h : r.Matches R r') (name : String) (required : Bool) {put : α → Manuscript → Manuscript}
    {put' : β → Document → Document}
    (hput : ∀ a b, R a b → ∀ m : Manuscript, put' b m.toDocument = (put a m).toDocument) :
    Field.Matches (fun m d => d = m.toDocument) ⟨name, required, r.map put⟩
      ⟨name, required, r'.map put'⟩ := by
  refine ⟨rfl, rfl, h.map ?_⟩
  intro a b hab m d hd
  rw [hd]
  exact hput a b hab m

/-- Reading the manuscript and reading the document go alike, whatever the text is. -/
theorem matches_reader :
    record.reader.Matches (fun m d => d = m.toDocument) Document.record.reader := by
  refine Record.matches_reader rfl ?_ rfl
  refine .cons (matches_field (Reader.matches_self _) _ _ ?_)
    (.cons (matches_field (Reader.matches_self _) _ _ ?_)
      (.cons (matches_field (Reader.matches_self _) _ _ ?_)
        (.cons (matches_field matches_phrases _ _ ?_)
          (.cons (matches_field (Reader.matches_make _ Dict.ofList) _ _ ?_) .nil))))
  all_goals
    intro a b hab m
    rw [hab]
    rfl

theorem read_document (text : String) : Document.read text = (read text).map toDocument :=
  matches_reader.run_eq text

/-- The manuscripts differ in the order of phrases, of the entries of phrases and of debug info
only. -/
structure Reordered (m m' : Manuscript) : Prop where
  repositoryId : m.repositoryId = m'.repositoryId
  version : m.version = m'.version
  locales : m.locales = m'.locales
  phrases : SameMembers (SameMembers Eq) m.phrases m'.phrases
  debugInfo : SameMembers Eq m.debugInfo m'.debugInfo

theorem Reordered.toDocument_eq {m m' : Manuscript} (h : m.Reordered m') :
    m.toDocument = m'.toDocument := by
  have hphrases : shelve m.phrases = shelve m'.phrases :=
    h.phrases.ofList_map_eq fun _ _ hentries => hentries.ofList_eq
  rw [toDocument, toDocument, h.repositoryId, h.version, h.locales, hphrases,
    h.debugInfo.ofList_eq]

end Manuscript

end Phrasebook
