import Phrasebook.Proofs.Document.Decoding
import Phrasebook.Proofs.Document.Entries

namespace Phrasebook

open Json Json.Content

namespace Json.Content

variable {α β : Type}

theorem mapM_append_cons_iff {f : α → Option β} {xs ys : List α} {x : α} {zs : List β} :
    (xs ++ x :: ys).mapM f = some zs ↔
      ∃ bs b as, xs.mapM f = some bs ∧ f x = some b ∧ ys.mapM f = some as ∧
        zs = bs ++ b :: as := by
  simp only [List.mapM_append, List.mapM_cons, Option.bind_eq_bind, Option.pure_def,
    Option.bind_eq_some_iff, Option.some.injEq]
  constructor
  · intro h
    obtain ⟨bs, hbs, _, ⟨b, hb, as, has, rfl⟩, rfl⟩ := h
    exact ⟨bs, b, as, hbs, hb, has, rfl⟩
  · intro h
    obtain ⟨bs, b, as, hbs, hb, has, rfl⟩ := h
    exact ⟨bs, hbs, _, ⟨b, hb, as, has, rfl⟩, rfl⟩

variable {decode : Content → Option α}

theorem keys_of_mapM {ps : List (String × Content)} {qs : List (String × α)}
    (h : (ps.mapM fun p => (decode p.2).map fun a => (p.1, a)) = some qs) :
    qs.map (·.1) = ps.map (·.1) := by
  induction ps generalizing qs with
  | nil =>
    cases h
    rfl
  | cons p ps ih =>
    rw [← List.nil_append (p :: ps)] at h
    obtain ⟨bs, q, as, hnil, hq, has, rfl⟩ := mapM_append_cons_iff.mp h
    cases hnil
    obtain ⟨a, -, rfl⟩ := Option.map_eq_some_iff.mp hq
    rw [List.reverse_nil, List.nil_append, List.map_cons, List.map_cons, ih has]

variable {before after : List (String × Content)} {key : String} {v v' : Content} {d : Dict α}

theorem dict?_append_cons_iff (hlast : key ∉ after.map (·.1)) :
    dict? decode (.map (before ++ (key, v) :: after)) = some d ↔
      ∃ bs a as, (before.mapM fun p => (decode p.2).map fun a => (p.1, a)) = some bs ∧
        decode v = some a ∧ (after.mapM fun p => (decode p.2).map fun a => (p.1, a)) = some as ∧
        key ∉ as.map (·.1) ∧ d = Dict.ofList (bs ++ (key, a) :: as) := by
  rw [dict?, Option.map_eq_some_iff]
  constructor
  · intro h
    obtain ⟨ps, hps, rfl⟩ := h
    obtain ⟨bs, p, as, hbefore, hp, hafter, rfl⟩ := mapM_append_cons_iff.mp hps
    obtain ⟨a, ha, rfl⟩ := Option.map_eq_some_iff.mp hp
    exact ⟨bs, a, as, hbefore, ha, hafter, by rwa [keys_of_mapM hafter], rfl⟩
  · intro h
    obtain ⟨bs, a, as, hbefore, ha, hafter, -, rfl⟩ := h
    refine ⟨_, mapM_append_cons_iff.mpr ⟨bs, (key, a), as, hbefore, ?_, hafter, rfl⟩, rfl⟩
    rw [ha]
    rfl

theorem find?_of_dict? (h : dict? decode (.map (before ++ (key, v) :: after)) = some d)
    (hlast : key ∉ after.map (·.1)) : ∃ a, decode v = some a ∧ d.find? key = some a := by
  obtain ⟨bs, a, as, -, ha, -, hlast', rfl⟩ := (dict?_append_cons_iff hlast).mp h
  refine ⟨a, ha, ?_⟩
  rw [Dict.find?_ofList_append_cons a hlast', if_pos rfl]

/-- The last member of its key counts, so another value there is the only change. -/
theorem dict?_replace {a : α} (h : dict? decode (.map (before ++ (key, v) :: after)) = some d)
    (hv' : decode v' = some a) (hlast : key ∉ after.map (·.1)) :
    ∃ d', dict? decode (.map (before ++ (key, v') :: after)) = some d' ∧
      ∀ k, d'.find? k = if k = key then some a else d.find? k := by
  obtain ⟨bs, a₀, as, hbefore, -, hafter, hlast', rfl⟩ := (dict?_append_cons_iff hlast).mp h
  refine ⟨Dict.ofList (bs ++ (key, a) :: as), ?_, ?_⟩
  · exact (dict?_append_cons_iff hlast).mpr ⟨bs, a, as, hbefore, hv', hafter, hlast', rfl⟩
  · intro k
    rw [Dict.find?_ofList_append_cons a hlast', Dict.find?_ofList_append_cons a₀ hlast']
    split <;> rfl

end Json.Content

namespace Document

/-- What stands around the phrases of a document. -/
inductive Envelope where
  | members (before after : List (String × Content))
  | items (repositoryId version locales : Content) (after : List Content)

def Envelope.fill (phrases : Content) : Envelope → Content
  | .members before after => .map (before ++ ("phrases", phrases) :: after)
  | .items repositoryId version locales after =>
    .seq (repositoryId :: version :: locales :: phrases :: after)

/-- What stands around the entry of one key in one locale. Members of the same names may stand
before it, but not after it. -/
structure Frame where
  envelope : Envelope
  key : String
  locale : String
  phrasesBefore : List (String × Content)
  phrasesAfter : List (String × Content)
  entriesBefore : List (String × Content)
  entriesAfter : List (String × Content)
  keyLast : key ∉ phrasesAfter.map (·.1)
  localeLast : locale ∉ entriesAfter.map (·.1)

namespace Frame

def entries (f : Frame) (entry : Content) : Content :=
  .map (f.entriesBefore ++ (f.locale, entry) :: f.entriesAfter)

def phrases (f : Frame) (entry : Content) : Content :=
  .map (f.phrasesBefore ++ (f.key, f.entries entry) :: f.phrasesAfter)

/-- The document with an entry in its place. -/
def fill (f : Frame) (entry : Content) : Content := f.envelope.fill (f.phrases entry)

end Frame

def withPhrases (phrases : Dict (Dict (List AuthoredNode))) (d : Document) : Document :=
  { d with phrases := phrases }

theorem decodeField_phrases (v : Content) :
    decodeField "phrases" v = (phrasesOfContent v).map withPhrases := rfl

theorem commutes_decodeField (phrases : Dict (Dict (List AuthoredNode))) {name : String}
    (h : name ≠ "phrases") : Record.Commutes decodeField (withPhrases phrases) name := by
  intro v change hchange d
  unfold decodeField at hchange
  split at hchange
  · obtain ⟨s, -, rfl⟩ := Option.map_eq_some_iff.mp hchange
    rfl
  · obtain ⟨s, -, rfl⟩ := Option.map_eq_some_iff.mp hchange
    rfl
  · obtain ⟨ls, -, rfl⟩ := Option.map_eq_some_iff.mp hchange
    rfl
  · exact absurd rfl h
  · obtain ⟨infos, -, rfl⟩ := Option.map_eq_some_iff.mp hchange
    rfl
  · cases hchange

theorem ofContent_envelope_replace {e : Envelope} {v v' : Content} {d : Document}
    {phrases : Dict (Dict (List AuthoredNode))} (h : ofContent (e.fill v) = some d)
    (hv' : phrasesOfContent v' = some phrases) :
    (∃ change, decodeField "phrases" v = some change) ∧
      ofContent (e.fill v') = some (d.withPhrases phrases) := by
  have hset : decodeField "phrases" v' = some (withPhrases phrases) := by
    rw [decodeField_phrases, hv']
    rfl
  have hagain : ∀ change, decodeField "phrases" v = some change →
      ∀ d, withPhrases phrases d = withPhrases phrases (change d) := by
    intro change hchange d
    obtain ⟨ps, -, rfl⟩ := Option.map_eq_some_iff.mp hchange
    rfl
  cases e with
  | members before after =>
    exact Record.ofMembers_replace rfl hset hagain (fun _ => commutes_decodeField phrases) h
  | items repositoryId version locales after =>
    have hitems : Record.ofItems decodeField
        (record.fields.take 3 ++ record.fields[3] :: record.fields.drop 4) record.start
        ([repositoryId, version, locales] ++ v :: after) = some d := h
    have hcommute : ∀ other ∈ record.fields.drop 4,
        Record.Commutes decodeField (withPhrases phrases) other.name := by
      intro other hother
      obtain rfl := List.mem_singleton.mp hother
      exact commutes_decodeField phrases (by decide)
    exact Record.ofItems_replace hset hagain hcommute rfl hitems

theorem phrases_of_envelope {e : Envelope} {v : Content} {d : Document}
    (h : ofContent (e.fill v) = some d) : phrasesOfContent v = some d.phrases := by
  have hempty : phrasesOfContent (.map []) = some (Dict.ofList []) := rfl
  obtain ⟨⟨change, hchange⟩, -⟩ := ofContent_envelope_replace h hempty
  obtain ⟨phrases, hphrases, -⟩ := Option.map_eq_some_iff.mp hchange
  obtain ⟨-, hsame⟩ := ofContent_envelope_replace h hphrases
  have hd : d = d.withPhrases phrases := Option.some.inj (h.symm.trans hsame)
  rw [hd, hphrases]
  rfl

/-- A document holds its entry as the nodes that the entry stands for. -/
theorem Frame.find?_of_fill (f : Frame) {v : Content} {d : Document}
    (h : ofContent (f.fill v) = some d) :
    ∃ nodes, AuthoredNode.entryOfContent v = some nodes ∧ d.find? f.key f.locale = some nodes := by
  obtain ⟨entries, hentries, hfound⟩ := find?_of_dict? (phrases_of_envelope h) f.keyLast
  obtain ⟨nodes, hnodes, hfound'⟩ := find?_of_dict? hentries f.localeLast
  refine ⟨nodes, hnodes, ?_⟩
  rw [find?, hfound, Option.bind_some, hfound']

/-- Another entry in the place of one that a document holds changes that entry alone. -/
theorem Frame.ofContent_fill (f : Frame) {v v' : Content} {d : Document}
    {nodes : List AuthoredNode} (h : ofContent (f.fill v) = some d)
    (hv' : AuthoredNode.entryOfContent v' = some nodes) :
    ∃ d', ofContent (f.fill v') = some d' ∧ d'.locales = d.locales ∧
      ∀ key locale, d'.find? key locale =
        if key = f.key ∧ locale = f.locale then some nodes else d.find? key locale := by
  have hphrases : phrasesOfContent (f.phrases v) = some d.phrases := phrases_of_envelope h
  obtain ⟨entries, hentries, hfound⟩ := find?_of_dict? hphrases f.keyLast
  obtain ⟨entries', hentries', hentry⟩ := dict?_replace hentries hv' f.localeLast
  obtain ⟨phrases', hphrases', hphrase⟩ := dict?_replace hphrases hentries' f.keyLast
  obtain ⟨-, hfill⟩ := ofContent_envelope_replace h hphrases'
  refine ⟨d.withPhrases phrases', hfill, rfl, ?_⟩
  intro key locale
  show (phrases'.find? key).bind (·.find? locale) = _
  rw [hphrase, find?]
  by_cases hkey : key = f.key
  · subst hkey
    rw [if_pos rfl, hfound]
    simp [hentry]
  · simp [hkey]

end Document

end Phrasebook
