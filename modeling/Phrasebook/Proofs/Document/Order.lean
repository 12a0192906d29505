import Phrasebook.Proofs.Document.FirstFault
import Phrasebook.Proofs.Document.Frame
import Phrasebook.Proofs.Document.Manuscript
import Phrasebook.Proofs.Json.Written
import Mathlib.Data.List.Perm.Basic

namespace Phrasebook

open Json

namespace Json.Content

variable {α β : Type}

theorem mapM_eq_some_iff {f : α → Option β} {xs : List α} {ys : List β} :
    xs.mapM f = some ys ↔ List.Forall₂ (fun x y => f x = some y) xs ys := by
  induction xs generalizing ys with
  | nil =>
    cases ys <;> simp
  | cons x xs ih =>
    rw [List.mapM_cons, Option.bind_eq_bind, Option.bind_eq_some_iff]
    constructor
    · intro h
      obtain ⟨y, hy, h⟩ := h
      obtain ⟨ys', hys, h⟩ := Option.bind_eq_some_iff.mp h
      cases h
      exact .cons hy (ih.mp hys)
    · intro h
      obtain _ | ⟨hy, hys⟩ := h
      exact ⟨_, hy, Option.bind_eq_some_iff.mpr ⟨_, ih.mpr hys, rfl⟩⟩

theorem mapM_of_perm {f : α → Option β} {xs xs' : List α} (h : xs.Perm xs') {ys : List β}
    (hys : xs.mapM f = some ys) : ∃ ys', xs'.mapM f = some ys' ∧ ys.Perm ys' := by
  rw [mapM_eq_some_iff] at hys
  obtain ⟨ys', hmade, hperm⟩ := List.perm_comp_forall₂ h.symm hys
  exact ⟨ys', mapM_eq_some_iff.mpr hmade, hperm.symm⟩

theorem mapM_congr {f : α → Option β} {xs ys : List α}
    (h : List.Forall₂ (fun x y => f x = f y) xs ys) : xs.mapM f = ys.mapM f := by
  induction h with
  | nil => rfl
  | cons hxy _ ih => rw [List.mapM_cons, List.mapM_cons, hxy, ih]

/-- Objects with the same members but for their order, and with related values. -/
def SameObject (R : Content → Content → Prop) : Content → Content → Prop
  | .map ps, .map qs => SameMembers R ps qs
  | _, _ => False

theorem dict?_eq {R : Content → Content → Prop} {decode : Content → Option α}
    (hR : ∀ v w, R v w → decode v = decode w) :
    ∀ {v w : Content}, SameObject R v w → v.dict? decode = w.dict? decode
  | .map ps, .map qs, h => by
    obtain ⟨hdistinct, rs, hperm, hvalues⟩ := h
    let f : String × Content → Option (String × α) := fun p => (decode p.2).map fun a => (p.1, a)
    have hsame : rs.mapM f = qs.mapM f := by
      apply mapM_congr
      apply hvalues.imp
      intro p q hpq
      simp only [f, hpq.1, hR _ _ hpq.2]
    change (ps.mapM f).map Dict.ofList = (qs.mapM f).map Dict.ofList
    rw [← hsame]
    cases hps : ps.mapM f with
    | some as =>
      obtain ⟨bs, hbs, hab⟩ := mapM_of_perm hperm hps
      have hkeys : (as.map (·.1)).Nodup := by
        rw [keys_of_mapM hps]
        exact hdistinct
      rw [hbs, Option.map_some, Option.map_some, Dict.ofList_eq_of_perm hkeys hab]
    | none =>
      -- A value that is refused is refused at any place.
      cases hrs : rs.mapM f with
      | none => rfl
      | some bs =>
        obtain ⟨as, has, -⟩ := mapM_of_perm hperm.symm hrs
        rw [hps] at has
        cases has

end Json.Content

namespace Json.Record

variable {σ : Type} {r : Record σ} {decode : String → Content → Option (σ → σ)}

theorem ofMembers_congr {ps qs : List (String × Content)}
    (h : List.Forall₂ (fun p q => p.1 = q.1 ∧ decode p.1 p.2 = decode q.1 q.2) ps qs) :
    ∀ (seen : List String) (value : σ),
      r.ofMembers decode seen value ps = r.ofMembers decode seen value qs := by
  induction h with
  | nil =>
    intro seen value
    rfl
  | @cons p q ps qs hpq _ ih =>
    intro seen value
    obtain ⟨name, v⟩ := p
    obtain ⟨name', w⟩ := q
    obtain ⟨rfl, hvw⟩ := hpq
    rw [ofMembers, ofMembers, hvw]
    simp only [ih]

end Json.Record

namespace Document

open Content

/-- Values of a field of a document that differ in the order of keys only. -/
def FieldAlike : String → Content → Content → Prop
  | "phrases" => SameObject (SameObject Eq)
  | "debugInfo" => SameObject Eq
  | _ => Eq

/-- Fields of a document written as a list, in order. -/
def ItemsAlike : List (Json.Field Document) → List Content → List Content → Prop
  | field :: fields, v :: vs, w :: ws => FieldAlike field.name v w ∧ ItemsAlike fields vs ws
  | _, vs, ws => vs = ws

/-- Values of documents that differ in the order of phrases, of the entries of phrases and of debug
info only. -/
def SameButOrder : Content → Content → Prop
  | .map ps, .map qs => List.Forall₂ (fun p q => p.1 = q.1 ∧ FieldAlike p.1 p.2 q.2) ps qs
  | .seq vs, .seq ws => ItemsAlike record.fields vs ws
  | v, w => v = w

theorem decodeField_eq {name : String} {v w : Content} (h : FieldAlike name v w) :
    decodeField name v = decodeField name w := by
  rw [FieldAlike.eq_def] at h
  split at h
  · have hentries : ∀ v w, SameObject Eq v w → entriesOfContent v = entriesOfContent w := by
      intro v w hvw
      exact dict?_eq (fun _ _ heq => congrArg _ heq) hvw
    simp only [decodeField, phrasesOfContent, dict?_eq hentries h]
  · have hinfos : v.dict? DebugInfo.ofContent = w.dict? DebugInfo.ofContent :=
      dict?_eq (fun _ _ heq => congrArg _ heq) h
    simp only [decodeField, hinfos]
  · rw [h]

theorem ofItems_eq {fields : List (Json.Field Document)} :
    ∀ {vs ws : List Content} (d : Document), ItemsAlike fields vs ws →
      Record.ofItems decodeField fields d vs = Record.ofItems decodeField fields d ws := by
  induction fields with
  | nil =>
    intro vs ws d h
    rw [show vs = ws from h]
  | cons field fields ih =>
    intro vs ws d h
    cases vs with
    | nil => rw [show [] = ws from h]
    | cons v vs =>
      cases ws with
      | nil => cases h
      | cons w ws =>
        obtain ⟨hvw, hrest⟩ := h
        rw [Record.ofItems, Record.ofItems, decodeField_eq hvw]
        simp only [ih _ hrest]

theorem ofContent_eq {v w : Content} (h : SameButOrder v w) : ofContent v = ofContent w := by
  rw [SameButOrder.eq_def] at h
  split at h
  · apply Record.ofMembers_congr
    apply h.imp
    intro p q hpq
    rw [← hpq.1]
    exact ⟨rfl, decodeField_eq hpq.2⟩
  · exact ofItems_eq _ h
  · rw [h]

/-- A document that was read is rejected for its locales or for a template. -/
theorem fault_of_toCatalog {d : Document} {fault : LoadFault} (h : d.toCatalog = .error fault) :
    (∃ cause, fault = .roster cause) ∨ ∃ key locale cause, fault = .template key locale cause := by
  cases hroster : Roster.ofList d.locales with
  | error cause =>
    rw [toCatalog, hroster] at h
    cases h
    exact .inl ⟨cause, rfl⟩
  | ok r =>
    have hfirst := fault?_toCatalog hroster
    rw [h] at hfirst
    obtain ⟨e, -, hfault⟩ := List.exists_of_findSome?_eq_some hfirst.symm
    rw [Placed.fault?] at hfault
    split at hfault
    · obtain ⟨cause, -, rfl⟩ := Option.map_eq_some_iff.mp hfault
      exact .inr ⟨e.key, e.locale, cause, rfl⟩
    · cases hfault

end Document

/-- The order of keys does not matter. A document is its manuscript, with the members of its objects
in the order in which they are written, but for that order. So two texts whose manuscripts differ
only in the order of phrases, of the entries of phrases and of debug info, no key occurring twice,
make the same catalog with the same warnings, or have the same fault, which is one of the locales or
of a template. Texts are of this kind in particular if they hold values that differ in the order of
these members only. -/
theorem ofText_eq_of_reordered :
    (∀ text, Document.read text = (Manuscript.read text).map Manuscript.toDocument) ∧
    (∀ text text' m m', Manuscript.read text = .ok m → Manuscript.read text' = .ok m' →
      m.Reordered m' →
      Catalog.ofText text = Catalog.ofText text' ∧
        ∀ fault, Catalog.ofText text = .error fault →
          (∃ cause, fault = .roster cause) ∨
            ∃ key locale cause, fault = .template key locale cause) ∧
    ∀ text text' v w d, Reader.content.run text = .ok v → Reader.content.run text' = .ok w →
      Document.SameButOrder v w → Document.read text = .ok d →
      Catalog.ofText text = Catalog.ofText text' := by
  refine ⟨Manuscript.read_document, ?_, ?_⟩
  · intro text text' m m' hm hm' hsame
    have hread : Document.read text = .ok m.toDocument := by
      rw [Manuscript.read_document, hm]
      rfl
    have hread' : Document.read text' = .ok m.toDocument := by
      rw [Manuscript.read_document, hm', hsame.toDocument_eq]
      rfl
    rw [Catalog.ofText_of_read hread, Catalog.ofText_of_read hread']
    exact ⟨rfl, fun fault hfault => Document.fault_of_toCatalog hfault⟩
  · intro text text' v w d hv hw hsame hread
    have hread' : Document.read text' = .ok d := by
      rw [Document.read_eq_ok_iff hw, ← Document.ofContent_eq hsame]
      exact (Document.read_eq_ok_iff hv).mp hread
    rw [Catalog.ofText_of_read hread, Catalog.ofText_of_read hread']

/-- An entry whose text is no template. -/
def brokenEntry : Content := .seq [.map [("type", .string "text"), ("content", .string "\x7b")]]

def emptyInfo : Content := .map [("groupName", .string ""), ("phraseKey", .string "")]

/-- A document of one locale. -/
def pageValue (phrases debugInfo : List (String × Content)) : Content :=
  .map [("locales", .seq [.map [("localeCode", .string "EN"), ("name", .string ""),
      ("isGlobalDefault", .bool true)]]),
    ("phrases", .map phrases), ("debugInfo", .map debugInfo)]

def forwards : Content :=
  pageValue [("a", .map [("EN", brokenEntry), ("FR", .seq [])]), ("b", .map [("EN", brokenEntry)])]
    [("a", emptyInfo), ("b", emptyInfo)]

def backwards : Content :=
  pageValue [("b", .map [("EN", brokenEntry)]), ("a", .map [("FR", .seq []), ("EN", brokenEntry)])]
    [("b", emptyInfo), ("a", emptyInfo)]

theorem SameMembers.swap {α : Type} {R : α → α → Prop} {k k' : String} {a a' b b' : α} (h : k ≠ k')
    (ha : R a b) (ha' : R a' b') : SameMembers R [(k, a), (k', a')] [(k', b'), (k, b)] := by
  refine ⟨by simpa using h, [(k', a'), (k, a)], .swap .., ?_⟩
  exact .cons ⟨rfl, ha'⟩ (.cons ⟨rfl, ha⟩ .nil)

theorem sameButOrder_forwards : Document.SameButOrder forwards backwards := by
  have hentries : Content.SameObject Eq (.map [("EN", brokenEntry), ("FR", .seq [])])
      (.map [("FR", .seq []), ("EN", brokenEntry)]) := SameMembers.swap (by decide) rfl rfl
  have hentry : Content.SameObject Eq (.map [("EN", brokenEntry)]) (.map [("EN", brokenEntry)]) :=
    ⟨by decide, _, .refl _, .cons ⟨rfl, rfl⟩ .nil⟩
  refine .cons ⟨rfl, rfl⟩ (.cons ⟨rfl, ?_⟩ (.cons ⟨rfl, ?_⟩ .nil))
  · exact SameMembers.swap (R := Content.SameObject Eq) (by decide) hentries hentry
  · exact SameMembers.swap (R := Eq) (by decide) rfl rfl

/-- The fault is that of the smaller key, though it is written last. -/
theorem ofText_eq_of_reordered_backwards :
    Reader.content.run forwards.compact = .ok forwards ∧
      Reader.content.run backwards.compact = .ok backwards ∧
      Document.SameButOrder forwards backwards ∧
      (∃ d, Document.read forwards.compact = .ok d) ∧
      Catalog.ofText forwards.compact = Catalog.ofText backwards.compact ∧
      fault? (Catalog.ofText backwards.compact) =
        some (.template "a" "EN" ⟨⟨1, 1⟩, '\x7b'⟩) := by
  have hforwards : Reader.content.run forwards.compact = .ok forwards := by
    apply Reader.run_compact
    · simp [forwards, pageValue, brokenEntry, emptyInfo, Content.Numberless,
        Content.NumberlessAll, Content.NumberlessPairs]
    · decide
  have hbackwards : Reader.content.run backwards.compact = .ok backwards := by
    apply Reader.run_compact
    · simp [backwards, pageValue, brokenEntry, emptyInfo, Content.Numberless,
        Content.NumberlessAll, Content.NumberlessPairs]
    · decide
  have hfault : (Document.ofContent backwards).map (fun d => fault? d.toCatalog) =
      some (some (.template "a" "EN" ⟨⟨1, 1⟩, '\x7b'⟩)) := by decide +kernel
  obtain ⟨d, hd, hfault⟩ := Option.map_eq_some_iff.mp hfault
  have hread : Document.read forwards.compact = .ok d := by
    rw [Document.read_eq_ok_iff hforwards, Document.ofContent_eq sameButOrder_forwards, hd]
  have hbackread := (Document.read_eq_ok_iff hbackwards).mpr hd
  obtain ⟨-, -, hsame⟩ := ofText_eq_of_reordered
  refine ⟨hforwards, hbackwards, sameButOrder_forwards, ⟨d, hread⟩, ?_, ?_⟩
  · exact hsame _ _ _ _ d hforwards hbackwards sameButOrder_forwards hread
  · rw [Catalog.ofText_of_read hbackread, hfault]

end Phrasebook
