import Phrasebook.Json.Record
import Phrasebook.Proofs.Except
import Phrasebook.Proofs.Members

namespace Phrasebook.Json

variable {α β γ α' β' σ τ : Type} {R : α → β → Prop} {S : α' → β' → Prop}

/-- The same fault, or related values in front of the same text. -/
inductive Matched (R : α → β → Prop) :
    Except Fault (α × List Char) → Except Fault (β × List Char) → Prop
  | fault (fault : Fault) : Matched R (.error fault) (.error fault)
  | value {a : α} {b : β} (h : R a b) (rest : List Char) : Matched R (.ok (a, rest)) (.ok (b, rest))

theorem Matched.bind {x : Except Fault (α × List Char)} {y : Except Fault (β × List Char)}
    {f : α × List Char → Except Fault (α' × List Char)}
    {g : β × List Char → Except Fault (β' × List Char)} (h : Matched R x y)
    (hnext : ∀ a b rest, R a b → Matched S (f (a, rest)) (g (b, rest))) :
    Matched S (x >>= f) (y >>= g) := by
  cases h with
  | fault fault => exact .fault fault
  | value h rest => exact hnext _ _ rest h

/-- What comes first does not differ at all. -/
theorem Matched.after (x : Except Fault γ) {f : γ → Except Fault (α × List Char)}
    {g : γ → Except Fault (β × List Char)} (hnext : ∀ c, Matched R (f c) (g c)) :
    Matched R (x >>= f) (x >>= g) := by
  cases x with
  | error fault => exact .fault fault
  | ok c => exact hnext c

namespace Reader

def Matches (R : α → β → Prop) (r : Reader α) (r' : Reader β) : Prop :=
  ∀ depth cs, Matched R (r depth cs) (r' depth cs)

variable {r : Reader α} {r' : Reader β}

theorem matches_self (r : Reader α) : r.Matches Eq r := by
  intro depth cs
  cases r depth cs with
  | error fault => exact .fault fault
  | ok result => exact .value rfl result.2

theorem Matches.map {f : α → α'} {g : β → β'} (h : r.Matches R r')
    (hS : ∀ a b, R a b → S (f a) (g b)) : (r.map f).Matches S (r'.map g) := by
  intro depth cs
  apply (h depth cs).bind
  intro a b rest hab
  exact .value (hS a b hab) rest

theorem Matches.make {T : α → β' → Prop} {g : β → β'} (h : r.Matches R r')
    (hT : ∀ a b, R a b → T a (g b)) : r.Matches T (r'.map g) := by
  intro depth cs
  have hresult := h depth cs
  rw [Reader.map]
  generalize r depth cs = x at hresult ⊢
  generalize r' depth cs = y at hresult ⊢
  cases hresult with
  | fault fault => exact .fault fault
  | value hab rest => exact .value (hT _ _ hab) rest

theorem matches_make (r : Reader α) (f : α → β) : r.Matches (fun a b => b = f a) (r.map f) := by
  apply (matches_self r).make
  intro a a' haa'
  rw [haa']

theorem Matches.members (h : r.Matches R r') {depth : Nat} (fuel : Nat) :
    ∀ (first : Bool) (cs : List Char),
      Matched (List.Forall₂ (OnValues R)) (Reader.members r depth fuel first cs)
        (Reader.members r' depth fuel first cs) := by
  induction fuel with
  | zero =>
    intro first cs
    exact .fault _
  | succ fuel ih =>
    intro first cs
    rw [Reader.members, Reader.members]
    apply Matched.after
    intro next
    obtain ⟨more, start⟩ := next
    cases more with
    | false =>
      apply Matched.after
      intro rest
      exact .value .nil rest
    | true =>
      apply Matched.after
      intro key
      apply Matched.after
      intro afterColon
      apply (h depth afterColon).bind
      intro a b afterValue hab
      apply (ih false afterValue).bind
      intro others others' rest hothers
      exact .value (.cons ⟨rfl, hab⟩ hothers) rest

theorem Matches.dict (h : r.Matches R r') :
    (Reader.dict r).Matches (List.Forall₂ (OnValues R)) (Reader.dict r') := by
  intro depth cs
  rw [Reader.dict, Reader.dict, atValue, atValue]
  split
  · exact .fault _
  · split
    · apply Matched.after
      intro inner
      exact h.members _ _ _
    · exact .fault _

/-- A reader that matches another one up to a function gives what the function makes of its
result. -/
theorem Matches.run_eq {f : α → β} (h : r.Matches (fun a b => b = f a) r') (text : String) :
    r'.run text = (r.run text).map f := by
  have hresult := h depthLimit text.toList
  rw [run, run]
  generalize r depthLimit text.toList = x at hresult
  generalize r' depthLimit text.toList = y at hresult
  cases hresult with
  | fault fault => rfl
  | value heq rest =>
    subst heq
    simp only [ok_bind]
    split <;> rfl

end Reader

/-- Fields of the same name, that make related changes to related records. -/
structure Field.Matches (S : σ → τ → Prop) (field : Field σ) (field' : Field τ) : Prop where
  name : field.name = field'.name
  required : field.required = field'.required
  set : field.set.Matches (fun change change' => ∀ a b, S a b → S (change a) (change' b)) field'.set

namespace Record

variable {S : σ → τ → Prop} {r : Record σ} {r' : Record τ}

/-- The first field with a property is at the same place in both records. -/
theorem find?_matches (p : Field σ → Bool) (p' : Field τ → Bool) {fields : List (Field σ)}
    {fields' : List (Field τ)} (h : List.Forall₂ (Field.Matches S) fields fields')
    (hp : ∀ field field', Field.Matches S field field' → p field = p' field') :
    (fields.find? p = none ∧ fields'.find? p' = none) ∨
      ∃ field field', fields.find? p = some field ∧ fields'.find? p' = some field' ∧
        Field.Matches S field field' := by
  induction h with
  | nil => exact .inl ⟨rfl, rfl⟩
  | @cons field field' fields fields' hfield _ ih =>
    have hsame := hp field field' hfield
    rw [List.find?_cons, List.find?_cons, ← hsame]
    cases p field with
    | true => exact .inr ⟨field, field', rfl, rfl, hfield⟩
    | false => exact ih

theorem members_matches (hfields : List.Forall₂ (Field.Matches S) r.fields r'.fields)
    {depth : Nat} (fuel : Nat) :
    ∀ (first : Bool) (seen : List String) {a : σ} {b : τ} (cs : List Char), S a b →
      Matched S (r.members depth fuel first seen a cs) (r'.members depth fuel first seen b cs) := by
  induction fuel with
  | zero =>
    intro first seen a b cs _
    exact .fault _
  | succ fuel ih =>
    intro first seen a b cs hab
    rw [members, members]
    apply Matched.after
    intro next
    obtain ⟨more, start⟩ := next
    cases more with
    | false =>
      -- At the end, the first field that is wanted and missing is the same one in both records.
      obtain ⟨hnone, hnone'⟩ | ⟨field, field', hsome, hsome', hfield⟩ := find?_matches
        (fun field => field.required && !seen.contains field.name)
        (fun field => field.required && !seen.contains field.name) hfields
        (fun field field' h => by rw [h.name, h.required])
      · simp only [hnone, hnone']
        exact .value hab start
      · simp only [hsome, hsome', hfield.name]
        exact .fault _
    | true =>
      apply Matched.after
      intro key
      obtain ⟨key, afterKey⟩ := key
      obtain ⟨hnone, hnone'⟩ | ⟨field, field', hsome, hsome', hfield⟩ := find?_matches
        (fun field => field.name == key) (fun field => field.name == key) hfields
        (fun field field' h => by rw [h.name])
      · simp only [hnone, hnone']
        apply Matched.after
        intro afterColon
        apply Matched.after
        intro rest
        exact ih false seen rest hab
      · simp only [hsome, hsome']
        split
        · exact .fault _
        · apply Matched.after
          intro afterColon
          apply (hfield.set depth afterColon).bind
          intro change change' rest hchange
          exact ih false (key :: seen) rest (hchange a b hab)

theorem elements_matches (htitle : r.title = r'.title)
    (hlength : r.fields.length = r'.fields.length) {depth : Nat} {fields : List (Field σ)}
    {fields' : List (Field τ)} (hfields : List.Forall₂ (Field.Matches S) fields fields') :
    ∀ (index : Nat) {a : σ} {b : τ} (cs : List Char), S a b →
      Matched S (r.elements depth fields index a cs) (r'.elements depth fields' index b cs) := by
  induction hfields with
  | nil =>
    intro index a b cs hab
    exact .value hab cs
  | @cons field field' fields fields' hfield _ ih =>
    intro index a b cs hab
    rw [elements, elements]
    apply Matched.after
    intro next
    obtain ⟨more, start⟩ := next
    cases more with
    | false =>
      simp only [← htitle, ← hlength, ← hfield.required]
      split
      · exact .fault _
      · exact ih (index + 1) start hab
    | true =>
      apply (hfield.set depth start).bind
      intro change change' rest hchange
      exact ih (index + 1) rest (hchange a b hab)

theorem matches_reader (htitle : r.title = r'.title)
    (hfields : List.Forall₂ (Field.Matches S) r.fields r'.fields) (hstart : S r.start r'.start) :
    r.reader.Matches S r'.reader := by
  intro depth cs
  rw [reader, reader, Reader.atValue, Reader.atValue]
  split
  · exact .fault _
  · split
    · apply Matched.after
      intro inner
      apply (elements_matches htitle hfields.length_eq hfields 0 _ hstart).bind
      intro a b after hab
      apply Matched.after
      intro rest
      exact .value hab rest
    · apply Matched.after
      intro inner
      apply (members_matches hfields _ true [] _ hstart).bind
      intro a b after hab
      apply Matched.after
      intro rest
      exact .value hab rest
    · rw [htitle]
      exact .fault _

end Record

end Phrasebook.Json
