import Phrasebook.Json.Record
import Phrasebook.Proofs.Json.Decoding
import Phrasebook.Proofs.Json.Skip

namespace Phrasebook.Json.Record

open Reader

variable {σ : Type} (r : Record σ) (decode : String → Content → Option (σ → σ))

/-- Sets the fields that members name, and wants those that are required. `seen` holds the names of
the fields set so far. -/
def ofMembers (seen : List String) (value : σ) : List (String × Content) → Option σ
  | [] =>
    if r.fields.any fun field => field.required && !seen.contains field.name then none
    else some value
  | (key, v) :: ps =>
    if r.fields.any (·.name == key) then
      if seen.contains key then none
      else (decode key v).bind fun change => ofMembers (key :: seen) (change value) ps
    else ofMembers seen value ps

/-- Sets fields in order. -/
def ofItems : List (Field σ) → σ → List Content → Option σ
  | [], value, [] => some value
  | [], _, _ :: _ => none
  | field :: fields, value, [] => if field.required then none else ofItems fields value []
  | field :: fields, value, v :: vs =>
    (decode field.name v).bind fun change => ofItems fields (change value) vs

def ofContent : Content → Option σ
  | .map ps => r.ofMembers decode [] r.start ps
  | .seq vs => ofItems decode r.fields r.start vs
  | _ => none

variable {r decode}

theorem toOption_members (h : ∀ field ∈ r.fields, field.set.Decodes (decode field.name))
    {depth : Nat} {ps : List (String × Content)} {after : List Char} :
    ∀ (fuel : Nat) {first : Bool} {seen : List String} {value : σ} {cs : List Char},
      cs.length < fuel → pairs depth first cs = .ok (ps, after) →
      (r.members depth fuel first seen value cs).toOption =
        (r.ofMembers decode seen value ps).map fun a => (a, after) := by
  induction ps with
  | nil =>
    intro fuel first seen value cs hfuel hpairs
    obtain ⟨fuel, rfl⟩ := Nat.exists_eq_add_one_of_ne_zero (Nat.ne_zero_of_lt hfuel)
    have hnext := pairs_nil_iff.mp hpairs
    rw [members, hnext, ok_bind, ofMembers]
    simp only
    split
    · next field hfind =>
      rw [if_pos (List.any_eq_true.mpr
        ⟨field, List.mem_of_find?_eq_some hfind, List.find?_some hfind⟩)]
      rfl
    · next hfind =>
      rw [if_neg]
      · rfl
      · intro hany
        obtain ⟨field, hfield, hmissing⟩ := List.any_eq_true.mp hany
        exact List.find?_eq_none.mp hfind field hfield hmissing
  | cons p ps ih =>
    intro fuel first seen value cs hfuel hpairs
    obtain ⟨key, v⟩ := p
    obtain ⟨fuel, rfl⟩ := Nat.exists_eq_add_one_of_ne_zero (Nat.ne_zero_of_lt hfuel)
    obtain ⟨start, afterKey, afterColon, after', hnext, hkey, hcolon, hvalue, hothers⟩ :=
      pairs_cons_iff.mp hpairs
    have hle := length_of_nextMember hnext
    have hkeyLt := (string_eq_ok hkey).1
    have hcolonLt := length_of_skipBlanks (colon_eq_ok hcolon)
    have hlt := length_of_content hvalue
    rw [members, hnext, ok_bind, ofMembers]
    simp only [hkey, hcolon, ok_bind]
    split
    · next hfind =>
      rw [if_neg]
      · rw [skip_of_content hvalue, ok_bind]
        exact ih fuel (by omega) hothers
      · intro hany
        obtain ⟨field, hfield, hname⟩ := List.any_eq_true.mp hany
        exact List.find?_eq_none.mp hfind field hfield hname
    · next field hfind =>
      have hfield := List.mem_of_find?_eq_some hfind
      have hname : field.name = key := by simpa using List.find?_some hfind
      have hknown : (r.fields.any fun field => field.name == key) = true :=
        List.any_eq_true.mpr ⟨field, hfield, beq_iff_eq.mpr hname⟩
      rw [if_pos hknown]
      split
      · rfl
      · show (field.set depth afterColon >>= fun p =>
          members r depth fuel false (key :: seen) (p.1 value) p.2).toOption = _
        rw [toOption_bind, h field hfield hvalue, hname]
        cases decode key v with
        | none => rfl
        | some change =>
          show (members r depth fuel false (key :: seen) (change value) after').toOption = _
          exact ih fuel (by omega) hothers

theorem closeList_of_end {first : Bool} {cs after : List Char}
    (hnext : nextElement first cs = .ok (false, after)) : closeList cs = closeList after := by
  obtain ⟨tail, hskip, rfl⟩ := nextElement_false hnext
  rw [closeList, closeList, skipBlanks_of_eq hskip, hskip]

theorem nextElement_of_end {first : Bool} {cs after : List Char}
    (hnext : nextElement first cs = .ok (false, after)) :
    nextElement false after = .ok (false, after) := by
  obtain ⟨tail, hskip, rfl⟩ := nextElement_false hnext
  rw [nextElement, skipBlanks_of_eq hskip]
  rfl

theorem closeList_of_more {first : Bool} {cs start : List Char}
    (hnext : nextElement first cs = .ok (true, start)) : (closeList cs).toOption = none := by
  cases hclose : closeList cs with
  | error _ => rfl
  | ok rest =>
    have hbracket := closeList_eq_ok hclose
    obtain ⟨-, c, tail, hc, hskip, -⟩ | ⟨-, tail, hskip, -⟩ := nextElement_true hnext
    · rw [hskip] at hbracket
      exact absurd (List.cons.inj hbracket).1 hc
    · rw [hskip] at hbracket
      exact absurd (List.cons.inj hbracket).1 (by decide)

theorem toOption_elements (h : ∀ field ∈ r.fields, field.set.Decodes (decode field.name))
    {depth : Nat} {after rest : List Char} (hclose : closeList after = .ok rest)
    {fields : List (Field σ)} (hfields : ∀ field ∈ fields, field ∈ r.fields) :
    ∀ {index : Nat} {value : σ} {vs : List Content} {cs : List Char},
      values depth (index == 0) cs = .ok (vs, after) →
      (r.elements depth fields index value cs >>= fun p =>
        closeList p.2 >>= fun rest => pure (p.1, rest)).toOption =
        (ofItems decode fields value vs).map fun a => (a, rest) := by
  induction fields with
  | nil =>
    intro index value vs cs hvalues
    rw [elements, ok_bind]
    -- No field is left, so the list is closed only if it has no more values.
    cases vs with
    | nil =>
      rw [closeList_of_end (values_nil_iff.mp hvalues), hclose]
      rfl
    | cons v vs =>
      obtain ⟨start, after', hnext, -, -⟩ := values_cons_iff.mp hvalues
      rw [toOption_bind, closeList_of_more hnext]
      rfl
  | cons field fields ih =>
    intro index value vs cs hvalues
    have hfields' : ∀ field ∈ fields, field ∈ r.fields :=
      fun field hfield => hfields field (List.mem_cons_of_mem _ hfield)
    rw [elements]
    cases vs with
    | nil =>
      have hnext := values_nil_iff.mp hvalues
      rw [hnext, ok_bind, ofItems]
      simp only
      split
      · rfl
      · exact ih hfields' (values_nil_iff.mpr (nextElement_of_end hnext))
    | cons v vs =>
      obtain ⟨start, after', hnext, hvalue, hothers⟩ := values_cons_iff.mp hvalues
      have hset := h field (hfields field List.mem_cons_self) hvalue
      rw [hnext, ok_bind, ofItems]
      simp only
      rw [bind_assoc, toOption_bind, hset]
      cases decode field.name v with
      | none => rfl
      | some change => exact ih hfields' hothers

theorem reader_eq_none {depth : Nat} {cs tail : List Char} {c : Char}
    (hskip : skipBlanks cs = c :: tail) (hlist : c ≠ '[') (hobject : c ≠ '\x7b') :
    (r.reader depth cs).toOption = none := by
  rw [reader, atValue_eq hskip]
  split
  · next heq => exact absurd (List.cons.inj heq).1 hlist
  · next heq => exact absurd (List.cons.inj heq).1 hobject
  · rfl

theorem decodes_reader (h : ∀ field ∈ r.fields, field.set.Decodes (decode field.name)) :
    r.reader.Decodes (r.ofContent decode) := by
  intro depth cs v rest hv
  cases spells_of_content hv with
  | seq hskip hdescend hvalues hclose =>
    rw [reader, atValue_eq hskip]
    simp only [hdescend, ok_bind]
    exact toOption_elements h hclose (fun _ hfield => hfield) hvalues
  | map hskip hdescend hpairs hclose =>
    rw [reader, atValue_eq hskip]
    simp only [hdescend, ok_bind]
    rw [toOption_bind, toOption_members h _ (Nat.lt_succ_self _) hpairs, ofContent]
    cases r.ofMembers decode [] r.start _ with
    | none => rfl
    | some a =>
      simp only [Option.map_some, Option.bind_some, hclose, ok_bind]
      rfl
  | null hskip | yes hskip | no hskip | string hskip =>
    exact reader_eq_none hskip (by decide) (by decide)
  | integer hskip hnumber | float hskip hnumber =>
    exact reader_eq_none hskip (ne_of_number hnumber (by decide) (by decide))
      (ne_of_number hnumber (by decide) (by decide))

/-- The change `g` does not matter to the setting of the fields named `names`. -/
def Commutes (decode : String → Content → Option (σ → σ)) (g : σ → σ) (name : String) : Prop :=
  ∀ ⦃v : Content⦄ ⦃change : σ → σ⦄, decode name v = some change →
    ∀ a, change (g a) = g (change a)

theorem ofMembers_commute {g : σ → σ} {ps : List (String × Content)} :
    ∀ {seen : List String} {value : σ},
      (∀ name, seen.contains name = false → Commutes decode g name) →
      r.ofMembers decode seen (g value) ps = (r.ofMembers decode seen value ps).map g := by
  induction ps with
  | nil =>
    intro seen value _
    rw [ofMembers, ofMembers]
    split <;> rfl
  | cons p ps ih =>
    intro seen value hcommute
    obtain ⟨key, v⟩ := p
    rw [ofMembers, ofMembers]
    split
    · split
      · rfl
      · next hseen =>
        cases hchange : decode key v with
        | none => rfl
        | some change =>
          simp only [Option.bind_some]
          rw [hcommute key (by simpa using hseen) hchange]
          apply ih
          intro name hname
          apply hcommute
          rw [List.contains_cons, Bool.or_eq_false_iff] at hname
          exact hname.2
    · exact ih hcommute

theorem ofItems_commute {g : σ → σ} {fields : List (Field σ)}
    (hcommute : ∀ field ∈ fields, Commutes decode g field.name) :
    ∀ {value : σ} {vs : List Content},
      ofItems decode fields (g value) vs = (ofItems decode fields value vs).map g := by
  induction fields with
  | nil =>
    intro value vs
    cases vs <;> rfl
  | cons field fields ih =>
    intro value vs
    obtain ⟨hfield, hfields⟩ := List.forall_mem_cons.mp hcommute
    cases vs with
    | nil =>
      rw [ofItems, ofItems]
      split
      · rfl
      · exact ih hfields
    | cons v vs =>
      rw [ofItems, ofItems]
      cases hchange : decode field.name v with
      | none => rfl
      | some change =>
        simp only [Option.bind_some]
        rw [hfield hchange]
        exact ih hfields

/-- Another value of a member changes what that member sets. -/
theorem ofMembers_replace {g change' : σ → σ} {name : String} {v v' : Content}
    {before after : List (String × Content)} (hname : r.fields.any (·.name == name) = true)
    (hv' : decode name v' = some change')
    (hg : ∀ change, decode name v = some change → ∀ a, change' a = g (change a))
    (hcommute : ∀ other, other ≠ name → Commutes decode g other) :
    ∀ {seen : List String} {value a : σ},
      r.ofMembers decode seen value (before ++ (name, v) :: after) = some a →
      (∃ change, decode name v = some change) ∧
        r.ofMembers decode seen value (before ++ (name, v') :: after) = some (g a) := by
  induction before with
  | nil =>
    intro seen value a h
    rw [List.nil_append, ofMembers, if_pos hname] at h ⊢
    by_cases hseen : seen.contains name = true
    · rw [if_pos hseen] at h
      cases h
    · rw [if_neg hseen] at h
      obtain ⟨change, hchange, hafter⟩ := Option.bind_eq_some_iff.mp h
      refine ⟨⟨change, hchange⟩, ?_⟩
      rw [if_neg hseen, hv', Option.bind_some, hg change hchange, ofMembers_commute, hafter]
      · rfl
      · intro other hother
        rw [List.contains_cons, Bool.or_eq_false_iff] at hother
        exact hcommute other (by simpa using hother.1)
  | cons p before ih =>
    intro seen value a h
    obtain ⟨key, w⟩ := p
    rw [List.cons_append, ofMembers] at h ⊢
    split at h
    · next hknown =>
      split at h
      · cases h
      · next hseen =>
        obtain ⟨set, hset, hrest⟩ := Option.bind_eq_some_iff.mp h
        rw [if_pos hknown, if_neg hseen, hset]
        exact ih hrest
    · next hunknown =>
      rw [if_neg hunknown]
      exact ih h

/-- Another value of an item changes what the field at its place sets. -/
theorem ofItems_replace {g change' : σ → σ} {field : Field σ} {v v' : Content}
    {fieldsAfter : List (Field σ)} {after : List Content}
    (hv' : decode field.name v' = some change')
    (hg : ∀ change, decode field.name v = some change → ∀ a, change' a = g (change a))
    (hcommute : ∀ other ∈ fieldsAfter, Commutes decode g other.name) :
    ∀ {fieldsBefore : List (Field σ)} {before : List Content} {value a : σ},
      before.length = fieldsBefore.length →
      ofItems decode (fieldsBefore ++ field :: fieldsAfter) value (before ++ v :: after) = some a →
      (∃ change, decode field.name v = some change) ∧
        ofItems decode (fieldsBefore ++ field :: fieldsAfter) value (before ++ v' :: after) =
          some (g a) := by
  intro fieldsBefore
  induction fieldsBefore with
  | nil =>
    intro before value a hlength h
    rw [List.eq_nil_of_length_eq_zero hlength] at h ⊢
    obtain ⟨change, hchange, hafter⟩ := Option.bind_eq_some_iff.mp h
    refine ⟨⟨change, hchange⟩, ?_⟩
    rw [List.nil_append, List.nil_append, ofItems, hv', Option.bind_some, hg change hchange,
      ofItems_commute hcommute, hafter]
    rfl
  | cons first fieldsBefore ih =>
    intro before value a hlength h
    obtain ⟨w, before, rfl⟩ := List.exists_cons_of_length_eq_add_one hlength
    obtain ⟨set, hset, hrest⟩ := Option.bind_eq_some_iff.mp h
    obtain ⟨hchange, hreplaced⟩ := ih (Nat.succ.inj hlength) hrest
    refine ⟨hchange, ?_⟩
    rw [List.cons_append, List.cons_append, ofItems, hset]
    exact hreplaced

end Phrasebook.Json.Record
