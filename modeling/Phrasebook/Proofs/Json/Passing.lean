import Phrasebook.Proofs.Json.Record
import Phrasebook.Proofs.Json.Whole

namespace Phrasebook.Json

/-- The text `rest` is the end of `cs`, and not all of it. -/
def Ends (rest cs : List Char) : Prop := rest <:+ cs ∧ rest.length < cs.length

variable {cs rest after : List Char} {fuel : Nat}

theorem ends_of_cons {c : Char} (h : c :: rest <:+ cs) : Ends rest cs := by
  refine ⟨(List.suffix_cons c rest).trans h, ?_⟩
  have hle := h.length_le
  rw [List.length_cons] at hle
  omega

theorem Ends.of_suffix (h : Ends rest after) (hsuffix : after <:+ cs) : Ends rest cs :=
  ⟨h.1.trans hsuffix, Nat.lt_of_lt_of_le h.2 hsuffix.length_le⟩

theorem Ends.suffix (h : Ends after cs) (hsuffix : rest <:+ after) : Ends rest cs :=
  ⟨hsuffix.trans h.1, Nat.lt_of_le_of_lt hsuffix.length_le h.2⟩

theorem skipBlanks_suffix (cs : List Char) : skipBlanks cs <:+ cs :=
  List.dropWhile_suffix isBlank

theorem ends_of_skipBlanks {c : Char} (h : skipBlanks cs = c :: rest) : Ends rest cs :=
  ends_of_cons (h ▸ skipBlanks_suffix cs)

theorem keyword_suffix {ks : List Char} (h : keyword ks cs = .ok rest) : rest <:+ cs := by
  induction ks generalizing cs with
  | nil =>
    cases h
    exact List.suffix_rfl
  | cons k ks ih =>
    cases cs with
    | nil => cases h
    | cons c cs =>
      rw [keyword] at h
      split at h
      · exact (ih h).trans (List.suffix_cons c cs)
      · cases h

theorem skipString_suffix (h : skipString cs = .ok rest) : '"' :: rest <:+ cs := by
  fun_induction skipString cs with
  | case2 cs =>
    cases h
    exact List.suffix_rfl
  | case5 w x y z cs unit hunit ih =>
    exact (ih h).trans ⟨['\\', 'u', w, x, y, z], rfl⟩
  | case8 c cs _ _ e he ih => exact (ih h).trans ⟨['\\', c], rfl⟩
  | case10 c cs _ _ _ _ _ _ ih => exact (ih h).trans (List.suffix_cons c cs)
  | _ => cases h

theorem someDigits_suffix {atEnd : Cause} {ds : List Char}
    (h : someDigits atEnd cs = .ok (ds, rest)) : rest <:+ cs := by
  simp only [someDigits] at h
  split at h
  · cases h
  · cases h
  · next ds' rest' _ _ hdigits =>
    cases h
    obtain ⟨-, rfl⟩ := Prod.mk.inj hdigits
    exact List.dropWhile_suffix Char.isDigit

theorem wholePart_suffix {atEnd : Cause} {ds : List Char}
    (h : wholePart atEnd cs = .ok (ds, rest)) : rest <:+ cs := by
  simp only [wholePart] at h
  split at h
  · next c tail =>
    split at h
    · cases h
    · cases h
      exact List.suffix_cons '0' (c :: tail)
  · exact someDigits_suffix h

theorem fractionPart_suffix {atEnd : Cause} {f : Bool × List Char}
    (h : fractionPart atEnd cs = .ok (f, rest)) : rest <:+ cs := by
  simp only [fractionPart] at h
  split at h
  · next tail =>
    obtain ⟨⟨ds, rest'⟩, hdigits, h⟩ := bind_eq_ok_iff.mp h
    cases h
    exact (someDigits_suffix hdigits).trans (List.suffix_cons '.' tail)
  · cases h
    exact List.suffix_rfl

theorem sign_suffix (cs : List Char) : (sign cs).2 <:+ cs := by
  fun_cases sign cs with
  | case1 tail => exact List.suffix_cons '+' tail
  | case2 tail => exact List.suffix_cons '-' tail
  | case3 => exact List.suffix_rfl

theorem exponentPart_suffix {atEnd : Cause} {e : Option (Bool × List Char)}
    (h : exponentPart atEnd cs = .ok (e, rest)) : rest <:+ cs := by
  simp only [exponentPart] at h
  split at h
  · cases h
    exact List.suffix_rfl
  · next c tail =>
    split at h
    · obtain ⟨⟨ds, rest'⟩, hdigits, h⟩ := bind_eq_ok_iff.mp h
      cases h
      exact (someDigits_suffix hdigits).trans ((sign_suffix tail).trans (List.suffix_cons c tail))
    · cases h
      exact List.suffix_rfl

theorem numeralTail_suffix {atEnd : Cause} {negative : Bool} {n : Numeral}
    (h : numeralTail atEnd negative cs = .ok (n, rest)) : rest <:+ cs := by
  simp only [numeralTail] at h
  obtain ⟨⟨whole, afterWhole⟩, hwhole, h⟩ := bind_eq_ok_iff.mp h
  obtain ⟨⟨fraction, afterFraction⟩, hfraction, h⟩ := bind_eq_ok_iff.mp h
  obtain ⟨⟨exponent, after⟩, hexponent, h⟩ := bind_eq_ok_iff.mp h
  cases h
  exact (exponentPart_suffix hexponent).trans
    ((fractionPart_suffix hfraction).trans (wholePart_suffix hwhole))

theorem numeral_ends {atEnd : Cause} {n : Numeral} (h : numeral atEnd cs = .ok (n, rest)) :
    Ends rest cs := by
  refine ⟨?_, (numeral_eq_ok h).1⟩
  simp only [numeral] at h
  split at h
  · next tail => exact (numeralTail_suffix h).trans (List.suffix_cons '-' tail)
  · exact numeralTail_suffix h

theorem skipKey_ends (h : skipKey cs = .ok rest) : Ends rest cs := by
  simp only [skipKey] at h
  split at h
  · cases h
  · next tail hskip =>
    obtain ⟨afterKey, hkey, h⟩ := bind_eq_ok_iff.mp h
    split at h
    · cases h
    · next tail' hskip' =>
      cases h
      exact (ends_of_skipBlanks hskip).suffix
        ((ends_of_skipBlanks hskip').1.trans (ends_of_cons (skipString_suffix hkey)).1)
    · cases h
  · cases h

theorem NextAt.suffix {close : Char} {first : Bool} {start : List Char}
    (h : NextAt close first cs start) : start <:+ cs := by
  obtain ⟨c, tail, -, hskip, hstart⟩ := h
  have hsuffix : c :: tail <:+ cs := hskip ▸ skipBlanks_suffix cs
  obtain ⟨-, rfl⟩ | ⟨-, -, rfl⟩ := hstart
  · exact hsuffix
  · exact (ends_of_cons hsuffix).1

/-- Skipping leaves the end of the text. -/
theorem skipValue_ends (fuel : Nat) :
    (∀ {cs rest}, skipValue fuel cs = .ok rest → Ends rest cs) ∧
    (∀ {first cs rest}, skipElements fuel first cs = .ok rest → Ends rest cs) ∧
    (∀ {first cs rest}, skipMembers fuel first cs = .ok rest → Ends rest cs) := by
  induction fuel with
  | zero =>
    refine ⟨?_, ?_, ?_⟩
    · intro cs rest h
      cases h
    · intro first cs rest h
      cases h
    · intro first cs rest h
      cases h
  | succ fuel ih =>
    obtain ⟨ihValue, ihElements, ihMembers⟩ := ih
    refine ⟨?_, ?_, ?_⟩
    · intro cs rest h
      rw [skipValue] at h
      split at h
      · cases h
      · next hskip => exact (ends_of_skipBlanks hskip).suffix (keyword_suffix h)
      · next hskip => exact (ends_of_skipBlanks hskip).suffix (keyword_suffix h)
      · next hskip => exact (ends_of_skipBlanks hskip).suffix (keyword_suffix h)
      · next hskip =>
        exact (ends_of_skipBlanks hskip).suffix (ends_of_cons (skipString_suffix h)).1
      · next hskip => exact (ends_of_skipBlanks hskip).suffix (ihElements h).1
      · next hskip => exact (ends_of_skipBlanks hskip).suffix (ihMembers h).1
      · next c tail _ _ _ _ _ _ hskip =>
        split at h
        · cases hnumeral : numeral .badNumber (c :: tail) with
          | error fault =>
            rw [hnumeral] at h
            cases h
          | ok result =>
            rw [hnumeral] at h
            cases h
            exact (numeral_ends hnumeral).of_suffix (hskip ▸ skipBlanks_suffix cs)
        · cases h
    · intro first cs rest h
      obtain hskip | ⟨start, after, hnext, hvalue, hafter⟩ := skipElements_eq_ok_iff.mp h
      · exact ends_of_skipBlanks hskip
      · exact ((ihValue hvalue).suffix (ihElements hafter).1).of_suffix hnext.suffix
    · intro first cs rest h
      obtain hskip | ⟨start, afterKey, after, hnext, hkey, hvalue, hafter⟩ :=
        skipMembers_eq_ok_iff.mp h
      · exact ends_of_skipBlanks hskip
      · exact ((skipKey_ends hkey).suffix
          ((ihMembers hafter).1.trans (ihValue hvalue).1)).of_suffix hnext.suffix

theorem skipValue_succ (fuel : Nat) :
    (∀ {cs rest}, skipValue fuel cs = .ok rest → skipValue (fuel + 1) cs = .ok rest) ∧
    (∀ {first cs rest},
      skipElements fuel first cs = .ok rest → skipElements (fuel + 1) first cs = .ok rest) ∧
    (∀ {first cs rest},
      skipMembers fuel first cs = .ok rest → skipMembers (fuel + 1) first cs = .ok rest) := by
  induction fuel with
  | zero =>
    refine ⟨?_, ?_, ?_⟩
    · intro cs rest h
      cases h
    · intro first cs rest h
      cases h
    · intro first cs rest h
      cases h
  | succ fuel ih =>
    obtain ⟨ihValue, ihElements, ihMembers⟩ := ih
    refine ⟨?_, ?_, ?_⟩
    · intro cs rest h
      revert h
      rw [skipValue, skipValue]
      split
      all_goals intro h
      case h_6 => exact ihElements h
      case h_7 => exact ihMembers h
      all_goals exact h
    · intro first cs rest h
      obtain hskip | ⟨start, after, hnext, hvalue, hafter⟩ := skipElements_eq_ok_iff.mp h
      · exact skipElements_eq_ok_iff.mpr (.inl hskip)
      · exact skipElements_eq_ok_iff.mpr
          (.inr ⟨start, after, hnext, ihValue hvalue, ihElements hafter⟩)
    · intro first cs rest h
      obtain hskip | ⟨start, afterKey, after, hnext, hkey, hvalue, hafter⟩ :=
        skipMembers_eq_ok_iff.mp h
      · exact skipMembers_eq_ok_iff.mpr (.inl hskip)
      · exact skipMembers_eq_ok_iff.mpr
          (.inr ⟨start, afterKey, after, hnext, hkey, ihValue hvalue, ihMembers hafter⟩)

theorem skipValue_of_le {fuel' : Nat} (h : skipValue fuel cs = .ok rest) (hle : fuel ≤ fuel') :
    skipValue fuel' cs = .ok rest := by
  induction hle with
  | refl => exact h
  | step _ ih => exact (skipValue_succ _).1 ih

theorem skip_ends (h : skip cs = .ok rest) : Ends rest cs := (skipValue_ends _).1 h

theorem skip_skipBlanks (h : skip (skipBlanks cs) = .ok rest) : skip cs = .ok rest := by
  have hle := length_skipBlanks_le cs
  rw [skip, ← skipValue_skipBlanks (Nat.succ_pos _)]
  exact skipValue_of_le h (by omega)

/-- With enough fuel, skipping the elements of a list that is open leaves `rest`. -/
def SkipsElements (first : Bool) (cs rest : List Char) : Prop :=
  ∀ fuel, 2 * cs.length + 3 ≤ fuel → skipElements fuel first cs = .ok rest

/-- With enough fuel, skipping the members of an object that is open leaves `rest`. -/
def SkipsMembers (first : Bool) (cs rest : List Char) : Prop :=
  ∀ fuel, 2 * cs.length + 3 ≤ fuel → skipMembers fuel first cs = .ok rest

variable {first : Bool} {start : List Char}

theorem skip_of_elements (hskip : skipBlanks cs = '[' :: start)
    (h : SkipsElements true start rest) : skip cs = .ok rest := by
  have hlt := length_of_skipBlanks hskip
  rw [skip, skipValue, hskip]
  exact h _ (by omega)

theorem skip_of_members (hskip : skipBlanks cs = '\x7b' :: start)
    (h : SkipsMembers true start rest) : skip cs = .ok rest := by
  have hlt := length_of_skipBlanks hskip
  rw [skip, skipValue, hskip]
  exact h _ (by omega)

theorem skipsElements_close (hnext : nextElement first cs = .ok (false, after))
    (hclose : closeList after = .ok rest) : SkipsElements first cs rest := by
  intro fuel hfuel
  obtain ⟨fuel, rfl⟩ := Nat.exists_eq_add_one_of_ne_zero (Nat.ne_zero_of_lt hfuel)
  exact skipElements_close hnext hclose

theorem SkipsElements.next (h : SkipsElements false after rest)
    (hnext : nextElement first cs = .ok (true, start)) (hvalue : skip start = .ok after) :
    SkipsElements first cs rest := by
  intro fuel hfuel
  obtain ⟨fuel, rfl⟩ := Nat.exists_eq_add_one_of_ne_zero (Nat.ne_zero_of_lt hfuel)
  have hle := length_of_nextElement hnext
  have hlt := (skip_ends hvalue).2
  exact skipElements_next (by omega) hnext (skipValue_of_le hvalue (by omega)) (h fuel (by omega))

theorem skipsMembers_close (hnext : nextMember first cs = .ok (false, after))
    (hclose : closeObject after = .ok rest) : SkipsMembers first cs rest := by
  intro fuel hfuel
  obtain ⟨fuel, rfl⟩ := Nat.exists_eq_add_one_of_ne_zero (Nat.ne_zero_of_lt hfuel)
  exact skipMembers_close hnext hclose

theorem SkipsMembers.next {afterKey afterColon : List Char} {key : String}
    (h : SkipsMembers false after rest) (hnext : nextMember first cs = .ok (true, start))
    (hkey : string start = .ok (key, afterKey)) (hcolon : colon afterKey = .ok afterColon)
    (hvalue : skip afterColon = .ok after) : SkipsMembers first cs rest := by
  intro fuel hfuel
  obtain ⟨fuel, rfl⟩ := Nat.exists_eq_add_one_of_ne_zero (Nat.ne_zero_of_lt hfuel)
  have hle := length_of_nextMember hnext
  have hkeyLt := (string_eq_ok hkey).1
  have hcolonLt := length_of_skipBlanks (colon_eq_ok hcolon)
  have hlt := (skip_ends hvalue).2
  exact skipMembers_next hnext hkey hcolon (skipValue_of_le hvalue (by omega)) (h fuel (by omega))

namespace Reader

variable {α β : Type} {depth : Nat}

/-- What the reader reads is skipped as well. -/
def Skippable (r : Reader α) : Prop :=
  ∀ ⦃depth : Nat⦄ ⦃cs : List Char⦄ ⦃a : α⦄ ⦃rest : List Char⦄,
    r depth cs = .ok (a, rest) → skip cs = .ok rest

theorem Whole.skippable {r : Reader α} (h : r.Whole) : r.Skippable := by
  intro depth cs a rest hread
  obtain ⟨v, hv⟩ := h hread
  exact skip_of_content hv

theorem skippable_string : string.Skippable := fun _ _ _ _ h =>
  skip_of_content (content_of_stringAs h)

theorem skippable_bool : bool.Skippable := by
  intro depth cs b rest h
  obtain ⟨c, tail, hskip, h⟩ := atValue_eq_ok h
  split at h
  · next start hcons =>
    obtain ⟨after, hword, h⟩ := bind_eq_ok_iff.mp h
    cases h
    rw [hcons] at hskip
    rw [skip, skipValue, hskip]
    exact hword
  · next start hcons =>
    obtain ⟨after, hword, h⟩ := bind_eq_ok_iff.mp h
    cases h
    rw [hcons] at hskip
    rw [skip, skipValue, hskip]
    exact hword
  · cases h

theorem Skippable.optional {r : Reader α} (h : r.Skippable) : (Reader.optional r).Skippable := by
  intro depth cs a rest hread
  rw [Reader.optional] at hread
  split at hread
  · next start hskip =>
    obtain ⟨after, hword, hread⟩ := bind_eq_ok_iff.mp hread
    cases hread
    rw [skip, skipValue, hskip]
    exact hword
  · obtain ⟨⟨value, after⟩, hvalue, hread⟩ := bind_eq_ok_iff.mp hread
    cases hread
    exact skip_skipBlanks (h hvalue)

theorem Skippable.map {r : Reader α} (h : r.Skippable) (f : α → β) : (r.map f).Skippable := by
  intro depth cs b rest hread
  obtain ⟨⟨value, after⟩, hvalue, hread⟩ := bind_eq_ok_iff.mp hread
  cases hread
  exact h hvalue

theorem Skippable.elements {element : Reader β} (h : element.Skippable) (make : β → Except Cause α)
    (fuel : Nat) : ∀ {first : Bool} {cs rest : List Char} {values : List α},
      elements element make depth fuel first cs = .ok (values, rest) →
      SkipsElements first cs rest := by
  induction fuel with
  | zero =>
    intro first cs rest values hread
    cases hread
  | succ fuel ih =>
    intro first cs rest values hread
    obtain ⟨⟨more, start⟩, hnext, hread⟩ := bind_eq_ok_iff.mp hread
    cases more with
    | false =>
      obtain ⟨after, hclose, hread⟩ := bind_eq_ok_iff.mp hread
      cases hread
      exact skipsElements_close hnext hclose
    | true =>
      obtain ⟨⟨raw, after⟩, hraw, hread⟩ := bind_eq_ok_iff.mp hread
      simp only at hread
      split at hread
      · cases hread
      · obtain ⟨⟨others, after'⟩, hothers, hread⟩ := bind_eq_ok_iff.mp hread
        cases hread
        exact (ih hothers).next hnext (h hraw)

theorem Skippable.listOf {element : Reader β} (h : element.Skippable)
    (make : β → Except Cause α) : (Reader.listOf element make).Skippable := by
  intro depth cs values rest hread
  obtain ⟨c, tail, hskip, hread⟩ := atValue_eq_ok hread
  split at hread
  · next start hcons =>
    obtain ⟨inner, -, hread⟩ := bind_eq_ok_iff.mp hread
    rw [hcons] at hskip
    exact skip_of_elements hskip (h.elements make _ hread)
  · cases hread

theorem Skippable.members {value : Reader α} (h : value.Skippable) (fuel : Nat) :
    ∀ {first : Bool} {cs rest : List Char} {ps : List (String × α)},
      members value depth fuel first cs = .ok (ps, rest) → SkipsMembers first cs rest := by
  induction fuel with
  | zero =>
    intro first cs rest ps hread
    cases hread
  | succ fuel ih =>
    intro first cs rest ps hread
    obtain ⟨⟨more, start⟩, hnext, hread⟩ := bind_eq_ok_iff.mp hread
    cases more with
    | false =>
      obtain ⟨after, hclose, hread⟩ := bind_eq_ok_iff.mp hread
      cases hread
      exact skipsMembers_close hnext hclose
    | true =>
      obtain ⟨⟨key, afterKey⟩, hkey, hread⟩ := bind_eq_ok_iff.mp hread
      obtain ⟨afterColon, hcolon, hread⟩ := bind_eq_ok_iff.mp hread
      obtain ⟨⟨v, after⟩, hvalue, hread⟩ := bind_eq_ok_iff.mp hread
      obtain ⟨⟨others, after'⟩, hothers, hread⟩ := bind_eq_ok_iff.mp hread
      cases hread
      exact (ih hothers).next hnext hkey hcolon (h hvalue)

theorem Skippable.dict {value : Reader α} (h : value.Skippable) :
    (Reader.dict value).Skippable := by
  intro depth cs ps rest hread
  obtain ⟨c, tail, hskip, hread⟩ := atValue_eq_ok hread
  split at hread
  · next start hcons =>
    obtain ⟨inner, -, hread⟩ := bind_eq_ok_iff.mp hread
    rw [hcons] at hskip
    exact skip_of_members hskip (h.members _ hread)
  · cases hread

end Reader

namespace Record

variable {σ : Type} {r : Record σ} {depth : Nat}

theorem skipsMembers_of_members (h : ∀ field ∈ r.fields, field.set.Skippable) (fuel : Nat) :
    ∀ {first : Bool} {seen : List String} {value value' : σ} {cs after rest : List Char},
      r.members depth fuel first seen value cs = .ok (value', after) →
      closeObject after = .ok rest → SkipsMembers first cs rest := by
  induction fuel with
  | zero =>
    intro first seen value value' cs after rest hread
    cases hread
  | succ fuel ih =>
    intro first seen value value' cs after rest hread hclose
    obtain ⟨⟨more, start⟩, hnext, hread⟩ := bind_eq_ok_iff.mp hread
    cases more with
    | false =>
      simp only at hread
      split at hread
      · cases hread
      · cases hread
        exact skipsMembers_close hnext hclose
    | true =>
      obtain ⟨⟨key, afterKey⟩, hkey, hread⟩ := bind_eq_ok_iff.mp hread
      simp only at hread
      split at hread
      · obtain ⟨afterColon, hcolon, hread⟩ := bind_eq_ok_iff.mp hread
        obtain ⟨after', hvalue, hread⟩ := bind_eq_ok_iff.mp hread
        exact (ih hread hclose).next hnext hkey hcolon hvalue
      · next field hfind =>
        split at hread
        · cases hread
        · obtain ⟨afterColon, hcolon, hread⟩ := bind_eq_ok_iff.mp hread
          obtain ⟨⟨change, after'⟩, hset, hread⟩ := bind_eq_ok_iff.mp hread
          exact (ih hread hclose).next hnext hkey hcolon
            (h field (List.mem_of_find?_eq_some hfind) hset)

theorem skipsElements_of_elements {fields : List (Field σ)}
    (h : ∀ field ∈ fields, field.set.Skippable) :
    ∀ {index : Nat} {first : Bool} {value value' : σ} {cs after rest : List Char},
      first = (index == 0) → r.elements depth fields index value cs = .ok (value', after) →
      closeList after = .ok rest → SkipsElements first cs rest := by
  induction fields with
  | nil =>
    intro index first value value' cs after rest _ hread hclose
    cases hread
    have hskip := closeList_eq_ok hclose
    have hnext : nextElement first cs = .ok (false, ']' :: rest) := by
      rw [nextElement, hskip]
      rfl
    exact skipsElements_close hnext (closeList_of_end hnext ▸ hclose)
  | cons field fields ih =>
    intro index first value value' cs after rest hfirst hread hclose
    obtain ⟨hfield, hfields⟩ := List.forall_mem_cons.mp h
    obtain ⟨⟨more, start⟩, hnext, hread⟩ := bind_eq_ok_iff.mp hread
    rw [← hfirst] at hnext
    cases more with
    | false =>
      simp only at hread
      split at hread
      · cases hread
      · -- The fields that are left find the list at its end as well.
        obtain ⟨tail, hskip, rfl⟩ := nextElement_false hnext
        have hrest := ih hfields rfl hread hclose (2 * (']' :: tail).length + 4) (by omega)
        rw [skipElements, skipBlanks_of_eq hskip] at hrest
        cases hrest
        refine skipsElements_close hnext ?_
        rw [closeList, skipBlanks_of_eq hskip]
        rfl
    | true =>
      obtain ⟨⟨change, after'⟩, hset, hread⟩ := bind_eq_ok_iff.mp hread
      exact (ih hfields rfl hread hclose).next hnext (hfield hset)

theorem skippable_reader (h : ∀ field ∈ r.fields, field.set.Skippable) : r.reader.Skippable := by
  intro depth cs a rest hread
  obtain ⟨c, tail, hskip, hread⟩ := Reader.atValue_eq_ok hread
  split at hread
  · next start hcons =>
    rw [hcons] at hskip
    obtain ⟨inner, -, hread⟩ := bind_eq_ok_iff.mp hread
    obtain ⟨⟨value, after⟩, helements, hread⟩ := bind_eq_ok_iff.mp hread
    obtain ⟨rest', hclose, hread⟩ := bind_eq_ok_iff.mp hread
    cases hread
    exact skip_of_elements hskip (skipsElements_of_elements h rfl helements hclose)
  · next start hcons =>
    rw [hcons] at hskip
    obtain ⟨inner, -, hread⟩ := bind_eq_ok_iff.mp hread
    obtain ⟨⟨value, after⟩, hmembers, hread⟩ := bind_eq_ok_iff.mp hread
    obtain ⟨rest', hclose, hread⟩ := bind_eq_ok_iff.mp hread
    cases hread
    exact skip_of_members hskip (skipsMembers_of_members h _ hmembers hclose)
  · cases hread

end Record

end Phrasebook.Json
