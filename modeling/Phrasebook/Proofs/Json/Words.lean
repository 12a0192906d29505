import Phrasebook.Json.Skip
import Phrasebook.Proofs.Except

namespace Phrasebook.Json

theorem length_skipBlanks_le (cs : List Char) : (skipBlanks cs).length ≤ cs.length :=
  (List.dropWhile_suffix isBlank).length_le

theorem skipBlanks_skipBlanks (cs : List Char) : skipBlanks (skipBlanks cs) = skipBlanks cs := by
  induction cs with
  | nil => rfl
  | cons c cs ih =>
    by_cases h : isBlank c = true
    · have hskip : skipBlanks (c :: cs) = skipBlanks cs := List.dropWhile_cons_of_pos h
      rw [hskip, ih]
    · have hskip : skipBlanks (c :: cs) = c :: cs := List.dropWhile_cons_of_neg h
      rw [hskip, hskip]

theorem skipBlanks_of_eq {cs ds : List Char} (h : skipBlanks cs = ds) : skipBlanks ds = ds := by
  rw [← h, skipBlanks_skipBlanks]

theorem length_of_skipBlanks {c : Char} {cs rest : List Char} (h : skipBlanks cs = c :: rest) :
    rest.length < cs.length := by
  have hle := length_skipBlanks_le cs
  rw [h, List.length_cons] at hle
  omega

/-- What a text begins with takes one byte if its first word does: it is a blank or that word. -/
theorem exists_cons_of_skipBlanks {c : Char} {cs rest : List Char} (h : skipBlanks cs = c :: rest)
    (hsize : c.utf8Size = 1) : ∃ first tail, cs = first :: tail ∧ first.utf8Size = 1 := by
  cases cs with
  | nil => cases h
  | cons first tail =>
    refine ⟨first, tail, rfl, ?_⟩
    by_cases hblank : isBlank first = true
    · have hcases : ((first = ' ' ∨ first = '\n') ∨ first = '\t') ∨ first = '\r' := by
        simpa [isBlank] using hblank
      obtain ((rfl | rfl) | rfl) | rfl := hcases <;> decide
    · have hskip : skipBlanks (first :: tail) = first :: tail := List.dropWhile_cons_of_neg hblank
      rw [hskip] at h
      rw [(List.cons.inj h).1]
      exact hsize

theorem length_of_keyword {ks cs rest : List Char} (h : keyword ks cs = .ok rest) :
    rest.length ≤ cs.length := by
  induction ks generalizing cs with
  | nil =>
    cases h
    exact Nat.le_refl _
  | cons k ks ih =>
    cases cs with
    | nil => cases h
    | cons c cs =>
      rw [keyword] at h
      split at h
      · exact Nat.le_succ_of_le (ih h)
      · cases h

theorem stringTail_eq_ok {cs content rest : List Char} (h : stringTail cs = .ok (content, rest)) :
    rest.length < cs.length ∧ skipString cs = .ok rest := by
  fun_induction stringTail cs generalizing content with
  | case2 cs =>
    cases h
    exact ⟨Nat.lt_succ_self _, by rw [skipString]⟩
  | case9 w x y z unit hunit _ _ w' x' y' z' cs unit' hunit' _ ih =>
    obtain ⟨⟨tail, after⟩, htail, h⟩ := bind_eq_ok_iff.mp h
    cases h
    obtain ⟨hlength, hskip⟩ := ih htail
    refine ⟨?_, ?_⟩
    · simp only [List.length_cons]
      omega
    · simp only [skipString, hunit, hunit']
      exact hskip
  | case14 w x y z cs unit hunit _ _ ih =>
    obtain ⟨⟨tail, after⟩, htail, h⟩ := bind_eq_ok_iff.mp h
    cases h
    obtain ⟨hlength, hskip⟩ := ih htail
    refine ⟨?_, ?_⟩
    · simp only [List.length_cons]
      omega
    · simp only [skipString, hunit]
      exact hskip
  | case17 c cs hshort hletter e he ih =>
    obtain ⟨⟨tail, after⟩, htail, h⟩ := bind_eq_ok_iff.mp h
    cases h
    obtain ⟨hlength, hskip⟩ := ih htail
    refine ⟨?_, ?_⟩
    · simp only [List.length_cons]
      omega
    · rw [skipString]
      · rw [he]
        exact hskip
      all_goals assumption
  | case19 c cs hquote hlast hfull hletter hescape hplain ih =>
    obtain ⟨⟨tail, after⟩, htail, h⟩ := bind_eq_ok_iff.mp h
    cases h
    obtain ⟨hlength, hskip⟩ := ih htail
    refine ⟨?_, ?_⟩
    · simp only [List.length_cons]
      omega
    · rw [skipString]
      · rw [if_neg hplain]
        exact hskip
      all_goals assumption
  | _ => cases h

theorem string_eq_ok {cs rest : List Char} {s : String} (h : string cs = .ok (s, rest)) :
    rest.length < cs.length ∧ skipString cs = .ok rest := by
  obtain ⟨⟨content, after⟩, htail, h⟩ := bind_eq_ok_iff.mp h
  cases h
  exact stringTail_eq_ok htail

theorem length_of_digits {cs ds rest : List Char} (h : digits cs = (ds, rest)) :
    rest.length + ds.length = cs.length := by
  obtain ⟨rfl, rfl⟩ := Prod.mk.inj h
  have happend := List.takeWhile_append_dropWhile (p := Char.isDigit) (l := cs)
  have hsplit := congrArg List.length happend
  rw [List.length_append] at hsplit
  omega

theorem someDigits_eq_ok {atEnd : Cause} {cs ds rest : List Char}
    (h : someDigits atEnd cs = .ok (ds, rest)) :
    rest.length < cs.length ∧ ∀ atEnd', someDigits atEnd' cs = .ok (ds, rest) := by
  simp only [someDigits] at h ⊢
  split at h
  · cases h
  · cases h
  · next ds' rest' hend hempty hdigits =>
    cases h
    have hlength := length_of_digits hdigits
    have hne : ds ≠ [] := by
      intro hds
      exact hempty hds
    have hpos := List.length_pos_iff.mpr hne
    refine ⟨by omega, ?_⟩
    intro _
    rfl

theorem wholePart_eq_ok {atEnd : Cause} {cs ds rest : List Char}
    (h : wholePart atEnd cs = .ok (ds, rest)) :
    rest.length < cs.length ∧ ∀ atEnd', wholePart atEnd' cs = .ok (ds, rest) := by
  simp only [wholePart] at h ⊢
  split at h
  · split at h
    · cases h
    · next hdigit =>
      cases h
      exact ⟨Nat.lt_succ_self _, fun _ => if_neg hdigit⟩
  · exact someDigits_eq_ok h

theorem fractionPart_eq_ok {atEnd : Cause} {cs rest : List Char} {f : Bool × List Char}
    (h : fractionPart atEnd cs = .ok (f, rest)) :
    rest.length ≤ cs.length ∧ ∀ atEnd', fractionPart atEnd' cs = .ok (f, rest) := by
  simp only [fractionPart] at h ⊢
  split at h
  · next after =>
    obtain ⟨⟨ds, rest'⟩, hdigits, h⟩ := bind_eq_ok_iff.mp h
    cases h
    obtain ⟨hlength, hany⟩ := someDigits_eq_ok hdigits
    refine ⟨Nat.le_succ_of_le (Nat.le_of_lt hlength), ?_⟩
    intro atEnd'
    rw [hany atEnd']
    rfl
  · cases h
    exact ⟨Nat.le_refl _, fun _ => rfl⟩

theorem length_sign_le (cs : List Char) : (sign cs).2.length ≤ cs.length := by
  fun_cases sign cs with
  | case1 => exact Nat.le_succ _
  | case2 => exact Nat.le_succ _
  | case3 => exact Nat.le_refl _

theorem exponentPart_eq_ok {atEnd : Cause} {cs rest : List Char} {e : Option (Bool × List Char)}
    (h : exponentPart atEnd cs = .ok (e, rest)) :
    rest.length ≤ cs.length ∧ ∀ atEnd', exponentPart atEnd' cs = .ok (e, rest) := by
  simp only [exponentPart] at h ⊢
  split at h
  · cases h
    exact ⟨Nat.le_refl _, fun _ => rfl⟩
  · next c after =>
    split at h
    · next hletter =>
      obtain ⟨⟨ds, rest'⟩, hdigits, h⟩ := bind_eq_ok_iff.mp h
      cases h
      obtain ⟨hlength, hany⟩ := someDigits_eq_ok hdigits
      have hsign := length_sign_le after
      refine ⟨?_, ?_⟩
      · simp only [List.length_cons]
        omega
      · intro atEnd'
        rw [if_pos hletter, hany atEnd']
        rfl
    · next hletter =>
      cases h
      exact ⟨Nat.le_refl _, fun _ => if_neg hletter⟩

theorem numeralTail_eq_ok {atEnd : Cause} {negative : Bool} {cs rest : List Char} {n : Numeral}
    (h : numeralTail atEnd negative cs = .ok (n, rest)) :
    rest.length < cs.length ∧ ∀ atEnd', numeralTail atEnd' negative cs = .ok (n, rest) := by
  simp only [numeralTail] at h ⊢
  obtain ⟨⟨whole, afterWhole⟩, hwhole, h⟩ := bind_eq_ok_iff.mp h
  obtain ⟨⟨fraction, afterFraction⟩, hfraction, h⟩ := bind_eq_ok_iff.mp h
  obtain ⟨⟨exponent, after⟩, hexponent, h⟩ := bind_eq_ok_iff.mp h
  cases h
  obtain ⟨hlength, hany⟩ := wholePart_eq_ok hwhole
  obtain ⟨hlength', hany'⟩ := fractionPart_eq_ok hfraction
  obtain ⟨hlength'', hany''⟩ := exponentPart_eq_ok hexponent
  refine ⟨?_, ?_⟩
  · simp only at hlength' hlength'' ⊢
    omega
  · intro atEnd'
    rw [hany atEnd', ok_bind, hany' atEnd', ok_bind, hany'' atEnd', ok_bind]
    rfl

/-- Numbers are read alike wherever the text may end. -/
theorem numeral_eq_ok {atEnd : Cause} {cs rest : List Char} {n : Numeral}
    (h : numeral atEnd cs = .ok (n, rest)) :
    rest.length < cs.length ∧ ∀ atEnd', numeral atEnd' cs = .ok (n, rest) := by
  simp only [numeral] at h ⊢
  split at h
  · obtain ⟨hlength, hany⟩ := numeralTail_eq_ok h
    exact ⟨Nat.lt_succ_of_lt hlength, hany⟩
  · exact numeralTail_eq_ok h

end Phrasebook.Json
