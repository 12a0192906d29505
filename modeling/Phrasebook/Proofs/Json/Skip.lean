import Phrasebook.Json.Skip
import Phrasebook.Proofs.Json.Value

namespace Phrasebook.Json

open Reader

theorem skipValue_skipBlanks {fuel : Nat} (h : 0 < fuel) (cs : List Char) :
    skipValue fuel (skipBlanks cs) = skipValue fuel cs := by
  obtain ⟨fuel, rfl⟩ := Nat.exists_eq_succ_of_ne_zero (Nat.ne_of_gt h)
  rw [skipValue, skipValue, skipBlanks_skipBlanks]

theorem skipValue_of_number {c : Char} {cs start rest : List Char} {n : Numeral} (fuel : Nat)
    (hskip : skipBlanks cs = c :: start) (hnumber : c = '-' ∨ c.isDigit = true)
    (hnumeral : numeral .endInValue (c :: start) = .ok (n, rest)) :
    skipValue (fuel + 1) cs = .ok rest := by
  rw [skipValue, hskip]
  split
  · next heq => cases heq
  case h_8 heq =>
    cases heq
    rw [if_pos (by simpa using hnumber), (numeral_eq_ok hnumeral).2]
    rfl
  all_goals next heq =>
    exact absurd (List.cons.inj heq).1 (ne_of_number hnumber (by decide) (by decide))

theorem skipKey_eq_ok {cs start afterKey rest : List Char} {key : String}
    (hskip : skipBlanks cs = '"' :: start) (hkey : string start = .ok (key, afterKey))
    (hcolon : colon afterKey = .ok rest) : skipKey cs = .ok rest := by
  rw [skipKey, hskip]
  simp only
  rw [(string_eq_ok hkey).2, ok_bind, colon_eq_ok hcolon]
  rfl

/-- Where skipping goes on to the next part of a container that is open and ends with `close`. -/
def NextAt (close : Char) (first : Bool) (cs start : List Char) : Prop :=
  ∃ c tail, c ≠ close ∧ skipBlanks cs = c :: tail ∧
    ((first = true ∧ start = c :: tail) ∨ (first = false ∧ c = ',' ∧ start = tail))

variable {fuel : Nat} {first : Bool} {cs start after rest : List Char}

theorem skipElements_eq_ok_iff : skipElements (fuel + 1) first cs = .ok rest ↔
    skipBlanks cs = ']' :: rest ∨ ∃ start after, NextAt ']' first cs start ∧
      skipValue fuel start = .ok after ∧ skipElements fuel false after = .ok rest := by
  rw [skipElements]
  constructor
  · intro h
    split at h
    · cases h
    · next hskip =>
      cases h
      exact .inl hskip
    · next c tail hclose hskip =>
      split at h
      · next hfirst =>
        obtain ⟨after, hvalue, h⟩ := bind_eq_ok_iff.mp h
        exact .inr ⟨_, after, ⟨c, tail, hclose, hskip, .inl ⟨hfirst, rfl⟩⟩, hvalue, h⟩
      · next hfirst =>
        split at h
        · next hcomma =>
          obtain ⟨after, hvalue, h⟩ := bind_eq_ok_iff.mp h
          exact .inr ⟨_, after, ⟨c, tail, hclose, hskip,
            .inr ⟨Bool.not_eq_true _ ▸ hfirst, hcomma, rfl⟩⟩, hvalue, h⟩
        · cases h
  · intro h
    obtain hskip | ⟨_, after, ⟨c, tail, hclose, hskip, hstart⟩, hvalue, h⟩ := h
    · rw [hskip]
      rfl
    · rw [hskip]
      obtain ⟨rfl, rfl⟩ | ⟨rfl, rfl, rfl⟩ := hstart
      · split
        · next heq => cases heq
        · next heq => exact absurd (List.cons.inj heq).1 hclose
        · next heq =>
          cases heq
          exact bind_eq_ok_iff.mpr ⟨after, hvalue, h⟩
      · exact bind_eq_ok_iff.mpr ⟨after, hvalue, h⟩

theorem skipMembers_eq_ok_iff : skipMembers (fuel + 1) first cs = .ok rest ↔
    skipBlanks cs = '\x7d' :: rest ∨ ∃ start afterKey after, NextAt '\x7d' first cs start ∧
      skipKey start = .ok afterKey ∧ skipValue fuel afterKey = .ok after ∧
      skipMembers fuel false after = .ok rest := by
  rw [skipMembers]
  constructor
  · intro h
    split at h
    · cases h
    · next hskip =>
      cases h
      exact .inl hskip
    · next c tail hclose hskip =>
      split at h
      · next hfirst =>
        obtain ⟨afterKey, hkey, h⟩ := bind_eq_ok_iff.mp h
        obtain ⟨after, hvalue, h⟩ := bind_eq_ok_iff.mp h
        exact .inr ⟨_, afterKey, after, ⟨c, tail, hclose, hskip, .inl ⟨hfirst, rfl⟩⟩, hkey,
          hvalue, h⟩
      · next hfirst =>
        split at h
        · next hcomma =>
          obtain ⟨afterKey, hkey, h⟩ := bind_eq_ok_iff.mp h
          obtain ⟨after, hvalue, h⟩ := bind_eq_ok_iff.mp h
          exact .inr ⟨_, afterKey, after, ⟨c, tail, hclose, hskip,
            .inr ⟨Bool.not_eq_true _ ▸ hfirst, hcomma, rfl⟩⟩, hkey, hvalue, h⟩
        · cases h
  · intro h
    obtain hskip | ⟨_, afterKey, after, ⟨c, tail, hclose, hskip, hstart⟩, hkey, hvalue, h⟩ := h
    · rw [hskip]
      rfl
    · have hmember := bind_eq_ok_iff.mpr ⟨after, hvalue, h⟩
      rw [hskip]
      obtain ⟨rfl, rfl⟩ | ⟨rfl, rfl, rfl⟩ := hstart
      · split
        · next heq => cases heq
        · next heq => exact absurd (List.cons.inj heq).1 hclose
        · next heq =>
          cases heq
          exact bind_eq_ok_iff.mpr ⟨afterKey, hkey, hmember⟩
      · exact bind_eq_ok_iff.mpr ⟨afterKey, hkey, hmember⟩

/-- Skipping goes on where reading does, blanks apart. -/
theorem exists_nextAt_of_nextElement (h : nextElement first cs = .ok (true, start)) :
    ∃ start', NextAt ']' first cs start' ∧ skipBlanks start' = skipBlanks start := by
  obtain ⟨hfirst, c, tail, hbracket, hskip, rfl⟩ | ⟨hfirst, tail, hskip, rfl⟩ := nextElement_true h
  · exact ⟨_, ⟨c, tail, hbracket, hskip, .inl ⟨hfirst, rfl⟩⟩, rfl⟩
  · exact ⟨tail, ⟨',', tail, by decide, hskip, .inr ⟨hfirst, rfl, rfl⟩⟩,
      (skipBlanks_skipBlanks tail).symm⟩

theorem exists_nextAt_of_nextMember (h : nextMember first cs = .ok (true, start)) :
    ∃ start', NextAt '\x7d' first cs start' ∧ skipBlanks start' = '"' :: start := by
  obtain ⟨hfirst, hskip⟩ | ⟨hfirst, tail, hskip, hskip'⟩ := nextMember_true h
  · exact ⟨_, ⟨'"', start, by decide, hskip, .inl ⟨hfirst, rfl⟩⟩, skipBlanks_of_eq hskip⟩
  · exact ⟨tail, ⟨',', tail, by decide, hskip, .inr ⟨hfirst, rfl, rfl⟩⟩, hskip'⟩

theorem skipElements_close (hnext : nextElement first cs = .ok (false, after))
    (hclose : closeList after = .ok rest) : skipElements (fuel + 1) first cs = .ok rest := by
  obtain ⟨tail, hskip, rfl⟩ := nextElement_false hnext
  have htail : skipBlanks (']' :: tail) = ']' :: rest := closeList_eq_ok hclose
  rw [← hskip, skipBlanks_skipBlanks] at htail
  exact skipElements_eq_ok_iff.mpr (.inl htail)

theorem skipElements_next (hfuel : 0 < fuel) (hnext : nextElement first cs = .ok (true, start))
    (hvalue : skipValue fuel start = .ok after) (h : skipElements fuel false after = .ok rest) :
    skipElements (fuel + 1) first cs = .ok rest := by
  obtain ⟨start', hstart, hskip⟩ := exists_nextAt_of_nextElement hnext
  rw [← skipValue_skipBlanks hfuel, ← hskip, skipValue_skipBlanks hfuel] at hvalue
  exact skipElements_eq_ok_iff.mpr (.inr ⟨start', after, hstart, hvalue, h⟩)

theorem skipMembers_close (hnext : nextMember first cs = .ok (false, after))
    (hclose : closeObject after = .ok rest) : skipMembers (fuel + 1) first cs = .ok rest := by
  obtain ⟨tail, hskip, rfl⟩ := nextMember_false hnext
  have htail : skipBlanks ('\x7d' :: tail) = '\x7d' :: rest := closeObject_eq_ok hclose
  rw [← hskip, skipBlanks_skipBlanks] at htail
  exact skipMembers_eq_ok_iff.mpr (.inl htail)

theorem skipMembers_next {afterKey afterColon : List Char} {key : String}
    (hnext : nextMember first cs = .ok (true, start)) (hkey : string start = .ok (key, afterKey))
    (hcolon : colon afterKey = .ok afterColon) (hvalue : skipValue fuel afterColon = .ok after)
    (h : skipMembers fuel false after = .ok rest) :
    skipMembers (fuel + 1) first cs = .ok rest := by
  obtain ⟨start', hstart, hskip⟩ := exists_nextAt_of_nextMember hnext
  exact skipMembers_eq_ok_iff.mpr
    (.inr ⟨start', afterColon, after, hstart, skipKey_eq_ok hskip hkey hcolon, hvalue, h⟩)

theorem skipValue_of_content (fuel : Nat) :
    (∀ {depth cs v rest}, content depth cs = .ok (v, rest) → 2 * cs.length + 1 ≤ fuel →
      skipValue fuel cs = .ok rest) ∧
    (∀ {depth first cs vs after rest}, values depth first cs = .ok (vs, after) →
      closeList after = .ok rest → 2 * cs.length + 2 ≤ fuel →
      skipElements fuel first cs = .ok rest) ∧
    (∀ {depth first cs ps after rest}, pairs depth first cs = .ok (ps, after) →
      closeObject after = .ok rest → 2 * cs.length + 2 ≤ fuel →
      skipMembers fuel first cs = .ok rest) := by
  induction fuel with
  | zero =>
    refine ⟨?_, ?_, ?_⟩
    · intro depth cs v rest _ hfuel
      omega
    · intro depth first cs vs after rest _ _ hfuel
      omega
    · intro depth first cs ps after rest _ _ hfuel
      omega
  | succ fuel ih =>
    obtain ⟨ihValue, ihElements, ihMembers⟩ := ih
    refine ⟨?_, ?_, ?_⟩
    · intro depth cs v rest h hfuel
      cases spells_of_content h with
      | null hskip hword =>
        rw [skipValue, hskip]
        exact hword
      | yes hskip hword =>
        rw [skipValue, hskip]
        exact hword
      | no hskip hword =>
        rw [skipValue, hskip]
        exact hword
      | string hskip hstring =>
        rw [skipValue, hskip]
        exact (string_eq_ok hstring).2
      | integer hskip hnumber hnumeral => exact skipValue_of_number fuel hskip hnumber hnumeral
      | float hskip hnumber hnumeral => exact skipValue_of_number fuel hskip hnumber hnumeral
      | seq hskip hdescend hvalues hclose =>
        have hlt := length_of_skipBlanks hskip
        rw [skipValue, hskip]
        exact ihElements hvalues hclose (by omega)
      | map hskip hdescend hpairs hclose =>
        have hlt := length_of_skipBlanks hskip
        rw [skipValue, hskip]
        exact ihMembers hpairs hclose (by omega)
    · intro depth first cs vs after rest h hclose hfuel
      cases vs with
      | nil => exact skipElements_close (values_nil_iff.mp h) hclose
      | cons v vs =>
        obtain ⟨start, after', hnext, hvalue, hvalues⟩ := values_cons_iff.mp h
        have hle := length_of_nextElement hnext
        have hlt := length_of_content hvalue
        exact skipElements_next (by omega) hnext (ihValue hvalue (by omega))
          (ihElements hvalues hclose (by omega))
    · intro depth first cs ps after rest h hclose hfuel
      cases ps with
      | nil => exact skipMembers_close (pairs_nil_iff.mp h) hclose
      | cons p ps =>
        obtain ⟨key, v⟩ := p
        obtain ⟨start, afterKey, afterColon, after', hnext, hkey, hcolon, hvalue, hpairs⟩ :=
          pairs_cons_iff.mp h
        have hle := length_of_nextMember hnext
        have hkeyLt := (string_eq_ok hkey).1
        have hcolonLt := length_of_skipBlanks (colon_eq_ok hcolon)
        have hlt := length_of_content hvalue
        exact skipMembers_next hnext hkey hcolon (ihValue hvalue (by omega))
          (ihMembers hpairs hclose (by omega))

theorem skip_of_content {depth : Nat} {cs rest : List Char} {v : Content}
    (h : content depth cs = .ok (v, rest)) : skip cs = .ok rest :=
  (skipValue_of_content _).1 h (Nat.le_succ _)

end Phrasebook.Json
