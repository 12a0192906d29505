import Phrasebook.Json.Buffer
import Phrasebook.Proofs.Json.Words

namespace Phrasebook.Json

theorem nextElement_false {first : Bool} {cs rest : List Char}
    (h : nextElement first cs = .ok (false, rest)) :
    ∃ tail, skipBlanks cs = ']' :: tail ∧ rest = ']' :: tail := by
  simp only [nextElement] at h
  split at h
  · cases h
  · next tail hskip =>
    cases h
    exact ⟨tail, hskip, rfl⟩
  · split at h
    · cases h
    · split at h
      · split at h <;> cases h
      · cases h

theorem nextElement_true {first : Bool} {cs start : List Char}
    (h : nextElement first cs = .ok (true, start)) :
    (first = true ∧ ∃ c tail, c ≠ ']' ∧ skipBlanks cs = c :: tail ∧ start = c :: tail) ∨
    (first = false ∧ ∃ tail, skipBlanks cs = ',' :: tail ∧ start = skipBlanks tail) := by
  simp only [nextElement] at h
  split at h
  · cases h
  · cases h
  · next c tail hbracket hskip =>
    split at h
    · next hfirst =>
      cases h
      exact .inl ⟨hfirst, c, tail, fun hc => hbracket hc, hskip, rfl⟩
    · next hfirst =>
      split at h
      · next hcomma =>
        subst hcomma
        refine .inr ⟨Bool.not_eq_true _ ▸ hfirst, tail, hskip, ?_⟩
        split at h
        · cases h
        · cases h
        · cases h
          rfl
      · cases h

theorem length_of_nextElement {first more : Bool} {cs rest : List Char}
    (h : nextElement first cs = .ok (more, rest)) : rest.length ≤ cs.length := by
  have hle := length_skipBlanks_le cs
  cases more with
  | false =>
    obtain ⟨tail, hskip, rfl⟩ := nextElement_false h
    rwa [hskip] at hle
  | true =>
    obtain ⟨-, c, tail, -, hskip, rfl⟩ | ⟨-, tail, hskip, rfl⟩ := nextElement_true h
    · rwa [hskip] at hle
    · have hle' := length_skipBlanks_le tail
      have hlt := length_of_skipBlanks hskip
      omega

theorem nextMember_false {first : Bool} {cs rest : List Char}
    (h : nextMember first cs = .ok (false, rest)) :
    ∃ tail, skipBlanks cs = '\x7d' :: tail ∧ rest = '\x7d' :: tail := by
  simp only [nextMember] at h
  split at h
  · cases h
  · next tail hskip =>
    cases h
    exact ⟨tail, hskip, rfl⟩
  · split at h
    · split at h <;> cases h
    · split at h
      · split at h <;> cases h
      · cases h

theorem nextMember_true {first : Bool} {cs start : List Char}
    (h : nextMember first cs = .ok (true, start)) :
    (first = true ∧ skipBlanks cs = '"' :: start) ∨
    (first = false ∧ ∃ tail, skipBlanks cs = ',' :: tail ∧ skipBlanks tail = '"' :: start) := by
  simp only [nextMember] at h
  split at h
  · cases h
  · cases h
  · next c tail _ hskip =>
    split at h
    · next hfirst =>
      split at h
      · next hquote =>
        subst hquote
        cases h
        exact .inl ⟨hfirst, hskip⟩
      · cases h
    · next hfirst =>
      split at h
      · next hcomma =>
        subst hcomma
        refine .inr ⟨Bool.not_eq_true _ ▸ hfirst, tail, hskip, ?_⟩
        split at h
        · cases h
        · next hskip' =>
          cases h
          exact hskip'
        · cases h
        · cases h
      · cases h

theorem length_of_nextMember {first more : Bool} {cs rest : List Char}
    (h : nextMember first cs = .ok (more, rest)) : rest.length ≤ cs.length := by
  have hle := length_skipBlanks_le cs
  cases more with
  | false =>
    obtain ⟨tail, hskip, rfl⟩ := nextMember_false h
    rwa [hskip] at hle
  | true =>
    obtain ⟨-, hskip⟩ | ⟨-, tail, hskip, hskip'⟩ := nextMember_true h
    · exact Nat.le_of_lt (length_of_skipBlanks hskip)
    · have hlt := length_of_skipBlanks hskip
      have hlt' := length_of_skipBlanks hskip'
      omega

theorem colon_eq_ok {cs rest : List Char} (h : colon cs = .ok rest) :
    skipBlanks cs = ':' :: rest := by
  simp only [colon] at h
  split at h
  · cases h
  · cases h
    assumption
  · cases h

theorem closeList_eq_ok {cs rest : List Char} (h : closeList cs = .ok rest) :
    skipBlanks cs = ']' :: rest := by
  simp only [closeList] at h
  split at h
  · cases h
  · cases h
    assumption
  · split at h <;> cases h
  · cases h

theorem closeObject_eq_ok {cs rest : List Char} (h : closeObject cs = .ok rest) :
    skipBlanks cs = '\x7d' :: rest := by
  simp only [closeObject] at h
  split at h
  · cases h
  · cases h
    assumption
  · cases h
  · cases h

theorem length_of_scalar {cs rest : List Char} {v : Content} (h : scalar cs = .ok (v, rest)) :
    rest.length < cs.length := by
  simp only [scalar] at h
  split at h
  · obtain ⟨after, hword, h⟩ := bind_eq_ok_iff.mp h
    cases h
    exact Nat.lt_succ_of_le (length_of_keyword hword)
  · obtain ⟨after, hword, h⟩ := bind_eq_ok_iff.mp h
    cases h
    exact Nat.lt_succ_of_le (length_of_keyword hword)
  · obtain ⟨after, hword, h⟩ := bind_eq_ok_iff.mp h
    cases h
    exact Nat.lt_succ_of_le (length_of_keyword hword)
  · obtain ⟨⟨s, after⟩, hstring, h⟩ := bind_eq_ok_iff.mp h
    cases h
    exact Nat.lt_succ_of_lt (string_eq_ok hstring).1
  · split at h
    · obtain ⟨⟨n, after⟩, hnumeral, h⟩ := bind_eq_ok_iff.mp h
      obtain ⟨v', hvalue, h⟩ := bind_eq_ok_iff.mp h
      cases h
      exact (numeral_eq_ok hnumeral).1
    · cases h
  · cases h

theorem length_of_contentWith (fuel : Nat) :
    (∀ {depth cs v rest}, contentWith fuel depth cs = .ok (v, rest) → rest.length < cs.length) ∧
    (∀ {depth first cs vs rest},
      contentElements fuel depth first cs = .ok (vs, rest) → rest.length ≤ cs.length) ∧
    (∀ {depth first cs vs rest},
      contentMembers fuel depth first cs = .ok (vs, rest) → rest.length ≤ cs.length) := by
  induction fuel with
  | zero =>
    refine ⟨?_, ?_, ?_⟩
    · intro depth cs v rest h
      cases h
    · intro depth first cs vs rest h
      cases h
    · intro depth first cs vs rest h
      cases h
  | succ fuel ih =>
    obtain ⟨ihValue, ihElements, ihMembers⟩ := ih
    refine ⟨?_, ?_, ?_⟩
    · intro depth cs v rest h
      simp only [contentWith] at h
      split at h
      · cases h
      · next hskip =>
        obtain ⟨depth', -, h⟩ := bind_eq_ok_iff.mp h
        obtain ⟨⟨items, after⟩, hitems, h⟩ := bind_eq_ok_iff.mp h
        obtain ⟨after', hclose, h⟩ := bind_eq_ok_iff.mp h
        cases h
        have hopen := length_of_skipBlanks hskip
        have hle := ihElements hitems
        have hlt := length_of_skipBlanks (closeList_eq_ok hclose)
        simp only at hlt ⊢
        omega
      · next hskip =>
        obtain ⟨depth', -, h⟩ := bind_eq_ok_iff.mp h
        obtain ⟨⟨members, after⟩, hmembers, h⟩ := bind_eq_ok_iff.mp h
        obtain ⟨after', hclose, h⟩ := bind_eq_ok_iff.mp h
        cases h
        have hopen := length_of_skipBlanks hskip
        have hle := ihMembers hmembers
        have hlt := length_of_skipBlanks (closeObject_eq_ok hclose)
        simp only at hlt ⊢
        omega
      · exact Nat.lt_of_lt_of_le (length_of_scalar h) (length_skipBlanks_le cs)
    · intro depth first cs vs rest h
      simp only [contentElements] at h
      obtain ⟨⟨more, after⟩, hnext, h⟩ := bind_eq_ok_iff.mp h
      have hle := length_of_nextElement hnext
      cases more with
      | false =>
        cases h
        exact hle
      | true =>
        obtain ⟨⟨item, after'⟩, hitem, h⟩ := bind_eq_ok_iff.mp h
        obtain ⟨⟨items, after''⟩, hitems, h⟩ := bind_eq_ok_iff.mp h
        cases h
        have hlt := ihValue hitem
        have hle' := ihElements hitems
        simp only at hle' ⊢
        omega
    · intro depth first cs vs rest h
      simp only [contentMembers] at h
      obtain ⟨⟨more, after⟩, hnext, h⟩ := bind_eq_ok_iff.mp h
      have hle := length_of_nextMember hnext
      cases more with
      | false =>
        cases h
        exact hle
      | true =>
        obtain ⟨⟨key, afterKey⟩, hkey, h⟩ := bind_eq_ok_iff.mp h
        obtain ⟨afterColon, hcolon, h⟩ := bind_eq_ok_iff.mp h
        obtain ⟨⟨item, after'⟩, hitem, h⟩ := bind_eq_ok_iff.mp h
        obtain ⟨⟨items, after''⟩, hitems, h⟩ := bind_eq_ok_iff.mp h
        cases h
        have hkeyLt := (string_eq_ok hkey).1
        have hcolonLt := length_of_skipBlanks (colon_eq_ok hcolon)
        have hlt := ihValue hitem
        have hle' := ihMembers hitems
        simp only at hcolonLt hlt hle' ⊢
        omega

/-- Fuel for twice the text is enough: each value, and each step through a container, takes
something off the text. -/
theorem contentWith_succ (fuel : Nat) :
    (∀ {depth cs}, 2 * cs.length + 1 ≤ fuel →
      contentWith (fuel + 1) depth cs = contentWith fuel depth cs) ∧
    (∀ {depth first cs}, 2 * cs.length + 2 ≤ fuel →
      contentElements (fuel + 1) depth first cs = contentElements fuel depth first cs) ∧
    (∀ {depth first cs}, 2 * cs.length + 2 ≤ fuel →
      contentMembers (fuel + 1) depth first cs = contentMembers fuel depth first cs) := by
  induction fuel with
  | zero =>
    refine ⟨?_, ?_, ?_⟩
    · intro depth cs hfuel
      omega
    · intro depth first cs hfuel
      omega
    · intro depth first cs hfuel
      omega
  | succ fuel ih =>
    obtain ⟨ihValue, ihElements, ihMembers⟩ := ih
    -- A bracket pays for the container, and a value for the step to the next one.
    refine ⟨?_, ?_, ?_⟩
    · intro depth cs hfuel
      rw [contentWith, contentWith]
      split
      · rfl
      · next hskip =>
        have hlt := length_of_skipBlanks hskip
        apply bind_congr_ok
        intro depth' _
        rw [ihElements (by omega)]
      · next hskip =>
        have hlt := length_of_skipBlanks hskip
        apply bind_congr_ok
        intro depth' _
        rw [ihMembers (by omega)]
      · rfl
    · intro depth first cs hfuel
      rw [contentElements, contentElements]
      apply bind_congr_ok
      intro result hnext
      obtain ⟨more, after⟩ := result
      have hle := length_of_nextElement hnext
      cases more with
      | false => rfl
      | true =>
        simp only
        rw [ihValue (by omega)]
        apply bind_congr_ok
        intro result hitem
        obtain ⟨item, after'⟩ := result
        have hlt := (length_of_contentWith fuel).1 hitem
        simp only
        rw [ihElements (by omega)]
    · intro depth first cs hfuel
      rw [contentMembers, contentMembers]
      apply bind_congr_ok
      intro result hnext
      obtain ⟨more, after⟩ := result
      have hle := length_of_nextMember hnext
      cases more with
      | false => rfl
      | true =>
        simp only
        apply bind_congr_ok
        intro result hkey
        obtain ⟨key, afterKey⟩ := result
        have hkeyLt := (string_eq_ok hkey).1
        simp only
        apply bind_congr_ok
        intro afterColon hcolon
        have hcolonLt := length_of_skipBlanks (colon_eq_ok hcolon)
        rw [ihValue (by omega)]
        apply bind_congr_ok
        intro result hitem
        obtain ⟨item, after'⟩ := result
        have hlt := (length_of_contentWith fuel).1 hitem
        simp only
        rw [ihMembers (by omega)]

theorem contentWith_of_le {fuel depth : Nat} {cs : List Char} (h : 2 * cs.length + 1 ≤ fuel) :
    contentWith fuel depth cs = contentWith (2 * cs.length + 1) depth cs := by
  induction h with
  | refl => rfl
  | @step fuel hle ih => rw [(contentWith_succ fuel).1 hle, ih]

theorem contentElements_of_le (fuel : Nat) {depth : Nat} {first : Bool} {cs : List Char}
    (h : readingFuel cs ≤ fuel) :
    contentElements fuel depth first cs = contentElements (readingFuel cs) depth first cs := by
  induction h with
  | refl => rfl
  | @step fuel hle ih => rw [(contentWith_succ fuel).2.1 hle, ih]

theorem contentMembers_of_le (fuel : Nat) {depth : Nat} {first : Bool} {cs : List Char}
    (h : readingFuel cs ≤ fuel) :
    contentMembers fuel depth first cs = contentMembers (readingFuel cs) depth first cs := by
  induction h with
  | refl => rfl
  | @step fuel hle ih => rw [(contentWith_succ fuel).2.2 hle, ih]

namespace Reader

theorem content_eq_contentWith (fuel : Nat) {depth : Nat} {cs : List Char}
    (h : 2 * cs.length + 1 ≤ fuel) :
    content depth cs = contentWith fuel depth cs := by
  rw [contentWith_of_le h, content, contentWith_of_le (by rw [readingFuel]; omega)]

/-- The values of a list that is open, up to its closing bracket. -/
def values (depth : Nat) (first : Bool) (cs : List Char) :
    Except Fault (List Content × List Char) :=
  contentElements (readingFuel cs) depth first cs

/-- The keys and values of an object that is open, up to its closing brace. -/
def pairs (depth : Nat) (first : Bool) (cs : List Char) :
    Except Fault (List (String × Content) × List Char) :=
  contentMembers (readingFuel cs) depth first cs

theorem length_of_content {depth : Nat} {cs rest : List Char} {v : Content}
    (h : content depth cs = .ok (v, rest)) : rest.length < cs.length :=
  (length_of_contentWith _).1 h

theorem values_nil_iff {depth : Nat} {first : Bool} {cs rest : List Char} :
    values depth first cs = .ok ([], rest) ↔ nextElement first cs = .ok (false, rest) := by
  rw [values, readingFuel, contentElements, bind_eq_ok_iff]
  constructor
  · intro h
    obtain ⟨⟨more, after⟩, hnext, h⟩ := h
    cases more with
    | false =>
      cases h
      exact hnext
    | true =>
      obtain ⟨_, -, h⟩ := bind_eq_ok_iff.mp h
      obtain ⟨_, -, h⟩ := bind_eq_ok_iff.mp h
      cases h
  · intro hnext
    exact ⟨(false, rest), hnext, rfl⟩

theorem values_cons_iff {depth : Nat} {first : Bool} {cs rest : List Char} {v : Content}
    {vs : List Content} :
    values depth first cs = .ok (v :: vs, rest) ↔
      ∃ start after, nextElement first cs = .ok (true, start) ∧
        content depth start = .ok (v, after) ∧ values depth false after = .ok (vs, rest) := by
  rw [values, readingFuel, contentElements, bind_eq_ok_iff]
  constructor
  · intro h
    obtain ⟨⟨more, start⟩, hnext, h⟩ := h
    have hle := length_of_nextElement hnext
    cases more with
    | false => cases h
    | true =>
      obtain ⟨⟨v', after⟩, hvalue, h⟩ := bind_eq_ok_iff.mp h
      obtain ⟨⟨vs', rest'⟩, hvalues, h⟩ := bind_eq_ok_iff.mp h
      cases h
      rw [← content_eq_contentWith _ (by omega)] at hvalue
      have hlt := length_of_content hvalue
      rw [contentElements_of_le _ (by rw [readingFuel]; omega)] at hvalues
      exact ⟨start, after, hnext, hvalue, hvalues⟩
  · intro h
    obtain ⟨start, after, hnext, hvalue, hvalues⟩ := h
    have hle := length_of_nextElement hnext
    have hlt := length_of_content hvalue
    rw [content_eq_contentWith (2 * cs.length + 1) (by omega)] at hvalue
    rw [values, ← contentElements_of_le (2 * cs.length + 1)
      (by rw [readingFuel]; omega)] at hvalues
    refine ⟨(true, start), hnext, ?_⟩
    simp only [hvalue, hvalues, ok_bind]
    rfl

theorem pairs_nil_iff {depth : Nat} {first : Bool} {cs rest : List Char} :
    pairs depth first cs = .ok ([], rest) ↔ nextMember first cs = .ok (false, rest) := by
  rw [pairs, readingFuel, contentMembers, bind_eq_ok_iff]
  constructor
  · intro h
    obtain ⟨⟨more, after⟩, hnext, h⟩ := h
    cases more with
    | false =>
      cases h
      exact hnext
    | true =>
      obtain ⟨_, -, h⟩ := bind_eq_ok_iff.mp h
      obtain ⟨_, -, h⟩ := bind_eq_ok_iff.mp h
      obtain ⟨_, -, h⟩ := bind_eq_ok_iff.mp h
      obtain ⟨_, -, h⟩ := bind_eq_ok_iff.mp h
      cases h
  · intro hnext
    exact ⟨(false, rest), hnext, rfl⟩

theorem pairs_cons_iff {depth : Nat} {first : Bool} {cs rest : List Char} {key : String}
    {v : Content} {ps : List (String × Content)} :
    pairs depth first cs = .ok ((key, v) :: ps, rest) ↔
      ∃ start afterKey afterColon after, nextMember first cs = .ok (true, start) ∧
        Json.string start = .ok (key, afterKey) ∧ colon afterKey = .ok afterColon ∧
        content depth afterColon = .ok (v, after) ∧ pairs depth false after = .ok (ps, rest) := by
  rw [pairs, readingFuel, contentMembers, bind_eq_ok_iff]
  constructor
  · intro h
    obtain ⟨⟨more, start⟩, hnext, h⟩ := h
    have hle := length_of_nextMember hnext
    cases more with
    | false => cases h
    | true =>
      obtain ⟨⟨key', afterKey⟩, hkey, h⟩ := bind_eq_ok_iff.mp h
      obtain ⟨afterColon, hcolon, h⟩ := bind_eq_ok_iff.mp h
      obtain ⟨⟨v', after⟩, hvalue, h⟩ := bind_eq_ok_iff.mp h
      obtain ⟨⟨ps', rest'⟩, hpairs, h⟩ := bind_eq_ok_iff.mp h
      cases h
      have hkeyLt := (string_eq_ok hkey).1
      have hcolonLt := length_of_skipBlanks (colon_eq_ok hcolon)
      rw [← content_eq_contentWith _ (by omega)] at hvalue
      have hlt := length_of_content hvalue
      rw [contentMembers_of_le _ (by rw [readingFuel]; omega)] at hpairs
      exact ⟨start, afterKey, afterColon, after, hnext, hkey, hcolon, hvalue, hpairs⟩
  · intro h
    obtain ⟨start, afterKey, afterColon, after, hnext, hkey, hcolon, hvalue, hpairs⟩ := h
    have hle := length_of_nextMember hnext
    have hkeyLt := (string_eq_ok hkey).1
    have hcolonLt := length_of_skipBlanks (colon_eq_ok hcolon)
    have hlt := length_of_content hvalue
    rw [content_eq_contentWith (2 * cs.length + 1) (by omega)] at hvalue
    rw [pairs, ← contentMembers_of_le (2 * cs.length + 1)
      (by rw [readingFuel]; omega)] at hpairs
    refine ⟨(true, start), hnext, ?_⟩
    simp only [hkey, hcolon, hvalue, hpairs, ok_bind]
    rfl

/-- The text `cs` begins with the value `v`, and the other text follows. -/
inductive Spells (depth : Nat) (cs : List Char) : Content → List Char → Prop
  | null {start rest : List Char} (hskip : skipBlanks cs = 'n' :: start)
      (hword : keyword "ull".toList start = .ok rest) : Spells depth cs .null rest
  | yes {start rest : List Char} (hskip : skipBlanks cs = 't' :: start)
      (hword : keyword "rue".toList start = .ok rest) : Spells depth cs (.bool true) rest
  | no {start rest : List Char} (hskip : skipBlanks cs = 'f' :: start)
      (hword : keyword "alse".toList start = .ok rest) : Spells depth cs (.bool false) rest
  | string {start rest : List Char} {s : String} (hskip : skipBlanks cs = '"' :: start)
      (hstring : Json.string start = .ok (s, rest)) : Spells depth cs (.string s) rest
  | integer {c : Char} {start rest : List Char} {numeral : Numeral} {n : Int}
      (hskip : skipBlanks cs = c :: start) (hnumber : c = '-' ∨ c.isDigit = true)
      (hnumeral : Json.numeral .endInValue (c :: start) = .ok (numeral, rest))
      (hvalue : numeral.value rest = .ok (.integer n)) : Spells depth cs (.integer n) rest
  | float {c : Char} {start rest : List Char} {numeral : Numeral} {x : Binary64}
      (hskip : skipBlanks cs = c :: start) (hnumber : c = '-' ∨ c.isDigit = true)
      (hnumeral : Json.numeral .endInValue (c :: start) = .ok (numeral, rest))
      (hvalue : numeral.value rest = .ok (.float x)) : Spells depth cs (.float x) rest
  | seq {inner : Nat} {start after rest : List Char} {vs : List Content}
      (hskip : skipBlanks cs = '[' :: start) (hdescend : descend depth ('[' :: start) = .ok inner)
      (hvalues : values inner true start = .ok (vs, after)) (hclose : closeList after = .ok rest) :
      Spells depth cs (.seq vs) rest
  | map {inner : Nat} {start after rest : List Char} {ps : List (String × Content)}
      (hskip : skipBlanks cs = '\x7b' :: start)
      (hdescend : descend depth ('\x7b' :: start) = .ok inner)
      (hpairs : pairs inner true start = .ok (ps, after)) (hclose : closeObject after = .ok rest) :
      Spells depth cs (.map ps) rest

/-- The first character of a number is no other value's. -/
theorem ne_of_number {c d : Char} (h : c = '-' ∨ c.isDigit = true) (hminus : d ≠ '-')
    (hdigit : d.isDigit = false) : c ≠ d := by
  intro hcd
  subst hcd
  obtain h | h := h
  · exact hminus h
  · rw [hdigit] at h
    cases h

theorem value_eq_ok {numeral : Numeral} {rest : List Char} {v : Content}
    (h : numeral.value rest = .ok v) : (∃ n, v = .integer n) ∨ ∃ x, v = .float x := by
  have hfloat : ∀ {r : Except Fault Binary64}, Content.float <$> r = .ok v → ∃ x, v = .float x := by
    intro r hr
    cases r with
    | error _ => cases hr
    | ok x =>
      cases hr
      exact ⟨x, rfl⟩
  simp only [Numeral.value] at h
  split at h
  · exact .inr (hfloat h)
  · split at h
    · cases h
      exact .inl ⟨_, rfl⟩
    · split at h
      · cases h
        exact .inl ⟨_, rfl⟩
      · exact .inr (hfloat h)

theorem spells_of_scalar {depth : Nat} {cs rest : List Char} {v : Content}
    (h : scalar (skipBlanks cs) = .ok (v, rest)) : Spells depth cs v rest := by
  generalize hskip : skipBlanks cs = after at h
  simp only [scalar] at h
  split at h
  · obtain ⟨rest', hword, h⟩ := bind_eq_ok_iff.mp h
    cases h
    exact .null hskip hword
  · obtain ⟨rest', hword, h⟩ := bind_eq_ok_iff.mp h
    cases h
    exact .yes hskip hword
  · obtain ⟨rest', hword, h⟩ := bind_eq_ok_iff.mp h
    cases h
    exact .no hskip hword
  · obtain ⟨⟨s, rest'⟩, hstring, h⟩ := bind_eq_ok_iff.mp h
    cases h
    exact .string hskip hstring
  · next c start _ _ _ _ =>
    split at h
    · next hnumber =>
      obtain ⟨⟨numeral, rest'⟩, hnumeral, h⟩ := bind_eq_ok_iff.mp h
      obtain ⟨v', hvalue, h⟩ := bind_eq_ok_iff.mp h
      cases h
      have hnumber' : c = '-' ∨ c.isDigit = true := by simpa using hnumber
      obtain ⟨n, rfl⟩ | ⟨x, rfl⟩ := value_eq_ok hvalue
      · exact .integer hskip hnumber' hnumeral hvalue
      · exact .float hskip hnumber' hnumeral hvalue
    · cases h
  · cases h

theorem spells_of_content {depth : Nat} {cs rest : List Char} {v : Content}
    (h : content depth cs = .ok (v, rest)) : Spells depth cs v rest := by
  rw [content, readingFuel, contentWith] at h
  split at h
  · cases h
  · next start hskip =>
    obtain ⟨inner, hdescend, h⟩ := bind_eq_ok_iff.mp h
    obtain ⟨⟨vs, after⟩, hvalues, h⟩ := bind_eq_ok_iff.mp h
    obtain ⟨rest', hclose, h⟩ := bind_eq_ok_iff.mp h
    cases h
    have hlt := length_of_skipBlanks hskip
    rw [contentElements_of_le _ (by rw [readingFuel]; omega)] at hvalues
    exact .seq hskip hdescend hvalues hclose
  · next start hskip =>
    obtain ⟨inner, hdescend, h⟩ := bind_eq_ok_iff.mp h
    obtain ⟨⟨ps, after⟩, hpairs, h⟩ := bind_eq_ok_iff.mp h
    obtain ⟨rest', hclose, h⟩ := bind_eq_ok_iff.mp h
    cases h
    have hlt := length_of_skipBlanks hskip
    rw [contentMembers_of_le _ (by rw [readingFuel]; omega)] at hpairs
    exact .map hskip hdescend hpairs hclose
  · exact spells_of_scalar h

theorem content_of_scalar {depth : Nat} {cs start rest : List Char} {c : Char} {v : Content}
    (hskip : skipBlanks cs = c :: start) (hlist : c ≠ '[') (hobject : c ≠ '\x7b')
    (h : scalar (c :: start) = .ok (v, rest)) : content depth cs = .ok (v, rest) := by
  rw [content, readingFuel, contentWith, hskip]
  split
  · next heq => cases heq
  · next heq => exact absurd (List.cons.inj heq).1 hlist
  · next heq => exact absurd (List.cons.inj heq).1 hobject
  · exact h

theorem scalar_of_number {c : Char} {start rest : List Char} {numeral : Numeral} {v : Content}
    (hnumber : c = '-' ∨ c.isDigit = true)
    (hnumeral : Json.numeral .endInValue (c :: start) = .ok (numeral, rest))
    (hvalue : numeral.value rest = .ok v) : scalar (c :: start) = .ok (v, rest) := by
  rw [scalar]
  · rw [if_pos (by simpa using hnumber), hnumeral, ok_bind]
    simp only
    rw [hvalue]
    rfl
  all_goals exact ne_of_number hnumber (by decide) (by decide)

theorem content_of_spells {depth : Nat} {cs rest : List Char} {v : Content}
    (h : Spells depth cs v rest) : content depth cs = .ok (v, rest) := by
  cases h with
  | null hskip hword | yes hskip hword | no hskip hword =>
    refine content_of_scalar hskip (by decide) (by decide) ?_
    rw [scalar, hword]
    rfl
  | string hskip hstring =>
    refine content_of_scalar hskip (by decide) (by decide) ?_
    rw [scalar, hstring]
    rfl
  | integer hskip hnumber hnumeral hvalue | float hskip hnumber hnumeral hvalue =>
    exact content_of_scalar hskip (ne_of_number hnumber (by decide) (by decide))
      (ne_of_number hnumber (by decide) (by decide)) (scalar_of_number hnumber hnumeral hvalue)
  | seq hskip hdescend hvalues hclose =>
    have hlt := length_of_skipBlanks hskip
    rw [values, ← contentElements_of_le (2 * cs.length + 1) (by rw [readingFuel]; omega)] at hvalues
    rw [content, readingFuel, contentWith, hskip]
    simp only
    rw [hdescend, ok_bind, hvalues, ok_bind]
    simp only
    rw [hclose]
    rfl
  | map hskip hdescend hpairs hclose =>
    have hlt := length_of_skipBlanks hskip
    rw [pairs, ← contentMembers_of_le (2 * cs.length + 1) (by rw [readingFuel]; omega)] at hpairs
    rw [content, readingFuel, contentWith, hskip]
    simp only
    rw [hdescend, ok_bind, hpairs, ok_bind]
    simp only
    rw [hclose]
    rfl

end Reader

end Phrasebook.Json
