import Phrasebook.Json.Printer
import Phrasebook.Proofs.Json.Decoding
import Phrasebook.Proofs.Json.Nesting

namespace Phrasebook.Json

theorem stringTail_short {e c : Char} (h : shortEscape? e = some c) (rest : List Char) :
    stringTail ('\\' :: e :: rest) = stringTail rest >>= fun p => .ok (c :: p.1, p.2) := by
  have hletter : e ≠ 'u' := by
    intro he
    rw [he] at h
    cases h
  rw [stringTail]
  · rw [h]
    rfl
  all_goals
    intros
    simp_all

theorem stringTail_unit {w x y z : Char} {unit : Nat} (h : codeUnit? w x y z = some unit)
    (hcontrol : unit < 0x20) (rest : List Char) :
    stringTail ('\\' :: 'u' :: w :: x :: y :: z :: rest) =
      stringTail rest >>= fun p => .ok (Char.ofNat unit :: p.1, p.2) := by
  have htrailing : isTrailing unit = false := by
    simp [isTrailing]
    omega
  have hleading : isLeading unit = false := by
    simp [isLeading]
    omega
  rw [stringTail, h]
  simp only [htrailing, hleading]
  rfl

theorem stringTail_plain {c : Char} (hquote : c ≠ '"') (hslash : c ≠ '\\') (hplain : 0x20 ≤ c.toNat)
    (rest : List Char) :
    stringTail (c :: rest) = stringTail rest >>= fun p => .ok (c :: p.1, p.2) := by
  rw [stringTail]
  · rw [if_neg (Nat.not_lt.mpr hplain)]
    rfl
  all_goals
    intros
    simp_all

theorem hexDigits_of_lt {n : Nat} (h : n < 0x10) :
    (Text.hexDigits n).toList = [n.digitChar] ∧ codeUnit? '0' '0' '0' n.digitChar = some n := by
  revert n
  decide

theorem hexDigits_of_control {n : Nat} (h : n < 0x20) (hlarge : 0x10 ≤ n) :
    (Text.hexDigits n).toList = ['1', (n - 0x10).digitChar] ∧
      codeUnit? '0' '0' '1' (n - 0x10).digitChar = some n := by
  revert n
  decide

/-- A character is written as it is, as an escape of one letter, or as a code unit. -/
theorem escapedChar_cases (c : Char) :
    ((escapedChar c).toList = [c] ∧ c ≠ '"' ∧ c ≠ '\\' ∧ 0x20 ≤ c.toNat) ∨
    (∃ e, (escapedChar c).toList = ['\\', e] ∧ shortEscape? e = some c) ∨
    ∃ x y, (escapedChar c).toList = ['\\', 'u', '0', '0', x, y] ∧
      codeUnit? '0' '0' x y = some c.toNat ∧ c.toNat < 0x20 := by
  fun_cases escapedChar c with
  | case1 => exact .inr (.inl ⟨'"', rfl, rfl⟩)
  | case2 => exact .inr (.inl ⟨'\\', rfl, rfl⟩)
  | case3 => exact .inr (.inl ⟨'b', rfl, rfl⟩)
  | case4 => exact .inr (.inl ⟨'f', rfl, rfl⟩)
  | case5 => exact .inr (.inl ⟨'n', rfl, rfl⟩)
  | case6 => exact .inr (.inl ⟨'r', rfl, rfl⟩)
  | case7 => exact .inr (.inl ⟨'t', rfl, rfl⟩)
  | case8 _ _ _ _ _ _ _ _ hsmall =>
    obtain ⟨hdigits, hunit⟩ := hexDigits_of_lt hsmall
    refine .inr (.inr ⟨'0', c.toNat.digitChar, ?_, hunit, by omega⟩)
    rw [String.toList_append, hdigits]
    rfl
  | case9 _ _ _ _ _ _ _ _ hlarge hcontrol =>
    obtain ⟨hdigits, hunit⟩ := hexDigits_of_control hcontrol (Nat.le_of_not_lt hlarge)
    refine .inr (.inr ⟨'1', (c.toNat - 0x10).digitChar, ?_, hunit, hcontrol⟩)
    rw [String.toList_append, hdigits]
    rfl
  | case10 _ hquote hslash _ _ _ _ _ _ hplain =>
    exact .inl ⟨String.toList_singleton _, hquote, hslash, Nat.le_of_not_lt hplain⟩

theorem stringTail_escapedChar (c : Char) (rest : List Char) :
    stringTail ((escapedChar c).toList ++ rest) =
      stringTail rest >>= fun p => .ok (c :: p.1, p.2) := by
  obtain ⟨htext, hquote, hslash, hplain⟩ | ⟨e, htext, hescape⟩ | ⟨x, y, htext, hunit, hcontrol⟩ :=
    escapedChar_cases c
  · rw [htext]
    exact stringTail_plain hquote hslash hplain rest
  · rw [htext]
    exact stringTail_short hescape rest
  · have hunits := stringTail_unit hunit hcontrol rest
    rw [Char.ofNat_toNat] at hunits
    rw [htext]
    exact hunits

theorem stringTail_escaped (cs rest : List Char) :
    stringTail (cs.flatMap (fun c => (escapedChar c).toList) ++ '"' :: rest) = .ok (cs, rest) := by
  induction cs with
  | nil => rw [List.flatMap_nil, List.nil_append, stringTail]
  | cons c cs ih =>
    rw [List.flatMap_cons, List.append_assoc, stringTail_escapedChar, ih]
    rfl

theorem toList_quote (s : String) :
    (quote s).toList = '"' :: (s.toList.flatMap (fun c => (escapedChar c).toList) ++ ['"']) := by
  rw [quote, String.toList_append, String.toList_append, String.toList_join, List.flatMap_map]
  rfl

/-- A quoted string is an opening quote and a text from which the string is read back. -/
theorem exists_toList_quote (s : String) :
    ∃ inner, (quote s).toList = '"' :: inner ∧ ∀ rest, string (inner ++ rest) = .ok (s, rest) := by
  refine ⟨_, toList_quote s, ?_⟩
  intro rest
  rw [string, List.append_assoc, List.singleton_append, stringTail_escaped]
  show Except.ok (String.ofList s.toList, rest) = _
  rw [String.ofList_toList]

namespace Content

mutual

/-- No number stands in the value. -/
def Numberless : Content → Prop
  | .integer _ => False
  | .float _ => False
  | .seq values => NumberlessAll values
  | .map members => NumberlessPairs members
  | _ => True

def NumberlessAll : List Content → Prop
  | [] => True
  | value :: values => Numberless value ∧ NumberlessAll values

def NumberlessPairs : List (String × Content) → Prop
  | [] => True
  | (_, value) :: members => Numberless value ∧ NumberlessPairs members

end

theorem numberlessPairs_append {ps qs : List (String × Content)} :
    NumberlessPairs (ps ++ qs) ↔ NumberlessPairs ps ∧ NumberlessPairs qs := by
  induction ps with
  | nil => rw [List.nil_append, NumberlessPairs, true_and]
  | cons p ps ih =>
    obtain ⟨key, v⟩ := p
    rw [List.cons_append, NumberlessPairs, NumberlessPairs, ih, and_assoc]

theorem toList_compactItems_cons (v w : Content) (vs : List Content) :
    (compactItems (v :: w :: vs)).toList =
      v.compact.toList ++ ',' :: (compactItems (w :: vs)).toList := by
  rw [compactItems, String.toList_append, String.toList_append, List.append_assoc]
  · rfl
  · intro h
    cases h

theorem toList_compactMembers_singleton (key : String) (v : Content) :
    (compactMembers [(key, v)]).toList = (quote key).toList ++ ':' :: v.compact.toList := by
  rw [compactMembers, String.toList_append, String.toList_append, List.append_assoc]
  rfl

theorem toList_compactMembers_cons (key : String) (v : Content) (p : String × Content)
    (ps : List (String × Content)) :
    (compactMembers ((key, v) :: p :: ps)).toList =
      (quote key).toList ++
        ':' :: (v.compact.toList ++ ',' :: (compactMembers (p :: ps)).toList) := by
  rw [compactMembers, String.toList_append, String.toList_append, String.toList_append,
    String.toList_append, List.append_assoc, List.append_assoc, List.append_assoc]
  · rfl
  · intro h
    cases h

end Content

namespace Reader

open Content

variable {depth : Nat} {cs rest : List Char}

theorem skipBlanks_of_content {v : Content} (h : content depth cs = .ok (v, rest)) :
    ∃ c tail, skipBlanks cs = c :: tail ∧ c ≠ ']' := by
  cases spells_of_content h with
  | null hskip | yes hskip | no hskip | string hskip | seq hskip | map hskip =>
    exact ⟨_, _, hskip, by decide⟩
  | integer hskip hnumber | float hskip hnumber =>
    exact ⟨_, _, hskip, ne_of_number hnumber (by decide) (by decide)⟩

theorem nextElement_of_content {v : Content} (h : content depth cs = .ok (v, rest)) :
    nextElement true cs = .ok (true, skipBlanks cs) := by
  obtain ⟨c, tail, hskip, hc⟩ := skipBlanks_of_content h
  rw [nextElement, hskip]
  split
  · next heq => cases heq
  · next heq => exact absurd (List.cons.inj heq).1 hc
  · next heq => rw [if_pos rfl, heq]

theorem nextElement_comma {start : List Char} (h : nextElement true cs = .ok (true, start)) :
    nextElement false (',' :: cs) = .ok (true, start) := by
  obtain ⟨-, c, tail, hc, hskip, rfl⟩ | ⟨hfirst, -⟩ := nextElement_true h
  · have hcomma : skipBlanks (',' :: cs) = ',' :: cs := rfl
    rw [nextElement, hcomma]
    split
    · next heq => cases heq
    · next heq => exact absurd (List.cons.inj heq).1 (by decide)
    · next heq =>
      cases heq
      rw [if_neg (by decide), if_pos rfl, hskip]
      split
      · next heq => cases heq
      · next heq => exact absurd (List.cons.inj heq).1 hc
      · rfl
  · cases hfirst

theorem values_comma {v : Content} {vs : List Content}
    (h : values depth true cs = .ok (v :: vs, rest)) :
    values depth false (',' :: cs) = .ok (v :: vs, rest) := by
  obtain ⟨start, after, hnext, hvalue, hvalues⟩ := values_cons_iff.mp h
  exact values_cons_iff.mpr ⟨start, after, nextElement_comma hnext, hvalue, hvalues⟩

theorem values_cons_of_content {v : Content} {vs : List Content} {after : List Char}
    (hvalue : content depth cs = .ok (v, after))
    (hvalues : values depth false after = .ok (vs, rest)) :
    values depth true cs = .ok (v :: vs, rest) := by
  refine values_cons_iff.mpr ⟨skipBlanks cs, after, nextElement_of_content hvalue, ?_, hvalues⟩
  rw [content_skipBlanks]
  exact hvalue

theorem nextMember_comma {start : List Char} (h : nextMember true cs = .ok (true, start)) :
    nextMember false (',' :: cs) = .ok (true, start) := by
  obtain ⟨-, hskip⟩ | ⟨hfirst, -⟩ := nextMember_true h
  · have hcomma : skipBlanks (',' :: cs) = ',' :: cs := rfl
    rw [nextMember, hcomma]
    split
    · next heq => cases heq
    · next heq => exact absurd (List.cons.inj heq).1 (by decide)
    · next heq =>
      cases heq
      rw [if_neg (by decide), if_pos rfl, hskip]
      rfl
  · cases hfirst

theorem pairs_comma {p : String × Content} {ps : List (String × Content)}
    (h : pairs depth true cs = .ok (p :: ps, rest)) :
    pairs depth false (',' :: cs) = .ok (p :: ps, rest) := by
  obtain ⟨key, v⟩ := p
  obtain ⟨start, afterKey, afterColon, after, hnext, hrest⟩ := pairs_cons_iff.mp h
  exact pairs_cons_iff.mpr ⟨start, afterKey, afterColon, after, nextMember_comma hnext, hrest⟩

theorem pairs_cons_of_content (key : String) {v : Content} {ps : List (String × Content)}
    {after : List Char} (hvalue : content depth cs = .ok (v, after))
    (hpairs : pairs depth false after = .ok (ps, rest)) :
    pairs depth true ((quote key).toList ++ ':' :: cs) = .ok ((key, v) :: ps, rest) := by
  obtain ⟨inner, hquote, hstring⟩ := exists_toList_quote key
  rw [hquote]
  exact pairs_cons_iff.mpr ⟨_, _, cs, after, rfl, hstring _, rfl, hvalue, hpairs⟩

theorem descend_of_lt {inner : Nat} (h : 0 < inner) (cs : List Char) :
    descend (inner + 1) cs = .ok inner := by
  rw [descend, if_neg (by omega)]
  rfl

-- Only a number could run into the text that follows it, so any text may follow.
mutual

theorem content_compact : ∀ {v : Content}, v.Numberless → ∀ {depth : Nat}, v.nesting < depth →
    ∀ rest : List Char, content depth (v.compact.toList ++ rest) = .ok (v, rest)
  | .null, _, depth, _, rest => content_of_spells (.null rfl rfl)
  | .bool true, _, depth, _, rest => content_of_spells (.yes rfl rfl)
  | .bool false, _, depth, _, rest => content_of_spells (.no rfl rfl)
  | .integer _, hplain, _, _, _ => absurd hplain not_false
  | .float _, hplain, _, _, _ => absurd hplain not_false
  | .string s, _, depth, _, rest => by
    obtain ⟨inner, hquote, hstring⟩ := exists_toList_quote s
    show content depth ((quote s).toList ++ rest) = _
    rw [hquote]
    exact content_of_spells (.string rfl (hstring rest))
  | .seq vs, hplain, depth, hdepth, rest => by
    obtain ⟨inner, rfl⟩ := Nat.exists_eq_add_one_of_ne_zero (Nat.ne_zero_of_lt hdepth)
    have hinner : nestingAll vs < inner := Nat.lt_of_succ_lt_succ hdepth
    have hvalues := values_compactItems hplain hinner rest
    rw [compact, String.toList_append, String.toList_append, List.append_assoc, List.append_assoc]
    exact content_of_spells (.seq rfl (descend_of_lt (by omega) _) hvalues rfl)
  | .map ps, hplain, depth, hdepth, rest => by
    obtain ⟨inner, rfl⟩ := Nat.exists_eq_add_one_of_ne_zero (Nat.ne_zero_of_lt hdepth)
    have hinner : nestingPairs ps < inner := Nat.lt_of_succ_lt_succ hdepth
    have hpairs := pairs_compactMembers hplain hinner rest
    rw [compact, String.toList_append, String.toList_append, List.append_assoc, List.append_assoc]
    exact content_of_spells (.map rfl (descend_of_lt (by omega) _) hpairs rfl)

theorem values_compactItems : ∀ {vs : List Content}, NumberlessAll vs → ∀ {depth : Nat},
    nestingAll vs < depth → ∀ rest : List Char,
    values depth true ((compactItems vs).toList ++ ']' :: rest) = .ok (vs, ']' :: rest)
  | [], _, depth, _, rest => values_nil_iff.mpr rfl
  | v :: vs, hplain, depth, hdepth, rest => by
    obtain ⟨hv, hvs⟩ := Nat.max_lt.mp hdepth
    have hrest := values_compactItems hplain.2 hvs rest
    have hvalue := content_compact hplain.1 hv
    cases vs with
    | nil =>
      rw [compactItems]
      exact values_cons_of_content (hvalue _) (values_nil_iff.mpr rfl)
    | cons w vs =>
      rw [toList_compactItems_cons, List.append_assoc]
      exact values_cons_of_content (hvalue _) (values_comma hrest)

theorem pairs_compactMembers : ∀ {ps : List (String × Content)}, NumberlessPairs ps →
    ∀ {depth : Nat}, nestingPairs ps < depth → ∀ rest : List Char,
    pairs depth true ((compactMembers ps).toList ++ '\x7d' :: rest) = .ok (ps, '\x7d' :: rest)
  | [], _, depth, _, rest => pairs_nil_iff.mpr rfl
  | (key, v) :: ps, hplain, depth, hdepth, rest => by
    obtain ⟨hv, hps⟩ := Nat.max_lt.mp hdepth
    have hrest := pairs_compactMembers hplain.2 hps rest
    have hvalue := content_compact hplain.1 hv
    cases ps with
    | nil =>
      rw [toList_compactMembers_singleton, List.append_assoc]
      exact pairs_cons_of_content key (hvalue _) (pairs_nil_iff.mpr rfl)
    | cons p ps =>
      rw [toList_compactMembers_cons, List.append_assoc, List.cons_append, List.append_assoc]
      exact pairs_cons_of_content key (hvalue _) (pairs_comma hrest)

end

/-- A value without numbers reads back if it nests less deep than a reader may go. -/
theorem run_compact {v : Content} (hplain : v.Numberless) (h : v.nesting < depthLimit) :
    content.run v.compact = .ok v := by
  have hread := content_compact hplain h []
  rw [List.append_nil] at hread
  exact run_eq_ok_iff.mpr ⟨[], hread, rfl⟩

end Reader

end Phrasebook.Json
