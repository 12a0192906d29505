import Phrasebook.Proofs.Template.Attempt
import Phrasebook.Proofs.Text.Position

namespace Phrasebook.Template

open Text

/-- A beginning of a text that is a template, while no longer one is. -/
structure LongestRead (cs before : List Char) : Prop where
  beginning : before <+: cs
  read : ∃ t, parse (String.ofList before) = .ok t
  longest : ∀ other, other <+: cs → (∃ t, parse (String.ofList other) = .ok t) →
    other.length ≤ before.length

theorem LongestRead.unique {cs before other : List Char} (h : LongestRead cs before)
    (h' : LongestRead cs other) : before = other := by
  have hle : before.length ≤ other.length := h'.longest before h.beginning h.read
  have hge : other.length ≤ before.length := h.longest other h'.beginning h'.read
  have hprefix : before <+: other := List.prefix_of_prefix_length_le h.beginning h'.beginning hle
  exact hprefix.eq_of_length (Nat.le_antisymm hle hge)

/-- The text that is left begins with a brace. -/
theorem scan_stops_at_brace (cs : List Char) :
    ∀ c ∈ (scan cs).2.head?, c = '\x7b' ∨ c = '\x7d' := by
  fun_induction scan cs with
  | case1 => simp
  | case2 cs segments rest hscan ih => simpa [hscan] using ih
  | case3 cs segments rest hscan ih => simpa [hscan] using ih
  | case4 cs hopen name after hread segments rest hscan ih => simpa [hscan] using ih
  | case5 => simp
  | case6 => simp
  | case7 c cs _ _ ne_open ne_close segments rest hscan ih => simpa [hscan] using ih

/-- The scanner goes over a template in front of any text and then over that text. -/
theorem scan_spellAll_append (tokens : List Token) (cs : List Char) :
    (scan (Token.spellAll tokens ++ cs)).2 = (scan cs).2 := by
  induction tokens with
  | nil => rfl
  | cons token tokens ih => rw [Token.spellAll_cons, List.append_assoc, scan_spell, ih]

theorem exists_parse_iff {cs : List Char} :
    (∃ t, parse (String.ofList cs) = .ok t) ↔ ∃ tokens, Token.spellAll tokens = cs := by
  have h := (parse_grammar (String.ofList cs)).1
  rwa [String.toList_ofList] at h

/-- What the scanner goes over is the longest beginning that is a template. -/
theorem exists_longestRead (cs : List Char) :
    ∃ before, cs = before ++ (scan cs).2 ∧ LongestRead cs before := by
  obtain ⟨tokens, htokens⟩ := exists_tokens_scan cs
  refine ⟨Token.spellAll tokens, htokens.symm, ⟨_, htokens⟩, exists_parse_iff.mpr ⟨tokens, rfl⟩, ?_⟩
  intro other hother hread
  obtain ⟨rest, hrest⟩ := hother
  obtain ⟨others, rfl⟩ := exists_parse_iff.mp hread
  -- Behind the other beginning the scanner goes on, so it leaves no more than what follows that.
  have hleft : (scan cs).2 = (scan rest).2 := by rw [← hrest, scan_spellAll_append]
  obtain ⟨more, hmore⟩ := exists_tokens_scan rest
  have hcs := congrArg List.length htokens
  have hcs' := congrArg List.length hrest
  have hlengths := congrArg List.length hmore
  rw [hleft] at hcs
  simp only [List.length_append] at hcs hcs' hlengths
  omega

/-- The fault is at the place behind what the scanner has gone over. -/
theorem parse_eq_error {s : String} {before after : List Char} {c : Char}
    (hsplit : s.toList = before ++ c :: after) (hscan : (scan s.toList).2 = c :: after) :
    parse s = .error ⟨Position.after before, c⟩ := by
  unfold parse
  rcases hs : scan s.toList with ⟨segments, rest⟩
  obtain rfl : rest = c :: after := by rw [← hscan, hs]
  have htake : s.toList.take (s.toList.length - (c :: after).length) = before := by
    rw [hsplit, List.length_append, Nat.add_sub_cancel, List.take_left]
  simp only [hs, htake]

theorem parse_eq_error_iff {s : String} {fault : Fault} :
    parse s = .error fault ↔
      ∃ before brace after, s.toList = before ++ brace :: after ∧ LongestRead s.toList before ∧
        fault = ⟨Position.after before, brace⟩ := by
  obtain ⟨before, hsplit, hbefore⟩ := exists_longestRead s.toList
  cases hscan : (scan s.toList).2 with
  | nil =>
    have hparse : parse s = .ok ⟨(scan s.toList).1⟩ := parse_eq_ok.mpr (Prod.ext rfl hscan)
    rw [hparse]
    constructor
    · intro h
      cases h
    · intro h
      obtain ⟨other, brace, after, hother, hlongest, -⟩ := h
      -- All of the text is read, so nothing is left behind the longest beginning.
      rw [hscan, List.append_nil] at hsplit
      rw [hlongest.unique hbefore, ← hsplit] at hother
      simp at hother
  | cons c rest =>
    rw [hscan] at hsplit
    rw [parse_eq_error hsplit hscan]
    constructor
    · intro h
      cases h
      exact ⟨before, c, rest, hsplit, hbefore, rfl⟩
    · intro h
      obtain ⟨other, brace, after, hother, hlongest, rfl⟩ := h
      rw [hlongest.unique hbefore, hsplit] at hother
      obtain ⟨rfl, -⟩ := List.cons.inj (List.append_cancel_left hother)
      rw [hlongest.unique hbefore]

/-- A text that is no template has a brace behind its longest beginning that is one. The fault names
the brace, with its line and its column in bytes. The repetition of tokens itself never breaks off:
it always gives segments, and a text is refused only for what it leaves. -/
theorem fault_at_first_bad_brace (s : String) :
    (∀ fault, parse s = .error fault ↔
      ∃ before brace after, s.toList = before ++ brace :: after ∧ LongestRead s.toList before ∧
        (brace = '\x7b' ∨ brace = '\x7d') ∧
        fault.position.line = 1 + before.count '\n' ∧
        fault.position.column = 1 + byteLength (lastLine before) ∧
        fault.found = brace ∧
        fault.detail = "unexpected character: '" ++ String.singleton brace ++ "'") ∧
    ∃ segments rest, Attempt.repeated Segment.attempt s.toList = (.taken segments, rest) ∧
      ∀ t, parse s = .ok t ↔ rest = [] ∧ t = ⟨merge segments⟩ := by
  constructor
  · intro fault
    rw [parse_eq_error_iff]
    constructor
    · intro h
      obtain ⟨before, brace, after, hsplit, hlongest, rfl⟩ := h
      obtain ⟨other, hother, hread⟩ := exists_longestRead s.toList
      have hscan : (scan s.toList).2 = brace :: after := by
        rw [hread.unique hlongest] at hother
        exact List.append_cancel_left (hother.symm.trans hsplit)
      have hbrace := scan_stops_at_brace s.toList brace (by simp [hscan])
      refine ⟨before, brace, after, hsplit, hlongest, hbrace, ?_, ?_, rfl, rfl⟩
      · rw [Position.after_eq]
      · rw [Position.after_eq]
    · intro h
      obtain ⟨before, brace, after, hsplit, hlongest, -, hline, hcolumn, hfound, -⟩ := h
      obtain ⟨⟨line, column⟩, found⟩ := fault
      refine ⟨before, brace, after, hsplit, hlongest, ?_⟩
      rw [Position.after_eq, ← hline, ← hcolumn, ← hfound]
  · obtain ⟨segments, hrepeated, hmerge⟩ := repeated_attempt s.toList
    refine ⟨segments, _, hrepeated, ?_⟩
    intro t
    rw [parse_eq_ok, Prod.ext_iff, hmerge]
    constructor
    · intro h
      exact ⟨h.2, by rw [h.1]⟩
    · intro h
      exact ⟨by rw [h.2], h.1⟩

/-- In the second line the dollar sign is missing. -/
example : parse "a\nb \x7bname\x7d" = .error ⟨⟨2, 3⟩, '\x7b'⟩ := by cbv

end Phrasebook.Template
