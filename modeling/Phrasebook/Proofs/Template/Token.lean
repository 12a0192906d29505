import Phrasebook.Proofs.Template.Merged
import Phrasebook.Proofs.Template.Run

namespace Phrasebook

/-- ASCII white space. -/
def IsBlank (c : Char) : Prop := c ∈ [' ', '\t', '\n', '\x0c', '\r']

/-- An ASCII letter, an ASCII digit or the underscore. -/
def IsNameChar (c : Char) : Prop :=
  'A' ≤ c ∧ c ≤ 'Z' ∨ 'a' ≤ c ∧ c ≤ 'z' ∨ '0' ≤ c ∧ c ≤ '9' ∨ c = '_'

/-- A run of such characters that is not empty. -/
def IsName (name : List Char) : Prop := name ≠ [] ∧ ∀ c ∈ name, IsNameChar c

theorem isTemplateBlank_iff {c : Char} : isTemplateBlank c = true ↔ IsBlank c := by
  simp [isTemplateBlank, IsBlank, or_assoc]

theorem isNameChar_iff {c : Char} : isNameChar c = true ↔ IsNameChar c := by
  have hupper : c.isUpper = true ↔ 'A' ≤ c ∧ c ≤ 'Z' := decide_eq_true_iff
  have hlower : c.isLower = true ↔ 'a' ≤ c ∧ c ≤ 'z' :=
    Bool.and_eq_true_iff.trans (and_congr decide_eq_true_iff decide_eq_true_iff)
  have hdigit : c.isDigit = true ↔ '0' ≤ c ∧ c ≤ '9' :=
    Bool.and_eq_true_iff.trans (and_congr decide_eq_true_iff decide_eq_true_iff)
  have hname : isNameChar c = (((c.isUpper || c.isLower) || c.isDigit) || c == '_') := rfl
  rw [hname, Bool.or_eq_true, Bool.or_eq_true, Bool.or_eq_true, hupper, hlower, hdigit, beq_iff_eq,
    or_assoc, or_assoc, IsNameChar]

/-- A blank ends a name. -/
theorem isNameChar_of_blank {c : Char} (h : IsBlank c) : isNameChar c = false := by
  simp only [IsBlank, List.mem_cons, List.not_mem_nil, or_false] at h
  rcases h with rfl | rfl | rfl | rfl | rfl <;> decide

theorem isTemplateBlank_of_blanks {cs : List Char} (h : ∀ c ∈ cs, IsBlank c) :
    ∀ c ∈ cs, isTemplateBlank c = true :=
  fun c hc => isTemplateBlank_iff.mpr (h c hc)

theorem IsName.isNameChar {name : List Char} (h : IsName name) :
    ∀ c ∈ name, isNameChar c = true :=
  fun c hc => isNameChar_iff.mpr (h.2 c hc)

/-- A name is over where the blanks in front of the closing brace begin. -/
theorem head_after_name {after rest : List Char} (h : ∀ c ∈ after, IsBlank c) :
    ∀ c ∈ (after ++ '\x7d' :: rest).head?, isNameChar c = false := by
  cases after with
  | nil => simp; decide
  | cons c after => simpa using isNameChar_of_blank (h c (by simp))

/-- A piece of a template that stands for a character or a placeholder. -/
inductive Token where
  | openBrace
  | closeBrace
  | char (c : Char) (ne_open : c ≠ '\x7b') (ne_close : c ≠ '\x7d')
  | placeholder (before name after : List Char) (before_blank : ∀ c ∈ before, IsBlank c)
      (is_name : IsName name) (after_blank : ∀ c ∈ after, IsBlank c)

namespace Token

/-- The token as it is written. -/
def spell : Token → List Char
  | .openBrace => ['\x7b', '\x7b']
  | .closeBrace => ['\x7d', '\x7d']
  | .char c _ _ => [c]
  | .placeholder before name after .. =>
    '\x7b' :: (before ++ '$' :: (name ++ (after ++ ['\x7d'])))

/-- A row of tokens as it is written. -/
def spellAll (tokens : List Token) : List Char := tokens.flatMap spell

theorem spellAll_cons (token : Token) (tokens : List Token) :
    spellAll (token :: tokens) = token.spell ++ spellAll tokens := rfl

theorem spell_ne_nil (token : Token) : token.spell ≠ [] := by
  cases token <;> simp [spell]

/-- What the token stands for. -/
def meaning : Token → Segment
  | .openBrace => .literal "\x7b"
  | .closeBrace => .literal "\x7d"
  | .char c _ _ => .literal (String.singleton c)
  | .placeholder _ name .. => .placeholder (String.ofList name)

theorem meaning_ne_empty (token : Token) : token.meaning ≠ .literal "" := by
  cases token with
  | openBrace => decide
  | closeBrace => decide
  | char c =>
    intro h
    have hs : String.singleton c = "" := Segment.literal.inj h
    have hc := congrArg String.toList hs
    simp at hc
  | placeholder => simp [meaning]

theorem atoms_meaning (token : Token) : token.meaning.atoms = [token.meaning] := by
  cases token with
  | openBrace => exact Segment.atoms_ofChar '\x7b'
  | closeBrace => exact Segment.atoms_ofChar '\x7d'
  | char c => exact Segment.atoms_ofChar c
  | placeholder => rfl

theorem atoms_meanings (tokens : List Token) :
    (tokens.map meaning).flatMap Segment.atoms = tokens.map meaning := by
  induction tokens with
  | nil => rfl
  | cons token tokens ih =>
    rw [List.map_cons, List.flatMap_cons, atoms_meaning, ih]
    rfl

theorem spell_placeholder {before name after : List Char} (hb : ∀ c ∈ before, IsBlank c)
    (hn : IsName name) (ha : ∀ c ∈ after, IsBlank c) (rest : List Char) :
    (placeholder before name after hb hn ha).spell ++ rest =
      '\x7b' :: (before ++ '$' :: (name ++ (after ++ '\x7d' :: rest))) := by
  simp [spell]

/-- The three runs inside a placeholder end where they are written to end. -/
theorem placeholder_inj {before name after before' name' after' rest rest' : List Char}
    (hb : ∀ c ∈ before, IsBlank c) (hn : IsName name) (ha : ∀ c ∈ after, IsBlank c)
    (hb' : ∀ c ∈ before', IsBlank c) (hn' : IsName name') (ha' : ∀ c ∈ after', IsBlank c)
    (h : before ++ '$' :: (name ++ (after ++ '\x7d' :: rest)) =
      before' ++ '$' :: (name' ++ (after' ++ '\x7d' :: rest'))) :
    before = before' ∧ name = name' ∧ after = after' ∧ rest = rest' := by
  obtain ⟨hbefore, h⟩ := run_append_inj (isTemplateBlank_of_blanks hb)
    (isTemplateBlank_of_blanks hb') (by simp; decide) (by simp; decide) h
  obtain ⟨hname, h⟩ := run_append_inj hn.isNameChar hn'.isNameChar (head_after_name ha)
    (head_after_name ha') (List.cons.inj h).2
  obtain ⟨hafter, h⟩ := run_append_inj (isTemplateBlank_of_blanks ha)
    (isTemplateBlank_of_blanks ha') (by simp; decide) (by simp; decide) h
  exact ⟨hbefore, hname, hafter, (List.cons.inj h).2⟩

/-- No placeholder begins like a doubled brace. -/
theorem inside_ne_openBrace {before rest cs : List Char} (hb : ∀ c ∈ before, IsBlank c) :
    before ++ '$' :: rest ≠ '\x7b' :: cs := by
  cases before with
  | nil => simp
  | cons c before =>
    intro h
    have hc := hb c (by simp)
    rw [(List.cons.inj h).1] at hc
    revert hc
    simp [IsBlank]

/-- What a text begins with and where that ends is settled by its first token. -/
theorem spell_append_inj {a b : Token} {cs ds : List Char}
    (h : a.spell ++ cs = b.spell ++ ds) : a = b ∧ cs = ds := by
  cases a with
  | openBrace =>
    cases b with
    | openBrace => simpa [spell] using h
    | closeBrace => simp [spell] at h
    | char c ne_open => simp [spell, Ne.symm ne_open] at h
    | placeholder before name after hb hn ha =>
      rw [spell_placeholder] at h
      exact absurd (List.cons.inj h).2.symm (inside_ne_openBrace hb)
  | closeBrace =>
    cases b with
    | openBrace => simp [spell] at h
    | closeBrace => simpa [spell] using h
    | char c _ ne_close => simp [spell, Ne.symm ne_close] at h
    | placeholder => simp [spell] at h
  | char c ne_open ne_close =>
    cases b with
    | openBrace => simp [spell, ne_open] at h
    | closeBrace => simp [spell, ne_close] at h
    | char d => simpa [spell] using h
    | placeholder => simp [spell, ne_open] at h
  | placeholder before name after hb hn ha =>
    cases b with
    | openBrace =>
      rw [spell_placeholder] at h
      exact absurd (List.cons.inj h).2 (inside_ne_openBrace hb)
    | closeBrace => simp [spell] at h
    | char d ne_open => simp [spell, Ne.symm ne_open] at h
    | placeholder before' name' after' hb' hn' ha' =>
      rw [spell_placeholder, spell_placeholder] at h
      obtain ⟨rfl, rfl, rfl, rfl⟩ := placeholder_inj hb hn ha hb' hn' ha' (List.cons.inj h).2
      exact ⟨rfl, rfl⟩

theorem spellAll_injective : Function.Injective spellAll := by
  intro a b h
  induction a generalizing b with
  | nil =>
    cases b with
    | nil => rfl
    | cons other others => exact absurd (List.append_eq_nil_iff.mp h.symm).1 other.spell_ne_nil
  | cons token tokens ih =>
    cases b with
    | nil => exact absurd (List.append_eq_nil_iff.mp h).1 token.spell_ne_nil
    | cons other others =>
      rw [spellAll_cons, spellAll_cons] at h
      obtain ⟨rfl, hrest⟩ := spell_append_inj h
      rw [ih hrest]

end Token

end Phrasebook
