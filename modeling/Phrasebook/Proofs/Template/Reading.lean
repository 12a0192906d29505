import Phrasebook.Proofs.Template.Token

namespace Phrasebook

theorem placeholder?_spell {before name after : List Char} (hb : ∀ c ∈ before, IsBlank c)
    (hn : IsName name) (ha : ∀ c ∈ after, IsBlank c) (rest : List Char) :
    placeholder? (before ++ '$' :: (name ++ (after ++ '\x7d' :: rest))) =
      some (String.ofList name, rest) := by
  have hbefore : (before ++ '$' :: (name ++ (after ++ '\x7d' :: rest))).dropWhile isTemplateBlank =
      '$' :: (name ++ (after ++ '\x7d' :: rest)) :=
    dropWhile_run (isTemplateBlank_of_blanks hb) (by simp; decide)
  have hname : (name ++ (after ++ '\x7d' :: rest)).takeWhile isNameChar = name :=
    takeWhile_run hn.isNameChar (head_after_name ha)
  have hrest : (name ++ (after ++ '\x7d' :: rest)).dropWhile isNameChar = after ++ '\x7d' :: rest :=
    dropWhile_run hn.isNameChar (head_after_name ha)
  have hafter : (after ++ '\x7d' :: rest).dropWhile isTemplateBlank = '\x7d' :: rest :=
    dropWhile_run (isTemplateBlank_of_blanks ha) (by simp; decide)
  obtain ⟨c, tl, rfl⟩ := List.exists_cons_of_ne_nil hn.1
  simp only [placeholder?, hbefore, hname, hrest, hafter]

/-- What is read as a placeholder is the inside of one. -/
theorem exists_token_of_placeholder? {cs rest : List Char} {name : String}
    (h : placeholder? cs = some (name, rest)) :
    ∃ token : Token, token.meaning = .placeholder name ∧ token.spell ++ rest = '\x7b' :: cs := by
  unfold placeholder? at h
  split at h
  · next ds hds =>
    split at h
    · next c tl rest' hname hrest =>
      obtain ⟨rfl, rfl⟩ := Prod.mk.inj (Option.some.inj h)
      have hb : ∀ c ∈ cs.takeWhile isTemplateBlank, IsBlank c :=
        fun c hc => isTemplateBlank_iff.mp (List.mem_takeWhile_imp hc)
      have hn : IsName (c :: tl) := by
        refine ⟨by simp, fun d hd => isNameChar_iff.mp ?_⟩
        rw [← hname] at hd
        exact List.mem_takeWhile_imp hd
      have ha : ∀ c ∈ (ds.dropWhile isNameChar).takeWhile isTemplateBlank, IsBlank c :=
        fun c hc => isTemplateBlank_iff.mp (List.mem_takeWhile_imp hc)
      refine ⟨.placeholder _ _ _ hb hn ha, rfl, ?_⟩
      rw [Token.spell_placeholder, ← hrest, List.takeWhile_append_dropWhile, ← hname,
        List.takeWhile_append_dropWhile, ← hds, List.takeWhile_append_dropWhile]
    · simp at h
  · simp at h

namespace Template

/-- The scanner takes off the token that a text begins with. -/
theorem scan_spell (token : Token) (cs : List Char) :
    scan (token.spell ++ cs) = (token.meaning.push (scan cs).1, (scan cs).2) := by
  cases token with
  | openBrace =>
    rw [Token.spell, List.cons_append, List.cons_append, List.nil_append, scan]
    rfl
  | closeBrace =>
    rw [Token.spell, List.cons_append, List.cons_append, List.nil_append, scan]
    rfl
  | char c ne_open ne_close =>
    rw [Token.spell, List.cons_append, List.nil_append, scan]
    · rfl
    · simp [ne_open]
    · simp [ne_close]
    · simp [ne_open]
    · simp [ne_close]
  | placeholder before name after hb hn ha =>
    rw [Token.spell_placeholder, scan]
    · have hread := placeholder?_spell hb hn ha cs
      split
      · next name' rest' h =>
        rw [hread] at h
        obtain ⟨rfl, rfl⟩ := Prod.mk.inj (Option.some.inj h)
        rfl
      · next h =>
        rw [hread] at h
        simp at h
    · exact fun cs' h => Token.inside_ne_openBrace hb h

theorem scan_spellAll (tokens : List Token) :
    scan (Token.spellAll tokens) = (merge (tokens.map Token.meaning), []) := by
  induction tokens with
  | nil =>
    rw [Token.spellAll, List.flatMap_nil, scan]
    rfl
  | cons token tokens ih =>
    rw [Token.spellAll_cons, scan_spell, ih]
    rfl

/-- The text that the scanner goes over is a row of tokens. -/
theorem exists_tokens_scan (cs : List Char) :
    ∃ tokens, Token.spellAll tokens ++ (scan cs).2 = cs := by
  have grow : ∀ (token : Token) {cs rest : List Char},
      (∃ tokens, Token.spellAll tokens ++ rest = cs) →
      ∃ tokens, Token.spellAll tokens ++ rest = token.spell ++ cs := by
    rintro token cs rest ⟨tokens, rfl⟩
    exact ⟨token :: tokens, by rw [Token.spellAll_cons, List.append_assoc]⟩
  fun_induction scan cs with
  | case1 => exact ⟨[], rfl⟩
  | case2 cs segments rest hscan ih =>
    rw [hscan] at ih
    exact grow .openBrace ih
  | case3 cs segments rest hscan ih =>
    rw [hscan] at ih
    exact grow .closeBrace ih
  | case4 cs _ name after hread segments rest hscan ih =>
    rw [hscan] at ih
    obtain ⟨token, -, htoken⟩ := exists_token_of_placeholder? hread
    rw [← htoken]
    exact grow token ih
  | case5 => exact ⟨[], rfl⟩
  | case6 => exact ⟨[], rfl⟩
  | case7 c cs _ _ ne_open ne_close segments rest hscan ih =>
    rw [hscan] at ih
    exact grow (.char c ne_open ne_close) ih

theorem parse_eq_ok {s : String} {t : Template} :
    parse s = .ok t ↔ scan s.toList = (t.segments, []) := by
  unfold parse
  rcases hscan : scan s.toList with ⟨segments, rest⟩
  cases rest with
  | nil =>
    rcases t with ⟨ts⟩
    simp [hscan]
  | cons c rest => simp [hscan]

/-- A text is read exactly if it is a row of tokens, and as what these stand for. -/
theorem parse_eq_ok_iff_merge {s : String} {t : Template} :
    parse s = .ok t ↔ ∃ tokens, Token.spellAll tokens = s.toList ∧
      t.segments = merge (tokens.map Token.meaning) := by
  rw [parse_eq_ok]
  constructor
  · intro h
    obtain ⟨tokens, htokens⟩ := exists_tokens_scan s.toList
    rw [h, List.append_nil] at htokens
    refine ⟨tokens, htokens, ?_⟩
    rw [← htokens, scan_spellAll] at h
    exact (Prod.mk.inj h).1.symm
  · rintro ⟨tokens, htokens, hsegments⟩
    rw [← htokens, scan_spellAll, hsegments]

/-- The segments of a template that is read are merged, and taken apart they are what the tokens
stand for. -/
theorem parse_eq_ok_iff_atoms {s : String} {t : Template} :
    parse s = .ok t ↔ ∃ tokens, Token.spellAll tokens = s.toList ∧ Merged t.segments ∧
      t.segments.flatMap Segment.atoms = tokens.map Token.meaning := by
  rw [parse_eq_ok_iff_merge]
  refine exists_congr fun tokens => and_congr_right fun _ => ?_
  have hmerged : Merged (merge (tokens.map Token.meaning)) := by
    refine merged_merge fun segment hsegment => ?_
    obtain ⟨token, -, rfl⟩ := List.mem_map.mp hsegment
    exact token.meaning_ne_empty
  have hatoms : (merge (tokens.map Token.meaning)).flatMap Segment.atoms =
      tokens.map Token.meaning := by
    rw [atoms_merge, Token.atoms_meanings]
  constructor
  · intro h
    rw [h]
    exact ⟨hmerged, hatoms⟩
  · rintro ⟨hm, ha⟩
    rw [← hm.merge_atoms, ha]

/-- A text is a template exactly if it is a row of tokens. It is one in one way only, and its
segments are what the tokens stand for, with neighbouring literals put together. -/
theorem parse_grammar (s : String) :
    ((∃ t, parse s = .ok t) ↔ ∃ tokens, Token.spellAll tokens = s.toList) ∧
    (∀ tokens others, Token.spellAll tokens = s.toList → Token.spellAll others = s.toList →
      tokens = others) ∧
    ∀ tokens t, Token.spellAll tokens = s.toList →
      (parse s = .ok t ↔ Merged t.segments ∧
        t.segments.flatMap Segment.atoms = tokens.map Token.meaning) := by
  have hunique : ∀ tokens others, Token.spellAll tokens = s.toList →
      Token.spellAll others = s.toList → tokens = others :=
    fun tokens others h h' => Token.spellAll_injective (h.trans h'.symm)
  refine ⟨⟨?_, ?_⟩, hunique, ?_⟩
  · rintro ⟨t, ht⟩
    obtain ⟨tokens, htokens, -⟩ := parse_eq_ok_iff_merge.mp ht
    exact ⟨tokens, htokens⟩
  · rintro ⟨tokens, htokens⟩
    exact ⟨⟨merge (tokens.map Token.meaning)⟩,
      parse_eq_ok_iff_merge.mpr ⟨tokens, htokens, rfl⟩⟩
  · intro tokens t htokens
    rw [parse_eq_ok_iff_atoms]
    constructor
    · rintro ⟨others, hothers, h⟩
      rw [hunique tokens others htokens hothers]
      exact h
    · intro h
      exact ⟨tokens, htokens, h⟩

end Template

end Phrasebook
