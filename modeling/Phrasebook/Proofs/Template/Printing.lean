import Phrasebook.Proofs.Template.Reading
import Phrasebook.Template.Printer

namespace Phrasebook

namespace Token

/-- The token of a character in literal text. -/
def ofChar (c : Char) : Token :=
  if ho : c = '\x7b' then .openBrace else if hc : c = '\x7d' then .closeBrace else .char c ho hc

theorem meaning_ofChar (c : Char) : (ofChar c).meaning = Segment.ofChar c := by
  unfold ofChar
  split
  · next h => rw [h]; rfl
  · split
    · next h => rw [h]; rfl
    · rfl

theorem spell_ofChar (c : Char) (cs : List Char) :
    (ofChar c).spell ++ doubleBraces cs = doubleBraces (c :: cs) := by
  unfold ofChar
  split
  · next h => rw [h]; rfl
  · next ho =>
    split
    · next h => rw [h]; rfl
    · next hc => rw [doubleBraces.eq_4 _ _ ho hc]; rfl

theorem spellAll_ofChar (cs : List Char) : spellAll (cs.map ofChar) = doubleBraces cs := by
  induction cs with
  | nil => rfl
  | cons c cs ih => rw [List.map_cons, spellAll_cons, ih, spell_ofChar]

end Token

/-- A literal is written as the tokens of its characters, a placeholder as a token of its own. -/
theorem Segment.exists_tokens_print (segment : Segment)
    (h : ∀ name, segment = .placeholder name → IsName name.toList) :
    ∃ tokens, Token.spellAll tokens = segment.print ∧
      tokens.map Token.meaning = segment.atoms := by
  cases segment with
  | literal s =>
    refine ⟨s.toList.map Token.ofChar, Token.spellAll_ofChar s.toList, ?_⟩
    simp [Segment.atoms, Token.meaning_ofChar]
  | placeholder name =>
    refine ⟨[.placeholder [] name.toList [] (by simp) (h name rfl) (by simp)], ?_, ?_⟩
    · simp [Token.spellAll, Token.spell, Segment.print]
    · simp [Token.meaning, Segment.atoms]

namespace Template

/-- The form that reading gives: merged literals and names that can be written. -/
structure Canonical (t : Template) : Prop where
  merged : Merged t.segments
  names : ∀ name ∈ t.names, IsName name.toList

theorem mem_names {t : Template} {name : String} :
    name ∈ t.names ↔ Segment.placeholder name ∈ t.segments := by
  unfold names
  rw [List.mem_filterMap]
  constructor
  · rintro ⟨segment, hmem, hname⟩
    cases segment with
    | literal s => simp at hname
    | placeholder other => rwa [← Option.some.inj hname]
  · intro h
    exact ⟨_, h, rfl⟩

theorem exists_tokens_print (segments : List Segment)
    (h : ∀ name, Segment.placeholder name ∈ segments → IsName name.toList) :
    ∃ tokens, Token.spellAll tokens = segments.flatMap Segment.print ∧
      tokens.map Token.meaning = segments.flatMap Segment.atoms := by
  induction segments with
  | nil => exact ⟨[], rfl, rfl⟩
  | cons segment segments ih =>
    obtain ⟨first, hspell, hmeaning⟩ := Segment.exists_tokens_print segment
      fun name heq => h name (by simp [heq])
    obtain ⟨rest, hspells, hmeanings⟩ := ih fun name hmem => h name (by simp [hmem])
    refine ⟨first ++ rest, ?_, ?_⟩
    · have happend : Token.spellAll (first ++ rest) = Token.spellAll first ++ Token.spellAll rest :=
        List.flatMap_append
      rw [happend, hspell, hspells, List.flatMap_cons]
    · rw [List.map_append, hmeaning, hmeanings, List.flatMap_cons]

theorem Canonical.parse_eq {t : Template} (h : t.Canonical) : parse t.print = .ok t := by
  obtain ⟨tokens, hspell, hmeaning⟩ := exists_tokens_print t.segments
    fun name hmem => h.names name (mem_names.mpr hmem)
  refine parse_eq_ok_iff_atoms.mpr ⟨tokens, ?_, h.merged, hmeaning.symm⟩
  rw [hspell, print, String.toList_ofList]

theorem canonical_of_parse {s : String} {t : Template} (h : parse s = .ok t) : t.Canonical := by
  obtain ⟨tokens, -, hmerged, hatoms⟩ := parse_eq_ok_iff_atoms.mp h
  refine ⟨hmerged, fun name hname => ?_⟩
  have hmem : Segment.placeholder name ∈ tokens.map Token.meaning := by
    rw [← hatoms]
    exact List.mem_flatMap.mpr ⟨_, mem_names.mp hname, by simp [Segment.atoms]⟩
  obtain ⟨token, -, htoken⟩ := List.mem_map.mp hmem
  cases token with
  | placeholder _ other _ _ is_name =>
    rw [← Segment.placeholder.inj htoken, String.toList_ofList]
    exact is_name
  | _ => simp [Token.meaning] at htoken

theorem canonical_literal (s : String) : (literal s).Canonical := by
  unfold literal
  split
  · exact ⟨.nil, by simp [names]⟩
  · next hs => exact ⟨.cons (by simpa using hs) (by simp) .nil, by simp [names]⟩

theorem print_literal (s : String) :
    (literal s).print = String.ofList (doubleBraces s.toList) := by
  unfold literal
  split
  · next hs => rw [hs]; rfl
  · simp [print, Segment.print]

/-- Writing and reading are inverse to each other exactly on the canonical templates, which are
all that is ever read. Text with its braces doubled is read as that text. -/
theorem parse_print :
    (∀ t : Template, parse t.print = .ok t ↔ t.Canonical) ∧
    (∀ (s : String) (t : Template), parse s = .ok t → t.Canonical ∧ parse t.print = .ok t) ∧
    ∀ s : String, parse (String.ofList (doubleBraces s.toList)) = .ok (literal s) := by
  refine ⟨fun t => ⟨canonical_of_parse, Canonical.parse_eq⟩, ?_, ?_⟩
  · intro s t h
    have hcanonical := canonical_of_parse h
    exact ⟨hcanonical, hcanonical.parse_eq⟩
  · intro s
    rw [← print_literal]
    exact (canonical_literal s).parse_eq

end Template

end Phrasebook
