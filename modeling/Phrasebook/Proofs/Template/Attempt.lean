import Phrasebook.Proofs.Template.Reading
import Phrasebook.Template.Attempt

namespace Phrasebook

namespace Attempt

variable {α : Type}

/-- A repetition goes on after an attempt that took something. -/
theorem repeated_of_taken {a : Attempt α} {cs rest : List Char} {value : α}
    (h : a cs = (.taken value, rest)) (hlt : rest.length < cs.length) :
    repeated a cs = ((repeated a rest).1.map (value :: ·), (repeated a rest).2) := by
  rw [repeated, h]
  exact if_pos hlt

theorem repeated_of_refused {a : Attempt α} {cs : List Char} (h : (a cs).1 = .refused) :
    repeated a cs = (.taken [], cs) := by
  rw [repeated]
  split
  · next hcs => rw [hcs] at h; cases h
  · rfl
  · next hcs => rw [hcs] at h; cases h

theorem word_refused {w cs : List Char} (h : ¬ w <+: cs) : (word w cs).1 = .refused := by
  rw [word, if_neg]
  rwa [List.isPrefixOf_iff_prefix]

theorem orElse_of_refused {a b : Attempt α} {cs : List Char} (h : (a cs).1 = .refused) :
    a.orElse b cs = b cs := by
  rw [orElse]
  split
  · next hcs => rw [hcs] at h; cases h
  · rfl
  · next hcs => rw [hcs] at h; cases h

end Attempt

namespace Segment

open Attempt

/-- What does not begin with a doubled brace is not escaped. -/
theorem escaped_refused {cs : List Char} (ho : ∀ ds, cs ≠ '\x7b' :: '\x7b' :: ds)
    (hc : ∀ ds, cs ≠ '\x7d' :: '\x7d' :: ds) : (escaped cs).1 = .refused := by
  have hopen : ¬ ['\x7b', '\x7b'] <+: cs := fun ⟨ds, h⟩ => ho ds h.symm
  have hclose : ¬ ['\x7d', '\x7d'] <+: cs := fun ⟨ds, h⟩ => hc ds h.symm
  rw [escaped, orElse_of_refused]
  · simp [map, word_refused hclose, Ending.map]
  · simp [map, word_refused hopen, Ending.map]

/-- Behind an opening brace a placeholder is read as the scanner reads it. -/
theorem interpolated_open {cs rest : List Char} {name : String}
    (h : placeholder? cs = some (name, rest)) :
    interpolated ('\x7b' :: cs) = (.taken (.placeholder name), rest) := by
  unfold placeholder? at h
  split at h
  · next ds hds =>
    split at h
    · next c tl rest' hname hrest =>
      obtain ⟨rfl, rfl⟩ := Prod.mk.inj (Option.some.inj h)
      simp [interpolated, andThen, map, char, run, runOfSome, Ending.map, hds, hname, hrest]
    · cases h
  · cases h

theorem interpolated_open_refused {cs : List Char} (h : placeholder? cs = none) :
    (interpolated ('\x7b' :: cs)).1 = .refused := by
  unfold placeholder? at h
  split at h
  · next ds hds =>
    split at h
    · cases h
    · next hother =>
      cases hname : ds.takeWhile isNameChar with
      | nil => simp [interpolated, andThen, char, run, runOfSome, hds, hname]
      | cons c tl =>
        cases hrest : (ds.dropWhile isNameChar).dropWhile isTemplateBlank with
        | nil =>
          simp [interpolated, andThen, map, char, run, runOfSome, Ending.map, hds, hname, hrest]
        | cons d rest =>
          have hd : d ≠ '\x7d' := by
            rintro rfl
            exact hother c tl rest hname hrest
          simp [interpolated, andThen, map, char, run, runOfSome, Ending.map, hds, hname, hrest, hd]
  · next hother =>
    cases hds : cs.dropWhile isTemplateBlank with
    | nil => simp [interpolated, andThen, char, run, hds]
    | cons d ds =>
      have hd : d ≠ '$' := by
        rintro rfl
        exact hother ds hds
      simp [interpolated, andThen, char, run, hds, hd]

theorem interpolated_refused {c : Char} (cs : List Char) (h : c ≠ '\x7b') :
    (interpolated (c :: cs)).1 = .refused := by
  simp [interpolated, andThen, char, h]

theorem unbraced_char {c : Char} (cs : List Char) (ho : c ≠ '\x7b') (hc : c ≠ '\x7d') :
    unbraced (c :: cs) = (.taken (.literal (String.singleton c)), cs) := by
  simp [unbraced, map, char, ho, hc, Ending.map]

theorem unbraced_refused {c : Char} (cs : List Char) (h : c = '\x7b' ∨ c = '\x7d') :
    (unbraced (c :: cs)).1 = .refused := by
  rcases h with rfl | rfl <;> simp [unbraced, map, char, Ending.map]

theorem attempt_openBrace (cs : List Char) :
    attempt ('\x7b' :: '\x7b' :: cs) = (.taken (.literal "\x7b"), cs) := rfl

theorem attempt_closeBrace (cs : List Char) :
    attempt ('\x7d' :: '\x7d' :: cs) = (.taken (.literal "\x7d"), cs) := rfl

theorem attempt_placeholder {cs rest : List Char} {name : String} (hcs : ∀ ds, cs ≠ '\x7b' :: ds)
    (h : placeholder? cs = some (name, rest)) :
    attempt ('\x7b' :: cs) = (.taken (.placeholder name), rest) := by
  have hescaped : (escaped ('\x7b' :: cs)).1 = .refused :=
    escaped_refused (by simpa using hcs) (by simp)
  rw [attempt, orElse_of_refused hescaped, orElse, interpolated_open h]

theorem attempt_char {c : Char} (cs : List Char) (ho : c ≠ '\x7b') (hc : c ≠ '\x7d') :
    attempt (c :: cs) = (.taken (.literal (String.singleton c)), cs) := by
  have hescaped : (escaped (c :: cs)).1 = .refused := escaped_refused (by simp [ho]) (by simp [hc])
  rw [attempt, orElse_of_refused hescaped, orElse_of_refused (interpolated_refused cs ho),
    unbraced_char cs ho hc]

theorem attempt_open_refused {cs : List Char} (hcs : ∀ ds, cs ≠ '\x7b' :: ds)
    (h : placeholder? cs = none) : (attempt ('\x7b' :: cs)).1 = .refused := by
  have hescaped : (escaped ('\x7b' :: cs)).1 = .refused :=
    escaped_refused (by simpa using hcs) (by simp)
  rw [attempt, orElse_of_refused hescaped, orElse_of_refused (interpolated_open_refused h),
    unbraced_refused cs (.inl rfl)]

theorem attempt_close_refused {cs : List Char} (hcs : ∀ ds, cs ≠ '\x7d' :: ds) :
    (attempt ('\x7d' :: cs)).1 = .refused := by
  have hescaped : (escaped ('\x7d' :: cs)).1 = .refused :=
    escaped_refused (by simp) (by simpa using hcs)
  rw [attempt, orElse_of_refused hescaped, orElse_of_refused (interpolated_refused cs (by decide)),
    unbraced_refused cs (.inr rfl)]

end Segment

namespace Template

open Attempt Segment

/-- The repetition of the three alternatives takes segments that put together are those of the
scanner, and stops where the scanner stops. -/
theorem repeated_attempt (cs : List Char) :
    ∃ segments, repeated attempt cs = (.taken segments, (scan cs).2) ∧
      merge segments = (scan cs).1 := by
  -- A segment in front, whichever alternative takes it.
  have grow : ∀ {cs after rest : List Char} {segment : Segment} {more : List Segment},
      attempt cs = (.taken segment, after) → after.length < cs.length →
      (∃ segments, repeated attempt after = (.taken segments, rest) ∧ merge segments = more) →
      ∃ segments, repeated attempt cs = (.taken segments, rest) ∧
        merge segments = segment.push more := by
    intro cs after rest segment more hattempt hlt hrest
    obtain ⟨segments, hsegments, hmore⟩ := hrest
    refine ⟨segment :: segments, ?_, ?_⟩
    · rw [repeated_of_taken hattempt hlt, hsegments, Ending.map]
    · rw [← hmore]
      rfl
  have stop : ∀ {cs : List Char}, (attempt cs).1 = .refused →
      ∃ segments, repeated attempt cs = (.taken segments, cs) ∧ merge segments = [] :=
    fun h => ⟨[], repeated_of_refused h, rfl⟩
  fun_induction scan cs with
  | case1 => exact stop rfl
  | case2 cs segments rest hscan ih =>
    rw [hscan] at ih
    exact grow (attempt_openBrace cs) (by simp only [List.length_cons]; omega) ih
  | case3 cs segments rest hscan ih =>
    rw [hscan] at ih
    exact grow (attempt_closeBrace cs) (by simp only [List.length_cons]; omega) ih
  | case4 cs hopen name after hread segments rest hscan ih =>
    rw [hscan] at ih
    have hlt := length_of_placeholder? hread
    exact grow (attempt_placeholder hopen hread) (Nat.lt_succ_of_lt hlt) ih
  | case5 cs hopen hread => exact stop (attempt_open_refused hopen hread)
  | case6 cs hclose => exact stop (attempt_close_refused hclose)
  | case7 c cs _ _ ne_open ne_close segments rest hscan ih =>
    rw [hscan] at ih
    exact grow (attempt_char cs ne_open ne_close) (Nat.lt_succ_self _) ih

end Template

end Phrasebook
