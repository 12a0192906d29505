import Phrasebook.Proofs.Json.Decoding

namespace Phrasebook.Json.Reader

variable {α β : Type}

/-- What the reader accepts can be read whole. -/
def Whole (r : Reader α) : Prop :=
  ∀ ⦃depth : Nat⦄ ⦃cs : List Char⦄ ⦃a : α⦄ ⦃rest : List Char⦄, r depth cs = .ok (a, rest) →
    ∃ v, content depth cs = .ok (v, rest)

theorem atValue_eq_ok {read : Nat → List Char → Except Fault (α × List Char)} {depth : Nat}
    {cs rest : List Char} {a : α} (h : atValue read depth cs = .ok (a, rest)) :
    ∃ c tail, skipBlanks cs = c :: tail ∧ read depth (c :: tail) = .ok (a, rest) := by
  rw [atValue] at h
  split at h
  · cases h
  · next hne =>
    cases hskip : skipBlanks cs with
    | nil => exact absurd hskip hne
    | cons c tail =>
      rw [hskip] at h
      exact ⟨c, tail, rfl, h⟩

theorem content_of_stringAs {expected : String} {depth : Nat} {cs rest : List Char} {s : String}
    (h : stringAs expected depth cs = .ok (s, rest)) :
    content depth cs = .ok (.string s, rest) := by
  obtain ⟨c, tail, hskip, h⟩ := atValue_eq_ok h
  split at h
  · next heq =>
    cases heq
    exact content_of_spells (.string hskip h)
  · cases h

variable {t : Tagging}

theorem content_of_tag {depth : Nat} {cs rest : List Char} {s : String}
    (h : tag t depth cs = .ok (s, rest)) : content depth cs = .ok (.string s, rest) := by
  rw [tag] at h
  obtain ⟨⟨s', after⟩, hstring, h⟩ := bind_eq_ok_iff.mp h
  simp only at h
  split at h
  · cases h
  · cases h
    exact content_of_stringAs hstring

/-- The members are walked as those of any object, with an eye to the tag. -/
theorem pairs_of_taggedMembers {depth : Nat} :
    ∀ (fuel : Nat) {first tagged : Bool} {cs after : List Char} {ps : List (String × Content)},
      taggedMembers t depth fuel first tagged cs = .ok (ps, after) →
      pairs depth first cs = .ok (ps, after)
  | 0, first, tagged, cs, after, ps, h => by cases h
  | fuel + 1, first, tagged, cs, after, ps, h => by
    rw [taggedMembers] at h
    obtain ⟨⟨more, start⟩, hnext, h⟩ := bind_eq_ok_iff.mp h
    cases more with
    | false =>
      simp only at h
      split at h
      · cases h
        exact pairs_nil_iff.mpr hnext
      · cases h
    | true =>
      obtain ⟨⟨key, afterKey⟩, hkey, h⟩ := bind_eq_ok_iff.mp h
      simp only at h
      split at h
      · split at h
        · cases h
        · obtain ⟨afterColon, hcolon, h⟩ := bind_eq_ok_iff.mp h
          obtain ⟨⟨name, afterValue⟩, hvalue, h⟩ := bind_eq_ok_iff.mp h
          obtain ⟨⟨others, after'⟩, hothers, h⟩ := bind_eq_ok_iff.mp h
          cases h
          exact pairs_cons_iff.mpr ⟨start, afterKey, afterColon, afterValue, hnext, hkey, hcolon,
            content_of_tag hvalue, pairs_of_taggedMembers fuel hothers⟩
      · obtain ⟨afterColon, hcolon, h⟩ := bind_eq_ok_iff.mp h
        obtain ⟨⟨value, afterValue⟩, hvalue, h⟩ := bind_eq_ok_iff.mp h
        obtain ⟨⟨others, after'⟩, hothers, h⟩ := bind_eq_ok_iff.mp h
        cases h
        exact pairs_cons_iff.mpr ⟨start, afterKey, afterColon, afterValue, hnext, hkey, hcolon,
          hvalue, pairs_of_taggedMembers fuel hothers⟩

theorem whole_tagged (t : Tagging) : (tagged t).Whole := by
  intro depth cs v rest h
  obtain ⟨c, tail, hskip, h⟩ := atValue_eq_ok h
  split at h
  · next heq =>
    cases heq
    obtain ⟨inner, hdescend, h⟩ := bind_eq_ok_iff.mp h
    obtain ⟨⟨more, start⟩, hnext, h⟩ := bind_eq_ok_iff.mp h
    cases more with
    | false => cases h
    | true =>
      obtain ⟨⟨name, afterTag⟩, htag, h⟩ := bind_eq_ok_iff.mp h
      obtain ⟨⟨items, after⟩, hitems, h⟩ := bind_eq_ok_iff.mp h
      obtain ⟨rest', hclose, h⟩ := bind_eq_ok_iff.mp h
      cases h
      have hvalues := values_cons_iff.mpr ⟨start, afterTag, hnext, content_of_tag htag, hitems⟩
      exact ⟨_, content_of_spells (.seq hskip hdescend hvalues hclose)⟩
  · next heq =>
    cases heq
    obtain ⟨inner, hdescend, h⟩ := bind_eq_ok_iff.mp h
    obtain ⟨⟨members, after⟩, hmembers, h⟩ := bind_eq_ok_iff.mp h
    obtain ⟨rest', hclose, h⟩ := bind_eq_ok_iff.mp h
    cases h
    have hpairs := pairs_of_taggedMembers _ hmembers
    exact ⟨_, content_of_spells (.map hskip hdescend hpairs hclose)⟩
  · cases h

variable {element : Reader β} {make : β → Except Cause α}

theorem values_of_elements (hwhole : element.Whole) {depth : Nat} :
    ∀ (fuel : Nat) {first : Bool} {cs rest : List Char} {as : List α},
      elements element make depth fuel first cs = .ok (as, rest) →
      ∃ vs after, values depth first cs = .ok (vs, after) ∧ closeList after = .ok rest
  | 0, first, cs, rest, as, h => by cases h
  | fuel + 1, first, cs, rest, as, h => by
    rw [elements] at h
    obtain ⟨⟨more, start⟩, hnext, h⟩ := bind_eq_ok_iff.mp h
    cases more with
    | false =>
      obtain ⟨rest', hclose, h⟩ := bind_eq_ok_iff.mp h
      cases h
      exact ⟨[], start, values_nil_iff.mpr hnext, hclose⟩
    | true =>
      obtain ⟨⟨raw, afterValue⟩, hraw, h⟩ := bind_eq_ok_iff.mp h
      obtain ⟨v, hvalue⟩ := hwhole hraw
      simp only at h
      split at h
      · cases h
      · obtain ⟨⟨others, rest'⟩, hothers, h⟩ := bind_eq_ok_iff.mp h
        cases h
        obtain ⟨vs, after, hvalues, hclose⟩ := values_of_elements hwhole fuel hothers
        exact ⟨v :: vs, after,
          values_cons_iff.mpr ⟨start, afterValue, hnext, hvalue, hvalues⟩, hclose⟩

theorem Whole.listOf (hwhole : element.Whole) (make : β → Except Cause α) :
    (Reader.listOf element make).Whole := by
  intro depth cs as rest h
  obtain ⟨c, tail, hskip, h⟩ := atValue_eq_ok h
  split at h
  · next heq =>
    cases heq
    obtain ⟨inner, hdescend, h⟩ := bind_eq_ok_iff.mp h
    obtain ⟨vs, after, hvalues, hclose⟩ := values_of_elements hwhole _ h
    exact ⟨_, content_of_spells (.seq hskip hdescend hvalues hclose)⟩
  · cases h

/-- A text is accepted if it holds a value that stands for something. -/
theorem Whole.run_eq_ok_iff {r : Reader α} {decode : Content → Option α} (hwhole : r.Whole)
    (hdecodes : r.Decodes decode) {text : String} {a : α} :
    r.run text = .ok a ↔ ∃ v, content.run text = .ok v ∧ decode v = some a := by
  constructor
  · intro h
    obtain ⟨rest, hr, hend⟩ := Reader.run_eq_ok_iff.mp h
    obtain ⟨v, hcontent⟩ := hwhole hr
    have hv := Reader.run_eq_ok_iff.mpr ⟨rest, hcontent, hend⟩
    exact ⟨v, hv, (hdecodes.run_eq_ok_iff hv).mp h⟩
  · intro h
    obtain ⟨v, hv, ha⟩ := h
    exact (hdecodes.run_eq_ok_iff hv).mpr ha

theorem Tagging.tagged?_eq_some {v w : Content} (h : t.tagged? v = some w) : v = w := by
  rw [tagged?.eq_def] at h
  split at h
  · split at h
    · exact Option.some.inj h
    · cases h
  · split at h
    · exact Option.some.inj h
    · cases h
  · cases h

/-- The tags have been checked, so the values are made one by one. -/
theorem Tagging.mapM_of_list? {make : Content → Except Cause α} {v : Content} {as : List α}
    (h : v.list? (fun v => (t.tagged? v).bind fun w => (make w).toOption) = some as) :
    ∃ vs, v = .seq vs ∧ vs.mapM make = .ok as := by
  cases v with
  | seq vs =>
    refine ⟨vs, rfl, ?_⟩
    rw [Content.list?] at h
    induction vs generalizing as with
    | nil =>
      cases h
      rfl
    | cons v vs ih =>
      rw [List.mapM_cons] at h
      obtain ⟨a, ha, h⟩ := Option.bind_eq_some_iff.mp h
      obtain ⟨others, hothers, h⟩ := Option.bind_eq_some_iff.mp h
      cases h
      obtain ⟨w, htagged, hmake⟩ := Option.bind_eq_some_iff.mp ha
      cases tagged?_eq_some htagged
      rw [List.mapM_cons, toOption_eq_some_iff.mp hmake, ok_bind, ih hothers]
      rfl
  | _ => cases h

end Phrasebook.Json.Reader
