import Mathlib.Data.List.Nodup
import Mathlib.Data.List.Perm.Subperm
import Phrasebook.Proofs.Catalog.Lookup

namespace Phrasebook.Roster

/-- A hop of a walk that met the codes `met` and stands at `code`. -/
structure Hop (r : Roster) (met : List String) (code next : String) : Prop where
  fallback : (r.find? code).bind Locale.fallback = some next
  declared : r.declares next = true
  fresh : next ∉ met

/-- Walks from a code: the codes met, in order, and the one where the walk stands. -/
inductive Walk (r : Roster) (start : String) : List String → String → Prop
  | start : Walk r start [start] start
  | hop {met : List String} {code next : String} (walk : Walk r start met code)
      (hop : r.Hop met code next) : Walk r start (met ++ [next]) next

/-- A walk that cannot go on. -/
structure WholeWalk (r : Roster) (start : String) (met : List String) (code : String) : Prop where
  walk : r.Walk start met code
  ended : ∀ next, ¬ r.Hop met code next

variable {r : Roster} {start code next : String} {met : List String}

/-- A walk begins at its start and meets none but declared codes after it. -/
theorem Walk.exists_declared (h : r.Walk start met code) :
    ∃ rest, met = start :: rest ∧ ∀ other ∈ rest, r.declares other = true := by
  induction h with
  | start => exact ⟨[], rfl, by simp⟩
  | @hop met code next walk hop ih =>
    obtain ⟨rest, rfl, hrest⟩ := ih
    refine ⟨rest ++ [next], rfl, List.forall_mem_append.mpr ⟨hrest, ?_⟩⟩
    exact List.forall_mem_singleton.mpr hop.declared

theorem Walk.nodup (h : r.Walk start met code) : met.Nodup := by
  induction h with
  | start => exact List.nodup_singleton start
  | hop walk hop ih =>
    rw [← List.concat_eq_append]
    exact ih.concat hop.fresh

theorem Walk.getLast?_eq (h : r.Walk start met code) : met.getLast? = some code := by
  cases h with
  | start => rfl
  | hop walk hop => exact List.getLast?_concat

/-- There is no way on from a code that is not declared. -/
theorem Walk.eq_of_undeclared (h : r.Walk start met code) (hstart : r.declares start = false) :
    met = [start] ∧ code = start := by
  induction h with
  | start => exact ⟨rfl, rfl⟩
  | hop walk hop ih =>
    obtain ⟨-, hcode⟩ := ih
    have hnone : r.find? start = none := by simpa [declares] using hstart
    have hfallback := hop.fallback
    rw [hcode, hnone] at hfallback
    cases hfallback

/-- A walk does not meet more codes than there are locales. -/
theorem Walk.length_le (h : r.Walk start met code) : met.length ≤ r.locales.length := by
  cases hstart : r.declares start with
  | false =>
    obtain ⟨rfl, -⟩ := h.eq_of_undeclared hstart
    exact List.length_pos_of_mem r.home_mem
  | true =>
    obtain ⟨rest, rfl, hrest⟩ := h.exists_declared
    have hsubset : start :: rest ⊆ r.codes := by
      intro other hother
      rw [← declares_iff]
      rcases List.mem_cons.mp hother with rfl | hother
      · exact hstart
      · exact hrest other hother
    simpa [codes] using (h.nodup.subperm hsubset).length_le

/-- Whatever the number of hops still left, a walk can be carried to its end. -/
theorem Walk.exists_whole {left : Nat} (h : r.Walk start met code)
    (hleft : r.locales.length ≤ met.length + left) : ∃ met' code', r.WholeWalk start met' code' := by
  induction left generalizing met code with
  | zero =>
    -- All declared codes are met, so one more would be one too many.
    refine ⟨met, code, h, ?_⟩
    intro next hop
    have hlength := (h.hop hop).length_le
    rw [List.length_append, List.length_singleton] at hlength
    omega
  | succ left ih =>
    by_cases hnext : ∃ next, r.Hop met code next
    · obtain ⟨next, hop⟩ := hnext
      apply ih (h.hop hop)
      rw [List.length_append, List.length_singleton]
      omega
    · exact ⟨met, code, h, not_exists.mp hnext⟩

theorem exists_wholeWalk (r : Roster) (start : String) :
    ∃ met code, r.WholeWalk start met code :=
  Walk.start.exists_whole (Nat.le_add_left _ _)

theorem follow_of_hop (h : r.Hop met code next) (hops : Nat) :
    r.follow (hops + 1) met (r.find? code) = r.follow hops (met ++ [next]) (r.find? next) := by
  obtain ⟨locale, hlocale, hfallback⟩ := Option.bind_eq_some_iff.mp h.fallback
  obtain ⟨other, hother⟩ := Option.isSome_iff_exists.mp h.declared
  simp [hlocale, follow, hfallback, h.fresh, hother]

theorem follow_of_ended (h : ∀ next, ¬ r.Hop met code next) (hops : Nat) :
    r.follow hops met (r.find? code) = met := by
  cases hops with
  | zero => rfl
  | succ hops =>
    cases hlocale : r.find? code with
    | none => rfl
    | some locale =>
      rw [follow]
      split
      · rfl
      · next next hfallback =>
        split
        · rfl
        · next hfresh =>
          split
          · rfl
          · next other hother =>
            have hdeclared : r.declares next = true := by simp [declares, hother]
            exact absurd ⟨by rw [hlocale]; exact hfallback, hdeclared, hfresh⟩ (h next)

/-- What is left to follow after a walk. -/
theorem Walk.follow_eq (h : r.Walk start met code) (hops : Nat) :
    r.follow (hops + met.length) [start] (r.find? start) =
      r.follow (hops + 1) met (r.find? code) := by
  induction h generalizing hops with
  | start => rfl
  | @hop met code next walk hop ih =>
    have hlength : hops + (met ++ [next]).length = hops + 1 + met.length := by
      rw [List.length_append, List.length_singleton]
      omega
    rw [hlength, ih, follow_of_hop hop]

/-- As many hops as there are locales are enough. -/
theorem WholeWalk.follow_eq (h : r.WholeWalk start met code) {hops : Nat}
    (hhops : r.locales.length ≤ hops) : r.follow hops [start] (r.find? start) = met := by
  obtain ⟨more, rfl⟩ := Nat.exists_eq_add_of_le' (Nat.le_trans h.walk.length_le hhops)
  rw [h.walk.follow_eq, follow_of_ended h.ended]

theorem WholeWalk.unique {met' : List String} {code' : String} (h : r.WholeWalk start met code)
    (h' : r.WholeWalk start met' code') : met' = met := by
  rw [← h.follow_eq (Nat.le_refl _), h'.follow_eq (Nat.le_refl _)]

theorem WholeWalk.chain_eq (h : r.WholeWalk start met code) :
    r.chain start = if r.home.code ∈ met then met else met ++ [r.home.code] := by
  simp only [chain, h.follow_eq (Nat.le_refl _)]

theorem nodup_chain (r : Roster) (start : String) : (r.chain start).Nodup := by
  obtain ⟨met, code, h⟩ := r.exists_wholeWalk start
  rw [h.chain_eq]
  split
  · exact h.walk.nodup
  · next hhome =>
    rw [← List.concat_eq_append]
    exact h.walk.nodup.concat hhome

/-- A chain begins with the requested code and holds none but declared codes after it. -/
theorem chain_eq_cons (r : Roster) (start : String) :
    ∃ rest, r.chain start = start :: rest ∧ ∀ other ∈ rest, r.declares other = true := by
  obtain ⟨met, code, h⟩ := r.exists_wholeWalk start
  obtain ⟨rest, rfl, hrest⟩ := h.walk.exists_declared
  rw [h.chain_eq]
  split
  · exact ⟨rest, rfl, hrest⟩
  · refine ⟨rest ++ [r.home.code], rfl, List.forall_mem_append.mpr ⟨hrest, ?_⟩⟩
    exact List.forall_mem_singleton.mpr r.declares_home

/-- A chain is the whole walk along fallbacks from the requested code, followed by the global
default if the walk did not meet it. There is one such walk from each code, and no bound on the hops
that is at least the number of locales cuts it short. The codes of a chain differ, and all but the
requested one, which comes first, are declared. -/
theorem chain_eq_wholeWalk (r : Roster) (start : String) :
    ∃ met code, r.WholeWalk start met code ∧
      (∀ met' code', r.WholeWalk start met' code' → met' = met) ∧
      (∀ hops, r.locales.length ≤ hops → r.follow hops [start] (r.find? start) = met) ∧
      r.chain start = (if r.home.code ∈ met then met else met ++ [r.home.code]) ∧
      (r.chain start).Nodup ∧
      ∃ rest, r.chain start = start :: rest ∧ ∀ other ∈ rest, r.declares other = true := by
  obtain ⟨met, code, h⟩ := r.exists_wholeWalk start
  exact ⟨met, code, h, fun _ _ h' => h.unique h', fun _ => h.follow_eq, h.chain_eq,
    r.nodup_chain start, r.chain_eq_cons start⟩

end Phrasebook.Roster
