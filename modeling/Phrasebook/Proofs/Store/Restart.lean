import Phrasebook.Proofs.Store.Soundness

namespace Phrasebook

/-- The request looks into the file of the store. -/
def Request.readsFile : Request → Bool
  | .reload _ => true
  | _ => false

namespace Store

/-- Stores that differ at most in their file and their subscribers. -/
structure Agree (s t : Store) : Prop where
  catalog : s.catalog = t.catalog
  selected : s.selected = t.selected

theorem Agree.select {s t : Store} (h : s.Agree t) (code : String) :
    (s.select code).1.Agree (t.select code).1 :=
  ⟨h.catalog, congrArg (selection · code) h.catalog⟩

theorem Agree.replace {s t : Store} (h : s.Agree t) (c : Catalog) :
    (s.replace c).1.Agree (t.replace c).1 :=
  ⟨rfl, congrArg (selection c) h.selected⟩

theorem Agree.publish {s t : Store} (h : s.Agree t) (c : Catalog) (warnings : List Warning) :
    (update.publish s c warnings).1 = (update.publish t c warnings).1 ∧
      (update.publish s c warnings).2.1.Agree (update.publish t c warnings).2.1 := by
  rw [update.publish, update.publish, h.catalog]
  split
  · exact ⟨rfl, h⟩
  · exact ⟨rfl, h.replace c⟩

theorem Agree.update {s t : Store} (h : s.Agree t) (text : String) :
    (s.update text).1 = (t.update text).1 ∧ (s.update text).2.1.Agree (t.update text).2.1 := by
  rw [Store.update, Store.update, h.catalog]
  cases Catalog.ofText text with
  | error fault => exact ⟨rfl, h⟩
  | ok result =>
    obtain ⟨c, warnings⟩ := result
    cases t.catalog.repositoryId with
    | none => exact h.publish c warnings
    | some expected =>
      by_cases hsame : c.repositoryId = some expected
      · simp only [if_pos hsame]
        exact h.publish c warnings
      · simp only [if_neg hsame]
        exact ⟨trivial, h⟩

theorem Agree.reload {s t : Store} (h : s.Agree t) (hsource : s.source = t.source)
    (files : String → Except FileFault String) :
    (s.reload files).1 = (t.reload files).1 ∧ (s.reload files).2.1.Agree (t.reload files).2.1 := by
  rw [Store.reload, Store.reload, hsource]
  cases t.source with
  | none => exact ⟨rfl, h⟩
  | some path =>
    simp only
    cases Catalog.ofFile path (files path) with
    | error fault => exact ⟨rfl, h⟩
    | ok result => exact ⟨rfl, h.replace result.1⟩

/-- Stores that agree answer alike and go on agreeing. -/
theorem Agree.step {s t : Store} (h : s.Agree t) {r : Request}
    (hsource : r.readsFile = true → s.source = t.source) :
    (s.step r).answer = (t.step r).answer ∧ (s.step r).store.Agree (t.step r).store := by
  cases r with
  | select code => exact ⟨congrArg Answer.selected (h.select code).selected, h.select code⟩
  | setSelected code => exact ⟨congrArg Answer.selected (h.select code).selected, h.select code⟩
  | replace c => exact ⟨rfl, h.replace c⟩
  | update text =>
    obtain ⟨hanswer, hafter⟩ := h.update text
    exact ⟨congrArg Answer.updated hanswer, hafter⟩
  | reload files =>
    obtain ⟨hanswer, hafter⟩ := h.reload (hsource rfl) files
    exact ⟨congrArg Answer.reloaded hanswer, hafter⟩
  | subscribe name => exact ⟨rfl, h.catalog, h.selected⟩
  | resolve key b =>
    refine ⟨congrArg Answer.resolved ?_, h⟩
    rw [resolve, resolve, resolveIn, resolveIn, h.catalog, h.selected]
  | resolveIn locale key b =>
    refine ⟨congrArg Answer.resolved ?_, h⟩
    rw [resolveIn, resolveIn, h.catalog]
  | listing =>
    refine ⟨congrArg Answer.listed ?_, h⟩
    rw [listing, listing, h.catalog, h.selected]
  | snapshot => exact ⟨congrArg Answer.held h.catalog, h⟩

theorem source_step (s : Store) (r : Request) : (s.step r).store.source = s.source := by
  have effect := s.effect_step r
  generalize s.step r = reply at effect
  cases effect with
  | still | selects | subscribes | publishes => rfl

theorem Agree.answers {s t : Store} (h : s.Agree t) {rs : List Request}
    (hsource : ∀ r ∈ rs, r.readsFile = true → s.source = t.source) :
    s.answers rs = t.answers rs := by
  induction rs generalizing s t with
  | nil => rfl
  | cons r rs ih =>
    obtain ⟨hanswer, hafter⟩ := h.step (hsource r List.mem_cons_self)
    -- No request changes the file of a store, so what is known of the two files stays known.
    have hrest : (s.step r).store.answers rs = (t.step r).store.answers rs := by
      refine ih hafter fun r' hr' hreads => ?_
      rw [source_step, source_step]
      exact hsource r' (List.mem_cons_of_mem _ hr') hreads
    rw [Store.answers, Store.answers, hanswer, hrest]

/-- A store that has a catalog published and a store built over the catalog, for the code that was
selected, have the same catalog and selected code. They answer alike ever after, if the file is not
read again, and even then if the new store remembers the same file. -/
theorem swap_eq_restart {s : Store} {r : Request} {c : Catalog} (h : s.Publishes r c) :
    (s.step r).store.catalog = (ofCatalog c (some s.selected)).catalog ∧
    (s.step r).store.selected = (ofCatalog c (some s.selected)).selected ∧
    (∀ rs : List Request, (∀ r' ∈ rs, r'.readsFile = false) →
      (s.step r).store.answers rs = (ofCatalog c (some s.selected)).answers rs) ∧
    ∀ rs : List Request,
      (s.step r).store.answers rs =
        { ofCatalog c (some s.selected) with source := s.source }.answers rs := by
  obtain ⟨hstore, -⟩ := h.step
  have hagree : (s.step r).store.Agree (ofCatalog c (some s.selected)) := by
    rw [hstore]
    exact ⟨rfl, rfl⟩
  refine ⟨hagree.catalog, hagree.selected, fun rs hrs => ?_, fun rs => ?_⟩
  · refine hagree.answers fun r' hr' hreads => ?_
    rw [hrs r' hr'] at hreads
    cases hreads
  · have hsame : (s.step r).store.Agree { ofCatalog c (some s.selected) with source := s.source } :=
      ⟨hagree.catalog, hagree.selected⟩
    exact hsame.answers fun _ _ _ => s.source_step r

/-- French is selected when a document without it is pushed. -/
theorem swap_eq_restart_english :
    ∃ start warnings c, ofFile "a.json" (.ok bilingualText) (some "FR") = .ok (start, warnings) ∧
      start.Publishes (.update englishText) c ∧
      (start.step (.update englishText)).store.answers
          [.listing, .update englishText, .select "EN", .resolve "k" .empty] =
        (ofCatalog c (some start.selected)).answers
          [.listing, .update englishText, .select "EN", .resolve "k" .empty] := by
  have hcarried : ((ofFile "a.json" (.ok bilingualText) (some "FR")).toOption.map fun result =>
      (result.1.step (.update englishText)).answer.refuses) = some false := by decide +kernel
  cases h : ofFile "a.json" (.ok bilingualText) (some "FR") with
  | error fault =>
    rw [h] at hcarried
    cases hcarried
  | ok result =>
    obtain ⟨start, warnings⟩ := result
    rw [h] at hcarried
    have hcarried : (start.step (.update englishText)).answer.refuses = false :=
      Option.some.inj hcarried
    rcases start.refuses_or_publishes (r := .update englishText) rfl with
      ⟨hrefuses, -⟩ | ⟨-, c, hc⟩
    · rw [hcarried] at hrefuses
      cases hrefuses
    · exact ⟨start, warnings, c, rfl, hc, (swap_eq_restart hc).2.2.1 _ (by decide)⟩

end Store

end Phrasebook
