import Phrasebook.Store.Request

namespace Phrasebook

/-- The answer says that the request was not carried out. -/
def Answer.refuses : Answer → Bool
  | .updated (.ok (.replaced _)) | .reloaded (.ok _) | .resolved (.ok _) => false
  | .updated _ | .reloaded _ | .resolved _ => true
  | .done | .selected _ | .listed _ | .held _ => false

/-- The request offers a catalog for publication. -/
def Request.offersCatalog : Request → Bool
  | .replace _ | .update _ | .reload _ => true
  | _ => false

namespace Store

/-- The ways in which a pushed document is taken. -/
inductive Taken (s : Store) (text : String) :
    Except LoadFault UpdateResult × Store × List Delivery → Prop
  | malformed {fault : LoadFault} (read : Catalog.ofText text = .error fault) :
    Taken s text (.error fault, s, [])
  | foreign {c : Catalog} {warnings : List Warning} {expected : String}
    (read : Catalog.ofText text = .ok (c, warnings))
    (own : s.catalog.repositoryId = some expected) (other : c.repositoryId ≠ some expected) :
    Taken s text (.ok (.foreign expected c.repositoryId), s, [])
  | unchanged {c : Catalog} {warnings : List Warning} {version : String}
    (read : Catalog.ofText text = .ok (c, warnings))
    (home : ∀ id, s.catalog.repositoryId = some id → c.repositoryId = some id)
    (own : s.catalog.version = some version) (same : c.version = some version) :
    Taken s text (.ok .unchanged, s, [])
  | replaced {c : Catalog} {warnings : List Warning}
    (read : Catalog.ofText text = .ok (c, warnings))
    (home : ∀ id, s.catalog.repositoryId = some id → c.repositoryId = some id)
    (other : ∀ version, s.catalog.version = some version → c.version ≠ some version) :
    Taken s text (.ok (.replaced warnings), s.replace c)

theorem taken_publish {s : Store} {text : String} {c : Catalog} {warnings : List Warning}
    (read : Catalog.ofText text = .ok (c, warnings))
    (home : ∀ id, s.catalog.repositoryId = some id → c.repositoryId = some id) :
    Taken s text (update.publish s c warnings) := by
  rw [update.publish]
  split
  · next h =>
    rw [Bool.and_eq_true, beq_iff_eq] at h
    obtain ⟨version, hversion⟩ := Option.isSome_iff_exists.mp h.1
    exact .unchanged read home hversion (h.2 ▸ hversion)
  · next h =>
    refine .replaced read home fun version hversion hsame => h ?_
    rw [hversion, hsame]
    exact Bool.and_eq_true_iff.mpr ⟨rfl, beq_self_eq_true _⟩

theorem taken_update (s : Store) (text : String) : Taken s text (s.update text) := by
  rw [update]
  cases read : Catalog.ofText text with
  | error fault => exact .malformed read
  | ok result =>
    obtain ⟨c, warnings⟩ := result
    cases own : s.catalog.repositoryId with
    | none =>
      have home : ∀ id, s.catalog.repositoryId = some id → c.repositoryId = some id := by
        intro id hid
        rw [own] at hid
        cases hid
      exact taken_publish read home
    | some expected =>
      by_cases hsame : c.repositoryId = some expected
      · have home : ∀ id, s.catalog.repositoryId = some id → c.repositoryId = some id := by
          intro id hid
          rw [hsame, ← own, hid]
        simp only [if_pos hsame]
        exact taken_publish read home
      · simp only [if_neg hsame]
        exact .foreign read own hsame

/-- The ways in which the store's file is read again. -/
inductive Reread (s : Store) (files : String → Except FileFault String) :
    Except LoadFault (List Warning) × Store × List Delivery → Prop
  | noSource (source : s.source = none) : Reread s files (.error .noSource, s, [])
  | unreadable {path : String} {fault : LoadFault} (source : s.source = some path)
    (read : Catalog.ofFile path (files path) = .error fault) : Reread s files (.error fault, s, [])
  | replaced {path : String} {c : Catalog} {warnings : List Warning} (source : s.source = some path)
    (read : Catalog.ofFile path (files path) = .ok (c, warnings)) :
    Reread s files (.ok warnings, s.replace c)

theorem reread_reload (s : Store) (files : String → Except FileFault String) :
    Reread s files (s.reload files) := by
  rw [reload]
  cases source : s.source with
  | none => exact .noSource source
  | some path =>
    simp only
    cases read : Catalog.ofFile path (files path) with
    | error fault => exact .unreadable source read
    | ok result => exact .replaced source read

/-- The catalog that a request publishes: the one handed over, the one of a pushed document that is
taken, or the one in the store's file. -/
inductive Publishes (s : Store) : Request → Catalog → Prop
  | replace (c : Catalog) : Publishes s (.replace c) c
  | update {text : String} {c : Catalog} {warnings : List Warning}
    (read : Catalog.ofText text = .ok (c, warnings))
    (answer : (s.update text).1 = .ok (.replaced warnings)) : Publishes s (.update text) c
  | reload {files : String → Except FileFault String} {path : String} {c : Catalog}
    {warnings : List Warning} (source : s.source = some path)
    (read : Catalog.ofFile path (files path) = .ok (c, warnings)) : Publishes s (.reload files) c

/-- Publishing is replacing, whichever request does it. -/
theorem Publishes.step {s : Store} {r : Request} {c : Catalog} (h : s.Publishes r c) :
    (s.step r).store = { s with catalog := c, selected := selection c s.selected } ∧
      (s.step r).told = s.notify (.replaced c.version) := by
  cases h with
  | replace => exact ⟨rfl, rfl⟩
  | @update text _ _ read answer =>
    have taken := s.taken_update text
    rw [step_update]
    generalize s.update text = reply at taken answer
    -- The answer leaves one way only, and its catalog is the one that was read.
    cases taken with
    | malformed | foreign | unchanged => simp at answer
    | replaced read' =>
      obtain ⟨rfl, -⟩ := Prod.mk.inj (Except.ok.inj (read.symm.trans read'))
      exact ⟨rfl, rfl⟩
  | @reload files _ _ _ source read =>
    have reread := s.reread_reload files
    rw [step_reload]
    generalize s.reload files = reply at reread
    cases reread with
    | noSource source' => simp [source] at source'
    | unreadable source' read' =>
      obtain rfl := Option.some.inj (source.symm.trans source')
      simp [read] at read'
    | replaced source' read' =>
      obtain rfl := Option.some.inj (source.symm.trans source')
      obtain ⟨rfl, -⟩ := Prod.mk.inj (Except.ok.inj (read.symm.trans read'))
      exact ⟨rfl, rfl⟩

/-- A request that offers a catalog has it published or answers that it does not. -/
theorem refuses_or_publishes (s : Store) {r : Request} (h : r.offersCatalog = true) :
    ((s.step r).answer.refuses = true ∧ (s.step r).store = s ∧ (s.step r).told = []) ∨
      ((s.step r).answer.refuses = false ∧ ∃ c, s.Publishes r c) := by
  cases r with
  | replace c => exact .inr ⟨rfl, c, .replace c⟩
  | update text =>
    have taken := s.taken_update text
    rw [step_update]
    generalize hreply : s.update text = reply at taken
    cases taken with
    | malformed | foreign | unchanged => exact .inl ⟨rfl, rfl, rfl⟩
    | replaced read => exact .inr ⟨rfl, _, .update read (congrArg Prod.fst hreply)⟩
  | reload files =>
    have reread := s.reread_reload files
    rw [step_reload]
    generalize s.reload files = reply at reread
    cases reread with
    | noSource | unreadable => exact .inl ⟨rfl, rfl, rfl⟩
    | replaced source read => exact .inr ⟨rfl, _, .reload source read⟩
  | select | setSelected | subscribe | resolve | resolveIn | listing | snapshot =>
    simp [Request.offersCatalog] at h

/-- The ways in which a request leaves the store and what it has delivered. -/
inductive Effect (s : Store) (r : Request) : Reply → Prop
  | still (answer : Answer) : Effect s r ⟨answer, s, []⟩
  | selects (code : String) :
    Effect s r ⟨.selected (selection s.catalog code),
      { s with selected := selection s.catalog code },
      s.notify (.selected (selection s.catalog code))⟩
  | subscribes (name : String) : Effect s r ⟨.done, s.subscribe name, []⟩
  | publishes {c : Catalog} {answer : Answer} (h : s.Publishes r c)
    (carried : answer.refuses = false) :
    Effect s r ⟨answer, { s with catalog := c, selected := selection c s.selected },
      s.notify (.replaced c.version)⟩

theorem effect_of_offersCatalog (s : Store) {r : Request} (h : r.offersCatalog = true) :
    Effect s r (s.step r) := by
  rcases s.refuses_or_publishes h with ⟨-, hstore, htold⟩ | ⟨carried, c, hc⟩
  · generalize s.step r = reply at hstore htold
    obtain ⟨answer, after, told⟩ := reply
    obtain rfl : after = s := hstore
    obtain rfl : told = [] := htold
    exact .still answer
  · obtain ⟨hstore, htold⟩ := hc.step
    generalize s.step r = reply at carried hstore htold
    obtain ⟨answer, after, told⟩ := reply
    obtain rfl : after = { s with catalog := c, selected := selection c s.selected } := hstore
    obtain rfl : told = s.notify (.replaced c.version) := htold
    exact .publishes hc carried

theorem effect_step (s : Store) (r : Request) : Effect s r (s.step r) := by
  cases r with
  | select code => exact .selects code
  | setSelected code => exact .selects code
  | subscribe name => exact .subscribes name
  | resolve | resolveIn | listing | snapshot => exact .still _
  | replace | update | reload => exact s.effect_of_offersCatalog rfl

end Store

end Phrasebook
