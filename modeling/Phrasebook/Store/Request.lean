import Phrasebook.Store

namespace Phrasebook

/-- The declared locales and the selected code. -/
structure LocaleListing where
  codes : List String
  locales : List Locale
  selected : String
deriving DecidableEq, Repr

/-- What can be asked of a store. -/
inductive Request where
  | select (code : String)
  /-- The same by the name that hosts call it. -/
  | setSelected (code : String)
  | replace (c : Catalog)
  | update (text : String)
  /-- `files` tells what is in a file now. -/
  | reload (files : String → Except FileFault String)
  | subscribe (name : String)
  | resolve (key : String) (b : Bindings)
  | resolveIn (locale key : String) (b : Bindings)
  | listing
  | snapshot

inductive Answer where
  | done
  | selected (code : String)
  | updated (result : Except LoadFault UpdateResult)
  | reloaded (result : Except LoadFault (List Warning))
  | resolved (result : Except ResolveFault Catalog.Resolution)
  | listed (listing : LocaleListing)
  | held (c : Catalog)

/-- What comes of a request: the answer, the store after it, and what it had delivered. -/
structure Reply where
  answer : Answer
  store : Store
  told : List Delivery := []

namespace Store

def listing (s : Store) : LocaleListing where
  codes := s.catalog.roster.codes
  locales := s.catalog.roster.locales
  selected := s.selected

def step (s : Store) : Request → Reply
  | .select code | .setSelected code =>
    let (after, told) := s.select code
    { answer := .selected after.selected, store := after, told := told }
  | .replace c =>
    let (after, told) := s.replace c
    { answer := .done, store := after, told := told }
  | .update text =>
    let (result, after, told) := s.update text
    { answer := .updated result, store := after, told := told }
  | .reload files =>
    let (result, after, told) := s.reload files
    { answer := .reloaded result, store := after, told := told }
  | .subscribe name => { answer := .done, store := s.subscribe name }
  | .resolve key b => { answer := .resolved (s.resolve key b), store := s }
  | .resolveIn locale key b => { answer := .resolved (s.resolveIn locale key b), store := s }
  | .listing => { answer := .listed s.listing, store := s }
  | .snapshot => { answer := .held s.catalog, store := s }

theorem step_update (s : Store) (text : String) :
    s.step (.update text) =
      ⟨.updated (s.update text).1, (s.update text).2.1, (s.update text).2.2⟩ := rfl

theorem step_reload (s : Store) (files : String → Except FileFault String) :
    s.step (.reload files) =
      ⟨.reloaded (s.reload files).1, (s.reload files).2.1, (s.reload files).2.2⟩ := rfl

/-- The store after a session. Subscribers listen only: no request is made before the one before it
is done and told. -/
def run (s : Store) : List Request → Store
  | [] => s
  | r :: rs => (s.step r).store.run rs

/-- The answers in a session. -/
def answers (s : Store) : List Request → List Answer
  | [] => []
  | r :: rs => (s.step r).answer :: (s.step r).store.answers rs

/-- The deliveries of a session. -/
def deliveries (s : Store) : List Request → List Delivery
  | [] => []
  | r :: rs => (s.step r).told ++ (s.step r).store.deliveries rs

theorem run_append (s : Store) (rs rs' : List Request) : s.run (rs ++ rs') = (s.run rs).run rs' := by
  induction rs generalizing s with
  | nil => rfl
  | cons r rs ih => exact ih (s.step r).store

theorem deliveries_append (s : Store) (rs rs' : List Request) :
    s.deliveries (rs ++ rs') = s.deliveries rs ++ (s.run rs).deliveries rs' := by
  induction rs generalizing s with
  | nil => rfl
  | cons r rs ih =>
    rw [List.cons_append, deliveries, ih, deliveries, List.append_assoc]
    rfl

theorem run_concat (s : Store) (rs : List Request) (r : Request) :
    s.run (rs ++ [r]) = ((s.run rs).step r).store :=
  s.run_append rs [r]

theorem deliveries_concat (s : Store) (rs : List Request) (r : Request) :
    s.deliveries (rs ++ [r]) = s.deliveries rs ++ ((s.run rs).step r).told := by
  rw [deliveries_append, deliveries, deliveries, List.append_nil]

end Store

end Phrasebook
