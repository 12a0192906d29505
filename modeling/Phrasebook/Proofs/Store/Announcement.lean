import Phrasebook.Proofs.Store.Soundness

namespace Phrasebook

/-- The events that a subscriber got, in order. -/
def heard (name : String) (told : List Delivery) : List Event :=
  (told.filter fun d => d.subscriber == name).map Delivery.event

def Event.code? : Event → Option String
  | .selected code => some code
  | .replaced _ => none

def Event.version? : Event → Option (Option String)
  | .replaced version => some version
  | .selected _ => none

/-- The last thing of a kind that a subscriber heard. -/
def lastHeard {α : Type} (name : String) (kind : Event → Option α) (told : List Delivery) :
    Option α :=
  ((heard name told).filterMap kind).getLast?

section

variable {α : Type} {name : String} {kind : Event → Option α}

theorem lastHeard_append (told told' : List Delivery) :
    lastHeard name kind (told ++ told') =
      (lastHeard name kind told').or (lastHeard name kind told) := by
  rw [lastHeard, heard, List.filter_append, List.map_append, List.filterMap_append,
    List.getLast?_append]
  rfl

theorem lastHeard_of_not_told {told : List Delivery} (h : ∀ d ∈ told, d.subscriber ≠ name) :
    lastHeard name kind told = none := by
  have hnone : told.filter (fun d => d.subscriber == name) = [] :=
    List.filter_eq_nil_iff.mpr fun d hd heq => h d hd (beq_iff_eq.mp heq)
  rw [lastHeard, heard, hnone]
  rfl

/-- A subscriber hears of a notice as often as it is registered. -/
theorem heard_notify (s : Store) (name : String) (e : Event) :
    heard name (s.notify e) = List.replicate (s.subscribers.count name) e := by
  rw [heard, Store.notify]
  induction s.subscribers with
  | nil => rfl
  | cons n names ih =>
    rw [List.map_cons, List.filter_cons, List.count_cons]
    by_cases hn : n == name
    · rw [if_pos hn, if_pos hn, List.map_cons, ih, List.replicate_succ]
    · rw [if_neg hn, if_neg hn, ih]
      rfl

theorem lastHeard_notify {s : Store} (h : name ∈ s.subscribers) (e : Event) :
    lastHeard name kind (s.notify e) = kind e := by
  obtain ⟨n, hn⟩ := Nat.exists_eq_succ_of_ne_zero (Nat.ne_of_gt (List.count_pos_iff.mpr h))
  rw [lastHeard, heard_notify, hn, List.filterMap_replicate]
  cases kind e with
  | none => rfl
  | some a => exact (List.getLast?_replicate ..).trans (if_neg (Nat.succ_ne_zero n))

end

namespace Store

theorem mem_notify {s : Store} {e : Event} {d : Delivery} :
    d ∈ s.notify e ↔ d.subscriber ∈ s.subscribers ∧ d.event = e := by
  obtain ⟨name, event⟩ := d
  simp only [notify, List.mem_map, Delivery.mk.injEq]
  constructor
  · rintro ⟨n, hn, rfl, rfl⟩
    exact ⟨hn, rfl⟩
  · rintro ⟨hn, rfl⟩
    exact ⟨name, hn, rfl, rfl⟩

theorem subscribers_step (s : Store) (r : Request) :
    s.subscribers ⊆ (s.step r).store.subscribers := by
  have effect := s.effect_step r
  generalize s.step r = reply at effect
  cases effect with
  | still | selects | publishes => exact fun _ h => h
  | subscribes name => exact List.subset_append_left _ _

theorem subscriber_of_told {s : Store} {r : Request} {d : Delivery} (h : d ∈ (s.step r).told) :
    d.subscriber ∈ s.subscribers := by
  have effect := s.effect_step r
  generalize s.step r = reply at effect h
  cases effect with
  | still | subscribes => cases h
  | selects | publishes => exact (mem_notify.mp h).1

theorem subscribers_run (s : Store) (rs : List Request) :
    s.subscribers ⊆ (s.run rs).subscribers := by
  induction rs using List.reverseRecOn with
  | nil => exact fun _ h => h
  | append_singleton rs r ih =>
    rw [run_concat]
    exact fun _ hn => subscribers_step _ r (ih hn)

theorem subscriber_of_delivered {s : Store} {rs : List Request} {d : Delivery}
    (h : d ∈ s.deliveries rs) : d.subscriber ∈ (s.run rs).subscribers := by
  induction rs using List.reverseRecOn with
  | nil => cases h
  | append_singleton rs r ih =>
    rw [deliveries_concat] at h
    rw [run_concat]
    rcases List.mem_append.mp h with h | h
    · exact subscribers_step _ r (ih h)
    · exact subscribers_step _ r (subscriber_of_told h)

theorem told_of_refuses {s : Store} {r : Request} (h : (s.step r).answer.refuses = true) :
    (s.step r).store = s ∧ (s.step r).told = [] := by
  have effect := s.effect_step r
  generalize s.step r = reply at effect h
  cases effect with
  | still => exact ⟨rfl, rfl⟩
  | selects | subscribes => cases h
  | publishes _ carried => rw [carried] at h; cases h

theorem told_of_publishes {s : Store} {r : Request} {c : Catalog} (h : s.Publishes r c) :
    (s.step r).store.catalog = c ∧
      (s.step r).told =
        s.subscribers.map fun name => ⟨name, .replaced (s.step r).store.catalog.version⟩ := by
  obtain ⟨hstore, htold⟩ := h.step
  rw [hstore, htold]
  exact ⟨rfl, rfl⟩

theorem lastHeard_eq_none {α : Type} {name : String} {kind : Event → Option α} {s : Store}
    {rs : List Request} (h : name ∉ (s.run rs).subscribers) :
    lastHeard name kind (s.deliveries rs) = none := by
  refine lastHeard_of_not_told fun d hd heq => h ?_
  rw [← heq]
  exact subscriber_of_delivered hd

/-- The version that a subscriber last heard of is the published one. -/
theorem version_of_lastHeard {s : Store} {name : String} {rs : List Request}
    {version : Option String}
    (h : lastHeard name Event.version? (s.deliveries rs) = some version) :
    version = (s.run rs).catalog.version := by
  induction rs using List.reverseRecOn with
  | nil => cases h
  | append_singleton rs r ih =>
    rw [deliveries_concat, lastHeard_append] at h
    rw [run_concat]
    -- Whoever heard of a version is a subscriber still, so no later one passes it by.
    have hname : name ∈ (s.run rs).subscribers := by
      by_contra hname
      have htold : lastHeard name Event.version? ((s.run rs).step r).told = none :=
        lastHeard_of_not_told fun d hd heq => hname (heq ▸ subscriber_of_told hd)
      rw [htold, lastHeard_eq_none hname] at h
      cases h
    have effect := (s.run rs).effect_step r
    generalize (s.run rs).step r = reply at effect h
    cases effect with
    | still | subscribes => exact ih h
    | selects code =>
      rw [lastHeard_notify hname] at h
      exact ih h
    | publishes =>
      rw [lastHeard_notify hname] at h
      exact (Option.some.inj h).symm

/-- A request that is refused leaves the store as it was and is told to nobody; a request that
offers a catalog is refused or has it published; a published catalog is told to each subscriber
once, in order of registration and with its version. So the version that a subscriber last heard of
is the published one. -/
theorem refused_or_told_once (s : Store) :
    (∀ r, (s.step r).answer.refuses = true → (s.step r).store = s ∧ (s.step r).told = []) ∧
    (∀ r, r.offersCatalog = true → (s.step r).answer.refuses = true ∨ ∃ c, s.Publishes r c) ∧
    (∀ r c, s.Publishes r c → (s.step r).store.catalog = c ∧
      (s.step r).told =
        s.subscribers.map fun name => ⟨name, .replaced (s.step r).store.catalog.version⟩) ∧
    ∀ rs name version, lastHeard name Event.version? (s.deliveries rs) = some version →
      version = (s.run rs).catalog.version := by
  refine ⟨fun r h => told_of_refuses h, fun r h => ?_, fun r c h => told_of_publishes h,
    fun rs name version h => version_of_lastHeard h⟩
  rcases s.refuses_or_publishes h with ⟨hrefuses, -⟩ | ⟨-, hpublishes⟩
  · exact .inl hrefuses
  · exact .inr hpublishes

/-- English, the default, and French. -/
def bilingual : Catalog where
  roster :=
    { locales := [⟨"EN", "English", none, true⟩, ⟨"FR", "French", some "EN", false⟩]
      home := ⟨"EN", "English", none, true⟩
      distinct := by decide
      onlyDefault := by decide }

def english : Catalog where
  roster :=
    { locales := [⟨"EN", "English", none, true⟩]
      home := ⟨"EN", "English", none, true⟩
      distinct := by decide
      onlyDefault := by decide }
  version := some "2"

/-- A store with French selected and a subscriber. -/
def reader : Store := (ofCatalog bilingual (some "FR")).subscribe "a"

theorem refused_or_told_once_reader :
    ((reader.step (.update "no")).answer.refuses = true ∧
      (reader.step (.update "no")).store = reader ∧ (reader.step (.update "no")).told = []) ∧
    ((Request.replace english).offersCatalog = true ∧
      ((reader.step (.replace english)).answer.refuses = true ∨
        ∃ c, reader.Publishes (.replace english) c)) ∧
    (reader.Publishes (.replace english) english ∧
      (reader.step (.replace english)).told = [⟨"a", .replaced (some "2")⟩]) ∧
    lastHeard "a" Event.version? (reader.deliveries [.replace english, .select "EN"]) =
      some (some "2") ∧
    some "2" = (reader.run [.replace english, .select "EN"]).catalog.version := by
  obtain ⟨refused, offered, published, known⟩ := refused_or_told_once reader
  have hrefuses : (reader.step (.update "no")).answer.refuses = true := by decide
  have hheard : lastHeard "a" Event.version? (reader.deliveries [.replace english, .select "EN"]) =
      some (some "2") := by decide
  exact ⟨⟨hrefuses, refused _ hrefuses⟩, ⟨rfl, offered _ rfl⟩,
    ⟨.replace _, (published _ _ (.replace _)).2⟩, hheard, known _ _ _ hheard⟩

/-- The request publishes a catalog that lacks the selected locale. -/
def Drops (s : Store) (r : Request) : Prop :=
  ∃ c, s.Publishes r c ∧ c.roster.declares s.selected = false

/-- The code that a subscriber takes for the selected one which starts from the selected code and
follows the announcements of a session. -/
def believed (s : Store) (name : String) (rs : List Request) : String :=
  (lastHeard name Event.code? (s.deliveries rs)).getD s.selected

theorem believed_concat (s : Store) (name : String) (rs : List Request) (r : Request) :
    s.believed name (rs ++ [r]) =
      (lastHeard name Event.code? ((s.run rs).step r).told).getD (s.believed name rs) := by
  rw [believed, deliveries_concat, lastHeard_append, believed]
  cases lastHeard name Event.code? ((s.run rs).step r).told with
  | none => rfl
  | some code => rfl

/-- A dropped selection moves, and no subscriber is told a code. -/
theorem Drops.moved {s : Store} {r : Request} (h : s.Drops r) :
    (s.step r).store.selected ≠ s.selected ∧
      (s.step r).told = s.notify (.replaced (s.step r).store.catalog.version) := by
  obtain ⟨c, hc, hgone⟩ := h
  obtain ⟨hstore, htold⟩ := hc.step
  rw [hstore, htold]
  refine ⟨fun heq : selection c s.selected = s.selected => ?_, rfl⟩
  have hdeclared := declares_selection c s.selected
  rw [heq, hgone] at hdeclared
  cases hdeclared

theorem announced_of_not_drops {s : Store} {name : String} (hname : name ∈ s.subscribers)
    {r : Request} (h : ¬ s.Drops r) :
    (s.step r).store.selected = s.selected ∧ lastHeard name Event.code? (s.step r).told = none ∨
      ⟨name, .selected (s.step r).store.selected⟩ ∈ (s.step r).told ∧
        lastHeard name Event.code? (s.step r).told = some (s.step r).store.selected := by
  have effect := s.effect_step r
  generalize s.step r = reply at effect
  cases effect with
  | still | subscribes => exact .inl ⟨rfl, rfl⟩
  | selects code => exact .inr ⟨mem_notify.mpr ⟨hname, rfl⟩, lastHeard_notify hname _⟩
  | @publishes c _ hc =>
    have hdeclared : c.roster.declares s.selected = true := by
      by_contra hgone
      exact h ⟨c, hc, Bool.not_eq_true _ ▸ hgone⟩
    exact .inl ⟨if_pos hdeclared, lastHeard_notify hname _⟩

theorem announced_iff_not_drops {s : Store} {name : String} (hname : name ∈ s.subscribers)
    (r : Request) :
    ((s.step r).store.selected ≠ s.selected →
      ⟨name, .selected (s.step r).store.selected⟩ ∈ (s.step r).told) ↔ ¬ s.Drops r := by
  constructor
  · intro hannounced hdrops
    obtain ⟨hmoved, htold⟩ := hdrops.moved
    have hmem := hannounced hmoved
    rw [htold] at hmem
    have hevent := (mem_notify.mp hmem).2
    cases hevent
  · intro hkept hmoved
    rcases announced_of_not_drops hname hkept with ⟨hsame, -⟩ | ⟨htold, -⟩
    · exact absurd hsame hmoved
    · exact htold

theorem believed_of_not_drops {s : Store} {name : String} (hname : name ∈ s.subscribers)
    {rs : List Request} (h : ∀ before r, before ++ [r] <+: rs → ¬ (s.run before).Drops r) :
    s.believed name rs = (s.run rs).selected := by
  induction rs using List.reverseRecOn with
  | nil => rfl
  | append_singleton rs r ih =>
    have hbelieved := ih fun before r' hpart => h before r' (hpart.trans (List.prefix_append ..))
    rw [believed_concat, run_concat, hbelieved]
    rcases announced_of_not_drops (subscribers_run s rs hname) (h rs r (List.prefix_refl _)) with
      ⟨hsame, hnone⟩ | ⟨-, hlast⟩
    · rw [hnone, hsame]
      rfl
    · rw [hlast]
      rfl

/-- Moves of the selection are announced unless a published catalog lacks the selected locale, and
those are not. A subscriber that follows the announcements knows the selected code at every moment
of a session exactly if no request of it drops the selection. -/
theorem selection_announced_iff {s : Store} {name : String} (hname : name ∈ s.subscribers) :
    (∀ r, ((s.step r).store.selected ≠ s.selected →
      ⟨name, .selected (s.step r).store.selected⟩ ∈ (s.step r).told) ↔ ¬ s.Drops r) ∧
    ∀ rs, (∀ before, before <+: rs → s.believed name before = (s.run before).selected) ↔
      ∀ before r, before ++ [r] <+: rs → ¬ (s.run before).Drops r := by
  refine ⟨announced_iff_not_drops hname, fun rs => ⟨?_, ?_⟩⟩
  -- Right before a drop the code is known, and nothing is heard of the one after it.
  · intro h before r hpart hdrops
    have hbefore := h before ((List.prefix_append ..).trans hpart)
    have hafter := h (before ++ [r]) hpart
    obtain ⟨hmoved, htold⟩ := hdrops.moved
    rw [believed_concat, run_concat, htold, hbefore,
      lastHeard_notify (subscribers_run s before hname)] at hafter
    exact hmoved hafter.symm
  · intro h before hpart
    exact believed_of_not_drops hname fun earlier r hearlier =>
      h earlier r (hearlier.trans hpart)

theorem selection_announced_reader :
    "a" ∈ reader.subscribers ∧
    (¬ reader.Drops (.select "EN") ∧
      ⟨"a", .selected "EN"⟩ ∈ (reader.step (.select "EN")).told) ∧
    (reader.Drops (.replace english) ∧
      ¬ ∀ before, before <+: [.select "FR", .replace english] →
        reader.believed "a" before = (reader.run before).selected) := by
  have hsub : "a" ∈ reader.subscribers := by decide
  have hkept : ¬ reader.Drops (.select "EN") := by
    rintro ⟨c, hc, -⟩
    cases hc
  have hdrops : reader.Drops (.replace english) := ⟨english, .replace _, by decide⟩
  obtain ⟨announced, known⟩ := selection_announced_iff hsub
  refine ⟨hsub, ⟨hkept, (announced (.select "EN")).mpr hkept (by decide)⟩, hdrops, fun h => ?_⟩
  exact (known _).mp h [.select "FR"] (.replace english) (List.prefix_refl _) hdrops

/-- French is selected, and a catalog without French is published. -/
theorem not_announced_of_dropped :
    ¬ ∀ (source : Option String) (start : Store), Built source start →
      ∀ (rs : List Request) (name : String), name ∈ (start.run rs).subscribers →
      ∀ r : Request, ((start.run rs).step r).store.selected ≠ (start.run rs).selected →
        ⟨name, .selected ((start.run rs).step r).store.selected⟩ ∈ ((start.run rs).step r).told := by
  intro h
  have htold := h none (ofCatalog bilingual (some "FR")) (.ofCatalog _ _) [.subscribe "a"] "a"
    (by decide) (.replace english) (by decide)
  revert htold
  decide

end Store

end Phrasebook
