import Phrasebook.Proofs.Store.Announcement

namespace Phrasebook

/-- The answer says that a pushed document was published. -/
def Answer.replaces : Answer → Bool
  | .updated (.ok (.replaced _)) => true
  | _ => false

/-- The request publishes nothing but what is pushed. -/
def Request.onChannel : Request → Bool
  | .replace _ | .reload _ => false
  | _ => true

/-- What the request pushes, if it can be read at all, is of the version. -/
def Request.carries (version : String) : Request → Bool
  | .update text =>
    match Catalog.ofText text with
    | .ok (c, _) => c.version == some version
    | .error _ => true
  | _ => true

theorem Request.version_of_carries {version text : String} {c : Catalog}
    {warnings : List Warning} (h : (Request.update text).carries version = true)
    (read : Catalog.ofText text = .ok (c, warnings)) : c.version = some version := by
  rw [carries, read] at h
  exact beq_iff_eq.mp h

namespace Store

/-- The catalog is of the published repository, if there is one. -/
def Belongs (s : Store) (c : Catalog) : Prop :=
  ∀ id, s.catalog.repositoryId = some id → c.repositoryId = some id

/-- The catalog does not carry the published version. -/
def News (s : Store) (c : Catalog) : Prop :=
  ∀ version, s.catalog.version = some version → c.version ≠ some version

/-- The text is a document that the channel publishes. -/
def Accepts (s : Store) (text : String) : Prop :=
  ∃ c warnings, Catalog.ofText text = .ok (c, warnings) ∧ s.Belongs c ∧ s.News c

/-- A document that can be read is of another repository, or published before, or published now. -/
theorem update_of_read {s : Store} {text : String} {c : Catalog} {warnings : List Warning}
    (read : Catalog.ofText text = .ok (c, warnings)) :
    (∃ expected, s.catalog.repositoryId = some expected ∧ c.repositoryId ≠ some expected ∧
      s.update text = (.ok (.foreign expected c.repositoryId), s, [])) ∨
    (¬ s.News c ∧ s.update text = (.ok .unchanged, s, [])) ∨
    (s.News c ∧ s.update text = (.ok (.replaced warnings), s.replace c)) := by
  have taken := s.taken_update text
  generalize s.update text = reply at taken
  cases taken with
  | malformed read' =>
    rw [read] at read'
    cases read'
  | foreign read' own other =>
    rw [read] at read'
    cases read'
    exact .inl ⟨_, own, other, rfl⟩
  | unchanged read' _ own same =>
    rw [read] at read'
    cases read'
    exact .inr (.inl ⟨fun news => news _ own same, rfl⟩)
  | replaced read' _ news =>
    rw [read] at read'
    cases read'
    exact .inr (.inr ⟨news, rfl⟩)

theorem step_update_of_accepts {s : Store} {text : String} {c : Catalog} {warnings : List Warning}
    (read : Catalog.ofText text = .ok (c, warnings)) (home : s.Belongs c) (news : s.News c) :
    (s.step (.update text)).answer.replaces = true ∧
      (s.step (.update text)).store.catalog = c := by
  rw [step_update]
  obtain ⟨_, own, other, -⟩ | ⟨hold, -⟩ | ⟨-, hreply⟩ := s.update_of_read read
  · exact absurd (home _ own) other
  · exact absurd news hold
  · rw [hreply]
    exact ⟨rfl, rfl⟩

theorem step_update_of_not_accepts {s : Store} {text : String} (h : ¬ s.Accepts text) :
    (s.step (.update text)).answer.replaces = false ∧ (s.step (.update text)).store = s := by
  have taken := s.taken_update text
  rw [step_update]
  generalize s.update text = reply at taken
  cases taken with
  | malformed | foreign | unchanged => exact ⟨rfl, rfl⟩
  | replaced read home other => exact absurd ⟨_, _, read, home, other⟩ h

theorem replaces_update_iff (s : Store) (text : String) :
    (s.step (.update text)).answer.replaces = true ↔ s.Accepts text := by
  constructor
  · intro hreplaces
    by_contra h
    rw [(step_update_of_not_accepts h).1] at hreplaces
    cases hreplaces
  · intro haccepts
    obtain ⟨c, warnings, read, home, news⟩ := haccepts
    exact (step_update_of_accepts read home news).1

/-- On the channel a request leaves the published catalog or is a push that is accepted. -/
theorem channel_step (s : Store) {r : Request} (h : r.onChannel = true) :
    ((s.step r).answer.replaces = false ∧ (s.step r).store.catalog = s.catalog ∧
      ∀ text, r = .update text → ¬ s.Accepts text) ∨
    ∃ text c warnings, r = .update text ∧ Catalog.ofText text = .ok (c, warnings) ∧
      s.Belongs c ∧ s.News c ∧
      (s.step r).answer.replaces = true ∧ (s.step r).store.catalog = c := by
  cases r with
  | replace | reload => cases h
  | update text =>
    by_cases haccepts : s.Accepts text
    · obtain ⟨c, warnings, read, home, news⟩ := haccepts
      obtain ⟨hanswer, hcatalog⟩ := step_update_of_accepts read home news
      exact .inr ⟨text, c, warnings, rfl, read, home, news, hanswer, hcatalog⟩
    · obtain ⟨hanswer, hstore⟩ := step_update_of_not_accepts haccepts
      refine .inl ⟨hanswer, congrArg Store.catalog hstore, ?_⟩
      intro text' htext
      cases htext
      exact haccepts
  | select | setSelected | subscribe | resolve | resolveIn | listing | snapshot =>
    refine .inl ⟨rfl, rfl, ?_⟩
    intro text htext
    cases htext

theorem replacements_of_published {s : Store} {version : String} {rs : List Request}
    (hchannel : ∀ r ∈ rs, r.onChannel = true) (hcarries : ∀ r ∈ rs, r.carries version = true)
    (hs : s.catalog.version = some version) :
    (s.answers rs).countP Answer.replaces = 0 := by
  induction rs generalizing s with
  | nil => rfl
  | cons r rs ih =>
    obtain ⟨hr, hrs⟩ := List.forall_mem_cons.mp hchannel
    obtain ⟨hversion, hversions⟩ := List.forall_mem_cons.mp hcarries
    rw [answers, List.countP_cons]
    rcases s.channel_step hr with
      ⟨hanswer, hcatalog, -⟩ | ⟨text, c, warnings, rfl, read, -, news, -, -⟩
    · rw [hanswer, ih hrs hversions (hcatalog ▸ hs)]
      rfl
    · exact absurd (Request.version_of_carries hversion read) (news version hs)

/-- Of pushes of a version that is not published exactly one is published, if one of them can be
read and belongs to the repository. -/
theorem replacements_of_news {s : Store} {version : String} {rs : List Request}
    (hchannel : ∀ r ∈ rs, r.onChannel = true) (hcarries : ∀ r ∈ rs, r.carries version = true)
    (hs : s.catalog.version ≠ some version) :
    (s.answers rs).countP Answer.replaces ≤ 1 ∧
    ((s.answers rs).countP Answer.replaces = 1 ↔
      ∃ text c warnings, .update text ∈ rs ∧ Catalog.ofText text = .ok (c, warnings) ∧
        s.Belongs c) := by
  induction rs generalizing s with
  | nil => simp [answers]
  | cons r rs ih =>
    obtain ⟨hr, hrs⟩ := List.forall_mem_cons.mp hchannel
    obtain ⟨hversion, hversions⟩ := List.forall_mem_cons.mp hcarries
    rw [answers, List.countP_cons]
    rcases s.channel_step hr with
      ⟨hanswer, hcatalog, hrefused⟩ | ⟨text, c, warnings, rfl, read, home, -, hanswer, hcatalog⟩
    · obtain ⟨hle, hiff⟩ := ih hrs hversions (hcatalog ▸ hs)
      have hbelongs : ∀ c, (s.step r).store.Belongs c ↔ s.Belongs c := by
        intro c
        rw [Belongs, Belongs, hcatalog]
      simp only [hbelongs] at hiff
      rw [hanswer, if_neg Bool.false_ne_true, Nat.add_zero]
      refine ⟨hle, hiff.trans ?_⟩
      constructor
      · intro h
        obtain ⟨text, c, warnings, hmem, read, home⟩ := h
        exact ⟨text, c, warnings, List.mem_cons_of_mem _ hmem, read, home⟩
      · intro h
        obtain ⟨text, c, warnings, hmem, read, home⟩ := h
        rcases List.mem_cons.mp hmem with rfl | hmem
        · have hcarried := Request.version_of_carries hversion read
          have news : s.News c := by
            intro published hpublished hsame
            rw [hcarried] at hsame
            exact hs (hpublished.trans hsame.symm)
          exact absurd ⟨c, warnings, read, home, news⟩ (hrefused text rfl)
        · exact ⟨text, c, warnings, hmem, read, home⟩
    · have hpublished : (s.step (.update text)).store.catalog.version = some version := by
        rw [hcatalog]
        exact Request.version_of_carries hversion read
      rw [hanswer, replacements_of_published hrs hversions hpublished]
      refine ⟨Nat.le_refl _, fun _ => ?_, fun _ => rfl⟩
      exact ⟨text, c, warnings, List.mem_cons_self, read, home⟩

/-- The reply to a document that is pushed a second time, right after the first. -/
def repush (s : Store) (text : String) : Reply :=
  (s.step (.update text)).store.step (.update text)

/-- A document that is pushed again right away changes nothing: it is the published version by
then, or of another repository both times. -/
theorem step_update_again {s : Store} {text : String} {c : Catalog} {warnings : List Warning}
    (read : Catalog.ofText text = .ok (c, warnings)) (hversion : c.version.isSome = true) :
    (s.repush text).store = (s.step (.update text)).store ∧ (s.repush text).told = [] ∧
    ((s.repush text).answer = .updated (.ok .unchanged) ∨
      ∃ expected,
        (s.step (.update text)).answer = .updated (.ok (.foreign expected c.repositoryId)) ∧
        (s.repush text).answer = .updated (.ok (.foreign expected c.repositoryId))) := by
  obtain ⟨version, hversion⟩ := Option.isSome_iff_exists.mp hversion
  simp only [repush, step_update]
  obtain ⟨expected, -, -, hreply⟩ | ⟨-, hreply⟩ | ⟨-, hreply⟩ := s.update_of_read read
  · simp only [hreply]
    exact ⟨trivial, trivial, .inr ⟨expected, rfl, rfl⟩⟩
  · simp only [hreply]
    exact ⟨trivial, trivial, .inl trivial⟩
  · -- The document is published now, and nothing is news to a store that has it published.
    simp only [hreply]
    obtain ⟨_, own, other, -⟩ | ⟨-, hagain⟩ | ⟨news, -⟩ := (s.replace c).1.update_of_read read
    · exact absurd own other
    · simp only [hagain]
      exact ⟨trivial, trivial, .inl trivial⟩
    · exact absurd hversion (news version hversion)

/-- Pushes of one version, with other requests among them, have at most one answer that says that a
document was published. There is one exactly if the version is not published before and one of the
documents can be read and belongs to the repository. A document with a version that is pushed twice
in a row finds itself published the second time, or is of another repository both times. -/
theorem replaced_once_per_version (s : Store) :
    (∀ version rs, (∀ r ∈ rs, Request.onChannel r = true ∧ Request.carries version r = true) →
      (s.answers rs).countP Answer.replaces ≤ 1 ∧
      ((s.answers rs).countP Answer.replaces = 1 ↔
        s.catalog.version ≠ some version ∧
          ∃ text c warnings, .update text ∈ rs ∧ Catalog.ofText text = .ok (c, warnings) ∧
            s.Belongs c)) ∧
    ∀ text c warnings, Catalog.ofText text = .ok (c, warnings) → c.version.isSome = true →
      (s.repush text).store = (s.step (.update text)).store ∧ (s.repush text).told = [] ∧
      ((s.repush text).answer = .updated (.ok .unchanged) ∨
        ∃ expected,
          (s.step (.update text)).answer = .updated (.ok (.foreign expected c.repositoryId)) ∧
          (s.repush text).answer = .updated (.ok (.foreign expected c.repositoryId))) := by
  refine ⟨?_, fun text c warnings read hversion => step_update_again read hversion⟩
  intro version rs h
  have hchannel : ∀ r ∈ rs, r.onChannel = true := fun r hr => (h r hr).1
  have hcarries : ∀ r ∈ rs, r.carries version = true := fun r hr => (h r hr).2
  by_cases hs : s.catalog.version = some version
  · rw [replacements_of_published hchannel hcarries hs]
    simp [hs]
  · obtain ⟨hle, hiff⟩ := replacements_of_news hchannel hcarries hs
    exact ⟨hle, hiff.trans (and_iff_right hs).symm⟩

/-- A document of a repository, with English alone. -/
def repositoryText (id version : String) : String :=
  "\x7b\"repositoryId\": \"" ++ id ++ "\", \"version\": \"" ++ version ++ "\", \"locales\": ["
    ++ "\x7b\"localeCode\": \"EN\", \"name\": \"English\", \"isGlobalDefault\": true\x7d]\x7d"

/-- A store of the first version of a repository. -/
def site : Store :=
  ofCatalog { english with repositoryId := some "site", version := some "1" } none

/-- Pushes of a second version: of another repository, of none, of the store's, and no document. -/
def sitePushes : List Request :=
  [.update (repositoryText "other" "2"), .update englishText, .select "EN",
    .update (repositoryText "site" "2"), .update "no", .subscribe "a",
    .update (repositoryText "site" "2"), .resolve "k" .empty]

theorem replaced_once_site :
    (∀ r ∈ sitePushes, r.onChannel = true ∧ r.carries "2" = true) ∧
    (site.answers sitePushes).countP Answer.replaces = 1 ∧
    ∃ c warnings, Catalog.ofText (repositoryText "other" "2") = .ok (c, warnings) ∧
      c.version.isSome = true ∧
      (site.repush (repositoryText "other" "2")).store =
        (site.step (.update (repositoryText "other" "2"))).store := by
  obtain ⟨hsequence, htwice⟩ := replaced_once_per_version site
  have hpushes : ∀ r ∈ sitePushes, r.onChannel = true ∧ r.carries "2" = true := by decide +kernel
  have hbelongs : ((Catalog.ofText (repositoryText "site" "2")).toOption.map fun result =>
      result.1.repositoryId) = some (some "site") := by decide +kernel
  have hother : ((Catalog.ofText (repositoryText "other" "2")).toOption.map fun result =>
      result.1.version) = some (some "2") := by decide +kernel
  have hone : (site.answers sitePushes).countP Answer.replaces = 1 := by
    apply (hsequence "2" sitePushes hpushes).2.mpr
    refine ⟨by decide, repositoryText "site" "2", ?_⟩
    cases read : Catalog.ofText (repositoryText "site" "2") with
    | error fault =>
      rw [read] at hbelongs
      cases hbelongs
    | ok result =>
      rw [read] at hbelongs
      refine ⟨result.1, result.2, by simp [sitePushes], rfl, ?_⟩
      intro id hid
      rw [← hid]
      exact Option.some.inj hbelongs
  refine ⟨hpushes, hone, ?_⟩
  cases read : Catalog.ofText (repositoryText "other" "2") with
  | error fault =>
    rw [read] at hother
    cases hother
  | ok result =>
    rw [read] at hother
    have hversion : result.1.version = some "2" := Option.some.inj hother
    have hsome : result.1.version.isSome = true := by
      rw [hversion]
      rfl
    exact ⟨result.1, result.2, rfl, hsome, (htwice _ _ _ read hsome).1⟩

theorem repositoryId_run {s : Store} {id : String} (hs : s.catalog.repositoryId = some id)
    {rs : List Request} (hchannel : ∀ r ∈ rs, r.onChannel = true) :
    (s.run rs).catalog.repositoryId = some id := by
  induction rs using List.reverseRecOn with
  | nil => exact hs
  | append_singleton rs r ih =>
    have hid := ih fun r' hr' => hchannel r' (List.mem_append_left _ hr')
    have hr : r.onChannel = true := hchannel r (List.mem_append_right _ List.mem_cons_self)
    rw [run_concat]
    rcases (s.run rs).channel_step hr with
      ⟨-, hcatalog, -⟩ | ⟨text, c, warnings, -, -, home, -, -, hcatalog⟩
    · rw [hcatalog]
      exact hid
    · rw [hcatalog]
      exact home id hid

/-- Whatever is pushed, the repository stays, and the pushes that are published are the documents of
the repository that do not carry the version published at the time. -/
theorem repository_kept {s : Store} {id : String} (hs : s.catalog.repositoryId = some id)
    {rs : List Request} (hchannel : ∀ r ∈ rs, r.onChannel = true) :
    (s.run rs).catalog.repositoryId = some id ∧
    ∀ before text, before ++ [.update text] <+: rs →
      (((s.run before).step (.update text)).answer.replaces = true ↔
        ∃ c warnings, Catalog.ofText text = .ok (c, warnings) ∧ c.repositoryId = some id ∧
          (s.run before).News c) := by
  refine ⟨repositoryId_run hs hchannel, ?_⟩
  intro before text hpart
  have hid : (s.run before).catalog.repositoryId = some id :=
    repositoryId_run hs fun r hr => hchannel r (hpart.subset (List.mem_append_left _ hr))
  rw [replaces_update_iff]
  constructor
  · intro h
    obtain ⟨c, warnings, read, home, news⟩ := h
    exact ⟨c, warnings, read, home id hid, news⟩
  · intro h
    obtain ⟨c, warnings, read, hc, news⟩ := h
    refine ⟨c, warnings, read, ?_, news⟩
    intro id' hid'
    rw [hid] at hid'
    exact hc.trans hid'

theorem repository_kept_site :
    site.catalog.repositoryId = some "site" ∧ (∀ r ∈ sitePushes, r.onChannel = true) ∧
    (site.run sitePushes).catalog.repositoryId = some "site" ∧
    ¬ ∃ c warnings, Catalog.ofText (repositoryText "other" "2") = .ok (c, warnings) ∧
      c.repositoryId = some "site" ∧ site.News c := by
  have hs : site.catalog.repositoryId = some "site" := rfl
  have hchannel : ∀ r ∈ sitePushes, r.onChannel = true := by decide
  obtain ⟨hkept, hpublished⟩ := repository_kept hs hchannel
  have hforeign : (site.step (.update (repositoryText "other" "2"))).answer.replaces = false := by
    decide +kernel
  refine ⟨hs, hchannel, hkept, ?_⟩
  intro h
  have hreplaces := (hpublished [] (repositoryText "other" "2") ⟨_, rfl⟩).mpr h
  rw [run, hforeign] at hreplaces
  cases hreplaces

end Store

end Phrasebook
