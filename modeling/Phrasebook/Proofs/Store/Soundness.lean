import Mathlib.Data.List.Induction
import Phrasebook.Proofs.Store.Effect

namespace Phrasebook

theorem firstRepeated_eq_none_iff {seen xs : List String} :
    firstRepeated seen xs = none ↔ xs.Nodup ∧ ∀ x ∈ xs, x ∉ seen := by
  refine ⟨nodup_of_firstRepeated, fun h => ?_⟩
  induction xs generalizing seen with
  | nil => rfl
  | cons x xs ih =>
    obtain ⟨hnodup, hseen⟩ := h
    obtain ⟨hx, hxs⟩ := List.nodup_cons.mp hnodup
    rw [firstRepeated, if_neg (hseen x List.mem_cons_self)]
    refine ih ⟨hxs, fun y hy hmem => ?_⟩
    rcases List.mem_cons.mp hmem with rfl | hmem
    · exact hx hy
    · exact hseen y (List.mem_cons_of_mem _ hy) hmem

namespace Roster

theorem ofList_locales (r : Roster) : ofList r.locales = .ok r := by
  obtain ⟨locales, home, distinct, onlyDefault⟩ := r
  have hrepeat : firstRepeated [] (locales.map Locale.code) = none :=
    firstRepeated_eq_none_iff.mpr ⟨distinct, fun _ _ => List.not_mem_nil⟩
  rw [ofList]
  split
  · next code h => simp [hrepeat] at h
  · split
    · next h => simp [onlyDefault] at h
    · next home' h =>
      obtain rfl : home = home' := by simpa [onlyDefault] using h
      rfl
    · next _ h => exact absurd onlyDefault (h home)

theorem locales_of_ofList {locales : List Locale} {r : Roster} (h : ofList locales = .ok r) :
    r.locales = locales := by
  rw [ofList] at h
  split at h
  · cases h
  · split at h
    · cases h
    · cases h
      rfl
    · cases h

/-- The lists of locales that pass for a roster. -/
theorem exists_ofList_iff {locales : List Locale} :
    (∃ r, ofList locales = .ok r) ↔
      (locales.map Locale.code).Nodup ∧ locales.countP Locale.isDefault = 1 := by
  constructor
  · rintro ⟨r, h⟩
    rw [← locales_of_ofList h, List.countP_eq_length_filter, r.onlyDefault]
    exact ⟨r.distinct, rfl⟩
  · rintro ⟨distinct, hone⟩
    rw [List.countP_eq_length_filter] at hone
    obtain ⟨home, onlyDefault⟩ := List.length_eq_one_iff.mp hone
    exact ⟨_, ofList_locales ⟨locales, home, distinct, onlyDefault⟩⟩

end Roster

namespace Store

/-- Stores as they are built, over a catalog or over the document in a file, with the path of the
file. -/
inductive Built : Option String → Store → Prop
  | ofCatalog (c : Catalog) (preferred : Option String) : Built none (ofCatalog c preferred)
  | ofFile {path : String} {content : Except FileFault String} {preferred : Option String}
    {s : Store} {warnings : List Warning} (h : ofFile path content preferred = .ok (s, warnings)) :
    Built (some path) s

structure Sound (source : Option String) (s : Store) : Prop where
  declared : s.selected ∈ s.catalog.roster.codes
  checked : Roster.ofList s.catalog.roster.locales = .ok s.catalog.roster
  distinct : s.catalog.roster.codes.Nodup
  oneDefault : s.catalog.roster.locales.countP Locale.isDefault = 1
  source : s.source = source

theorem sound_of_declared {source : Option String} {s : Store}
    (declared : s.catalog.roster.declares s.selected = true) (hsource : s.source = source) :
    s.Sound source := by
  have checked := s.catalog.roster.ofList_locales
  obtain ⟨distinct, oneDefault⟩ := Roster.exists_ofList_iff.mp ⟨_, checked⟩
  exact ⟨(s.catalog.roster.declares_iff _).mp declared, checked, distinct, oneDefault, hsource⟩

theorem declares_selection (c : Catalog) (code : String) :
    c.roster.declares (selection c code) = true := by
  rw [selection]
  split
  · next h => exact h
  · exact c.roster.declares_home

theorem declares_ofCatalog (c : Catalog) (preferred : Option String) :
    c.roster.declares (ofCatalog c preferred).selected = true := by
  cases preferred with
  | none => exact c.roster.declares_home
  | some code => exact declares_selection c code

theorem ofFile_eq_ok {path : String} {content : Except FileFault String}
    {preferred : Option String} {s : Store} {warnings : List Warning}
    (h : ofFile path content preferred = .ok (s, warnings)) :
    ∃ c, Catalog.ofFile path content = .ok (c, warnings) ∧
      s = { ofCatalog c preferred with source := some path } := by
  rw [ofFile] at h
  cases read : Catalog.ofFile path content with
  | error fault =>
    rw [read] at h
    cases h
  | ok result =>
    rw [read] at h
    cases h
    exact ⟨_, rfl, rfl⟩

theorem Built.sound {source : Option String} {s : Store} (h : Built source s) : s.Sound source := by
  cases h with
  | ofCatalog c preferred => exact sound_of_declared (declares_ofCatalog c preferred) rfl
  | @ofFile _ _ preferred _ _ h =>
    obtain ⟨c, -, rfl⟩ := ofFile_eq_ok h
    exact sound_of_declared (declares_ofCatalog c preferred) rfl

theorem Sound.step {source : Option String} {s : Store} (h : s.Sound source) (r : Request) :
    (s.step r).store.Sound source := by
  have effect := s.effect_step r
  generalize s.step r = reply at effect
  cases effect with
  | still => exact h
  | selects code => exact sound_of_declared (declares_selection s.catalog code) h.source
  | subscribes name => exact ⟨h.declared, h.checked, h.distinct, h.oneDefault, h.source⟩
  | @publishes c => exact sound_of_declared (declares_selection c s.selected) h.source

/-- However a store was built and whatever was asked of it, successfully or not, its selected code
is declared, its locales make up a roster, and its source is the one it was built from. -/
theorem sound_run {source : Option String} {start : Store} (h : Built source start)
    (rs : List Request) : (start.run rs).Sound source := by
  induction rs using List.reverseRecOn with
  | nil => exact h.sound
  | append_singleton rs r ih =>
    rw [run_concat]
    exact ih.step r

/-- A document with English, the default, and French. -/
def bilingualText : String :=
  "\x7b\"version\": \"1\", \"locales\": ["
    ++ "\x7b\"localeCode\": \"EN\", \"name\": \"English\", \"isGlobalDefault\": true\x7d, "
    ++ "\x7b\"localeCode\": \"FR\", \"name\": \"French\", \"defaultFallbackCode\": \"EN\"\x7d]\x7d"

/-- A later document with English alone. -/
def englishText : String :=
  "\x7b\"version\": \"2\", \"locales\": ["
    ++ "\x7b\"localeCode\": \"EN\", \"name\": \"English\", \"isGlobalDefault\": true\x7d]\x7d"

theorem sound_run_bilingual :
    ∃ start warnings, ofFile "a.json" (.ok bilingualText) (some "FR") = .ok (start, warnings) ∧
      (start.run [.subscribe "a", .update englishText, .setSelected "FR", .update "no",
        .reload fun _ => .ok bilingualText, .select "FR", .reload fun _ => .error .absent,
        .resolve "k" .empty, .snapshot]).Sound (some "a.json") := by
  have hok : (ofFile "a.json" (.ok bilingualText) (some "FR")).isOk = true := by decide +kernel
  cases h : ofFile "a.json" (.ok bilingualText) (some "FR") with
  | error fault =>
    rw [h] at hok
    cases hok
  | ok result => exact ⟨_, _, rfl, sound_run (.ofFile h) _⟩

end Store

end Phrasebook
