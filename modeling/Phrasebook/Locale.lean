namespace Phrasebook

structure Locale where
  code : String
  name : String
  /-- The locale to consult where this one lacks a phrase. -/
  fallback : Option String := none
  isDefault : Bool := false
deriving DecidableEq, Repr

/-- Why a list of locales is no roster. -/
inductive RosterFault where
  | duplicate (code : String)
  | noDefault
  | manyDefaults (codes : List String)
deriving DecidableEq, Repr

def RosterFault.message : RosterFault → String
  | .duplicate code => "duplicate locale code '" ++ code ++ "'"
  | .noDefault => "locale table has no global default locale"
  | .manyDefaults codes =>
    "locale table has multiple global defaults: " ++ String.intercalate ", " codes

/-- Declared locales, in order of declaration. -/
structure Roster where
  locales : List Locale
  /-- The global default. -/
  home : Locale
  distinct : (locales.map Locale.code).Nodup
  onlyDefault : locales.filter Locale.isDefault = [home]

/-- The first string that occurred before, be it in `seen`. -/
def firstRepeated (seen : List String) : List String → Option String
  | [] => none
  | s :: rest => if s ∈ seen then some s else firstRepeated (s :: seen) rest

theorem nodup_of_firstRepeated {seen xs : List String} (h : firstRepeated seen xs = none) :
    xs.Nodup ∧ ∀ x ∈ xs, x ∉ seen := by
  induction xs generalizing seen with
  | nil => simp
  | cons s rest ih =>
    simp only [firstRepeated] at h
    split at h
    · simp at h
    · next hs =>
      obtain ⟨hnodup, hrest⟩ := ih h
      refine ⟨List.nodup_cons.2 ⟨fun hmem => hrest s hmem List.mem_cons_self, hnodup⟩, ?_⟩
      intro x hx
      rcases List.mem_cons.1 hx with rfl | hx
      · exact hs
      · exact fun hseen => hrest x hx (List.mem_cons_of_mem _ hseen)

namespace Roster

/-- The roster of a list of locales. -/
def ofList (locales : List Locale) : Except RosterFault Roster :=
  match hrepeat : firstRepeated [] (locales.map Locale.code) with
  | some code => .error (.duplicate code)
  | none =>
    match hdefault : locales.filter Locale.isDefault with
    | [] => .error .noDefault
    | [home] => .ok ⟨locales, home, (nodup_of_firstRepeated hrepeat).1, hdefault⟩
    | homes => .error (.manyDefaults (homes.map Locale.code))

def codes (r : Roster) : List String := r.locales.map Locale.code

def find? (r : Roster) (code : String) : Option Locale :=
  r.locales.find? (·.code == code)

def declares (r : Roster) (code : String) : Bool := (r.find? code).isSome

theorem home_mem (r : Roster) : r.home ∈ r.locales := by
  have h : r.home ∈ r.locales.filter Locale.isDefault := by rw [r.onlyDefault]; simp
  exact (List.mem_filter.1 h).1

theorem declares_iff (r : Roster) (code : String) : r.declares code = true ↔ code ∈ r.codes := by
  simp [declares, find?, codes]

theorem declares_home (r : Roster) : r.declares r.home.code = true :=
  (r.declares_iff _).2 (List.mem_map_of_mem r.home_mem)

end Roster

end Phrasebook
