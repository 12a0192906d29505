import Phrasebook.Proofs.Dict
import Mathlib.Data.List.Forall2

namespace Phrasebook

variable {α β γ : Type} {R : α → β → Prop}

/-- Members have the same key and related values. -/
def OnValues (R : α → β → Prop) (p : String × α) (q : String × β) : Prop := p.1 = q.1 ∧ R p.2 q.2

theorem map_eq_of_onValues {ps : List (String × α)} {qs : List (String × β)}
    (h : List.Forall₂ (OnValues R) ps qs) {f : α → γ} {g : β → γ}
    (hR : ∀ a b, R a b → f a = g b) :
    (ps.map fun p => (p.1, f p.2)) = qs.map fun q => (q.1, g q.2) := by
  induction h with
  | nil => rfl
  | cons hmember _ ih =>
    obtain ⟨hkey, hvalue⟩ := hmember
    rw [List.map_cons, List.map_cons, ih, hkey, hR _ _ hvalue]

/-- The members of two objects are the same but for their order, with related values. No key occurs
twice. -/
structure SameMembers (R : α → β → Prop) (ps : List (String × α)) (qs : List (String × β)) :
    Prop where
  distinct : (ps.map (·.1)).Nodup
  arranged : ∃ rs, ps.Perm rs ∧ List.Forall₂ (OnValues R) rs qs

theorem SameMembers.ofList_map_eq {ps : List (String × α)} {qs : List (String × β)}
    (h : SameMembers R ps qs) {f : α → γ} {g : β → γ} (hR : ∀ a b, R a b → f a = g b) :
    Dict.ofList (ps.map fun p => (p.1, f p.2)) = Dict.ofList (qs.map fun q => (q.1, g q.2)) := by
  obtain ⟨hdistinct, rs, hperm, hvalues⟩ := h
  have hkeys : ((ps.map fun p => (p.1, f p.2)).map (·.1)).Nodup := by
    rw [List.map_map]
    exact hdistinct
  rw [Dict.ofList_eq_of_perm hkeys (hperm.map _), map_eq_of_onValues hvalues hR]

theorem SameMembers.ofList_eq {ps qs : List (String × α)} (h : SameMembers Eq ps qs) :
    Dict.ofList ps = Dict.ofList qs := by
  have hmapped := h.ofList_map_eq (f := id) (g := id) fun _ _ hab => hab
  simpa using hmapped

end Phrasebook
