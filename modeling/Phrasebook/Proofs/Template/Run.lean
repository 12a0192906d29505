import Mathlib.Data.List.TakeWhile

namespace Phrasebook

variable {α : Type} {p : α → Bool} {xs ys us vs : List α}

theorem dropWhile_run (hx : ∀ a ∈ xs, p a = true) (hu : ∀ a ∈ us.head?, p a = false) :
    (xs ++ us).dropWhile p = us := by
  rw [List.dropWhile_append_of_pos hx]
  cases us with
  | nil => rfl
  | cons u us =>
    have hneg : ¬ p u = true := by simpa using hu u (by simp)
    exact List.dropWhile_cons_of_neg hneg

theorem takeWhile_run (hx : ∀ a ∈ xs, p a = true) (hu : ∀ a ∈ us.head?, p a = false) :
    (xs ++ us).takeWhile p = xs := by
  have h := List.takeWhile_append_dropWhile (p := p) (l := xs ++ us)
  rw [dropWhile_run hx hu] at h
  exact List.append_cancel_right h

theorem run_append_inj (hx : ∀ a ∈ xs, p a = true) (hy : ∀ a ∈ ys, p a = true)
    (hu : ∀ a ∈ us.head?, p a = false) (hv : ∀ a ∈ vs.head?, p a = false)
    (h : xs ++ us = ys ++ vs) : xs = ys ∧ us = vs := by
  constructor
  · rw [← takeWhile_run hx hu, h, takeWhile_run hy hv]
  · rw [← dropWhile_run hx hu, h, dropWhile_run hy hv]

end Phrasebook
