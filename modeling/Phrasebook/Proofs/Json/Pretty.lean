import Phrasebook.Proofs.Json.Written
import Phrasebook.Proofs.Template.Run

namespace Phrasebook.Json

variable {depth : Nat} {x y : List Char}

/-- A quoted string ends where it ends, whatever follows. -/
theorem quote_append_inj {s s' : String} (h : (quote s).toList ++ x = (quote s').toList ++ y) :
    s = s' ∧ x = y := by
  obtain ⟨inner, hs, hread⟩ := exists_toList_quote s
  obtain ⟨inner', hs', hread'⟩ := exists_toList_quote s'
  rw [hs, hs', List.cons_append, List.cons_append] at h
  have hx := hread x
  rw [(List.cons.inj h).2, hread' y] at hx
  cases hx
  exact ⟨rfl, rfl⟩

theorem toList_newLine (depth : Nat) :
    (newLine depth).toList = '\n' :: List.replicate (2 * depth) ' ' := by
  simp [newLine, String.toList_append]

namespace Content

theorem prettyAt_string (s : String) : (Content.string s).prettyAt depth = quote s := by
  rw [prettyAt, writeScalar]
  all_goals
    intros
    contradiction

theorem prettyAt_integer (n : Nat) : (Content.integer n).prettyAt depth = Nat.repr n := by
  rw [prettyAt, writeScalar]
  · rfl
  all_goals
    intros
    contradiction

theorem toList_prettyMembers_singleton (key : String) (v : Content) :
    (prettyMembers depth [(key, v)]).toList =
      (newLine depth).toList ++ ((quote key).toList ++ ':' :: ' ' :: (v.prettyAt depth).toList) := by
  rw [prettyMembers]
  simp [String.toList_append]

theorem toList_prettyMembers_cons (key : String) (v : Content) (p : String × Content)
    (ps : List (String × Content)) :
    (prettyMembers depth ((key, v) :: p :: ps)).toList =
      (newLine depth).toList ++ ((quote key).toList ++ ':' :: ' ' :: ((v.prettyAt depth).toList ++
        ',' :: (prettyMembers depth (p :: ps)).toList)) := by
  rw [prettyMembers]
  · simp [String.toList_append]
  · intro h
    cases h

/-- A whole number ends in front of a comma. -/
theorem eq_of_integer_append {n m : Nat}
    (h : ((Content.integer n).prettyAt depth).toList ++ ',' :: x =
      ((Content.integer m).prettyAt depth).toList ++ ',' :: y) : x = y := by
  have hdigits : ∀ n : Nat, ∀ c ∈ (Nat.repr n).toList, c.isDigit = true := by
    intro n c hc
    rw [Nat.toList_repr] at hc
    exact Nat.isDigit_of_mem_toDigits (by decide) (by decide) hc
  rw [prettyAt_integer, prettyAt_integer] at h
  exact (List.cons.inj (run_append_inj (hdigits n) (hdigits m) (by simp) (by simp) h).2).2

/-- How a list of strings goes on after an element. -/
def laterStrings (depth : Nat) : List String → List Char
  | [] => []
  | key :: keys =>
    ',' :: ((newLine depth).toList ++ ((quote key).toList ++ laterStrings depth keys))

theorem toList_prettyItems_strings (key : String) (keys : List String) :
    (prettyItems depth ((key :: keys).map .string)).toList =
      (newLine depth).toList ++ ((quote key).toList ++ laterStrings depth keys) := by
  induction keys generalizing key with
  | nil =>
    rw [List.map_singleton, prettyItems, prettyAt_string, String.toList_append, laterStrings,
      List.append_nil]
  | cons next keys ih =>
    rw [List.map_cons, List.map_cons, prettyItems, prettyAt_string, ← List.map_cons]
    · simp only [String.toList_append, ih, laterStrings, List.append_assoc]
      rfl
    · intro h
      cases h

theorem laterStrings_append_inj {keys keys' : List String}
    (h : laterStrings depth keys ++ '\n' :: x = laterStrings depth keys' ++ '\n' :: y) :
    keys = keys' ∧ x = y := by
  induction keys generalizing keys' with
  | nil =>
    cases keys' with
    | nil => exact ⟨rfl, (List.cons.inj h).2⟩
    | cons key' keys' => exact absurd (List.cons.inj h).1 (by decide)
  | cons key keys ih =>
    cases keys' with
    | nil => exact absurd (List.cons.inj h).1 (by decide)
    | cons key' keys' =>
      simp only [laterStrings, List.cons_append, List.append_assoc, List.cons.injEq, true_and,
        List.append_cancel_left_eq] at h
      obtain ⟨rfl, hrest⟩ := quote_append_inj h
      obtain ⟨rfl, hxy⟩ := ih hrest
      exact ⟨rfl, hxy⟩

theorem toList_strings_nil :
    ((Content.seq (([] : List String).map .string)).prettyAt depth).toList = ['[', ']'] := by
  rw [List.map_nil, prettyAt]
  rfl

theorem toList_strings_cons (key : String) (keys : List String) :
    ((Content.seq ((key :: keys).map .string)).prettyAt depth).toList =
      '[' :: '\n' :: (List.replicate (2 * (depth + 1)) ' ' ++ ((quote key).toList ++
        (laterStrings (depth + 1) keys ++ '\n' :: (List.replicate (2 * depth) ' ' ++ [']'])))) := by
  rw [List.map_cons, prettyAt, ← List.map_cons]
  simp only [String.toList_append, toList_prettyItems_strings, toList_newLine, List.append_assoc]
  rfl

/-- A list of strings ends where it ends, whatever follows. -/
theorem strings_append_inj {keys keys' : List String}
    (h : ((Content.seq (keys.map .string)).prettyAt depth).toList ++ x =
      ((Content.seq (keys'.map .string)).prettyAt depth).toList ++ y) : keys = keys' ∧ x = y := by
  cases keys with
  | nil =>
    cases keys' with
    | nil => exact ⟨rfl, List.append_cancel_left h⟩
    | cons key' keys' =>
      rw [toList_strings_nil, toList_strings_cons] at h
      exact absurd (List.cons.inj (List.cons.inj h).2).1 (by decide)
  | cons key keys =>
    cases keys' with
    | nil =>
      rw [toList_strings_nil, toList_strings_cons] at h
      exact absurd (List.cons.inj (List.cons.inj h).2).1 (by decide)
    | cons key' keys' =>
      simp only [toList_strings_cons, List.cons_append, List.append_assoc, List.cons.injEq,
        true_and, List.append_cancel_left_eq] at h
      obtain ⟨rfl, hkeys⟩ := quote_append_inj h
      obtain ⟨rfl, hrest⟩ := laterStrings_append_inj hkeys
      exact ⟨rfl, (List.cons.inj (List.append_cancel_left hrest)).2⟩

/-- Two objects that begin with members of one name go on alike, if the values of these can be told
from what follows. -/
theorem members_append_inj {key : String} {v v' : Content} {p p' : String × Content}
    {ps ps' : List (String × Content)}
    (hvalue : ∀ as bs, (v.prettyAt depth).toList ++ ',' :: as =
      (v'.prettyAt depth).toList ++ ',' :: bs → as = bs)
    (h : (prettyMembers depth ((key, v) :: p :: ps)).toList ++ x =
      (prettyMembers depth ((key, v') :: p' :: ps')).toList ++ y) :
    (prettyMembers depth (p :: ps)).toList ++ x = (prettyMembers depth (p' :: ps')).toList ++ y := by
  simp only [toList_prettyMembers_cons, List.append_assoc, List.append_cancel_left_eq,
    List.cons_append, List.cons.injEq, true_and] at h
  exact hvalue _ _ h

/-- A row with one object in it. -/
theorem toList_pretty_row (p : String × Content) (ps : List (String × Content)) :
    (Content.seq [.map (p :: ps)]).pretty.toList =
      '[' :: ((newLine 1).toList ++ '\x7b' :: ((prettyMembers 2 (p :: ps)).toList ++
        ((newLine 1).toList ++ '\x7d' :: ((newLine 0).toList ++ [']'])))) := by
  rw [pretty, prettyAt, prettyItems, prettyAt]
  simp only [String.toList_append, List.append_assoc]
  rfl

/-- A string that is the only member of an object can be told from what is written. -/
theorem pretty_string_inj {key s s' : String}
    (h : (Content.map [(key, .string s)]).pretty = (Content.map [(key, .string s')]).pretty) :
    s = s' := by
  have hlist := congrArg String.toList h
  simp only [pretty, prettyAt, String.toList_append, toList_prettyMembers_singleton,
    List.append_assoc, List.append_cancel_left_eq, List.cons_append, List.cons.injEq,
    true_and] at hlist
  exact (quote_append_inj hlist).1

end Content

end Phrasebook.Json
