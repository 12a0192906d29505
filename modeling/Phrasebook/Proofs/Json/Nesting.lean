import Phrasebook.Proofs.Json.Value

namespace Phrasebook.Json

namespace Content

mutual

/-- The greatest number of containers that stand inside each other. -/
def nesting : Content → Nat
  | .seq values => nestingAll values + 1
  | .map members => nestingPairs members + 1
  | _ => 0

def nestingAll : List Content → Nat
  | [] => 0
  | value :: values => max (nesting value) (nestingAll values)

def nestingPairs : List (String × Content) → Nat
  | [] => 0
  | (_, value) :: members => max (nesting value) (nestingPairs members)

end

theorem nestingPairs_append (ps qs : List (String × Content)) :
    nestingPairs (ps ++ qs) = max (nestingPairs ps) (nestingPairs qs) := by
  induction ps with
  | nil => exact (Nat.zero_max _).symm
  | cons p ps ih =>
    obtain ⟨key, v⟩ := p
    rw [List.cons_append, nestingPairs, nestingPairs, ih, Nat.max_assoc]

end Content

namespace Reader

theorem descend_eq_ok {depth inner : Nat} {cs : List Char} (h : descend depth cs = .ok inner) :
    0 < inner ∧ depth = inner + 1 := by
  rw [descend] at h
  split at h
  · cases h
  · next hdepth =>
    cases h
    omega

open Content

mutual

theorem nesting_lt : ∀ {v : Content} {depth : Nat} {cs rest : List Char}, 0 < depth →
    content depth cs = .ok (v, rest) → v.nesting < depth
  | .null, depth, cs, rest, hdepth, _ => hdepth
  | .bool _, depth, cs, rest, hdepth, _ => hdepth
  | .integer _, depth, cs, rest, hdepth, _ => hdepth
  | .float _, depth, cs, rest, hdepth, _ => hdepth
  | .string _, depth, cs, rest, hdepth, _ => hdepth
  | .seq values, depth, cs, rest, hdepth, h => by
    cases spells_of_content h with
    | seq hskip hdescend hvalues hclose =>
      obtain ⟨hinner, rfl⟩ := descend_eq_ok hdescend
      exact Nat.succ_lt_succ (nestingAll_lt hinner hvalues)
  | .map members, depth, cs, rest, hdepth, h => by
    cases spells_of_content h with
    | map hskip hdescend hpairs hclose =>
      obtain ⟨hinner, rfl⟩ := descend_eq_ok hdescend
      exact Nat.succ_lt_succ (nestingPairs_lt hinner hpairs)

theorem nestingAll_lt : ∀ {vs : List Content} {depth : Nat} {first : Bool} {cs rest : List Char},
    0 < depth → values depth first cs = .ok (vs, rest) → nestingAll vs < depth
  | [], depth, first, cs, rest, hdepth, _ => hdepth
  | v :: vs, depth, first, cs, rest, hdepth, h => by
    obtain ⟨start, after, -, hvalue, hvalues⟩ := values_cons_iff.mp h
    exact Nat.max_lt.mpr ⟨nesting_lt hdepth hvalue, nestingAll_lt hdepth hvalues⟩

theorem nestingPairs_lt : ∀ {ps : List (String × Content)} {depth : Nat} {first : Bool}
    {cs rest : List Char}, 0 < depth → pairs depth first cs = .ok (ps, rest) →
    nestingPairs ps < depth
  | [], depth, first, cs, rest, hdepth, _ => hdepth
  | (key, v) :: ps, depth, first, cs, rest, hdepth, h => by
    obtain ⟨start, afterKey, afterColon, after, -, -, -, hvalue, hpairs⟩ := pairs_cons_iff.mp h
    exact Nat.max_lt.mpr ⟨nesting_lt hdepth hvalue, nestingPairs_lt hdepth hpairs⟩

end

end Reader

end Phrasebook.Json
