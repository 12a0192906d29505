import Phrasebook.Decimal.Binary64

namespace Phrasebook.Json

/-- A value. Members keep their order and repetitions; whole numbers of 64 bits are kept apart from
all other numbers. -/
inductive Content where
  | null
  | bool (b : Bool)
  | integer (n : Int)
  | float (x : Binary64)
  | string (s : String)
  | seq (items : List Content)
  | map (members : List (String × Content))
deriving Inhabited, Repr

namespace Content

mutual

/-- Whether two values are the same, members being compared in their order. -/
def same : Content → Content → Bool
  | .null, .null => true
  | .bool a, .bool b => a == b
  | .integer m, .integer n => m == n
  | .float x, .float y => decide (x = y)
  | .string s, .string t => s == t
  | .seq vs, .seq ws => sameAll vs ws
  | .map ps, .map qs => samePairs ps qs
  | _, _ => false

def sameAll : List Content → List Content → Bool
  | [], [] => true
  | v :: vs, w :: ws => same v w && sameAll vs ws
  | _, _ => false

def samePairs : List (String × Content) → List (String × Content) → Bool
  | [], [] => true
  | (key, v) :: ps, (key', w) :: qs => key == key' && same v w && samePairs ps qs
  | _, _ => false

end

mutual

theorem same_iff : ∀ {v w : Content}, same v w = true ↔ v = w
  | .null, w => by cases w <;> simp [same]
  | .bool a, w => by cases w <;> simp [same]
  | .integer m, w => by cases w <;> simp [same]
  | .float x, w => by cases w <;> simp [same]
  | .string s, w => by cases w <;> simp [same]
  | .seq vs, w => by
    cases w with
    | seq ws => rw [same, sameAll_iff, seq.injEq]
    | _ => simp [same]
  | .map ps, w => by
    cases w with
    | map qs => rw [same, samePairs_iff, map.injEq]
    | _ => simp [same]

theorem sameAll_iff : ∀ {vs ws : List Content}, sameAll vs ws = true ↔ vs = ws
  | [], ws => by cases ws <;> simp [sameAll]
  | v :: vs, ws => by
    cases ws with
    | nil => simp [sameAll]
    | cons w ws => rw [sameAll, Bool.and_eq_true, same_iff, sameAll_iff, List.cons.injEq]

theorem samePairs_iff : ∀ {ps qs : List (String × Content)}, samePairs ps qs = true ↔ ps = qs
  | [], qs => by cases qs <;> simp [samePairs]
  | (key, v) :: ps, qs => by
    cases qs with
    | nil => simp [samePairs]
    | cons q qs =>
      obtain ⟨key', w⟩ := q
      rw [samePairs, Bool.and_eq_true, Bool.and_eq_true, same_iff, samePairs_iff, beq_iff_eq,
        List.cons.injEq, Prod.mk.injEq]

end

instance : DecidableEq Content := fun _ _ => decidable_of_iff _ same_iff

end Content

/-- What a fault says it found: a scalar with its value, or a kind of container. -/
inductive Found where
  | null
  | bool (b : Bool)
  | integer (n : Int)
  | float (x : Binary64)
  | string (s : String)
  | seq
  | map
deriving DecidableEq, Repr

def Content.found : Content → Found
  | .null => .null
  | .bool b => .bool b
  | .integer n => .integer n
  | .float x => .float x
  | .string s => .string s
  | .seq _ => .seq
  | .map _ => .map

end Phrasebook.Json
