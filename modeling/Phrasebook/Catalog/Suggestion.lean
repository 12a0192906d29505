import Phrasebook.Text.EditDistance

namespace Phrasebook

/-- How far a suggestion may be from a key: short keys allow one edit, longer ones two. -/
def suggestionReach (target : String) : Nat :=
  if target.toList.length ≤ 3 then 1 else 2

/-- The nearer comes first; of two as near, the smaller. -/
def nearerFirst (a b : Nat × String) : Bool :=
  a.1 < b.1 || (a.1 == b.1 && a.2 ≤ b.2)

/-- The keys to suggest in place of `target`. -/
def suggestions (target : String) (available : List String) : List String :=
  let scored := available.map fun key => (Text.editDistance target key, key)
  let near := scored.filter fun s => s.1 ≤ suggestionReach target
  ((near.mergeSort nearerFirst).take 3).map (·.2)

end Phrasebook
