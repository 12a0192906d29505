namespace Phrasebook.Text

/-- The next row but for its first cell, from the character that is added to the first text, the
cell to the left, the cell diagonally behind and the cells above. -/
def nextCells (c : Char) (left behind : Nat) : List Char → List Nat → List Nat
  | d :: ds, above :: row =>
    let cell := min (min (left + 1) (above + 1)) (if c = d then behind else behind + 1)
    cell :: nextCells c cell above ds row
  | _, _ => []

/-- The row after `row`. -/
def nextRow (second : List Char) (row : List Nat) (c : Char) : List Nat :=
  match row with
  | [] => []
  | behind :: above => (behind + 1) :: nextCells c (behind + 1) behind second above

/-- The least number of insertions, deletions and replacements of one character that turn one text
into the other. The row of a prefix of the first holds its distances to all prefixes of the
second. -/
def editDistance (first second : String) : Nat :=
  let start := List.range (second.toList.length + 1)
  (first.toList.foldl (nextRow second.toList) start).getLastD 0

example : editDistance "kitten" "sitting" = 3 := by decide +kernel

end Phrasebook.Text
