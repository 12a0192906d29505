namespace Phrasebook.Text

/-- The bytes a run of characters takes in UTF-8. -/
def byteLength : List Char → Nat
  | [] => 0
  | c :: cs => c.utf8Size + byteLength cs

@[simp] theorem byteLength_nil : byteLength [] = 0 := rfl

@[simp] theorem byteLength_cons (c : Char) (cs : List Char) :
    byteLength (c :: cs) = c.utf8Size + byteLength cs := rfl

@[simp] theorem byteLength_append (cs ds : List Char) :
    byteLength (cs ++ ds) = byteLength cs + byteLength ds := by
  induction cs with
  | nil => simp
  | cons c cs ih => simp [ih, Nat.add_assoc]

/-- A line, counted from 1, and a column in bytes. -/
structure Position where
  line : Nat
  column : Nat
deriving DecidableEq, Repr

/-- The place `bytes` bytes further on than `here`, when `cs` is what follows `here`. -/
def Position.advance (here : Position) : List Char → Nat → Position
  | [], _ => here
  | c :: cs, bytes =>
    if bytes = 0 then here
    else if c = '\n' then advance ⟨here.line + 1, 0⟩ cs (bytes - 1)
    else
      let width := min c.utf8Size bytes
      advance ⟨here.line, here.column + width⟩ cs (bytes - width)

/-- The place of byte `offset` of a text; its column is the number of bytes since the line began. -/
def Position.ofOffset (text : List Char) (offset : Nat) : Position :=
  Position.advance ⟨1, 0⟩ text offset

/-- The place of the character after `before`, with columns counted from 1. -/
def Position.after (before : List Char) : Position :=
  let here := Position.ofOffset before (byteLength before)
  ⟨here.line, here.column + 1⟩

end Phrasebook.Text
