import Mathlib.Data.List.DropRight
import Phrasebook.Text.Position

namespace Phrasebook.Text

/-- What stands after the last line feed. -/
def lastLine (cs : List Char) : List Char := cs.rtakeWhile (· ≠ '\n')

theorem lastLine_concat (cs : List Char) (c : Char) :
    lastLine (cs ++ [c]) = if c = '\n' then [] else lastLine cs ++ [c] := by
  rw [lastLine, List.rtakeWhile_concat]
  by_cases hc : c = '\n' <;> simp [hc, lastLine]

namespace Position

/-- Going on over two stretches is going on over the second from where the first ends. -/
theorem advance_append (here : Position) (cs ds : List Char) (bytes : Nat) :
    advance here (cs ++ ds) (byteLength cs + bytes) =
      advance (advance here cs (byteLength cs)) ds bytes := by
  induction cs generalizing here with
  | nil => cases ds <;> simp [advance]
  | cons c cs ih =>
    have hpos : 0 < c.utf8Size := c.utf8Size_pos
    have hne : c.utf8Size + byteLength cs + bytes ≠ 0 := by omega
    have hne' : c.utf8Size + byteLength cs ≠ 0 := by omega
    rw [List.cons_append, byteLength_cons, advance, advance, if_neg hne, if_neg hne']
    by_cases hc : c = '\n'
    · subst hc
      have hsize : ('\n' : Char).utf8Size = 1 := by decide
      have hrest : 1 + byteLength cs + bytes - 1 = byteLength cs + bytes := by omega
      have hrest' : 1 + byteLength cs - 1 = byteLength cs := by omega
      rw [if_pos rfl, if_pos rfl, hsize, hrest, hrest', ih]
    · rw [if_neg hc, if_neg hc]
      have hwidth : min c.utf8Size (c.utf8Size + byteLength cs + bytes) = c.utf8Size := by omega
      have hwidth' : min c.utf8Size (c.utf8Size + byteLength cs) = c.utf8Size := by omega
      have hrest : c.utf8Size + byteLength cs + bytes - c.utf8Size = byteLength cs + bytes := by
        omega
      have hrest' : c.utf8Size + byteLength cs - c.utf8Size = byteLength cs := by omega
      simp only [hwidth, hwidth', hrest, hrest', ih]

theorem advance_char (here : Position) (c : Char) :
    advance here [c] c.utf8Size =
      if c = '\n' then ⟨here.line + 1, 0⟩ else ⟨here.line, here.column + c.utf8Size⟩ := by
  have hne : c.utf8Size ≠ 0 := Nat.ne_of_gt c.utf8Size_pos
  rw [advance, if_neg hne]
  by_cases hc : c = '\n' <;> simp [hc, advance]

/-- The place at the end of a text. -/
theorem ofOffset_byteLength (cs : List Char) :
    ofOffset cs (byteLength cs) = ⟨1 + cs.count '\n', byteLength (lastLine cs)⟩ := by
  induction cs using List.reverseRecOn with
  | nil => rfl
  | append_singleton cs c ih =>
    rw [ofOffset] at ih ⊢
    rw [byteLength_append, advance_append, ih, byteLength_cons, byteLength_nil, Nat.add_zero,
      advance_char, lastLine_concat, List.count_append]
    by_cases hc : c = '\n' <;> simp [hc, Nat.add_assoc]

theorem after_eq (before : List Char) :
    after before = ⟨1 + before.count '\n', 1 + byteLength (lastLine before)⟩ := by
  rw [after, ofOffset_byteLength, Nat.add_comm 1 (byteLength _)]

end Position

end Phrasebook.Text
