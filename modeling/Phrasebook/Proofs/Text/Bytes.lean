import Mathlib.Data.List.DropRight
import Phrasebook.Proofs.Text.ByteOrder
import Phrasebook.Text.Position

namespace Phrasebook.Text

/-- The bytes of a run of characters. -/
def utf8 (cs : List Char) : List UInt8 := cs.flatMap String.utf8EncodeChar

@[simp] theorem utf8_nil : utf8 [] = [] := rfl

@[simp] theorem utf8_cons (c : Char) (cs : List Char) :
    utf8 (c :: cs) = String.utf8EncodeChar c ++ utf8 cs := rfl

theorem bytes_eq_utf8 (s : String) : bytes s = utf8 s.toList := bytes_eq_flatMap s

theorem length_utf8 (cs : List Char) : (utf8 cs).length = byteLength cs := by
  induction cs with
  | nil => rfl
  | cons c cs ih =>
    rw [utf8_cons, List.length_append, String.length_utf8EncodeChar, ih, byteLength_cons]

/-- The byte of a line feed. -/
def lineFeed : UInt8 := 10

theorem utf8EncodeChar_newline : String.utf8EncodeChar '\n' = [lineFeed] := by decide

/-- No other character has the byte of a line feed in it. -/
theorem lineFeed_notMem {c : Char} (h : c ≠ '\n') : lineFeed ∉ String.utf8EncodeChar c := by
  have hne : c.val.toNat ≠ 10 := by
    intro hval
    exact h (Char.ext (UInt32.toNat_inj.mp hval))
  have hfeed : lineFeed.toNat = 10 := rfl
  simp only [String.utf8EncodeChar]
  generalize c.val.toNat = m at *
  split_ifs
  all_goals
    simp only [List.mem_cons, List.not_mem_nil, or_false, not_or, ← UInt8.toNat_inj,
      UInt8.toNat_ofNat', hfeed]
    omega

/-- The line of a byte of a text: one more than the line feeds in front of it. -/
def lineOf (text : String) (offset : Nat) : Nat := 1 + ((bytes text).take offset).count lineFeed

/-- The column of a byte of a text: one more than the bytes between it and the last line feed in
front of it, or the start of the text. -/
def columnOf (text : String) (offset : Nat) : Nat :=
  1 + (((bytes text).take offset).rtakeWhile (· ≠ lineFeed)).length

/-- The place one byte further on. -/
def Position.pass (here : Position) (b : UInt8) : Position :=
  if b = lineFeed then ⟨here.line + 1, 0⟩ else ⟨here.line, here.column + 1⟩

theorem Position.foldl_pass_of_notMem (here : Position) {bs : List UInt8} (h : lineFeed ∉ bs) :
    bs.foldl pass here = ⟨here.line, here.column + bs.length⟩ := by
  induction bs generalizing here with
  | nil => rfl
  | cons b bs ih =>
    have hb := List.ne_of_not_mem_cons h
    have hbs := List.not_mem_of_not_mem_cons h
    rw [List.foldl_cons, ih _ hbs, pass, if_neg (Ne.symm hb), List.length_cons, Nat.add_assoc,
      Nat.add_comm 1]

/-- Going on by bytes: characters make no difference. -/
theorem Position.advance_eq_foldl (here : Position) (cs : List Char) (n : Nat) :
    advance here cs n = ((utf8 cs).take n).foldl pass here := by
  induction cs generalizing here n with
  | nil => rw [advance, utf8_nil, List.take_nil, List.foldl_nil]
  | cons c cs ih =>
    rw [advance]
    split
    · next hzero => rw [hzero, List.take_zero, List.foldl_nil]
    · next hpos =>
      split
      · next hc =>
        subst hc
        obtain ⟨m, rfl⟩ := Nat.exists_eq_add_one_of_ne_zero hpos
        rw [ih, utf8_cons, utf8EncodeChar_newline]
        rfl
      · next hc =>
        have hsize := String.length_utf8EncodeChar c
        have hfront : lineFeed ∉ (String.utf8EncodeChar c).take n :=
          fun h => lineFeed_notMem hc (List.mem_of_mem_take h)
        have hlength : ((String.utf8EncodeChar c).take n).length = min c.utf8Size n := by
          rw [List.length_take, hsize, Nat.min_comm]
        have hrest : n - min c.utf8Size n = n - c.utf8Size := by omega
        rw [ih, utf8_cons, List.take_append, List.foldl_append, foldl_pass_of_notMem _ hfront,
          hlength, hsize, hrest]

theorem Position.foldl_pass (bs : List UInt8) :
    bs.foldl pass ⟨1, 0⟩ = ⟨1 + bs.count lineFeed, (bs.rtakeWhile (· ≠ lineFeed)).length⟩ := by
  induction bs using List.reverseRecOn with
  | nil => rfl
  | append_singleton bs b ih =>
    rw [List.foldl_append, ih, List.foldl_cons, List.foldl_nil, pass, List.count_append,
      List.rtakeWhile_concat]
    by_cases hb : b = lineFeed <;> simp [hb, Nat.add_assoc]

/-- The place of a byte is its line and, counted from 0, its column. -/
theorem Position.ofOffset_toList (text : String) (offset : Nat) :
    ofOffset text.toList offset = ⟨lineOf text offset, columnOf text offset - 1⟩ := by
  rw [ofOffset, advance_eq_foldl, ← bytes_eq_utf8, foldl_pass, lineOf, columnOf,
    Nat.add_sub_cancel_left]

/-- The bytes up to the `n`-th line feed and with it; all of them if there are not so many. -/
def throughFeeds : Nat → List UInt8 → Nat
  | 0, _ => 0
  | _ + 1, [] => 0
  | n + 1, b :: bs => 1 + (if b = lineFeed then throughFeeds n bs else throughFeeds (n + 1) bs)

theorem throughFeeds_append_of_notMem (n : Nat) {front : List UInt8} (h : lineFeed ∉ front)
    (back : List UInt8) :
    throughFeeds (n + 1) (front ++ back) = front.length + throughFeeds (n + 1) back := by
  induction front with
  | nil => rw [List.nil_append, List.length_nil, Nat.zero_add]
  | cons b front ih =>
    have hb := List.ne_of_not_mem_cons h
    have hfront := List.not_mem_of_not_mem_cons h
    rw [List.cons_append, throughFeeds, if_neg (Ne.symm hb), ih hfront, List.length_cons]
    omega

theorem throughFeeds_append_lineFeed (front back : List UInt8) :
    throughFeeds (front.count lineFeed + 1) (front ++ lineFeed :: back) = front.length + 1 := by
  induction front with
  | nil => simp [throughFeeds]
  | cons b front ih =>
    rw [List.cons_append, throughFeeds, List.length_cons]
    by_cases hb : b = lineFeed
    · subst hb
      rw [if_pos rfl, List.count_cons_self, ih, Nat.add_comm]
    · rw [if_neg hb, List.count_cons_of_ne hb, ih, Nat.add_comm]

/-- Where the line of a place begins, and the bytes from there on. -/
theorem throughFeeds_add_length (front back : List UInt8) :
    throughFeeds (front.count lineFeed) (front ++ back) +
      (front.rtakeWhile (· ≠ lineFeed)).length = front.length := by
  induction front using List.reverseRecOn generalizing back with
  | nil => simp [throughFeeds]
  | append_singleton front b ih =>
    rw [List.append_assoc, List.singleton_append, List.rtakeWhile_concat, List.count_append,
      List.length_append]
    by_cases hb : b = lineFeed
    · subst hb
      simp [throughFeeds_append_lineFeed]
    · simp [hb, ← ih (b :: back), Nat.add_assoc]

end Phrasebook.Text
