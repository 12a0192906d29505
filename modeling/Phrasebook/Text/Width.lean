import Phrasebook.Text.Ligature

namespace Phrasebook.Text

/-- A selector, which sets the form of the character before it. -/
inductive Selector where
  | picture
  | text
  | wide
deriving DecidableEq, Repr

def Selector.of? (c : Char) : Option Selector :=
  if c = '\ufe0f' then some .picture
  else if c = '\ufe0e' then some .text
  else if c = '\ufe01' then some .wide
  else none

/-- The end of a picture, as far as it is read. -/
inductive Picture where
  | whole
  | tone
  | flagHalf
  | flagHalves
  /-- A joiner and a picture. -/
  | joined
  | joinedKeycap
  | joinedFlagHalf
  | joinedFlag
  | joinedFlagAndHalf
  | tagLetters (count : Nat)
  | tagDigits (count : Nat)
deriving DecidableEq, Repr

/-- What stands right after a character. -/
inductive Tail where
  | plain
  | lineFeed
  | letter (l : Letter) (joiner : Bool)
  | vowel (v : Vowel)
  | picture (p : Picture)
deriving DecidableEq, Repr

/-- The tail of a character, after the selectors that come first. -/
structure Following where
  tail : Tail
  selectors : List Selector
deriving DecidableEq, Repr

namespace Following

def ofTail (tail : Tail) : Following := ⟨tail, []⟩

def plain : Following := ofTail .plain

def picture (p : Picture) : Following := ofTail (.picture p)

def letter (l : Letter) : Following := ofTail (.letter l false)

def vowel (v : Vowel) : Following := ofTail (.vowel v)

/-- A selector takes the place of the tail and of the selectors before it; only a letter, and under
the picture selector a joined picture, is still seen through it. -/
def select (s : Selector) (after : Following) : Following :=
  match after.tail, s with
  | .letter .., _ => ⟨after.tail, s :: after.selectors⟩
  | .picture .joined, .picture | .picture .joinedKeycap, .picture => ⟨after.tail, [s]⟩
  | _, _ => ⟨.plain, [s]⟩

/-- What is left of a selector that does not suit the character before it. -/
def without (s : Selector) (after : Following) : Following :=
  if after.selectors.contains s then
    match after.tail with
    | .letter .. => ⟨after.tail, after.selectors.filter (· ≠ s)⟩
    | _ => plain
  else after

/-- The tail that a character joins when none of the selectors suits it. -/
def unselected (after : Following) : Tail :=
  match after.tail, after.selectors with
  | .letter .., _ | _, [] => after.tail
  | _, _ :: _ => .plain

end Following

/-- The columns that a character adds and what the character before it then sees. -/
abbrev Step := Int × Following

/-- A character drawn into the letters after it. -/
def Letter.join? (c : Char) (joiner : Bool) : Letter → Option Step
  | .alef =>
    if isLam c then some (0, .plain)
    else if isTransparent c then some (0, .letter .alef)
    else none
  | l =>
    if c = '\u200d' then some (0, .ofTail (.letter l true))
    else if isSilentMark c then some (0, .ofTail (.letter l joiner))
    else
      match l with
      | .lamed => if joiner && c = '\u05d0' then some (0, .plain) else none
      | .khmer => if c = '\u17d2' then some (-1, .plain) else none
      | .ya => if joiner && c = '\u1a17' then some (0, .letter .vowelYa) else none
      | .vowelYa => if c = '\u1a15' then some (0, .plain) else none
      | .tifinagh =>
        if c = '\u2d7f' then some (1, .letter .joinedTifinagh)
        else if joiner && isTifinagh c then some (0, .plain)
        else none
      | .joinedTifinagh => if isTifinagh c then some (-1, .plain) else none
      | .lisuTone => if inRanges [(0xA4F8, 0xA4FB)] c then some (0, .plain) else none
      | .orkhonI => if joiner && c = Char.ofNat 0x10C32 then some (0, .plain) else none
      | .alef => none

/-- A sign written in one with the vowel sign after it; nothing may come between them. -/
def Vowel.join? (c : Char) : Vowel → Option Step
  | .e =>
    if c = Char.ofNat 0x16D63 || c = Char.ofNat 0x16D69 then some (0, .plain)
    else if c = Char.ofNat 0x16D67 then some (0, .vowel .ai)
    else if c = Char.ofNat 0x16D68 then some (1, .vowel .e)
    else none
  | .ai => if c = Char.ofNat 0x16D63 then some (0, .plain) else none

/-- A character that belongs to the picture after it. Of joined pictures only the last adds
columns; a flag between joiners adds one for a half and takes it back for the other. -/
def Picture.join? (c : Char) : Picture → Option Step
  | .whole => joiner
  | .tone => if takesTone c then some (0, .picture .whole) else joiner
  | .flagHalf => if isFlagHalf c then some (1, .picture .flagHalves) else none
  | .flagHalves => if isFlagHalf c then some (1, .picture .flagHalves) else joiner
  | .joined =>
    if c = '\u20e3' then some (0, .picture .joinedKeycap)
    else if isFlagHalf c then some (1, .picture .joinedFlagHalf)
    else if isTone c then some (0, .picture .tone)
    else if c = Char.ofNat 0xE007F then some (0, .picture (.tagLetters 0))
    else if isPicture c then some (0, .picture .whole)
    else none
  | .joinedKeycap => none
  | .joinedFlagHalf => if isFlagHalf c then some (-1, .picture .joinedFlag) else none
  | .joinedFlag => if isFlagHalf c then some (3, .picture .joinedFlagAndHalf) else joiner
  | .joinedFlagAndHalf => if isFlagHalf c then some (-1, .picture .joinedFlag) else joiner
  | .tagLetters n =>
    if isTagLetter c && n < 6 then some (0, .picture (.tagLetters (n + 1)))
    else if isTagDigit c && n < 5 then some (0, .picture (.tagDigits 1))
    else if isFlag && 3 ≤ n then some (0, .picture .whole)
    else none
  | .tagDigits n =>
    if isTagDigit c && n < 3 then some (0, .picture (.tagDigits (n + 1)))
    else if isFlag && n == 3 then some (0, .picture .whole)
    else none
where
  joiner : Option Step := if c = '\u200d' then some (0, .picture .joined) else none
  isFlag : Bool := c = Char.ofNat 0x1F3F4

/-- A character that nothing after it changes. -/
def Step.alone (c : Char) : Step :=
  match Letter.of? c, Vowel.of? c with
  | some l, _ => (1, .letter l)
  | none, some v => (1, .vowel v)
  | none, none =>
    if isFlagHalf c then (1, .picture .flagHalf)
    else if isTone c then (2, .picture .tone)
    else if isPicture c then (2, .picture .whole)
    else (columns c, .plain)

/-- A character up to the no-break space: controls take a column too, but a line end of two
characters takes only one. -/
def Step.narrow (c : Char) (after : Following) : Step :=
  if c = '\n' then (1, .ofTail .lineFeed)
  else if c = '\r' && after.tail = .lineFeed then (0, .plain)
  else (1, .plain)

/-- A character that no picture selector follows. -/
def Step.joining (c : Char) (after : Following) : Step :=
  match Selector.of? c with
  | some s => (0, after.select s)
  | none =>
    if after.selectors.contains .text && hasTextForm c then (1, .plain)
    else if after.selectors.contains .wide && isQuotationMark c then (2, .plain)
    else
      match after.unselected with
      | .letter l joiner => (l.join? c joiner).getD (alone c)
      | .vowel v => (v.join? c).getD (alone c)
      | .picture p => (p.join? c).getD (alone c)
      | .plain | .lineFeed => alone c
where
  isQuotationMark (c : Char) : Bool := inRanges [(0x2018, 0x2019), (0x201C, 0x201D)] c

/-- The columns that a character adds in front of what follows it. -/
def Step.before (c : Char) (after : Following) : Step :=
  if after.selectors.contains .picture && hasPictureForm c then
    (if isJoined after.tail then 0 else 2, .picture .whole)
  else
    let after := after.without .picture
    if c ≤ '\u00a0' then narrow c after else joining c after
where
  isJoined : Tail → Bool
    | .picture _ => true
    | _ => false

/-- The columns of a text and what the character before it then sees. Pictures, flags and some letters
are drawn as one with what stands right after them, so a text is measured from its end. -/
def measure : List Char → Step
  | [] => (0, .plain)
  | c :: rest =>
    let (total, after) := measure rest
    let (added, before) := Step.before c after
    (added + total, before)

/-- The columns of a text. -/
def width (text : String) : Nat := (measure text.toList).1.toNat

example : width "日e\u0301" = 3 ∧ width "\r\n" = 1 := by decide +kernel
example : width "👍🏽" = 2 ∧ width "👩\u200d💻" = 2 ∧ width "❤" = 1 ∧ width "❤\ufe0f" = 2 := by
  decide +kernel
example : width "\u0644\u0627" = 1 ∧ width "\u0627\u0644" = 2 := by decide +kernel

end Phrasebook.Text
