import Phrasebook.Template.Parser

namespace Phrasebook

namespace Attempt

/-- How an attempt ends. What is refused may be tried in another way, what breaks off may not. -/
inductive Ending (α : Type) where
  | taken (value : α)
  | refused
  | broken
deriving DecidableEq, Repr

def Ending.map {α β : Type} (f : α → β) : Ending α → Ending β
  | .taken value => .taken (f value)
  | .refused => .refused
  | .broken => .broken

end Attempt

/-- An attempt to read. The second part of what it gives is the text it has not gone over. -/
abbrev Attempt (α : Type) := List Char → Attempt.Ending α × List Char

namespace Attempt

variable {α β : Type}

/-- A fixed word. -/
def word (w : List Char) : Attempt Unit := fun cs =>
  if w.isPrefixOf cs then (.taken (), cs.drop w.length) else (.refused, cs)

/-- A character of a class. -/
def char (p : Char → Bool) : Attempt Char
  | [] => (.refused, [])
  | c :: cs => if p c then (.taken c, cs) else (.refused, c :: cs)

/-- All characters of a class up to the first other one. -/
def run (p : Char → Bool) : Attempt (List Char) := fun cs =>
  (.taken (cs.takeWhile p), cs.dropWhile p)

/-- The same, but at least one. -/
def runOfSome (p : Char → Bool) : Attempt (List Char) := fun cs =>
  if (cs.takeWhile p).isEmpty then (.refused, cs) else (.taken (cs.takeWhile p), cs.dropWhile p)

/-- One attempt after the other. If the second is refused, what the first took stays taken. -/
def andThen (a : Attempt α) (next : α → Attempt β) : Attempt β := fun cs =>
  match a cs with
  | (.taken value, rest) => next value rest
  | (.refused, rest) => (.refused, rest)
  | (.broken, rest) => (.broken, rest)

def map (f : α → β) (a : Attempt α) : Attempt β := fun cs => ((a cs).1.map f, (a cs).2)

/-- The second attempt begins where the first began. -/
def orElse (a b : Attempt α) : Attempt α := fun cs =>
  match a cs with
  | (.taken value, rest) => (.taken value, rest)
  | (.refused, _) => b cs
  | (.broken, rest) => (.broken, rest)

/-- The attempt again and again. It goes back to where the refused one began, and breaks off where an
attempt takes nothing. -/
def repeated (a : Attempt α) (cs : List Char) : Ending (List α) × List Char :=
  match a cs with
  | (.taken value, rest) =>
    if rest.length < cs.length then
      let (ending, last) := repeated a rest
      (ending.map (value :: ·), last)
    else (.broken, rest)
  | (.refused, _) => (.taken [], cs)
  | (.broken, rest) => (.broken, rest)
termination_by cs.length

end Attempt

namespace Segment

open Attempt

/-- A doubled brace. -/
def escaped : Attempt Segment :=
  ((word ['\x7b', '\x7b']).map fun _ => .literal "\x7b").orElse
    ((word ['\x7d', '\x7d']).map fun _ => .literal "\x7d")

/-- A name after a dollar sign between braces, with blanks inside these. -/
def interpolated : Attempt Segment :=
  (char (· == '\x7b')).andThen fun _ =>
  (run isTemplateBlank).andThen fun _ =>
  (char (· == '$')).andThen fun _ =>
  (runOfSome isNameChar).andThen fun name =>
  (run isTemplateBlank).andThen fun _ =>
  (char (· == '\x7d')).map fun _ => .placeholder (String.ofList name)

/-- A character that is no brace. -/
def unbraced : Attempt Segment :=
  (char fun c => c != '\x7b' && c != '\x7d').map fun c => .literal (String.singleton c)

def attempt : Attempt Segment := escaped.orElse (interpolated.orElse unbraced)

end Segment

end Phrasebook
