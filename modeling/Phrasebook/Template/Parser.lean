import Phrasebook.Template
import Phrasebook.Text.Position

namespace Phrasebook

/-- Blanks allowed inside the braces of a placeholder. -/
def isTemplateBlank (c : Char) : Bool :=
  c == ' ' || c == '\t' || c == '\n' || c == '\x0c' || c == '\r'

/-- Characters of a placeholder's name: ASCII letters, digits and the underscore. -/
def isNameChar (c : Char) : Bool :=
  c.isAlphanum || c == '_'

/-- The name and the rest after a placeholder whose opening brace has been read. -/
def placeholder? (cs : List Char) : Option (String × List Char) :=
  match cs.dropWhile isTemplateBlank with
  | '$' :: cs =>
    match cs.takeWhile isNameChar, (cs.dropWhile isNameChar).dropWhile isTemplateBlank with
    | c :: name, '\x7d' :: rest => some (String.ofList (c :: name), rest)
    | _, _ => none
  | _ => none

theorem length_dropWhile_le {α : Type} (p : α → Bool) (xs : List α) :
    (xs.dropWhile p).length ≤ xs.length :=
  (List.dropWhile_suffix p).length_le

theorem length_of_placeholder? {cs rest : List Char} {name : String}
    (h : placeholder? cs = some (name, rest)) : rest.length < cs.length := by
  unfold placeholder? at h
  split at h
  · next ds hds =>
    split at h
    · next hd tl rest' _ hrest =>
      obtain ⟨-, rfl⟩ := Prod.mk.inj (Option.some.inj h)
      have h1 := length_dropWhile_le isTemplateBlank cs
      have h2 := length_dropWhile_le isNameChar ds
      have h3 := length_dropWhile_le isTemplateBlank (ds.dropWhile isNameChar)
      simp only [hds, hrest, List.length_cons] at h1 h2 h3
      omega
    · simp at h
  · simp at h

/-- A segment in front of others; neighbouring literals become one. -/
def Segment.push : Segment → List Segment → List Segment
  | .literal s, .literal t :: segments => .literal (s ++ t) :: segments
  | segment, segments => segment :: segments

namespace Template

/-- The segments up to the first place where no token starts, which is at a brace, and the text from
there on. A token is a doubled brace, a placeholder or any other character but a brace. -/
def scan : List Char → List Segment × List Char
  | [] => ([], [])
  | '\x7b' :: '\x7b' :: cs =>
    let (segments, rest) := scan cs
    ((Segment.literal "\x7b").push segments, rest)
  | '\x7d' :: '\x7d' :: cs =>
    let (segments, rest) := scan cs
    ((Segment.literal "\x7d").push segments, rest)
  | '\x7b' :: cs =>
    match _h : placeholder? cs with
    | some (name, after) =>
      let (segments, rest) := scan after
      ((Segment.placeholder name).push segments, rest)
    | none => ([], '\x7b' :: cs)
  | '\x7d' :: cs => ([], '\x7d' :: cs)
  | c :: cs =>
    let (segments, rest) := scan cs
    ((Segment.literal (String.singleton c)).push segments, rest)
termination_by cs => cs.length
decreasing_by
  all_goals simp only [List.length_cons]
  · omega
  · omega
  · have hlt := length_of_placeholder? _h
    omega
  · omega

/-- Why and where a text is no template. -/
structure Fault where
  position : Text.Position
  found : Char
deriving DecidableEq, Repr

/-- The fault in words, without its place. -/
def Fault.detail (fault : Fault) : String :=
  "unexpected character: '" ++ String.singleton fault.found ++ "'"

def Fault.message (fault : Fault) : String :=
  "syntax error at " ++ Nat.repr fault.position.line ++ ":" ++ Nat.repr fault.position.column
    ++ ": " ++ fault.detail

/-- Reads a whole text as a template. -/
def parse (source : String) : Except Fault Template :=
  let cs := source.toList
  match scan cs with
  | (segments, []) => .ok ⟨segments⟩
  | (_, c :: rest) =>
    .error ⟨Text.Position.after (cs.take (cs.length - (c :: rest).length)), c⟩

end Template

end Phrasebook
