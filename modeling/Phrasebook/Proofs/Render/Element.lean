import Mathlib.Data.List.Basic
import Phrasebook.Render.Markup

namespace Phrasebook

theorem toList_escapeMarkup (s : String) :
    (escapeMarkup s).toList = s.toList.flatMap fun c => (escapedMarkup c).toList := by
  rw [escapeMarkup, String.toList_join, List.flatMap_map]

/-- An element with its attributes. -/
inductive Head where
  | mark (mark : Mark)
  | anchor (href : String) (name : Option String) (action : LinkAction)
  | item
  | list (kind : ListKind)
  | overlay (info : DebugInfo)
deriving DecidableEq

namespace Head

def tag : Head → String
  | .mark m => m.tag
  | .anchor .. => "a"
  | .item => "li"
  | .list kind => kind.tag
  | .overlay _ => "debug"

/-- The attributes as they are written. -/
def attributes : Head → String
  | .anchor href name action =>
    markupAttribute "href" href ++ name.elim "" (markupAttribute "name")
      ++ if action = .intercept then " data-intercept" else ""
  | .overlay info => markupAttribute "group" info.group ++ markupAttribute "key" info.key
  | _ => ""

def opening (head : Head) : List Char :=
  '<' :: (head.tag.toList ++ (head.attributes.toList ++ ['>']))

def closing (head : Head) : List Char := '<' :: '/' :: (head.tag.toList ++ ['>'])

end Head

inductive Markup where
  | letter (c : Char)
  | lineBreak
  | element (head : Head) (children : List Markup)

namespace Markup

mutual

/-- The characters of a piece of markup. -/
def write : Markup → List Char
  | .letter c => (escapedMarkup c).toList
  | .lineBreak => ['<', 'b', 'r', '>']
  | .element head children => head.opening ++ (writeAll children ++ head.closing)

def writeAll : List Markup → List Char
  | [] => []
  | m :: ms => write m ++ writeAll ms

end

theorem writeAll_append (ms ns : List Markup) :
    writeAll (ms ++ ns) = writeAll ms ++ writeAll ns := by
  induction ms with
  | nil => rfl
  | cons m ms ih => rw [List.cons_append, writeAll, ih, writeAll, List.append_assoc]

/-- The letters of a text. -/
def letters (s : String) : List Markup := s.toList.map .letter

theorem writeAll_letters (s : String) : writeAll (letters s) = (escapeMarkup s).toList := by
  rw [letters, toList_escapeMarkup]
  induction s.toList with
  | nil => rfl
  | cons c cs ih => rw [List.map_cons, writeAll, ih, List.flatMap_cons, write]

end Markup

namespace RichNode

mutual

/-- The markup that a node spells. -/
def spell : RichNode → List Markup
  | .text s => Markup.letters s
  | .lineBreak => [.lineBreak]
  | .mark m children => [.element (.mark m) (spellAll children)]
  | .anchor href name action children => [.element (.anchor href name action) (spellAll children)]
  | .item children => [.element .item (spellAll children)]
  | .list kind items => [.element (.list kind) (spellItems items)]
  | .overlay info _ children => [.element (.overlay info) (spellAll children)]

def spellAll : List RichNode → List Markup
  | [] => []
  | n :: ns => spell n ++ spellAll ns

def spellItems : List (String × List RichNode) → List Markup
  | [] => []
  | (_, children) :: items => spellAll children ++ spellItems items

end

theorem spellAll_append (ns ms : List RichNode) :
    spellAll (ns ++ ms) = spellAll ns ++ spellAll ms := by
  induction ns with
  | nil => rfl
  | cons n ns ih => rw [List.cons_append, spellAll, ih, spellAll, List.append_assoc]

/-- Labels are not spelled. -/
theorem spellItems_mapIdx (label : Nat → String) (rows : List (List RichNode)) :
    spellItems (rows.mapIdx fun i row => (label i, row)) = rows.flatMap spellAll := by
  induction rows generalizing label with
  | nil => rfl
  | cons row rows ih =>
    rw [List.mapIdx_cons, spellItems, ih fun i => label (i + 1), List.flatMap_cons]

theorem writeAll_element (head : Head) (children : List Markup) (text : String)
    (h : text.toList = Markup.writeAll children) :
    ("<" ++ head.tag ++ head.attributes ++ ">" ++ text ++ "</" ++ head.tag ++ ">").toList =
      Markup.writeAll [.element head children] := by
  simp [Markup.writeAll, Markup.write, Head.opening, Head.closing, h]

mutual

theorem toList_markup : ∀ n : RichNode, (markup n).toList = Markup.writeAll (spell n)
  | .text s => (Markup.writeAll_letters s).symm
  | .lineBreak => rfl
  | .mark m children => by
    have h := writeAll_element (.mark m) _ _ (toList_markupAll children)
    simpa [markup, spell, Head.tag, Head.attributes] using h
  | .anchor href name action children => by
    have h := writeAll_element (.anchor href name action) _ _ (toList_markupAll children)
    cases name <;> cases action <;> simpa [markup, spell, Head.tag, Head.attributes] using h
  | .item children => by
    have h := writeAll_element .item _ _ (toList_markupAll children)
    simpa [markup, spell, Head.tag, Head.attributes] using h
  | .list kind items => by
    have h := writeAll_element (.list kind) _ _ (toList_markupItems items)
    simpa [markup, spell, Head.tag, Head.attributes] using h
  | .overlay info _ children => by
    have h := writeAll_element (.overlay info) _ _ (toList_markupAll children)
    simpa [markup, spell, Head.tag, Head.attributes] using h

theorem toList_markupAll : ∀ ns : List RichNode,
    (markupAll ns).toList = Markup.writeAll (spellAll ns)
  | [] => rfl
  | n :: ns => by
    rw [markupAll, String.toList_append, toList_markup n, toList_markupAll ns, spellAll,
      Markup.writeAll_append]

theorem toList_markupItems : ∀ items : List (String × List RichNode),
    (markupItems items).toList = Markup.writeAll (spellItems items)
  | [] => rfl
  | (_, children) :: items => by
    rw [markupItems, String.toList_append, toList_markupAll children, toList_markupItems items,
      spellItems, Markup.writeAll_append]

end

end RichNode

end Phrasebook
