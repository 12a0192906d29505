namespace Phrasebook

/-- One inline style. -/
inductive Mark where
  | bold
  | italic
  | underline
  | strikethrough
  | superscript
  | subscript
deriving DecidableEq, Repr

namespace Mark

/-- Nesting order, innermost first. -/
def order : List Mark :=
  [.bold, .italic, .underline, .strikethrough, .superscript, .subscript]

/-- The element name in markup. -/
def tag : Mark → String
  | .bold => "b"
  | .italic => "i"
  | .underline => "u"
  | .strikethrough => "s"
  | .superscript => "sup"
  | .subscript => "sub"

/-- The name in documents. -/
def name : Mark → String
  | .bold => "bold"
  | .italic => "italic"
  | .underline => "underline"
  | .strikethrough => "strikethrough"
  | .superscript => "superscript"
  | .subscript => "subscript"

/-- The mark with a given document name. -/
def ofName? (s : String) : Option Mark :=
  order.find? (·.name == s)

theorem mem_order (m : Mark) : m ∈ order := by cases m <;> decide

end Mark

/-- The marks a text or link carries. -/
structure Styles where
  bold : Bool := false
  italic : Bool := false
  underline : Bool := false
  strikethrough : Bool := false
  superscript : Bool := false
  subscript : Bool := false
deriving DecidableEq, Repr

namespace Styles

def plain : Styles := {}

def all : Styles := ⟨true, true, true, true, true, true⟩

/-- Switches one mark on or off. -/
def set (s : Styles) (m : Mark) (on : Bool) : Styles :=
  match m with
  | .bold => { s with bold := on }
  | .italic => { s with italic := on }
  | .underline => { s with underline := on }
  | .strikethrough => { s with strikethrough := on }
  | .superscript => { s with superscript := on }
  | .subscript => { s with subscript := on }

/-- The same styles with `m` switched on. -/
def add (s : Styles) (m : Mark) : Styles := s.set m true

def has (s : Styles) : Mark → Bool
  | .bold => s.bold
  | .italic => s.italic
  | .underline => s.underline
  | .strikethrough => s.strikethrough
  | .superscript => s.superscript
  | .subscript => s.subscript

/-- The marks switched on, innermost first. -/
def marks (s : Styles) : List Mark := Mark.order.filter s.has

def isPlain (s : Styles) : Bool := s == plain

theorem has_set (s : Styles) (m n : Mark) (on : Bool) :
    (s.set m on).has n = if n = m then on else s.has n := by
  cases m <;> cases n <;> rfl

theorem mem_marks {s : Styles} {m : Mark} : m ∈ s.marks ↔ s.has m = true := by
  simp [marks, Mark.mem_order]

end Styles

end Phrasebook
