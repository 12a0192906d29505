import Phrasebook.Proofs.Render.Element

namespace Phrasebook

/-- Where in markup a character stands. -/
inductive MarkupPlace where
  | words
  | tag
  | value

/-- What is left of the rest of a markup that goes on at a place. -/
def skim : MarkupPlace → List Char → List Char
  | _, [] => []
  | .words, c :: cs => if c = '<' then c :: skim .tag cs else skim .words cs
  | .tag, c :: cs =>
    if c = '>' then c :: skim .words cs
    else if c = '"' then c :: skim .value cs
    else c :: skim .tag cs
  | .value, c :: cs => if c = '"' then c :: skim .tag cs else skim .value cs

/-- A markup without its words and without the values between its quotes. -/
def skeleton (markup : String) : String := String.ofList (skim .words markup.toList)

theorem skim_words_append {cs : List Char} (h : '<' ∉ cs) (rest : List Char) :
    skim .words (cs ++ rest) = skim .words rest := by
  induction cs with
  | nil => rfl
  | cons c cs ih =>
    have hc : c ≠ '<' := fun he => h (by simp [he])
    have hcs : '<' ∉ cs := fun hm => h (List.mem_cons_of_mem c hm)
    rw [List.cons_append, skim, if_neg hc, ih hcs]

theorem skim_value_append {cs : List Char} (h : '"' ∉ cs) (rest : List Char) :
    skim .value (cs ++ rest) = skim .value rest := by
  induction cs with
  | nil => rfl
  | cons c cs ih =>
    have hc : c ≠ '"' := fun he => h (by simp [he])
    have hcs : '"' ∉ cs := fun hm => h (List.mem_cons_of_mem c hm)
    rw [List.cons_append, skim, if_neg hc, ih hcs]

theorem skim_tag_append {cs : List Char} (h : '>' ∉ cs) (h' : '"' ∉ cs) (rest : List Char) :
    skim .tag (cs ++ rest) = cs ++ skim .tag rest := by
  induction cs with
  | nil => rfl
  | cons c cs ih =>
    have hc : c ≠ '>' := fun he => h (by simp [he])
    have hc' : c ≠ '"' := fun he => h' (by simp [he])
    have hcs : '>' ∉ cs := fun hm => h (List.mem_cons_of_mem c hm)
    have hcs' : '"' ∉ cs := fun hm => h' (List.mem_cons_of_mem c hm)
    rw [List.cons_append, skim, if_neg hc, if_neg hc', ih hcs hcs', List.cons_append]

/-- Escaped characters neither open nor close anything. -/
theorem not_mem_escapedMarkup (c : Char) :
    '<' ∉ (escapedMarkup c).toList ∧ '"' ∉ (escapedMarkup c).toList := by
  fun_cases escapedMarkup c with
  | case1 => decide
  | case2 => decide
  | case3 => decide
  | case4 => decide
  | case5 c hamp hlt hgt hquote =>
    have hlt' : '<' ≠ c := fun h => hlt h.symm
    have hquote' : '"' ≠ c := fun h => hquote h.symm
    simp [hlt', hquote']

theorem quote_not_mem_escapeMarkup (s : String) : '"' ∉ (escapeMarkup s).toList := by
  rw [toList_escapeMarkup, List.mem_flatMap]
  rintro ⟨c, -, h⟩
  exact (not_mem_escapedMarkup c).2 h

theorem toList_markupAttribute (name value : String) :
    (markupAttribute name value).toList =
      (' ' :: (name.toList ++ ['='])) ++ '"' :: ((escapeMarkup value).toList ++ ['"']) := by
  simp [markupAttribute]

/-- Of an attribute all but its value is left. -/
theorem skim_attribute {name : String} (hclose : '>' ∉ name.toList) (hquote : '"' ∉ name.toList)
    (value : String) (rest : List Char) :
    skim .tag ((markupAttribute name value).toList ++ rest) =
      (markupAttribute name "").toList ++ skim .tag rest := by
  have hclose' : '>' ∉ ' ' :: (name.toList ++ ['=']) := by simp [hclose]
  have hquote' : '"' ∉ ' ' :: (name.toList ++ ['=']) := by simp [hquote]
  have hvalue : skim .tag ('"' :: ((escapeMarkup value).toList ++ ['"']) ++ rest) =
      '"' :: '"' :: skim .tag rest := by
    show '"' :: skim .value ((escapeMarkup value).toList ++ ['"'] ++ rest) = _
    rw [List.append_assoc, skim_value_append (quote_not_mem_escapeMarkup value)]
    rfl
  have hempty : (escapeMarkup "").toList = [] := rfl
  rw [toList_markupAttribute, toList_markupAttribute, List.append_assoc,
    skim_tag_append hclose' hquote', hvalue, hempty]
  simp

namespace Head

/-- The head with empty values. -/
def blank : Head → Head
  | .anchor _ name action => .anchor "" (name.map fun _ => "") action
  | .overlay _ => .overlay ⟨"", ""⟩
  | head => head

theorem tag_blank (head : Head) : head.blank.tag = head.tag := by
  cases head <;> rfl

theorem closing_blank (head : Head) : head.blank.closing = head.closing := by
  rw [closing, closing, tag_blank]

theorem not_mem_tag (head : Head) : '>' ∉ head.tag.toList ∧ '"' ∉ head.tag.toList := by
  cases head with
  | mark m => cases m <;> decide
  | anchor => simp [tag]
  | item => simp [tag]
  | list kind => cases kind <;> decide
  | overlay => simp [tag]

theorem skim_attributes (head : Head) (rest : List Char) :
    skim .tag (head.attributes.toList ++ rest) =
      head.blank.attributes.toList ++ skim .tag rest := by
  cases head with
  | mark m => rfl
  | anchor href name action =>
    have haction : ∀ rest, skim .tag
        ((if action = .intercept then " data-intercept" else "").toList ++ rest) =
          (if action = .intercept then " data-intercept" else "").toList ++ skim .tag rest := by
      intro rest
      cases action <;> exact skim_tag_append (by decide) (by decide) rest
    cases name with
    | none => simp [attributes, blank, skim_attribute, haction]
    | some name => simp [attributes, blank, skim_attribute, haction]
  | item => rfl
  | list kind => rfl
  | overlay info => simp [attributes, blank, skim_attribute]

theorem skim_opening (head : Head) (rest : List Char) :
    skim .words (head.opening ++ rest) = head.blank.opening ++ skim .words rest := by
  obtain ⟨hclose, hquote⟩ := head.not_mem_tag
  show '<' :: skim .tag (head.tag.toList ++ (head.attributes.toList ++ ['>']) ++ rest) = _
  rw [List.append_assoc, skim_tag_append hclose hquote, List.append_assoc, skim_attributes,
    opening, tag_blank]
  simp [skim]

theorem skim_closing (head : Head) (rest : List Char) :
    skim .words (head.closing ++ rest) = head.closing ++ skim .words rest := by
  obtain ⟨hclose, hquote⟩ := head.not_mem_tag
  show '<' :: '/' :: skim .tag (head.tag.toList ++ ['>'] ++ rest) = _
  rw [List.append_assoc, skim_tag_append hclose hquote, closing]
  simp [skim]

end Head

namespace Markup

mutual

/-- A piece of markup without letters and values. -/
def blank : Markup → List Markup
  | .letter _ => []
  | .lineBreak => [.lineBreak]
  | .element head children => [.element head.blank (blankAll children)]

def blankAll : List Markup → List Markup
  | [] => []
  | m :: ms => blank m ++ blankAll ms

end

theorem blankAll_append (ms ns : List Markup) :
    blankAll (ms ++ ns) = blankAll ms ++ blankAll ns := by
  induction ms with
  | nil => rfl
  | cons m ms ih => rw [List.cons_append, blankAll, ih, blankAll, List.append_assoc]

mutual

theorem skim_write : ∀ (m : Markup) (rest : List Char),
    skim .words (write m ++ rest) = writeAll (blank m) ++ skim .words rest
  | .letter c, rest => skim_words_append (not_mem_escapedMarkup c).1 rest
  | .lineBreak, rest => by simp [write, writeAll, blank, skim]
  | .element head children, rest => by
    rw [write, List.append_assoc, head.skim_opening, List.append_assoc, skim_writeAll children,
      head.skim_closing, blank, writeAll, write, writeAll, head.closing_blank]
    simp

theorem skim_writeAll : ∀ (ms : List Markup) (rest : List Char),
    skim .words (writeAll ms ++ rest) = writeAll (blankAll ms) ++ skim .words rest
  | [], _ => rfl
  | m :: ms, rest => by
    rw [writeAll, List.append_assoc, skim_write m, skim_writeAll ms, blankAll, writeAll_append,
      List.append_assoc]

end

end Markup

/-- The skeleton of the markup of a rich tree is that of its elements alone. -/
theorem skeleton_markup (ns : List RichNode) :
    skeleton (markup ns) = String.ofList (Markup.writeAll (Markup.blankAll (RichNode.spellAll ns))) := by
  have h := Markup.skim_writeAll (RichNode.spellAll ns) []
  rw [List.append_nil, ← RichNode.toList_markupAll] at h
  rw [skeleton, markup, h]
  simp [skim]

end Phrasebook
