import Phrasebook.Proofs.Render.Skeleton
import Phrasebook.Proofs.Template.Run

namespace Phrasebook

theorem toList_escapedMarkup (c : Char) :
    (escapedMarkup c).toList =
      if c = '&' then ['&', 'a', 'm', 'p', ';']
      else if c = '<' then ['&', 'l', 't', ';']
      else if c = '>' then ['&', 'g', 't', ';']
      else if c = '"' then ['&', 'q', 'u', 'o', 't', ';']
      else [c] := by
  fun_cases escapedMarkup c with
  | case1 => decide
  | case2 => decide
  | case3 => decide
  | case4 => decide
  | case5 c hamp hlt hgt hquote =>
    rw [if_neg hamp, if_neg hlt, if_neg hgt, if_neg hquote]
    simp

/-- No escaped character begins another one. -/
theorem escapedMarkup_append_inj {c d : Char} {cs ds : List Char}
    (h : (escapedMarkup c).toList ++ cs = (escapedMarkup d).toList ++ ds) : c = d ∧ cs = ds := by
  rw [toList_escapedMarkup, toList_escapedMarkup] at h
  split_ifs at h <;> simp_all <;> grind

/-- Escaped characters do not begin as tags do. -/
theorem exists_toList_escapedMarkup (c : Char) :
    ∃ d ds, (escapedMarkup c).toList = d :: ds ∧ d ≠ '<' := by
  obtain ⟨d, ds, h⟩ : ∃ d ds, (escapedMarkup c).toList = d :: ds := by
    rw [toList_escapedMarkup]
    split_ifs <;> simp
  refine ⟨d, ds, h, ?_⟩
  rintro rfl
  exact (not_mem_escapedMarkup c).1 (by simp [h])

theorem escapeMarkup_injective : Function.Injective escapeMarkup := by
  intro s t h
  have hlists := congrArg String.toList h
  rw [toList_escapeMarkup, toList_escapeMarkup] at hlists
  apply String.toList_inj.mp
  generalize s.toList = cs at hlists ⊢
  generalize t.toList = ds at hlists ⊢
  induction cs generalizing ds with
  | nil =>
    cases ds with
    | nil => rfl
    | cons d ds =>
      rw [List.flatMap_nil, List.flatMap_cons] at hlists
      obtain ⟨e, es, he, -⟩ := exists_toList_escapedMarkup d
      simp [he] at hlists
  | cons c cs ih =>
    cases ds with
    | nil =>
      rw [List.flatMap_nil, List.flatMap_cons] at hlists
      obtain ⟨e, es, he, -⟩ := exists_toList_escapedMarkup c
      simp [he] at hlists
    | cons d ds =>
      rw [List.flatMap_cons, List.flatMap_cons] at hlists
      obtain ⟨rfl, hrest⟩ := escapedMarkup_append_inj hlists
      rw [ih ds hrest]

/-- A value ends at the next quote. -/
theorem markupAttribute_append_inj {name s t : String} {cs ds : List Char}
    (h : (markupAttribute name s).toList ++ cs = (markupAttribute name t).toList ++ ds) :
    s = t ∧ cs = ds := by
  have hvalue : (escapeMarkup s).toList ++ '"' :: cs = (escapeMarkup t).toList ++ '"' :: ds := by
    simpa [toList_markupAttribute] using h
  have hno : ∀ u : String, ∀ c ∈ (escapeMarkup u).toList, (c != '"') = true := by
    intro u c hc
    simpa using fun heq : c = '"' => quote_not_mem_escapeMarkup u (heq ▸ hc)
  obtain ⟨hs, hrest⟩ := run_append_inj (hno s) (hno t) (by simp) (by simp) hvalue
  exact ⟨escapeMarkup_injective (String.toList_inj.mp hs), (List.cons.inj hrest).2⟩

namespace Head

/-- Tags have no character that ends a tag. -/
theorem tag_chars (head : Head) : ∀ c ∈ head.tag.toList, (c != ' ' && c != '>') = true := by
  cases head with
  | mark m => cases m <;> simp [tag, Mark.tag]
  | anchor => simp [tag]
  | item => simp [tag]
  | list kind => cases kind <;> simp [tag, ListKind.tag]
  | overlay => simp [tag]

/-- Attributes, if there are any, begin with a blank. -/
theorem head?_attributes (head : Head) (rest : List Char) :
    ∀ c ∈ (head.attributes.toList ++ '>' :: rest).head?, (c != ' ' && c != '>') = false := by
  cases head with
  | anchor href name action => simp [attributes, toList_markupAttribute]
  | overlay info => simp [attributes, toList_markupAttribute]
  | mark | item | list => simp [attributes]

theorem anchor_attributes_append_inj {href href' : String} {name name' : Option String}
    {action action' : LinkAction} {cs ds : List Char}
    (h : (anchor href name action).attributes.toList ++ '>' :: cs =
      (anchor href' name' action').attributes.toList ++ '>' :: ds) :
    anchor href name action = anchor href' name' action' ∧ cs = ds := by
  have hactions : ∀ {cs ds : List Char},
      (if action = .intercept then " data-intercept" else "").toList ++ '>' :: cs =
        (if action' = .intercept then " data-intercept" else "").toList ++ '>' :: ds →
      action = action' ∧ cs = ds := by
    intro cs ds h
    cases action <;> cases action' <;> simp_all
  simp only [attributes, String.toList_append, List.append_assoc] at h
  obtain ⟨hhref, hname⟩ := markupAttribute_append_inj h
  cases name with
  | none =>
    cases name' with
    | none =>
      obtain ⟨haction, hrest⟩ := hactions hname
      exact ⟨by rw [hhref, haction], hrest⟩
    | some t => cases action <;> simp [toList_markupAttribute] at hname
  | some s =>
    cases name' with
    | none => cases action' <;> simp [toList_markupAttribute] at hname
    | some t =>
      obtain ⟨hst, hactionRest⟩ := markupAttribute_append_inj hname
      obtain ⟨haction, hrest⟩ := hactions hactionRest
      exact ⟨by rw [hhref, hst, haction], hrest⟩

theorem overlay_attributes_append_inj {info info' : DebugInfo} {cs ds : List Char}
    (h : (overlay info).attributes.toList ++ '>' :: cs =
      (overlay info').attributes.toList ++ '>' :: ds) :
    overlay info = overlay info' ∧ cs = ds := by
  obtain ⟨group, key⟩ := info
  obtain ⟨group', key'⟩ := info'
  simp only [attributes, String.toList_append, List.append_assoc] at h
  obtain ⟨hgroup, hkeyRest⟩ := markupAttribute_append_inj h
  obtain ⟨hkey, hrest⟩ := markupAttribute_append_inj hkeyRest
  exact ⟨by rw [hgroup, hkey], (List.cons.inj hrest).2⟩

/-- The head without what its attributes say. -/
def stripped : Head → Head
  | .anchor .. => .anchor "" none .navigate
  | .overlay _ => .overlay ⟨"", ""⟩
  | head => head

/-- The heads without attributes. -/
def forms : List Head :=
  Mark.order.map .mark ++
    [.anchor "" none .navigate, .item, .list .unordered, .list .ordered, .overlay ⟨"", ""⟩]

theorem find?_tag (head : Head) : forms.find? (·.tag == head.tag) = some head.stripped := by
  cases head with
  | mark m => cases m <;> rfl
  | anchor => rfl
  | item => rfl
  | list kind => cases kind <;> rfl
  | overlay => rfl

theorem stripped_eq_of_tag_eq {head head' : Head} (h : head.tag = head'.tag) :
    head.stripped = head'.stripped := by
  have hfind := head.find?_tag
  rw [h, find?_tag] at hfind
  exact (Option.some.inj hfind).symm

/-- An opening tag with its attributes tells the element. -/
theorem opening_append_inj {head head' : Head} {cs ds : List Char}
    (h : head.opening ++ cs = head'.opening ++ ds) : head = head' ∧ cs = ds := by
  have hopening : head.tag.toList ++ (head.attributes.toList ++ '>' :: cs) =
      head'.tag.toList ++ (head'.attributes.toList ++ '>' :: ds) := by
    simpa [opening] using h
  obtain ⟨htag, hrest⟩ := run_append_inj head.tag_chars head'.tag_chars
    (head.head?_attributes cs) (head'.head?_attributes ds) hopening
  -- the tag tells the kind of the head, the attributes tell the rest
  have hstripped := stripped_eq_of_tag_eq (String.toList_inj.mp htag)
  cases head <;> cases head' <;> cases hstripped
  case mark => exact ⟨rfl, (List.cons.inj hrest).2⟩
  case anchor => exact anchor_attributes_append_inj hrest
  case item => exact ⟨rfl, (List.cons.inj hrest).2⟩
  case list => exact ⟨rfl, (List.cons.inj hrest).2⟩
  case overlay => exact overlay_attributes_append_inj hrest

/-- An opening does not go on as a closing tag does. -/
theorem exists_toList_tag (head : Head) : ∃ c cs, head.tag.toList = c :: cs ∧ c ≠ '/' := by
  cases head with
  | mark m => cases m <;> exact ⟨_, _, rfl, by decide⟩
  | anchor => simp [tag]
  | item => simp [tag]
  | list kind => cases kind <;> exact ⟨_, _, rfl, by decide⟩
  | overlay => simp [tag]

theorem break_append_ne_opening (head : Head) (cs ds : List Char) :
    ['<', 'b', 'r', '>'] ++ cs ≠ head.opening ++ ds := by
  intro h
  have hopening : ['b', 'r'] ++ '>' :: cs =
      head.tag.toList ++ (head.attributes.toList ++ '>' :: ds) := by
    simpa [opening] using h
  obtain ⟨htag, -⟩ := run_append_inj (p := fun c => c != ' ' && c != '>') (by simp)
    head.tag_chars (by simp) (head.head?_attributes ds) hopening
  have hfind := head.find?_tag
  rw [← String.toList_inj.mp (show "br".toList = _ from htag)] at hfind
  exact absurd hfind (by simp [show forms.find? (·.tag == "br") = none from rfl])

end Head

namespace Markup

/-- Where a row of children can end: at the end of the markup, or in front of a closing tag. -/
def Ends (cs : List Char) : Prop := cs = [] ∨ ∃ ds, cs = '<' :: '/' :: ds

theorem not_ends_write (m : Markup) (rest : List Char) : ¬ Ends (write m ++ rest) := by
  cases m with
  | letter c =>
    obtain ⟨d, ds, h, hd⟩ := exists_toList_escapedMarkup c
    simp [Ends, write, h, hd]
  | lineBreak => simp [Ends, write]
  | element head children =>
    obtain ⟨c, cs, h, hc⟩ := head.exists_toList_tag
    simp [Ends, write, Head.opening, h, hc]

theorem letter_append_ne {c : Char} {cs ds : List Char} :
    write (.letter c) ++ cs ≠ '<' :: ds := by
  obtain ⟨d, es, h, hd⟩ := exists_toList_escapedMarkup c
  simp [write, h, hd]

mutual

theorem write_append_inj : ∀ (m n : Markup) {cs ds : List Char},
    write m ++ cs = write n ++ ds → m = n ∧ cs = ds
  | .letter c, .letter d, _, _, h => by
    obtain ⟨rfl, hrest⟩ := escapedMarkup_append_inj h
    exact ⟨rfl, hrest⟩
  | .letter _, .lineBreak, _, _, h => absurd h letter_append_ne
  | .letter _, .element .., _, _, h => absurd h letter_append_ne
  | .lineBreak, .letter _, _, _, h => absurd h.symm letter_append_ne
  | .lineBreak, .lineBreak, _, _, h => ⟨rfl, List.append_cancel_left h⟩
  | .lineBreak, .element head _, _, _, h => by
    rw [write, write, List.append_assoc] at h
    exact absurd h (head.break_append_ne_opening _ _)
  | .element .., .letter _, _, _, h => absurd h.symm letter_append_ne
  | .element head _, .lineBreak, _, _, h => by
    rw [write, write, List.append_assoc] at h
    exact absurd h.symm (head.break_append_ne_opening _ _)
  | .element head children, .element head' children', _, _, h => by
    rw [write, write, List.append_assoc, List.append_assoc head'.opening] at h
    obtain ⟨rfl, hinside⟩ := Head.opening_append_inj h
    -- what follows the children of either element is the closing tag of the one head
    rw [List.append_assoc, List.append_assoc (writeAll children')] at hinside
    obtain ⟨rfl, hclosing⟩ := writeAll_append_inj children children' (.inr ⟨_, rfl⟩)
      (.inr ⟨_, rfl⟩) hinside
    exact ⟨rfl, (List.append_right_inj head.closing).mp hclosing⟩

/-- Rows of children that end where children can end. -/
theorem writeAll_append_inj : ∀ (ms ns : List Markup) {cs ds : List Char}, Ends cs → Ends ds →
    writeAll ms ++ cs = writeAll ns ++ ds → ms = ns ∧ cs = ds
  | [], [], _, _, _, _, h => ⟨rfl, h⟩
  | [], n :: ns, _, _, hcs, _, h => by
    rw [writeAll, writeAll, List.nil_append, List.append_assoc] at h
    exact absurd (h ▸ hcs) (not_ends_write n _)
  | m :: ms, [], _, _, _, hds, h => by
    rw [writeAll, writeAll, List.nil_append, List.append_assoc] at h
    exact absurd (h ▸ hds) (not_ends_write m _)
  | m :: ms, n :: ns, _, _, hcs, hds, h => by
    rw [writeAll, writeAll, List.append_assoc, List.append_assoc] at h
    obtain ⟨rfl, hrest⟩ := write_append_inj m n h
    obtain ⟨rfl, hends⟩ := writeAll_append_inj ms ns hcs hds hrest
    exact ⟨rfl, hends⟩

end

theorem writeAll_injective : Function.Injective writeAll := by
  intro ms ns h
  have hends : writeAll ms ++ [] = writeAll ns ++ [] := by rw [h]
  exact (writeAll_append_inj ms ns (.inl rfl) (.inl rfl) hends).1

end Markup

/-- Trees with one markup spell the same. -/
theorem spellAll_eq_of_markup_eq {ns ms : List RichNode} (h : markup ns = markup ms) :
    RichNode.spellAll ns = RichNode.spellAll ms := by
  have hlists := congrArg String.toList h
  rw [markup, markup, RichNode.toList_markupAll, RichNode.toList_markupAll] at hlists
  exact Markup.writeAll_injective hlists

end Phrasebook
