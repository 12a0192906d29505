import Phrasebook.Proofs.Render.Parity

namespace Phrasebook

theorem Node.partsAll_append (say : Node → String) (nested : Bool) (ns ms : List Node) :
    partsAll say nested (ns ++ ms) = partsAll say nested ns ++ partsAll say nested ms := by
  induction ns with
  | nil => rfl
  | cons n ns ih => simp [partsAll, ih]

/-- The items of a rich list, seen one after the other. -/
theorem Rich.visibleItems_mapIdx (p : String → Bool) (label : Nat → String)
    (items : List (List Node)) :
    RichNode.visibleItems
        (((intercepting p).itemOutputs items).mapIdx fun i item => (label i, item)) =
      String.join (items.mapIdx fun i children =>
        label i ++ " " ++ shown p (.item children)) := by
  induction items generalizing label with
  | nil => rfl
  | cons children items ih =>
    rw [Renderer.itemOutputs, List.mapIdx_cons, List.mapIdx_cons, RichNode.visibleItems, ih,
      String.join_cons]
    rfl

/-- Of two beginnings of a text, where the shorter one ends the longer one goes on. -/
theorem next_eq_of_prefixes {s d x z text : List Char} {a c : Char} (h : s ++ a :: x <+: text)
    (k : (s ++ c :: d) ++ z <+: text) : a = c := by
  rw [List.append_assoc] at k
  rcases List.prefix_or_prefix_of_prefix h k with both | both
  · exact (List.cons_prefix_cons.mp ((List.prefix_append_right_inj s).mp both)).1
  · exact (List.cons_prefix_cons.mp ((List.prefix_append_right_inj s).mp both)).1.symm

/-- Two beginnings of a text that go on alike are the same, if this is so in two texts that go on
differently. -/
theorem eq_of_next_ne {s t x y ones others : List Char} {a b : Char} (hab : a ≠ b)
    (hs : s ++ a :: x <+: ones) (ht : t ++ a :: x <+: ones)
    (ks : s ++ b :: y <+: others) (kt : t ++ b :: y <+: others) : s = t := by
  rcases List.prefix_or_prefix_of_prefix ((List.prefix_append s _).trans hs)
      ((List.prefix_append t _).trans ht) with ⟨d, rfl⟩ | ⟨d, rfl⟩
  · cases d with
    | nil => exact (List.append_nil s).symm
    | cons c d =>
      exact absurd ((next_eq_of_prefixes hs ht).trans (next_eq_of_prefixes ks kt).symm) hab
  · cases d with
    | nil => exact List.append_nil t
    | cons c d =>
      exact absurd ((next_eq_of_prefixes ht hs).trans (next_eq_of_prefixes kt ks).symm) hab

/-- The two texts of a row of nodes. -/
inductive Wording where
  /-- Plain output. -/
  | plain
  /-- What a reader of the rich tree sees. -/
  | visible
deriving DecidableEq, Repr

namespace Wording

/-- The text of a row of nodes. -/
def tell : Wording → List Node → String
  | .plain, ns => Plain.render ns
  | .visible, ns => visibleText (Rich.renderer.render ns)

/-- The text of a node by itself. -/
def say : Wording → Node → String
  | .plain => Plain.renderer.node
  | .visible => Rich.shown fun _ => false

/-- Whether lists that texts separate from the item around them break the line. -/
def isDeep : Wording → Bool
  | .plain => false
  | .visible => true

variable (w : Wording)

theorem tell_eq_join (ns : List Node) : w.tell ns = String.join (ns.map w.say) := by
  cases w with
  | plain => exact Plain.render_eq_join ns
  | visible =>
    rw [tell, ← Rich.intercepting_never]
    exact Rich.visibleAll_render _ ns

theorem tell_singleton (n : Node) : w.tell [n] = w.say n := by
  simp [w.tell_eq_join]

/-- Both texts are empty for the same nodes. -/
theorem tell_eq_empty_iff (ns : List Node) : w.tell ns = "" ↔ Plain.render ns = "" := by
  cases w with
  | plain => rfl
  | visible => exact (Rich.render_trails (fun _ => false) ns).eq_empty_iff.symm

theorem opensTexts : Node.OpensTexts w.say := by
  cases w with
  | plain => exact Plain.node_text
  | visible => exact Rich.shown_text _

theorem say_link (href content : String) (children : List Node) (styles : Styles)
    (name : Option String) :
    w.say (.link href content children styles name) =
      content ++ String.join (children.map w.say) := by
  cases w with
  | plain => exact Plain.node_link href content children styles name
  | visible => exact Rich.shown_link _ href content children styles name

theorem say_item (children : List Node) :
    w.say (.item children) =
      Line.finish (ItemPart.lay w.isDeep "" (Node.partsAll w.say false children)) := by
  cases w with
  | plain => exact Plain.node_item children
  | visible => exact Rich.shown_item _ children

/-- A list tells its items one after the other, each after its label and a blank. -/
theorem say_list (kind : ListKind) (items : List (List Node)) :
    w.say (.list kind items) =
      String.join (items.mapIdx fun i children =>
        kind.label i ++ " " ++ w.say (.item children)) := by
  cases w with
  | plain =>
    rw [say, Renderer.node_list]
    exact congrArg String.join (List.ext_getElem (by simp) (by simp))
  | visible =>
    exact (Rich.shown_list _ kind items).trans (Rich.visibleItems_mapIdx _ kind.label items)

/-- What a list tells up to one of its items. -/
theorem prefix_say_list (kind : ListKind) (above : List (List Node)) (children : List Node)
    (below : List (List Node)) :
    (w.say (.list kind above) ++ kind.label above.length ++ " " ++
        w.say (.item children)).toList <+:
      (w.say (.list kind (above ++ children :: below))).toList := by
  rw [say_list, say_list, List.mapIdx_append, List.mapIdx_cons, String.join_append,
    String.join_cons, Nat.zero_add]
  simp only [String.toList_append, List.append_assoc, List.prefix_append_right_inj]
  exact List.prefix_append _ _

end Wording

/-- A place for a node, with all that stands around it, from the place outwards. -/
inductive Hole where
  /-- In the outermost row. -/
  | top (left right : List Node)
  | text (outer : Hole) (content : String) (left right : List Node) (styles : Styles)
  | link (outer : Hole) (href content : String) (left right : List Node) (styles : Styles)
      (name : Option String)
  | item (outer : Hole) (left right : List Node)
  /-- In an item of a list, between the items `above` and `below`. -/
  | entry (outer : Hole) (kind : ListKind) (above : List (List Node)) (left right : List Node)
      (below : List (List Node))

/-- The outermost row once a node stands at the place. -/
def Hole.fill : Hole → Node → List Node
  | .top left right, n => left ++ n :: right
  | .text outer content left right styles, n =>
    outer.fill (.text content (left ++ n :: right) styles)
  | .link outer href content left right styles name, n =>
    outer.fill (.link href content (left ++ n :: right) styles name)
  | .item outer left right, n => outer.fill (.item (left ++ n :: right))
  | .entry outer kind above left right below, n =>
    outer.fill (.list kind (above ++ (left ++ n :: right) :: below))

/-- How far a text has come in front of a place: in running text, or inside an item that shows
`out` so far. -/
inductive Spot where
  | running (before : String)
  | inItem (nested : Bool) (before out : String)

namespace Spot

/-- All that is told so far. -/
def told : Spot → String
  | .running before => before
  | .inItem _ before out => before ++ out

/-- Inside a text that begins here. -/
def inText (content : String) : Spot → Spot
  | .running before => .running (before ++ content)
  | .inItem _ before out => .inItem true before (out ++ content)

variable (w : Wording)

/-- After a row of nodes. -/
def after : Spot → List Node → Spot
  | .running before, ns => .running (before ++ String.join (ns.map w.say))
  | .inItem nested before out, ns =>
    .inItem nested before (ItemPart.lay w.isDeep out (Node.partsAll w.say nested ns))

/-- What is told when a list begins here. -/
def listStart : Spot → String
  | .running before => before
  | .inItem nested before out => before ++ ItemPart.listStart w.isDeep nested out

/-- Inside the next item of a list that begins here, after the items `above`. -/
def inEntry (kind : ListKind) (above : List (List Node)) (spot : Spot) : Spot :=
  .inItem false
    (spot.listStart w ++ w.say (.list kind above) ++ kind.label above.length ++ " ") ""

theorem after_append (spot : Spot) (ns ms : List Node) :
    spot.after w (ns ++ ms) = (spot.after w ns).after w ms := by
  cases spot with
  | running before => simp [after, String.append_assoc]
  | inItem nested before out => simp [after, Node.partsAll_append, ItemPart.lay_append]

/-- Nodes take back nothing of what has been told. -/
theorem told_prefix_after (spot : Spot) (ns : List Node) :
    spot.told.toList <+: (spot.after w ns).told.toList := by
  cases spot with
  | running before => simp [after, told]
  | inItem nested before out =>
    simpa [after, told] using ItemPart.prefix_lay w.isDeep out (Node.partsAll w.say nested ns)

theorem told_after_text (spot : Spot) (content : String) (children : List Node)
    (styles : Styles) :
    (spot.after w [.text content children styles]).told =
      ((spot.inText content).after w children).told := by
  cases spot with
  | running before => simp [after, told, inText, w.opensTexts content, String.append_assoc]
  | inItem nested before out => simp [after, told, inText, Node.partsAll, Node.parts, ItemPart.lay]

theorem told_after_link (spot : Spot) (href content : String) (children : List Node)
    (styles : Styles) (name : Option String) :
    (spot.after w [.link href content children styles name]).told =
      ((Spot.running (spot.told ++ content)).after w children).told := by
  cases spot <;>
    simp [after, told, Node.partsAll, Node.parts, ItemPart.lay, w.say_link, String.append_assoc]

theorem told_after_item (spot : Spot) (children : List Node) :
    (spot.after w [.item children]).told = spot.told ++ w.say (.item children) := by
  cases spot <;> simp [after, told, Node.partsAll, Node.parts, ItemPart.lay, String.append_assoc]

theorem told_after_list (spot : Spot) (kind : ListKind) (items : List (List Node)) :
    (spot.after w [.list kind items]).told = spot.listStart w ++ w.say (.list kind items) := by
  cases spot <;>
    simp [after, told, listStart, Node.partsAll, Node.parts, ItemPart.lay, ItemPart.lay_list,
      String.append_assoc]

/-- An item tells its children after whatever comes in front of it. -/
theorem told_inItem_prefix_item (before : String) (children : List Node) :
    ((Spot.inItem false before "").after w children).told.toList <+:
      (before ++ w.say (.item children)).toList := by
  rw [w.say_item, Line.finish]
  split <;> simp [after, told]

theorem told_inEntry_prefix_after (spot : Spot) (kind : ListKind) (above : List (List Node))
    (children : List Node) (below : List (List Node)) :
    ((spot.inEntry w kind above).after w children).told.toList <+:
      (spot.after w [.list kind (above ++ children :: below)]).told.toList := by
  refine (told_inItem_prefix_item w _ children).trans ?_
  have hlist := w.prefix_say_list kind above children below
  rw [told_after_list]
  simpa only [String.toList_append, List.append_assoc, List.prefix_append_right_inj] using hlist

end Spot

namespace Hole

variable (w : Wording)

/-- How far the text has come in front of the place. -/
def spot : Hole → Spot
  | .top left _ => (Spot.running "").after w left
  | .text outer content left _ _ => (outer.spot.inText content).after w left
  | .link outer _ content left _ _ _ => (Spot.running (outer.spot.told ++ content)).after w left
  | .item outer left _ => (Spot.inItem false outer.spot.told "").after w left
  | .entry outer kind above left _ _ => (outer.spot.inEntry w kind above).after w left

/-- In a row, what comes after a node takes back nothing. -/
theorem told_after_prefix_row (spot : Spot) (left : List Node) (n : Node) (right : List Node) :
    ((spot.after w left).after w [n]).told.toList <+:
      (spot.after w (left ++ n :: right)).told.toList := by
  rw [← Spot.after_append, List.append_cons left n right, Spot.after_append _ _ _ right]
  exact Spot.told_prefix_after w _ right

/-- The text of all nodes begins as the text up to the place and the node there. -/
theorem told_prefix_fill (hole : Hole) (n : Node) :
    ((hole.spot w).after w [n]).told.toList <+: (w.tell (hole.fill n)).toList := by
  induction hole generalizing n with
  | top left right =>
    have hrow := told_after_prefix_row w (Spot.running "") left n right
    have htell : ((Spot.running "").after w (left ++ n :: right)).told =
        w.tell (left ++ n :: right) := by
      rw [w.tell_eq_join]
      exact String.empty_append
    rw [htell] at hrow
    exact hrow
  | text outer content left right styles ih =>
    have hrow := told_after_prefix_row w ((outer.spot w).inText content) left n right
    rw [← Spot.told_after_text] at hrow
    exact hrow.trans (ih _)
  | link outer href content left right styles name ih =>
    have hrow :=
      told_after_prefix_row w (Spot.running ((outer.spot w).told ++ content)) left n right
    rw [← Spot.told_after_link] at hrow
    exact hrow.trans (ih _)
  | item outer left right ih =>
    have hrow := told_after_prefix_row w (Spot.inItem false (outer.spot w).told "") left n right
    have hitem := Spot.told_inItem_prefix_item w (outer.spot w).told (left ++ n :: right)
    rw [← Spot.told_after_item] at hitem
    exact (hrow.trans hitem).trans (ih _)
  | entry outer kind above left right below ih =>
    have hrow := told_after_prefix_row w ((outer.spot w).inEntry w kind above) left n right
    have hentry :=
      Spot.told_inEntry_prefix_after w (outer.spot w) kind above (left ++ n :: right) below
    exact (hrow.trans hentry).trans (ih _)

/-- Whether the text of all nodes begins as `before` and then the text of the list, whatever list
with at least one item stands at the place. -/
def ListBegins (hole : Hole) (before : String) : Prop :=
  ∀ (kind : ListKind) (items : List (List Node)), items ≠ [] →
    (before ++ w.tell [.list kind items]).toList <+: (w.tell (hole.fill (.list kind items))).toList

theorem listBegins_listStart (hole : Hole) : hole.ListBegins w ((hole.spot w).listStart w) := by
  intro kind items _
  rw [w.tell_singleton, ← Spot.told_after_list]
  exact hole.told_prefix_fill w _

/-- A bulleted and a numbered list begin with different characters, so there is only one place
where both begin. -/
theorem ListBegins.eq {hole : Hole} {s t : String} (hs : hole.ListBegins w s)
    (ht : hole.ListBegins w t) : s = t := by
  have bullet : (w.tell [.list .unordered [[]]]).toList = '•' :: [' ', '\n'] := by
    cases w <;> decide
  have number : (w.tell [.list .ordered [[]]]).toList = '1' :: ['.', ' ', '\n'] := by
    cases w <;> decide
  have sul := hs .unordered [[]] (List.cons_ne_nil _ _)
  have tul := ht .unordered [[]] (List.cons_ne_nil _ _)
  have sol := hs .ordered [[]] (List.cons_ne_nil _ _)
  have tol := ht .ordered [[]] (List.cons_ne_nil _ _)
  rw [String.toList_append, bullet] at sul tul
  rw [String.toList_append, number] at sol tol
  exact String.toList_injective (eq_of_next_ne (by decide) sul tul sol tol)

/-- In front of a list in an entry stand the label of the entry and the nodes before the list. -/
theorem exists_listStart_entry (outer : Hole) (kind : ListKind) (above : List (List Node))
    (left right : List Node) (below : List (List Node)) :
    ∃ label, ((Hole.entry outer kind above left right below).spot w).listStart w =
      label ++ " " ++ Line.start (ItemPart.lay w.isDeep "" (Node.partsAll w.say false left)) :=
  ⟨_, rfl⟩

end Hole

/-- A list that stands in an item of another list begins at exactly one place in the text, and
that is the start of a line just if the nodes in front of it in its item show something. -/
theorem nested_list_on_own_line_iff (w : Wording) (outer : Hole) (kind : ListKind)
    (above : List (List Node)) (left right : List Node) (below : List (List Node)) :
    ∃ before, (∀ start, (Hole.entry outer kind above left right below).ListBegins w start ↔
        start = before) ∧
      (Line.isOpen before = false ↔ Plain.render left ≠ "") := by
  refine ⟨((Hole.entry outer kind above left right below).spot w).listStart w, fun start => ?_, ?_⟩
  · constructor
    · exact fun h => h.eq w (Hole.listBegins_listStart w _)
    · rintro rfl
      exact Hole.listBegins_listStart w _
  · obtain ⟨label, hstart⟩ := Hole.exists_listStart_entry w outer kind above left right below
    have hshown : ItemPart.lay w.isDeep "" (Node.partsAll w.say false left) = "" ↔
        Plain.render left = "" := by
      rw [ItemPart.lay_eq_empty_iff, Node.join_partsAll w.opensTexts, ← w.tell_eq_join,
        w.tell_eq_empty_iff]
      exact and_iff_right rfl
    rw [hstart, Ne, ← hshown]
    by_cases hleft : ItemPart.lay w.isDeep "" (Node.partsAll w.say false left) = ""
    · have hopen := Line.isOpen_append_blank label
      simp [hleft, Line.start_eq, hopen]
    · simp [hleft, Line.isOpen_append_start]

/-- Not every list in an item of another list begins on a line of its own: as the first thing in
the item it stands next to the label of the item. -/
theorem not_nested_list_on_own_line :
    (∀ w : Wording, w.tell [.list .unordered [[.list .unordered [[.ofText "b"]]]]] = "• • b\n") ∧
      ∀ w : Wording, ¬ ∀ (outer : Hole) (kind : ListKind) (above : List (List Node))
        (left right : List Node) (below : List (List Node)) (before : String),
        (Hole.entry outer kind above left right below).ListBegins w before →
          Line.isOpen before = false := by
  constructor
  · intro w
    cases w <;> decide
  · intro w h
    have hfirst := h (.top [] []) .unordered [] [] [] [] _ (Hole.listBegins_listStart w _)
    cases w <;> exact absurd hfirst (by decide)

end Phrasebook
