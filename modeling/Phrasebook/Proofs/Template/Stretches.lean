import Mathlib.Data.List.Chain
import Mathlib.Data.List.Forall2
import Phrasebook.Proofs.Except
import Phrasebook.Template.Instance

namespace Phrasebook

namespace Piece

/-- What a segment stands for in a call. -/
inductive Stands (b : Bindings) : Segment → Piece → Prop
  | literal (s : String) : Stands b (.literal s) (.text s)
  | value {name : String} {value : Value} (bound : b.find? name = some value)
      (noFragment : value.isFragment = false) :
      Stands b (.placeholder name) (.text value.display)
  | fragment {name : String} {nodes : List Node} (bound : b.find? name = some (.fragment nodes)) :
      Stands b (.placeholder name) (.fragment nodes)

variable {b : Bindings}

theorem ofSegment_eq_ok_iff {segment : Segment} {piece : Piece} :
    ofSegment b segment = .ok piece ↔ Stands b segment piece := by
  constructor
  · intro h
    cases segment with
    | literal s =>
      cases h
      exact .literal s
    | placeholder name =>
      cases hfind : b.find? name with
      | none =>
        rw [ofSegment, hfind] at h
        cases h
      | some value =>
        rw [ofSegment, hfind] at h
        cases value with
        | fragment nodes =>
          cases h
          exact .fragment hfind
        | text s =>
          cases h
          exact .value hfind rfl
        | number n =>
          cases h
          exact .value hfind rfl
        | float x =>
          cases h
          exact .value hfind rfl
  · intro h
    cases h with
    | literal s => rfl
    | value bound noFragment =>
      rw [ofSegment, bound]
      split
      · next hnone => cases hnone
      · next hfragment =>
        cases hfragment
        cases noFragment
      · next value _ hvalue =>
        cases hvalue
        rfl
    | fragment bound => rw [ofSegment, bound]

theorem ofSegments_eq_ok_iff {segments : List Segment} {pieces : List Piece} :
    ofSegments b segments = .ok pieces ↔ List.Forall₂ (Stands b) segments pieces := by
  induction segments generalizing pieces with
  | nil =>
    rw [ofSegments, List.forall₂_nil_left_iff]
    constructor
    · intro h
      cases h
      rfl
    · rintro rfl
      rfl
  | cons segment segments ih =>
    rw [ofSegments, bind_eq_ok_iff, List.forall₂_cons_left_iff]
    simp only [bind_eq_ok_iff, ofSegment_eq_ok_iff, ih]
    constructor
    · intro h
      obtain ⟨piece, hpiece, rest, hrest, heq⟩ := h
      cases heq
      exact ⟨piece, rest, hpiece, hrest, rfl⟩
    · intro h
      obtain ⟨piece, rest, hpiece, hrest, rfl⟩ := h
      exact ⟨piece, hpiece, rest, hrest, rfl⟩

/-- What a piece shows where only text can stand. -/
def shown : Piece → String
  | .text s => s
  | .fragment _ => ""

/-- What a reader makes of a piece who reads nodes as `say` does. -/
def told (say : Node → String) : Piece → String
  | .text s => s
  | .fragment nodes => String.join (nodes.map say)

end Piece

/-- Pieces that become nodes together: texts that no fragment interrupts, or a fragment. -/
inductive Stretch where
  | run (first : String) (others : List String)
  | fragment (nodes : List Node)

namespace Stretch

def isRun : Stretch → Bool
  | .run _ _ => true
  | .fragment _ => false

/-- The pieces of the stretch. -/
def pieces : Stretch → List Piece
  | .run s ss => .text s :: ss.map .text
  | .fragment nodes => [.fragment nodes]

/-- A run becomes one text with the styles of the owner, a fragment its nodes. -/
def nodes (styles : Styles) : Stretch → List Node
  | .run s ss => [.styled (s ++ String.join ss) styles]
  | .fragment nodes => nodes

/-- No run is next to another one. -/
def Maximal (stretches : List Stretch) : Prop :=
  stretches.IsChain fun a b => ¬ (a.isRun = true ∧ b.isRun = true)

/-- A piece in front of stretches; a text joins the run it meets. -/
def push : Piece → List Stretch → List Stretch
  | .text s, .run t ts :: stretches => .run s (t :: ts) :: stretches
  | .text s, stretches => .run s [] :: stretches
  | .fragment nodes, stretches => .fragment nodes :: stretches

theorem pieces_push (piece : Piece) (stretches : List Stretch) :
    (push piece stretches).flatMap pieces = piece :: stretches.flatMap pieces := by
  unfold push
  split <;> rfl

theorem Maximal.fragment {stretches : List Stretch} (h : Maximal stretches) (nodes : List Node) :
    Maximal (.fragment nodes :: stretches) := by
  cases stretches with
  | nil => exact .singleton _
  | cons next rest => exact .cons_cons (by simp [isRun]) h

theorem Maximal.push {stretches : List Stretch} (h : Maximal stretches) (piece : Piece) :
    Maximal (push piece stretches) := by
  cases piece with
  | fragment nodes => exact h.fragment nodes
  | text s =>
    cases stretches with
    | nil => exact .singleton _
    | cons next rest =>
      cases next with
      | fragment nodes => exact .cons_cons (by simp [isRun]) h
      | run t ts =>
        cases rest with
        | nil => exact .singleton _
        | cons after rest => exact .cons_cons (List.isChain_cons_cons.mp h).1 h.tail

theorem exists_maximal (ps : List Piece) :
    ∃ stretches, ps = stretches.flatMap pieces ∧ Maximal stretches := by
  induction ps with
  | nil => exact ⟨[], rfl, .nil⟩
  | cons piece ps ih =>
    obtain ⟨stretches, hpieces, hmaximal⟩ := ih
    exact ⟨push piece stretches, by rw [pieces_push, hpieces], hmaximal.push piece⟩

end Stretch

namespace Piece

variable (styles : Styles)

theorem spill_texts (s : String) (ss : List String) (pieces : List Piece) :
    spill styles (some s) (ss.map .text ++ pieces) =
      spill styles (some (s ++ String.join ss)) pieces := by
  induction ss generalizing s with
  | nil => simp
  | cons t ss ih =>
    rw [List.map_cons, List.cons_append, spill, ih, Option.getD_some, String.join_cons,
      String.append_assoc]

/-- Behind the first fragment each stretch becomes its nodes. -/
theorem spill_stretches {stretches : List Stretch} (h : Stretch.Maximal stretches) :
    spill styles none (stretches.flatMap Stretch.pieces) =
      stretches.flatMap (Stretch.nodes styles) := by
  induction stretches with
  | nil => rfl
  | cons stretch stretches ih =>
    have hrest := ih h.tail
    cases stretch with
    | fragment nodes =>
      rw [List.flatMap_cons, List.flatMap_cons, ← hrest]
      rfl
    | run s ss =>
      have hrun : spill styles none ((Stretch.run s ss :: stretches).flatMap Stretch.pieces) =
          spill styles (some (s ++ String.join ss)) (stretches.flatMap Stretch.pieces) := by
        rw [List.flatMap_cons, Stretch.pieces, List.cons_append, spill, Option.getD_none,
          String.empty_append, spill_texts]
      rw [hrun, List.flatMap_cons, ← hrest]
      cases stretches with
      | nil => rfl
      | cons next rest =>
        cases next with
        | run t ts => exact absurd ⟨rfl, rfl⟩ (List.isChain_cons_cons.mp h).1
        | fragment nodes => rfl

end Piece

/-- How pieces are shared out between the content of a node and the stretches behind it, which begin
with the first fragment that has nodes. -/
structure Divided (pieces front : List Piece) (stretches : List Stretch) : Prop where
  whole : pieces = front ++ stretches.flatMap Stretch.pieces
  front : ∀ nodes, Piece.fragment nodes ∈ front → nodes = []
  opens : ∀ stretch ∈ stretches.head?, ∃ node nodes, stretch = .fragment (node :: nodes)
  maximal : Stretch.Maximal stretches

theorem exists_divided (pieces : List Piece) :
    ∃ front stretches, Divided pieces front stretches := by
  induction pieces with
  | nil => exact ⟨[], [], rfl, by simp, by simp, .nil⟩
  | cons piece pieces ih =>
    -- Only a fragment that has nodes ends the content.
    have more : (∀ nodes, piece = .fragment nodes → nodes = []) →
        ∃ front stretches, Divided (piece :: pieces) front stretches := by
      intro hpiece
      obtain ⟨front, stretches, hdivided⟩ := ih
      refine ⟨piece :: front, stretches, ?_, ?_, hdivided.opens, hdivided.maximal⟩
      · rw [List.cons_append, ← hdivided.whole]
      · intro nodes hmem
        rcases List.mem_cons.mp hmem with heq | hmem
        · exact hpiece nodes heq.symm
        · exact hdivided.front nodes hmem
    cases piece with
    | text s => exact more (by simp)
    | fragment nodes =>
      cases nodes with
      | nil => exact more (by simp)
      | cons node nodes =>
        obtain ⟨stretches, hpieces, hmaximal⟩ := Stretch.exists_maximal pieces
        refine ⟨[], .fragment (node :: nodes) :: stretches, ?_, by simp, by simp,
          hmaximal.fragment (node :: nodes)⟩
        rw [hpieces]
        rfl

namespace Divided

variable {pieces front : List Piece} {stretches : List Stretch}

theorem lead_front (styles : Styles) (content : String) (rest : List Piece)
    (h : ∀ nodes, Piece.fragment nodes ∈ front → nodes = []) :
    Piece.lead styles content (front ++ rest) =
      Piece.lead styles (content ++ String.join (front.map Piece.shown)) rest := by
  induction front generalizing content with
  | nil => simp
  | cons piece front ih =>
    have htail := fun content => ih content fun nodes hmem => h nodes (List.mem_cons_of_mem _ hmem)
    rw [List.map_cons, String.join_cons, ← String.append_assoc]
    cases piece with
    | text s => exact htail _
    | fragment nodes =>
      obtain rfl := h nodes List.mem_cons_self
      rw [Piece.shown, String.append_empty]
      exact htail _

theorem lead_eq (h : Divided pieces front stretches) (styles : Styles) :
    Piece.lead styles "" pieces =
      (String.join (front.map Piece.shown), stretches.flatMap (Stretch.nodes styles)) := by
  rw [h.whole, lead_front styles "" _ h.front, String.empty_append]
  cases stretches with
  | nil => rfl
  | cons stretch stretches =>
    obtain ⟨node, nodes, rfl⟩ := h.opens stretch rfl
    have hmaximal : Stretch.Maximal stretches := h.maximal.tail
    rw [List.flatMap_cons, List.flatMap_cons, ← Piece.spill_stretches styles hmaximal]
    rfl

/-- The nodes of a stretch tell what its pieces tell. -/
theorem join_nodes {styles : Styles} {say : Node → String} (hsay : ∀ s, say (.styled s styles) = s)
    (stretch : Stretch) :
    String.join ((stretch.nodes styles).map say) =
      String.join (stretch.pieces.map (Piece.told say)) := by
  cases stretch with
  | fragment nodes => simp [Stretch.nodes, Stretch.pieces, Piece.told]
  | run s ss =>
    have htold : (ss.map Piece.text).map (Piece.told say) = ss := by
      rw [List.map_map]
      exact List.map_id ss
    rw [Stretch.nodes, Stretch.pieces, List.map_cons, List.map_cons, htold, List.map_nil, hsay]
    simp [Piece.told]

/-- Read from left to right, the content and the nodes behind it give the pieces in their order, for
every reader who reads a text without children as it is written. -/
theorem told_eq (h : Divided pieces front stretches) {styles : Styles} {say : Node → String}
    (hsay : ∀ s, say (.styled s styles) = s) :
    String.join (front.map Piece.shown) ++
        String.join ((stretches.flatMap (Stretch.nodes styles)).map say) =
      String.join (pieces.map (Piece.told say)) := by
  have hfront : front.map (Piece.told say) = front.map Piece.shown := by
    apply List.map_congr_left
    intro piece hpiece
    cases piece with
    | text s => rfl
    | fragment nodes =>
      obtain rfl := h.front nodes hpiece
      rfl
  have hback : String.join ((stretches.flatMap (Stretch.nodes styles)).map say) =
      String.join ((stretches.flatMap Stretch.pieces).map (Piece.told say)) := by
    clear h
    induction stretches with
    | nil => rfl
    | cons stretch stretches ih =>
      rw [List.flatMap_cons, List.flatMap_cons, List.map_append, List.map_append,
        String.join_append, String.join_append, join_nodes hsay, ih]
  rw [h.whole, List.map_append, String.join_append, hfront, hback]

end Divided

/-- What the segments of a content stand for in a call, and where these pieces go. -/
structure Layout (b : Bindings) (t : Template) where
  pieces : List Piece
  front : List Piece
  stretches : List Stretch
  stands : List.Forall₂ (Piece.Stands b) t.segments pieces
  divided : Divided pieces front stretches

namespace Layout

variable {b : Bindings} {t : Template}

/-- The content of the node. -/
def content (l : Layout b t) : String := String.join (l.front.map Piece.shown)

/-- The children that come before those of the template. -/
def leading (l : Layout b t) (styles : Styles) : List Node :=
  l.stretches.flatMap (Stretch.nodes styles)

end Layout

theorem Template.content_eq_ok_iff {b : Bindings} {t : Template} {styles : Styles}
    {result : String × List Node} :
    t.content styles b = .ok result ↔ ∃ l : Layout b t, result = (l.content, l.leading styles) := by
  rw [Template.content, bind_eq_ok_iff]
  simp only [Piece.ofSegments_eq_ok_iff]
  constructor
  · intro h
    obtain ⟨pieces, hstands, hlead⟩ := h
    obtain ⟨front, stretches, hdivided⟩ := exists_divided pieces
    cases hlead
    exact ⟨⟨pieces, front, stretches, hstands, hdivided⟩, hdivided.lead_eq styles⟩
  · intro h
    obtain ⟨l, rfl⟩ := h
    exact ⟨l.pieces, l.stands, congrArg Except.ok (l.divided.lead_eq styles)⟩

namespace TemplateNode

variable {b : Bindings} {content : Template} {children : List TemplateNode} {styles : Styles}

theorem instantiate_text_eq_ok_iff {node : Node} :
    instantiate b (.text content children styles) = .ok node ↔
      ∃ (l : Layout b content) (own : List Node), instantiateAll b children = .ok own ∧
        node = .text l.content (l.leading styles ++ own) styles := by
  simp only [instantiate, bind_eq_ok_iff, Template.content_eq_ok_iff]
  constructor
  · intro h
    obtain ⟨_, ⟨l, rfl⟩, own, hown, hnode⟩ := h
    cases hnode
    exact ⟨l, own, hown, rfl⟩
  · intro h
    obtain ⟨l, own, hown, rfl⟩ := h
    exact ⟨_, ⟨l, rfl⟩, own, hown, rfl⟩

theorem instantiate_link_eq_ok_iff {href : Template} {name : Option String} {node : Node} :
    instantiate b (.link href content children styles name) = .ok node ↔
      ∃ (target : String) (l : Layout b content) (own : List Node), href.href b = .ok target ∧
        instantiateAll b children = .ok own ∧
        node = .link target l.content (l.leading styles ++ own) styles name := by
  simp only [instantiate, bind_eq_ok_iff, Template.content_eq_ok_iff]
  constructor
  · intro h
    obtain ⟨target, htarget, _, ⟨l, rfl⟩, own, hown, hnode⟩ := h
    cases hnode
    exact ⟨target, l, own, htarget, hown, rfl⟩
  · intro h
    obtain ⟨target, l, own, htarget, hown, rfl⟩ := h
    exact ⟨target, htarget, _, ⟨l, rfl⟩, own, hown, rfl⟩

theorem instantiateAll_eq_ok_iff {b : Bindings} {nodes : List TemplateNode} {own : List Node} :
    instantiateAll b nodes = .ok own ↔
      List.Forall₂ (fun node made => instantiate b node = .ok made) nodes own := by
  induction nodes generalizing own with
  | nil =>
    rw [instantiateAll, List.forall₂_nil_left_iff, Except.ok.injEq, eq_comm]
  | cons node nodes ih =>
    rw [instantiateAll, bind_eq_ok_iff, List.forall₂_cons_left_iff]
    constructor
    · intro h
      obtain ⟨first, hfirst, h⟩ := h
      obtain ⟨others, hothers, h⟩ := bind_eq_ok_iff.mp h
      cases h
      exact ⟨first, others, hfirst, ih.mp hothers, rfl⟩
    · intro h
      obtain ⟨first, others, hfirst, hothers, rfl⟩ := h
      exact ⟨first, hfirst, bind_eq_ok_iff.mpr ⟨others, ih.mpr hothers, rfl⟩⟩

/-- A text or a link whose instance exists keeps its kind, its styles and its name. Its segments are
laid out as content and leading children, followed by the instances of the children, one for one,
and a reader meets each of the pieces once and in order. -/
theorem instantiate_keeps_pieces (b : Bindings) (content : Template)
    (children : List TemplateNode) (styles : Styles) :
    (∀ node, instantiate b (.text content children styles) = .ok node ↔
      ∃ (l : Layout b content) (own : List Node), instantiateAll b children = .ok own ∧
        node = .text l.content (l.leading styles ++ own) styles) ∧
    (∀ href name node, instantiate b (.link href content children styles name) = .ok node ↔
      ∃ (target : String) (l : Layout b content) (own : List Node), href.href b = .ok target ∧
        instantiateAll b children = .ok own ∧
        node = .link target l.content (l.leading styles ++ own) styles name) ∧
    (∀ own, instantiateAll b children = .ok own ↔
      List.Forall₂ (fun child node => instantiate b child = .ok node) children own) ∧
    ∀ (l : Layout b content) (say : Node → String), (∀ s, say (.styled s styles) = s) →
      l.content ++ String.join ((l.leading styles).map say) =
        String.join (l.pieces.map (Piece.told say)) :=
  ⟨fun _ => instantiate_text_eq_ok_iff, fun _ _ _ => instantiate_link_eq_ok_iff,
    fun _ => instantiateAll_eq_ok_iff, fun l _ hsay => l.divided.told_eq hsay⟩

/-- A fragment without nodes leaves the content open, one with nodes ends it. -/
example :
    instantiate (.ofList [("none", .fragment []), ("who", .fragment [.ofText "Bo"])])
        (.text ⟨[.literal "Hi", .placeholder "none", .literal " ", .placeholder "who",
          .literal "!"]⟩ [] .all) =
      .ok (.text "Hi " [.ofText "Bo", .styled "!" .all] .all) := rfl

end TemplateNode

end Phrasebook
