import Phrasebook.Proofs.Render.Content
import Phrasebook.Render.Activation

namespace Phrasebook

/-- A part of a rich tree that is not there to be read, without what is inside. -/
inductive Landmark where
  | anchor (anchor : Anchor)
  | list (kind : ListKind) (labels : List String)
  | overlay (info : DebugInfo)
deriving DecidableEq, Repr

def Landmark.anchor? : Landmark → Option Anchor
  | .anchor a => some a
  | _ => none

namespace RichNode

/-- A node in front of a row; a text joins a text that comes next. -/
def joinFront : RichNode → List RichNode → List RichNode
  | .text s, .text t :: ns => .text (s ++ t) :: ns
  | n, ns => n :: ns

mutual

/-- The node with neighbouring texts in it merged. -/
def merged : RichNode → RichNode
  | .text s => .text s
  | .lineBreak => .lineBreak
  | .mark m children => .mark m (mergedAll children)
  | .anchor href name action children => .anchor href name action (mergedAll children)
  | .item children => .item (mergedAll children)
  | .list kind items => .list kind (mergedItems items)
  | .overlay info shown children => .overlay info shown (mergedAll children)

def mergedAll : List RichNode → List RichNode
  | [] => []
  | n :: ns => joinFront (merged n) (mergedAll ns)

def mergedItems : List (String × List RichNode) → List (String × List RichNode)
  | [] => []
  | (label, children) :: items => (label, mergedAll children) :: mergedItems items

end

mutual

/-- The landmarks of a node, each before those inside it. -/
def landmarks : RichNode → List Landmark
  | .text _ => []
  | .lineBreak => []
  | .mark _ children => landmarksAll children
  | .anchor href name action children => .anchor ⟨href, name, action⟩ :: landmarksAll children
  | .item children => landmarksAll children
  | .list kind items => .list kind (items.map (·.1)) :: landmarksItems items
  | .overlay info _ children => .overlay info :: landmarksAll children

def landmarksAll : List RichNode → List Landmark
  | [] => []
  | n :: ns => landmarks n ++ landmarksAll ns

def landmarksItems : List (String × List RichNode) → List Landmark
  | [] => []
  | (_, children) :: items => landmarksAll children ++ landmarksItems items

end

theorem landmarksAll_append (ns ms : List RichNode) :
    landmarksAll (ns ++ ms) = landmarksAll ns ++ landmarksAll ms := by
  induction ns with
  | nil => rfl
  | cons n ns ih => rw [List.cons_append, landmarksAll, landmarksAll, ih, List.append_assoc]

theorem landmarksItems_mapIdx (label : Nat → String) (rows : List (List RichNode)) :
    landmarksItems (rows.mapIdx fun i row => (label i, row)) = rows.flatMap landmarksAll := by
  induction rows generalizing label with
  | nil => rfl
  | cons row rows ih =>
    rw [List.mapIdx_cons, landmarksItems, ih fun i => label (i + 1), List.flatMap_cons]

mutual

/-- The links are among the landmarks. -/
theorem anchors_eq : ∀ n : RichNode, anchors n = (landmarks n).filterMap Landmark.anchor?
  | .text _ => rfl
  | .lineBreak => rfl
  | .mark _ children => anchorsAll_eq children
  | .anchor .. => by
    rw [anchors, landmarks, List.filterMap_cons_some (by rfl), anchorsAll_eq]
  | .item children => anchorsAll_eq children
  | .list _ items => anchorsItems_eq items
  | .overlay _ _ children => anchorsAll_eq children

theorem anchorsAll_eq : ∀ ns : List RichNode,
    anchorsAll ns = (landmarksAll ns).filterMap Landmark.anchor?
  | [] => rfl
  | n :: ns => by
    rw [anchorsAll, landmarksAll, List.filterMap_append, anchors_eq n, anchorsAll_eq ns]

theorem anchorsItems_eq : ∀ items : List (String × List RichNode),
    anchorsItems items = (landmarksItems items).filterMap Landmark.anchor?
  | [] => rfl
  | (_, children) :: items => by
    rw [anchorsItems, landmarksItems, List.filterMap_append, anchorsAll_eq children,
      anchorsItems_eq items]

end

/-- It makes no difference which texts are joined first. -/
theorem joinFront_text_joinFront (s t : String) (ns : List RichNode) :
    joinFront (.text s) (joinFront (.text t) ns) = joinFront (.text (s ++ t)) ns := by
  cases ns with
  | nil => rfl
  | cons n ns => cases n <;> simp [joinFront, String.append_assoc]

theorem visibleAll_joinFront (n : RichNode) (ns : List RichNode) :
    visibleAll (joinFront n ns) = visible n ++ visibleAll ns := by
  fun_cases joinFront n ns with
  | case1 s t ns => simp [visibleAll, visible, String.append_assoc]
  | case2 => rw [visibleAll]

theorem visibleItem_joinFront (out : String) (n : RichNode) (ns : List RichNode) :
    visibleItem out (joinFront n ns) = visibleItem out (n :: ns) := by
  fun_cases joinFront n ns with
  | case1 s t ns => simp [visibleItem, visible, isList, String.append_assoc]
  | case2 => rfl

theorem landmarksAll_joinFront (n : RichNode) (ns : List RichNode) :
    landmarksAll (joinFront n ns) = landmarks n ++ landmarksAll ns := by
  fun_cases joinFront n ns with
  | case1 s t ns => simp [landmarksAll, landmarks]
  | case2 => rw [landmarksAll]

theorem isList_merged (n : RichNode) : (merged n).isList = n.isList := by
  cases n <;> simp [merged, isList]

theorem labels_merged (items : List (String × List RichNode)) :
    (mergedItems items).map (·.1) = items.map (·.1) := by
  induction items with
  | nil => rfl
  | cons item items ih => rw [mergedItems, List.map_cons, List.map_cons, ih]

mutual

theorem visible_merged : ∀ n : RichNode, visible (merged n) = visible n
  | .text _ => rfl
  | .lineBreak => rfl
  | .mark _ children => visibleAll_merged children
  | .anchor _ _ _ children => visibleAll_merged children
  | .item children => congrArg Line.finish (visibleItem_merged "" children)
  | .list _ items => visibleItems_merged items
  | .overlay _ _ children => visibleAll_merged children

theorem visibleAll_merged : ∀ ns : List RichNode, visibleAll (mergedAll ns) = visibleAll ns
  | [] => rfl
  | n :: ns => by
    rw [mergedAll, visibleAll_joinFront, visible_merged n, visibleAll_merged ns, visibleAll]

theorem visibleItem_merged : ∀ (out : String) (ns : List RichNode),
    visibleItem out (mergedAll ns) = visibleItem out ns
  | _, [] => rfl
  | out, n :: ns => by
    rw [mergedAll, visibleItem_joinFront, visibleItem, isList_merged, visible_merged n,
      visibleItem_merged _ ns, visibleItem]

theorem visibleItems_merged : ∀ items : List (String × List RichNode),
    visibleItems (mergedItems items) = visibleItems items
  | [] => rfl
  | (label, children) :: items => by
    rw [mergedItems, visibleItems, visibleAll_merged children, visibleItems_merged items,
      visibleItems]

end

mutual

theorem landmarks_merged : ∀ n : RichNode, landmarks (merged n) = landmarks n
  | .text _ => rfl
  | .lineBreak => rfl
  | .mark _ children => landmarksAll_merged children
  | .anchor href name action children => by
    rw [merged, landmarks, landmarksAll_merged children, landmarks]
  | .item children => landmarksAll_merged children
  | .list kind items => by
    rw [merged, landmarks, labels_merged, landmarksItems_merged items, landmarks]
  | .overlay info _ children => by
    rw [merged, landmarks, landmarksAll_merged children, landmarks]

theorem landmarksAll_merged : ∀ ns : List RichNode, landmarksAll (mergedAll ns) = landmarksAll ns
  | [] => rfl
  | n :: ns => by
    rw [mergedAll, landmarksAll_joinFront, landmarks_merged n, landmarksAll_merged ns,
      landmarksAll]

theorem landmarksItems_merged : ∀ items : List (String × List RichNode),
    landmarksItems (mergedItems items) = landmarksItems items
  | [] => rfl
  | (_, children) :: items => by
    rw [mergedItems, landmarksItems, landmarksAll_merged children, landmarksItems_merged items,
      landmarksItems]

end

end RichNode

end Phrasebook
