import Phrasebook.Node.Json
import Phrasebook.Proofs.Except
import Phrasebook.Proofs.Json.Nesting

namespace Phrasebook

open Json

namespace Node

mutual

/-- The greatest number of nodes inside each other. The items of a list count as nodes. -/
def height : Node → Nat
  | .text _ children _ => heightAll children + 1
  | .link _ _ children _ _ => heightAll children + 1
  | .item children => heightAll children + 1
  | .list _ items => heightItems items + 1

def heightAll : List Node → Nat
  | [] => 0
  | node :: nodes => max (height node) (heightAll nodes)

def heightItems : List (List Node) → Nat
  | [] => 0
  | children :: items => max (heightAll children + 1) (heightItems items)

end

theorem nestingPairs_nameMember (name : Option String) :
    Content.nestingPairs (nameMember name) = 0 := by
  cases name <;> rfl

theorem nesting_styles (styles : Styles) : styles.toContent.nesting = 1 := rfl

open Content

mutual

theorem nesting_toContent : ∀ node : Node, node.toContent.nesting = 2 * node.height
  | .text content children styles => by
    have hchildren := nestingAll_toContents children
    rw [toContent, height]
    simp only [nesting, nestingPairs, nesting_styles, hchildren]
    omega
  | .link href content children styles name => by
    have hchildren := nestingAll_toContents children
    rw [toContent, height]
    simp only [nesting, nestingPairs_append, nestingPairs_nameMember, nestingPairs, nesting_styles,
      hchildren]
    omega
  | .item children => by
    have hchildren := nestingAll_toContents children
    rw [toContent, height]
    simp only [nesting, nestingPairs, hchildren]
    omega
  | .list kind items => by
    have hitems := nestingAll_entriesToContents items
    rw [toContent, height]
    simp only [nesting, nestingPairs, hitems]
    omega

theorem nestingAll_toContents : ∀ nodes : List Node,
    nestingAll (toContents nodes) = 2 * heightAll nodes
  | [] => rfl
  | node :: nodes => by
    have hnode := nesting_toContent node
    have hnodes := nestingAll_toContents nodes
    rw [toContents, nestingAll, heightAll]
    omega

theorem nestingAll_entriesToContents : ∀ items : List (List Node),
    nestingAll (entriesToContents items) = 2 * heightItems items
  | [] => rfl
  | children :: items => by
    have hchildren := nestingAll_toContents children
    have hitems := nestingAll_entriesToContents items
    rw [entriesToContents, nestingAll, heightItems]
    simp only [nesting, nestingPairs]
    omega

end

/-- The height of the children of a node with this tag. -/
def childrenHeight (tag : Tag) (nodes : List Node) : Nat :=
  match tag with
  | .list _ => heightItems (nodes.map entryChildren)
  | _ => heightAll nodes

theorem childrenHeight_empty_le (tag : Tag) (n : Nat) :
    2 * childrenHeight tag Draft.empty.getChildren ≤ n := by
  cases tag <;> exact Nat.zero_le n

theorem height_of_ofDraft {tag : Tag} {d : Draft Node} {node : Node}
    (h : ofDraft tag d = .ok node) : node.height = childrenHeight tag d.getChildren + 1 := by
  cases tag with
  | link =>
    rw [ofDraft] at h
    cases hhref : d.href with
    | none =>
      rw [hhref] at h
      cases h
    | some href =>
      rw [hhref] at h
      cases h
      rfl
  | _ =>
    cases h
    rfl

theorem entryChildren_of_ofDraft {d : Draft Node} {node : Node} (h : ofDraft .item d = .ok node) :
    entryChildren node = d.getChildren := by
  cases h
  rfl

theorem getChildren_set {d d' : Draft Node} {member : String} {value : Content}
    (h : d.set member value = .ok d') : d'.getChildren = d.getChildren := by
  simp only [Draft.set] at h
  split at h
  · obtain ⟨_, -, h⟩ := bind_eq_ok_iff.mp h
    cases h
    rfl
  · obtain ⟨_, -, h⟩ := bind_eq_ok_iff.mp h
    cases h
    rfl
  · obtain ⟨_, -, h⟩ := bind_eq_ok_iff.mp h
    cases h
    rfl
  · obtain ⟨_, -, h⟩ := bind_eq_ok_iff.mp h
    cases h
    rfl
  · cases h
    rfl

mutual

theorem height_of_ofContent : ∀ (v : Content) {node : Node}, ofContent v = .ok node →
    2 * node.height ≤ v.nesting + 1
  | .map members, node, h => by
    rw [ofContent] at h
    obtain ⟨tag, -, h⟩ := bind_eq_ok_iff.mp h
    obtain ⟨d, hmembers, h⟩ := bind_eq_ok_iff.mp h
    have hchildren : 2 * childrenHeight tag d.getChildren ≤ nestingPairs members :=
      height_of_setMembers members hmembers (childrenHeight_empty_le tag _) (Nat.le_refl _)
    rw [height_of_ofDraft h, nesting]
    omega
  | .seq (tagged :: items), node, h => by
    rw [ofContent] at h
    obtain ⟨tag, -, h⟩ := bind_eq_ok_iff.mp h
    obtain ⟨d, hitems, h⟩ := bind_eq_ok_iff.mp h
    have hchildren : 2 * childrenHeight tag d.getChildren ≤ nestingAll items :=
      height_of_setItems items hitems (childrenHeight_empty_le tag _) (Nat.le_refl _)
    rw [height_of_ofDraft h, nesting, nestingAll]
    omega
  | .seq [], node, h => by cases h
  | .null, node, h => by cases h
  | .bool _, node, h => by cases h
  | .integer _, node, h => by cases h
  | .float _, node, h => by cases h
  | .string _, node, h => by cases h

theorem height_of_ofContents : ∀ (vs : List Content) {nodes : List Node},
    ofContents vs = .ok nodes → 2 * heightAll nodes ≤ nestingAll vs + 1
  | [], nodes, h => by
    cases h
    exact Nat.zero_le _
  | v :: vs, nodes, h => by
    rw [ofContents] at h
    obtain ⟨node, hnode, h⟩ := bind_eq_ok_iff.mp h
    obtain ⟨others, hothers, h⟩ := bind_eq_ok_iff.mp h
    cases h
    have hv := height_of_ofContent v hnode
    have hvs := height_of_ofContents vs hothers
    rw [heightAll, nestingAll]
    omega

theorem height_of_ofEntry : ∀ (v : Content) {node : Node}, ofEntry v = .ok node →
    2 * (heightAll (entryChildren node) + 1) ≤ v.nesting + 1
  | .map members, node, h => by
    rw [ofEntry] at h
    obtain ⟨d, hmembers, h⟩ := bind_eq_ok_iff.mp h
    have hchildren : 2 * heightAll d.getChildren ≤ nestingPairs members :=
      height_of_setMembers members hmembers (Nat.zero_le _) (Nat.le_refl _)
    rw [entryChildren_of_ofDraft h, nesting]
    omega
  | .seq items, node, h => by
    rw [ofEntry] at h
    obtain ⟨d, hitems, h⟩ := bind_eq_ok_iff.mp h
    have hchildren : 2 * heightAll d.getChildren ≤ nestingAll items :=
      height_of_setItems items hitems (Nat.zero_le _) (Nat.le_refl _)
    rw [entryChildren_of_ofDraft h, nesting]
    omega
  | .null, node, h => by cases h
  | .bool _, node, h => by cases h
  | .integer _, node, h => by cases h
  | .float _, node, h => by cases h
  | .string _, node, h => by cases h

theorem height_of_ofEntries : ∀ (vs : List Content) {nodes : List Node},
    ofEntries vs = .ok nodes → 2 * heightItems (nodes.map entryChildren) ≤ nestingAll vs + 1
  | [], nodes, h => by
    cases h
    exact Nat.zero_le _
  | v :: vs, nodes, h => by
    rw [ofEntries] at h
    obtain ⟨node, hnode, h⟩ := bind_eq_ok_iff.mp h
    obtain ⟨others, hothers, h⟩ := bind_eq_ok_iff.mp h
    cases h
    have hv := height_of_ofEntry v hnode
    have hvs := height_of_ofEntries vs hothers
    rw [List.map_cons, heightItems, nestingAll]
    omega

theorem height_of_setChildren : ∀ (v : Content) {tag : Tag} {d d' : Draft Node},
    setChildren tag d v = .ok d' → 2 * childrenHeight tag d'.getChildren ≤ v.nesting
  | .seq items, tag, d, d', h => by
    rw [nesting]
    cases tag with
    | list kind =>
      obtain ⟨children, hentries, h⟩ := bind_eq_ok_iff.mp h
      cases h
      exact height_of_ofEntries items hentries
    | text | link | item =>
      obtain ⟨children, hcontents, h⟩ := bind_eq_ok_iff.mp h
      cases h
      exact height_of_ofContents items hcontents
  | .map _, tag, d, d', h => by cases h
  | .null, tag, d, d', h => by cases h
  | .bool _, tag, d, d', h => by cases h
  | .integer _, tag, d, d', h => by cases h
  | .float _, tag, d, d', h => by cases h
  | .string _, tag, d, d', h => by cases h

theorem height_of_setMembers : ∀ (ps : List (String × Content)) {tag : Tag} {d d' : Draft Node},
    setMembers tag d ps = .ok d' → ∀ {n : Nat}, 2 * childrenHeight tag d.getChildren ≤ n →
    nestingPairs ps ≤ n → 2 * childrenHeight tag d'.getChildren ≤ n
  | [], tag, d, d', h, n, hd, _ => by
    cases h
    exact hd
  | (key, v) :: ps, tag, d, d', h, n, hd, hn => by
    obtain ⟨hv, hps⟩ := Nat.max_le.mp hn
    rw [setMembers] at h
    split at h
    · simp only at h
      split at h
      · cases h
      · split at h
        · obtain ⟨next, hnext, h⟩ := bind_eq_ok_iff.mp h
          exact height_of_setMembers ps h (Nat.le_trans (height_of_setChildren v hnext) hv) hps
        · obtain ⟨next, hnext, h⟩ := bind_eq_ok_iff.mp h
          rw [← getChildren_set hnext] at hd
          exact height_of_setMembers ps h hd hps
    · exact height_of_setMembers ps h hd hps

theorem height_of_setItems : ∀ (vs : List Content) {tag : Tag} {total index : Nat}
    {names : List String} {d d' : Draft Node},
    setItems tag total index names d vs = .ok d' → ∀ {n : Nat},
    2 * childrenHeight tag d.getChildren ≤ n → nestingAll vs ≤ n →
    2 * childrenHeight tag d'.getChildren ≤ n
  | [], tag, total, index, names, d, d', h, n, hd, _ => by
    rw [setItems] at h
    split at h
    · cases h
    · cases h
      exact hd
  | v :: vs, tag, total, index, names, d, d', h, n, hd, hn => by
    obtain ⟨hv, hvs⟩ := Nat.max_le.mp hn
    cases names with
    | nil => cases h
    | cons name names =>
      rw [setItems] at h
      split at h
      · obtain ⟨next, hnext, h⟩ := bind_eq_ok_iff.mp h
        exact height_of_setItems vs h (Nat.le_trans (height_of_setChildren v hnext) hv) hvs
      · obtain ⟨next, hnext, h⟩ := bind_eq_ok_iff.mp h
        rw [← getChildren_set hnext] at hd
        exact height_of_setItems vs h hd hvs

end

end Node

end Phrasebook
