import Mathlib.Data.List.Count
import Phrasebook.Proofs.Document.Entries
import Phrasebook.Proofs.Document.Strings

namespace Phrasebook

namespace AuthoredNode

def isUnknown : AuthoredNode → Bool
  | .unknown => true
  | _ => false

def isItem : AuthoredNode → Bool
  | .item _ => true
  | _ => false

mutual

/-- The node without its descendants of unknown type. -/
def known : AuthoredNode → AuthoredNode
  | .text content children styles => .text content (knownAll children) styles
  | .link href content children styles name => .link href content (knownAll children) styles name
  | .item children => .item (knownAll children)
  | .list kind children => .list kind (knownAll children)
  | .unknown => .unknown

/-- The nodes without those of unknown type, at any depth. -/
def knownAll : List AuthoredNode → List AuthoredNode
  | [] => []
  | .unknown :: nodes => knownAll nodes
  | node :: nodes => known node :: knownAll nodes

end

mutual

/-- The node with items for the children of its lists. -/
def itemized : AuthoredNode → AuthoredNode
  | .text content children styles => .text content (itemizedAll children) styles
  | .link href content children styles name =>
    .link href content (itemizedAll children) styles name
  | .item children => .item (itemizedAll children)
  | .list kind children => .list kind (asItems children)
  | .unknown => .unknown

def itemizedAll : List AuthoredNode → List AuthoredNode
  | [] => []
  | node :: nodes => itemized node :: itemizedAll nodes

/-- Items for the children of a list; a child that is none gets an item of its own. -/
def asItems : List AuthoredNode → List AuthoredNode
  | [] => []
  | .item children :: nodes => .item (itemizedAll children) :: asItems nodes
  | node :: nodes => .item [itemized node] :: asItems nodes

end

/-- The nodes without those of unknown type, and with items for the children of lists. -/
def repaired (nodes : List AuthoredNode) : List AuthoredNode := itemizedAll (knownAll nodes)

mutual

/-- The node and all its descendants, each before its children. -/
def walk : AuthoredNode → List AuthoredNode
  | .text content children styles => .text content children styles :: walkAll children
  | .link href content children styles name =>
    .link href content children styles name :: walkAll children
  | .item children => .item children :: walkAll children
  | .list kind children => .list kind children :: walkAll children
  | .unknown => [.unknown]

def walkAll : List AuthoredNode → List AuthoredNode
  | [] => []
  | node :: nodes => walk node ++ walkAll nodes

end

/-- The node without its children. -/
def bare : AuthoredNode → AuthoredNode
  | .text content _ styles => .text content [] styles
  | .link href content _ styles name => .link href content [] styles name
  | .item _ => .item []
  | .list kind _ => .list kind []
  | .unknown => .unknown

/-- The children that a list has. -/
def listed : AuthoredNode → List AuthoredNode
  | .list _ children => children
  | _ => []

/-- How many nodes are no items. -/
def loose (nodes : List AuthoredNode) : Nat := nodes.countP fun node => !node.isItem

/-- How many children of lists are no items. -/
def strays (nodes : List AuthoredNode) : Nat := loose (nodes.flatMap listed)

/-- How many nodes are taken out. -/
def removed (nodes : List AuthoredNode) : Nat := (walkAll nodes).countP isUnknown

/-- How many of the nodes left are put into items. -/
def wrapped (nodes : List AuthoredNode) : Nat := strays (walkAll (knownAll nodes))

/-- The second list of nodes is the first with a number of items inserted. -/
inductive MoreItems : Nat → List AuthoredNode → List AuthoredNode → Prop
  | nil : MoreItems 0 [] []
  | keep {n : Nat} {nodes nodes' : List AuthoredNode} (node : AuthoredNode)
      (h : MoreItems n nodes nodes') : MoreItems n (node :: nodes) (node :: nodes')
  | insert {n : Nat} {nodes nodes' : List AuthoredNode} (h : MoreItems n nodes nodes') :
      MoreItems (n + 1) nodes (.item [] :: nodes')

theorem MoreItems.append {m n : Nat} {as as' bs bs' : List AuthoredNode}
    (ha : MoreItems m as as') (hb : MoreItems n bs bs') :
    MoreItems (m + n) (as ++ bs) (as' ++ bs') := by
  induction ha with
  | nil =>
    rw [Nat.zero_add]
    exact hb
  | keep node _ ih => exact .keep node ih
  | @insert m as as' _ ih =>
    rw [Nat.add_right_comm]
    exact .insert ih

theorem ne_item {node : AuthoredNode} (h : node.isItem = false) (children : List AuthoredNode) :
    node ≠ .item children := by
  intro hnode
  rw [hnode] at h
  cases h

theorem exists_item {node : AuthoredNode} (h : node.isItem = true) :
    ∃ children, node = .item children := by
  cases node with
  | item children => exact ⟨children, rfl⟩
  | _ => cases h

theorem isUnknown_of_isItem {node : AuthoredNode} (h : node.isItem = true) :
    node.isUnknown = false := by
  obtain ⟨children, rfl⟩ := exists_item h
  rfl

theorem knownAll_cons {node : AuthoredNode} (h : node.isUnknown = false)
    (nodes : List AuthoredNode) : knownAll (node :: nodes) = known node :: knownAll nodes := by
  refine knownAll.eq_3 node nodes ?_
  intro hnode
  rw [hnode] at h
  cases h

theorem isItem_known (node : AuthoredNode) : (known node).isItem = node.isItem := by
  cases node <;> rw [known] <;> rfl

theorem isItem_itemized {node : AuthoredNode} (h : node.isItem = true) :
    (itemized node).isItem = true := by
  obtain ⟨children, rfl⟩ := exists_item h
  rw [itemized]
  rfl

theorem asItems_cons {node : AuthoredNode} (h : node.isItem = false) (nodes : List AuthoredNode) :
    asItems (node :: nodes) = .item [itemized node] :: asItems nodes :=
  asItems.eq_3 node nodes (ne_item h)

theorem asItems_cons_item {node : AuthoredNode} (h : node.isItem = true)
    (nodes : List AuthoredNode) : asItems (node :: nodes) = itemized node :: asItems nodes := by
  obtain ⟨children, rfl⟩ := exists_item h
  rw [asItems, itemized]

theorem compileItems_cons {node : AuthoredNode} (h : node.isItem = false)
    (nodes : List AuthoredNode) :
    compileItems (node :: nodes) = (do
      let (compiled, repairs) ← compile node
      let (items, more) ← compileItems nodes
      match compiled with
      | none => return (items, repairs ++ more)
      | some compiled => return ([compiled] :: items, repairs ++ .wrappedInItem :: more)) :=
  compileItems.eq_3 node nodes (ne_item h)

/-- Only nodes of unknown type are dropped. -/
theorem compile_eq_ok {node : AuthoredNode} {compiled : Option TemplateNode}
    {repairs : List Repair} (h : compile node = .ok (compiled, repairs)) :
    node = .unknown ∧ compiled = none ∧ repairs = [.droppedUnknown] ∨
      node.isUnknown = false ∧ ∃ template, compiled = some template := by
  cases node with
  | text content children styles =>
    rw [compile] at h
    obtain ⟨t, -, h⟩ := bind_eq_ok_iff.mp h
    obtain ⟨result, -, h⟩ := bind_eq_ok_iff.mp h
    cases h
    exact .inr ⟨rfl, _, rfl⟩
  | link href content children styles name =>
    rw [compile] at h
    obtain ⟨t, -, h⟩ := bind_eq_ok_iff.mp h
    obtain ⟨u, -, h⟩ := bind_eq_ok_iff.mp h
    obtain ⟨result, -, h⟩ := bind_eq_ok_iff.mp h
    cases h
    exact .inr ⟨rfl, _, rfl⟩
  | item children =>
    rw [compile] at h
    obtain ⟨result, -, h⟩ := bind_eq_ok_iff.mp h
    cases h
    exact .inr ⟨rfl, _, rfl⟩
  | list kind children =>
    rw [compile] at h
    obtain ⟨result, -, h⟩ := bind_eq_ok_iff.mp h
    cases h
    exact .inr ⟨rfl, _, rfl⟩
  | unknown =>
    cases h
    exact .inl ⟨rfl, rfl, rfl⟩

/-- What the first child of a list gives: its children if it is an item, nothing if its type is
unknown, and an item of its own otherwise. -/
theorem compileItems_cons_eq_ok {node : AuthoredNode} {nodes : List AuthoredNode}
    {items : List (List TemplateNode)} {repairs : List Repair}
    (h : compileItems (node :: nodes) = .ok (items, repairs)) :
    ∃ others more, compileItems nodes = .ok (others, more) ∧
      ((∃ compiled own, node.isItem = true ∧ compile node = .ok (some (.item compiled), own) ∧
          items = compiled :: others ∧ repairs = own ++ more) ∨
        (node = .unknown ∧ items = others ∧ repairs = .droppedUnknown :: more) ∨
        ∃ template own, node.isUnknown = false ∧ node.isItem = false ∧
          compile node = .ok (some template, own) ∧ items = [template] :: others ∧
          repairs = own ++ .wrappedInItem :: more) := by
  by_cases hitem : node.isItem = true
  · obtain ⟨children, rfl⟩ := exists_item hitem
    rw [compileItems] at h
    obtain ⟨⟨compiled, own⟩, hchildren, h⟩ := bind_eq_ok_iff.mp h
    obtain ⟨⟨others, more⟩, hothers, h⟩ := bind_eq_ok_iff.mp h
    cases h
    have hnode : compile (.item children) = .ok (some (.item compiled), own) := by
      rw [compile, hchildren]
      rfl
    exact ⟨others, more, hothers, .inl ⟨compiled, own, rfl, hnode, rfl, rfl⟩⟩
  · rw [Bool.not_eq_true] at hitem
    rw [compileItems_cons hitem] at h
    obtain ⟨⟨compiled, own⟩, hnode, h⟩ := bind_eq_ok_iff.mp h
    obtain ⟨⟨others, more⟩, hothers, h⟩ := bind_eq_ok_iff.mp h
    refine ⟨others, more, hothers, .inr ?_⟩
    obtain ⟨rfl, rfl, rfl⟩ | ⟨hknown, template, rfl⟩ := compile_eq_ok hnode
    · cases h
      exact .inl ⟨rfl, rfl, rfl⟩
    · cases h
      exact .inr ⟨template, own, hknown, hitem, hnode, rfl, rfl⟩

theorem compileItems_cons_item {node : AuthoredNode} (hitem : node.isItem = true)
    {nodes : List AuthoredNode} {compiled : List TemplateNode} {own more : List Repair}
    {others : List (List TemplateNode)} (hnode : compile node = .ok (some (.item compiled), own))
    (hothers : compileItems nodes = .ok (others, more)) :
    compileItems (node :: nodes) = .ok (compiled :: others, own ++ more) := by
  obtain ⟨children, rfl⟩ := exists_item hitem
  rw [compile] at hnode
  obtain ⟨⟨compiled', own'⟩, hchildren, hnode⟩ := bind_eq_ok_iff.mp hnode
  cases hnode
  rw [compileItems, hchildren, ok_bind, hothers]
  rfl

theorem compileAll_cons_eq_ok {node : AuthoredNode} {nodes : List AuthoredNode}
    {compiled : List TemplateNode} {repairs : List Repair}
    (h : compileAll (node :: nodes) = .ok (compiled, repairs)) :
    ∃ others more, compileAll nodes = .ok (others, more) ∧
      ((node = .unknown ∧ compiled = others ∧ repairs = .droppedUnknown :: more) ∨
        ∃ template own, node.isUnknown = false ∧ compile node = .ok (some template, own) ∧
          compiled = template :: others ∧ repairs = own ++ more) := by
  rw [compileAll] at h
  obtain ⟨⟨first, own⟩, hnode, h⟩ := bind_eq_ok_iff.mp h
  obtain ⟨⟨others, more⟩, hothers, h⟩ := bind_eq_ok_iff.mp h
  refine ⟨others, more, hothers, ?_⟩
  obtain ⟨rfl, rfl, rfl⟩ | ⟨hknown, template, rfl⟩ := compile_eq_ok hnode
  · cases h
    exact .inl ⟨rfl, rfl, rfl⟩
  · cases h
    exact .inr ⟨template, own, hknown, hnode, rfl, rfl⟩

mutual

theorem compile_repaired : ∀ {node : AuthoredNode} {template : TemplateNode}
    {repairs : List Repair}, compile node = .ok (some template, repairs) →
    compile (itemized (known node)) = .ok (some template, [])
  | .text content children styles, template, repairs, h => by
    rw [compile] at h
    obtain ⟨t, hcontent, h⟩ := bind_eq_ok_iff.mp h
    obtain ⟨⟨compiled, own⟩, hchildren, h⟩ := bind_eq_ok_iff.mp h
    cases h
    rw [known, itemized, compile, hcontent, ok_bind, compileAll_repaired hchildren, ok_bind]
    rfl
  | .link href content children styles name, template, repairs, h => by
    rw [compile] at h
    obtain ⟨t, hhref, h⟩ := bind_eq_ok_iff.mp h
    obtain ⟨u, hcontent, h⟩ := bind_eq_ok_iff.mp h
    obtain ⟨⟨compiled, own⟩, hchildren, h⟩ := bind_eq_ok_iff.mp h
    cases h
    rw [known, itemized, compile, hhref, ok_bind, hcontent, ok_bind, compileAll_repaired hchildren,
      ok_bind]
    rfl
  | .item children, template, repairs, h => by
    rw [compile] at h
    obtain ⟨⟨compiled, own⟩, hchildren, h⟩ := bind_eq_ok_iff.mp h
    cases h
    rw [known, itemized, compile, compileAll_repaired hchildren, ok_bind]
    rfl
  | .list kind children, template, repairs, h => by
    rw [compile] at h
    obtain ⟨⟨items, own⟩, hchildren, h⟩ := bind_eq_ok_iff.mp h
    cases h
    rw [known, itemized, compile, compileItems_repaired hchildren, ok_bind]
    rfl
  | .unknown, template, repairs, h => by cases h

theorem compileAll_repaired : ∀ {nodes : List AuthoredNode} {compiled : List TemplateNode}
    {repairs : List Repair}, compileAll nodes = .ok (compiled, repairs) →
    compileAll (itemizedAll (knownAll nodes)) = .ok (compiled, [])
  | [], compiled, repairs, h => by
    cases h
    rfl
  | node :: nodes, compiled, repairs, h => by
    obtain ⟨others, more, hothers, ⟨rfl, rfl, rfl⟩ | ⟨template, own, hknown, hnode, rfl, rfl⟩⟩ :=
      compileAll_cons_eq_ok h
    · rw [knownAll]
      exact compileAll_repaired hothers
    · rw [knownAll_cons hknown, itemizedAll, compileAll, compile_repaired hnode, ok_bind]
      simp only
      rw [compileAll_repaired hothers, ok_bind]
      rfl

theorem compileItems_repaired : ∀ {nodes : List AuthoredNode} {items : List (List TemplateNode)}
    {repairs : List Repair}, compileItems nodes = .ok (items, repairs) →
    compileItems (asItems (knownAll nodes)) = .ok (items, [])
  | [], items, repairs, h => by
    cases h
    rfl
  | node :: nodes, items, repairs, h => by
    obtain ⟨others, more, hothers, hfirst⟩ := compileItems_cons_eq_ok h
    have hrest := compileItems_repaired hothers
    obtain ⟨compiled, own, hitem, hnode, rfl, rfl⟩ | ⟨rfl, rfl, rfl⟩ |
      ⟨template, own, hknown, hitem, hnode, rfl, rfl⟩ := hfirst
    · have hknown : (known node).isItem = true := by rwa [isItem_known]
      rw [knownAll_cons (isUnknown_of_isItem hitem), asItems_cons_item hknown]
      exact compileItems_cons_item (isItem_itemized hknown) (compile_repaired hnode) hrest
    · -- The child is gone before the list is given items, so it leaves no empty item behind.
      rw [knownAll]
      exact hrest
    · have hwrapped : compileAll [itemized (known node)] = .ok ([template], []) := by
        rw [compileAll, compile_repaired hnode]
        rfl
      rw [knownAll_cons hknown, asItems_cons (by rwa [isItem_known]), compileItems, hwrapped,
        ok_bind, hrest]
      rfl

end

/-- So many nodes were dropped, and so many wrapped. -/
structure Accounts (repairs : List Repair) (dropped wrapped : Nat) : Prop where
  dropped : repairs.count .droppedUnknown = dropped
  wrapped : repairs.count .wrappedInItem = wrapped

theorem Accounts.nil : Accounts [] 0 0 := ⟨rfl, rfl⟩

theorem Accounts.append {repairs repairs' : List Repair} {m n m' n' : Nat}
    (h : Accounts repairs m n) (h' : Accounts repairs' m' n') :
    Accounts (repairs ++ repairs') (m + m') (n + n') where
  dropped := by rw [List.count_append, h.dropped, h'.dropped]
  wrapped := by rw [List.count_append, h.wrapped, h'.wrapped]

theorem Accounts.drop {repairs : List Repair} {m n : Nat} (h : Accounts repairs m n) :
    Accounts (.droppedUnknown :: repairs) (m + 1) n where
  dropped := by rw [List.count_cons_self, h.dropped]
  wrapped := by rw [List.count_cons_of_ne (by decide), h.wrapped]

theorem Accounts.wrap {repairs : List Repair} {m n : Nat} (h : Accounts repairs m n) :
    Accounts (.wrappedInItem :: repairs) m (n + 1) where
  dropped := by rw [List.count_cons_of_ne (by decide), h.dropped]
  wrapped := by rw [List.count_cons_self, h.wrapped]

theorem strays_append (nodes nodes' : List AuthoredNode) :
    strays (nodes ++ nodes') = strays nodes + strays nodes' := by
  rw [strays, List.flatMap_append, loose, List.countP_append]
  rfl

theorem strays_cons (node : AuthoredNode) (nodes : List AuthoredNode) :
    strays (node :: nodes) = loose node.listed + strays nodes := by
  rw [strays, List.flatMap_cons, loose, List.countP_append]
  rfl

theorem strays_cons_of_not_list {node : AuthoredNode} (h : node.listed = [])
    (nodes : List AuthoredNode) : strays (node :: nodes) = strays nodes := by
  rw [strays_cons, h]
  exact Nat.zero_add _

theorem loose_cons {node : AuthoredNode} (h : node.isItem = false) (nodes : List AuthoredNode) :
    loose (node :: nodes) = loose nodes + 1 :=
  List.countP_cons_of_pos (by rw [h]; rfl)

theorem loose_cons_item {node : AuthoredNode} (h : node.isItem = true)
    (nodes : List AuthoredNode) : loose (node :: nodes) = loose nodes :=
  List.countP_cons_of_neg (by rw [h]; decide)

-- Children that are no items are counted where their list is met, so the count for the children of a
-- list adds them to those that stand below.
mutual

theorem accounts_compile : ∀ {node : AuthoredNode} {compiled : Option TemplateNode}
    {repairs : List Repair}, compile node = .ok (compiled, repairs) →
    Accounts repairs ((walk node).countP isUnknown) (strays (walk (known node)))
  | .text content children styles, compiled, repairs, h => by
    rw [compile] at h
    obtain ⟨t, -, h⟩ := bind_eq_ok_iff.mp h
    obtain ⟨result, hchildren, h⟩ := bind_eq_ok_iff.mp h
    cases h
    have hcount := accounts_compileAll hchildren
    rw [known, walk, walk, strays_cons_of_not_list rfl]
    exact hcount
  | .link href content children styles name, compiled, repairs, h => by
    rw [compile] at h
    obtain ⟨t, -, h⟩ := bind_eq_ok_iff.mp h
    obtain ⟨u, -, h⟩ := bind_eq_ok_iff.mp h
    obtain ⟨result, hchildren, h⟩ := bind_eq_ok_iff.mp h
    cases h
    have hcount := accounts_compileAll hchildren
    rw [known, walk, walk, strays_cons_of_not_list rfl]
    exact hcount
  | .item children, compiled, repairs, h => by
    rw [compile] at h
    obtain ⟨result, hchildren, h⟩ := bind_eq_ok_iff.mp h
    cases h
    have hcount := accounts_compileAll hchildren
    rw [known, walk, walk, strays_cons_of_not_list rfl]
    exact hcount
  | .list kind children, compiled, repairs, h => by
    rw [compile] at h
    obtain ⟨result, hchildren, h⟩ := bind_eq_ok_iff.mp h
    cases h
    have hcount := accounts_compileItems hchildren
    rw [known, walk, walk, strays_cons, listed]
    exact hcount
  | .unknown, compiled, repairs, h => by
    cases h
    exact .drop .nil

theorem accounts_compileAll : ∀ {nodes : List AuthoredNode} {compiled : List TemplateNode}
    {repairs : List Repair}, compileAll nodes = .ok (compiled, repairs) →
    Accounts repairs (removed nodes) (wrapped nodes)
  | [], compiled, repairs, h => by
    cases h
    exact .nil
  | node :: nodes, compiled, repairs, h => by
    obtain ⟨others, more, hothers, ⟨rfl, rfl, rfl⟩ | ⟨template, own, hknown, hnode, rfl, rfl⟩⟩ :=
      compileAll_cons_eq_ok h
    · rw [removed, wrapped, knownAll, walkAll, walk, List.singleton_append,
        List.countP_cons_of_pos rfl]
      exact (accounts_compileAll hothers).drop
    · rw [removed, wrapped, knownAll_cons hknown, walkAll, walkAll, List.countP_append,
        strays_append]
      exact (accounts_compile hnode).append (accounts_compileAll hothers)

theorem accounts_compileItems : ∀ {nodes : List AuthoredNode} {items : List (List TemplateNode)}
    {repairs : List Repair}, compileItems nodes = .ok (items, repairs) →
    Accounts repairs (removed nodes) (loose (knownAll nodes) + wrapped nodes)
  | [], items, repairs, h => by
    cases h
    exact .nil
  | node :: nodes, items, repairs, h => by
    obtain ⟨others, more, hothers, hfirst⟩ := compileItems_cons_eq_ok h
    have hrest := accounts_compileItems hothers
    obtain ⟨compiled, own, hitem, hnode, rfl, rfl⟩ | ⟨rfl, rfl, rfl⟩ |
      ⟨template, own, hknown, hitem, hnode, rfl, rfl⟩ := hfirst
    · have hknown : (known node).isItem = true := by rwa [isItem_known]
      have hcount := (accounts_compile hnode).append hrest
      rw [removed, wrapped, knownAll_cons (isUnknown_of_isItem hitem), walkAll, walkAll,
        List.countP_append, strays_append, loose_cons_item hknown, Nat.add_left_comm]
      exact hcount
    · rw [removed, wrapped, knownAll, walkAll, walk, List.singleton_append,
        List.countP_cons_of_pos rfl]
      exact hrest.drop
    · have hstray : (known node).isItem = false := by rwa [isItem_known]
      have hcount := (accounts_compile hnode).append hrest.wrap
      rw [removed, wrapped, knownAll_cons hknown, walkAll, walkAll, List.countP_append,
        strays_append, loose_cons hstray, Nat.add_left_comm, Nat.add_right_comm]
      exact hcount

end

mutual

theorem map_bare_walk_known : ∀ {node : AuthoredNode}, node.isUnknown = false →
    (walk (known node)).map bare = ((walk node).filter fun n => !n.isUnknown).map bare
  | .text content children styles, _ => by
    rw [known, walk, walk, List.filter_cons_of_pos rfl, List.map_cons, List.map_cons,
      map_bare_walkAll_known children]
    rfl
  | .link href content children styles name, _ => by
    rw [known, walk, walk, List.filter_cons_of_pos rfl, List.map_cons, List.map_cons,
      map_bare_walkAll_known children]
    rfl
  | .item children, _ => by
    rw [known, walk, walk, List.filter_cons_of_pos rfl, List.map_cons, List.map_cons,
      map_bare_walkAll_known children]
    rfl
  | .list kind children, _ => by
    rw [known, walk, walk, List.filter_cons_of_pos rfl, List.map_cons, List.map_cons,
      map_bare_walkAll_known children]
    rfl
  | .unknown, h => by cases h

theorem map_bare_walkAll_known : ∀ nodes : List AuthoredNode,
    (walkAll (knownAll nodes)).map bare = ((walkAll nodes).filter fun n => !n.isUnknown).map bare
  | [] => rfl
  | node :: nodes => by
    cases h : node.isUnknown with
    | true =>
      cases node with
      | unknown =>
        rw [knownAll, walkAll, walk, List.singleton_append, List.filter_cons_of_neg (by decide)]
        exact map_bare_walkAll_known nodes
      | _ => cases h
    | false =>
      rw [knownAll_cons h, walkAll, walkAll, List.map_append, List.filter_append, List.map_append,
        map_bare_walk_known h, map_bare_walkAll_known nodes]

end

mutual

theorem moreItems_walk : ∀ node : AuthoredNode,
    MoreItems (strays (walk node)) ((walk node).map bare) ((walk (itemized node)).map bare)
  | .text content children styles => by
    rw [itemized, walk, walk, strays_cons_of_not_list rfl]
    exact .keep _ (moreItems_walkAll children)
  | .link href content children styles name => by
    rw [itemized, walk, walk, strays_cons_of_not_list rfl]
    exact .keep _ (moreItems_walkAll children)
  | .item children => by
    rw [itemized, walk, walk, strays_cons_of_not_list rfl]
    exact .keep _ (moreItems_walkAll children)
  | .list kind children => by
    rw [itemized, walk, walk, strays_cons, listed]
    exact .keep _ (moreItems_asItems children)
  | .unknown => .keep _ .nil

theorem moreItems_walkAll : ∀ nodes : List AuthoredNode,
    MoreItems (strays (walkAll nodes)) ((walkAll nodes).map bare)
      ((walkAll (itemizedAll nodes)).map bare)
  | [] => .nil
  | node :: nodes => by
    rw [itemizedAll, walkAll, walkAll, strays_append, List.map_append, List.map_append]
    exact (moreItems_walk node).append (moreItems_walkAll nodes)

theorem moreItems_asItems : ∀ nodes : List AuthoredNode,
    MoreItems (loose nodes + strays (walkAll nodes)) ((walkAll nodes).map bare)
      ((walkAll (asItems nodes)).map bare)
  | [] => .nil
  | node :: nodes => by
    have hall := (moreItems_walk node).append (moreItems_asItems nodes)
    cases h : node.isItem with
    | true =>
      rw [asItems_cons_item h, walkAll, walkAll, strays_append, loose_cons_item h,
        Nat.add_left_comm, List.map_append, List.map_append]
      exact hall
    | false =>
      rw [asItems_cons h, walkAll, walkAll, strays_append, loose_cons h, Nat.add_right_comm,
        Nat.add_left_comm, walk, walkAll, walkAll, List.append_nil, List.map_append,
        List.cons_append, List.map_cons, List.map_append]
      exact .insert hall

end

end AuthoredNode

end Phrasebook
