import Mathlib.Data.List.ReduceOption
import Drastic.RangeTree.PoolInvariant

namespace Drastic

open Library.RedBlack (Direction Color)
open Library.Chain (ChainFrom)

variable {L : Layout} {s : RBState} {used free : List U64}

def PoolFull (s : RBState) : Prop :=
  s.tree.freeList = 0#64 ∧ (s.chunks s.tree.currentNode).nodeCount = rbNodesMax

def NoSlot (s : RBState) : Prop := PoolFull s ∧ (pageAlloc s).1 = 0#64

/-- What a successful `takeSlot` leaves behind: one more used slot, and every node
that was in use untouched. -/
structure SlotTaken (L : Layout) (s made : RBState) (used : List U64) (node : U64) : Prop where
  pool : ∃ free, Pool L made (node :: used) free
  kept : ∀ q, q = L.list ∨ q ∈ used → made.heap q = s.heap q
  root : made.tree.root = s.tree.root
  requests : made.requests = s.requests ∨ PoolFull s

theorem pageAlloc_cases (s : RBState) :
    ((pageAlloc s).1 = 0#64 ∧ (pageAlloc s).2 = { s with
        supply := s.supply.tail, requests := s.requests + 1 } ∧
      s.supply.tail.reduceOption = s.supply.reduceOption) ∨
    ∃ page, s.supply.reduceOption = page :: s.supply.tail.reduceOption ∧
      pageAlloc s = (page, zeroPage page { s with
        requests := s.requests + 1, supply := s.supply.tail,
        allocated := s.allocated ++ [page] }) := by
  unfold pageAlloc
  cases supply : s.supply with
  | nil => exact Or.inl (by simp)
  | cons answer rest =>
      cases answer with
      | none => exact Or.inl (by simp)
      | some page => exact Or.inr ⟨page, by simp, rfl⟩

theorem Pool.supply_nonzero (pool : Pool L s used free) {page : U64}
    (member : page ∈ s.supply.reduceOption) : page ≠ 0#64 :=
  pool.pages.nonzero page (List.mem_append_right _ member)

theorem Pool.refused (pool : Pool L s used free) (fails : (pageAlloc s).1 = 0#64) :
    Pool L (pageAlloc s).2 used free ∧ (pageAlloc s).2.heap = s.heap ∧
      (pageAlloc s).2.tree = s.tree := by
  rcases pageAlloc_cases s with ⟨_, result, supply⟩ | ⟨page, supply, result⟩
  · rw [result]
    refine ⟨{ pool with pages := ?_ }, rfl, rfl⟩
    simp only [supply]
    exact pool.pages
  · rw [result] at fails
    exact absurd fails (pool.supply_nonzero (by rw [supply]; simp))

theorem Pool.take_free (pool : Pool L s used free) (available : s.tree.freeList ≠ 0#64) :
    SlotTaken L s (takeSlot s).2 used (takeSlot s).1 := by
  have chain := pool.freeChain
  have distinct := pool.nodup
  cases listed : free with
  | nil =>
      rw [listed] at chain
      exact absurd chain available
  | cons node rest =>
      rw [listed] at chain distinct
      obtain ⟨first, _, tail⟩ := chain
      have slot := pool.slot node (by simp [listed])
      have apart : node ∉ used ++ rest := by
        rw [List.perm_middle.nodup_iff] at distinct
        exact (List.nodup_cons.mp distinct).1
      simp only [List.mem_append, not_or] at apart
      have taken : takeSlot s = (node,
          { s with
            tree := { s.tree with freeList := (s.heap node).children .right }
            heap := Function.update s.heap node Node.zero }) := by
        rw [takeSlot, if_pos available, first]
      rw [taken]
      refine ⟨⟨rest, ?_⟩, ?_, rfl, Or.inl rfl⟩
      · refine { pool with freeChain := ?_, slots := ?_ }
        · refine Library.Chain.chain_congr _ _ ?_ tail
          intro slot member
          have other : slot ≠ node := by
            rintro rfl
            exact apart.2 member
          simp [other]
        · have split := pool.slots
          rw [listed] at split
          exact split.trans List.perm_middle
      · rintro q (rfl | member)
        · simp [Ne.symm slot.2.1]
        · have other : q ≠ node := by
            rintro rfl
            exact apart.1 member
          simp [other]

theorem Pool.current_not_front (pool : Pool L s used free) {front : List U64}
    (shape : s.allocated = front ++ [s.tree.currentNode]) : s.tree.currentNode ∉ front := by
  have distinct := pool.valid.nodup
  rw [shape, List.nodup_append'] at distinct
  exact fun member => distinct.2.2 member (by simp)

theorem Pool.take_current (pool : Pool L s used free) (empty : s.tree.freeList = 0#64)
    (room : (s.chunks s.tree.currentNode).nodeCount < rbNodesMax) :
    SlotTaken L s (takeSlot s).2 used (takeSlot s).1 := by
  obtain ⟨front, shape, full⟩ := pool.current
  have outside := pool.current_not_front shape
  have others (page : U64) (member : page ∈ front) : page ≠ s.tree.currentNode := by
    rintro rfl
    exact outside member
  simp only [takeSlot, empty, ne_eq, not_true_eq_false, if_false, if_pos room,
    Nat.add_sub_cancel]
  refine ⟨⟨free, ?_⟩, fun _ _ => rfl, rfl, Or.inl rfl⟩
  refine { pool with pageChain := ?_, current := ⟨front, shape, ?_⟩, bounded := ?_, slots := ?_ }
  · refine Library.Chain.chain_congr _ _ ?_ pool.pageChain
    intro page _
    by_cases same : page = s.tree.currentNode <;> simp [same]
  · intro page member
    simp [others page member, full page member]
  · intro page member
    by_cases same : page = s.tree.currentNode
    · simp only [same, Function.update_self]
      exact room
    · simp [same, pool.bounded page member]
  · have split := pool.slots
    rw [carved, shape, slotsOf_concat] at split
    simp only [carved, shape]
    rw [slotsOf_concat]
    have kept : slotsOf (Function.update s.chunks s.tree.currentNode
        { s.chunks s.tree.currentNode with
          nodeCount := (s.chunks s.tree.currentNode).nodeCount + 1 }) front =
        slotsOf s.chunks front :=
      slotsOf_congr front (fun page member => by simp [others page member])
    rw [kept, Function.update_self, pageSlots_succ, ← List.append_assoc]
    exact List.perm_append_comm.trans (split.cons _)

structure PageLinked (s : RBState) (page : U64) (chunks : U64 → RBNodes) : Prop where
  added : chunks page = ⟨0, 1⟩
  current : chunks s.tree.currentNode = { s.chunks s.tree.currentNode with next := page }
  other : ∀ old, old ≠ s.tree.currentNode → old ≠ page → chunks old = s.chunks old

theorem PageLinked.nodeCount {page : U64} {chunks : U64 → RBNodes}
    (linked : PageLinked s page chunks) {old : U64} (different : old ≠ page) :
    (chunks old).nodeCount = (s.chunks old).nodeCount := by
  by_cases same : old = s.tree.currentNode
  · rw [same, linked.current]
  · rw [linked.other old same different]

theorem takeSlot_page (full : PoolFull s) {page : U64} (nonzero : page ≠ 0#64)
    (notCurrent : s.tree.currentNode ≠ page)
    (result : pageAlloc s = (page, zeroPage page { s with
      requests := s.requests + 1, supply := s.supply.tail,
      allocated := s.allocated ++ [page] })) :
    ∃ chunks : U64 → RBNodes, takeSlot s = (nodeSlot page 0,
        { s with
          heap := fun slot => if slot ∈ pageSlots page rbNodesMax then Node.zero else s.heap slot
          chunks := chunks
          tree := { s.tree with currentNode := page }
          requests := s.requests + 1
          supply := s.supply.tail
          allocated := s.allocated ++ [page] }) ∧
      PageLinked s page chunks := by
  have roomless : ¬ (s.chunks s.tree.currentNode).nodeCount < rbNodesMax := by
    rw [full.2]
    exact lt_irrefl _
  refine ⟨Function.update (Function.update (Function.update s.chunks page ⟨0, 0⟩)
    s.tree.currentNode { s.chunks s.tree.currentNode with next := page }) page ⟨0, 1⟩,
    ?_, by simp, by simp [notCurrent], ?_⟩
  · simp [takeSlot, full.1, roomless, rbNodesCreate, result, nonzero, zeroPage, notCurrent,
      Ne.symm notCurrent]
  · intro old notLast notFresh
    simp [notLast, notFresh]

theorem Pool.supplied (pool : Pool L s used free) {page : U64}
    (supply : s.supply.reduceOption = page :: s.supply.tail.reduceOption) :
    page ≠ 0#64 ∧ page ∉ s.allocated ∧
      ∀ slot ∈ used ++ free, slot ∉ pageSlots page rbNodesMax := by
  have pages := pool.pages
  rw [supply] at pages
  have fresh : page ∉ s.allocated := by
    have distinct := pages.nodup
    rw [List.nodup_append'] at distinct
    exact fun member => distinct.2.2 member (by simp)
  refine ⟨pages.nonzero page (by simp), fresh, ?_⟩
  intro slot member inside
  obtain ⟨old, allocated, i, hi, rfl⟩ := pool.mem_carved member
  obtain ⟨j, hj, same⟩ := (mem_pageSlots ..).mp inside
  have samePage : old = page :=
    pages.page_of_slot (p := old) (q := page) (List.mem_append_left _ allocated) (by simp)
      (hi.trans_le (pool.bounded old allocated)) hj same
  exact fresh (samePage ▸ allocated)

theorem Pool.chain_linked (pool : Pool L s used free) {page : U64} {chunks : U64 → RBNodes}
    (linked : PageLinked s page chunks) (nonzero : page ≠ 0#64) (fresh : page ∉ s.allocated) :
    ChainFrom (fun page => (chunks page).next) 0#64 s.tree.nodes (s.allocated ++ [page]) := by
  obtain ⟨front, shape, _⟩ := pool.current
  have chain := pool.pageChain
  rw [shape] at chain fresh
  rw [shape, List.append_assoc, List.singleton_append]
  apply Library.Chain.chain_concat _ _ _ front chain fresh nonzero
  · exact congrArg RBNodes.next linked.current
  · exact congrArg RBNodes.next linked.added
  · intro old notLast notFresh
    rw [linked.other old notLast notFresh]

theorem Pool.take_page (pool : Pool L s used free) (full : PoolFull s) {page : U64}
    (supply : s.supply.reduceOption = page :: s.supply.tail.reduceOption)
    (result : pageAlloc s = (page, zeroPage page { s with
      requests := s.requests + 1, supply := s.supply.tail,
      allocated := s.allocated ++ [page] })) :
    SlotTaken L s (takeSlot s).2 used (takeSlot s).1 := by
  obtain ⟨front, shape, fullFront⟩ := pool.current
  obtain ⟨nonzero, fresh, unzeroed⟩ := pool.supplied supply
  have pages := pool.pages
  rw [supply] at pages
  have notCurrent : s.tree.currentNode ≠ page := fun same => fresh (same ▸ pool.current_mem)
  obtain ⟨chunks, taken, linked⟩ := takeSlot_page full nonzero notCurrent result
  have counts (old : U64) (member : old ∈ s.allocated) :
      (chunks old).nodeCount = (s.chunks old).nodeCount :=
    linked.nodeCount (fun same => fresh (same ▸ member))
  have zeroed (slot : U64) (outside : slot ∉ pageSlots page rbNodesMax) :
      (if slot ∈ pageSlots page rbNodesMax then Node.zero else s.heap slot) = s.heap slot :=
    if_neg outside
  rw [taken]
  refine ⟨⟨free, ?_, pool.chain_linked linked nonzero fresh, ⟨s.allocated, rfl, ?_⟩, ?_, ?_, ?_,
    pool.freed⟩, ?_, rfl, Or.inr full⟩
  · refine Library.Chain.chain_congr _ _ ?_ pool.freeChain
    intro slot member
    exact congrArg (fun node : Node => node.children .right)
      (zeroed slot (unzeroed slot (List.mem_append_right _ member)))
  · intro old member
    rw [counts old member]
    rw [shape, List.mem_append, List.mem_singleton] at member
    rcases member with inFront | rfl
    · exact fullFront old inFront
    · exact full.2
  · intro old member
    rcases List.mem_append.mp member with allocated | isPage
    · exact (counts old allocated).le.trans (pool.bounded old allocated)
    · have one : (chunks old).nodeCount = 1 := by rw [List.mem_singleton.mp isPage, linked.added]
      exact one.le.trans (by decide)
  · simpa using pages
  · have split := pool.slots
    rw [carved] at split
    simp only [carved]
    rw [slotsOf_concat, linked.added, slotsOf_congr s.allocated counts]
    exact List.perm_append_comm.trans (split.cons _)
  · rintro q (rfl | member)
    · apply zeroed L.list
      intro inside
      obtain ⟨j, hj, same⟩ := (mem_pageSlots ..).mp inside
      exact (pages.slot page (by simp) hj).2.1 same.symm
    · exact zeroed q (unzeroed q (List.mem_append_left _ member))

theorem Pool.take (pool : Pool L s used free) :
    (NoSlot s ∧ takeSlot s = (0#64, (pageAlloc s).2)) ∨
      ¬ NoSlot s ∧ SlotTaken L s (takeSlot s).2 used (takeSlot s).1 := by
  by_cases available : s.tree.freeList ≠ 0#64
  · exact Or.inr ⟨fun noSlot => available noSlot.1.1, pool.take_free available⟩
  · have empty : s.tree.freeList = 0#64 := not_not.mp available
    by_cases room : (s.chunks s.tree.currentNode).nodeCount < rbNodesMax
    · exact Or.inr ⟨fun noSlot => by have := noSlot.1.2; omega, pool.take_current empty room⟩
    · have full : PoolFull s :=
        ⟨empty, Nat.le_antisymm (pool.bounded _ pool.current_mem) (not_lt.mp room)⟩
      rcases pageAlloc_cases s with ⟨fails, _⟩ | ⟨page, supply, result⟩
      · refine Or.inl ⟨⟨full, fails⟩, ?_⟩
        simp only [takeSlot, if_neg available, if_neg room, rbNodesCreate, fails, if_true]
      · refine Or.inr ⟨?_, pool.take_page full supply result⟩
        rintro ⟨_, fails⟩
        rw [result] at fails
        exact pool.supply_nonzero (by rw [supply]; simp) fails

/-- `rb_tree_node_make` fails exactly when no slot can be had; otherwise it returns
a slot that was not in use, written as a leaf of the given colour. -/
theorem rbTreeNodeMake_cases (pool : Pool L s used free) (root : nodeValid s.tree.root = true)
    (range : TestRange) (valid : testRangeValid range = true) (color : RBColor) :
    (NoSlot s ∧ rbTreeNodeMake L s range color = .ok (0#64, (pageAlloc s).2)) ∨
      ¬ NoSlot s ∧ ∃ node made, rbTreeNodeMake L s range color = .ok (node, made) ∧
        SlotTaken L s made used node ∧
        (made.heap node).range = range ∧ colorOf made.heap node = color ∧
        ∀ d, childOf made.heap node d = L.nodeNil := by
  unfold rbTreeNodeMake
  simp only [pool.tree_valid root, valid, kassert_true, exec_bind_ok]
  rcases pool.take with ⟨noSlot, taken⟩ | ⟨slot, taken⟩
  · refine Or.inl ⟨noSlot, ?_⟩
    rw [taken]
    simp
  · refine Or.inr ⟨slot, (takeSlot s).1, ?_⟩
    obtain ⟨free', made⟩ := taken.pool
    obtain ⟨isNode, notList, aligned⟩ := made.slot (takeSlot s).1 (by simp)
    have nonzero : (takeSlot s).1 ≠ 0#64 := ((nodeValid_iff _).mp isNode.1).1
    have unused := made.nodup
    rw [List.cons_append, List.nodup_cons, List.mem_append, not_or] at unused
    generalize takeSlot s = slotted at *
    obtain ⟨node, t⟩ := slotted
    simp only at made isNode notList aligned nonzero unused taken ⊢
    have written (q : U64) (other : q ≠ node) :
        setColorWord (writeNode L t.heap node range) node color q = t.heap q := by
      rw [setColorWord_other _ _ _ _ other]
      simp [writeNode, other]
    refine ⟨{ t with heap := setColorWord (writeNode L t.heap node range) node color },
      ?_, ⟨⟨free', ?_⟩, ?_, taken.root, taken.requests⟩, ?_, ?_, ?_⟩
    · rw [if_neg nonzero]
      simp [aligned, isNode.nodeSetColor]
    · refine made.transport (setColorWord (writeNode L t.heap node range) node color)
        t.tree ?_ rfl rfl rfl
      intro slot member
      rw [written slot (by rintro rfl; exact unused.1.2 member)]
    · rintro q (rfl | member)
      · exact (written _ (Ne.symm notList)).trans (taken.kept _ (Or.inl rfl))
      · refine (written q ?_).trans (taken.kept q (Or.inr member))
        rintro rfl
        exact unused.1.1 member
    · rw [setColorWord_range]
      simp [writeNode]
    · rw [colorOf_setColorWord, if_pos rfl]
    · intro d
      rw [childOf_setColorWord]
      cases d with
      | left => simp [childOf, writeNode, nodeGet_of_valid L.nodeNil_valid]
      | right => simp [childOf, writeNode]

theorem Pool.pushed {node : U64} (pool : Pool L s (node :: used) free) :
    Pool L (pushFree s node) used (node :: free) := by
  have distinct := pool.nodup
  rw [List.cons_append, List.nodup_cons, List.mem_append, not_or] at distinct
  have isNode := (pool.slot node (by simp)).1
  refine { pool with freeChain := ?_, slots := pool.slots.trans List.perm_middle.symm }
  refine ⟨rfl, ((nodeValid_iff node).mp isNode.1).1, ?_⟩
  simp only [pushFree, Function.update_self]
  refine Library.Chain.chain_congr _ _ ?_ pool.freeChain
  intro slot member
  have other : slot ≠ node := by
    rintro rfl
    exact distinct.1.2 member
  simp [other]

theorem pushFree_list (s : RBState) (node other : U64) :
    ((pushFree s node).heap other).list = (s.heap other).list := by
  by_cases same : other = node <;> simp [pushFree, same]

theorem pushFree_other (s : RBState) (node other : U64) (different : other ≠ node) :
    (pushFree s node).heap other = s.heap other := by
  simp [pushFree, different]

theorem freePages_frees (pages : List U64) : ∀ (s : RBState) (start : U64) (fuel : Nat),
    ChainFrom (fun page => (s.chunks page).next) 0#64 start pages → pages.length < fuel →
    freePages fuel s start = .ok { s with freed := s.freed ++ pages } := by
  induction pages with
  | nil =>
      rintro s _ (_ | fuel) rfl bound
      · omega
      · simp [freePages]
  | cons page rest ih =>
      rintro s start (_ | fuel) ⟨rfl, nonzero, chain⟩ bound
      · omega
      · rw [freePages, if_neg nonzero, ih (pageFree start s) _ fuel chain (by simpa using bound)]
        simp [pageFree]

theorem Pool.destroyed (pool : Pool L s used free) (root : nodeValid s.tree.root = true) :
    rbDestroy L s = .ok (zeroTree L { s with freed := s.allocated }) := by
  unfold rbDestroy
  rw [pool.tree_valid root, freePages_frees s.allocated s s.tree.nodes _ pool.pageChain
    (Nat.lt_succ_self _)]
  simp [pool.freed]

end Drastic
