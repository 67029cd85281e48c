import Drastic.RangeTree.DeleteRefines

namespace Drastic

open Library.RedBlack (Direction Color ColorTree)
open Library.RedBlack.ColorTree (Balanced)

/-- The state between two calls: the heap below `tree->root` is a balanced tree of
ascending ranges, the list runs through it in order, and the pool accounts for every
slot. -/
structure TreeInv (L : Layout) (s : RBState) (t : ColorTree Cell) (free : List U64) : Prop where
  represents : Represents L s.heap t
  root : s.tree.root = rootAddress L t
  ring : ListRing L s.heap (addresses t)
  pool : Pool L s (addresses t) free
  ascending : Ascending (ranges t)
  balanced : ∃ n, Balanced t .black n

variable {L : Layout} {s : RBState} {t : ColorTree Cell} {free : List U64}

theorem Pool.list_distinct {used : List U64} (pool : Pool L s used free) :
    (L.list :: used).Nodup := by
  refine List.nodup_cons.mpr ⟨?_, (List.nodup_append'.mp pool.nodup).1⟩
  intro member
  exact (pool.slot _ (List.mem_append_left _ member)).2.1 rfl

theorem list_isNode (L : Layout) : IsNode L L.list := ⟨L.list_valid, L.list_ne_nodeNil⟩

theorem TreeInv.tree_valid (inv : TreeInv L s t free) : rbTreeValid s = true :=
  inv.pool.tree_valid (inv.root ▸ rootAddress_valid t inv.represents)

theorem TreeInv.budget (inv : TreeInv L s t free) : t.height < recursionBudget s := by
  have small := t.height_le_size
  have count : (addresses t).length = t.size := by
    rw [addresses, List.length_map, ColorTree.size_eq_length_inorder]
  have bound := inv.pool.budget
  omega

theorem SlotTaken.nodeMade {made : RBState} {used : List U64} (new : Cell)
    (taken : SlotTaken L s made used new.address)
    (range : (made.heap new.address).range = new.range)
    (color : colorOf made.heap new.address = .red)
    (leaf : ∀ d, childOf made.heap new.address d = L.nodeNil) : NodeMade L s made used new := by
  obtain ⟨free', pool⟩ := taken.pool
  obtain ⟨isNode, notList, _⟩ := pool.slot new.address (by simp)
  have distinct := pool.nodup
  rw [List.cons_append, List.nodup_cons, List.mem_append, not_or] at distinct
  exact ⟨isNode, notList, distinct.1.1, taken.kept, range, color, leaf⟩

theorem blacken_root (u : RBState) (next : ColorTree Cell) (nonempty : next ≠ .nil)
    (rep : Represents L u.heap next) (root : u.tree.root = rootAddress L next)
    (ring : ListRing L u.heap (addresses next)) (pool : Pool L u (addresses next) free)
    (ascending : Ascending (ranges next))
    (balanced : ∃ n, Balanced (next.setColor .black) .black n) :
    nodeSetColor L u.heap u.tree.root .black = .ok (setColorWord u.heap u.tree.root .black) ∧
      TreeInv L { u with heap := setColorWord u.heap u.tree.root .black } (next.setColor .black)
        free := by
  have distinct := pool.nodup
  rw [List.nodup_append'] at distinct
  have order := ColorTree.inorder_setColor next .black
  have frame := reshaped_setColorWord u.heap u.tree.root .black
  rw [root] at frame ⊢
  refine ⟨(rootAddress_isNode next rep nonempty).nodeSetColor .black, ?_, ?_, ?_, ?_, ?_, balanced⟩
  · exact represents_setColor next .black rep distinct.1
  · rw [rootAddress_setColor]
    exact root
  · rw [addresses_of_inorder order]
    exact listRing_congr _ frame.list ring
  · rw [addresses_of_inorder order]
    refine pool.transport _ u.tree ?_ rfl rfl rfl
    intro slot member
    rw [frame.other slot]
    intro isRoot
    rw [List.mem_singleton.mp isRoot] at member
    exact distinct.2.2 (rootAddress_mem next nonempty) member
  · rw [ranges_of_inorder order]
    exact ascending

theorem rbInsert_eq (treeValid : rbTreeValid s = true) (range : TestRange)
    (valid : testRangeValid range = true) :
    rbInsert L s range = (do
      let (result, s) ← rbInsertHelper L (recursionBudget s) s s.tree.root range L.list .right
      let s := { s with tree := { s.tree with root := result.node } }
      if result.status = .ok then
        let heap ← nodeSetColor L s.heap s.tree.root .black
        return (result.status, { s with heap := heap })
      return (result.status, s)) := by
  simp [rbInsert, treeValid, valid]

theorem TreeInv.root_stored (inv : TreeInv L s t free) (u : RBState) (same : u.tree = s.tree) :
    { u with tree := { u.tree with root := rootAddress L t } } = u := by
  rw [← inv.root, ← same]

theorem TreeInv.insertOutcome {made : RBState} (inv : TreeInv L s t free) (new : Cell)
    (valid : testRangeValid new.range = true)
    (makes : rbTreeNodeMake L s new.range .red = .ok (new.address, made))
    (node : new.address = 0#64 ∨ NodeMade L s made (addresses t) new) {fuel : Nat}
    (enough : t.height < fuel) :
    InsertOutcome L s made t new [] []
      (rbInsertHelper L fuel s s.tree.root new.range L.list .right) := by
  rw [inv.root]
  exact rbInsertHelper_refines new (addresses t) inv.tree_valid valid makes node inv.ring
    inv.pool.list_distinct t _ [] [] L.list .right enough (by simp) inv.represents
    inv.ascending.1 (list_isNode L) rfl

theorem TreeInv.overlapped {made : RBState} {new : Cell} (inv : TreeInv L s t free)
    (valid : testRangeValid new.range = true) (result : insertCell t new = none)
    (outcome : InsertOutcome L s made t new [] []
      (rbInsertHelper L (recursionBudget s) s s.tree.root new.range L.list .right)) :
    (∃ held ∈ ranges t, rangesOverlap new.range held = true) ∧
      rbInsert L s new.range = .ok (.overlap, s) := by
  simp only [InsertOutcome, result] at outcome
  refine ⟨(insertCell_eq_none_iff t new inv.ascending valid).mp result, ?_⟩
  rw [rbInsert_eq inv.tree_valid _ valid, outcome]
  simp [inv.root_stored s rfl]

theorem TreeInv.no_overlap {next : ColorTree Cell} {new : Cell} (inv : TreeInv L s t free)
    (valid : testRangeValid new.range = true) (result : insertCell t new = some next) :
    ¬ ∃ held ∈ ranges t, rangesOverlap new.range held = true := by
  rw [← insertCell_eq_none_iff t new inv.ascending valid, result]
  simp

theorem TreeInv.refused {next : ColorTree Cell} {new : Cell} (inv : TreeInv L s t free)
    (valid : testRangeValid new.range = true) (noSlot : NoSlot s)
    (result : insertCell t new = some next) (missing : new.address = 0#64)
    (outcome : InsertOutcome L s (pageAlloc s).2 t new [] []
      (rbInsertHelper L (recursionBudget s) s s.tree.root new.range L.list .right)) :
    rbInsert L s new.range = .ok (.oom, (pageAlloc s).2) ∧ TreeInv L (pageAlloc s).2 t free := by
  simp only [InsertOutcome, result, missing, if_true] at outcome
  obtain ⟨pool, sameHeap, sameTree⟩ := inv.pool.refused noSlot.2
  refine ⟨?_, ?_, sameTree ▸ inv.root, ?_, pool, inv.ascending, inv.balanced⟩
  · rw [rbInsert_eq inv.tree_valid _ valid, outcome]
    simp [inv.root_stored _ sameTree]
  · rw [sameHeap]
    exact inv.represents
  · rw [sameHeap]
    exact inv.ring

theorem insertCell_ranges {next : ColorTree Cell} {new : Cell} (ascending : Ascending (ranges t))
    (valid : testRangeValid new.range = true) (result : insertCell t new = some next) :
    (ranges next).Perm (new.range :: ranges t) := by
  obtain ⟨front, back, before, placed, _⟩ := insertCell_inorder t next new ascending valid result
  rw [ranges, ranges, before, placed, List.map_append, List.map_append, List.map_cons]
  exact List.perm_middle

theorem SlotTaken.linked {made : RBState} {next : ColorTree Cell} {new : Cell} {last : Heap}
    (taken : SlotTaken L s made (addresses t) new.address)
    (result : insertCell t new = some next)
    (inserted : Inserted L made last t next new.address [] []) :
    ∃ free', Pool L { made with
        heap := last, tree := { made.tree with root := rootAddress L next } }
      (addresses next) free' := by
  obtain ⟨free', pool⟩ := taken.pool
  have grown := insertCell_addresses t next new result
  refine ⟨free', (pool.transport last { made.tree with root := rootAddress L next } ?_ rfl rfl
    rfl).perm grown.symm⟩
  intro slot member
  have outside : slot ∉ new.address :: addresses t := by
    have distinct := pool.nodup
    rw [List.nodup_append'] at distinct
    exact fun inside => distinct.2.2 inside member
  rw [List.mem_cons, not_or] at outside
  rw [(inserted.other slot outside.1 outside.2).2]

theorem TreeInv.inserted {made : RBState} {next : ColorTree Cell} {new : Cell}
    (inv : TreeInv L s t free) (valid : testRangeValid new.range = true)
    (taken : SlotTaken L s made (addresses t) new.address)
    (result : insertCell t new = some next) (nonzero : new.address ≠ 0#64)
    (outcome : InsertOutcome L s made t new [] []
      (rbInsertHelper L (recursionBudget s) s s.tree.root new.range L.list .right)) :
    ∃ last next free', rbInsert L s new.range = .ok (.ok, last) ∧ TreeInv L last next free' ∧
      (ranges next).Perm (new.range :: ranges t) ∧
      (last.requests = s.requests ∨ PoolFull s) := by
  simp only [InsertOutcome, result, if_neg nonzero] at outcome
  obtain ⟨last, completed, inserted⟩ := outcome
  obtain ⟨free', pool⟩ := taken.linked result inserted
  obtain ⟨n, balanced⟩ := inv.balanced
  have nonempty : next ≠ .nil := by
    have grown := insertCell_addresses t next new result
    rintro rfl
    simp at grown
  obtain ⟨painted, inv'⟩ := blacken_root { made with
      heap := last, tree := { made.tree with root := rootAddress L next } } next nonempty
    inserted.represents rfl (by simpa using inserted.ring) pool
    (insertCell_ascending t next new inv.ascending valid result)
    (insertCell_balanced t next _ balanced result).setBlack
  refine ⟨_, next.setColor .black, free', ?_, inv', ?_, taken.requests⟩
  · rw [rbInsert_eq inv.tree_valid _ valid, completed]
    simp only [exec_bind_ok, if_true, painted, exec_pure]
  · rw [ranges_of_inorder (ColorTree.inorder_setColor next .black)]
    exact insertCell_ranges inv.ascending valid result

/-- The three outcomes of `rb_insert` on a tree in order. -/
theorem rbInsert_step (inv : TreeInv L s t free) (range : TestRange)
    (valid : testRangeValid range = true) :
    ((∃ held ∈ ranges t, rangesOverlap range held = true) ∧
        rbInsert L s range = .ok (.overlap, s)) ∨
    (¬ ∃ held ∈ ranges t, rangesOverlap range held = true) ∧
      (NoSlot s ∧ rbInsert L s range = .ok (.oom, (pageAlloc s).2) ∧
          TreeInv L (pageAlloc s).2 t free ∨
        ¬ NoSlot s ∧ ∃ last next free', rbInsert L s range = .ok (.ok, last) ∧
          TreeInv L last next free' ∧ (ranges next).Perm (range :: ranges t) ∧
          (last.requests = s.requests ∨ PoolFull s)) := by
  have rootValid : nodeValid s.tree.root = true :=
    inv.root ▸ rootAddress_valid t inv.represents
  rcases rbTreeNodeMake_cases inv.pool rootValid range valid .red with
    ⟨noSlot, makes⟩ | ⟨slot, address, made, makes, taken, heldRange, red, leaf⟩
  · have outcome := inv.insertOutcome ⟨0#64, range⟩ valid makes (Or.inl rfl) inv.budget
    cases result : insertCell t ⟨0#64, range⟩ with
    | none => exact Or.inl (inv.overlapped valid result outcome)
    | some next =>
        exact Or.inr ⟨inv.no_overlap valid result,
          Or.inl ⟨noSlot, inv.refused valid noSlot result rfl outcome⟩⟩
  · have node : NodeMade L s made (addresses t) ⟨address, range⟩ :=
      taken.nodeMade ⟨address, range⟩ heldRange red leaf
    have outcome := inv.insertOutcome ⟨address, range⟩ valid makes (Or.inr node) inv.budget
    have nonzero : address ≠ 0#64 := ((nodeValid_iff _).mp node.isNode.1).1
    cases result : insertCell t ⟨address, range⟩ with
    | none => exact Or.inl (inv.overlapped valid result outcome)
    | some next =>
        exact Or.inr ⟨inv.no_overlap valid result,
          Or.inr ⟨slot, inv.inserted valid taken result nonzero outcome⟩⟩

theorem TreeInv.shrunk {middle : RBState} {free' : List U64} (inv : TreeInv L s t free)
    (below : Deletion) (range : TestRange) (valid : testRangeValid range = true)
    (call : rbDeleteHelper L (recursionBudget s) s s.tree.root range =
      .ok (⟨rootAddress L below.tree, deleteStatus below.kept⟩, middle))
    (rep : Represents L middle.heap below.tree)
    (ring : ListRing L middle.heap (addresses below.tree))
    (pool : Pool L middle (addresses below.tree) free')
    (kept : ranges below.tree = (ranges t).erase range)
    (balanced : ∃ n, Balanced (below.tree.setColor .black) .black n)
    (requests : middle.requests = s.requests) :
    ∃ last next free', rbDelete L s range = .ok last ∧ TreeInv L last next free' ∧
      ranges next = (ranges t).erase range ∧ last.requests = s.requests := by
  have unfolded : rbDelete L s range = (do
      let s := { middle with tree := { middle.tree with root := rootAddress L below.tree } }
      if below.tree.isNil then return s
      let heap ← nodeSetColor L s.heap s.tree.root .black
      return { s with heap := heap }) := by
    simp [rbDelete, inv.tree_valid, valid, call, rep.nodeIsNil]
  have ascending : Ascending (ranges below.tree) := by
    rw [kept]
    exact inv.ascending.sublist List.erase_sublist
  have pool' : Pool L { middle with
      tree := { middle.tree with root := rootAddress L below.tree } }
      (addresses below.tree) free' :=
    pool.transport _ _ (fun _ _ => rfl) rfl rfl rfl
  rw [unfolded]
  by_cases empty : below.tree.isNil = true
  · simp only [empty, if_true]
    rw [ColorTree.isNil_iff] at empty
    rw [empty] at kept rep ring pool' balanced ascending ⊢
    exact ⟨_, .nil, free', rfl, ⟨rep, rfl, ring, pool', ascending, balanced⟩, kept, requests⟩
  · obtain ⟨painted, inv'⟩ := blacken_root { middle with
        tree := { middle.tree with root := rootAddress L below.tree } } below.tree
      (ne_nil_of_isNil _ empty) rep rfl ring pool' ascending balanced
    simp only [empty, painted, exec_bind_ok, exec_pure]
    refine ⟨_, _, free', rfl, inv', ?_, requests⟩
    rw [ranges_of_inorder (ColorTree.inorder_setColor ..), kept]

theorem TreeInv.pool_deleted {middle : RBState} {below : Deletion} {freed : U64}
    (inv : TreeInv L s t free) (deleted : Deleted L s middle t below freed [] []) :
    Pool L middle (addresses below.tree) (freed :: free) := by
  have pushed := (inv.pool.perm deleted.perm).pushed
  have distinct := (inv.pool.perm deleted.perm).nodup
  rw [deleted.rest]
  refine pushed.transport _ { s.tree with freeList := freed } ?_ rfl rfl rfl
  intro slot member
  rcases List.mem_cons.mp member with rfl | member
  · rw [deleted.pushed]
    simp [pushFree]
  · rw [List.cons_append, List.nodup_cons, List.mem_append, not_or] at distinct
    have other : slot ≠ freed := fun same => distinct.1.2 (same ▸ member)
    have outside : slot ∉ addresses t := by
      intro inside
      have split := inv.pool.nodup
      rw [List.nodup_append'] at split
      exact split.2.2 inside member
    rw [(deleted.other slot outside).2, pushFree_other s freed slot other]

theorem deleteRange_setBlack (range : TestRange) {n : Nat} (balanced : Balanced t .black n) :
    ∃ m, Balanced ((deleteRange t range).tree.setColor .black) .black m := by
  have kept := deleteRange_balanced t range balanced
  cases flag : (deleteRange t range).kept with
  | true =>
      rw [flag, ColorTree.deleteBalanced_true] at kept
      obtain ⟨_, balanced', _⟩ := kept
      exact balanced'.setBlack
  | false =>
      rw [flag, ColorTree.deleteBalanced_false] at kept
      obtain ⟨_, _, _, balanced'⟩ := kept
      exact balanced'.setBlack

theorem TreeInv.holdsRange (inv : TreeInv L s t free) {range : TestRange}
    (valid : testRangeValid range = true) (stored : range ∈ ranges t) :
    ∃ freed, HoldsRange L s t range freed [] [] := by
  obtain ⟨freed, _, _, removed, _⟩ := deleteRange_addresses t range inv.ascending stored
  exact ⟨freed, inv.tree_valid, valid, inv.represents, inv.ascending, stored,
    by simpa using inv.ring, by simpa using inv.pool.list_distinct, removed⟩

/-- `rb_delete` takes out the range if it is stored, and changes no other one. -/
theorem rbDelete_step (inv : TreeInv L s t free) (range : TestRange)
    (valid : testRangeValid range = true) :
    ∃ last next free', rbDelete L s range = .ok last ∧ TreeInv L last next free' ∧
      ranges next = (ranges t).erase range ∧ last.requests = s.requests := by
  obtain ⟨n, balanced⟩ := inv.balanced
  by_cases stored : range ∈ ranges t
  · obtain ⟨freed, holds⟩ := inv.holdsRange valid stored
    obtain ⟨middle, call, deleted⟩ :=
      rbDeleteHelper_refines holds (recursionBudget s) inv.budget
    rw [← inv.root] at call
    have requests : middle.requests = s.requests := by rw [deleted.rest]
    exact inv.shrunk (deleteRange t range) range valid call deleted.represents
      (by simpa using deleted.ring) (inv.pool_deleted deleted)
      (deleteRange_ranges t range inv.ascending stored) (deleteRange_setBlack range balanced)
      requests
  · have call := rbDeleteHelper_absent inv.tree_valid range valid t inv.represents stored _
      inv.budget
    rw [← inv.root] at call
    apply inv.shrunk ⟨true, t, none⟩ range valid _ inv.represents inv.ring inv.pool _
      balanced.setBlack rfl
    · rw [← inv.root]
      exact call
    · rw [List.erase_of_not_mem stored]

theorem rbTreeNodeFree_all (t : ColorTree Cell) :
    ∀ (s : RBState) (fuel : Nat) (used free : List U64), t.height < fuel →
      rbTreeValid s = true → Represents L s.heap t → Pool L s (addresses t ++ used) free →
      ∃ last free', rbTreeNodeFree L fuel s (rootAddress L t) true = .ok last ∧
        Pool L last used free' ∧ rbTreeValid last = true ∧ last.requests = s.requests ∧
        ∀ q, q ∉ addresses t → last.heap q = s.heap q := by
  induction t with
  | nil =>
      intro s fuel used free bound treeValid rep pool
      cases fuel with
      | zero => exact absurd bound (Nat.not_lt_zero _)
      | succ fuel =>
          refine ⟨s, free, ?_, pool, treeValid, rfl, fun _ _ => rfl⟩
          simp [rbTreeNodeFree, treeValid, L.nodeNil_valid, nodeIsNil_nil]
  | node color left cell right ihl ihr =>
      intro s fuel used free bound treeValid rep pool
      cases fuel with
      | zero => exact absurd bound (Nat.not_lt_zero _)
      | succ fuel =>
          rw [ColorTree.height] at bound
          have isNode := rep.1.1
          have distinct := (List.nodup_append'.mp (List.nodup_append'.mp pool.nodup).1).1
          obtain ⟨outLeft, outRight, _, _, disjoint⟩ :=
            (nodup_addresses_mk .left color left right cell).mp distinct
          have wordLeft := rep.nodeGetChild (by simp) .left
          simp only [rootAddress_node, ColorTree.child] at wordLeft
          obtain ⟨first, free₁, freedLeft, pool₁, valid₁, requests₁, other₁⟩ := ihl s fuel
            (cell.address :: (addresses right ++ used)) free (by omega) treeValid rep.2.1
            (by simpa using pool)
          -- the node and its right side are as they were
          have here := other₁ cell.address outLeft
          have repRight : Represents L first.heap right := by
            refine represents_congr right ?_ rep.2.2
            intro q member
            rw [SameNode, other₁ q (fun inLeft => disjoint inLeft member)]
            exact ⟨rfl, rfl⟩
          have wordRight : nodeGetChild L first.heap cell.address .right =
              .ok (rootAddress L right) := by
            have same : childOf first.heap cell.address .right = rootAddress L right := by
              rw [childOf, here]
              exact rep.1.2.2.2.2
            rw [isNode.nodeGetChild .right (same ▸ rootAddress_valid right repRight), same]
          obtain ⟨second, free₂, freedRight, pool₂, valid₂, requests₂, other₂⟩ := ihr first fuel
            (cell.address :: used) free₁ (by omega) valid₁ repRight
            (pool₁.perm List.perm_middle.symm)
          refine ⟨pushFree second cell.address, cell.address :: free₂, ?_, pool₂.pushed, valid₂,
            requests₂.trans requests₁, ?_⟩
          · simp [rbTreeNodeFree, rootAddress_node, treeValid, isNode.1, isNode.nodeIsNil, wordLeft,
              freedLeft, wordRight, freedRight]
          · intro q outside
            rw [addresses_node, List.mem_append, List.mem_cons, not_or, not_or] at outside
            rw [pushFree_other _ _ _ outside.2.1, other₂ q outside.2.2, other₁ q outside.1]

theorem rbClear_step (inv : TreeInv L s t free) :
    ∃ last free', rbClear L s = .ok last ∧ TreeInv L last .nil free' ∧
      last.requests = s.requests := by
  obtain ⟨middle, free', freed, pool, _, requests, _⟩ := rbTreeNodeFree_all t s
    (recursionBudget s) [] free inv.budget inv.tree_valid inv.represents
    (by simpa using inv.pool)
  rw [← inv.root] at freed
  refine ⟨{ middle with
    tree := { middle.tree with root := L.nodeNil }, heap := resetList L middle.heap }, free', ?_,
    ⟨trivial, rfl, resetList_ring middle.heap, ?_, ?_, 0, .nil⟩, requests⟩
  · simp [rbClear, inv.tree_valid, freed]
  · refine pool.transport _ _ ?_ rfl rfl rfl
    intro slot _
    rw [(resetList_same middle.heap slot).2]
  · simp [Ascending]

end Drastic
