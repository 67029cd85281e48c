import Drastic.RangeTree.AbstractDelete
import Drastic.RangeTree.InsertRefines

namespace Drastic

open Library.RedBlack (Direction Color ColorTree)
open Library.RedBlack.ColorTree (mk eq_nil_or_mk)

variable {L : Layout} {s : RBState}

/-- The state after a deletion below some node: the slot `freed` left the tree and
the list for the free list, and nothing else of the pool changed. -/
structure Deleted (L : Layout) (s last : RBState) (t : ColorTree Cell) (result : Deletion)
    (freed : U64) (front back : List U64) : Prop where
  represents : Represents L last.heap result.tree
  ring : ListRing L last.heap (front ++ (addresses result.tree ++ back))
  other : ∀ q, q ∉ addresses t → SameNode s.heap last.heap q
  perm : (addresses t).Perm (freed :: addresses result.tree)
  pushed : (last.heap freed).children .right = s.tree.freeList
  rest : last = { s with heap := last.heap, tree := { s.tree with freeList := freed } }

/-- Below an untouched child every level writes back the word it read. -/
theorem rbDeleteDescend_absent (d : Direction) (c : Color) (near far : ColorTree Cell) (cell : Cell)
    (range : TestRange) (recurse : RBState → U64 → TestRange → Exec (RBDeleteResult × RBState))
    (rep : Represents L s.heap (mk d c near cell far))
    (way : comparisonDirection (testRangeCompare range cell.range) = d)
    (below : recurse s (rootAddress L near) range = .ok (⟨rootAddress L near, .ok⟩, s)) :
    rbDeleteDescend L recurse s cell.address range = .ok (⟨cell.address, .ok⟩, s) := by
  have word := rep.nodeGetChild (by simp) d
  rw [rootAddress_mk, ColorTree.child_mk] at word
  obtain ⟨⟨isNode, held, _, same, _⟩, repNear, _⟩ := (represents_mk ..).mp rep
  have write : nodeSetChild L s.heap cell.address d (rootAddress L near) = .ok s.heap := by
    rw [isNode.nodeSetChild d (rootAddress_valid near repNear), ← same, setChildWord_self]
  unfold rbDeleteDescend
  simp [held, way, word, below, write, isNode.1]

theorem rbDeleteHelper_node (treeValid : rbTreeValid s = true) {range : TestRange}
    (valid : testRangeValid range = true) {color : Color} {left right : ColorTree Cell}
    {cell : Cell} (rep : Represents L s.heap (.node color left cell right)) (fuel : Nat) :
    rbDeleteHelper L (fuel + 1) s cell.address range =
      if testRangeCompare cell.range range = 0 then
        if (left.isNil || right.isNil) = true then rbDeleteRemove L s cell.address
        else rbDeletePredecessor L fuel (rbDeleteHelper L fuel) s cell.address
      else rbDeleteDescend L (rbDeleteHelper L fuel) s cell.address range := by
  obtain ⟨isNode, held, _⟩ := rep.1
  have hasLeft := rep.nodeHasChild (by simp) .left
  have hasRight := rep.nodeHasChild (by simp) .right
  simp only [rootAddress_node, ColorTree.child] at hasLeft hasRight
  rw [rbDeleteHelper]
  simp only [treeValid, valid, kassert_true, exec_bind_ok, isNode.nodeIsNil, isNode.assertNotNil,
    held, hasLeft, hasRight, execAnd_ok, Bool.false_eq_true, if_false]
  have either : (!(!left.isNil && !right.isNil)) = (left.isNil || right.isNil) := by
    rw [Bool.not_and, Bool.not_not, Bool.not_not]
  rw [either]

theorem rbDeleteHelper_absent (treeValid : rbTreeValid s = true) (range : TestRange)
    (valid : testRangeValid range = true) (t : ColorTree Cell) (rep : Represents L s.heap t)
    (absent : range ∉ ranges t) : ∀ fuel, t.height < fuel →
      rbDeleteHelper L fuel s (rootAddress L t) range = .ok (⟨rootAddress L t, .ok⟩, s) := by
  induction t with
  | nil =>
      intro fuel bound
      cases fuel with
      | zero => exact absurd bound (Nat.not_lt_zero _)
      | succ fuel =>
          simp [rbDeleteHelper, treeValid, valid, nodeIsNil_nil, L.nodeNil_valid]
  | node color left cell right ihl ihr =>
      intro fuel bound
      cases fuel with
      | zero => exact absurd bound (Nat.not_lt_zero _)
      | succ fuel =>
          simp only [ranges_node, List.mem_append, List.mem_cons, not_or] at absent
          have different : ¬ testRangeCompare cell.range range = 0 := by
            rw [testRangeCompare_eq_zero_iff]
            exact Ne.symm absent.2.1
          rw [ColorTree.height] at bound
          rw [rootAddress_node, rbDeleteHelper_node treeValid valid rep, if_neg different]
          cases way : comparisonDirection (testRangeCompare range cell.range) with
          | left =>
              exact rbDeleteDescend_absent .left color left right cell range _ rep way
                (ihl rep.2.1 absent.1 fuel (by omega))
          | right =>
              exact rbDeleteDescend_absent .right color right left cell range _ rep way
                (ihr rep.2.2 absent.2.2 fuel (by omega))

section

variable {middle : RBState} {d : Direction} {c : Color} {near far : ColorTree Cell} {cell : Cell}
  {below : Deletion} {freed : U64} {front back : List U64}

theorem Deleted.within (deleted : Deleted L s middle near below freed front back) {q : U64}
    (member : q ∈ addresses below.tree) : q ∈ addresses near :=
  deleted.perm.mem_iff.mpr (List.mem_cons_of_mem _ member)

theorem nodup_above (deleted : Deleted L s middle near below freed front back)
    (distinct : (addresses (mk d c near cell far)).Nodup) :
    (addresses (mk d c below.tree cell far)).Nodup := by
  obtain ⟨outNear, outFar, distinctNear, distinctFar, disjoint⟩ :=
    (nodup_addresses_mk ..).mp distinct
  have distinctBelow := deleted.perm.nodup_iff.mp distinctNear
  rw [nodup_addresses_mk]
  exact ⟨fun member => outNear (deleted.within member), outFar,
    (List.nodup_cons.mp distinctBelow).2, distinctFar,
    fun q inBelow inFar => disjoint (deleted.within inBelow) inFar⟩

theorem freed_above (deleted : Deleted L s middle near below freed front back)
    (distinct : (addresses (mk d c near cell far)).Nodup) :
    freed ∉ addresses (mk d c below.tree cell far) := by
  obtain ⟨outNear, _, distinctNear, _, disjoint⟩ := (nodup_addresses_mk ..).mp distinct
  have freedNear : freed ∈ addresses near := deleted.perm.mem_iff.mpr (by simp)
  rw [mem_addresses_mk, not_or, not_or]
  refine ⟨?_, (List.nodup_cons.mp (deleted.perm.nodup_iff.mp distinctNear)).1,
    fun inFar => disjoint freedNear inFar⟩
  rintro same
  exact outNear (same ▸ freedNear)

theorem deleted_above {t : ColorTree Cell} {heap₁ heap₂ : Heap}
    (deleted : Deleted L s middle near below freed (sideFront d far cell front)
      (sideBack d far cell back))
    (distinct : (addresses (mk d c near cell far)).Nodup)
    (written : Reshaped middle.heap heap₁ [cell.address])
    (shape : Reshaped heap₁ heap₂ (addresses (mk d c below.tree cell far))) (kept : Bool)
    (order : t.inorder = (mk d c below.tree cell far).inorder) (rep : Represents L heap₂ t) :
    Deleted L s { middle with heap := heap₂ } (mk d c near cell far) ⟨kept, t, below.removed⟩
      freed front back := by
  have same := addresses_of_inorder order
  have freedOut := freed_above deleted distinct
  refine ⟨rep, ?_, ?_, ?_, ?_, ?_⟩
  · rw [same, ← side_list]
    exact listRing_congr _ (fun q => (shape.list q).trans (written.list q)) deleted.ring
  · intro q outside
    rw [mem_addresses_mk, not_or, not_or] at outside
    refine (deleted.other q outside.2.1).trans ((written.same q (by simpa using outside.1)).trans
      (shape.same q ?_))
    rw [mem_addresses_mk, not_or, not_or]
    exact ⟨outside.1, fun member => outside.2.1 (deleted.within member), outside.2.2⟩
  · rw [same]
    calc
      List.Perm (addresses (mk d c near cell far))
          (cell.address :: (addresses near ++ addresses far)) := addresses_mk_perm ..
      List.Perm _ (cell.address :: freed :: (addresses below.tree ++ addresses far)) :=
        (deleted.perm.append_right _).cons _
      List.Perm _ (freed :: cell.address :: (addresses below.tree ++ addresses far)) :=
        List.Perm.swap ..
      List.Perm _ (freed :: addresses (mk d c below.tree cell far)) :=
        (addresses_mk_perm ..).symm.cons _
  · have untouched : heap₂ freed = middle.heap freed := by
      rw [shape.other freed freedOut]
      apply written.other freed
      rw [mem_addresses_mk, not_or] at freedOut
      simpa using freedOut.1
    simp only [untouched]
    exact deleted.pushed
  · exact congrArg (fun state : RBState => { state with heap := heap₂ }) deleted.rest

theorem rbDeleteDescend_refines (d : Direction) (c : Color) (near far : ColorTree Cell)
    (cell : Cell)
    (range : TestRange) (recurse : RBState → U64 → TestRange → Exec (RBDeleteResult × RBState))
    (middle : RBState) (below : Deletion) (freed : U64) (front back : List U64)
    (rep : Represents L s.heap (mk d c near cell far))
    (distinct : (addresses (mk d c near cell far)).Nodup)
    (way : comparisonDirection (testRangeCompare range cell.range) = d)
    (call : recurse s (rootAddress L near) range =
      .ok (⟨rootAddress L below.tree, deleteStatus below.kept⟩, middle))
    (deleted : Deleted L s middle near below freed (sideFront d far cell front)
      (sideBack d far cell back)) :
    ∃ last, rbDeleteDescend L recurse s cell.address range =
        .ok (⟨rootAddress L (rejoin (mk d c below.tree cell far) d below).tree,
          deleteStatus (rejoin (mk d c below.tree cell far) d below).kept⟩, last) ∧
      Deleted L s last (mk d c near cell far) (rejoin (mk d c below.tree cell far) d below) freed
        front back := by
  have word := rep.nodeGetChild (by simp) d
  rw [rootAddress_mk, ColorTree.child_mk] at word
  obtain ⟨⟨isNode, held, _⟩, _, _⟩ := (represents_mk ..).mp rep
  obtain ⟨written, repNow⟩ := nodeSetChild_refines middle.heap _ below.tree d rep (by simp)
    distinct (fun q _ outside => deleted.other q (by simpa using outside)) deleted.represents
    (by
      rw [rootAddress_mk]
      exact fun member => ((nodup_addresses_mk ..).mp distinct).1 (deleted.within member))
  rw [rootAddress_mk] at written repNow
  rw [ColorTree.setChild_mk] at repNow
  have frame := reshaped_setChildWord middle.heap cell.address (rootAddress L below.tree) d
  generalize setChildWord middle.heap cell.address d (rootAddress L below.tree) = heap₁ at *
  unfold rbDeleteDescend
  simp only [held, way, word, call, exec_bind_ok, written]
  unfold rejoin
  cases flag : below.kept with
  | true =>
      refine ⟨{ middle with heap := heap₁ }, ?_,
        deleted_above deleted distinct frame (.refl _ _) true rfl repNow⟩
      simp [deleteStatus, isNode.1]
  | false =>
      obtain ⟨heap₂, repaired, repLast, shape⟩ := rbDeleteFixUp_refines _ d repNow
        (nodup_above deleted distinct) (by simp)
      rw [rootAddress_mk] at repaired
      refine ⟨{ middle with heap := heap₂ }, ?_,
        deleted_above deleted distinct frame shape _ (ColorTree.inorder_deleteFixUp _ d) repLast⟩
      simp [deleteStatus, repaired, rootAddress_valid _ repLast]

end

theorem rightMost_refines {heap : Heap} (t : ColorTree Cell) (rep : Represents L heap t)
    (nonempty : t ≠ .nil) (found : Cell) : ∀ fuel, t.height ≤ fuel →
      rightMost L fuel heap (rootAddress L t) = .ok (lastCell t found).address := by
  induction t generalizing found with
  | nil => exact absurd rfl nonempty
  | node color left cell right _ ihr =>
      intro fuel bound
      cases fuel with
      | zero => simp [ColorTree.height] at bound
      | succ fuel =>
          rw [ColorTree.height] at bound
          have right_child := rep.nodeHasChild (by simp) .right
          have word := rep.nodeGetChild (by simp) .right
          simp only [rootAddress_node, ColorTree.child] at right_child word
          simp only [rootAddress_node, rightMost, right_child, exec_bind_ok]
          cases right with
          | nil => rfl
          | node =>
              simp only [ColorTree.isNil, Bool.not_false, if_true, word, exec_bind_ok]
              exact ihr rep.2.2 (by simp) cell fuel (by omega)

theorem represents_range {heap : Heap} (t : ColorTree Cell) (rep : Represents L heap t) :
    ∀ cell ∈ t.inorder, (heap cell.address).range = cell.range := by
  induction t with
  | nil => simp [ColorTree.inorder]
  | node color left cell right ihl ihr =>
      intro other member
      rw [ColorTree.inorder, List.mem_append, List.mem_cons] at member
      rcases member with member | rfl | member
      · exact ihl rep.2.1 other member
      · exact rep.1.2.1
      · exact ihr rep.2.2 other member

theorem rbDeleteTemp_refines {heap : Heap} (color : Color) (left right : ColorTree Cell)
    (cell : Cell)
    (rep : Represents L heap (.node color left cell right)) :
    rbDeleteTemp L heap cell.address = .ok (rootAddress L (onlyChild left right)) := by
  have has := rep.nodeHasChild (by simp)
  have word := rep.nodeGetChild (by simp)
  simp only [rootAddress_node] at has word
  simp only [rbDeleteTemp, has, exec_bind_ok]
  cases left <;> cases right <;> simp [ColorTree.child, ColorTree.isNil, word, onlyChild]

theorem rbDeleteRecolor_refines {heap : Heap} (color : Color) (left right : ColorTree Cell)
    (cell : Cell) (rep : Represents L heap (.node color left cell right))
    (distinct : (addresses (onlyChild left right)).Nodup) :
    ∃ last, rbDeleteRecolor L heap cell.address (rootAddress L (onlyChild left right)) =
        .ok (deleteStatus (removeNode color left right).1, last) ∧
      Represents L last (removeNode color left right).2 ∧
      rootAddress L (removeNode color left right).2 = rootAddress L (onlyChild left right) ∧
      Reshaped heap last (addresses (onlyChild left right)) := by
  have red := rep.nodeRed
  have repMoved : Represents L heap (onlyChild left right) := by
    unfold onlyChild
    split
    · exact rep.2.1
    · exact rep.2.2
  simp only [rootAddress_node, ColorTree.isRed, ColorTree.color] at red
  simp only [rbDeleteRecolor, red, exec_bind_ok, repMoved.nodeRed, removeNode]
  generalize onlyChild left right = temp at *
  by_cases isRed : color = .red
  · simp only [isRed, decide_true, if_true]
    exact ⟨heap, rfl, repMoved, trivial, .refl _ _⟩
  · simp only [isRed, decide_false]
    by_cases grown : temp.isRed = true
    · have present := ColorTree.ne_nil_of_isRed temp grown
      simp only [grown, if_true, (rootAddress_isNode temp repMoved present).nodeSetColor,
        exec_bind_ok]
      refine ⟨_, rfl, represents_setColor temp .black repMoved distinct, rootAddress_setColor ..,
        (reshaped_setColorWord heap _ .black).mono ?_⟩
      simpa using rootAddress_mem temp present
    · simp only [grown]
      exact ⟨heap, rfl, repMoved, rfl, .refl _ _⟩

theorem rbTreeNodeFree_one (treeValid : rbTreeValid s = true) {node : U64}
    (isNode : IsNode L node) : rbTreeNodeFree L 1 s node false = .ok (pushFree s node) := by
  simp [rbTreeNodeFree, treeValid, isNode.1, isNode.nodeIsNil]

theorem deleted_here {heap₁ heap₂ : Heap} (color : Color) (left right : ColorTree Cell)
    (cell : Cell) (front back : List U64) (leaf : (left.isNil || right.isNil) = true)
    (distinct : (addresses (.node color left cell right)).Nodup)
    (rep : Represents L heap₁ (removeNode color left right).2)
    (recolored : Reshaped s.heap heap₁ (addresses (onlyChild left right)))
    (unlinked : ∀ q, SameNode heap₁ heap₂ q)
    (ring : ListRing L heap₂ ((front ++ addresses left) ++ (addresses right ++ back))) :
    Deleted L s (pushFree { s with heap := heap₂ } cell.address) (.node color left cell right)
      ⟨(removeNode color left right).1, (removeNode color left right).2, some cell.address⟩
      cell.address front back := by
  have order := addresses_removeNode color leaf
  obtain ⟨outLeft, outRight, _⟩ := (nodup_addresses_mk .left color left right cell).mp distinct
  have kept (q : U64) (other : q ≠ cell.address) :
      SameNode heap₁ (pushFree { s with heap := heap₂ } cell.address).heap q := by
    rw [SameNode, pushFree_other _ cell.address q other]
    exact unlinked q
  refine ⟨?_, ?_, ?_, ?_, ?_, rfl⟩
  · refine represents_congr _ ?_ rep
    intro q member
    apply kept q
    rintro rfl
    rw [order, List.mem_append] at member
    exact member.elim outLeft outRight
  · rw [order]
    apply listRing_congr _ (pushFree_list { s with heap := heap₂ } cell.address)
    simpa using ring
  · intro q notMember
    rw [addresses_node, List.mem_append, List.mem_cons, not_or, not_or] at notMember
    refine (recolored.same q ?_).trans (kept q notMember.2.1)
    rw [addresses_onlyChild leaf, List.mem_append, not_or]
    exact ⟨notMember.1, notMember.2.2⟩
  · rw [order, addresses_node]
    exact List.perm_middle
  · simp [pushFree]

theorem rbDeleteRemove_refines (treeValid : rbTreeValid s = true) (color : Color)
    (left right : ColorTree Cell) (cell : Cell) (front back : List U64)
    (rep : Represents L s.heap (.node color left cell right))
    (leaf : (left.isNil || right.isNil) = true)
    (ring : ListRing L s.heap (front ++ (addresses (.node color left cell right) ++ back)))
    (distinct : (L.list :: (front ++ (addresses (.node color left cell right) ++ back))).Nodup) :
    ∃ last, rbDeleteRemove L s cell.address =
        .ok (⟨rootAddress L (removeNode color left right).2,
          deleteStatus (removeNode color left right).1⟩, last) ∧
      Deleted L s last (.node color left cell right)
        ⟨(removeNode color left right).1, (removeNode color left right).2, some cell.address⟩
        cell.address front back := by
  have isNode := rep.1.1
  have distinctTree : (addresses (.node color left cell right)).Nodup :=
    distinct.of_cons.of_append_right.of_append_left
  obtain ⟨_, _, distinctLeft, distinctRight, _⟩ :=
    (nodup_addresses_mk .left color left right cell).mp distinctTree
  have distinctMoved : (addresses (onlyChild left right)).Nodup := by
    unfold onlyChild
    split
    · exact distinctLeft
    · exact distinctRight
  obtain ⟨heap₁, patched, rep₁, root, shape⟩ :=
    rbDeleteRecolor_refines color left right cell rep distinctMoved
  have ring₁ : ListRing L heap₁ ((front ++ addresses left) ++ cell.address ::
      (addresses right ++ back)) := by
    apply listRing_congr _ shape.list
    simpa using ring
  obtain ⟨heap₂, unlinked, same, ring₂⟩ := nodeRemoveFromList_ring cell.address
    (front ++ addresses left) (addresses right ++ back) isNode ring₁ (by simpa using distinct)
  refine ⟨pushFree { s with heap := heap₂ } cell.address, ?_,
    deleted_here color left right cell front back leaf distinctTree rep₁ shape same ring₂⟩
  have valid := rootAddress_valid _ rep₁
  have freedNow := rbTreeNodeFree_one (s := { s with heap := heap₂ }) treeValid isNode
  rw [root] at valid
  simp [rbDeleteRemove, rbDeleteTemp_refines color left right cell rep, patched, unlinked,
    freedNow, valid, root]

theorem setRange_same {heap : Heap} (node q : U64) (range : TestRange) (different : q ≠ node) :
    SameNode heap (setRange heap node range) q := by
  simp [SameNode, setRange, different]

theorem setRange_list {heap : Heap} (node q : U64) (range : TestRange) :
    (setRange heap node range q).list = (heap q).list := by
  by_cases same : q = node <;> simp [setRange, same]

theorem represents_setRange {heap : Heap} (color : Color) (left right : ColorTree Cell)
    (cell : Cell)
    (range : TestRange) (rep : Represents L heap (.node color left cell right))
    (distinct : (addresses (.node color left cell right)).Nodup) :
    Represents L (setRange heap cell.address range)
      (.node color left { cell with range := range } right) := by
  obtain ⟨outLeft, outRight, _⟩ := (nodup_addresses_mk .left color left right cell).mp distinct
  obtain ⟨⟨isNode, _, colored, near, far⟩, repLeft, repRight⟩ := rep
  refine ⟨⟨isNode, by simp [setRange], ?_, ?_, ?_⟩, represents_congr left ?_ repLeft,
    represents_congr right ?_ repRight⟩
  · simpa [colorOf, setRange] using colored
  · simpa [childOf, setRange] using near
  · simpa [childOf, setRange] using far
  · intro q member
    exact setRange_same _ q range (by rintro rfl; exact outLeft member)
  · intro q member
    exact setRange_same _ q range (by rintro rfl; exact outRight member)

/-- The cell before a node on the list is the last one of its left subtree. -/
theorem ring_before (color : Color) (left right : ColorTree Cell) (cell found : Cell)
    (front back : List U64) (nonempty : left ≠ .nil)
    (ring : ListRing L s.heap (front ++ (addresses (.node color left cell right) ++ back))) :
    (s.heap (lastCell left found).address).list .right = cell.address := by
  obtain ⟨first, shape⟩ := lastCell_inorder left found nonempty
  have listed : addresses left = first.map Cell.address ++ [(lastCell left found).address] := by
    rw [addresses, shape, List.map_append]
    rfl
  have gap := Library.Ring.links_gap L.list L.list
    (front ++ first.map Cell.address ++ [(lastCell left found).address])
    (cell.address :: (addresses right ++ back)) (by simpa [ListRing, listed] using ring)
  rw [Library.Ring.before_concat, Library.Ring.after_cons] at gap
  exact gap.1

def Deletes (L : Layout) (recurse : RBState → U64 → TestRange → Exec (RBDeleteResult × RBState))
    (s : RBState) (t : ColorTree Cell) (result : Deletion) (range : TestRange) (freed : U64)
    (front back : List U64) : Prop :=
  ∃ last, recurse s (rootAddress L t) range =
      .ok (⟨rootAddress L result.tree, deleteStatus result.kept⟩, last) ∧
    Deleted L s last t result freed front back

theorem rbDeletePredecessor_refines (color : Color) (left right : ColorTree Cell) (cell : Cell)
    (fuel : Nat) (recurse : RBState → U64 → TestRange → Exec (RBDeleteResult × RBState))
    (front back : List U64) (freed : U64) (below : Deletion)
    (rep : Represents L s.heap (.node color left cell right))
    (distinct : (addresses (.node color left cell right)).Nodup)
    (ring : ListRing L s.heap (front ++ (addresses (.node color left cell right) ++ back)))
    (nonempty : left ≠ .nil) (bound : left.height ≤ fuel)
    (call : Deletes L recurse
      { s with heap := setRange s.heap cell.address (lastCell left cell).range } left below
      (lastCell left cell).range freed front (cell.address :: (addresses right ++ back))) :
    ∃ last, rbDeletePredecessor L fuel recurse s cell.address =
        .ok (⟨rootAddress L (rejoin (.node color below.tree
            { cell with range := (lastCell left cell).range } right) .left below).tree,
          deleteStatus (rejoin (.node color below.tree
            { cell with range := (lastCell left cell).range } right) .left below).kept⟩, last) ∧
      Deleted L s last (.node color left cell right) (rejoin (.node color below.tree
        { cell with range := (lastCell left cell).range } right) .left below) freed front back := by
  have wordLeft := rep.nodeGetChild (by simp) .left
  simp only [rootAddress_node, ColorTree.child] at wordLeft
  have walked := rightMost_refines left rep.2.1 nonempty cell fuel bound
  have heldLast := represents_range left rep.2.1 _ (lastCell_mem left cell nonempty)
  have linked := ring_before color left right cell cell front back nonempty ring
  obtain ⟨middle, completed, deleted⟩ := call
  simp only [rbDeletePredecessor, wordLeft, exec_bind_ok, walked, linked, decide_true,
    kassert_true, heldLast]
  generalize (lastCell left cell).range = moved at *
  obtain ⟨last, done, deleted⟩ := rbDeleteDescend_refines .left color left right
    { cell with range := moved } moved recurse middle below freed front back
    (represents_setRange color left right cell moved rep distinct) (by simpa [mk] using distinct)
    (by simp [comparisonDirection, (testRangeCompare_eq_zero_iff moved moved).mpr rfl])
    completed deleted
  refine ⟨last, done, deleted.represents, deleted.ring, ?_, ?_, deleted.pushed, deleted.rest⟩
  · intro q outside
    refine (setRange_same cell.address q moved ?_).trans
      (deleted.other q (by simpa [mk] using outside))
    rintro rfl
    simp at outside
  · simpa [mk] using deleted.perm

structure HoldsRange (L : Layout) (s : RBState) (t : ColorTree Cell) (range : TestRange)
    (freed : U64) (front back : List U64) : Prop where
  treeValid : rbTreeValid s = true
  valid : testRangeValid range = true
  represents : Represents L s.heap t
  ascending : Ascending (ranges t)
  stored : range ∈ ranges t
  ring : ListRing L s.heap (front ++ (addresses t ++ back))
  distinct : (L.list :: (front ++ (addresses t ++ back))).Nodup
  removed : (deleteRange t range).removed = some freed

section

variable {color : Color} {left right : ColorTree Cell} {cell : Cell} {range : TestRange}
  {freed : U64} {front back : List U64}

theorem HoldsRange.distinctTree {t : ColorTree Cell}
    (holds : HoldsRange L s t range freed front back) : (addresses t).Nodup :=
  holds.distinct.of_cons.of_append_right.of_append_left

theorem HoldsRange.inLeft (holds : HoldsRange L s (.node color left cell right) range freed front
    back) (inside : range ∈ ranges left) (removed : (deleteRange left range).removed = some freed) :
    HoldsRange L s left range freed front (cell.address :: (addresses right ++ back)) where
  treeValid := holds.treeValid
  valid := holds.valid
  represents := holds.represents.2.1
  ascending := (ascending_node holds.ascending).1
  stored := inside
  ring := by simpa using holds.ring
  distinct := by simpa using holds.distinct
  removed := removed

theorem HoldsRange.inRight (holds : HoldsRange L s (.node color left cell right) range freed front
    back) (inside : range ∈ ranges right)
    (removed : (deleteRange right range).removed = some freed) :
    HoldsRange L s right range freed (front ++ (addresses left ++ [cell.address])) back where
  treeValid := holds.treeValid
  valid := holds.valid
  represents := holds.represents.2.2
  ascending := (ascending_node holds.ascending).2.2.1
  stored := inside
  ring := by simpa using holds.ring
  distinct := by simpa using holds.distinct
  removed := removed

theorem HoldsRange.predecessor (holds : HoldsRange L s (.node color left cell right) range freed
    front back) (inside : (lastCell left cell).range ∈ ranges left)
    (removed : (deleteRange left (lastCell left cell).range).removed = some freed) :
    HoldsRange L { s with heap := setRange s.heap cell.address (lastCell left cell).range } left
      (lastCell left cell).range freed front (cell.address :: (addresses right ++ back)) where
  treeValid := holds.treeValid
  valid := (ascending_node holds.ascending).1.1 _ inside
  represents :=
    (represents_setRange color left right cell _ holds.represents holds.distinctTree).2.1
  ascending := (ascending_node holds.ascending).1
  stored := inside
  ring := listRing_congr _ (fun q => setRange_list cell.address q _) (by simpa using holds.ring)
  distinct := by simpa using holds.distinct
  removed := removed

end

theorem rbDeleteHelper_refines {t : ColorTree Cell} {range : TestRange} {freed : U64}
    {front back : List U64} (holds : HoldsRange L s t range freed front back) (fuel : Nat)
    (enough : t.height < fuel) :
    Deletes L (rbDeleteHelper L fuel) s t (deleteRange t range) range freed front back := by
  induction t generalizing s range fuel front back with
  | nil => exact absurd holds.stored List.not_mem_nil
  | node color left cell right ihl ihr =>
      cases fuel with
      | zero => exact absurd enough (Nat.not_lt_zero _)
      | succ fuel =>
          rw [ColorTree.height] at enough
          have rep := holds.represents
          have removed := holds.removed
          have compared := testRangeCompare_eq_zero_iff cell.range range
          have step := deleteRange_step holds.ascending holds.stored
          unfold Deletes
          rw [rootAddress_node, rbDeleteHelper_node holds.treeValid holds.valid rep]
          generalize deleteRange (.node color left cell right) range = result at step removed ⊢
          cases step with
          | node found leaf =>
              obtain rfl : cell.address = freed := Option.some.inj removed
              rw [if_pos (compared.mpr found), if_pos leaf]
              exact rbDeleteRemove_refines holds.treeValid color left right cell front back rep leaf
                holds.ring holds.distinct
          | predecessor found both nonempty held =>
              rw [rejoin_removed] at removed
              rw [if_pos (compared.mpr found), if_neg both]
              exact rbDeletePredecessor_refines color left right cell fuel _ front back freed _ rep
                holds.distinctTree holds.ring nonempty (by omega)
                (ihl (holds.predecessor held removed) fuel (by omega))
          | left different way inside =>
              rw [rejoin_removed] at removed
              obtain ⟨middle, call, below⟩ := ihl (holds.inLeft inside removed) fuel (by omega)
              rw [if_neg (fun same => different (compared.mp same))]
              exact rbDeleteDescend_refines .left color left right cell range _ middle _ freed
                front back rep holds.distinctTree way call below
          | right different way inside =>
              rw [rejoin_removed] at removed
              obtain ⟨middle, call, below⟩ := ihr (holds.inRight inside removed) fuel (by omega)
              rw [if_neg (fun same => different (compared.mp same))]
              exact rbDeleteDescend_refines .right color right left cell range _ middle _ freed
                front back rep holds.distinctTree way call below

end Drastic
