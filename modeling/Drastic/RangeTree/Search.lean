import Drastic.Library.RedBlack.Search
import Drastic.RangeTree.Runs

namespace Drastic

open Library.RedBlack (Direction ColorTree below level above mem_below mem_level mem_above)
open Library.RedBlack.ColorTree (mk eq_nil_or_mk Lasting)
open Library.Ring (before after)

/-- Their common loop: after a start that satisfies `beyond` the descent turns to `side`
and remembers the node, otherwise it turns to the other side. -/
def findByStart (L : Layout) (beyond : U64 → Bool) (side : RBDirection) :
    Nat → Heap → U64 → U64 → Exec U64
  | 0, _, _, _ => .error .recursionDepth
  | fuel + 1, heap, node, best => do
    if ← nodeIsNil L node then return best
    if beyond (heap node).range.start then
      findByStart L beyond side fuel heap (← nodeGetChild L heap node side) node
    else
      findByStart L beyond side fuel heap (← nodeGetChild L heap node (rbDirectionFlip side)) best

def rbFindPrevByStart (L : Layout) (s : RBState) (start : U64) : Exec U64 := do
  kassert (rbTreeValid s) "rb_tree_valid(tree)"
  let best ← findByStart L (fun held => held < start) .right (recursionBudget s) s.heap
    s.tree.root L.nodeNil
  kassert (nodeValid best) "node_valid(best)"
  return best

def rbFindNextByStart (L : Layout) (s : RBState) (start : U64) : Exec U64 := do
  kassert (rbTreeValid s) "rb_tree_valid(tree)"
  let best ← findByStart L (fun held => held > start) .left (recursionBudget s) s.heap
    s.tree.root L.nodeNil
  kassert (nodeValid best) "node_valid(best)"
  return best

variable {L : Layout} {s : RBState} {heap : Heap} {t : ColorTree Cell} {free : List U64}

def foundAddress (L : Layout) (found : Option Cell) : U64 := (found.map Cell.address).getD L.nodeNil

def startOf (heap : Heap) (node : U64) : U64 := (heap node).range.start

/-- What the loop has found last is the first match seen from `side`. -/
theorem findByStart_refines (beyond : U64 → Bool) (side : RBDirection) (fuel : Nat) :
    ∀ (t : ColorTree Cell) (best : U64), t.height < fuel → Represents L heap t →
      Lasting (fun cell => beyond cell.range.start) (t.fromSide side) →
      findByStart L beyond side fuel heap (rootAddress L t) best =
        .ok ((((t.fromSide side).find? (fun cell => beyond cell.range.start)).map
          Cell.address).getD best) := by
  induction fuel with
  | zero =>
      intro t best bound
      exact absurd bound (Nat.not_lt_zero _)
  | succ fuel ih =>
      intro t best bound rep lasting
      rcases eq_nil_or_mk side t with rfl | ⟨c, near, cell, far, rfl⟩
      · simp [findByStart, nodeIsNil_nil]
      · have nonempty : mk side c near cell far ≠ .nil := ColorTree.mk_ne_nil _ _ _ _ _
        have nearWord := rep.nodeGetChild nonempty side
        have farWord := rep.nodeGetChild nonempty side.flip
        rw [ColorTree.child_mk, rootAddress_mk] at nearWord
        rw [ColorTree.child_flip_mk, rootAddress_mk] at farWord
        obtain ⟨⟨isNode, held, _⟩, repNear, repFar⟩ :=
          (represents_mk side c near far cell).mp rep
        rw [ColorTree.height_mk] at bound
        unfold findByStart
        rw [rootAddress_mk, isNode.nodeIsNil, exec_bind_ok, held]
        cases holds : beyond cell.range.start with
        | true =>
            have below := ih near cell.address (by omega) repNear lasting.near
            rw [ColorTree.find?_mk_pos side c near far (p := fun cell => beyond cell.range.start)
              holds]
            simp only [Bool.false_eq_true, if_false, if_true, nearWord, exec_bind_ok, below]
            cases (near.fromSide side).find? (fun cell => beyond cell.range.start) <;> rfl
        | false =>
            have below := ih far best (by omega) repFar lasting.far
            rw [ColorTree.find?_mk_neg side c near far holds lasting]
            simp only [Bool.false_eq_true, if_false, rbDirectionFlip, farWord, exec_bind_ok, below]

def Cell.start (cell : Cell) : Nat := cell.range.start.toNat

theorem TreeInv.starts_ascend (inv : TreeInv L s t free) :
    t.inorder.Pairwise (fun a b => a.start < b.start) := by
  have ordered := List.pairwise_map.mp inv.ascending.2
  apply ordered.imp_of_mem
  intro a b member _ before
  have valid := inv.ascending.1 a.range (List.mem_map_of_mem member)
  have nonempty := ((testRangeValid_iff a.range).mp valid).1
  simp only [TestRange.Before, Cell.start] at before ⊢
  omega

theorem TreeInv.found (inv : TreeInv L s t free) (beyond : U64 → Bool) (side : RBDirection)
    (lasting : Lasting (fun cell : Cell => beyond cell.range.start) (t.fromSide side)) :
    let first := (t.fromSide side).find? (fun cell => beyond cell.range.start)
    findByStart L beyond side (recursionBudget s) s.heap s.tree.root L.nodeNil =
        .ok (foundAddress L first) ∧
      nodeValid (foundAddress L first) = true := by
  intro first
  constructor
  · rw [inv.root]
    exact findByStart_refines beyond side _ t L.nodeNil inv.budget inv.represents lasting
  · cases found : first with
    | none => exact L.nodeNil_valid
    | some cell =>
        have inside : cell ∈ t.fromSide side := List.mem_of_find?_eq_some found
        have member : cell.address ∈ addresses t :=
          List.mem_map_of_mem ((ColorTree.mem_fromSide side t cell).mp inside)
        exact (represents_isNode t inv.represents _ member).1

theorem rbFindPrevByStart_eq (inv : TreeInv L s t free) (start : U64) :
    rbFindPrevByStart L s start =
      .ok (foundAddress L (below Cell.start start.toNat t.inorder).getLast?) := by
  have lasting : Lasting (fun cell : Cell => decide (cell.range.start < start))
      (t.fromSide .right) := by
    refine List.pairwise_reverse.mpr (inv.starts_ascend.imp ?_)
    intro a b less
    simp only [decide_eq_true_eq, BitVec.lt_def, Cell.start] at less ⊢
    omega
  obtain ⟨searched, valid⟩ := inv.found (fun held => held < start) .right lasting
  rw [below, List.getLast?_filter]
  change _ = Except.ok (foundAddress L ((t.fromSide .right).find?
    (fun cell : Cell => decide (cell.range.start < start))))
  rw [rbFindPrevByStart, inv.tree_valid, kassert_true, exec_bind_ok, searched, exec_bind_ok,
    valid]
  rfl

theorem rbFindNextByStart_eq (inv : TreeInv L s t free) (start : U64) :
    rbFindNextByStart L s start =
      .ok (foundAddress L (above Cell.start start.toNat t.inorder).head?) := by
  have lasting : Lasting (fun cell : Cell => decide (cell.range.start > start))
      (t.fromSide .left) := by
    apply inv.starts_ascend.imp
    intro a b less
    simp only [decide_eq_true_eq, gt_iff_lt, BitVec.lt_def, Cell.start] at less ⊢
    omega
  obtain ⟨searched, valid⟩ := inv.found (fun held => held > start) .left lasting
  rw [above, List.head?_filter]
  change _ = Except.ok (foundAddress L ((t.fromSide .left).find?
    (fun cell : Cell => decide (cell.range.start > start))))
  rw [rbFindNextByStart, inv.tree_valid, kassert_true, exec_bind_ok, searched, exec_bind_ok,
    valid]
  rfl

/-- `result` is the stored node whose start, of those that satisfy `beyond`, comes last in
the order `upTo`; nil if there is none. -/
structure Extreme (L : Layout) (heap : Heap) (nodes : List U64) (beyond : U64 → Prop)
    (upTo : U64 → U64 → Prop) (result : U64) : Prop where
  nil_iff : result = L.nodeNil ↔ ∀ node ∈ nodes, ¬ beyond (startOf heap node)
  extreme : result ≠ L.nodeNil → result ∈ nodes ∧ beyond (startOf heap result) ∧
    ∀ node ∈ nodes, beyond (startOf heap node) → upTo (startOf heap node) (startOf heap result)

def IsPrev (L : Layout) (heap : Heap) (nodes : List U64) (start result : U64) : Prop :=
  Extreme L heap nodes (fun held => held < start) (fun a b => a ≤ b) result

def IsNext (L : Layout) (heap : Heap) (nodes : List U64) (start result : U64) : Prop :=
  Extreme L heap nodes (fun held => start < held) (fun a b => b ≤ a) result

def listCell (L : Layout) (node : U64) : U64 := if node = L.nodeNil then L.list else node

/-- On the list `next` follows `prev`, or one node lies between them and starts at `start`. -/
def Adjacent (L : Layout) (heap : Heap) (nodes : List U64) (start prev next : U64) : Prop :=
  nextOf heap (listCell L prev) = listCell L next ∨
    ∃ node ∈ nodes, node ≠ listCell L prev ∧ node ≠ listCell L next ∧
      nextOf heap (listCell L prev) = node ∧ nextOf heap node = listCell L next ∧
      startOf heap node = start

theorem TreeInv.startOf_address (inv : TreeInv L s t free) {cell : Cell}
    (member : cell ∈ t.inorder) : startOf s.heap cell.address = cell.range.start := by
  rw [startOf, represents_range t inv.represents cell member]

theorem TreeInv.cell_of_address (inv : TreeInv L s t free) {node : U64}
    (member : node ∈ addresses t) :
    ∃ cell ∈ t.inorder, cell.address = node ∧ startOf s.heap node = cell.range.start := by
  obtain ⟨cell, inside, rfl⟩ := List.mem_map.mp member
  exact ⟨cell, inside, rfl, inv.startOf_address inside⟩

theorem Extreme.of_found (inv : TreeInv L s t free) {beyond : U64 → Prop}
    {upTo : U64 → U64 → Prop} (part : List Cell) (found : Option Cell)
    (members : ∀ cell, cell ∈ part ↔ cell ∈ t.inorder ∧ beyond cell.range.start)
    (empty : found = none → part = [])
    (best : ∀ cell, found = some cell → cell ∈ part ∧
      ∀ other ∈ part, upTo other.range.start cell.range.start) :
    Extreme L s.heap (addresses t) beyond upTo (foundAddress L found) := by
  cases result : found with
  | none =>
      have nothing := empty result
      have unmatched : ∀ node ∈ addresses t, ¬ beyond (startOf s.heap node) := by
        intro node member matched
        obtain ⟨cell, inside, _, same⟩ := inv.cell_of_address member
        have inPart := (members cell).mpr ⟨inside, same ▸ matched⟩
        rw [nothing] at inPart
        cases inPart
      exact ⟨⟨fun _ => unmatched, fun _ => rfl⟩, fun isNode => absurd rfl isNode⟩
  | some cell =>
      obtain ⟨inPart, extreme⟩ := best cell result
      obtain ⟨inside, matched⟩ := (members cell).mp inPart
      have address : cell.address ∈ addresses t := List.mem_map_of_mem inside
      have same := inv.startOf_address inside
      have isNode := represents_isNode t inv.represents _ address
      refine ⟨⟨fun isNil => absurd isNil isNode.2, fun none => ?_⟩, fun _ => ?_⟩
      · exact absurd (same ▸ matched) (none cell.address address)
      · change cell.address ∈ addresses t ∧ beyond (startOf s.heap cell.address) ∧ _
        refine ⟨address, same ▸ matched, ?_⟩
        intro node member matchedNode
        obtain ⟨other, insideOther, rfl, sameOther⟩ := inv.cell_of_address member
        change upTo (startOf s.heap other.address) (startOf s.heap cell.address)
        rw [sameOther] at matchedNode ⊢
        rw [same]
        exact extreme other ((members other).mpr ⟨insideOther, matchedNode⟩)

theorem TreeInv.isPrev (inv : TreeInv L s t free) (start : U64) :
    IsPrev L s.heap (addresses t) start
      (foundAddress L (below Cell.start start.toNat t.inorder).getLast?) := by
  refine Extreme.of_found inv (below Cell.start start.toNat t.inorder) _ ?_ ?_ ?_
  · intro cell
    exact mem_below
  · exact List.getLast?_eq_none_iff.mp
  · intro cell last
    obtain ⟨front, shape⟩ := List.getLast?_eq_some_iff.mp last
    have ascending : (below Cell.start start.toNat t.inorder).Pairwise
        (fun a b => a.start < b.start) := inv.starts_ascend.sublist List.filter_sublist
    rw [shape] at ascending ⊢
    refine ⟨by simp, ?_⟩
    intro other member
    rw [List.mem_append, List.mem_singleton] at member
    rcases member with earlier | rfl
    · exact ((List.pairwise_append.mp ascending).2.2 other earlier cell (by simp)).le
    · exact le_refl other.start

theorem TreeInv.isNext (inv : TreeInv L s t free) (start : U64) :
    IsNext L s.heap (addresses t) start
      (foundAddress L (above Cell.start start.toNat t.inorder).head?) := by
  refine Extreme.of_found inv (above Cell.start start.toNat t.inorder) _ ?_ ?_ ?_
  · intro cell
    exact mem_above
  · exact List.head?_eq_none_iff.mp
  · intro cell first
    obtain ⟨rest, shape⟩ := List.head?_eq_some_iff.mp first
    have ascending : (above Cell.start start.toNat t.inorder).Pairwise
        (fun a b => a.start < b.start) := inv.starts_ascend.sublist List.filter_sublist
    rw [shape] at ascending ⊢
    refine ⟨by simp, ?_⟩
    intro other member
    rcases List.mem_cons.mp member with rfl | later
    · exact le_refl other.start
    · exact ((List.pairwise_cons.mp ascending).1 other later).le

theorem TreeInv.listCell_ends (inv : TreeInv L s t free) (part : List Cell)
    (stored : ∀ cell ∈ part, cell ∈ t.inorder) :
    listCell L (foundAddress L part.getLast?) = before L.list (part.map Cell.address) ∧
      listCell L (foundAddress L part.head?) = after (part.map Cell.address) L.list := by
  have ofFound (found : Option Cell) (inside : ∀ cell ∈ found, cell ∈ t.inorder) :
      listCell L (foundAddress L found) = (found.map Cell.address).getD L.list := by
    cases found with
    | none => exact if_pos rfl
    | some cell =>
        have address : cell.address ∈ addresses t := List.mem_map_of_mem (inside cell rfl)
        exact if_neg (represents_isNode t inv.represents _ address).2
  rw [Library.Ring.before_eq_getLast?, Library.Ring.after_eq_head?, List.getLast?_map,
    List.head?_map]
  constructor
  · exact ofFound _ (fun cell last => stored cell (List.mem_of_getLast? last))
  · exact ofFound _ (fun cell first => stored cell (List.mem_of_head? first))

theorem TreeInv.adjacent (inv : TreeInv L s t free) (start : U64) :
    Adjacent L s.heap (addresses t) start
      (foundAddress L (below Cell.start start.toNat t.inorder).getLast?)
      (foundAddress L (above Cell.start start.toNat t.inorder).head?) := by
  have cut := Library.RedBlack.below_level_above Cell.start start.toNat t.inorder inv.starts_ascend
  have few := Library.RedBlack.level_length_le Cell.start start.toNat t.inorder inv.starts_ascend
  have front := (inv.listCell_ends (below Cell.start start.toNat t.inorder)
    (fun cell member => (mem_below.mp member).1)).1
  have back := (inv.listCell_ends (above Cell.start start.toNat t.inorder)
    (fun cell member => (mem_above.mp member).1)).2
  have ring := inv.ring
  have distinct := inv.pool.list_distinct
  simp only [ListRing, addresses] at ring distinct
  rw [← cut, List.map_append, List.map_append] at ring distinct
  rw [Adjacent, front, back]
  cases shape : level Cell.start start.toNat t.inorder with
  | nil =>
      rw [shape, List.map_nil, List.nil_append] at ring
      exact Or.inl (Library.Ring.links_gap L.list L.list _ _ ring).1
  | cons cell rest =>
      have alone : rest = [] := by
        rw [shape, List.length_cons] at few
        exact List.length_eq_zero_iff.mp (by omega)
      subst alone
      obtain ⟨inside, same⟩ := mem_level.mp
        (show cell ∈ level Cell.start start.toNat t.inorder by simp [shape])
      rw [shape, List.map_singleton, List.singleton_append] at ring distinct
      have incoming := (Library.Ring.links_gap L.list L.list _ _ ring).1
      have outgoing := (Library.Ring.links_gap L.list L.list
        ((below Cell.start start.toNat t.inorder).map Cell.address ++ [cell.address])
        ((above Cell.start start.toNat t.inorder).map Cell.address) (by simpa using ring)).1
      rw [Library.Ring.after_cons] at incoming
      rw [Library.Ring.before_concat] at outgoing
      obtain ⟨notPrev, notNext⟩ := Library.Ring.ne_neighbours distinct
      refine Or.inr ⟨cell.address, List.mem_map_of_mem inside, notPrev, notNext, incoming,
        outgoing, ?_⟩
      rw [inv.startOf_address inside]
      exact BitVec.eq_of_toNat_eq same

/-- Both searches are exact, and the list agrees with them. -/
theorem neighbours_found {fresh : RBState} (init : Start L fresh)
    (initialised : rbTreeInit L fresh = (true, s)) (operations : List RBOperation)
    (valid : ∀ operation ∈ operations, operation.Valid) :
    ∃ last t, runOperations L s operations = .ok last ∧ Stores L last t ∧
      ∀ start, ∃ prev next, rbFindPrevByStart L last start = .ok prev ∧
        rbFindNextByStart L last start = .ok next ∧
        IsPrev L last.heap (addresses t) start prev ∧
        IsNext L last.heap (addresses t) start next ∧
        Adjacent L last.heap (addresses t) start prev next := by
  obtain ⟨last, t, free, completed, inv⟩ := runs_inv init initialised operations valid
  refine ⟨last, t, completed, ⟨inv.root, inv.represents⟩, ?_⟩
  intro start
  exact ⟨_, _, rbFindPrevByStart_eq inv start, rbFindNextByStart_eq inv start, inv.isPrev start,
    inv.isNext start, inv.adjacent start⟩

theorem neighbours_found_sample :
    ∃ last t, runOperations sampleLayout sampleInitialised sampleOperations = .ok last ∧
      Stores sampleLayout last t ∧
      ∀ start, ∃ prev next, rbFindPrevByStart sampleLayout last start = .ok prev ∧
        rbFindNextByStart sampleLayout last start = .ok next ∧
        IsPrev sampleLayout last.heap (addresses t) start prev ∧
        IsNext sampleLayout last.heap (addresses t) start next ∧
        Adjacent sampleLayout last.heap (addresses t) start prev next :=
  neighbours_found sample_start sample_initialised sampleOperations sample_valid

end Drastic
