import Mathlib.Data.Set.Insert
import Drastic.RangeTree.Invariant

namespace Drastic

open Library.RedBlack (ColorTree)
open Library.RedBlack.ColorTree (balanced_iff)
open Library.Chain (ChainFrom)
open Library.Ring (Visits)

inductive RBOperation where
  | insert (range : TestRange)
  | delete (range : TestRange)
  | clear
  deriving DecidableEq, Repr

def RBOperation.Valid : RBOperation → Prop
  | .insert range => testRangeValid range = true
  | .delete range => testRangeValid range = true
  | .clear => True

def perform (L : Layout) (s : RBState) : RBOperation → Exec RBState
  | .insert range => do return (← rbInsert L s range).2
  | .delete range => rbDelete L s range
  | .clear => rbClear L s

def runOperations (L : Layout) : RBState → List RBOperation → Exec RBState
  | s, [] => .ok s
  | s, operation :: rest => do runOperations L (← perform L s operation) rest

/-- A zeroed tree before `rb_tree_init`, with whatever answers `page_alloc` is going
to give. -/
structure Start (L : Layout) (s : RBState) : Prop where
  tree : s.tree = RBTree.zero
  allocated : s.allocated = []
  freed : s.freed = []
  pages : PagesValid L s.supply.reduceOption

variable {L : Layout} {s : RBState} {t : ColorTree Cell} {free : List U64}

theorem rbTreeInit_inv {fresh : RBState} (start : Start L fresh)
    (initialised : rbTreeInit L fresh = (true, s)) : TreeInv L s .nil [] := by
  simp only [rbTreeInit, rbNodesCreate] at initialised
  rcases pageAlloc_cases { fresh with tree := { fresh.tree with root := L.nodeNil } } with
    ⟨fails, _⟩ | ⟨page, supply, result⟩
  · simp [fails] at initialised
  · simp only at supply result
    have pages := start.pages
    rw [supply] at pages
    have nonzero := pages.nonzero page (by simp)
    simp only [result, if_neg nonzero, Prod.mk.injEq, true_and] at initialised
    subst initialised
    refine ⟨trivial, rfl, resetList_ring _, ⟨?_, ?_, ⟨[], ?_, by simp⟩, ?_, ?_, ?_, start.freed⟩,
      by simp [Ascending], 0, .nil⟩
    · simp [ChainFrom, zeroPage, start.tree, RBTree.zero]
    · simp [ChainFrom, zeroPage, start.allocated, nonzero]
    · simp [zeroPage, start.allocated]
    · simp [zeroPage, start.allocated]
    · simpa [zeroPage, start.allocated] using pages
    · simp [carved, slotsOf, pageSlots, zeroPage, start.allocated]

theorem perform_step (inv : TreeInv L s t free) (operation : RBOperation)
    (valid : operation.Valid) :
    ∃ last next free', perform L s operation = .ok last ∧ TreeInv L last next free' ∧
      (last.requests = s.requests ∨ PoolFull s) := by
  cases operation with
  | insert range =>
      rcases rbInsert_step inv range valid with ⟨_, done⟩ | ⟨_, ⟨noSlot, done, inv'⟩ |
        ⟨_, last, next, free', done, inv', _, requests⟩⟩
      · exact ⟨s, t, free, by simp [perform, done], inv, Or.inl rfl⟩
      · exact ⟨_, t, free, by simp [perform, done], inv', Or.inr noSlot.1⟩
      · exact ⟨last, next, free', by simp [perform, done], inv', requests⟩
  | delete range =>
      obtain ⟨last, next, free', done, inv', _, requests⟩ := rbDelete_step inv range valid
      exact ⟨last, next, free', done, inv', Or.inl requests⟩
  | clear =>
      obtain ⟨last, free', done, inv', requests⟩ := rbClear_step inv
      exact ⟨last, .nil, free', done, inv', Or.inl requests⟩

theorem runOperations_eq (L : Layout) (s : RBState) (operations : List RBOperation) :
    runOperations L s operations = operations.foldlM (perform L) s := by
  induction operations generalizing s with
  | nil => rfl
  | cons operation rest ih =>
      rw [runOperations, List.foldlM_cons]
      simp only [ih]

/-- No assertion of the code fails in a run, and the invariant holds after it. -/
theorem runOperations_inv (operations : List RBOperation) (inv : TreeInv L s t free)
    (valid : ∀ operation ∈ operations, operation.Valid) :
    ∃ last next free', runOperations L s operations = .ok last ∧ TreeInv L last next free' := by
  have keeps (s : RBState) (operation : RBOperation) (held : ∃ t free, TreeInv L s t free)
      (isValid : operation.Valid) :
      ∃ next, perform L s operation = .ok next ∧ ∃ t free, TreeInv L next t free := by
    obtain ⟨t, free, inv⟩ := held
    obtain ⟨next, t', free', done, inv', _⟩ := perform_step inv operation isValid
    exact ⟨next, done, t', free', inv'⟩
  obtain ⟨last, completed, next, free', inv'⟩ :=
    exec_foldlM_inv keeps operations ⟨t, free, inv⟩ valid
  exact ⟨last, next, free', (runOperations_eq L s operations).trans completed, inv'⟩

/-- Every run after `rb_tree_init` completes, in a state that keeps the invariant. -/
theorem runs_inv {fresh : RBState} (start : Start L fresh)
    (initialised : rbTreeInit L fresh = (true, s)) (operations : List RBOperation)
    (valid : ∀ operation ∈ operations, operation.Valid) :
    ∃ last t free, runOperations L s operations = .ok last ∧ TreeInv L last t free :=
  runOperations_inv operations (rbTreeInit_inv start initialised) valid

def Stores (L : Layout) (s : RBState) (t : ColorTree Cell) : Prop :=
  s.tree.root = rootAddress L t ∧ Represents L s.heap t

def sampleLayout : Layout where
  nodeNil := 64#64
  list := 128#64
  nodeNil_valid := by decide
  list_valid := by decide
  list_ne_nodeNil := by decide

def sampleFresh : RBState where
  heap := fun _ => Node.zero
  chunks := fun _ => ⟨0, 0⟩
  tree := RBTree.zero
  supply := [some 4096#64, none]
  requests := 0
  allocated := []
  freed := []

def sampleInitialised : RBState := (rbTreeInit sampleLayout sampleFresh).2

def sampleOperations : List RBOperation :=
  [.insert ⟨16#64, 4#64⟩, .insert ⟨8#64, 8#64⟩, .insert ⟨18#64, 1#64⟩, .delete ⟨16#64, 4#64⟩,
    .clear, .insert ⟨18#64, 1#64⟩]

theorem sample_start : Start sampleLayout sampleFresh where
  tree := rfl
  allocated := rfl
  freed := rfl
  pages := by
    constructor <;> simp [sampleFresh, sampleLayout, pageSize]

theorem sample_initialised :
    rbTreeInit sampleLayout sampleFresh = (true, sampleInitialised) := rfl

theorem sample_valid : ∀ operation ∈ sampleOperations, operation.Valid := by
  simp only [sampleOperations, List.mem_cons, List.not_mem_nil, or_false, forall_eq_or_imp,
    forall_eq, RBOperation.Valid, true_and]
  decide

structure RedBlackOrdered (t : ColorTree Cell) : Prop where
  root_black : t.isNil = true ∨ t.color = .black
  no_red_red : t.NoRedRed
  same_black_count : ∀ count ∈ t.blackCounts, ∀ other ∈ t.blackCounts, count = other
  increasing : (ranges t).Pairwise (fun a b => testRangeCompare a b < 0)
  disjoint : (ranges t).Pairwise (fun a b => ¬ ∃ address, a.Covers address ∧ b.Covers address)

theorem Ascending.compare {held : List TestRange} (ascending : Ascending held) :
    held.Pairwise (fun a b => testRangeCompare a b < 0) :=
  ascending.2.imp_of_mem (fun member _ before => before.compare_neg (ascending.1 _ member))

theorem Ascending.disjoint {held : List TestRange} (ascending : Ascending held) :
    held.Pairwise (fun a b => ¬ ∃ address, a.Covers address ∧ b.Covers address) := by
  apply ascending.2.imp
  rintro a b before ⟨address, inA, inB⟩
  simp only [TestRange.Before, TestRange.Covers] at before inA inB
  omega

theorem runs_keep_red_black {fresh : RBState} (start : Start L fresh)
    (initialised : rbTreeInit L fresh = (true, s)) (operations : List RBOperation)
    (valid : ∀ operation ∈ operations, operation.Valid) :
    ∃ last t, runOperations L s operations = .ok last ∧ Stores L last t ∧
      RedBlackOrdered t := by
  obtain ⟨last, t, free, completed, inv⟩ := runs_inv start initialised operations valid
  obtain ⟨n, balanced⟩ := inv.balanced
  obtain ⟨black, noRedRed, counts⟩ := (balanced_iff t .black n).mp balanced
  refine ⟨last, t, completed, ⟨inv.root, inv.represents⟩, Or.inr black, noRedRed, ?_,
    inv.ascending.compare, inv.ascending.disjoint⟩
  intro count member other memberOther
  rw [counts count member, counts other memberOther]

theorem runs_keep_red_black_sample :
    ∃ last t, runOperations sampleLayout sampleInitialised sampleOperations = .ok last ∧
      Stores sampleLayout last t ∧ RedBlackOrdered t :=
  runs_keep_red_black sample_start sample_initialised sampleOperations sample_valid

def storedRanges (L : Layout) (s : RBState) : Set TestRange :=
  { range | ∃ t, Stores L s t ∧ range ∈ ranges t }

inductive SetInsert (stored : Set TestRange) (range : TestRange) (memory : Prop) :
    RBInsertStatus → Set TestRange → Prop where
  | overlap (held : TestRange) (member : held ∈ stored) (address : U64)
      (shared : range.Covers address ∧ held.Covers address) :
      SetInsert stored range memory .overlap stored
  | oom (apart : ∀ held ∈ stored, ¬ ∃ address, range.Covers address ∧ held.Covers address)
      (refused : ¬ memory) : SetInsert stored range memory .oom stored
  | ok (apart : ∀ held ∈ stored, ¬ ∃ address, range.Covers address ∧ held.Covers address)
      (granted : memory) : SetInsert stored range memory .ok (insert range stored)

theorem TreeInv.stored (inv : TreeInv L s t free) : storedRanges L s = { r | r ∈ ranges t } := by
  ext range
  constructor
  · rintro ⟨other, ⟨root, rep⟩, member⟩
    rwa [← represents_unique other t rep inv.represents (root.symm.trans inv.root)]
  · intro member
    exact ⟨t, ⟨inv.root, inv.represents⟩, member⟩

theorem TreeInv.apart (inv : TreeInv L s t free) {range : TestRange}
    (valid : testRangeValid range = true)
    (none : ¬ ∃ held ∈ ranges t, rangesOverlap range held = true) :
    ∀ held ∈ storedRanges L s, ¬ ∃ address, range.Covers address ∧ held.Covers address := by
  rw [inv.stored]
  intro held member shared
  exact none ⟨held, member, (rangesOverlap_iff valid (inv.ascending.1 held member)).mpr shared⟩

theorem rbInsert_refines_set (inv : TreeInv L s t free) (range : TestRange)
    (valid : testRangeValid range = true) :
    ∃ status last, rbInsert L s range = .ok (status, last) ∧
      SetInsert (storedRanges L s) range (¬ NoSlot s) status (storedRanges L last) := by
  rcases rbInsert_step inv range valid with ⟨⟨held, member, overlap⟩, done⟩ |
    ⟨none, ⟨noSlot, done, inv'⟩ | ⟨slot, last, next, free', done, inv', placed, _⟩⟩
  · obtain ⟨address, shared⟩ :=
      (rangesOverlap_iff valid (inv.ascending.1 held member)).mp overlap
    exact ⟨.overlap, s, done, .overlap held (inv.stored ▸ member) address shared⟩
  · refine ⟨.oom, _, done, ?_⟩
    rw [inv'.stored, ← inv.stored]
    exact .oom (inv.apart valid none) (not_not.mpr noSlot)
  · refine ⟨.ok, last, done, ?_⟩
    have grown : storedRanges L last = insert range (storedRanges L s) := by
      rw [inv.stored, inv'.stored]
      ext other
      simp [placed.mem_iff]
    rw [grown]
    exact .ok (inv.apart valid none) slot

theorem rbDelete_refines_set (inv : TreeInv L s t free) (range : TestRange)
    (valid : testRangeValid range = true) :
    ∃ last, rbDelete L s range = .ok last ∧ storedRanges L last = storedRanges L s \ {range} := by
  obtain ⟨last, next, free', done, inv', kept, _⟩ := rbDelete_step inv range valid
  refine ⟨last, done, ?_⟩
  rw [inv.stored, inv'.stored, kept]
  ext other
  simp [inv.ascending.nodup.mem_erase_iff, and_comm]

theorem rbClear_refines_set (inv : TreeInv L s t free) :
    ∃ last, rbClear L s = .ok last ∧ storedRanges L last = ∅ := by
  obtain ⟨last, free', done, inv', _⟩ := rbClear_step inv
  refine ⟨last, done, ?_⟩
  rw [inv'.stored]
  simp

/-- From this state every operation acts on the stored ranges as on a plain set. -/
structure ActsAsRangeSet (L : Layout) (s : RBState) : Prop where
  insert : ∀ range, testRangeValid range = true → ∃ status after,
    rbInsert L s range = .ok (status, after) ∧
      SetInsert (storedRanges L s) range (¬ NoSlot s) status (storedRanges L after)
  delete : ∀ range, testRangeValid range = true → ∃ after, rbDelete L s range = .ok after ∧
    storedRanges L after = storedRanges L s \ {range}
  clear : ∃ after, rbClear L s = .ok after ∧ storedRanges L after = ∅

theorem runs_refine_range_set {fresh : RBState} (start : Start L fresh)
    (initialised : rbTreeInit L fresh = (true, s)) (operations : List RBOperation)
    (valid : ∀ operation ∈ operations, operation.Valid) :
    ∃ last, runOperations L s operations = .ok last ∧ ActsAsRangeSet L last := by
  obtain ⟨last, t, free, completed, inv⟩ := runs_inv start initialised operations valid
  exact ⟨last, completed, rbInsert_refines_set inv, rbDelete_refines_set inv,
    rbClear_refines_set inv⟩

theorem runs_refine_range_set_sample :
    ∃ last, runOperations sampleLayout sampleInitialised sampleOperations = .ok last ∧
      ActsAsRangeSet sampleLayout last :=
  runs_refine_range_set sample_start sample_initialised sampleOperations sample_valid

/-- The list visits the nodes of the tree in order, and backwards in reverse. -/
structure ListAgrees (L : Layout) (heap : Heap) (t : ColorTree Cell) : Prop where
  distinct : (L.list :: addresses t).Nodup
  forward : Visits (nextOf heap) L.list (addresses t) L.list
  backward : Visits (prevOf heap) L.list (addresses t).reverse L.list
  inverse : ∀ node ∈ L.list :: addresses t,
    nextOf heap (prevOf heap node) = node ∧ prevOf heap (nextOf heap node) = node

theorem runs_keep_list {fresh : RBState} (start : Start L fresh)
    (initialised : rbTreeInit L fresh = (true, s)) (operations : List RBOperation)
    (valid : ∀ operation ∈ operations, operation.Valid) :
    ∃ last t, runOperations L s operations = .ok last ∧ Stores L last t ∧
      ListAgrees L last.heap t := by
  obtain ⟨last, t, free, completed, inv⟩ := runs_inv start initialised operations valid
  obtain ⟨forward, backward⟩ := Library.Ring.links_visits L.list L.list _ inv.ring
  exact ⟨last, t, completed, ⟨inv.root, inv.represents⟩, inv.pool.list_distinct, forward,
    backward, Library.Ring.links_inverse L.list _ inv.ring⟩

theorem runs_keep_list_sample :
    ∃ last t, runOperations sampleLayout sampleInitialised sampleOperations = .ok last ∧
      Stores sampleLayout last t ∧ ListAgrees sampleLayout last.heap t :=
  runs_keep_list sample_start sample_initialised sampleOperations sample_valid

/-- The slots carved out of the chunks on the chain are the nodes of the tree and
those of the free list, each of them once. -/
structure PoolAgrees (s : RBState) (t : ColorTree Cell) (pages free : List U64) : Prop where
  pageChain : ChainFrom (fun page => (s.chunks page).next) 0#64 s.tree.nodes pages
  freeChain : ChainFrom (fun slot => (s.heap slot).children .right) 0#64 s.tree.freeList free
  distinct : (slotsOf s.chunks pages).Nodup
  partition : (slotsOf s.chunks pages).Perm (addresses t ++ free)
  current : ∃ front, pages = front ++ [s.tree.currentNode] ∧
    ∀ page ∈ front, (s.chunks page).nodeCount = rbNodesMax
  bounded : ∀ page ∈ pages, (s.chunks page).nodeCount ≤ rbNodesMax

/-- `rb_destroy` passes every page obtained from `page_alloc` to `page_free` once,
and no other page. -/
def DestroyFreesPages (L : Layout) (s : RBState) : Prop :=
  ∃ after, rbDestroy L s = .ok after ∧ after.tree = RBTree.zero ∧
    after.heap L.list = Node.zero ∧
    ∀ page, after.freed.count page = if page ∈ s.allocated then 1 else 0

theorem runs_keep_pool {fresh : RBState} (start : Start L fresh)
    (initialised : rbTreeInit L fresh = (true, s)) (operations : List RBOperation)
    (valid : ∀ operation ∈ operations, operation.Valid) :
    ∃ last t pages free, runOperations L s operations = .ok last ∧ Stores L last t ∧
      PoolAgrees last t pages free ∧
      (∀ operation : RBOperation, operation.Valid → ∃ after, perform L last operation = .ok after ∧
        (after.requests ≠ last.requests → PoolFull last)) ∧
      DestroyFreesPages L last := by
  obtain ⟨last, t, free, completed, inv⟩ := runs_inv start initialised operations valid
  have rootValid : nodeValid last.tree.root = true :=
    inv.root ▸ rootAddress_valid t inv.represents
  have distinct := slotsOf_nodup last.chunks inv.pool.valid inv.pool.bounded
  refine ⟨last, t, last.allocated, free, completed, ⟨inv.root, inv.represents⟩,
    ⟨inv.pool.pageChain, inv.pool.freeChain, distinct, inv.pool.slots, inv.pool.current,
      inv.pool.bounded⟩, ?_, _, inv.pool.destroyed rootValid, rfl, Function.update_self .., ?_⟩
  · intro operation validOperation
    obtain ⟨after, _, _, done, _, requests⟩ := perform_step inv operation validOperation
    exact ⟨after, done, requests.resolve_left⟩
  · intro page
    exact inv.pool.valid.nodup.count

theorem runs_keep_pool_sample :
    ∃ last t pages free,
      runOperations sampleLayout sampleInitialised sampleOperations = .ok last ∧
      Stores sampleLayout last t ∧ PoolAgrees last t pages free ∧
      (∀ operation : RBOperation, operation.Valid →
        ∃ after, perform sampleLayout last operation = .ok after ∧
          (after.requests ≠ last.requests → PoolFull last)) ∧
      DestroyFreesPages sampleLayout last :=
  runs_keep_pool sample_start sample_initialised sampleOperations sample_valid

end Drastic
