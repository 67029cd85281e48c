import Mathlib.Data.List.Perm.Basic
import Mathlib.Data.List.Pairwise
import Drastic.Library.Chain
import Drastic.RangeTree.Pool
import Drastic.RangeTree.Represents

namespace Drastic

open Library.RedBlack (Direction Color ColorTree)
open Library.Chain (ChainFrom)

/-- What `calloc` promises of the pages it returns: aligned for any object, not
NULL, and disjoint from each other and from the two nodes outside every page. -/
structure PagesValid (L : Layout) (pages : List U64) : Prop where
  aligned : ∀ page ∈ pages, page.toNat % 16 = 0
  nonzero : ∀ page ∈ pages, page ≠ 0#64
  fits : ∀ page ∈ pages, page.toNat + pageSize ≤ 2 ^ 64
  apart : pages.Pairwise
    (fun p q => p.toNat + pageSize ≤ q.toNat ∨ q.toNat + pageSize ≤ p.toNat)
  nodeNil_outside : ∀ page ∈ pages,
    L.nodeNil.toNat < page.toNat ∨ page.toNat + pageSize ≤ L.nodeNil.toNat
  list_outside : ∀ page ∈ pages,
    L.list.toNat < page.toNat ∨ page.toNat + pageSize ≤ L.list.toNat

variable {L : Layout} {s : RBState}

theorem PagesValid.sublist {pages fewer : List U64} (valid : PagesValid L pages)
    (sub : fewer.Sublist pages) : PagesValid L fewer where
  aligned page member := valid.aligned page (sub.subset member)
  nonzero page member := valid.nonzero page (sub.subset member)
  fits page member := valid.fits page (sub.subset member)
  apart := valid.apart.sublist sub
  nodeNil_outside page member := valid.nodeNil_outside page (sub.subset member)
  list_outside page member := valid.list_outside page (sub.subset member)

theorem rbNodesMax_eq : rbNodesMax = 84 := rfl

theorem nodeSlot_toNat (page : U64) (index : Nat) (fits : page.toNat + pageSize ≤ 2 ^ 64)
    (bound : index < rbNodesMax) :
    (nodeSlot page index).toNat = page.toNat + (32 + 48 * index) := by
  rw [rbNodesMax_eq] at bound
  rw [pageSize] at fits
  rw [nodeSlot, sizeOfRBNodes, sizeOfNode, BitVec.toNat_add, BitVec.toNat_ofNat]
  omega

theorem nodeGet_of_even (word : U64) (even : word.toNat % 2 = 0) : nodeGet word = word := by
  have low : word &&& 1#64 = 0#64 := by
    apply BitVec.eq_of_toNat_eq
    rw [BitVec.toNat_and]
    simpa [Nat.and_one_is_mod] using even
  have all : ~~~1#64 ||| 1#64 = BitVec.allOnes 64 := by decide
  calc
    nodeGet word = (word &&& ~~~1#64) ||| (word &&& 1#64) := by rw [low, BitVec.or_zero, nodeGet]
    _ = word := by rw [← BitVec.and_or_distrib_left, all, BitVec.and_allOnes]

theorem mem_pageSlots (page slot : U64) (count : Nat) :
    slot ∈ pageSlots page count ↔ ∃ index < count, slot = nodeSlot page index := by
  simp [pageSlots, eq_comm]

theorem PagesValid.slot {pages : List U64} (valid : PagesValid L pages) (page : U64)
    (member : page ∈ pages) {index : Nat} (bound : index < rbNodesMax) :
    IsNode L (nodeSlot page index) ∧ nodeSlot page index ≠ L.list ∧
      nodeSlot page index &&& 7#64 = 0#64 := by
  have place := nodeSlot_toNat page index (valid.fits page member) bound
  have aligned := valid.aligned page member
  have nonzero : page.toNat ≠ 0 := fun zero =>
    valid.nonzero page member (BitVec.eq_of_toNat_eq (by simpa using zero))
  have inside : page.toNat ≤ (nodeSlot page index).toNat ∧
      (nodeSlot page index).toNat < page.toNat + pageSize := by
    rw [rbNodesMax_eq] at bound
    rw [place, pageSize]
    omega
  refine ⟨⟨(nodeValid_iff _).mpr ⟨?_, nodeGet_of_even _ (by omega)⟩, ?_⟩, ?_, ?_⟩
  · intro zero
    have := congrArg BitVec.toNat zero
    rw [place] at this
    simp at this
  · intro same
    have := valid.nodeNil_outside page member
    rw [← same] at this
    omega
  · intro same
    have := valid.list_outside page member
    rw [← same] at this
    omega
  · apply BitVec.eq_of_toNat_eq
    rw [BitVec.toNat_and, place]
    have mask := Nat.and_two_pow_sub_one_eq_mod (page.toNat + (32 + 48 * index)) 3
    have seven : (7#64).toNat = 2 ^ 3 - 1 := rfl
    rw [seven, mask]
    simp
    omega

theorem pageSlots_nodup (page : U64) (fits : page.toNat + pageSize ≤ 2 ^ 64) {count : Nat}
    (bound : count ≤ rbNodesMax) : (pageSlots page count).Nodup := by
  refine List.Nodup.map_on ?_ List.nodup_range
  intro i hi j hj same
  rw [List.mem_range] at hi hj
  have := congrArg BitVec.toNat same
  rw [nodeSlot_toNat page i fits (by omega), nodeSlot_toNat page j fits (by omega)] at this
  omega

theorem PagesValid.apart_of_ne {pages : List U64} (valid : PagesValid L pages) {p q : U64}
    (memberP : p ∈ pages) (memberQ : q ∈ pages) (different : p ≠ q) :
    p.toNat + pageSize ≤ q.toNat ∨ q.toNat + pageSize ≤ p.toNat := by
  have symmetric : Std.Symm
      (fun p q : U64 => p.toNat + pageSize ≤ q.toNat ∨ q.toNat + pageSize ≤ p.toNat) :=
    ⟨fun _ _ apart => apart.symm⟩
  exact valid.apart.forall memberP memberQ different

theorem PagesValid.page_of_slot {pages : List U64} (valid : PagesValid L pages) {p q : U64}
    (memberP : p ∈ pages) (memberQ : q ∈ pages) {i j : Nat} (hi : i < rbNodesMax)
    (hj : j < rbNodesMax) (same : nodeSlot p i = nodeSlot q j) : p = q := by
  by_contra different
  have apart := valid.apart_of_ne memberP memberQ different
  have := congrArg BitVec.toNat same
  rw [nodeSlot_toNat p i (valid.fits p memberP) hi, nodeSlot_toNat q j (valid.fits q memberQ) hj]
    at this
  rw [rbNodesMax_eq] at hi hj
  rw [pageSize] at apart
  omega

theorem PagesValid.nodup {pages : List U64} (valid : PagesValid L pages) : pages.Nodup := by
  apply valid.apart.imp
  rintro p _ apart rfl
  rw [pageSize] at apart
  omega

def slotsOf (chunks : U64 → RBNodes) (pages : List U64) : List U64 :=
  pages.flatMap (fun page => pageSlots page (chunks page).nodeCount)

def carved (s : RBState) : List U64 := slotsOf s.chunks s.allocated

theorem slotsOf_congr {chunks chunks' : U64 → RBNodes} (pages : List U64)
    (same : ∀ page ∈ pages, (chunks' page).nodeCount = (chunks page).nodeCount) :
    slotsOf chunks' pages = slotsOf chunks pages := by
  induction pages with
  | nil => rfl
  | cons page rest ih =>
      simp only [slotsOf, List.flatMap_cons] at ih ⊢
      rw [same page (by simp), ih (fun other member => same other (by simp [member]))]

theorem mem_slotsOf (chunks : U64 → RBNodes) (pages : List U64) (slot : U64) :
    slot ∈ slotsOf chunks pages ↔
      ∃ page ∈ pages, ∃ index < (chunks page).nodeCount, slot = nodeSlot page index := by
  simp [slotsOf, mem_pageSlots]

theorem slotsOf_concat (chunks : U64 → RBNodes) (front : List U64) (page : U64) :
    slotsOf chunks (front ++ [page]) =
      slotsOf chunks front ++ pageSlots page (chunks page).nodeCount := by
  simp [slotsOf]

theorem pageSlots_succ (page : U64) (count : Nat) :
    pageSlots page (count + 1) = pageSlots page count ++ [nodeSlot page count] := by
  simp [pageSlots, List.range_succ]

theorem slotsOf_nodup (chunks : U64 → RBNodes) {pages : List U64} (valid : PagesValid L pages)
    (bounded : ∀ page ∈ pages, (chunks page).nodeCount ≤ rbNodesMax) :
    (slotsOf chunks pages).Nodup := by
  rw [slotsOf, List.nodup_flatMap]
  refine ⟨fun page member => pageSlots_nodup page (valid.fits page member) (bounded page member),
    valid.nodup.imp_of_mem ?_⟩
  intro p q memberP memberQ different slot inP inQ
  obtain ⟨i, hi, rfl⟩ := (mem_pageSlots ..).mp inP
  obtain ⟨j, hj, same⟩ := (mem_pageSlots ..).mp inQ
  exact different (valid.page_of_slot memberP memberQ (hi.trans_le (bounded p memberP))
    (hj.trans_le (bounded q memberQ)) same)

theorem slotsOf_length (chunks : U64 → RBNodes) (pages : List U64)
    (bounded : ∀ page ∈ pages, (chunks page).nodeCount ≤ rbNodesMax) :
    (slotsOf chunks pages).length ≤ pages.length * rbNodesMax := by
  induction pages with
  | nil => simp [slotsOf]
  | cons page rest ih =>
      have first := bounded page (by simp)
      have others := ih (fun other member => bounded other (by simp [member]))
      simp only [slotsOf, List.flatMap_cons, List.length_append, List.length_cons] at others ⊢
      have here : (pageSlots page (chunks page).nodeCount).length = (chunks page).nodeCount := by
        simp [pageSlots]
      rw [here, Nat.succ_mul]
      omega

/-- Every slot is either a node of the tree (`used`) or on the free list (`free`);
the chunks hang on one chain and only the last of them has room. -/
structure Pool (L : Layout) (s : RBState) (used free : List U64) : Prop where
  freeChain : ChainFrom (fun slot => (s.heap slot).children .right) 0#64 s.tree.freeList free
  pageChain : ChainFrom (fun page => (s.chunks page).next) 0#64 s.tree.nodes s.allocated
  current : ∃ front, s.allocated = front ++ [s.tree.currentNode] ∧
    ∀ page ∈ front, (s.chunks page).nodeCount = rbNodesMax
  bounded : ∀ page ∈ s.allocated, (s.chunks page).nodeCount ≤ rbNodesMax
  pages : PagesValid L (s.allocated ++ s.supply.reduceOption)
  slots : (carved s).Perm (used ++ free)
  freed : s.freed = []

variable {used free : List U64}

theorem Pool.valid (pool : Pool L s used free) : PagesValid L s.allocated :=
  pool.pages.sublist (List.sublist_append_left _ _)

theorem Pool.nodup (pool : Pool L s used free) : (used ++ free).Nodup :=
  pool.slots.nodup_iff.mp (slotsOf_nodup s.chunks pool.valid pool.bounded)

theorem Pool.mem_carved (pool : Pool L s used free) {slot : U64} (member : slot ∈ used ++ free) :
    ∃ page ∈ s.allocated, ∃ index < (s.chunks page).nodeCount, slot = nodeSlot page index :=
  (mem_slotsOf ..).mp (pool.slots.mem_iff.mpr member)

theorem Pool.slot (pool : Pool L s used free) (slot : U64) (member : slot ∈ used ++ free) :
    IsNode L slot ∧ slot ≠ L.list ∧ slot &&& 7#64 = 0#64 := by
  obtain ⟨page, allocated, index, bound, rfl⟩ := pool.mem_carved member
  exact pool.valid.slot page allocated (bound.trans_le (pool.bounded page allocated))

theorem Pool.current_mem (pool : Pool L s used free) : s.tree.currentNode ∈ s.allocated := by
  obtain ⟨front, shape, _⟩ := pool.current
  rw [shape]
  simp

theorem Pool.nodes_nonzero (pool : Pool L s used free) : s.tree.nodes ≠ 0#64 := by
  obtain ⟨front, shape, _⟩ := pool.current
  have chain := pool.pageChain
  cases listed : s.allocated with
  | nil => simp [listed] at shape
  | cons page rest =>
      rw [listed] at chain
      exact chain.1 ▸ chain.2.1

theorem Pool.tree_valid (pool : Pool L s used free) (root : nodeValid s.tree.root = true) :
    rbTreeValid s = true := by
  have current := pool.valid.nonzero _ pool.current_mem
  simp [rbTreeValid, root, pool.nodes_nonzero, current]

/-- The bound given to every recursion covers a tree made of the used slots. -/
theorem Pool.budget (pool : Pool L s used free) : used.length < recursionBudget s := by
  have total := slotsOf_length s.chunks s.allocated pool.bounded
  have split := pool.slots.length_eq
  rw [List.length_append] at split
  rw [carved] at split
  rw [recursionBudget]
  omega

theorem Pool.transport (pool : Pool L s used free) (heap : Heap) (tree : RBTree)
    (same : ∀ slot ∈ free, (heap slot).children .right = (s.heap slot).children .right)
    (freeList : tree.freeList = s.tree.freeList) (nodes : tree.nodes = s.tree.nodes)
    (currentNode : tree.currentNode = s.tree.currentNode) :
    Pool L { s with heap := heap, tree := tree } used free where
  freeChain := by
    simp only [freeList]
    exact Library.Chain.chain_congr _ _ same pool.freeChain
  pageChain := by
    simp only [nodes]
    exact pool.pageChain
  current := by
    simp only [currentNode]
    exact pool.current
  bounded := pool.bounded
  pages := pool.pages
  slots := pool.slots
  freed := pool.freed

theorem Pool.perm {more : List U64} (pool : Pool L s used free) (same : used.Perm more) :
    Pool L s more free :=
  { pool with slots := pool.slots.trans (same.append_right free) }

end Drastic
