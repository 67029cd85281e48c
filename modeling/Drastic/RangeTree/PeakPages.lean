import Mathlib.Data.Set.Card
import Drastic.Library.Ensures
import Drastic.RangeTree.Runs

namespace Drastic

open Library.RedBlack (Direction Color ColorTree)
open Library (Ensures)
open Library.Chain (ChainFrom)

variable {L : Layout} {s : RBState} {t : ColorTree Cell} {free : List U64}

def PagesGrew (s last : RBState) : Prop :=
  last.allocated = s.allocated ∨
    s.tree.freeList = 0#64 ∧ rbNodesMax ≤ (s.chunks s.tree.currentNode).nodeCount ∧
      ∃ page, last.allocated = s.allocated ++ [page]

theorem pageAlloc_allocated (s : RBState) : (pageAlloc s).2.allocated = s.allocated ∨
    ∃ page, (pageAlloc s).2.allocated = s.allocated ++ [page] := by
  unfold pageAlloc
  cases s.supply with
  | nil => exact .inl rfl
  | cons answer rest =>
      cases answer with
      | none => exact .inl rfl
      | some page => exact .inr ⟨page, rfl⟩

theorem takeSlot_grown (s : RBState) : PagesGrew s (takeSlot s).2 := by
  simp only [takeSlot]
  by_cases available : s.tree.freeList ≠ 0#64
  · rw [if_pos available]
    exact .inl rfl
  · rw [if_neg available]
    by_cases room : (s.chunks s.tree.currentNode).nodeCount < rbNodesMax
    · rw [if_pos room]
      exact .inl rfl
    · rw [if_neg room]
      have grown : PagesGrew s (rbNodesCreate s).2 := by
        cases pageAlloc_allocated s with
        | inl same => exact .inl same
        | inr more => exact .inr ⟨not_not.mp available, Nat.le_of_not_lt room, more⟩
      by_cases refused : (rbNodesCreate s).1 = 0#64
      · rw [if_pos refused]
        exact grown
      · rw [if_neg refused]
        exact grown

theorem rbTreeNodeMake_grown (s : RBState) (range : TestRange) (color : RBColor) :
    Ensures (fun result => PagesGrew s result.2) (rbTreeNodeMake L s range color) := by
  have grown := takeSlot_grown s
  unfold rbTreeNodeMake
  refine .after _ fun _ => .after _ fun _ => .ite _ (fun _ => .pure grown) fun _ => ?_
  exact .after _ fun _ => .after _ fun _ => .pure grown

theorem rbInsertHelper_grown (fuel : Nat) (s : RBState) (node : U64) (range : TestRange)
    (anker : U64) (d : RBDirection) :
    Ensures (fun result => PagesGrew s result.2) (rbInsertHelper L fuel s node range anker d) := by
  induction fuel generalizing node anker d with
  | zero => exact .error _
  | succ fuel ih =>
      rw [rbInsertHelper]
      iterate 5 refine .after _ fun _ => ?_
      refine .ite _ (fun _ => ?_) fun _ => ?_
      · refine (rbTreeNodeMake_grown s range .red).bind fun made grown => ?_
        refine .ite _ (fun _ => .pure grown) fun _ => ?_
        exact .after _ fun _ => .after _ fun _ => .pure grown
      · refine .after _ fun _ => .ite _ (fun _ => .after _ fun _ => .pure (.inl rfl)) fun _ => ?_
        refine .after _ fun _ => .after _ fun child => ?_
        refine (ih child node _).bind fun below grown => ?_
        refine .ite _ (fun _ => ?_) fun _ => .after _ fun _ => .pure grown
        exact .after _ fun _ => .after _ fun _ => .after _ fun _ => .pure grown

theorem rbInsert_grown (s : RBState) (range : TestRange) :
    Ensures (fun result => PagesGrew s result.2) (rbInsert L s range) := by
  unfold rbInsert
  refine .after _ fun _ => .after _ fun _ => ?_
  refine (rbInsertHelper_grown _ s _ range _ _).bind fun below grown => ?_
  exact .ite _ (fun _ => .after _ fun _ => .pure grown) fun _ => .pure grown

def KeepsPages (s last : RBState) : Prop := last.allocated = s.allocated

theorem rbTreeNodeFree_keeps (fuel : Nat) (s : RBState) (node : U64) (recurse : Bool) :
    Ensures (KeepsPages s) (rbTreeNodeFree L fuel s node recurse) := by
  induction fuel generalizing s node recurse with
  | zero => exact .error _
  | succ fuel ih =>
      rw [rbTreeNodeFree]
      refine .after _ fun _ => .after _ fun _ => .after _ fun _ => .ite _ (fun _ => .pure rfl) ?_
      refine fun _ => .ite _ (fun _ => ?_) fun _ => .pure rfl
      refine .after _ fun left => (ih s left true).bind fun first kept => ?_
      refine .after _ fun right => (ih first right true).bind fun second kept' => ?_
      exact .pure (kept'.trans kept)

theorem rbDeleteDescend_keeps
    {recurse : RBState → U64 → TestRange → Exec (RBDeleteResult × RBState)}
    (below : ∀ s node range, Ensures (fun result => KeepsPages s result.2) (recurse s node range))
    (s : RBState) (node : U64) (range : TestRange) :
    Ensures (fun result => KeepsPages s result.2) (rbDeleteDescend L recurse s node range) := by
  unfold rbDeleteDescend
  refine .after _ fun child => (below s child range).bind fun result kept => ?_
  refine .after _ fun _ => .ite _ (fun _ => .after _ fun _ => .pure kept) fun _ => ?_
  exact .after _ fun _ => .after _ fun _ => .pure kept

theorem rbDeleteHelper_keeps (fuel : Nat) (s : RBState) (node : U64) (range : TestRange) :
    Ensures (fun result => KeepsPages s result.2) (rbDeleteHelper L fuel s node range) := by
  induction fuel generalizing s node range with
  | zero => exact .error _
  | succ fuel ih =>
      rw [rbDeleteHelper]
      refine .after _ fun _ => .after _ fun _ => .after _ fun _ => .ite _ ?_ fun _ => ?_
      · exact fun _ => .after _ fun _ => .pure rfl
      · refine .after _ fun _ => .ite _ (fun _ => ?_) fun _ => rbDeleteDescend_keeps ih s node range
        refine .after _ fun _ => .ite _ (fun _ => ?_) fun _ => ?_
        · unfold rbDeleteRemove
          refine .after _ fun _ => .after _ fun _ => .after _ fun heap => ?_
          refine (rbTreeNodeFree_keeps 1 { s with heap := heap } node false).bind fun _ kept => ?_
          exact .after _ fun _ => .pure kept
        · unfold rbDeletePredecessor
          refine .after _ fun _ => .after _ fun temp => .after _ fun _ => ?_
          exact rbDeleteDescend_keeps ih
            { s with heap := setRange s.heap node (s.heap temp).range } node (s.heap temp).range

theorem rbDelete_keeps (s : RBState) (range : TestRange) :
    Ensures (KeepsPages s) (rbDelete L s range) := by
  unfold rbDelete
  refine .after _ fun _ => .after _ fun _ => ?_
  refine (rbDeleteHelper_keeps _ s _ range).bind fun below kept => ?_
  exact .after _ fun _ => .ite _ (fun _ => .pure kept) fun _ => .after _ fun _ => .pure kept

theorem rbClear_keeps (s : RBState) : Ensures (KeepsPages s) (rbClear L s) := by
  unfold rbClear
  refine .after _ fun _ => (rbTreeNodeFree_keeps _ s _ true).bind fun _ kept => ?_
  exact .pure kept

theorem PoolFull.slots_used {used : List U64} (full : PoolFull s) (pool : Pool L s used free) :
    used.length = s.allocated.length * rbNodesMax := by
  have counts : ∀ page ∈ s.allocated, (s.chunks page).nodeCount = rbNodesMax := by
    obtain ⟨front, shape, filled⟩ := pool.current
    intro page member
    rw [shape, List.mem_append, List.mem_singleton] at member
    cases member with
    | inl earlier => exact filled page earlier
    | inr last => exact last ▸ full.2
  have total : (carved s).length = s.allocated.length * rbNodesMax := by
    have pages : ∀ page ∈ s.allocated,
        (pageSlots page (s.chunks page).nodeCount).length = rbNodesMax := by
      intro page member
      rw [pageSlots, List.length_map, List.length_range, counts page member]
    rw [carved, slotsOf, List.length_flatMap, List.map_congr_left pages]
    simp
  have unused : free = [] := Library.Chain.chain_unique _ free [] pool.freeChain full.1
  have accounted := pool.slots.length_eq
  rw [unused, List.append_nil] at accounted
  exact accounted.symm.trans total

theorem ranges_length (t : ColorTree Cell) : (ranges t).length = (addresses t).length := by
  rw [ranges, addresses, List.length_map, List.length_map]

theorem TreeInv.stored_ncard (inv : TreeInv L s t free) :
    (storedRanges L s).ncard = (ranges t).length := by
  rw [inv.stored, ← List.toFinset_card_of_nodup inv.ascending.nodup, ← Set.ncard_coe_finset]
  congr
  ext range
  simp

/-- The number of ranges stored at a time, at its largest over a run. -/
noncomputable def peakStored (L : Layout) : RBState → List RBOperation → Nat
  | s, [] => (storedRanges L s).ncard
  | s, operation :: rest =>
      match perform L s operation with
      | .ok next => max (storedRanges L s).ncard (peakStored L next rest)
      | .error _ => (storedRanges L s).ncard

theorem peakStored_here (L : Layout) (s : RBState) (operations : List RBOperation) :
    (storedRanges L s).ncard ≤ peakStored L s operations := by
  cases operations with
  | nil => exact le_rfl
  | cons operation rest =>
      rw [peakStored]
      split
      case h_1 => exact le_max_left _ _
      case h_2 => exact le_rfl

/-- The pages that `peak` ranges need, and at least the page of `rb_tree_init`. -/
structure PagesFor (peak : Nat) (s : RBState) : Prop where
  some : 1 ≤ s.allocated.length
  enough : peak ≤ s.allocated.length * rbNodesMax
  needed : s.allocated.length = 1 ∨ (s.allocated.length - 1) * rbNodesMax < peak

theorem PagesFor.count {peak : Nat} (pages : PagesFor peak s) :
    s.allocated.length = max 1 ((peak + (rbNodesMax - 1)) / rbNodesMax) := by
  have some := pages.some
  have enough := pages.enough
  have needed := pages.needed
  rw [rbNodesMax_eq] at enough needed ⊢
  omega

theorem TreeInv.fits (inv : TreeInv L s t free) :
    (ranges t).length ≤ s.allocated.length * rbNodesMax := by
  have budget := inv.pool.budget
  rw [recursionBudget] at budget
  rw [ranges_length]
  omega

theorem PagesFor.same {peak : Nat} {last : RBState} {next : ColorTree Cell} {free' : List U64}
    (pages : PagesFor peak s) (inv : TreeInv L last next free')
    (same : last.allocated = s.allocated) : PagesFor (max peak (ranges next).length) last where
  some := same ▸ pages.some
  enough := max_le (same ▸ pages.enough) inv.fits
  needed := by
    rw [same]
    exact pages.needed.imp_right fun more => more.trans_le (le_max_left _ _)

/-- A step that adds a page to a full pool stores one range more than ever fitted. -/
theorem PagesFor.added {peak : Nat} {last : RBState} {next : ColorTree Cell} {free' : List U64}
    (pages : PagesFor peak s) (inv : TreeInv L s t free) (inv' : TreeInv L last next free')
    (full : PoolFull s) {page : U64} (added : last.allocated = s.allocated ++ [page])
    (stored : (ranges next).length = (ranges t).length + 1) :
    PagesFor (max peak (ranges next).length) last := by
  have used := full.slots_used inv.pool
  rw [← ranges_length] at used
  have count : last.allocated.length = s.allocated.length + 1 := by
    rw [added, List.length_append, List.length_singleton]
  refine ⟨by omega, max_le (pages.enough.trans ?_) inv'.fits, .inr ?_⟩
  · exact Nat.mul_le_mul_right _ (by omega)
  · rw [count, Nat.add_sub_cancel]
    exact lt_max_of_lt_right (by omega)

theorem PagesGrew.cases {last : RBState} (grown : PagesGrew s last) (inv : TreeInv L s t free) :
    last.allocated = s.allocated ∨
      PoolFull s ∧ ∃ page, last.allocated = s.allocated ++ [page] := by
  cases grown with
  | inl same => exact .inl same
  | inr more =>
      have bounded := inv.pool.bounded _ inv.pool.current_mem
      exact .inr ⟨⟨more.1, Nat.le_antisymm bounded more.2.1⟩, more.2.2⟩

theorem Pool.refused_allocated {used : List U64} (pool : Pool L s used free)
    (fails : (pageAlloc s).1 = 0#64) : (pageAlloc s).2.allocated = s.allocated := by
  rcases pageAlloc_cases s with ⟨_, result, _⟩ | ⟨page, supply, result⟩
  · rw [result]
  · rw [result] at fails
    exact absurd fails (pool.supply_nonzero (by rw [supply]; simp))

theorem perform_pages {peak : Nat} (inv : TreeInv L s t free) (pages : PagesFor peak s)
    (operation : RBOperation) (valid : operation.Valid) :
    ∃ last next free', perform L s operation = .ok last ∧ TreeInv L last next free' ∧
      PagesFor (max peak (ranges next).length) last := by
  cases operation with
  | insert range =>
      rcases rbInsert_step inv range valid with ⟨_, done⟩ | ⟨_, ⟨noSlot, done, inv'⟩ |
        ⟨_, last, next, free', done, inv', placed, _⟩⟩
      · exact ⟨s, t, free, by simp [perform, done], inv, pages.same inv rfl⟩
      · exact ⟨_, t, free, by simp [perform, done], inv',
          pages.same inv' (inv.pool.refused_allocated noSlot.2)⟩
      · refine ⟨last, next, free', by simp [perform, done], inv', ?_⟩
        rcases (rbInsert_grown s range _ done).cases inv with same | ⟨full, page, added⟩
        · exact pages.same inv' same
        · exact pages.added inv inv' full added placed.length_eq
  | delete range =>
      obtain ⟨last, next, free', done, inv', _⟩ := rbDelete_step inv range valid
      exact ⟨last, next, free', done, inv', pages.same inv' (rbDelete_keeps s range _ done)⟩
  | clear =>
      obtain ⟨last, free', done, inv', _⟩ := rbClear_step inv
      exact ⟨last, .nil, free', done, inv', pages.same inv' (rbClear_keeps s _ done)⟩

theorem runOperations_pages (operations : List RBOperation) :
    ∀ (s : RBState) (t : ColorTree Cell) (free : List U64) (peak : Nat), TreeInv L s t free →
      PagesFor peak s → (ranges t).length ≤ peak → (∀ operation ∈ operations, operation.Valid) →
      ∃ last, runOperations L s operations = .ok last ∧
        PagesFor (max peak (peakStored L s operations)) last := by
  induction operations with
  | nil =>
      intro s t free peak inv pages counted _
      refine ⟨s, rfl, ?_⟩
      rw [peakStored, inv.stored_ncard, max_eq_left counted]
      exact pages
  | cons operation rest ih =>
      intro s t free peak inv pages counted valid
      obtain ⟨middle, next, free', done, inv', pages'⟩ :=
        perform_pages inv pages operation (valid operation (by simp))
      obtain ⟨last, completed, reached⟩ := ih middle next free' _ inv' pages' (le_max_right _ _)
        (fun other member => valid other (List.mem_cons_of_mem _ member))
      refine ⟨last, by simp [runOperations, done, completed], ?_⟩
      have seen : (ranges next).length ≤ peakStored L middle rest := by
        rw [← inv'.stored_ncard]
        exact peakStored_here L middle rest
      have whole : max peak (peakStored L s (operation :: rest)) =
          max (max peak (ranges next).length) (peakStored L middle rest) := by
        simp only [peakStored, done, inv.stored_ncard]
        omega
      rw [whole]
      exact reached

theorem rbTreeInit_page {fresh : RBState} (start : Start L fresh)
    (initialised : rbTreeInit L fresh = (true, s)) : s.allocated.length = 1 := by
  simp only [rbTreeInit, rbNodesCreate] at initialised
  rcases pageAlloc_cases { fresh with tree := { fresh.tree with root := L.nodeNil } } with
    ⟨fails, _⟩ | ⟨page, supply, result⟩
  · simp [fails] at initialised
  · have nonzero : page ≠ 0#64 :=
      start.pages.nonzero page (by simp only at supply; rw [supply]; simp)
    simp only [result, if_neg nonzero, Prod.mk.injEq, true_and] at initialised
    rw [← initialised]
    simp [zeroPage, start.allocated]

/-- The pages held after a run are those that the most ranges stored at a time need: every
slot is used again before `page_alloc` is called, whatever was deleted or cleared. -/
theorem pages_follow_peak {fresh : RBState} (start : Start L fresh)
    (initialised : rbTreeInit L fresh = (true, s)) (operations : List RBOperation)
    (valid : ∀ operation ∈ operations, operation.Valid) :
    ∃ last, runOperations L s operations = .ok last ∧
      last.allocated.length =
        max 1 ((peakStored L s operations + (rbNodesMax - 1)) / rbNodesMax) := by
  have one := rbTreeInit_page start initialised
  have first : PagesFor 0 s := ⟨one.ge, Nat.zero_le _, .inl one⟩
  obtain ⟨last, completed, pages⟩ := runOperations_pages operations s .nil [] 0
    (rbTreeInit_inv start initialised) first le_rfl valid
  rw [Nat.zero_max] at pages
  exact ⟨last, completed, pages.count⟩

theorem pages_follow_peak_sample :
    ∃ last, runOperations sampleLayout sampleInitialised sampleOperations = .ok last ∧
      last.allocated.length = max 1
        ((peakStored sampleLayout sampleInitialised sampleOperations + (rbNodesMax - 1)) /
          rbNodesMax) :=
  pages_follow_peak sample_start sample_initialised sampleOperations sample_valid

end Drastic
