import Drastic.RangeTree.Runs

namespace Drastic

open Library.RedBlack (Color ColorTree)

variable {L : Layout} {s last : RBState} {t : ColorTree Cell} {free : List U64}

/-- Root, free list, every node, the list head and every chunk are as before; only the
answers of `page_alloc` may be used up. -/
structure Untouched (s last : RBState) : Prop where
  tree : last.tree = s.tree
  heap : last.heap = s.heap
  chunks : last.chunks = s.chunks
  allocated : last.allocated = s.allocated
  freed : last.freed = s.freed

theorem Untouched.refl (s : RBState) : Untouched s s := ⟨rfl, rfl, rfl, rfl, rfl⟩

theorem pageAlloc_untouched (fails : (pageAlloc s).1 = 0#64)
    (nonzero : ∀ page ∈ s.supply.reduceOption, page ≠ 0#64) : Untouched s (pageAlloc s).2 := by
  rcases pageAlloc_cases s with ⟨_, result, _⟩ | ⟨page, supply, result⟩
  · rw [result]
    exact ⟨rfl, rfl, rfl, rfl, rfl⟩
  · rw [result] at fails
    exact absurd fails (nonzero page (by rw [supply]; simp))

theorem rbInsert_untouched (inv : TreeInv L s t free) (range : TestRange)
    (valid : testRangeValid range = true) :
    ∃ status after, rbInsert L s range = .ok (status, after) ∧
      (status ≠ .ok → Untouched s after) := by
  rcases rbInsert_step inv range valid with ⟨_, done⟩ |
    ⟨_, ⟨noSlot, done, _⟩ | ⟨_, after, _, _, done, _⟩⟩
  · exact ⟨.overlap, s, done, fun _ => .refl s⟩
  · refine ⟨.oom, _, done, fun _ => pageAlloc_untouched noSlot.2 ?_⟩
    intro page member
    exact inv.pool.supply_nonzero member
  · exact ⟨.ok, after, done, fun failed => absurd rfl failed⟩

theorem TreeInv.root_black (inv : TreeInv L s t free) : t.color = .black := by
  obtain ⟨n, balanced⟩ := inv.balanced
  exact ((ColorTree.balanced_iff t .black n).mp balanced).1

/-- The helper writes every word back, and the root was black before it is painted. -/
theorem rbDelete_absent (inv : TreeInv L s t free) (range : TestRange)
    (valid : testRangeValid range = true) (absent : range ∉ ranges t) :
    rbDelete L s range = .ok s := by
  have below := rbDeleteHelper_absent inv.tree_valid range valid t inv.represents absent _
    inv.budget
  rw [← inv.root] at below
  rw [rbDelete, inv.tree_valid, valid, kassert_true, exec_bind_ok, kassert_true, exec_bind_ok,
    below, exec_bind_ok]
  simp only [inv.root, inv.represents.nodeIsNil, exec_bind_ok]
  cases empty : t.isNil with
  | true =>
      simp only [if_true, exec_pure]
      rw [← inv.root]
  | false =>
      have nonempty : t ≠ .nil := by
        rintro rfl
        cases empty
      have isNode := rootAddress_isNode t inv.represents nonempty
      have black : colorOf s.heap (rootAddress L t) = .black := by
        have color := inv.represents.nodeGetColor nonempty
        rw [isNode.nodeGetColor, inv.root_black] at color
        exact Except.ok.inj color
      have painted := setColorWord_self s.heap (rootAddress L t)
      rw [black] at painted
      simp only [isNode.nodeSetColor, painted, exec_bind_ok, exec_pure, Bool.false_eq_true,
        if_false]
      rw [← inv.root]

/-- An insertion that is refused and a deletion of a range that is not stored change no
word of the tree. -/
theorem failed_operations_change_nothing {fresh : RBState} (start : Start L fresh)
    (initialised : rbTreeInit L fresh = (true, s)) (operations : List RBOperation)
    (valid : ∀ operation ∈ operations, operation.Valid) :
    ∃ last, runOperations L s operations = .ok last ∧
      ∀ range, testRangeValid range = true →
        (∃ status after, rbInsert L last range = .ok (status, after) ∧
          (status ≠ .ok → Untouched last after)) ∧
        (range ∉ storedRanges L last →
          ∃ after, rbDelete L last range = .ok after ∧ Untouched last after) := by
  obtain ⟨last, t, free, completed, inv⟩ := runs_inv start initialised operations valid
  refine ⟨last, completed, ?_⟩
  intro range validRange
  refine ⟨rbInsert_untouched inv range validRange, ?_⟩
  intro missing
  have absent : range ∉ ranges t := by rwa [inv.stored] at missing
  exact ⟨last, rbDelete_absent inv range validRange absent, .refl last⟩

theorem failed_operations_change_nothing_sample :
    ∃ last, runOperations sampleLayout sampleInitialised sampleOperations = .ok last ∧
      ∀ range, testRangeValid range = true →
        (∃ status after, rbInsert sampleLayout last range = .ok (status, after) ∧
          (status ≠ .ok → Untouched last after)) ∧
        (range ∉ storedRanges sampleLayout last →
          ∃ after, rbDelete sampleLayout last range = .ok after ∧ Untouched last after) :=
  failed_operations_change_nothing sample_start sample_initialised sampleOperations sample_valid

end Drastic
