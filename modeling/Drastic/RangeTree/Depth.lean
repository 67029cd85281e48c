import Drastic.Library.Fuel
import Drastic.Library.RedBlack.Depth
import Drastic.RangeTree.Runs

namespace Drastic

open Library.RedBlack (Direction Color ColorTree)
open Library.Fuel

variable {L : Layout} {s : RBState} {t : ColorTree Cell} {free : List U64}

theorem rbInsertHelper_extends (fuel : Nat) : ∀ (s : RBState) (node : U64) (range : TestRange)
    (anker : U64) (d : RBDirection), Extends .recursionDepth
      (rbInsertHelper L fuel s node range anker d)
      (rbInsertHelper L (fuel + 1) s node range anker d) := by
  induction fuel with
  | zero => exact fun _ _ _ _ _ => .of_empty _
  | succ fuel ih =>
      intro s node range anker d
      rw [rbInsertHelper, rbInsertHelper]
      iterate 5 refine .after _ fun _ => ?_
      refine .ite _ (.refl _) ?_
      refine .after _ fun _ => .ite _ (.refl _) ?_
      refine .after _ fun _ => .after _ fun child => ?_
      exact .bind (ih s child range node _) fun _ => .refl _

theorem rightMost_extends (fuel : Nat) : ∀ (heap : Heap) (temp : U64),
    Extends .recursionDepth (rightMost L fuel heap temp) (rightMost L (fuel + 1) heap temp) := by
  induction fuel with
  | zero => exact fun _ _ => .of_empty _
  | succ fuel ih =>
      intro heap temp
      rw [rightMost, rightMost]
      exact .after _ fun _ => .ite _ (.after _ fun child => ih heap child) (.refl _)

theorem rbDeleteDescend_extends
    {recurse recurse' : RBState → U64 → TestRange → Exec (RBDeleteResult × RBState)}
    (below : ∀ s node range,
      Extends .recursionDepth (recurse s node range) (recurse' s node range))
    (s : RBState) (node : U64) (range : TestRange) : Extends .recursionDepth
      (rbDeleteDescend L recurse s node range) (rbDeleteDescend L recurse' s node range) := by
  unfold rbDeleteDescend
  exact .after _ fun child => .bind (below s child range) fun _ => .refl _

theorem rbDeleteHelper_extends (fuel : Nat) : ∀ (s : RBState) (node : U64) (range : TestRange),
    Extends .recursionDepth (rbDeleteHelper L fuel s node range)
      (rbDeleteHelper L (fuel + 1) s node range) := by
  induction fuel with
  | zero => exact fun _ _ _ => .of_empty _
  | succ fuel ih =>
      intro s node range
      rw [rbDeleteHelper, rbDeleteHelper]
      refine .after _ fun _ => .after _ fun _ => .after _ fun _ => .ite _ (.refl _) ?_
      refine .after _ fun _ => .ite _ ?_ (rbDeleteDescend_extends ih s node range)
      refine .after _ fun _ => .ite _ (.refl _) ?_
      unfold rbDeletePredecessor
      refine .after _ fun left => .bind (rightMost_extends fuel s.heap left) fun temp => ?_
      exact .after _ fun _ => rbDeleteDescend_extends ih _ node _

theorem rbTreeNodeFree_extends (fuel : Nat) : ∀ (s : RBState) (node : U64) (recurse : Bool),
    Extends .recursionDepth (rbTreeNodeFree L fuel s node recurse)
      (rbTreeNodeFree L (fuel + 1) s node recurse) := by
  induction fuel with
  | zero => exact fun _ _ _ => .of_empty _
  | succ fuel ih =>
      intro s node recurse
      rw [rbTreeNodeFree, rbTreeNodeFree]
      refine .after _ fun _ => .after _ fun _ => .after _ fun _ => .ite _ (.refl _) ?_
      refine .ite _ ?_ (.refl _)
      refine .after _ fun left => .bind (ih s left true) fun s => ?_
      exact .after _ fun right => .bind (ih s right true) fun _ => .refl _

theorem InsertOutcome.completes {made : RBState} {new : Cell} {front back : List U64}
    {run : Exec (RBInsertResult × RBState)}
    (outcome : InsertOutcome L s made t new front back run) : ∃ result, run = .ok result := by
  unfold InsertOutcome at outcome
  split at outcome
  · exact ⟨_, outcome⟩
  · split at outcome
    · exact ⟨_, outcome⟩
    · obtain ⟨last, done, _⟩ := outcome
      exact ⟨_, done⟩

theorem TreeInv.insert_nests (inv : TreeInv L s t free) (range : TestRange)
    (valid : testRangeValid range = true) :
    NestsWithin (t.height + 1) fun fuel =>
      rbInsertHelper L fuel s s.tree.root range L.list .right := by
  have rootValid : nodeValid s.tree.root = true :=
    inv.root ▸ rootAddress_valid t inv.represents
  have done : ∃ result,
      rbInsertHelper L (t.height + 1) s s.tree.root range L.list .right = .ok result := by
    rcases rbTreeNodeMake_cases inv.pool rootValid range valid .red with
      ⟨_, makes⟩ | ⟨_, address, made, makes, taken, heldRange, red, leaf⟩
    · exact (inv.insertOutcome ⟨0#64, range⟩ valid makes (.inl rfl)
        (Nat.lt_succ_self t.height)).completes
    · exact (inv.insertOutcome ⟨address, range⟩ valid makes
        (.inr (taken.nodeMade ⟨address, range⟩ heldRange red leaf))
        (Nat.lt_succ_self t.height)).completes
  obtain ⟨result, done⟩ := done
  exact nestsWithin_of_ok
    (fun fuel => rbInsertHelper_extends fuel s s.tree.root range L.list .right) done

theorem TreeInv.delete_nests (inv : TreeInv L s t free) (range : TestRange)
    (valid : testRangeValid range = true) :
    NestsWithin (t.height + 1) fun fuel => rbDeleteHelper L fuel s s.tree.root range := by
  have more (fuel : Nat) := rbDeleteHelper_extends (L := L) fuel s s.tree.root range
  by_cases stored : range ∈ ranges t
  · obtain ⟨freed, holds⟩ := inv.holdsRange valid stored
    obtain ⟨middle, call, _⟩ :=
      rbDeleteHelper_refines holds (t.height + 1) (Nat.lt_succ_self _)
    rw [← inv.root] at call
    exact nestsWithin_of_ok more call
  · have call := rbDeleteHelper_absent inv.tree_valid range valid t inv.represents stored _
      (Nat.lt_succ_self t.height)
    rw [← inv.root] at call
    exact nestsWithin_of_ok more call

theorem TreeInv.free_nests (inv : TreeInv L s t free) :
    NestsWithin (t.height + 1) fun fuel => rbTreeNodeFree L fuel s s.tree.root true := by
  obtain ⟨last, _, done, _⟩ := rbTreeNodeFree_all t s (t.height + 1) [] free
    (Nat.lt_succ_self _) inv.tree_valid inv.represents (by simpa using inv.pool)
  rw [← inv.root] at done
  exact nestsWithin_of_ok (fun fuel => rbTreeNodeFree_extends fuel s s.tree.root true) done

/-- The height stays below twice the logarithm of the number of ranges, and no recursion
from the root nests deeper than the height and the call on nil. -/
theorem runs_nest_logarithmically {fresh : RBState} (start : Start L fresh)
    (initialised : rbTreeInit L fresh = (true, s)) (operations : List RBOperation)
    (valid : ∀ operation ∈ operations, operation.Valid) :
    ∃ last t, runOperations L s operations = .ok last ∧ Stores L last t ∧
      (ranges t).Nodup ∧ storedRanges L last = { range | range ∈ ranges t } ∧
      2 ^ t.height ≤ ((ranges t).length + 1) ^ 2 ∧
      (∀ range, testRangeValid range = true →
        NestsWithin (t.height + 1) fun fuel =>
          rbInsertHelper L fuel last last.tree.root range L.list .right) ∧
      (∀ range, testRangeValid range = true →
        NestsWithin (t.height + 1) fun fuel =>
          rbDeleteHelper L fuel last last.tree.root range) ∧
      NestsWithin (t.height + 1) fun fuel =>
        rbTreeNodeFree L fuel last last.tree.root true := by
  obtain ⟨last, t, free, completed, inv⟩ := runs_inv start initialised operations valid
  obtain ⟨n, balanced⟩ := inv.balanced
  have size : t.size = (ranges t).length := by
    rw [ranges, List.length_map, ColorTree.size_eq_length_inorder]
  exact ⟨last, t, completed, ⟨inv.root, inv.represents⟩, inv.ascending.nodup, inv.stored,
    size ▸ balanced.two_pow_height_le, inv.insert_nests, inv.delete_nests, inv.free_nests⟩

theorem runs_nest_logarithmically_sample :
    ∃ last t, runOperations sampleLayout sampleInitialised sampleOperations = .ok last ∧
      Stores sampleLayout last t ∧ 2 ^ t.height ≤ ((ranges t).length + 1) ^ 2 ∧
      NestsWithin (t.height + 1) fun fuel =>
        rbTreeNodeFree sampleLayout fuel last last.tree.root true := by
  obtain ⟨last, t, completed, stores, _, _, bound, _, _, nests⟩ :=
    runs_nest_logarithmically sample_start sample_initialised sampleOperations sample_valid
  exact ⟨last, t, completed, stores, bound, nests⟩

end Drastic
