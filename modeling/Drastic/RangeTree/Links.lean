import Drastic.Library.Ring
import Drastic.RangeTree.Pool
import Drastic.RangeTree.Represents

namespace Drastic

open Library.RedBlack (Direction)
open Library.Ring (Links Spliced Bypassed before after)

/-! The list links of the heap form a ring through the list head. -/

def nextOf (heap : Heap) (node : U64) : U64 := (heap node).list .right
def prevOf (heap : Heap) (node : U64) : U64 := (heap node).list .left

def ListRing (L : Layout) (heap : Heap) (cells : List U64) : Prop :=
  Links (nextOf heap) (prevOf heap) L.list cells L.list

variable {L : Layout} {heap last : Heap}

theorem setListLink_list (heap : Heap) (node other target : U64) (d e : RBDirection) :
    (setListLink heap node d target other).list e =
      if other = node ∧ e = d then target else (heap other).list e := by
  by_cases same : other = node
  · subst same
    by_cases side : e = d
    · subst side
      simp [setListLink]
    · simp [setListLink, side]
  · simp [setListLink, same]

theorem setListLink_same (heap : Heap) (node other target : U64) (d : RBDirection) :
    SameNode heap (setListLink heap node d target) other := by
  by_cases same : other = node <;> simp [setListLink, SameNode, same]

theorem listRing_congr (cells : List U64) (same : ∀ node, (last node).list = (heap node).list)
    (ring : ListRing L heap cells) : ListRing L last cells := by
  refine Library.Ring.links_congr L.list L.list cells ?_ ?_ ring
  · intro cell _
    simp only [nextOf, same]
  · intro cell _
    simp only [prevOf, same]

theorem listRing_kept (cells : List U64)
    (same : ∀ node ∈ L.list :: cells, last node = heap node)
    (ring : ListRing L heap cells) : ListRing L last cells := by
  refine Library.Ring.links_congr L.list L.list cells ?_ ?_ ring
  · intro cell member
    simp only [nextOf, same cell member]
  · intro cell member
    simp only [prevOf, same cell (by simp at member ⊢; tauto)]

theorem resetList_ring (heap : Heap) : ListRing L (resetList L heap) [] := by
  simp [ListRing, Links, nextOf, prevOf, resetList, setListLink_list]

theorem resetList_same (heap : Heap) (node : U64) : SameNode heap (resetList L heap) node :=
  (setListLink_same heap L.list node L.list .left).trans (setListLink_same _ _ _ _ _)

theorem nodeInsert_refines (heap : Heap) (node anker : U64) (direction : RBDirection)
    (isNode : IsNode L node) (isAnker : IsNode L anker) (different : node ≠ anker)
    (fresh : node ≠ (heap anker).list direction) :
    ∃ last, nodeInsert L heap node anker direction = .ok last ∧
      (∀ other, SameNode heap last other) ∧
      (direction = .right → Spliced (nextOf heap) (prevOf heap) (nextOf last) (prevOf last)
        anker node (nextOf heap anker)) ∧
      (direction = .left → Spliced (nextOf heap) (prevOf heap) (nextOf last) (prevOf last)
        (prevOf heap anker) node anker) := by
  let h₁ := setListLink heap node direction ((heap anker).list direction)
  let h₂ := setListLink h₁ node direction.flip anker
  let h₃ := setListLink h₂ anker direction node
  have across : (h₃ node).list direction = (heap anker).list direction := by
    simp [h₃, h₂, h₁, setListLink_list, different]
  refine ⟨setListLink h₃ ((heap anker).list direction) direction.flip node, ?_, ?_, ?_, ?_⟩
  · simp only [nodeInsert, isNode.1, isAnker.1, isNode.assertNotNil, isAnker.nodeIsNil,
      kassert_true, exec_bind_ok, Bool.not_false, rbDirectionFlip, exec_pure]
    change Except.ok (setListLink h₃ ((h₃ node).list direction) direction.flip node) = _
    rw [across]
  · intro other
    exact (((setListLink_same heap node other _ _).trans (setListLink_same h₁ node other _ _)).trans
      (setListLink_same h₂ anker other _ _)).trans (setListLink_same h₃ _ other _ _)
  · rintro rfl
    constructor <;>
      simp +contextual [nextOf, prevOf, h₃, h₂, h₁, setListLink_list, Direction.flip,
        different, fresh]
  · rintro rfl
    constructor <;>
      simp +contextual [nextOf, prevOf, h₃, h₂, h₁, setListLink_list, Direction.flip,
        different, fresh]

/-- Where the descent hands the anchor down: it borders the gap on the side the
new cell will be linked to. -/
def Borders (L : Layout) (anker : U64) (direction : RBDirection) (front back : List U64) : Prop :=
  match direction with
  | .right => anker = before L.list front
  | .left => anker = after back L.list

theorem nodeInsert_ring (node anker : U64) (direction : RBDirection) (front back : List U64)
    (isNode : IsNode L node) (isAnker : IsNode L anker)
    (ring : ListRing L heap (front ++ back)) (distinct : (L.list :: (front ++ back)).Nodup)
    (fresh : node ∉ L.list :: (front ++ back)) (borders : Borders L anker direction front back) :
    ∃ last, nodeInsert L heap node anker direction = .ok last ∧
      (∀ other, SameNode heap last other) ∧ ListRing L last (front ++ node :: back) := by
  have gap := Library.Ring.links_gap L.list L.list front back ring
  have member (cell : U64) (side : cell = before L.list front ∨ cell = after back L.list) :
      cell ∈ L.list :: (front ++ back) := by
    rcases side with rfl | rfl
    · have := Library.Ring.before_mem L.list front
      simp only [List.mem_cons, List.mem_append] at this ⊢
      tauto
    · have := Library.Ring.after_mem back L.list
      simp only [List.mem_cons, List.mem_append] at this ⊢
      tauto
  have apart (cell : U64) (side : cell = before L.list front ∨ cell = after back L.list) :
      node ≠ cell := by
    rintro rfl
    exact fresh (member node side)
  cases direction with
  | right =>
      have near : anker = before L.list front := borders
      have far : (heap anker).list .right = after back L.list := near ▸ gap.1
      obtain ⟨last, completed, same, spliced, _⟩ := nodeInsert_refines heap node anker
        .right isNode isAnker (apart anker (Or.inl near)) (apart _ (Or.inr far))
      refine ⟨last, completed, same,
        Library.Ring.links_splice L.list node front back distinct fresh ring ?_⟩
      have := spliced rfl
      rwa [show nextOf heap anker = after back L.list from far, near] at this
  | left =>
      have near : anker = after back L.list := borders
      have far : (heap anker).list .left = before L.list front := near ▸ gap.2
      obtain ⟨last, completed, same, _, spliced⟩ := nodeInsert_refines heap node anker
        .left isNode isAnker (apart anker (Or.inr near)) (apart _ (Or.inl far))
      refine ⟨last, completed, same,
        Library.Ring.links_splice L.list node front back distinct fresh ring ?_⟩
      have := spliced rfl
      rwa [show prevOf heap anker = before L.list front from far, near] at this

theorem nodeRemoveFromList_ring (node : U64) (front back : List U64) (isNode : IsNode L node)
    (ring : ListRing L heap (front ++ node :: back))
    (distinct : (L.list :: (front ++ node :: back)).Nodup) :
    ∃ last, nodeRemoveFromList L heap node = .ok last ∧
      (∀ other, SameNode heap last other) ∧ ListRing L last (front ++ back) := by
  have incoming := Library.Ring.links_gap L.list L.list front (node :: back) ring
  have outgoing := Library.Ring.links_gap L.list L.list (front ++ [node]) back
    (by simpa [ListRing] using ring)
  rw [Library.Ring.before_concat] at outgoing
  rw [Library.Ring.after_cons] at incoming
  have notBefore := (Library.Ring.ne_neighbours distinct).1
  let h₁ := setListLink heap (prevOf heap node) .right (nextOf heap node)
  have kept (d : RBDirection) : (h₁ node).list d = (heap node).list d := by
    simp only [h₁, setListLink_list, incoming.2]
    rw [if_neg (by tauto)]
  refine ⟨setListLink h₁ (nextOf heap node) .left (prevOf heap node), ?_, ?_, ?_⟩
  · simp only [nodeRemoveFromList, isNode.1, isNode.assertNotNil, kassert_true, exec_bind_ok,
      exec_pure]
    change Except.ok (setListLink h₁ ((h₁ node).list .right) .left ((h₁ node).list .left)) = _
    rw [kept, kept]
    rfl
  · intro other
    exact (setListLink_same heap _ other _ _).trans (setListLink_same h₁ _ other _ _)
  · apply Library.Ring.links_bypass L.list node front back distinct ring
    rw [← incoming.2, ← outgoing.1]
    constructor <;>
      simp +contextual [nextOf, prevOf, h₁, setListLink_list]

end Drastic
