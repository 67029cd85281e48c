import Drastic.RangeTree.Runs

namespace Drastic

open Library.RedBlack (Direction Color ColorTree)
open Library.RedBlack.ColorTree (Balanced DeleteBalanced mk balanced_iff rotate_mk eq_nil_or_mk)

structure Levelled (t : ColorTree Cell) (b : Nat) : Prop where
  noRedRed : t.NoRedRed
  counts : ∀ count ∈ t.blackCounts, count = b

/-- What a subtree `next` and the status returned with it say about the subtree `t` of black
height `b` that a deletion started from. -/
structure StatusTrue (t next : ColorTree Cell) (b : Nat) (status : RBDeleteStatus) : Prop where
  noRedRed : next.NoRedRed
  ok : status = .ok → ∀ count ∈ next.blackCounts, count = b
  fail : status = .fail → (∀ count ∈ next.blackCounts, count + 1 = b) ∧
    (next.isNil = true ∨ next.color = .black)
  red : next.color = .red → t.color = .red

variable {L : Layout} {s : RBState} {heap : Heap} {t near near₀ far : ColorTree Cell} {b k : Nat}
  {d : Direction} {c : Color} {cell : Cell}

theorem Levelled.balanced (levelled : Levelled t b) : Balanced t t.color b :=
  (balanced_iff t t.color b).mpr ⟨rfl, levelled.noRedRed, levelled.counts⟩

theorem statusTrue_of_balanced (root : t.color = c) {result : Bool × ColorTree Cell}
    (contract : DeleteBalanced c b result) :
    StatusTrue t result.2 b (deleteStatus result.1) := by
  subst root
  obtain ⟨kept, next⟩ := result
  cases kept with
  | true =>
      obtain ⟨root, balanced, red⟩ := (ColorTree.deleteBalanced_true ..).mp contract
      obtain ⟨color, noRedRed, counts⟩ := (balanced_iff next root b).mp balanced
      exact ⟨noRedRed, fun _ => counts, nofun, fun isRed => red (color.symm.trans isRed)⟩
  | false =>
      obtain ⟨_, k, shorter, balanced⟩ := (ColorTree.deleteBalanced_false ..).mp contract
      obtain ⟨color, noRedRed, counts⟩ := (balanced_iff next .black k).mp balanced
      refine ⟨noRedRed, nofun, fun _ => ⟨?_, .inr color⟩, ?_⟩
      · intro count member
        rw [counts count member, shorter]
      · intro isRed
        rw [color] at isRed
        cases isRed

theorem rbDeleteHelper_status (treeValid : rbTreeValid s = true) (rep : Represents L s.heap t)
    (levelled : Levelled t b) (ascending : Ascending (ranges t)) (front back : List U64)
    (ring : ListRing L s.heap (front ++ (addresses t ++ back)))
    (distinct : (L.list :: (front ++ (addresses t ++ back))).Nodup) (range : TestRange)
    (valid : testRangeValid range = true) (fuel : Nat) (enough : t.height < fuel) :
    ∃ next status last, rbDeleteHelper L fuel s (rootAddress L t) range =
        .ok (⟨rootAddress L next, status⟩, last) ∧
      Represents L last.heap next ∧ ranges next = (ranges t).erase range ∧
      ListRing L last.heap (front ++ (addresses next ++ back)) ∧ StatusTrue t next b status := by
  by_cases stored : range ∈ ranges t
  · obtain ⟨freed, _, _, removed, _⟩ := deleteRange_addresses t range ascending stored
    obtain ⟨last, call, deleted⟩ := rbDeleteHelper_refines
      ⟨treeValid, valid, rep, ascending, stored, ring, distinct, removed⟩ fuel enough
    exact ⟨_, _, last, call, deleted.represents, deleteRange_ranges t range ascending stored,
      deleted.ring, statusTrue_of_balanced rfl (deleteRange_balanced t range levelled.balanced)⟩
  · refine ⟨t, .ok, s, rbDeleteHelper_absent treeValid range valid t rep stored fuel enough, rep,
      (List.erase_of_not_mem stored).symm, ring, ?_⟩
    exact ⟨levelled.noRedRed, fun _ => levelled.counts, nofun, id⟩

def fixUpReduction (L : Layout) (heap : Heap) (node : U64) (direction : RBDirection) :
    Exec (U64 × Heap) := do
  let sibling ← nodeGetChild L heap node (rbDirectionFlip direction)
  if ← nodeRed L heap sibling then nodeRotate L heap node direction else return (node, heap)

/-- The sibling that the rest of `rb_delete_fix_up` reads is a node, so the path for a
missing sibling is not taken. -/
structure SiblingPresent (L : Layout) (heap : Heap) (node : U64) (d : RBDirection)
    (top : U64) (reduced : Heap) (sibling : U64) : Prop where
  reduction : fixUpReduction L heap node d = .ok (top, reduced)
  read : nodeGetChild L reduced node (rbDirectionFlip d) = .ok sibling
  present : sibling ≠ L.nodeNil
  rest : rbDeleteFixUp L heap node d = do
    let (result, heap) ← rbDeleteFixBlack L reduced top node d
    kassert (nodeValid result.node) "node_valid(result.node)"
    return (result, heap)

/-- A node that was in order before its side `d` went from `near₀`, of black height `k + 1`,
to `near`. -/
structure Shortened (d : Direction) (c : Color) (near₀ near far : ColorTree Cell) (cell : Cell)
    (b k : Nat) : Prop where
  before : Levelled (ColorTree.mk d c near₀ cell far) b
  side : Levelled near₀ (k + 1)
  short : Levelled near k
  black : near.color = .black

theorem Shortened.balanced (shortened : Shortened d c near₀ near far cell b k) :
    Balanced (ColorTree.mk d c near₀ cell far) c b ∧ Balanced near₀ near₀.color (k + 1) ∧
      Balanced near .black k := by
  have before := shortened.before.balanced
  rw [ColorTree.color_mk] at before
  exact ⟨before, shortened.side.balanced, shortened.black ▸ shortened.short.balanced⟩

theorem Shortened.far_balanced (shortened : Shortened d c near₀ near far cell b k) :
    ∃ cf, Balanced far cf (k + 1) := by
  obtain ⟨before, side, _⟩ := shortened.balanced
  cases c with
  | red =>
      obtain ⟨_, hn, hf⟩ := (ColorTree.balanced_red ..).mp before
      obtain ⟨_, same⟩ := ColorTree.balanced_unique side hn
      exact ⟨_, same ▸ hf⟩
  | black =>
      obtain ⟨_, m, _, ⟨_, hn⟩, cf, hf⟩ := (ColorTree.balanced_black ..).mp before
      obtain ⟨_, same⟩ := ColorTree.balanced_unique side hn
      exact ⟨cf, same ▸ hf⟩

theorem rbDeleteFixUp_eq (heap : Heap) (node : U64) (d : RBDirection) :
    rbDeleteFixUp L heap node d = (do
      kassert (nodeValid node) "node_valid(node)"
      assertNotNil L node
      let (top, heap) ← fixUpReduction L heap node d
      let (result, heap) ← rbDeleteFixBlack L heap top node d
      kassert (nodeValid result.node) "node_valid(result.node)"
      return (result, heap)) := by
  simp only [rbDeleteFixUp, fixUpReduction, bind_assoc]
  refine bind_congr fun _ => bind_congr fun _ => bind_congr fun _ => bind_congr fun red => ?_
  cases red <;> rfl

theorem SiblingPresent.of_reduction {top sibling : U64} {reduced : Heap}
    (isNode : IsNode L cell.address)
    (reduction : fixUpReduction L heap cell.address d = .ok (top, reduced))
    (read : nodeGetChild L reduced cell.address (rbDirectionFlip d) = .ok sibling)
    (present : sibling ≠ L.nodeNil) :
    SiblingPresent L heap cell.address d top reduced sibling := by
  refine ⟨reduction, read, present, ?_⟩
  rw [rbDeleteFixUp_eq, isNode.1, isNode.assertNotNil, reduction]
  rfl

theorem siblingPresent_black (rep : Represents L heap (mk d c near cell far))
    (higher : Balanced far .black (k + 1)) :
    ∃ top reduced sibling, SiblingPresent L heap cell.address d top reduced sibling := by
  obtain ⟨y, a, z, rfl, _⟩ := higher.black_node d
  have isNode := ((represents_mk ..).mp rep).1.1
  have repFar := ((represents_mk ..).mp rep).2.2
  have read := rep.nodeGetChild (by simp) d.flip
  rw [rootAddress_mk, ColorTree.child_flip_mk, rootAddress_mk] at read
  have black := repFar.nodeRed
  rw [rootAddress_mk, ColorTree.isRed_mk] at black
  have reduction : fixUpReduction L heap cell.address d = .ok (cell.address, heap) := by
    simp [fixUpReduction, rbDirectionFlip, read, black]
  exact ⟨_, _, _, .of_reduction isNode reduction read ((represents_mk ..).mp repFar).1.1.2⟩

theorem siblingPresent_red (rep : Represents L heap (mk d c near cell far))
    (distinct : (addresses (mk d c near cell far)).Nodup) (higher : Balanced far .red (k + 1)) :
    ∃ top reduced sibling, SiblingPresent L heap cell.address d top reduced sibling := by
  obtain ⟨y, a, z, rfl, inner, _⟩ := higher.red_node d
  obtain ⟨p, q, r, rfl, _⟩ := inner.black_node d
  have isNode := ((represents_mk ..).mp rep).1.1
  have read := rep.nodeGetChild (by simp) d.flip
  rw [rootAddress_mk, ColorTree.child_flip_mk, rootAddress_mk] at read
  have red := ((represents_mk ..).mp rep).2.2.nodeRed
  rw [rootAddress_mk, ColorTree.isRed_mk] at red
  obtain ⟨reduced, turn, repReduced, _⟩ := nodeRotate_refines _ d rep distinct (by simp)
  rw [rotate_mk, rootAddress_mk, rootAddress_mk] at turn
  rw [rotate_mk] at repReduced
  have reduction : fixUpReduction L heap cell.address d = .ok (a.address, reduced) := by
    simp [fixUpReduction, rbDirectionFlip, read, red, turn]
  have repNear := ((represents_mk ..).mp repReduced).2.1
  have readInner := repNear.nodeGetChild (by simp) d.flip
  rw [rootAddress_mk, ColorTree.child_flip_mk, rootAddress_mk] at readInner
  have repInner := ((represents_mk ..).mp repNear).2.2
  exact ⟨_, _, _, .of_reduction isNode reduction readInner
    ((represents_mk ..).mp repInner).1.1.2⟩

theorem Shortened.siblingPresent (shortened : Shortened d c near₀ near far cell b k)
    (rep : Represents L heap (ColorTree.mk d c near cell far))
    (distinct : (addresses (ColorTree.mk d c near cell far)).Nodup) :
    ∃ top reduced sibling, SiblingPresent L heap cell.address d top reduced sibling := by
  obtain ⟨cf, higher⟩ := shortened.far_balanced
  cases cf with
  | black => exact siblingPresent_black rep higher
  | red => exact siblingPresent_red rep distinct higher

theorem Shortened.repaired (shortened : Shortened d c near₀ near far cell b k)
    (rep : Represents L heap (ColorTree.mk d c near cell far))
    (distinct : (addresses (ColorTree.mk d c near cell far)).Nodup) :
    ∃ next status last, rbDeleteFixUp L heap cell.address d =
        .ok (⟨rootAddress L next, status⟩, last) ∧
      Represents L last next ∧ ranges next = ranges (ColorTree.mk d c near cell far) ∧
      StatusTrue (ColorTree.mk d c near₀ cell far) next b status := by
  obtain ⟨before, side, short⟩ := shortened.balanced
  have contract := ColorTree.deleteFixUp_balanced d c near₀ far near cell before side short
  obtain ⟨last, repaired, repLast, _⟩ := rbDeleteFixUp_refines _ d rep distinct (by simp)
  rw [rootAddress_mk] at repaired
  exact ⟨_, _, last, repaired, repLast, ranges_of_inorder (ColorTree.inorder_deleteFixUp _ d),
    statusTrue_of_balanced (ColorTree.color_mk ..) contract⟩

/-- The status of a deletion below any node is true, and the repair keeps it so. -/
theorem delete_status_is_true :
    (∀ (s : RBState) (t : ColorTree Cell) (b : Nat), rbTreeValid s = true →
      Represents L s.heap t → Levelled t b → Ascending (ranges t) →
      ∀ front back, ListRing L s.heap (front ++ (addresses t ++ back)) →
      (L.list :: (front ++ (addresses t ++ back))).Nodup →
      ∀ range, testRangeValid range = true → ∀ fuel, t.height < fuel →
        ∃ next status last, rbDeleteHelper L fuel s (rootAddress L t) range =
            .ok (⟨rootAddress L next, status⟩, last) ∧
          Represents L last.heap next ∧ ranges next = (ranges t).erase range ∧
          ListRing L last.heap (front ++ (addresses next ++ back)) ∧
          StatusTrue t next b status) ∧
    ∀ (heap : Heap) (d : Direction) (c : Color) (near₀ near far : ColorTree Cell) (cell : Cell)
      (b k : Nat), Shortened d c near₀ near far cell b k →
      Represents L heap (mk d c near cell far) → (addresses (mk d c near cell far)).Nodup →
        (∃ top reduced sibling, SiblingPresent L heap cell.address d top reduced sibling) ∧
        ∃ next status last, rbDeleteFixUp L heap cell.address d =
            .ok (⟨rootAddress L next, status⟩, last) ∧
          Represents L last next ∧ ranges next = ranges (mk d c near cell far) ∧
          StatusTrue (mk d c near₀ cell far) next b status := by
  constructor
  · intro s t b treeValid rep levelled ascending front back ring distinct range valid fuel enough
    exact rbDeleteHelper_status treeValid rep levelled ascending front back ring distinct range
      valid fuel enough
  · intro heap d c near₀ near far cell b k shortened rep distinct
    exact ⟨shortened.siblingPresent rep distinct, shortened.repaired rep distinct⟩

def redSibling : RBState where
  heap node :=
    match node.toNat with
    | 128 => ⟨⟨0#64, 0#64⟩, pair 1280#64 512#64, pair 0#64 0#64⟩
    | 256 => ⟨⟨20#64, 4#64⟩, pair 512#64 1024#64, pair 512#64 768#64⟩
    | 512 => ⟨⟨10#64, 4#64⟩, pair 128#64 256#64, pair 64#64 64#64⟩
    | 768 => ⟨⟨40#64, 4#64⟩, pair 1024#64 1280#64, pair 1025#64 1280#64⟩
    | 1024 => ⟨⟨30#64, 4#64⟩, pair 256#64 768#64, pair 64#64 64#64⟩
    | 1280 => ⟨⟨50#64, 4#64⟩, pair 768#64 128#64, pair 64#64 64#64⟩
    | _ => Node.zero
  chunks := fun _ => ⟨0, 0⟩
  tree := ⟨256#64, 0#64, 4096#64, 4096#64⟩
  supply := []
  requests := 0
  allocated := [4096#64]
  freed := []
where
  pair (left right : U64) : RBDirection → U64
    | .left => left
    | .right => right

def redSiblingRoot : Cell := ⟨256#64, ⟨20#64, 4#64⟩⟩
def redSiblingNear : ColorTree Cell := .node .black .nil ⟨512#64, ⟨10#64, 4#64⟩⟩ .nil
def redSiblingFar : ColorTree Cell :=
  .node .red (.node .black .nil ⟨1024#64, ⟨30#64, 4#64⟩⟩ .nil) ⟨768#64, ⟨40#64, 4#64⟩⟩
    (.node .black .nil ⟨1280#64, ⟨50#64, 4#64⟩⟩ .nil)

theorem redSibling_levelled :
    Levelled (mk .left .black redSiblingNear redSiblingRoot redSiblingFar) 2 :=
  ⟨by simp [mk, redSiblingNear, redSiblingFar, ColorTree.NoRedRed, ColorTree.color],
    by simp [mk, redSiblingNear, redSiblingFar, ColorTree.blackCounts]⟩

theorem redSibling_represents : Represents sampleLayout redSibling.heap
    (mk .left .black redSiblingNear redSiblingRoot redSiblingFar) := by
  simp only [mk, redSiblingNear, redSiblingFar, redSiblingRoot, Represents, IsNode]
  decide

theorem redSibling_shortened :
    Shortened .left .black redSiblingNear .nil redSiblingFar redSiblingRoot 2 0 where
  before := redSibling_levelled
  side := ⟨by simp [redSiblingNear, ColorTree.NoRedRed],
    by simp [redSiblingNear, ColorTree.blackCounts]⟩
  short := ⟨by simp [ColorTree.NoRedRed], by simp [ColorTree.blackCounts]⟩
  black := rfl

/-- The deletion of the black leaf repairs the root, whose other child is red; then the
repair alone, after the leaf is gone. -/
theorem delete_status_is_true_sample :
    (∃ next status last, rbDeleteHelper sampleLayout 4 redSibling 256#64 ⟨10#64, 4#64⟩ =
        .ok (⟨rootAddress sampleLayout next, status⟩, last) ∧
      Represents sampleLayout last.heap next ∧
      ranges next = [⟨20#64, 4#64⟩, ⟨30#64, 4#64⟩, ⟨40#64, 4#64⟩, ⟨50#64, 4#64⟩] ∧
      StatusTrue (mk .left .black redSiblingNear redSiblingRoot redSiblingFar) next 2 status) ∧
    ∃ top reduced sibling, SiblingPresent sampleLayout
      (setChildWord redSibling.heap 256#64 .left 64#64) 256#64 .left top reduced sibling := by
  obtain ⟨whole, repair⟩ := delete_status_is_true (L := sampleLayout)
  obtain ⟨next, status, last, call, rep, kept, _, holds⟩ :=
    whole redSibling (mk .left .black redSiblingNear redSiblingRoot redSiblingFar) 2 (by decide)
      redSibling_represents redSibling_levelled
      (by
        simp only [mk, redSiblingNear, redSiblingFar, redSiblingRoot, Ascending, ranges,
          ColorTree.inorder, List.nil_append, List.cons_append, List.map_cons, List.map_nil,
          List.pairwise_cons, List.mem_cons, List.not_mem_nil, or_false, forall_eq_or_imp,
          forall_eq, TestRange.Before, false_imp_iff, implies_true, List.Pairwise.nil]
        decide)
      [] []
      (by
        simp only [mk, redSiblingNear, redSiblingFar, redSiblingRoot, ListRing, addresses,
          ColorTree.inorder, List.nil_append, List.cons_append, List.append_nil, List.map_cons,
          List.map_nil, Library.Ring.Links]
        decide)
      (by decide) ⟨10#64, 4#64⟩ (by decide) 4 (by decide)
  obtain ⟨present, _⟩ := repair (setChildWord redSibling.heap 256#64 .left 64#64) .left .black
    redSiblingNear .nil redSiblingFar redSiblingRoot 2 0 redSibling_shortened
    (by
      simp only [mk, redSiblingFar, redSiblingRoot, Represents, IsNode]
      decide)
    (by decide)
  exact ⟨⟨next, status, last, call, rep, kept, holds⟩, present⟩

end Drastic
