import Drastic.RangeTree.Abstract
import Drastic.RangeTree.Links
import Drastic.RangeTree.PoolSteps
import Drastic.RangeTree.Surgery

namespace Drastic

open Library.RedBlack (Direction Color ColorTree)
open Library.RedBlack.ColorTree (mk eq_nil_or_mk)

variable {L : Layout} {s : RBState}

def sideFront (d : Direction) (far : ColorTree Cell) (cell : Cell) (front : List U64) : List U64 :=
  match d with
  | .left => front
  | .right => front ++ (addresses far ++ [cell.address])

def sideBack (d : Direction) (far : ColorTree Cell) (cell : Cell) (back : List U64) : List U64 :=
  match d with
  | .left => cell.address :: (addresses far ++ back)
  | .right => back

theorem side_list (d : Direction) (c : Color) (near far : ColorTree Cell) (cell : Cell)
    (front back : List U64) :
    sideFront d far cell front ++ (addresses near ++ sideBack d far cell back) =
      front ++ (addresses (mk d c near cell far) ++ back) := by
  cases d <;> simp [sideFront, sideBack, mk]

theorem side_borders (d : Direction) (far : ColorTree Cell) (cell : Cell) (front back : List U64) :
    Borders L cell.address d (sideFront d far cell front) (sideBack d far cell back) := by
  cases d with
  | left => simp [Borders, sideBack]
  | right =>
      simp only [Borders, sideFront]
      rw [← List.append_assoc, Library.Ring.before_concat]

theorem insertCell_mk (d : Direction) (c : Color) (near far : ColorTree Cell) (cell new : Cell)
    (apart : rangesOverlap new.range cell.range = false)
    (way : comparisonDirection (testRangeCompare new.range cell.range) = d) :
    insertCell (mk d c near cell far) new =
      (insertCell near new).map (fun next => (mk d c next cell far).insertFixUp d) := by
  cases d <;> simp [mk, insertCell, apart, way]

theorem insertCell_addresses (t next : ColorTree Cell) (new : Cell)
    (inserted : insertCell t new = some next) :
    (addresses next).Perm (new.address :: addresses t) := by
  induction t generalizing next with
  | nil =>
      cases inserted
      simp
  | node color left cell right ihl ihr =>
      cases (insertCell_step inserted).2 with
      | @left grown _ result =>
          rw [addresses_of_inorder (ColorTree.inorder_insertFixUp _ _), addresses_node,
            addresses_node]
          exact (ihl grown result).append_right _
      | @right grown _ result =>
          rw [addresses_of_inorder (ColorTree.inorder_insertFixUp _ _), addresses_node,
            addresses_node]
          calc
            List.Perm (addresses left ++ cell.address :: addresses grown)
                (addresses left ++ cell.address :: new.address :: addresses right) :=
              ((ihr grown result).cons _).append_left _
            List.Perm _ (addresses left ++ new.address :: cell.address :: addresses right) :=
              (List.Perm.swap ..).append_left _
            List.Perm _ (new.address :: (addresses left ++ cell.address :: addresses right)) :=
              List.perm_middle

structure NodeMade (L : Layout) (s made : RBState) (used : List U64) (new : Cell) : Prop where
  isNode : IsNode L new.address
  notList : new.address ≠ L.list
  unused : new.address ∉ used
  kept : ∀ q, q = L.list ∨ q ∈ used → made.heap q = s.heap q
  range : (made.heap new.address).range = new.range
  color : colorOf made.heap new.address = .red
  leaf : ∀ d, childOf made.heap new.address d = L.nodeNil

structure Inserted (L : Layout) (made : RBState) (last : Heap) (t next : ColorTree Cell) (new : U64)
    (front back : List U64) : Prop where
  represents : Represents L last next
  ring : ListRing L last (front ++ (addresses next ++ back))
  other : ∀ q, q ≠ new → q ∉ addresses t → SameNode made.heap last q

def InsertOutcome (L : Layout) (s made : RBState) (t : ColorTree Cell) (new : Cell)
    (front back : List U64) (result : Exec (RBInsertResult × RBState)) : Prop :=
  match insertCell t new with
  | none => result = .ok (⟨rootAddress L t, .overlap⟩, s)
  | some next =>
      if new.address = 0#64 then result = .ok (⟨rootAddress L t, .oom⟩, made)
      else ∃ last, result = .ok (⟨rootAddress L next, .ok⟩, { made with heap := last }) ∧
        Inserted L made last t next new.address front back

section

variable {made : RBState} {used : List U64} {new : Cell}

theorem rbInsertHelper_nil (fuel : Nat) (front back : List U64) (anker : U64) (d : Direction)
    (treeValid : rbTreeValid s = true) (valid : testRangeValid new.range = true)
    (makes : rbTreeNodeMake L s new.range .red = .ok (new.address, made))
    (slot : new.address = 0#64 ∨ NodeMade L s made (front ++ back) new)
    (ring : ListRing L s.heap (front ++ back)) (distinct : (L.list :: (front ++ back)).Nodup)
    (isAnker : IsNode L anker) (borders : Borders L anker d front back) :
    InsertOutcome L s made .nil new front back
      (rbInsertHelper L (fuel + 1) s L.nodeNil new.range anker d) := by
  unfold rbInsertHelper
  simp only [treeValid, L.nodeNil_valid, valid, isAnker.1, kassert_true, exec_bind_ok,
    nodeIsNil_nil, if_true, makes]
  simp only [InsertOutcome, insertCell]
  by_cases missing : new.address = 0#64
  · rw [if_pos missing, if_pos missing]
    rfl
  · rw [if_neg missing, if_neg missing]
    have node := slot.resolve_left missing
    have madeRing : ListRing L made.heap (front ++ back) := by
      refine listRing_kept _ ?_ ring
      intro q member
      exact node.kept q (List.mem_cons.mp member)
    have fresh : new.address ∉ L.list :: (front ++ back) := by
      rw [List.mem_cons, not_or]
      exact ⟨node.notList, node.unused⟩
    obtain ⟨last, linked, same, lastRing⟩ := nodeInsert_ring new.address anker d front back
      node.isNode isAnker madeRing distinct fresh borders
    have here := same new.address
    refine ⟨last, ?_, ⟨⟨⟨node.isNode, here.1.trans node.range, here.color.trans node.color,
      (here.child _).trans (node.leaf _), (here.child _).trans (node.leaf _)⟩, trivial, trivial⟩,
      by simpa using lastRing, fun q _ _ => same q⟩⟩
    simp only [linked, exec_bind_ok, node.isNode.1, kassert_true]
    rfl

theorem nodup_grown {d : Direction} {c : Color} {near far grown : ColorTree Cell} {cell : Cell}
    (distinct : (addresses (mk d c near cell far)).Nodup)
    (unused : new.address ∉ addresses (mk d c near cell far))
    (result : insertCell near new = some grown) : (addresses (mk d c grown cell far)).Nodup := by
  obtain ⟨outNear, outFar, distinctNear, distinctFar, disjoint⟩ :=
    (nodup_addresses_mk ..).mp distinct
  have grownAddresses := insertCell_addresses near grown new result
  rw [mem_addresses_mk, not_or, not_or] at unused
  rw [nodup_addresses_mk, grownAddresses.mem_iff, grownAddresses.nodup_iff, List.mem_cons, not_or,
    List.nodup_cons]
  refine ⟨⟨Ne.symm unused.1, outNear⟩, outFar, ⟨unused.2.1, distinctNear⟩, distinctFar, ?_⟩
  intro q inGrown inFar
  rcases List.mem_cons.mp (grownAddresses.mem_iff.mp inGrown) with rfl | inNear
  · exact unused.2.2 inFar
  · exact disjoint inNear inFar

theorem insert_above (d : Direction) (c : Color) (near far grown : ColorTree Cell) (cell : Cell)
    (front back : List U64) (last : Heap)
    (rep : Represents L s.heap (mk d c near cell far))
    (node : NodeMade L s made (front ++ (addresses (mk d c near cell far) ++ back)) new)
    (distinct : (front ++ (addresses (mk d c near cell far) ++ back)).Nodup)
    (result : insertCell near new = some grown)
    (below : Inserted L made last near grown new.address (sideFront d far cell front)
      (sideBack d far cell back)) :
    ∃ middle final,
      nodeSetChild L last cell.address d (rootAddress L grown) = .ok middle ∧
      rbInsertFixUp L middle cell.address d =
        .ok (rootAddress L ((mk d c grown cell far).insertFixUp d), final) ∧
      Inserted L made final (mk d c near cell far) ((mk d c grown cell far).insertFixUp d)
        new.address front back := by
  have inside (q : U64) (member : q ∈ addresses (mk d c near cell far)) :
      q ∈ front ++ (addresses (mk d c near cell far) ++ back) := by simp [member]
  have unused : new.address ∉ addresses (mk d c near cell far) :=
    fun member => node.unused (inside _ member)
  have distinctTree : (addresses (mk d c near cell far)).Nodup :=
    distinct.of_append_right.of_append_left
  have grownAddresses := insertCell_addresses near grown new result
  have repMade : Represents L made.heap (mk d c near cell far) := by
    refine represents_congr _ ?_ rep
    intro q member
    rw [SameNode, node.kept q (Or.inr (inside q member))]
    exact ⟨rfl, rfl⟩
  have distinctGrown := nodup_grown distinctTree unused result
  obtain ⟨written, repMiddle⟩ := nodeSetChild_refines last _ grown d repMade (by simp)
    distinctTree (fun q member outside => below.other q (fun same => unused (same ▸ member))
      (by simpa using outside)) below.represents
    (by
      rw [rootAddress_mk]
      exact ((nodup_addresses_mk ..).mp distinctGrown).1)
  rw [rootAddress_mk] at written repMiddle
  rw [ColorTree.setChild_mk] at repMiddle
  have frame := reshaped_setChildWord last cell.address (rootAddress L grown) d
  obtain ⟨final, repaired, repFinal, shape⟩ :=
    rbInsertFixUp_refines _ d repMiddle distinctGrown (by simp)
  rw [rootAddress_mk] at repaired
  refine ⟨_, final, written, repaired, repFinal, ?_, ?_⟩
  · have order : addresses ((mk d c grown cell far).insertFixUp d) =
        addresses (mk d c grown cell far) :=
      addresses_of_inorder (ColorTree.inorder_insertFixUp _ _)
    rw [order, ← side_list]
    exact listRing_congr _ (fun q => (shape.list q).trans (frame.list q)) below.ring
  · intro q notNew outside
    rw [mem_addresses_mk, not_or, not_or] at outside
    refine (below.other q notNew outside.2.1).trans ((frame.same q (by simpa using outside.1)).trans
      (shape.same q ?_))
    rw [mem_addresses_mk, grownAddresses.mem_iff, List.mem_cons]
    tauto

theorem rbInsertHelper_step (d : Direction) (c : Color) (near far : ColorTree Cell) (cell : Cell)
    (fuel : Nat) (front back : List U64) (anker : U64) (side : Direction)
    (treeValid : rbTreeValid s = true) (valid : testRangeValid new.range = true)
    (held : testRangeValid cell.range = true) (ankerValid : nodeValid anker = true)
    (apart : rangesOverlap new.range cell.range = false)
    (way : comparisonDirection (testRangeCompare new.range cell.range) = d)
    (rep : Represents L s.heap (mk d c near cell far))
    (slot : new.address = 0#64 ∨
      NodeMade L s made (front ++ (addresses (mk d c near cell far) ++ back)) new)
    (distinct : (front ++ (addresses (mk d c near cell far) ++ back)).Nodup)
    (below : InsertOutcome L s made near new (sideFront d far cell front)
      (sideBack d far cell back)
      (rbInsertHelper L fuel s (rootAddress L near) new.range cell.address d)) :
    InsertOutcome L s made (mk d c near cell far) new front back
      (rbInsertHelper L (fuel + 1) s cell.address new.range anker side) := by
  have word := rep.nodeGetChild (by simp) d
  rw [rootAddress_mk, ColorTree.child_mk] at word
  obtain ⟨⟨isNode, heldHere, _⟩, _⟩ := (represents_mk ..).mp rep
  have different : testRangeCompare new.range cell.range ≠ 0 := by
    rw [Ne, testRangeCompare_eq_zero_iff]
    intro same
    rw [same] at apart
    rcases (rangesOverlap_false_iff held held).mp apart with before | before
    · exact before.not_before held before
    · exact before.not_before held before
  unfold rbInsertHelper
  simp only [treeValid, isNode.1, valid, ankerValid, kassert_true, exec_bind_ok, isNode.nodeIsNil,
    heldHere, testRangeOverlap_eq valid held, apart, different, ne_eq, not_false_eq_true,
    decide_true, way, word]
  simp only [InsertOutcome, insertCell_mk d c near far cell new apart way, rootAddress_mk]
    at below ⊢
  cases result : insertCell near new with
  | none =>
      simp only [result] at below
      simp [below]
  | some grown =>
      simp only [result] at below
      simp only [Option.map_some]
      by_cases missing : new.address = 0#64
      · rw [if_pos missing] at below ⊢
        simp [below]
      · rw [if_neg missing] at below ⊢
        obtain ⟨last, completed, inserted⟩ := below
        obtain ⟨middle, final, written, repaired, above⟩ := insert_above d c near far grown cell
          front back last rep (slot.resolve_left missing) distinct result inserted
        refine ⟨final, ?_, above⟩
        simp [completed, written, repaired, rootAddress_valid _ above.represents]

theorem rbInsertHelper_refines (new : Cell) (used : List U64) (treeValid : rbTreeValid s = true)
    (valid : testRangeValid new.range = true)
    (makes : rbTreeNodeMake L s new.range .red = .ok (new.address, made))
    (slot : new.address = 0#64 ∨ NodeMade L s made used new)
    (ring : ListRing L s.heap used) (distinct : (L.list :: used).Nodup) (t : ColorTree Cell) :
    ∀ (fuel : Nat) (front back : List U64) (anker : U64) (d : Direction), t.height < fuel →
      front ++ (addresses t ++ back) = used → Represents L s.heap t →
      (∀ r ∈ ranges t, testRangeValid r = true) → IsNode L anker →
      Borders L anker d front back →
      InsertOutcome L s made t new front back
        (rbInsertHelper L fuel s (rootAddress L t) new.range anker d) := by
  induction t with
  | nil =>
      intro fuel front back anker d bound listed rep held isAnker borders
      cases fuel with
      | zero => exact absurd bound (Nat.not_lt_zero _)
      | succ fuel =>
          rw [addresses_nil, List.nil_append] at listed
          subst listed
          exact rbInsertHelper_nil fuel front back anker d treeValid valid makes slot ring distinct
            isAnker borders
  | node color left cell right ihl ihr =>
      intro fuel front back anker side bound listed rep held isAnker borders
      cases fuel with
      | zero => exact absurd bound (Nat.not_lt_zero _)
      | succ fuel =>
          have isNode := rep.1.1
          have validCell : testRangeValid cell.range = true := held _ (by simp)
          rw [show rootAddress L (.node color left cell right) = cell.address from rfl]
          by_cases overlap : rangesOverlap new.range cell.range = true
          · unfold rbInsertHelper
            simp [treeValid, isNode.1, valid, isAnker.1, isNode.nodeIsNil, rep.1.2.1,
              testRangeOverlap_eq valid validCell, InsertOutcome, insertCell, overlap, rootAddress]
          have apart : rangesOverlap new.range cell.range = false := by simpa using overlap
          have kept := (List.nodup_cons.mp distinct).2
          rw [ColorTree.height] at bound
          subst listed
          cases way : comparisonDirection (testRangeCompare new.range cell.range) with
          | left =>
              have below := ihl fuel (sideFront .left right cell front)
                (sideBack .left right cell back) cell.address .left (by omega)
                (side_list .left color left right cell front back) rep.2.1
                (fun r member => held r (by simp [member])) isNode (side_borders ..)
              exact rbInsertHelper_step .left color left right cell fuel front back anker side
                treeValid valid validCell isAnker.1 apart way rep slot kept below
          | right =>
              have below := ihr fuel (sideFront .right left cell front)
                (sideBack .right left cell back) cell.address .right (by omega)
                (side_list .right color right left cell front back) rep.2.2
                (fun r member => held r (by simp [member])) isNode (side_borders ..)
              exact rbInsertHelper_step .right color right left cell fuel front back anker side
                treeValid valid validCell isAnker.1 apart way rep slot kept below

end

end Drastic
