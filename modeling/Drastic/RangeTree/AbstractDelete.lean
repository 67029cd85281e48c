import Drastic.RangeTree.Abstract

namespace Drastic

open Library.RedBlack (Direction Color ColorTree)
open Library.RedBlack.ColorTree (mk Balanced DeleteBalanced)

theorem rejoin_removed (t : ColorTree Cell) (d : Direction) (below : Deletion) :
    (rejoin t d below).removed = below.removed := by
  unfold rejoin
  split <;> rfl

theorem rejoin_inorder (t : ColorTree Cell) (d : Direction) (below : Deletion) :
    (rejoin t d below).tree.inorder = t.inorder := by
  unfold rejoin
  split
  · rfl
  · exact ColorTree.inorder_deleteFixUp t d

theorem onlyChild_inorder (left right : ColorTree Cell)
    (leaf : (left.isNil || right.isNil) = true) :
    (onlyChild left right).inorder = left.inorder ++ right.inorder := by
  cases right with
  | nil => simp [onlyChild, ColorTree.isNil, ColorTree.inorder]
  | node =>
      have empty : left = .nil := by
        rw [← ColorTree.isNil_iff]
        simpa [ColorTree.isNil] using leaf
      simp [onlyChild, ColorTree.isNil, ColorTree.inorder, empty]

theorem removeNode_inorder (color : Color) (left right : ColorTree Cell)
    (leaf : (left.isNil || right.isNil) = true) :
    (removeNode color left right).2.inorder = left.inorder ++ right.inorder := by
  rw [← onlyChild_inorder left right leaf]
  unfold removeNode
  generalize onlyChild left right = temp
  dsimp only
  split
  · rfl
  · split
    · exact ColorTree.inorder_setColor temp _
    · rfl

theorem addresses_onlyChild {left right : ColorTree Cell}
    (leaf : (left.isNil || right.isNil) = true) :
    addresses (onlyChild left right) = addresses left ++ addresses right := by
  rw [addresses, onlyChild_inorder left right leaf, List.map_append]
  rfl

theorem addresses_removeNode (color : Color) {left right : ColorTree Cell}
    (leaf : (left.isNil || right.isNil) = true) :
    addresses (removeNode color left right).2 = addresses left ++ addresses right := by
  rw [addresses, removeNode_inorder color left right leaf, List.map_append]
  rfl

theorem lastCell_inorder (t : ColorTree Cell) (found : Cell) (nonempty : t ≠ .nil) :
    ∃ front, t.inorder = front ++ [lastCell t found] := by
  induction t generalizing found with
  | nil => exact absurd rfl nonempty
  | node color left cell right _ ihr =>
      cases right with
      | nil => exact ⟨left.inorder, by simp [ColorTree.inorder, lastCell]⟩
      | node =>
          obtain ⟨front, shape⟩ := ihr cell (by simp)
          refine ⟨left.inorder ++ cell :: front, ?_⟩
          rw [ColorTree.inorder, shape]
          simp [lastCell]

theorem lastCell_mem (t : ColorTree Cell) (found : Cell) (nonempty : t ≠ .nil) :
    lastCell t found ∈ t.inorder := by
  obtain ⟨front, shape⟩ := lastCell_inorder t found nonempty
  rw [shape]
  simp

theorem direction_of_stored {color : Color} {left right : ColorTree Cell} {cell : Cell}
    {range : TestRange} (ascending : Ascending (ranges (.node color left cell right)))
    (stored : range ∈ ranges (.node color left cell right)) (different : cell.range ≠ range) :
    (comparisonDirection (testRangeCompare range cell.range) = .left ∧ range ∈ ranges left) ∨
      (comparisonDirection (testRangeCompare range cell.range) = .right ∧
        range ∈ ranges right) := by
  obtain ⟨ascLeft, validCell, _, below, above⟩ := ascending_node ascending
  simp only [ranges_node, List.mem_append, List.mem_cons] at stored
  rcases stored with inside | same | inside
  · have negative := (below range inside).compare_neg (ascLeft.1 range inside)
    exact Or.inl ⟨by simp only [comparisonDirection]; rw [if_neg (by omega)], inside⟩
  · exact absurd same.symm different
  · have positive := (testRangeCompare_pos_iff range cell.range).mpr
      ((above range inside).compare_neg validCell)
    exact Or.inr ⟨by simp only [comparisonDirection]; rw [if_pos positive], inside⟩

inductive DeleteStep (color : Color) (left right : ColorTree Cell) (cell : Cell)
    (range : TestRange) : Deletion → Prop where
  | node (found : cell.range = range) (leaf : (left.isNil || right.isNil) = true) :
      DeleteStep color left right cell range
        ⟨(removeNode color left right).1, (removeNode color left right).2, some cell.address⟩
  | predecessor (found : cell.range = range) (both : ¬ (left.isNil || right.isNil) = true)
      (nonempty : left ≠ .nil) (held : (lastCell left cell).range ∈ ranges left) :
      DeleteStep color left right cell range
        (rejoin (.node color (deleteRange left (lastCell left cell).range).tree
          { cell with range := (lastCell left cell).range } right) .left
          (deleteRange left (lastCell left cell).range))
  | left (different : cell.range ≠ range)
      (way : comparisonDirection (testRangeCompare range cell.range) = .left)
      (inside : range ∈ ranges left) :
      DeleteStep color left right cell range
        (rejoin (.node color (deleteRange left range).tree cell right) .left
          (deleteRange left range))
  | right (different : cell.range ≠ range)
      (way : comparisonDirection (testRangeCompare range cell.range) = .right)
      (inside : range ∈ ranges right) :
      DeleteStep color left right cell range
        (rejoin (.node color left cell (deleteRange right range).tree) .right
          (deleteRange right range))

theorem deleteRange_step {color : Color} {left right : ColorTree Cell} {cell : Cell}
    {range : TestRange} (ascending : Ascending (ranges (.node color left cell right)))
    (stored : range ∈ ranges (.node color left cell right)) :
    DeleteStep color left right cell range (deleteRange (.node color left cell right) range) := by
  by_cases here : testRangeCompare cell.range range = 0
  · have found := (testRangeCompare_eq_zero_iff _ _).mp here
    rw [deleteRange, if_pos here]
    split
    case isTrue leaf => exact .node found leaf
    case isFalse both =>
      have nonempty : left ≠ .nil := by
        rintro rfl
        exact both rfl
      exact .predecessor found both nonempty
        (List.mem_map_of_mem (lastCell_mem left cell nonempty))
  · have different : cell.range ≠ range := fun same =>
      here ((testRangeCompare_eq_zero_iff _ _).mpr same)
    rw [deleteRange, if_neg here]
    rcases direction_of_stored ascending stored different with ⟨way, inside⟩ | ⟨way, inside⟩
    · rw [way]
      exact .left different way inside
    · rw [way]
      exact .right different way inside

theorem ranges_lastCell {t : ColorTree Cell} (nonempty : t ≠ .nil) (found : Cell)
    (ascending : Ascending (ranges t)) :
    (ranges t).erase (lastCell t found).range ++ [(lastCell t found).range] = ranges t := by
  obtain ⟨front, shape⟩ := lastCell_inorder t found nonempty
  have held : ranges t = front.map Cell.range ++ [(lastCell t found).range] := by
    rw [ranges, shape]
    simp
  have once : (lastCell t found).range ∉ front.map Cell.range := by
    have distinct := ascending.nodup
    rw [held] at distinct
    simpa using (List.nodup_append'.mp distinct).2.2
  rw [held, List.erase_append_right _ once]
  simp

/-- Deleting a stored range erases exactly it from the ordered list of ranges. -/
theorem deleteRange_ranges (t : ColorTree Cell) (range : TestRange)
    (ascending : Ascending (ranges t))
    (stored : range ∈ ranges t) :
    ranges (deleteRange t range).tree = (ranges t).erase range := by
  induction t generalizing range with
  | nil => simp at stored
  | node color left cell right ihl ihr =>
      obtain ⟨ascLeft, validCell, ascRight, below, above⟩ := ascending_node ascending
      have outLeft : cell.range ∉ ranges left := fun inside =>
        (below _ inside).not_before validCell (below _ inside)
      have step := deleteRange_step ascending stored
      generalize deleteRange (.node color left cell right) range = result at step ⊢
      cases step with
      | node found leaf =>
          rw [ranges, removeNode_inorder color left right leaf, List.map_append, ranges_node,
            ← found, List.erase_append_right _ outLeft, List.erase_cons_head]
          rfl
      | predecessor found both nonempty held =>
          -- the predecessor's range moves up, and is erased from the left subtree
          rw [ranges_of_inorder (rejoin_inorder _ _ _), ranges_node, ranges_node,
            ihl _ ascLeft held, ← found, List.erase_append_right _ outLeft, List.erase_cons_head,
            ← List.singleton_append, ← List.append_assoc, ranges_lastCell nonempty cell ascLeft]
      | left different way inside =>
          rw [ranges_of_inorder (rejoin_inorder _ _ _), ranges_node, ranges_node,
            ihl range ascLeft inside, List.erase_append_left _ inside]
      | right different way inside =>
          have outside : range ∉ ranges left := fun member =>
            ((below range member).trans (above range inside)).not_before
              (ascLeft.1 range member) ((below range member).trans (above range inside))
          rw [ranges_of_inorder (rejoin_inorder _ _ _), ranges_node, ranges_node,
            ihr range ascRight inside, List.erase_append_right _ outside,
            List.erase_cons_tail (by simpa using different)]

def TakesOut (t : ColorTree Cell) (result : Deletion) : Prop :=
  ∃ address front back, result.removed = some address ∧
    addresses t = front ++ address :: back ∧ addresses result.tree = front ++ back

theorem TakesOut.above {near : ColorTree Cell} {below : Deletion} (taken : TakesOut near below)
    (d : Direction) (color : Color) (far : ColorTree Cell) {cell moved : Cell}
    (same : moved.address = cell.address) :
    TakesOut (mk d color near cell far) (rejoin (mk d color below.tree moved far) d below) := by
  obtain ⟨address, front, back, gone, whole, rest⟩ := taken
  have order := addresses_of_inorder (rejoin_inorder (mk d color below.tree moved far) d below)
  cases d with
  | left =>
      refine ⟨address, front, back ++ cell.address :: addresses far, ?_, ?_, ?_⟩
      · rw [rejoin_removed, gone]
      · simp [mk, whole]
      · rw [order, mk, addresses_node, rest, same, List.append_assoc]
  | right =>
      refine ⟨address, addresses far ++ cell.address :: front, back, ?_, ?_, ?_⟩
      · rw [rejoin_removed, gone]
      · simp [mk, whole]
      · rw [order, mk, addresses_node, rest, same, List.append_assoc, List.cons_append]

/-- For a node with two children the cell that goes is its predecessor's. -/
theorem deleteRange_addresses (t : ColorTree Cell) (range : TestRange)
    (ascending : Ascending (ranges t)) (stored : range ∈ ranges t) :
    ∃ address front back, (deleteRange t range).removed = some address ∧
      addresses t = front ++ address :: back ∧
      addresses (deleteRange t range).tree = front ++ back := by
  induction t generalizing range with
  | nil => simp at stored
  | node color left cell right ihl ihr =>
      obtain ⟨ascLeft, _, ascRight, _, _⟩ := ascending_node ascending
      have step := deleteRange_step ascending stored
      generalize deleteRange (.node color left cell right) range = result at step ⊢
      cases step with
      | node found leaf =>
          exact ⟨cell.address, addresses left, addresses right, rfl, by simp,
            addresses_removeNode color leaf⟩
      | predecessor found both nonempty held =>
          exact TakesOut.above (ihl _ ascLeft held) .left color right rfl
      | left different way inside =>
          exact TakesOut.above (ihl range ascLeft inside) .left color right rfl
      | right different way inside =>
          exact TakesOut.above (ihr range ascRight inside) .right color left rfl

theorem rejoin_balanced (d : Direction) (c : Color) (near far : ColorTree Cell) (cell cell' : Cell)
    (below : Deletion) {cn : Color} {n m : Nat} (before : Balanced (mk d c near cell far) c n)
    (side : Balanced near cn m) (deleted : DeleteBalanced cn m (below.kept, below.tree)) :
    DeleteBalanced c n ((rejoin (mk d c below.tree cell' far) d below).kept,
      (rejoin (mk d c below.tree cell' far) d below).tree) := by
  unfold rejoin
  cases flag : below.kept with
  | true =>
      rw [flag, ColorTree.deleteBalanced_true] at deleted
      obtain ⟨root, hnext, keepRed⟩ := deleted
      simp only [if_true, ColorTree.deleteBalanced_true]
      refine ⟨c, ?_, id⟩
      cases c with
      | red =>
          obtain ⟨_, hn, hf⟩ := (ColorTree.balanced_red ..).mp before
          obtain ⟨rfl, rfl⟩ := ColorTree.balanced_unique side hn
          cases root with
          | red => cases keepRed rfl
          | black => exact ColorTree.mk_red_balanced d cell' hnext hf
      | black =>
          obtain ⟨_, k, rfl, ⟨_, hn⟩, _, hf⟩ := (ColorTree.balanced_black ..).mp before
          obtain ⟨_, rfl⟩ := ColorTree.balanced_unique side hn
          exact ColorTree.mk_black_balanced d cell' hnext hf
  | false =>
      rw [flag, ColorTree.deleteBalanced_false] at deleted
      obtain ⟨rfl, k, rfl, short⟩ := deleted
      have relabelled : Balanced (mk d c near cell' far) c n := by
        cases c with
        | red =>
            obtain ⟨_, hn, hf⟩ := (ColorTree.balanced_red ..).mp before
            exact (ColorTree.balanced_red ..).mpr ⟨rfl, hn, hf⟩
        | black => exact (ColorTree.balanced_black ..).mpr ((ColorTree.balanced_black ..).mp before)
      exact ColorTree.deleteFixUp_balanced d c near far below.tree cell' relabelled side short

theorem removeNode_balanced (color : Color) (left right : ColorTree Cell) (cell : Cell) {n : Nat}
    (balanced : Balanced (.node color left cell right) color n) :
    DeleteBalanced color n (removeNode color left right) := by
  cases balanced with
  | red _ hl hr =>
      have rest : Balanced (onlyChild left right) .black n := by
        unfold onlyChild
        split
        · exact hl
        · exact hr
      exact (ColorTree.deleteBalanced_true ..).mpr ⟨_, rest, by simp⟩
  | @black _ _ _ _ m _ hl hr =>
      have rest : ∃ c, Balanced (onlyChild left right) c m := by
        unfold onlyChild
        split
        · exact ⟨_, hl⟩
        · exact ⟨_, hr⟩
      unfold removeNode
      generalize onlyChild left right = temp at rest
      obtain ⟨c, rest⟩ := rest
      dsimp only
      rw [if_neg (by decide)]
      cases c with
      | red =>
          rw [if_pos (by simp [rest.isRed_eq]), ColorTree.deleteBalanced_true]
          exact ⟨_, rest.setBlack_of_red, by simp⟩
      | black =>
          rw [if_neg (by simp [rest.isRed_eq]), ColorTree.deleteBalanced_false]
          exact ⟨rfl, _, rfl, rest⟩

theorem deleteRange_balanced (t : ColorTree Cell) (range : TestRange) {c : Color} {n : Nat}
    (balanced : Balanced t c n) :
    DeleteBalanced c n ((deleteRange t range).kept, (deleteRange t range).tree) := by
  induction t generalizing range c n with
  | nil => exact (ColorTree.deleteBalanced_true ..).mpr ⟨c, balanced, id⟩
  | node color left cell right ihl ihr =>
      obtain rfl : color = c := balanced.color_eq
      obtain ⟨⟨cl, ml, hl⟩, cr, mr, hr⟩ := balanced.sides
      simp only [deleteRange]
      split
      · split
        case isTrue => exact removeNode_balanced color left right cell balanced
        case isFalse =>
          exact rejoin_balanced .left color left right cell _ _ balanced hl (ihl _ hl)
      · split
        · exact rejoin_balanced .left color left right cell cell _ balanced hl (ihl _ hl)
        · exact rejoin_balanced .right color right left cell cell _ balanced hr (ihr _ hr)

end Drastic
