import Drastic.Library.RedBlack.Repair
import Drastic.RangeTree.Operations
import Drastic.RangeTree.Represents

namespace Drastic

open Library.RedBlack (Direction Color ColorTree)
open Library.RedBlack.ColorTree (mk Balanced AlmostBalanced DeleteBalanced)

/-! The tree algorithms on abstract trees: what `rb_insert_helper` and
`rb_delete_helper` compute once the words of the heap are read as a tree. -/

def Ascending (held : List TestRange) : Prop :=
  (∀ range ∈ held, testRangeValid range = true) ∧ held.Pairwise TestRange.Before

/-- The tree after an insertion, or nothing when the new range overlaps a range
met on the way down. -/
def insertCell : ColorTree Cell → Cell → Option (ColorTree Cell)
  | .nil, new => some (.node .red .nil new .nil)
  | .node color left cell right, new =>
      if rangesOverlap new.range cell.range then none
      else
        match comparisonDirection (testRangeCompare new.range cell.range) with
        | .left => (insertCell left new).map
            (fun next => (ColorTree.node color next cell right).insertFixUp .left)
        | .right => (insertCell right new).map
            (fun next => (ColorTree.node color left cell next).insertFixUp .right)

structure Deletion where
  kept : Bool
  tree : ColorTree Cell
  removed : Option U64

/-- The way back up: `t` already holds the subtree left by the deletion below. -/
def rejoin (t : ColorTree Cell) (d : Direction) (below : Deletion) : Deletion :=
  if below.kept then ⟨true, t, below.removed⟩
  else ⟨(t.deleteFixUp d).1, (t.deleteFixUp d).2, below.removed⟩

def onlyChild (left right : ColorTree Cell) : ColorTree Cell := if right.isNil then left else right

def removeNode (color : Color) (left right : ColorTree Cell) : Bool × ColorTree Cell :=
  let temp := onlyChild left right
  if color = .red then (true, temp)
  else if temp.isRed then (true, temp.setColor .black)
  else (false, temp)

def lastCell : ColorTree Cell → Cell → Cell
  | .nil, found => found
  | .node _ _ cell right, _ => lastCell right cell

def deleteRange : ColorTree Cell → TestRange → Deletion
  | .nil, _ => ⟨true, .nil, none⟩
  | .node color left cell right, range =>
      if testRangeCompare cell.range range = 0 then
        if left.isNil || right.isNil then
          ⟨(removeNode color left right).1, (removeNode color left right).2, some cell.address⟩
        else
          let range := (lastCell left cell).range
          let below := deleteRange left range
          rejoin (.node color below.tree { cell with range := range } right) .left below
      else
        match comparisonDirection (testRangeCompare range cell.range) with
        | .left =>
            let below := deleteRange left range
            rejoin (.node color below.tree cell right) .left below
        | .right =>
            let below := deleteRange right range
            rejoin (.node color left cell below.tree) .right below

theorem Ascending.append {front back : List TestRange} :
    Ascending (front ++ back) ↔ Ascending front ∧ Ascending back ∧
      ∀ a ∈ front, ∀ b ∈ back, a.Before b := by
  simp only [Ascending, List.mem_append, List.pairwise_append]
  constructor
  · rintro ⟨valid, front, back, across⟩
    exact ⟨⟨fun r h => valid r (Or.inl h), front⟩, ⟨fun r h => valid r (Or.inr h), back⟩, across⟩
  · rintro ⟨⟨validFront, front⟩, ⟨validBack, back⟩, across⟩
    exact ⟨fun r h => h.elim (validFront r) (validBack r), front, back, across⟩

theorem Ascending.cons {first : TestRange} {rest : List TestRange} :
    Ascending (first :: rest) ↔ testRangeValid first = true ∧ Ascending rest ∧
      ∀ b ∈ rest, first.Before b := by
  simp only [Ascending, List.mem_cons, forall_eq_or_imp, List.pairwise_cons]
  tauto

theorem Ascending.sublist {held fewer : List TestRange} (ascending : Ascending held)
    (sub : fewer.Sublist held) : Ascending fewer :=
  ⟨fun r h => ascending.1 r (sub.subset h), ascending.2.sublist sub⟩

theorem Ascending.nodup {held : List TestRange} (ascending : Ascending held) : held.Nodup := by
  apply ascending.2.imp_of_mem
  rintro a b memberA memberB before rfl
  exact before.not_before (ascending.1 a memberA) before

@[simp] theorem ranges_nil : ranges .nil = [] := rfl

@[simp] theorem ranges_node (color : Color) (left right : ColorTree Cell) (cell : Cell) :
    ranges (.node color left cell right) = ranges left ++ cell.range :: ranges right := by
  simp [ranges, ColorTree.inorder]

@[simp] theorem addresses_node (color : Color) (left right : ColorTree Cell) (cell : Cell) :
    addresses (.node color left cell right) =
      addresses left ++ cell.address :: addresses right := by
  simp [addresses, ColorTree.inorder]

theorem ranges_of_inorder {t s : ColorTree Cell} (same : t.inorder = s.inorder) :
    ranges t = ranges s := by rw [ranges, ranges, same]

theorem ascending_node {color : Color} {left right : ColorTree Cell} {cell : Cell}
    (ascending : Ascending (ranges (.node color left cell right))) :
    Ascending (ranges left) ∧ testRangeValid cell.range = true ∧ Ascending (ranges right) ∧
      (∀ r ∈ ranges left, r.Before cell.range) ∧ ∀ r ∈ ranges right, cell.range.Before r := by
  rw [ranges_node, Ascending.append, Ascending.cons] at ascending
  obtain ⟨left, ⟨valid, right, after⟩, across⟩ := ascending
  exact ⟨left, valid, right, fun r h => across r h _ (by simp), after⟩

theorem direction_of_apart {new held : TestRange} (validNew : testRangeValid new = true)
    (validHeld : testRangeValid held = true) (apart : rangesOverlap new held = false) :
    (comparisonDirection (testRangeCompare new held) = .left ∧ new.Before held) ∨
      (comparisonDirection (testRangeCompare new held) = .right ∧ held.Before new) := by
  rcases (rangesOverlap_false_iff validNew validHeld).mp apart with before | before
  · have negative := before.compare_neg validNew
    exact Or.inl ⟨by simp only [comparisonDirection]; rw [if_neg (by omega)], before⟩
  · have positive := (testRangeCompare_pos_iff new held).mpr (before.compare_neg validHeld)
    exact Or.inr ⟨by simp only [comparisonDirection]; rw [if_pos positive], before⟩

theorem overlap_of_before {new held other : TestRange} (validNew : testRangeValid new = true)
    (validOther : testRangeValid other = true) (first : new.Before held)
    (second : held.Before other) : rangesOverlap new other = false :=
  (rangesOverlap_false_iff validNew validOther).mpr (Or.inl (first.trans second))

theorem overlap_of_after {new held other : TestRange} (validNew : testRangeValid new = true)
    (validOther : testRangeValid other = true) (first : held.Before new)
    (second : other.Before held) : rangesOverlap new other = false :=
  (rangesOverlap_false_iff validNew validOther).mpr (Or.inr (second.trans first))

/-- The single path walked down decides overlap with the whole tree. -/
theorem insertCell_eq_none_iff (t : ColorTree Cell) (new : Cell) (ascending : Ascending (ranges t))
    (valid : testRangeValid new.range = true) :
    insertCell t new = none ↔ ∃ r ∈ ranges t, rangesOverlap new.range r = true := by
  induction t with
  | nil => simp [insertCell]
  | node color left cell right ihl ihr =>
      obtain ⟨ascLeft, validCell, ascRight, below, above⟩ := ascending_node ascending
      simp only [insertCell, ranges_node, List.mem_append, List.mem_cons]
      by_cases overlap : rangesOverlap new.range cell.range = true
      · simp only [overlap, if_true, true_iff]
        exact ⟨cell.range, Or.inr (Or.inl rfl), overlap⟩
      · have apart : rangesOverlap new.range cell.range = false := by simpa using overlap
        rw [if_neg overlap]
        rcases direction_of_apart valid validCell apart with ⟨way, before⟩ | ⟨way, before⟩
        · simp only [way, Option.map_eq_none_iff, ihl ascLeft]
          constructor
          · rintro ⟨r, inside, meets⟩
            exact ⟨r, Or.inl inside, meets⟩
          · rintro ⟨r, inside | rfl | inside, meets⟩
            · exact ⟨r, inside, meets⟩
            · exact absurd meets overlap
            · rw [overlap_of_before valid (ascRight.1 r inside) before (above r inside)] at meets
              cases meets
        · simp only [way, Option.map_eq_none_iff, ihr ascRight]
          constructor
          · rintro ⟨r, inside, meets⟩
            exact ⟨r, Or.inr (Or.inr inside), meets⟩
          · rintro ⟨r, inside | rfl | inside, meets⟩
            · rw [overlap_of_after valid (ascLeft.1 r inside) before (below r inside)] at meets
              cases meets
            · exact absurd meets overlap
            · exact ⟨r, inside, meets⟩

inductive InsertStep (color : Color) (left right : ColorTree Cell) (cell new : Cell) :
    ColorTree Cell → Prop where
  | left {grown : ColorTree Cell}
      (way : comparisonDirection (testRangeCompare new.range cell.range) = .left)
      (below : insertCell left new = some grown) :
      InsertStep color left right cell new
        ((ColorTree.node color grown cell right).insertFixUp .left)
  | right {grown : ColorTree Cell}
      (way : comparisonDirection (testRangeCompare new.range cell.range) = .right)
      (below : insertCell right new = some grown) :
      InsertStep color left right cell new
        ((ColorTree.node color left cell grown).insertFixUp .right)

theorem insertCell_step {color : Color} {left right next : ColorTree Cell} {cell new : Cell}
    (inserted : insertCell (.node color left cell right) new = some next) :
    rangesOverlap new.range cell.range = false ∧ InsertStep color left right cell new next := by
  rw [insertCell] at inserted
  split at inserted
  case isTrue => cases inserted
  case isFalse overlap =>
    refine ⟨by simpa using overlap, ?_⟩
    split at inserted
    case h_1 way =>
      obtain ⟨grown, below, rfl⟩ := Option.map_eq_some_iff.mp inserted
      exact .left way below
    case h_2 way =>
      obtain ⟨grown, below, rfl⟩ := Option.map_eq_some_iff.mp inserted
      exact .right way below

theorem insertCell_inorder (t next : ColorTree Cell) (new : Cell) (ascending : Ascending (ranges t))
    (valid : testRangeValid new.range = true) (inserted : insertCell t new = some next) :
    ∃ front back, t.inorder = front ++ back ∧ next.inorder = front ++ new :: back ∧
      (∀ cell ∈ front, cell.range.Before new.range) ∧
      ∀ cell ∈ back, new.range.Before cell.range := by
  induction t generalizing next with
  | nil =>
      cases inserted
      exact ⟨[], [], rfl, rfl, by simp, by simp⟩
  | node color left cell right ihl ihr =>
      obtain ⟨ascLeft, validCell, ascRight, below, above⟩ := ascending_node ascending
      obtain ⟨apart, step⟩ := insertCell_step inserted
      have direction := direction_of_apart valid validCell apart
      cases step with
      | left way result =>
          have before : new.range.Before cell.range := by simpa [way] using direction
          obtain ⟨front, back, whole, placed, first, last⟩ := ihl _ ascLeft result
          refine ⟨front, back ++ cell :: right.inorder, ?_, ?_, first, ?_⟩
          · simp [ColorTree.inorder, whole]
          · rw [ColorTree.inorder_insertFixUp]
            simp [ColorTree.inorder, placed]
          · intro other member
            simp only [List.mem_append, List.mem_cons] at member
            rcases member with member | rfl | member
            · exact last other member
            · exact before
            · exact before.trans (above _ (List.mem_map_of_mem member))
      | right way result =>
          have before : cell.range.Before new.range := by simpa [way] using direction
          obtain ⟨front, back, whole, placed, first, last⟩ := ihr _ ascRight result
          refine ⟨left.inorder ++ cell :: front, back, ?_, ?_, ?_, last⟩
          · simp [ColorTree.inorder, whole]
          · rw [ColorTree.inorder_insertFixUp]
            simp [ColorTree.inorder, placed]
          · intro other member
            simp only [List.mem_append, List.mem_cons] at member
            rcases member with member | rfl | member
            · exact (below _ (List.mem_map_of_mem member)).trans before
            · exact before
            · exact first other member

theorem insertCell_ascending (t next : ColorTree Cell) (new : Cell)
    (ascending : Ascending (ranges t))
    (valid : testRangeValid new.range = true) (inserted : insertCell t new = some next) :
    Ascending (ranges next) := by
  obtain ⟨front, back, whole, placed, first, last⟩ :=
    insertCell_inorder t next new ascending valid inserted
  rw [ranges, whole, List.map_append, Ascending.append] at ascending
  rw [ranges, placed, List.map_append, List.map_cons, Ascending.append, Ascending.cons]
  obtain ⟨ascFront, ascBack, across⟩ := ascending
  refine ⟨ascFront, ⟨valid, ascBack, ?_⟩, ?_⟩
  · intro r member
    obtain ⟨cell, inside, rfl⟩ := List.mem_map.mp member
    exact last cell inside
  · intro r member s memberS
    rcases List.mem_cons.mp memberS with rfl | memberS
    · obtain ⟨cell, inside, rfl⟩ := List.mem_map.mp member
      exact first cell inside
    · exact across r member s memberS

theorem insertCell_balanced (t next : ColorTree Cell) (new : Cell) {c : Color} {n : Nat}
    (balanced : Balanced t c n) (inserted : insertCell t new = some next) :
    AlmostBalanced c next n := by
  induction t generalizing next c n with
  | nil =>
      cases inserted
      obtain ⟨rfl, rfl⟩ := (ColorTree.balanced_nil c n).mp balanced
      exact Or.inl ⟨.red, .red new .nil .nil⟩
  | node color left cell right ihl ihr =>
      obtain rfl : color = c := balanced.color_eq
      obtain ⟨⟨cl, ml, hl⟩, cr, mr, hr⟩ := balanced.sides
      cases (insertCell_step inserted).2 with
      | left way result =>
          exact ColorTree.insertFixUp_almostBalanced .left color left right _ cell balanced hl
            (ihl _ hl result)
      | right way result =>
          exact ColorTree.insertFixUp_almostBalanced .right color right left _ cell balanced hr
            (ihr _ hr result)

end Drastic
