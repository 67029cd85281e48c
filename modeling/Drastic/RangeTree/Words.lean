import Drastic.RangeTree.Node

namespace Drastic

open Library.RedBlack (Direction Color)

/-! The colour bit and the left child share one word. -/

theorem and_nodePtrMask (word : U64) : word &&& nodePtrMask = nodeGet word := rfl

theorem nodeGet_idem (word : U64) : nodeGet (nodeGet word) = nodeGet word := by
  simp [nodeGet, BitVec.and_assoc]

theorem nodeGet_and_one (word : U64) : nodeGet word &&& 1#64 = 0#64 := by
  have apart : ~~~1#64 &&& 1#64 = 0#64 := by decide
  rw [nodeGet, BitVec.and_assoc, apart, BitVec.and_zero]

theorem nodeGet_or_color (word : U64) (color : RBColor) :
    nodeGet (nodeGet word ||| colorWord color) = nodeGet word := by
  have apart : colorWord color &&& ~~~1#64 = 0#64 := by cases color <;> decide
  calc
    nodeGet (nodeGet word ||| colorWord color) =
        nodeGet (nodeGet word) ||| (colorWord color &&& ~~~1#64) := by
      simp only [nodeGet, BitVec.and_or_distrib_right]
    _ = nodeGet word := by rw [apart, nodeGet_idem, BitVec.or_zero]

theorem wordColor_or_color (word : U64) (color : RBColor) :
    wordColor (nodeGet word ||| colorWord color) = color := by
  have bit : (nodeGet word ||| colorWord color) &&& 1#64 = colorWord color := by
    have kept : colorWord color &&& 1#64 = colorWord color := by cases color <;> decide
    rw [BitVec.and_or_distrib_right, nodeGet_and_one, kept, BitVec.zero_or]
  rw [wordColor, bit]
  cases color <;> decide

theorem nodeValid_iff (node : U64) :
    nodeValid node = true ↔ node ≠ 0#64 ∧ nodeGet node = node := by
  simp [nodeValid]

theorem nodeGet_of_valid {node : U64} (valid : nodeValid node = true) : nodeGet node = node :=
  ((nodeValid_iff node).mp valid).2

theorem colorOf_setColorWord (heap : Heap) (node other : U64) (color : RBColor) :
    colorOf (setColorWord heap node color) other =
      if other = node then color else colorOf heap other := by
  by_cases same : other = node
  · subst same
    simpa [colorOf, setColorWord, and_nodePtrMask] using
      wordColor_or_color ((heap other).children .left) color
  · simp [colorOf, setColorWord, same]

theorem childOf_setColorWord (heap : Heap) (node other : U64) (color : RBColor)
    (direction : RBDirection) :
    childOf (setColorWord heap node color) other direction = childOf heap other direction := by
  by_cases same : other = node
  · subst same
    cases direction with
    | left =>
        simpa [childOf, setColorWord, and_nodePtrMask] using
          nodeGet_or_color ((heap other).children .left) color
    | right => simp [childOf, setColorWord]
  · cases direction <;> simp [childOf, setColorWord, same]

theorem colorOf_setChildWord (heap : Heap) (node other child : U64) (direction : RBDirection)
    (valid : nodeValid child = true) :
    colorOf (setChildWord heap node direction child) other = colorOf heap other := by
  by_cases same : other = node
  · subst same
    cases direction with
    | left =>
        have tagged := wordColor_or_color child (colorOf heap other)
        rw [nodeGet_of_valid valid] at tagged
        simpa [colorOf, setChildWord] using tagged
    | right => simp [colorOf, setChildWord]
  · simp [colorOf, setChildWord, same]

theorem childOf_setChildWord (heap : Heap) (node other child : U64)
    (direction side : RBDirection) (valid : nodeValid child = true) :
    childOf (setChildWord heap node direction child) other side =
      if other = node ∧ side = direction then child else childOf heap other side := by
  by_cases same : other = node
  · subst same
    have tagged := nodeGet_or_color child (colorOf heap other)
    rw [nodeGet_of_valid valid] at tagged
    cases direction <;> cases side <;> simp [childOf, setChildWord, tagged]
  · cases side <;> simp [childOf, setChildWord, same]

theorem nodeGet_or_wordColor (word : U64) :
    nodeGet word ||| colorWord (wordColor word) = word := by
  have split : nodeGet word ||| (word &&& 1#64) = word := by
    have all : ~~~1#64 ||| 1#64 = BitVec.allOnes 64 := by decide
    rw [nodeGet, ← BitVec.and_or_distrib_left, all, BitVec.and_allOnes]
  have bit : colorWord (wordColor word) = word &&& 1#64 := by
    unfold wordColor
    split
    case isTrue zero =>
      rw [zero]
      rfl
    case isFalse nonzero =>
      have low : (word &&& 1#64).toNat < 2 := by
        rw [BitVec.toNat_and, BitVec.toNat_ofNat]
        exact Nat.lt_of_le_of_lt Nat.and_le_right (by decide)
      have positive : (word &&& 1#64).toNat ≠ 0 :=
        fun zero => nonzero (BitVec.eq_of_toNat_eq (by simpa using zero))
      apply BitVec.eq_of_toNat_eq
      change 1 = (word &&& 1#64).toNat
      omega
  rw [bit, split]

theorem setChildWord_self (heap : Heap) (node : U64) (direction : RBDirection) :
    setChildWord heap node direction (childOf heap node direction) = heap := by
  cases direction with
  | left =>
      simp only [setChildWord, childOf, colorOf, nodeGet_or_wordColor, Function.update_eq_self]
  | right => simp only [setChildWord, childOf, Function.update_eq_self]

theorem setColorWord_self (heap : Heap) (node : U64) :
    setColorWord heap node (colorOf heap node) = heap := by
  simp only [setColorWord, colorOf, and_nodePtrMask, nodeGet_or_wordColor,
    Function.update_eq_self]

@[simp] theorem setColorWord_range (heap : Heap) (node other : U64) (color : RBColor) :
    (setColorWord heap node color other).range = (heap other).range := by
  by_cases same : other = node <;> simp [setColorWord, same]

@[simp] theorem setColorWord_list (heap : Heap) (node other : U64) (color : RBColor) :
    (setColorWord heap node color other).list = (heap other).list := by
  by_cases same : other = node <;> simp [setColorWord, same]

@[simp] theorem setChildWord_range (heap : Heap) (node other child : U64)
    (direction : RBDirection) :
    (setChildWord heap node direction child other).range = (heap other).range := by
  by_cases same : other = node <;> simp [setChildWord, same]

@[simp] theorem setChildWord_list (heap : Heap) (node other child : U64)
    (direction : RBDirection) :
    (setChildWord heap node direction child other).list = (heap other).list := by
  by_cases same : other = node <;> simp [setChildWord, same]

theorem setColorWord_other (heap : Heap) (node other : U64) (color : RBColor)
    (different : other ≠ node) : setColorWord heap node color other = heap other := by
  simp [setColorWord, different]

theorem setChildWord_other (heap : Heap) (node other child : U64) (direction : RBDirection)
    (different : other ≠ node) : setChildWord heap node direction child other = heap other := by
  simp [setChildWord, different]

end Drastic
