import Mathlib.Data.List.Basic
import Mathlib.Data.Nat.Digits.Lemmas
import Mathlib.Tactic.Common

namespace Library.RedBlack

inductive Direction where
  | left
  | right
  deriving DecidableEq, Repr

def Direction.flip : Direction → Direction
  | .left => .right
  | .right => .left

@[simp] theorem Direction.flip_flip (d : Direction) : d.flip.flip = d := by cases d <;> rfl
@[simp] theorem Direction.flip_ne (d : Direction) : d.flip ≠ d := by cases d <;> decide
@[simp] theorem Direction.ne_flip (d : Direction) : d ≠ d.flip := by cases d <;> decide

theorem Direction.eq_or_flip (d e : Direction) : e = d ∨ e = d.flip := by
  cases d <;> cases e <;> decide

inductive Color where
  | black
  | red
  deriving DecidableEq, Repr

def Color.flip : Color → Color
  | .black => .red
  | .red => .black

inductive ColorTree (α : Type) where
  | nil
  | node (color : Color) (left : ColorTree α) (item : α) (right : ColorTree α)
  deriving DecidableEq, Repr

namespace ColorTree

variable {α : Type}

/-- A node described from one of its sides. Every repair step below is written
once in terms of a direction, so its cases are those of `mk`, not of `node`. -/
def mk (d : Direction) (color : Color) (near : ColorTree α) (item : α)
    (far : ColorTree α) : ColorTree α :=
  match d with
  | .left => node color near item far
  | .right => node color far item near

def child : ColorTree α → Direction → ColorTree α
  | nil, _ => nil
  | node _ left _ _, .left => left
  | node _ _ _ right, .right => right

def setChild : ColorTree α → Direction → ColorTree α → ColorTree α
  | nil, _, _ => nil
  | node color _ item right, .left, next => node color next item right
  | node color left item _, .right, next => node color left item next

def color : ColorTree α → Color
  | nil => .black
  | node color _ _ _ => color

def setColor : ColorTree α → Color → ColorTree α
  | nil, _ => nil
  | node _ left item right, next => node next left item right

def isNil : ColorTree α → Bool
  | nil => true
  | node _ _ _ _ => false

def isRed (t : ColorTree α) : Bool := t.color = .red

def inorder : ColorTree α → List α
  | nil => []
  | node _ left item right => left.inorder ++ item :: right.inorder

def size : ColorTree α → Nat
  | nil => 0
  | node _ left _ right => left.size + right.size + 1

def height : ColorTree α → Nat
  | nil => 0
  | node _ left _ right => max left.height right.height + 1

def NoRedRed : ColorTree α → Prop
  | nil => True
  | node color left _ right =>
      (color = .red → left.color = .black ∧ right.color = .black) ∧
        left.NoRedRed ∧ right.NoRedRed

def blackCounts : ColorTree α → List Nat
  | nil => [0]
  | node color left _ right =>
      (left.blackCounts ++ right.blackCounts).map
        (fun count => count + if color = .black then 1 else 0)

def rotate (t : ColorTree α) (d : Direction) : ColorTree α :=
  let pivot := t.child d.flip
  (pivot.setChild d ((t.setChild d.flip (pivot.child d)).setColor .red)).setColor t.color

def doubleRotate (t : ColorTree α) (d : Direction) : ColorTree α :=
  (t.setChild d.flip ((t.child d.flip).rotate d.flip)).rotate d

def colorFlip (t : ColorTree α) : ColorTree α :=
  let flipRoot (s : ColorTree α) : ColorTree α := s.setColor s.color.flip
  flipRoot ((t.setChild .left (flipRoot (t.child .left))).setChild .right
    (flipRoot (t.child .right)))

@[simp] theorem child_mk (d : Direction) (c : Color) (near far : ColorTree α) (a : α) :
    (mk d c near a far).child d = near := by cases d <;> rfl

@[simp] theorem child_flip_mk (d : Direction) (c : Color) (near far : ColorTree α) (a : α) :
    (mk d c near a far).child d.flip = far := by cases d <;> rfl

@[simp] theorem setChild_mk (d : Direction) (c : Color) (near far next : ColorTree α) (a : α) :
    (mk d c near a far).setChild d next = mk d c next a far := by cases d <;> rfl

@[simp] theorem setChild_flip_mk (d : Direction) (c : Color) (near far next : ColorTree α) (a : α) :
    (mk d c near a far).setChild d.flip next = mk d c near a next := by cases d <;> rfl

@[simp] theorem color_mk (d : Direction) (c : Color) (near far : ColorTree α) (a : α) :
    (mk d c near a far).color = c := by cases d <;> rfl

@[simp] theorem setColor_mk (d : Direction) (c next : Color) (near far : ColorTree α) (a : α) :
    (mk d c near a far).setColor next = mk d next near a far := by cases d <;> rfl

@[simp] theorem isNil_mk (d : Direction) (c : Color) (near far : ColorTree α) (a : α) :
    (mk d c near a far).isNil = false := by cases d <;> rfl

@[simp] theorem isRed_mk (d : Direction) (c : Color) (near far : ColorTree α) (a : α) :
    (mk d c near a far).isRed = decide (c = .red) := by simp [isRed]

@[simp] theorem isRed_nil : (nil : ColorTree α).isRed = false := rfl

@[simp] theorem mk_ne_nil (d : Direction) (c : Color) (near far : ColorTree α) (a : α) :
    mk d c near a far ≠ nil := by cases d <;> simp [mk]

theorem height_mk (d : Direction) (c : Color) (near far : ColorTree α) (a : α) :
    (mk d c near a far).height = max near.height far.height + 1 := by
  cases d with
  | left => rfl
  | right => rw [mk, height, Nat.max_comm]

theorem mk_flip (d : Direction) (c : Color) (near far : ColorTree α) (a : α) :
    mk d.flip c near a far = mk d c far a near := by cases d <;> rfl

theorem eq_nil_or_mk (d : Direction) (t : ColorTree α) :
    t = nil ∨ ∃ c near a far, t = mk d c near a far := by
  cases t with
  | nil => exact Or.inl rfl
  | node c left a right =>
      cases d with
      | left => exact Or.inr ⟨c, left, a, right, rfl⟩
      | right => exact Or.inr ⟨c, right, a, left, rfl⟩

theorem isNil_iff (t : ColorTree α) : t.isNil = true ↔ t = nil := by
  cases t <;> simp [isNil]

theorem ne_nil_of_isRed (t : ColorTree α) (red : t.isRed = true) : t ≠ nil := by
  rintro rfl
  simp at red

theorem rotate_mk (d : Direction) (c cp : Color) (x y z : ColorTree α) (a b : α) :
    (mk d c x a (mk d cp y b z)).rotate d = mk d c (mk d .red x a y) b z := by
  simp [rotate]

theorem doubleRotate_mk (d : Direction) (c cp cq : Color) (w x y z : ColorTree α) (a b q : α) :
    (mk d c w a (mk d cp (mk d cq x q y) b z)).doubleRotate d =
      mk d c (mk d .red w a x) q (mk d .red y b z) := by
  cases d <;> rfl

theorem colorFlip_mk (d : Direction) (c : Color) (near far : ColorTree α) (a : α) :
    (mk d c near a far).colorFlip =
      mk d c.flip (near.setColor near.color.flip) a (far.setColor far.color.flip) := by
  cases d <;> rfl

theorem inorder_setColor (t : ColorTree α) (c : Color) : (t.setColor c).inorder = t.inorder := by
  cases t <;> rfl

theorem inorder_mk_congr (d : Direction) (c e : Color) (near far near' far' : ColorTree α) (a : α)
    (left : near.inorder = near'.inorder) (right : far.inorder = far'.inorder) :
    (mk d c near a far).inorder = (mk d e near' a far').inorder := by
  cases d <;> simp [mk, inorder, left, right]

theorem inorder_setChild_congr (t next : ColorTree α) (d : Direction)
    (same : next.inorder = (t.child d).inorder) : (t.setChild d next).inorder = t.inorder := by
  cases t with
  | nil => rfl
  | node c left a right =>
      cases d <;> simp only [child] at same <;> simp only [setChild, inorder, same]

theorem inorder_rotate (t : ColorTree α) (d : Direction) (pivot : t.child d.flip ≠ nil) :
    (t.rotate d).inorder = t.inorder := by
  rcases eq_nil_or_mk d t with rfl | ⟨c, x, a, far, rfl⟩
  · simp [child] at pivot
  · rw [child_flip_mk] at pivot
    rcases eq_nil_or_mk d far with rfl | ⟨cp, y, b, z, rfl⟩
    · exact absurd rfl pivot
    · rw [rotate_mk]
      cases d <;> simp [mk, inorder]

theorem inorder_doubleRotate (t : ColorTree α) (d : Direction)
    (inner : (t.child d.flip).child d ≠ nil) : (t.doubleRotate d).inorder = t.inorder := by
  rcases eq_nil_or_mk d t with rfl | ⟨c, w, a, far, rfl⟩
  · simp [child] at inner
  · rw [child_flip_mk] at inner
    rcases eq_nil_or_mk d far with rfl | ⟨cp, near, b, z, rfl⟩
    · simp [child] at inner
    · rw [child_mk] at inner
      rcases eq_nil_or_mk d near with rfl | ⟨cq, x, q, y, rfl⟩
      · exact absurd rfl inner
      · rw [doubleRotate_mk]
        cases d <;> simp [mk, inorder]

theorem inorder_colorFlip (t : ColorTree α) : t.colorFlip.inorder = t.inorder := by
  rcases eq_nil_or_mk .left t with rfl | ⟨c, x, a, y, rfl⟩
  · rfl
  · rw [colorFlip_mk]
    exact inorder_mk_congr _ _ _ _ _ _ _ _ (inorder_setColor _ _) (inorder_setColor _ _)

theorem height_le_size (t : ColorTree α) : t.height ≤ t.size := by
  induction t with
  | nil => exact Nat.le_refl 0
  | node color left item right ihl ihr =>
      rw [height, size]
      omega

theorem size_eq_length_inorder (t : ColorTree α) : t.size = t.inorder.length := by
  induction t with
  | nil => rfl
  | node c left a right ihl ihr =>
      simp only [size, inorder, List.length_append, List.length_cons, ihl, ihr]
      omega

end ColorTree

end Library.RedBlack
