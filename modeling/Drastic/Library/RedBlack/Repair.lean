import Drastic.Library.RedBlack.Balance

namespace Library.RedBlack.ColorTree

variable {α : Type}

def insertFixUp (t : ColorTree α) (d : Direction) : ColorTree α :=
  let grown := t.child d
  if grown.isRed then
    if (t.child d.flip).isRed then
      if (grown.child d).isRed || (grown.child d.flip).isRed then t.colorFlip else t
    else if (grown.child d).isRed then t.rotate d.flip
    else if (grown.child d.flip).isRed then t.doubleRotate d.flip
    else t
  else t

/-- The black-sibling part of the deletion repair: side `d` of `t` is one black
level short. The flag says whether the black height of `t` is restored. -/
def deleteFixBlack (t : ColorTree α) (d : Direction) : Bool × ColorTree α :=
  let sibling := t.child d.flip
  if sibling.isNil then (false, t)
  else if !(sibling.child .left).isRed && !(sibling.child .right).isRed then
    (t.isRed, (t.setColor .black).setChild d.flip (sibling.setColor .red))
  else
    let turned :=
      if (sibling.child d.flip).isRed then t.rotate d else t.doubleRotate d
    let recolored := turned.setColor t.color
    (true, (recolored.setChild .left ((recolored.child .left).setColor .black)).setChild .right
      ((recolored.child .right).setColor .black))

/-- A red sibling is first rotated up, which gives the short side a black one. -/
def deleteFixUp (t : ColorTree α) (d : Direction) : Bool × ColorTree α :=
  if (t.child d.flip).isRed then
    let turned := t.rotate d
    let repaired := (turned.child d).deleteFixBlack d
    (repaired.1, turned.setChild d repaired.2)
  else t.deleteFixBlack d

/-- What an insertion may return for a subtree whose root had colour `c`: a
balanced tree, or, only below a red root, a red node with one red child. -/
def AlmostBalanced (c : Color) (t : ColorTree α) (n : Nat) : Prop :=
  (∃ root, Balanced t root n) ∨
    (c = .red ∧ ∃ d near a far, t = mk d .red near a far ∧
      Balanced near .red n ∧ Balanced far .black n)

theorem AlmostBalanced.of_black {t : ColorTree α} {n : Nat} (h : AlmostBalanced .black t n) :
    ∃ root, Balanced t root n := by
  rcases h with h | ⟨impossible, _⟩
  · exact h
  · cases impossible

theorem AlmostBalanced.setBlack {t : ColorTree α} {c : Color} {n : Nat} (h : AlmostBalanced c t n) :
    ∃ m, Balanced (t.setColor .black) .black m := by
  rcases h with ⟨root, h⟩ | ⟨_, d, near, a, far, rfl, hn, hf⟩
  · exact h.setBlack
  · rw [setColor_mk]
    exact ⟨_, mk_black_balanced d a hn hf⟩

theorem insertFixUp_black (d : Direction) (c : Color) (near far : ColorTree α) (a : α)
    (black : near.isRed = false) : (mk d c near a far).insertFixUp d = mk d c near a far := by
  simp [insertFixUp, black]

theorem insertFixUp_no_red (d : Direction) (c : Color) (near far : ColorTree α) (a : α)
    (first : (near.child d).isRed = false) (second : (near.child d.flip).isRed = false) :
    (mk d c near a far).insertFixUp d = mk d c near a far := by
  simp [insertFixUp, first, second]

theorem Balanced.insertFixUp_eq {near : ColorTree α} {root : Color} {n : Nat} (d : Direction)
    (c : Color) (far : ColorTree α) (a : α) (h : Balanced near root n) :
    (mk d c near a far).insertFixUp d = mk d c near a far := by
  cases root with
  | black => exact insertFixUp_black d c near far a (by simp [h.isRed_eq])
  | red =>
      obtain ⟨x, b, y, rfl, hx, hy⟩ := h.red_node d
      apply insertFixUp_no_red
      · simp [hx.isRed_eq]
      · simp [hy.isRed_eq]

/-- Black node, red far child: the red-red pair is pushed up by a colour flip. -/
theorem insertFixUp_flip (d e : Direction) (x y far : ColorTree α) (a b : α) {n : Nat}
    (hx : Balanced x .red n) (hy : Balanced y .black n) (hf : Balanced far .red n) :
    Balanced ((mk d .black (mk e .red x b y) a far).insertFixUp d) .red (n + 1) := by
  have redFar : far.isRed = true := by simp [hf.isRed_eq]
  have redNear : ((mk e .red x b y).child d).isRed = true ∨
      ((mk e .red x b y).child d.flip).isRed = true := by
    rcases Direction.eq_or_flip e d with rfl | rfl
    · exact Or.inl (by simp [hx.isRed_eq])
    · exact Or.inr (by simp [hx.isRed_eq])
  have shape : (mk d .black (mk e .red x b y) a far).insertFixUp d =
      (mk d .black (mk e .red x b y) a far).colorFlip := by
    rcases redNear with red | red <;> simp [insertFixUp, redFar, red]
  rw [shape, colorFlip_mk, setColor_mk, color_mk, hf.color_eq]
  exact mk_red_balanced d a (mk_black_balanced e b hx hy) hf.setBlack_of_red

/-- Black node, black far child: one or two rotations absorb the red-red pair. -/
theorem insertFixUp_rotate (d e : Direction) (x y far : ColorTree α) (a b : α) {n : Nat}
    (hx : Balanced x .red n) (hy : Balanced y .black n) (hf : Balanced far .black n) :
    Balanced ((mk d .black (mk e .red x b y) a far).insertFixUp d) .black (n + 1) := by
  have blackFar : far.isRed = false := by simp [hf.isRed_eq]
  rcases Direction.eq_or_flip e d with rfl | rfl
  · -- outer grandchild
    have shape : (mk d .black (mk d .red x b y) a far).insertFixUp d =
        mk d .black x b (mk d .red y a far) := by
      have turned := rotate_mk d.flip .black .red far y x a b
      rw [mk_flip, mk_flip, mk_flip, mk_flip] at turned
      simp [insertFixUp, blackFar, hx.isRed_eq, turned]
    rw [shape]
    exact mk_black_balanced d b hx (mk_red_balanced d a hy hf)
  · -- inner grandchild
    obtain ⟨p, q, r, rfl, hp, hr⟩ := hx.red_node e
    have shape : (mk e.flip .black (mk e .red (mk e .red p q r) b y) a far).insertFixUp e.flip =
        mk e .black (mk e .red far a p) q (mk e .red r b y) := by
      have turned := doubleRotate_mk e .black .red .red far p r y a b q
      rw [mk_flip]
      simp [insertFixUp, blackFar, hy.isRed_eq, turned]
    rw [shape]
    exact mk_black_balanced e q (mk_red_balanced e a hf hp) (mk_red_balanced e b hr hy)

/-- The insertion contract: replacing one side of a balanced node by what an
insertion there returns, and repairing, gives what an insertion may return. -/
theorem insertFixUp_almostBalanced (d : Direction) (c : Color) (near far next : ColorTree α) (a : α)
    {n m : Nat} {root : Color} (before : Balanced (mk d c near a far) c n)
    (side : Balanced near root m) (grown : AlmostBalanced root next m) :
    AlmostBalanced c ((mk d c next a far).insertFixUp d) n := by
  cases c with
  | red =>
      obtain ⟨_, hn, hf⟩ := (balanced_red ..).mp before
      obtain ⟨rfl, rfl⟩ := balanced_unique side hn
      obtain ⟨fresh, hnext⟩ := grown.of_black
      rw [hnext.insertFixUp_eq]
      cases fresh with
      | black => exact Or.inl ⟨_, mk_red_balanced d a hnext hf⟩
      | red => exact Or.inr ⟨rfl, d, next, a, far, rfl, hnext, hf⟩
  | black =>
      obtain ⟨_, k, rfl, ⟨cn, hn⟩, cf, hf⟩ := (balanced_black ..).mp before
      obtain ⟨rfl, rfl⟩ := balanced_unique side hn
      rcases grown with ⟨fresh, hnext⟩ | ⟨_, e, x, b, y, rfl, hx, hy⟩
      · rw [hnext.insertFixUp_eq]
        exact Or.inl ⟨_, mk_black_balanced d a hnext hf⟩
      · cases cf with
        | red => exact Or.inl ⟨_, insertFixUp_flip d e x y far a b hx hy hf⟩
        | black => exact Or.inl ⟨_, insertFixUp_rotate d e x y far a b hx hy hf⟩

theorem inorder_insertFixUp (t : ColorTree α) (d : Direction) :
    (t.insertFixUp d).inorder = t.inorder := by
  unfold insertFixUp
  dsimp only
  split
  case isFalse => rfl
  case isTrue grown =>
    have present := ne_nil_of_isRed _ grown
    split
    · split
      · exact inorder_colorFlip t
      · rfl
    · split
      · exact inorder_rotate t d.flip (by simpa using present)
      · split
        case isTrue inner =>
          exact inorder_doubleRotate t d.flip (by simpa using ne_nil_of_isRed _ inner)
        case isFalse => rfl

/-- What a deletion may return for a subtree whose root had colour `c` and whose
black height was `n`: either the height is kept, and a red root is not invented,
or the subtree was black and is now black-rooted and exactly one level shorter. -/
def DeleteBalanced (c : Color) (n : Nat) (result : Bool × ColorTree α) : Prop :=
  if result.1 then ∃ root, Balanced result.2 root n ∧ (root = .red → c = .red)
  else c = .black ∧ ∃ k, n = k + 1 ∧ Balanced result.2 .black k

theorem deleteBalanced_true (c : Color) (n : Nat) (t : ColorTree α) :
    DeleteBalanced c n (true, t) ↔ ∃ root, Balanced t root n ∧ (root = .red → c = .red) := by
  simp [DeleteBalanced]

theorem deleteBalanced_false (c : Color) (n : Nat) (t : ColorTree α) :
    DeleteBalanced c n (false, t) ↔ c = .black ∧ ∃ k, n = k + 1 ∧ Balanced t .black k := by
  simp [DeleteBalanced]

def levelAbove : Color → Nat → Nat
  | .black, m => m + 1
  | .red, m => m

theorem mk_balanced (d : Direction) (c : Color) {near far : ColorTree α} (a : α) {m : Nat}
    (hn : Balanced near .black m) (hf : Balanced far .black m) :
    Balanced (mk d c near a far) c (levelAbove c m) := by
  cases c with
  | black => exact mk_black_balanced d a hn hf
  | red => exact mk_red_balanced d a hn hf

theorem blacken_children (d : Direction) (c : Color) (near far : ColorTree α) (a : α) :
    ((mk d c near a far).setChild .left
        (((mk d c near a far).child .left).setColor .black)).setChild .right
          (((mk d c near a far).child .right).setColor .black) =
      mk d c (near.setColor .black) a (far.setColor .black) := by
  cases d <;> rfl

theorem no_red_nephew (d : Direction) (c : Color) (near far : ColorTree α) (a : α) :
    (!((mk d c near a far).child .left).isRed && !((mk d c near a far).child .right).isRed) =
      (!near.isRed && !far.isRed) := by
  cases d
  · rfl
  · exact Bool.and_comm _ _

theorem deleteFixBlack_mk (d : Direction) (c cs : Color) (x y z : ColorTree α) (a b : α) :
    (mk d c x a (mk d cs y b z)).deleteFixBlack d =
      if !y.isRed && !z.isRed then
        (decide (c = .red), mk d .black x a (mk d .red y b z))
      else
        let turned := if z.isRed then mk d c (mk d .red x a y) b z
          else (mk d c x a (mk d cs y b z)).doubleRotate d
        let recolored := turned.setColor c
        (true, (recolored.setChild .left ((recolored.child .left).setColor .black)).setChild
          .right ((recolored.child .right).setColor .black)) := by
  simp only [deleteFixBlack, child_flip_mk, isNil_mk, no_red_nephew, isRed_mk, setColor_mk,
    setChild_flip_mk, color_mk, rotate_mk, Bool.false_eq_true, if_false]

/-- Far nephew red: one rotation restores the height. -/
theorem deleteFixBlack_outer (d : Direction) (c : Color) (x y z : ColorTree α) (a b : α)
    (red : z.isRed = true) :
    (mk d c x a (mk d .black y b z)).deleteFixBlack d =
      (true, mk d c (mk d .black x a y) b (z.setColor .black)) := by
  rw [deleteFixBlack_mk]
  simp only [red, Bool.not_true, Bool.and_false, Bool.false_eq_true, if_false, if_true,
    setColor_mk, blacken_children]

/-- Near nephew red, far nephew black: a double rotation restores the height. -/
theorem deleteFixBlack_inner (d : Direction) (c : Color) (x p r z : ColorTree α) (a b q : α)
    (black : z.isRed = false) :
    (mk d c x a (mk d .black (mk d .red p q r) b z)).deleteFixBlack d =
      (true, mk d c (mk d .black x a p) q (mk d .black r b z)) := by
  rw [deleteFixBlack_mk]
  simp only [black, isRed_mk, decide_true, Bool.not_true, Bool.false_and, Bool.false_eq_true,
    if_false, doubleRotate_mk, setColor_mk, blacken_children]

theorem deleteFixBlack_balanced (d : Direction) (c : Color) (x s : ColorTree α) (a : α) {m : Nat}
    (short : Balanced x .black m) (sibling : Balanced s .black (m + 1)) :
    DeleteBalanced c (levelAbove c (m + 1)) ((mk d c x a s).deleteFixBlack d) := by
  obtain ⟨y, b, z, rfl, ⟨cy, hy⟩, cz, hz⟩ := sibling.black_node d
  cases cz with
  | red =>
      rw [deleteFixBlack_outer d c x y z a b (by simp [hz.isRed_eq]), deleteBalanced_true]
      exact ⟨c, mk_balanced d c b (mk_black_balanced d a short hy) hz.setBlack_of_red, id⟩
  | black =>
      have blackFar : z.isRed = false := by simp [hz.isRed_eq]
      cases cy with
      | red =>
          obtain ⟨p, q, r, rfl, hp, hr⟩ := hy.red_node d
          rw [deleteFixBlack_inner d c x p r z a b q blackFar, deleteBalanced_true]
          exact ⟨c, mk_balanced d c q (mk_black_balanced d a short hp)
            (mk_black_balanced d b hr hz), id⟩
      | black =>
          -- no red nephew: the sibling gives up its level too
          have shape : (mk d c x a (mk d .black y b z)).deleteFixBlack d =
              (decide (c = .red), mk d .black x a (mk d .red y b z)) := by
            rw [deleteFixBlack_mk]
            simp [hy.isRed_eq, blackFar]
          have level : Balanced (mk d .black x a (mk d .red y b z)) .black (m + 1) :=
            mk_black_balanced d a short (mk_red_balanced d b hy hz)
          rw [shape]
          cases c with
          | red => exact (deleteBalanced_true ..).mpr ⟨_, level, by simp⟩
          | black => exact (deleteBalanced_false ..).mpr ⟨rfl, m + 1, rfl, level⟩

/-- The deletion contract: a balanced node one of whose sides has lost one black
level, repaired at that side, is what a deletion may return for the node. -/
theorem deleteFixUp_balanced (d : Direction) (c : Color) (near far next : ColorTree α) (a : α)
    {n k : Nat} {root : Color} (before : Balanced (mk d c near a far) c n)
    (side : Balanced near root (k + 1)) (short : Balanced next .black k) :
    DeleteBalanced c n ((mk d c next a far).deleteFixUp d) := by
  cases c with
  | red =>
      obtain ⟨_, hn, hf⟩ := (balanced_red ..).mp before
      obtain ⟨_, rfl⟩ := balanced_unique side hn
      have direct : (mk d .red next a far).deleteFixUp d =
          (mk d .red next a far).deleteFixBlack d := by
        simp [deleteFixUp, hf.isRed_eq]
      rw [direct]
      exact deleteFixBlack_balanced d .red next far a short hf
  | black =>
      obtain ⟨_, m, rfl, ⟨cn, hn⟩, cf, hf⟩ := (balanced_black ..).mp before
      obtain ⟨_, rfl⟩ := balanced_unique side hn
      cases cf with
      | black =>
          have direct : (mk d .black next a far).deleteFixUp d =
              (mk d .black next a far).deleteFixBlack d := by
            simp [deleteFixUp, hf.isRed_eq]
          rw [direct]
          exact deleteFixBlack_balanced d .black next far a short hf
      | red =>
          -- red sibling: after the rotation the short side sits below a red parent
          obtain ⟨y, b, z, rfl, hy, hz⟩ := hf.red_node d
          have lower := deleteFixBlack_balanced d .red next y a short hy
          have reduced : (mk d .black next a (mk d .red y b z)).deleteFixUp d =
              (((mk d .red next a y).deleteFixBlack d).1,
                mk d .black ((mk d .red next a y).deleteFixBlack d).2 b z) := by
            simp [deleteFixUp, rotate_mk]
          rw [reduced]
          generalize (mk d .red next a y).deleteFixBlack d = repaired at lower
          obtain ⟨kept, t⟩ := repaired
          cases kept with
          | false => cases ((deleteBalanced_false ..).mp lower).1
          | true =>
              obtain ⟨fresh, ht, _⟩ := (deleteBalanced_true ..).mp lower
              exact (deleteBalanced_true ..).mpr ⟨_, mk_black_balanced d b ht hz, by simp⟩

theorem inorder_blacken (t : ColorTree α) :
    ((t.setChild .left ((t.child .left).setColor .black)).setChild .right
      ((t.child .right).setColor .black)).inorder = t.inorder := by
  cases t <;> simp [setChild, child, inorder, inorder_setColor]

theorem inorder_deleteFixBlack (t : ColorTree α) (d : Direction) :
    (t.deleteFixBlack d).2.inorder = t.inorder := by
  unfold deleteFixBlack
  dsimp only
  split
  case isTrue => rfl
  case isFalse present =>
    have sibling : t.child d.flip ≠ nil := fun absent => present (by simp [absent, isNil])
    split
    case isTrue =>
      rw [inorder_setChild_congr, inorder_setColor]
      rw [inorder_setColor]
      cases t <;> cases d <;> rfl
    case isFalse nephew =>
      rw [inorder_blacken, inorder_setColor]
      split
      case isTrue => exact inorder_rotate t d sibling
      case isFalse outer =>
        apply inorder_doubleRotate t d
        intro inner
        apply nephew
        cases d <;> simp_all [Direction.flip]

theorem inorder_deleteFixUp (t : ColorTree α) (d : Direction) :
    (t.deleteFixUp d).2.inorder = t.inorder := by
  unfold deleteFixUp
  split
  case isFalse => exact inorder_deleteFixBlack t d
  case isTrue red =>
    dsimp only
    rw [inorder_setChild_congr _ _ _ (inorder_deleteFixBlack _ _)]
    exact inorder_rotate t d (ne_nil_of_isRed _ red)

end Library.RedBlack.ColorTree
