import Drastic.Library.RedBlack.Repair
import Drastic.RangeTree.Operations
import Drastic.RangeTree.Represents

namespace Drastic

open Library.RedBlack (Direction Color ColorTree)
open Library.RedBlack.ColorTree (mk eq_nil_or_mk mk_flip rotate_mk doubleRotate_mk colorFlip_mk)

variable {L : Layout} {heap now : Heap}

/-! Tagged-pointer surgery computes the operations of the abstract coloured tree. -/

theorem represents_setColor (t : ColorTree Cell) (color : RBColor) (rep : Represents L heap t)
    (distinct : (addresses t).Nodup) :
    Represents L (setColorWord heap (rootAddress L t) color) (t.setColor color) := by
  cases t with
  | nil => trivial
  | node c left cell right =>
      obtain ⟨outLeft, outRight, _⟩ := (nodup_addresses_mk .left c left right cell).mp distinct
      obtain ⟨⟨node, range, _, near, far⟩, repLeft, repRight⟩ := rep
      simp only [rootAddress]
      have frame := reshaped_setColorWord heap cell.address color
      refine ⟨⟨node, ?_, ?_, ?_, ?_⟩, represents_congr left ?_ repLeft,
        represents_congr right ?_ repRight⟩
      · rw [setColorWord_range, range]
      · rw [colorOf_setColorWord, if_pos rfl]
      · rw [childOf_setColorWord, near]
      · rw [childOf_setColorWord, far]
      · intro q inside
        exact frame.same q (by rintro member; simp at member; exact outLeft (member ▸ inside))
      · intro q inside
        exact frame.same q (by rintro member; simp at member; exact outRight (member ▸ inside))

/-- A subtree may be changed in place under an untouched parent, as long as its
root keeps its address. -/
theorem represents_inPlace (d : Direction) (c : Color) (near near' far : ColorTree Cell)
    (cell : Cell)
    (rep : Represents L heap (mk d c near cell far))
    (distinct : (addresses (mk d c near cell far)).Nodup)
    (kept : ∀ q ∈ addresses (mk d c near cell far), q ∉ addresses near → SameNode heap now q)
    (repNear : Represents L now near') (root : rootAddress L near' = rootAddress L near) :
    Represents L now (mk d c near' cell far) := by
  obtain ⟨outNear, outFar, _, _, apart⟩ := (nodup_addresses_mk ..).mp distinct
  obtain ⟨⟨node, range, color, nearWord, farWord⟩, _, repFar⟩ := (represents_mk ..).mp rep
  have here := kept cell.address ((mem_addresses_mk ..).mpr (Or.inl rfl)) outNear
  refine (represents_mk ..).mpr ⟨⟨node, here.1.trans range, here.color.trans color, ?_,
    (here.child _).trans farWord⟩, repNear, represents_congr far ?_ repFar⟩
  · rw [root]
    exact (here.child _).trans nearWord
  · intro q inside
    exact kept q ((mem_addresses_mk ..).mpr (Or.inr (Or.inr inside)))
      (fun near => apart near inside)

theorem rootAddress_setColor (t : ColorTree Cell) (c : Color) :
    rootAddress L (t.setColor c) = rootAddress L t := by cases t <;> rfl

theorem reshaped_setColor (t : ColorTree Cell) (nonempty : t ≠ .nil) (color : RBColor) :
    Reshaped heap (setColorWord heap (rootAddress L t) color) (addresses t) :=
  (reshaped_setColorWord heap (rootAddress L t) color).mono
    (by simpa using rootAddress_mem t nonempty)

theorem represents_paintChild (d : Direction) (c : Color) (near far : ColorTree Cell) (cell : Cell)
    (color : RBColor) (rep : Represents L heap (mk d c near cell far))
    (distinct : (addresses (mk d c near cell far)).Nodup) (present : near ≠ .nil) :
    Represents L (setColorWord heap (rootAddress L near) color)
      (mk d c (near.setColor color) cell far) := by
  have repNear := ((represents_mk ..).mp rep).2.1
  have distinctNear := ((nodup_addresses_mk ..).mp distinct).2.2.1
  have frame : Reshaped heap (setColorWord heap (rootAddress L near) color) (addresses near) :=
    reshaped_setColor near present color
  exact represents_inPlace d c near _ far cell rep distinct
    (fun q _ outside => frame.same q outside)
    (represents_setColor near color repNear distinctNear) (rootAddress_setColor near color)

theorem nodeSetChild_refines (now : Heap) (t fresh : ColorTree Cell) (d : Direction)
    (rep : Represents L heap t)
    (nonempty : t ≠ .nil) (distinct : (addresses t).Nodup)
    (kept : ∀ q ∈ addresses t, q ∉ addresses (t.child d) → SameNode heap now q)
    (repFresh : Represents L now fresh) (apart : rootAddress L t ∉ addresses fresh) :
    nodeSetChild L now (rootAddress L t) d (rootAddress L fresh) =
        .ok (setChildWord now (rootAddress L t) d (rootAddress L fresh)) ∧
      Represents L (setChildWord now (rootAddress L t) d (rootAddress L fresh))
        (t.setChild d fresh) := by
  refine ⟨(rootAddress_isNode t rep nonempty).nodeSetChild d (rootAddress_valid fresh repFresh), ?_⟩
  rcases eq_nil_or_mk d t with rfl | ⟨c, near, cell, far, rfl⟩
  · exact absurd rfl nonempty
  · rw [rootAddress_mk] at apart ⊢
    rw [ColorTree.setChild_mk]
    rw [ColorTree.child_mk] at kept
    obtain ⟨outNear, outFar, _, _, disjoint⟩ := (nodup_addresses_mk ..).mp distinct
    obtain ⟨⟨node, range, color, _, farWord⟩, _, repFar⟩ := (represents_mk ..).mp rep
    have here := kept cell.address ((mem_addresses_mk ..).mpr (Or.inl rfl)) outNear
    have valid := rootAddress_valid fresh repFresh
    have frame := reshaped_setChildWord now cell.address (rootAddress L fresh) d
    refine (represents_mk ..).mpr ⟨⟨node, ?_, ?_, ?_, ?_⟩, represents_congr fresh ?_ repFresh,
      represents_congr far ?_ repFar⟩
    · rw [setChildWord_range, here.1, range]
    · rw [colorOf_setChildWord _ _ _ _ _ valid, here.color, color]
    · rw [childOf_setChildWord _ _ _ _ _ _ valid, if_pos ⟨rfl, rfl⟩]
    · rw [childOf_setChildWord _ _ _ _ _ _ valid, if_neg (by simp), here.child, farWord]
    · intro q inside
      exact frame.same q (by rintro member; simp at member; exact apart (member ▸ inside))
    · intro q inside
      have other : q ∉ [cell.address] := by
        rintro member
        simp at member
        exact outFar (member ▸ inside)
      exact (kept q ((mem_addresses_mk ..).mpr (Or.inr (Or.inr inside)))
        (fun near => disjoint near inside)).trans (frame.same q other)

private theorem nodup_rotated (d : Direction) (c cp : Color) (x y z : ColorTree Cell) (a b : Cell)
    (distinct : (addresses (mk d c x a (mk d cp y b z))).Nodup) :
    (addresses (mk d cp (mk d c x a y) b z)).Nodup := by
  have same : addresses (mk d cp (mk d c x a y) b z) =
      addresses (mk d c x a (mk d cp y b z)) := by
    cases d <;> simp [addresses, mk, ColorTree.inorder]
  rw [same]
  exact distinct

private theorem rotate_relinked (d : Direction) (c cp : Color) (x y z : ColorTree Cell)
    (a b : Cell) (rep : Represents L heap (mk d c x a (mk d cp y b z)))
    (distinct : (addresses (mk d c x a (mk d cp y b z))).Nodup) :
    ∃ first last, nodeSetChild L heap a.address d.flip (rootAddress L y) = .ok first ∧
      nodeSetChild L first b.address d a.address = .ok last ∧
      Represents L last (mk d cp (mk d c x a y) b z) ∧
      Reshaped heap last [a.address, b.address] := by
  obtain ⟨_, aOutPivot, _, distinctPivot, _⟩ := (nodup_addresses_mk ..).mp distinct
  have repPivot := ((represents_mk ..).mp rep).2.2
  simp only [mem_addresses_mk, not_or] at aOutPivot
  have bOutNear := ((nodup_addresses_mk ..).mp (nodup_rotated d c cp x y z a b distinct)).1
  -- node->flip := temp->direction
  obtain ⟨write₁, rep₁⟩ := nodeSetChild_refines heap _ y d.flip rep (by simp) distinct
    (fun q _ _ => ⟨rfl, rfl⟩) ((represents_mk ..).mp repPivot).2.1
    (by rw [rootAddress_mk]; exact aOutPivot.2.1)
  rw [rootAddress_mk] at write₁ rep₁
  rw [ColorTree.setChild_flip_mk] at rep₁
  have frame₁ := reshaped_setChildWord heap a.address (rootAddress L y) d.flip
  generalize setChildWord heap a.address d.flip (rootAddress L y) = heap₁ at write₁ rep₁ frame₁
  -- temp->direction := node
  obtain ⟨write₂, rep₂⟩ := nodeSetChild_refines heap₁ _ (mk d c x a y) d repPivot (by simp)
    distinctPivot (fun q inside _ => frame₁.same q (by
      rintro member
      simp only [List.mem_singleton] at member
      subst member
      simp only [mem_addresses_mk] at inside
      exact absurd inside (not_or.mpr ⟨aOutPivot.1, not_or.mpr aOutPivot.2⟩))) rep₁
    (by rw [rootAddress_mk]; exact bOutNear)
  rw [rootAddress_mk, rootAddress_mk] at write₂ rep₂
  rw [ColorTree.setChild_mk] at rep₂
  have frame₂ := reshaped_setChildWord heap₁ b.address a.address d
  refine ⟨heap₁, _, write₁, write₂, rep₂, (frame₁.mono ?_).trans (frame₂.mono ?_)⟩
  · simp
  · simp

private theorem rotate_repainted (d : Direction) (c cp : Color) (x y z : ColorTree Cell)
    (a b : Cell) (rep : Represents L heap (mk d cp (mk d c x a y) b z))
    (distinct : (addresses (mk d cp (mk d c x a y) b z)).Nodup) :
    Represents L (setColorWord (setColorWord heap b.address c) a.address .red)
        (mk d c (mk d .red x a y) b z) ∧
      Reshaped heap (setColorWord (setColorWord heap b.address c) a.address .red)
        [a.address, b.address] := by
  have repTop := represents_setColor _ c rep distinct
  rw [rootAddress_mk, ColorTree.setColor_mk] at repTop
  have distinctTop : (addresses (mk d c (mk d c x a y) b z)).Nodup := by
    rw [addresses_of_inorder (ColorTree.inorder_mk_congr d c cp _ z _ z b rfl rfl)]
    exact distinct
  have repNear := represents_paintChild d c (mk d c x a y) z b .red repTop distinctTop (by simp)
  rw [rootAddress_mk, ColorTree.setColor_mk] at repNear
  have frameTop := reshaped_setColorWord heap b.address c
  have frameNear := reshaped_setColorWord (setColorWord heap b.address c) a.address .red
  refine ⟨repNear, (frameTop.mono ?_).trans (frameNear.mono ?_)⟩
  · simp
  · simp

private theorem nodeRotate_mk (d : Direction) (c cp : Color) (x y z : ColorTree Cell) (a b : Cell)
    (rep : Represents L heap (mk d c x a (mk d cp y b z)))
    (distinct : (addresses (mk d c x a (mk d cp y b z))).Nodup) :
    ∃ last, nodeRotate L heap a.address d = .ok (b.address, last) ∧
      Represents L last (mk d c (mk d .red x a y) b z) ∧
      Reshaped heap last [a.address, b.address] := by
  obtain ⟨first, middle, write₁, write₂, repMiddle, relinked⟩ :=
    rotate_relinked d c cp x y z a b rep distinct
  -- temp takes the colour of node, node turns red
  obtain ⟨repLast, repainted⟩ := rotate_repainted d c cp x y z a b repMiddle
    (nodup_rotated d c cp x y z a b distinct)
  refine ⟨_, ?_, repLast, relinked.trans repainted⟩
  have repPivot := ((represents_mk ..).mp rep).2.2
  have nodeA : IsNode L a.address := ((represents_mk ..).mp rep).1.1
  have nodeB : IsNode L b.address := ((represents_mk ..).mp repPivot).1.1
  have getPivot := rep.nodeGetChild (by simp) d.flip
  have getY := repPivot.nodeGetChild (by simp) d
  rw [rootAddress_mk] at getPivot getY
  rw [ColorTree.child_flip_mk, rootAddress_mk] at getPivot
  rw [ColorTree.child_mk] at getY
  have color : colorOf middle a.address = c := by
    have near := represents_child _ d repMiddle
    rw [ColorTree.child_mk] at near
    exact ((represents_mk ..).mp near).1.2.2.1
  simp [nodeRotate, rbDirectionFlip, nodeA.assertNotNil, getPivot, nodeB.nodeIsNil, getY,
    write₁, write₂, nodeA.nodeGetColor, color, nodeB.nodeSetColor, nodeA.nodeSetColor, nodeB.1]

/-- What every shape-changing step of the tree code guarantees: it returns the
root of the abstract result, spelled out by the new heap, and only touches nodes
of the tree it was given. -/
def Refines (L : Layout) (heap : Heap) (before after : ColorTree Cell)
    (result : Exec (U64 × Heap)) :
    Prop :=
  ∃ last, result = .ok (rootAddress L after, last) ∧ Represents L last after ∧
    Reshaped heap last (addresses before)

theorem nodeRotate_touches (t : ColorTree Cell) (d : Direction) (rep : Represents L heap t)
    (distinct : (addresses t).Nodup) (pivot : t.child d.flip ≠ .nil) :
    ∃ last, nodeRotate L heap (rootAddress L t) d = .ok (rootAddress L (t.rotate d), last) ∧
      Represents L last (t.rotate d) ∧
      Reshaped heap last [rootAddress L t, rootAddress L (t.child d.flip)] := by
  rcases eq_nil_or_mk d t with rfl | ⟨c, x, a, far, rfl⟩
  · simp [ColorTree.child] at pivot
  · rw [ColorTree.child_flip_mk] at pivot ⊢
    rcases eq_nil_or_mk d far with rfl | ⟨cp, y, b, z, rfl⟩
    · exact absurd rfl pivot
    · rw [rotate_mk, rootAddress_mk, rootAddress_mk, rootAddress_mk]
      exact nodeRotate_mk d c cp x y z a b rep distinct

theorem child_root_mem (t : ColorTree Cell) (d : Direction) (present : t.child d ≠ .nil) :
    rootAddress L (t.child d) ∈ addresses t := by
  rcases eq_nil_or_mk d t with rfl | ⟨c, near, cell, far, rfl⟩
  · cases d <;> exact absurd rfl present
  · rw [ColorTree.child_mk] at present ⊢
    exact (mem_addresses_mk ..).mpr (Or.inr (Or.inl (rootAddress_mem near present)))

theorem ne_nil_of_child (t : ColorTree Cell) (d : Direction) (present : t.child d ≠ .nil) :
    t ≠ .nil := by
  rintro rfl
  cases d <;> exact present rfl

theorem rotated_mem (t : ColorTree Cell) (d : Direction) (pivot : t.child d.flip ≠ .nil) :
    ∀ q ∈ [rootAddress L t, rootAddress L (t.child d.flip)], q ∈ addresses t := by
  intro q member
  simp only [List.mem_cons, List.not_mem_nil, or_false] at member
  cases member with
  | inl isRoot => exact isRoot ▸ rootAddress_mem t (ne_nil_of_child t d.flip pivot)
  | inr isPivot => exact isPivot ▸ child_root_mem t d.flip pivot

theorem nodeRotate_refines (t : ColorTree Cell) (d : Direction) (rep : Represents L heap t)
    (distinct : (addresses t).Nodup) (pivot : t.child d.flip ≠ .nil) :
    Refines L heap t (t.rotate d) (nodeRotate L heap (rootAddress L t) d) := by
  obtain ⟨last, completed, repLast, frame⟩ := nodeRotate_touches t d rep distinct pivot
  exact ⟨last, completed, repLast, frame.mono (rotated_mem t d pivot)⟩

theorem rotate_mem (t : ColorTree Cell) (d : Direction) (pivot : t.child d.flip ≠ .nil) :
    addresses (t.rotate d) = addresses t :=
  addresses_of_inorder (ColorTree.inorder_rotate t d pivot)

theorem setChild_same_addresses (t fresh : ColorTree Cell) (d : Direction)
    (same : fresh.inorder = (t.child d).inorder) :
    addresses (t.setChild d fresh) = addresses t :=
  addresses_of_inorder (ColorTree.inorder_setChild_congr t fresh d same)

theorem child_addresses (t : ColorTree Cell) (d : Direction) :
    ∀ q ∈ addresses (t.child d), q ∈ addresses t := by
  rcases eq_nil_or_mk d t with rfl | ⟨c, near, cell, far, rfl⟩
  · simp [ColorTree.child]
  · rw [ColorTree.child_mk]
    exact fun q inside => (mem_addresses_mk ..).mpr (Or.inr (Or.inl inside))

theorem child_nodup (t : ColorTree Cell) (d : Direction) (distinct : (addresses t).Nodup) :
    (addresses (t.child d)).Nodup := by
  rcases eq_nil_or_mk d t with rfl | ⟨c, near, cell, far, rfl⟩
  · simp [ColorTree.child]
  · rw [ColorTree.child_mk]
    exact ((nodup_addresses_mk ..).mp distinct).2.2.1

theorem root_not_below (t : ColorTree Cell) (d : Direction) (nonempty : t ≠ .nil)
    (distinct : (addresses t).Nodup) : rootAddress L t ∉ addresses (t.child d) := by
  rcases eq_nil_or_mk d t with rfl | ⟨c, near, cell, far, rfl⟩
  · exact absurd rfl nonempty
  · rw [rootAddress_mk, ColorTree.child_mk]
    exact ((nodup_addresses_mk ..).mp distinct).1

theorem rootAddress_rotate (t : ColorTree Cell) (d : Direction) (pivot : t.child d.flip ≠ .nil) :
    rootAddress L (t.rotate d) = rootAddress L (t.child d.flip) := by
  rcases eq_nil_or_mk d t with rfl | ⟨c, x, a, far, rfl⟩
  · cases d <;> exact absurd rfl pivot
  · rw [ColorTree.child_flip_mk] at pivot ⊢
    rcases eq_nil_or_mk d far with rfl | ⟨cp, y, b, z, rfl⟩
    · exact absurd rfl pivot
    · rw [rotate_mk, rootAddress_mk, rootAddress_mk]

theorem child_setChild (t fresh : ColorTree Cell) (d : Direction) (nonempty : t ≠ .nil) :
    (t.setChild d fresh).child d = fresh := by
  rcases eq_nil_or_mk d t with rfl | ⟨c, near, cell, far, rfl⟩
  · exact absurd rfl nonempty
  · rw [ColorTree.setChild_mk, ColorTree.child_mk]

theorem rotate_ne_nil (t : ColorTree Cell) (d : Direction) (pivot : t.child d.flip ≠ .nil) :
    t.rotate d ≠ .nil := by
  intro empty
  have cells := ColorTree.inorder_rotate t d pivot
  rw [empty] at cells
  cases t with
  | nil => exact ne_nil_of_child _ d.flip pivot rfl
  | node => simp [ColorTree.inorder] at cells

private theorem doubleRotate_lower (t : ColorTree Cell) (d : Direction) (rep : Represents L heap t)
    (distinct : (addresses t).Nodup) (inner : (t.child d.flip).child d ≠ .nil) :
    ∃ first last,
      nodeRotate L heap (rootAddress L (t.child d.flip)) d.flip =
        .ok (rootAddress L ((t.child d.flip).rotate d.flip), first) ∧
      nodeSetChild L first (rootAddress L t) d.flip
        (rootAddress L ((t.child d.flip).rotate d.flip)) = .ok last ∧
      Represents L last (t.setChild d.flip ((t.child d.flip).rotate d.flip)) ∧
      addresses (t.setChild d.flip ((t.child d.flip).rotate d.flip)) = addresses t ∧
      Reshaped heap last [rootAddress L t, rootAddress L (t.child d.flip),
        rootAddress L ((t.child d.flip).child d)] := by
  have nonempty := ne_nil_of_child t d.flip (ne_nil_of_child _ d inner)
  have innerFlip : (t.child d.flip).child d.flip.flip ≠ .nil := by
    rw [Direction.flip_flip]
    exact inner
  obtain ⟨first, turn, repFirst, frame⟩ := nodeRotate_touches (t.child d.flip) d.flip
    (represents_child t d.flip rep) (child_nodup t d.flip distinct) innerFlip
  have turnedCells := ColorTree.inorder_rotate (t.child d.flip) d.flip innerFlip
  have within := rotated_mem (L := L) (t.child d.flip) d.flip innerFlip
  rw [Direction.flip_flip] at frame within
  have kept (q : U64) (_ : q ∈ addresses t) (outside : q ∉ addresses (t.child d.flip)) :
      SameNode heap first q := frame.same q (fun member => outside (within q member))
  obtain ⟨write, repLast⟩ := nodeSetChild_refines first t _ d.flip rep nonempty distinct kept
    repFirst (by
      rw [addresses_of_inorder turnedCells]
      exact root_not_below t d.flip nonempty distinct)
  have relinked := reshaped_setChildWord first (rootAddress L t)
    (rootAddress L ((t.child d.flip).rotate d.flip)) d.flip
  refine ⟨first, _, turn, write, repLast, setChild_same_addresses t _ d.flip turnedCells,
    (frame.mono ?_).trans (relinked.mono ?_)⟩
  · simp
  · simp

theorem nodeDoubleRotate_touches (t : ColorTree Cell) (d : Direction) (rep : Represents L heap t)
    (distinct : (addresses t).Nodup) (inner : (t.child d.flip).child d ≠ .nil) :
    ∃ last, nodeDoubleRotate L heap (rootAddress L t) d =
        .ok (rootAddress L (t.doubleRotate d), last) ∧
      Represents L last (t.doubleRotate d) ∧
      Reshaped heap last [rootAddress L t, rootAddress L (t.child d.flip),
        rootAddress L ((t.child d.flip).child d)] := by
  have pivot := ne_nil_of_child _ d inner
  have nonempty := ne_nil_of_child t d.flip pivot
  have innerFlip : (t.child d.flip).child d.flip.flip ≠ .nil := by
    rw [Direction.flip_flip]
    exact inner
  obtain ⟨first, middle, turn₁, write, repMiddle, same, frame₁⟩ :=
    doubleRotate_lower t d rep distinct inner
  have turnedRoot := rootAddress_rotate (L := L) (t.child d.flip) d.flip innerFlip
  rw [Direction.flip_flip] at turnedRoot
  have root : rootAddress L (t.setChild d.flip ((t.child d.flip).rotate d.flip)) =
      rootAddress L t := by
    cases t <;> cases d <;> rfl
  have lowered := child_setChild t ((t.child d.flip).rotate d.flip) d.flip nonempty
  obtain ⟨last, turn₂, repLast, frame₂⟩ := nodeRotate_touches _ d repMiddle
    (by rw [same]; exact distinct)
    (by rw [lowered]; exact rotate_ne_nil _ d.flip innerFlip)
  rw [root] at turn₂
  rw [root, lowered, turnedRoot] at frame₂
  refine ⟨last, ?_, repLast, frame₁.trans (frame₂.mono ?_)⟩
  · have valid := rootAddress_valid _ repLast
    have present : (t.child d.flip).isNil = false := by
      cases shape : t.child d.flip with
      | nil => exact absurd shape pivot
      | node => rfl
    simp [nodeDoubleRotate, rbDirectionFlip, (rootAddress_isNode t rep nonempty).assertNotNil,
      rep.nodeGetChild nonempty, (represents_child t d.flip rep).nodeIsNil, present, turn₁, write,
      turn₂, valid, ColorTree.doubleRotate]
  · simp

theorem doubleRotated_mem (t : ColorTree Cell) (d : Direction)
    (inner : (t.child d.flip).child d ≠ .nil) :
    ∀ q ∈ [rootAddress L t, rootAddress L (t.child d.flip),
      rootAddress L ((t.child d.flip).child d)], q ∈ addresses t := by
  have pivot := ne_nil_of_child _ d inner
  intro q member
  simp only [List.mem_cons, List.not_mem_nil, or_false] at member
  rcases member with isRoot | isPivot | isInner
  · exact isRoot ▸ rootAddress_mem t (ne_nil_of_child t d.flip pivot)
  · exact isPivot ▸ child_root_mem t d.flip pivot
  · exact isInner ▸ child_addresses t d.flip _ (child_root_mem _ d inner)

theorem nodeDoubleRotate_refines (t : ColorTree Cell) (d : Direction) (rep : Represents L heap t)
    (distinct : (addresses t).Nodup) (inner : (t.child d.flip).child d ≠ .nil) :
    Refines L heap t (t.doubleRotate d) (nodeDoubleRotate L heap (rootAddress L t) d) := by
  obtain ⟨last, completed, repLast, frame⟩ := nodeDoubleRotate_touches t d rep distinct inner
  exact ⟨last, completed, repLast, frame.mono (doubleRotated_mem t d inner)⟩

def flipRoot (t : ColorTree Cell) : ColorTree Cell := t.setColor t.color.flip

theorem flipRoot_inorder (t : ColorTree Cell) : (flipRoot t).inorder = t.inorder :=
  ColorTree.inorder_setColor t _

theorem nodeFlipUnlessNil_refines (t : ColorTree Cell) (rep : Represents L heap t)
    (distinct : (addresses t).Nodup) :
    ∃ last, nodeFlipUnlessNil L heap (rootAddress L t) = .ok last ∧
      Represents L last (flipRoot t) ∧ Reshaped heap last (addresses t) ∧
      Reshaped heap last [rootAddress L t] := by
  cases shape : t with
  | nil =>
      exact ⟨heap, by simp [nodeFlipUnlessNil, nodeIsNil_nil], trivial, .refl _ _, .refl _ _⟩
  | node c left cell right =>
      rw [← shape]
      have nonempty : t ≠ .nil := by simp [shape]
      have isNil : t.isNil = false := by simp [shape, ColorTree.isNil]
      refine ⟨setColorWord heap (rootAddress L t) t.color.flip, ?_,
        represents_setColor t _ rep distinct, reshaped_setColor t nonempty _,
        reshaped_setColorWord heap _ _⟩
      simp [nodeFlipUnlessNil, rep.nodeIsNil, isNil, rep.nodeGetColor nonempty,
        (rootAddress_isNode t rep nonempty).nodeSetColor, rbColorFlip]

theorem nodeFlipUnlessNil_child (d : Direction) (c : Color) (near far : ColorTree Cell)
    (cell : Cell) (rep : Represents L heap (mk d c near cell far))
    (distinct : (addresses (mk d c near cell far)).Nodup) :
    ∃ last, nodeFlipUnlessNil L heap (rootAddress L near) = .ok last ∧
      Represents L last (mk d c (flipRoot near) cell far) ∧
      (addresses (mk d c (flipRoot near) cell far)).Nodup ∧
      Reshaped heap last (addresses near) ∧ Reshaped heap last [rootAddress L near] := by
  obtain ⟨last, completed, repNear, frame, flipped⟩ := nodeFlipUnlessNil_refines near
    ((represents_mk ..).mp rep).2.1 ((nodup_addresses_mk ..).mp distinct).2.2.1
  have same : addresses (mk d c (flipRoot near) cell far) = addresses (mk d c near cell far) :=
    addresses_of_inorder
      (ColorTree.inorder_mk_congr _ _ _ _ _ _ _ _ (flipRoot_inorder near) rfl)
  refine ⟨last, completed, ?_, ?_, frame, flipped⟩
  · exact represents_inPlace d c near _ far cell rep distinct
      (fun q _ outside => frame.same q outside) repNear (rootAddress_setColor near _)
  · rw [same]
    exact distinct

theorem nodeColorFlip_touches (t : ColorTree Cell) (rep : Represents L heap t)
    (distinct : (addresses t).Nodup) (nonempty : t ≠ .nil) :
    ∃ last, nodeColorFlip L heap (rootAddress L t) = .ok last ∧
      Represents L last t.colorFlip ∧ Reshaped heap last (addresses t) ∧
      Reshaped heap last [rootAddress L t, rootAddress L (t.child .left),
        rootAddress L (t.child .right)] := by
  rcases eq_nil_or_mk .left t with rfl | ⟨c, x, cell, y, rfl⟩
  · exact absurd rfl nonempty
  · -- the root
    have node := represents_isNode _ rep cell.address ((mem_addresses_mk ..).mpr (Or.inl rfl))
    have rep₁ := represents_setColor _ c.flip rep distinct
    rw [ColorTree.setColor_mk, rootAddress_mk] at rep₁
    have frame₁ := reshaped_setColorWord heap cell.address c.flip
    have write₁ : nodeSetColor L heap cell.address c.flip = .ok _ := node.nodeSetColor c.flip
    generalize setColorWord heap cell.address c.flip = heap₁ at rep₁ frame₁ write₁
    -- the left child, then the right one
    obtain ⟨heap₂, write₂, rep₂, distinct₂, frame₂, flipped₂⟩ :=
      nodeFlipUnlessNil_child .left c.flip x y cell rep₁ distinct
    obtain ⟨heap₃, write₃, rep₃, _, frame₃, flipped₃⟩ :=
      nodeFlipUnlessNil_child .right c.flip y (flipRoot x) cell rep₂ distinct₂
    refine ⟨heap₃, ?_, rep₃, ?_, ?_⟩
    · have getLeft := rep₁.nodeGetChild (by simp) .left
      have getRight := rep₂.nodeGetChild (by simp) .right
      rw [rootAddress_mk] at getLeft getRight
      have color := rep.nodeGetColor (by simp)
      rw [rootAddress_mk, ColorTree.color_mk] at color
      rw [ColorTree.child_mk] at getLeft
      rw [show (mk .left c.flip (flipRoot x) cell y).child .right = y from rfl] at getRight
      simp [nodeColorFlip, node.assertNotNil, color, rbColorFlip, write₁, getLeft, write₂,
        getRight, write₃]
    · refine ((frame₁.mono ?_).trans (frame₂.mono ?_)).trans (frame₃.mono ?_)
      · simp [mem_addresses_mk]
      · exact fun q inside => (mem_addresses_mk ..).mpr (Or.inr (Or.inl inside))
      · exact fun q inside => (mem_addresses_mk ..).mpr (Or.inr (Or.inr inside))
    · rw [rootAddress_mk]
      refine ((frame₁.mono ?_).trans (flipped₂.mono ?_)).trans (flipped₃.mono ?_) <;>
        simp [ColorTree.child, mk]

theorem nodeColorFlip_refines (t : ColorTree Cell) (rep : Represents L heap t)
    (distinct : (addresses t).Nodup) (nonempty : t ≠ .nil) :
    ∃ last, nodeColorFlip L heap (rootAddress L t) = .ok last ∧
      Represents L last t.colorFlip ∧ Reshaped heap last (addresses t) := by
  obtain ⟨last, completed, repLast, frame, _⟩ := nodeColorFlip_touches t rep distinct nonempty
  exact ⟨last, completed, repLast, frame⟩

theorem rbBlackenChildren_refines (t : ColorTree Cell) (rep : Represents L heap t)
    (distinct : (addresses t).Nodup) (left : t.child .left ≠ .nil) (right : t.child .right ≠ .nil) :
    ∃ last, rbBlackenChildren L heap (rootAddress L t) = .ok last ∧
      Represents L last ((t.setChild .left ((t.child .left).setColor .black)).setChild .right
        ((t.child .right).setColor .black)) ∧
      Reshaped heap last (addresses t) := by
  cases shape : t with
  | nil => exact absurd rfl (shape ▸ ne_nil_of_child t .left left)
  | node c x cell y =>
      subst shape
      -- the left child
      have rep₁ := represents_paintChild .left c x y cell .black rep distinct left
      have frame₁ : Reshaped heap (setColorWord heap (rootAddress L x) .black) _ :=
        (reshaped_setColor x left .black).mono (child_addresses (.node c x cell y) .left)
      have write₁ : nodeSetColor L heap (rootAddress L x) .black = .ok _ :=
        (rootAddress_isNode x (represents_child _ .left rep) left).nodeSetColor .black
      generalize setColorWord heap (rootAddress L x) .black = heap₁ at rep₁ frame₁ write₁
      have distinct₁ : (addresses (mk .left c (x.setColor .black) cell y)).Nodup := by
        rw [addresses_of_inorder (ColorTree.inorder_mk_congr .left c c _ y x y cell
          (ColorTree.inorder_setColor x _) rfl)]
        exact distinct
      -- the right child
      have rep₂ := represents_paintChild .right c y (x.setColor .black) cell .black rep₁ distinct₁
        right
      have frame₂ : Reshaped heap₁ (setColorWord heap₁ (rootAddress L y) .black) _ :=
        (reshaped_setColor y right .black).mono (child_addresses (.node c x cell y) .right)
      have write₂ : nodeSetColor L heap₁ (rootAddress L y) .black = .ok _ :=
        (rootAddress_isNode y (represents_child _ .right rep₁) right).nodeSetColor .black
      refine ⟨_, ?_, rep₂, frame₁.trans frame₂⟩
      have getLeft := rep.nodeGetChild (by simp) .left
      have getRight := rep₁.nodeGetChild (by simp) .right
      rw [rootAddress_mk] at getRight
      rw [show (mk .left c (x.setColor .black) cell y).child .right = y from rfl] at getRight
      rw [show (ColorTree.node c x cell y).child .left = x from rfl] at getLeft
      rw [show rootAddress L (ColorTree.node c x cell y) = cell.address from rfl] at getLeft ⊢
      simp [rbBlackenChildren, getLeft, write₁, getRight, write₂]

theorem rbInsertTurn_refines (t : ColorTree Cell) (d : Direction) (rep : Represents L heap t)
    (distinct : (addresses t).Nodup) (nonempty : t ≠ .nil) :
    Refines L heap t (t.insertFixUp d) (rbInsertTurn L heap (rootAddress L t) d) := by
  have node := rootAddress_isNode t rep nonempty
  have repChild := represents_child t d rep
  unfold rbInsertTurn ColorTree.insertFixUp
  simp only [rbDirectionFlip, node.assertNotNil, exec_bind_ok, rep.nodeChildRed nonempty]
  by_cases grown : (t.child d).isRed = true
  · have present := ColorTree.ne_nil_of_isRed _ grown
    simp only [grown, if_true, rep.nodeGetChild nonempty, exec_bind_ok,
      repChild.nodeChildRed present, execOr_ok]
    by_cases far : (t.child d.flip).isRed = true
    · simp only [far, if_true]
      split
      case isTrue =>
        obtain ⟨last, completed, repLast, frame⟩ := nodeColorFlip_refines t rep distinct nonempty
        refine ⟨last, ?_, repLast, frame⟩
        rcases eq_nil_or_mk d t with rfl | ⟨c, x, cell, y, rfl⟩
        · exact absurd rfl nonempty
        · rw [colorFlip_mk, completed]
          simp
      case isFalse => exact ⟨heap, rfl, rep, .refl _ _⟩
    · simp only [far]
      by_cases outer : ((t.child d).child d).isRed = true
      · simp only [outer, if_true]
        exact nodeRotate_refines t d.flip rep distinct (by simpa using present)
      · simp only [outer]
        by_cases inner : ((t.child d).child d.flip).isRed = true
        · simp only [inner, if_true]
          exact nodeDoubleRotate_refines t d.flip rep distinct
            (by simpa using ColorTree.ne_nil_of_isRed _ inner)
        · simp only [inner]
          exact ⟨heap, rfl, rep, .refl _ _⟩
  · simp only [grown]
    exact ⟨heap, rfl, rep, .refl _ _⟩

theorem rbInsertFixUp_refines (t : ColorTree Cell) (d : Direction) (rep : Represents L heap t)
    (distinct : (addresses t).Nodup) (nonempty : t ≠ .nil) :
    Refines L heap t (t.insertFixUp d) (rbInsertFixUp L heap (rootAddress L t) d) := by
  obtain ⟨last, completed, repLast, frame⟩ := rbInsertTurn_refines t d rep distinct nonempty
  refine ⟨last, ?_, repLast, frame⟩
  simp [rbInsertFixUp, completed, rootAddress_valid _ repLast]

def deleteStatus (kept : Bool) : RBDeleteStatus := if kept then .ok else .fail

theorem ne_nil_of_isNil (t : ColorTree Cell) (present : ¬ t.isNil = true) : t ≠ .nil := by
  rintro rfl
  exact present rfl

theorem deleteRotation_refines (t : ColorTree Cell) (d : Direction) (rep : Represents L heap t)
    (distinct : (addresses t).Nodup) (present : t.child d.flip ≠ .nil)
    (nephew : ¬ (!((t.child d.flip).child .left).isRed &&
      !((t.child d.flip).child .right).isRed) = true) :
    ∃ next,
      (if ((t.child d.flip).child d.flip).isRed then t.rotate d else t.doubleRotate d) = next ∧
      Refines L heap t next
        (if ((t.child d.flip).child d.flip).isRed then nodeRotate L heap (rootAddress L t) d
          else nodeDoubleRotate L heap (rootAddress L t) d) ∧
      addresses next = addresses t ∧ next.child .left ≠ .nil ∧ next.child .right ≠ .nil := by
  have nonempty := ne_nil_of_child t d.flip present
  by_cases outer : ((t.child d.flip).child d.flip).isRed = true
  · have turned := nodeRotate_refines t d rep distinct present
    refine ⟨_, if_pos outer, by rwa [if_pos outer], rotate_mem t d present, ?_⟩
    rcases eq_nil_or_mk d t with rfl | ⟨c, x, a, far, rfl⟩
    · exact absurd rfl nonempty
    · rw [ColorTree.child_flip_mk] at present outer
      rcases eq_nil_or_mk d far with rfl | ⟨cs, y, b, z, rfl⟩
      · exact absurd rfl present
      · rw [ColorTree.child_flip_mk] at outer
        have farNephew := ColorTree.ne_nil_of_isRed _ outer
        rw [rotate_mk]
        cases d <;> simp [mk, ColorTree.child, farNephew]
  · have inner : ((t.child d.flip).child d).isRed = true := by
      cases d <;> simp_all [Direction.flip]
    have pivot := ColorTree.ne_nil_of_isRed _ inner
    have turned := nodeDoubleRotate_refines t d rep distinct pivot
    refine ⟨_, if_neg outer, by rwa [if_neg outer],
      addresses_of_inorder (ColorTree.inorder_doubleRotate t d pivot), ?_⟩
    rcases eq_nil_or_mk d t with rfl | ⟨c, x, a, far, rfl⟩
    · exact absurd rfl nonempty
    · rw [ColorTree.child_flip_mk] at present pivot
      rcases eq_nil_or_mk d far with rfl | ⟨cs, y, b, z, rfl⟩
      · exact absurd rfl present
      · rw [ColorTree.child_mk] at pivot
        rcases eq_nil_or_mk d y with rfl | ⟨cy, p, q, r, rfl⟩
        · exact absurd rfl pivot
        · rw [doubleRotate_mk]
          cases d <;> simp [mk, ColorTree.child]

theorem rbDeleteTurn_refines (t : ColorTree Cell) (d : Direction) (rep : Represents L heap t)
    (distinct : (addresses t).Nodup) (sibling : ¬ (t.child d.flip).isNil = true)
    (nephew : ¬ (!((t.child d.flip).child .left).isRed &&
      !((t.child d.flip).child .right).isRed) = true) :
    (t.deleteFixBlack d).1 = true ∧
      Refines L heap t (t.deleteFixBlack d).2
        (rbDeleteTurn L heap (rootAddress L t) (rootAddress L (t.child d.flip)) d) := by
  have present := ne_nil_of_isNil _ sibling
  have nonempty := ne_nil_of_child t d.flip present
  have repSibling := represents_child t d.flip rep
  unfold ColorTree.deleteFixBlack
  simp only [sibling, nephew, if_false, Bool.false_eq_true, true_and]
  obtain ⟨next, shape, ⟨heap₁, completed, rep₁, frame₁⟩, same, left, right⟩ :=
    deleteRotation_refines t d rep distinct present nephew
  have nonemptyNext := ne_nil_of_child next .left left
  have rep₂ := represents_setColor next t.color rep₁ (by rw [same]; exact distinct)
  have frame₂ : Reshaped heap₁ (setColorWord heap₁ (rootAddress L next) t.color)
      (addresses next) := reshaped_setColor next nonemptyNext t.color
  rw [same] at frame₂
  have write₂ : nodeSetColor L heap₁ (rootAddress L next) t.color = .ok _ :=
    (rootAddress_isNode next rep₁ nonemptyNext).nodeSetColor t.color
  generalize setColorWord heap₁ (rootAddress L next) t.color = heap₂ at rep₂ frame₂ write₂
  have recolored : addresses (next.setColor t.color) = addresses t :=
    (addresses_of_inorder (ColorTree.inorder_setColor next _)).trans same
  obtain ⟨heap₃, write₃, rep₃, frame₃⟩ := rbBlackenChildren_refines (next.setColor t.color) rep₂
    (by rw [recolored]; exact distinct) (by cases next <;> exact left)
    (by cases next <;> exact right)
  rw [rootAddress_setColor] at write₃
  rw [recolored] at frame₃
  rw [shape]
  refine ⟨heap₃, ?_, rep₃, (frame₁.trans frame₂).trans frame₃⟩
  have root : rootAddress L (((next.setColor t.color).setChild .left
      (((next.setColor t.color).child .left).setColor .black)).setChild .right
        (((next.setColor t.color).child .right).setColor .black)) = rootAddress L next := by
    cases next <;> rfl
  rw [root]
  simp only [rbDeleteTurn, rep.nodeGetColor nonempty, exec_bind_ok, rbDirectionFlip,
    repSibling.nodeChildRed present]
  by_cases outer : ((t.child d.flip).child d.flip).isRed = true
  · rw [if_pos outer] at completed ⊢
    simp [completed, write₂, write₃]
  · rw [if_neg outer] at completed ⊢
    simp [completed, write₂, write₃]

theorem recolor_refines (t : ColorTree Cell) (d : Direction) (rep : Represents L heap t)
    (distinct : (addresses t).Nodup) (present : t.child d.flip ≠ .nil) :
    ∃ middle last, nodeSetColor L heap (rootAddress L t) .black = .ok middle ∧
      nodeSetColor L middle (rootAddress L (t.child d.flip)) .red = .ok last ∧
      Represents L last ((t.setColor .black).setChild d.flip ((t.child d.flip).setColor .red)) ∧
      Reshaped heap last (addresses t) := by
  rcases eq_nil_or_mk d.flip t with rfl | ⟨c, s, cell, x, rfl⟩
  · cases d <;> exact absurd rfl present
  · rw [ColorTree.child_mk] at present
    rw [ColorTree.setColor_mk, ColorTree.child_mk, ColorTree.setChild_mk, rootAddress_mk]
    have node := represents_isNode _ rep cell.address ((mem_addresses_mk ..).mpr (Or.inl rfl))
    have repSibling := represents_child _ d.flip rep
    rw [ColorTree.child_mk] at repSibling
    have rep₁ := represents_setColor _ .black rep distinct
    rw [ColorTree.setColor_mk, rootAddress_mk] at rep₁
    have distinct₁ : (addresses (mk d.flip .black s cell x)).Nodup := by
      rw [addresses_of_inorder (ColorTree.inorder_mk_congr d.flip .black c s x s x cell rfl rfl)]
      exact distinct
    have rep₂ := represents_paintChild d.flip .black s x cell .red rep₁ distinct₁ present
    have frame₁ := reshaped_setColorWord heap cell.address .black
    have frame₂ := reshaped_setColorWord (setColorWord heap cell.address .black)
      (rootAddress L s) .red
    refine ⟨_, _, node.nodeSetColor .black,
      (rootAddress_isNode s repSibling present).nodeSetColor .red, rep₂,
      (frame₁.mono ?_).trans (frame₂.mono ?_)⟩
    · simp [mem_addresses_mk]
    · simpa [mem_addresses_mk] using Or.inr (Or.inl (rootAddress_mem s present))

/-- How the repair of the subtree `t` ends: `t` keeps its root, or it was turned and the node
above, if there is one, still has to be linked to the new root. -/
def FixedBlack (L : Layout) (last : Heap) (node : U64) (t : ColorTree Cell) (d : Direction)
    (result : Exec (RBDeleteResult × Heap)) : Prop :=
  (rootAddress L (t.deleteFixBlack d).2 = rootAddress L t ∧
    result = .ok (⟨node, deleteStatus (t.deleteFixBlack d).1⟩, last)) ∨
  ((t.deleteFixBlack d).1 = true ∧
    result =
      if node ≠ rootAddress L t then do
        return (⟨node, .ok⟩, ← nodeSetChild L last node d (rootAddress L (t.deleteFixBlack d).2))
      else .ok (⟨rootAddress L (t.deleteFixBlack d).2, .ok⟩, last))

theorem rbDeleteFixBlack_fixed (node : U64) (t : ColorTree Cell) (d : Direction)
    (rep : Represents L heap t) (distinct : (addresses t).Nodup) (nonempty : t ≠ .nil) :
    ∃ last, FixedBlack L last node t d (rbDeleteFixBlack L heap node (rootAddress L t) d) ∧
      Represents L last (t.deleteFixBlack d).2 ∧ Reshaped heap last (addresses t) := by
  have repSibling := represents_child t d.flip rep
  unfold rbDeleteFixBlack
  simp only [rbDirectionFlip, rep.nodeGetChild nonempty, exec_bind_ok, repSibling.nodeIsNil]
  by_cases sibling : (t.child d.flip).isNil = true
  · have shape : t.deleteFixBlack d = (false, t) := by
      simp only [ColorTree.deleteFixBlack, sibling, if_true]
    unfold FixedBlack
    rw [shape]
    refine ⟨heap, Or.inl ⟨rfl, ?_⟩, rep, .refl _ _⟩
    simp [sibling, deleteStatus]
  · have present := ne_nil_of_isNil _ sibling
    simp only [sibling, if_false, repSibling.nodeChildRed present, execOr_ok, exec_bind_ok,
      rep.nodeRed, Bool.not_or, Bool.false_eq_true]
    by_cases nephew : (!((t.child d.flip).child .left).isRed &&
      !((t.child d.flip).child .right).isRed) = true
    · obtain ⟨middle, last, write₁, write₂, repLast, frame⟩ :=
        recolor_refines t d rep distinct present
      have shape : t.deleteFixBlack d =
          (t.isRed, (t.setColor .black).setChild d.flip ((t.child d.flip).setColor .red)) := by
        simp only [ColorTree.deleteFixBlack, sibling, nephew, if_true, if_false, Bool.false_eq_true]
      have root : rootAddress L ((t.setColor .black).setChild d.flip
          ((t.child d.flip).setColor .red)) = rootAddress L t := by
        cases t <;> cases d <;> rfl
      unfold FixedBlack
      rw [shape]
      refine ⟨last, Or.inl ⟨root, ?_⟩, repLast, frame⟩
      cases red : t.isRed <;> simp [nephew, write₁, write₂, deleteStatus]
    · obtain ⟨kept, last, completed, repLast, frame⟩ :=
        rbDeleteTurn_refines t d rep distinct sibling nephew
      refine ⟨last, Or.inr ⟨kept, ?_⟩, repLast, frame⟩
      simp only [nephew, completed, exec_bind_ok, exec_pure, Bool.false_eq_true, if_false]

theorem rbDeleteFixBlack_top (t : ColorTree Cell) (d : Direction) (rep : Represents L heap t)
    (distinct : (addresses t).Nodup) (nonempty : t ≠ .nil) :
    ∃ last, rbDeleteFixBlack L heap (rootAddress L t) (rootAddress L t) d =
        .ok (⟨rootAddress L (t.deleteFixBlack d).2, deleteStatus (t.deleteFixBlack d).1⟩, last) ∧
      Represents L last (t.deleteFixBlack d).2 ∧ Reshaped heap last (addresses t) := by
  obtain ⟨last, fixed, repLast, frame⟩ :=
    rbDeleteFixBlack_fixed (rootAddress L t) t d rep distinct nonempty
  refine ⟨last, ?_, repLast, frame⟩
  rcases fixed with ⟨root, completed⟩ | ⟨kept, completed⟩
  · rw [completed, root]
  · rw [completed, if_neg (not_not_intro rfl), kept]
    rfl

theorem rbDeleteFixBlack_below (t : ColorTree Cell) (d : Direction) (rep : Represents L heap t)
    (distinct : (addresses t).Nodup) (below : t.child d ≠ .nil) :
    ∃ last, rbDeleteFixBlack L heap (rootAddress L t) (rootAddress L (t.child d)) d =
        .ok (⟨rootAddress L t, deleteStatus ((t.child d).deleteFixBlack d).1⟩, last) ∧
      Represents L last (t.setChild d ((t.child d).deleteFixBlack d).2) ∧
      Reshaped heap last (addresses t) := by
  have nonempty := ne_nil_of_child t d below
  have within := child_addresses t d
  have outside := root_not_below (L := L) t d nonempty distinct
  obtain ⟨middle, fixed, repMiddle, frame⟩ := rbDeleteFixBlack_fixed (rootAddress L t) (t.child d)
    d (represents_child t d rep) (child_nodup t d distinct) below
  rcases fixed with ⟨root, completed⟩ | ⟨kept, completed⟩
  · refine ⟨middle, completed, ?_, frame.mono within⟩
    rcases eq_nil_or_mk d t with rfl | ⟨c, near, cell, far, rfl⟩
    · exact absurd rfl nonempty
    · rw [ColorTree.setChild_mk]
      rw [ColorTree.child_mk] at root repMiddle frame ⊢
      exact represents_inPlace d c near _ far cell rep distinct
        (fun q _ outside => frame.same q outside) repMiddle root
  · have sameCells := ColorTree.inorder_deleteFixBlack (t.child d) d
    obtain ⟨write, repLast⟩ := nodeSetChild_refines middle t _ d rep nonempty distinct
      (fun q _ outside => frame.same q outside) repMiddle
      (by rw [addresses_of_inorder sameCells]; exact outside)
    refine ⟨_, ?_, repLast, (frame.mono within).trans
      ((reshaped_setChildWord middle _ _ d).mono (by simpa using rootAddress_mem t nonempty))⟩
    have apart : rootAddress L t ≠ rootAddress L (t.child d) := by
      intro same
      rw [same] at outside
      exact outside (rootAddress_mem _ below)
    rw [completed, if_pos apart, write, kept]
    rfl

theorem rbDeleteFixUp_refines (t : ColorTree Cell) (d : Direction) (rep : Represents L heap t)
    (distinct : (addresses t).Nodup) (nonempty : t ≠ .nil) :
    ∃ last, rbDeleteFixUp L heap (rootAddress L t) d =
        .ok (⟨rootAddress L (t.deleteFixUp d).2, deleteStatus (t.deleteFixUp d).1⟩, last) ∧
      Represents L last (t.deleteFixUp d).2 ∧ Reshaped heap last (addresses t) := by
  have node := rootAddress_isNode t rep nonempty
  have repSibling := represents_child t d.flip rep
  unfold rbDeleteFixUp ColorTree.deleteFixUp
  simp only [rbDirectionFlip, node.1, kassert_true, exec_bind_ok, node.assertNotNil,
    rep.nodeGetChild nonempty, repSibling.nodeRed]
  by_cases red : (t.child d.flip).isRed = true
  · have pivot := ColorTree.ne_nil_of_isRed _ red
    obtain ⟨heap₁, turn, rep₁, frame₁⟩ := nodeRotate_refines t d rep distinct pivot
    have same := rotate_mem t d pivot
    have lowered : rootAddress L ((t.rotate d).child d) = rootAddress L t ∧
        (t.rotate d).child d ≠ .nil := by
      rcases eq_nil_or_mk d t with rfl | ⟨c, x, a, far, rfl⟩
      · exact absurd rfl nonempty
      · rw [ColorTree.child_flip_mk] at pivot
        rcases eq_nil_or_mk d far with rfl | ⟨cs, y, b, z, rfl⟩
        · exact absurd rfl pivot
        · rw [rotate_mk, ColorTree.child_mk, rootAddress_mk, rootAddress_mk]
          exact ⟨rfl, by simp⟩
    obtain ⟨last, repaired, repLast, frame₂⟩ := rbDeleteFixBlack_below (t.rotate d) d rep₁
      (by rw [same]; exact distinct) lowered.2
    rw [lowered.1] at repaired
    rw [same] at frame₂
    have root : rootAddress L ((t.rotate d).setChild d
        (((t.rotate d).child d).deleteFixBlack d).2) = rootAddress L (t.rotate d) := by
      cases t.rotate d <;> cases d <;> rfl
    have valid := rootAddress_valid _ rep₁
    refine ⟨last, ?_, by simpa [red] using repLast, frame₁.trans frame₂⟩
    simp [red, turn, repaired, root, valid]
  · obtain ⟨last, repaired, repLast, frame⟩ := rbDeleteFixBlack_top t d rep distinct nonempty
    have valid := rootAddress_valid _ repLast
    refine ⟨last, ?_, by simpa [red] using repLast, frame⟩
    simp [red, repaired, valid]

end Drastic
