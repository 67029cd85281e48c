import Drastic.RangeTree.Runs

namespace Drastic

open Library.RedBlack (Direction Color ColorTree)

variable {L : Layout} {heap last : Heap} {node child : U64} {color : RBColor} {d : RBDirection}
  {t : ColorTree Cell}

def SeenAs (L : Layout) (heap : Heap) : ColorTree Cell → Prop
  | .nil => True
  | .node color left cell right =>
      (heap cell.address).range = cell.range ∧
      nodeGetColor L heap cell.address = .ok color ∧
      nodeGetChild L heap cell.address .left = .ok (rootAddress L left) ∧
      nodeGetChild L heap cell.address .right = .ok (rootAddress L right) ∧
      SeenAs L heap left ∧ SeenAs L heap right

theorem assertNotNil_bind_eq_ok {α : Type} (node : U64) (f : Unit → Exec α) (a : α) :
    (assertNotNil L node >>= f) = .ok a ↔ IsNode L node ∧ f () = .ok a := by
  unfold assertNotNil nodeIsNil
  cases valid : nodeValid node <;> by_cases nil : node = L.nodeNil <;>
    simp [kassert, IsNode, valid, nil]

theorem nodeGetColor_eq_ok : nodeGetColor L heap node = .ok color ↔
    IsNode L node ∧ colorOf heap node = color := by
  simp only [nodeGetColor, kassert_bind_eq_ok, assertNotNil_bind_eq_ok, exec_pure,
    Except.ok.injEq]
  exact ⟨And.right, fun seen => ⟨seen.1.1, seen⟩⟩

theorem nodeGetChild_eq_ok : nodeGetChild L heap node d = .ok child ↔
    IsNode L node ∧ nodeValid child = true ∧ childOf heap node d = child := by
  simp only [nodeGetChild, kassert_bind_eq_ok, assertNotNil_bind_eq_ok, exec_pure,
    Except.ok.injEq]
  constructor
  · rintro ⟨_, isNode, valid, rfl⟩
    exact ⟨isNode, valid, rfl⟩
  · rintro ⟨isNode, valid, rfl⟩
    exact ⟨isNode.1, isNode, valid, rfl⟩

theorem seenAs_iff (t : ColorTree Cell) : SeenAs L heap t ↔ Represents L heap t := by
  induction t with
  | nil => exact Iff.rfl
  | node color left cell right ihl ihr =>
      simp only [SeenAs, Represents, nodeGetColor_eq_ok, nodeGetChild_eq_ok, ihl, ihr]
      constructor
      · rintro ⟨range, ⟨isNode, color⟩, ⟨_, _, near⟩, ⟨_, _, far⟩, repLeft, repRight⟩
        exact ⟨⟨isNode, range, color, near, far⟩, repLeft, repRight⟩
      · rintro ⟨⟨isNode, range, color, near, far⟩, repLeft, repRight⟩
        exact ⟨range, ⟨isNode, color⟩, ⟨isNode, rootAddress_valid left repLeft, near⟩,
          ⟨isNode, rootAddress_valid right repRight, far⟩, repLeft, repRight⟩

theorem nodeGetColor_congr (same : colorOf last node = colorOf heap node) :
    nodeGetColor L last node = nodeGetColor L heap node := by
  rw [nodeGetColor, nodeGetColor, same]

theorem nodeGetChild_congr
    (same : childOf last node d = childOf heap node d) :
    nodeGetChild L last node d = nodeGetChild L heap node d := by
  rw [nodeGetChild, nodeGetChild, same]

theorem nodeSetColor_seen (done : nodeSetColor L heap node color = .ok last) :
    (∀ other, nodeGetColor L last other =
      if other = node then .ok color else nodeGetColor L heap other) ∧
    ∀ other side, nodeGetChild L last other side = nodeGetChild L heap other side := by
  simp only [nodeSetColor, kassert_bind_eq_ok, assertNotNil_bind_eq_ok, exec_pure,
    Except.ok.injEq] at done
  obtain ⟨_, isNode, rfl⟩ := done
  constructor
  · intro other
    have painted := colorOf_setColorWord heap node other color
    by_cases same : other = node
    · rw [if_pos same] at painted ⊢
      exact nodeGetColor_eq_ok.mpr ⟨same ▸ isNode, painted⟩
    · rw [if_neg same] at painted ⊢
      exact nodeGetColor_congr painted
  · intro other side
    exact nodeGetChild_congr (childOf_setColorWord heap node other color side)

theorem nodeSetChild_seen (done : nodeSetChild L heap node d child = .ok last) :
    (∀ other, nodeGetColor L last other = nodeGetColor L heap other) ∧
    ∀ other side, nodeGetChild L last other side =
      if other = node ∧ side = d then .ok child else nodeGetChild L heap other side := by
  simp only [nodeSetChild, kassert_bind_eq_ok, assertNotNil_bind_eq_ok, exec_pure,
    Except.ok.injEq] at done
  obtain ⟨_, valid, isNode, rfl⟩ := done
  constructor
  · intro other
    exact nodeGetColor_congr (colorOf_setChildWord heap node other child d valid)
  · intro other side
    have linked := childOf_setChildWord heap node other child d side valid
    by_cases same : other = node ∧ side = d
    · rw [if_pos same] at linked ⊢
      exact nodeGetChild_eq_ok.mpr ⟨same.1 ▸ isNode, valid, linked⟩
    · rw [if_neg same] at linked ⊢
      exact nodeGetChild_congr linked

structure Shows (L : Layout) (heap last : Heap) (after : ColorTree Cell) (touched : List U64) :
    Prop where
  seen : SeenAs L last after
  frame : Reshaped heap last touched
  nodeNil : last L.nodeNil = heap L.nodeNil

theorem nodeNil_not_mem (rep : Represents L heap t) : L.nodeNil ∉ addresses t := by
  intro member
  exact (represents_isNode t rep _ member).2 rfl

theorem nodeNil_not_root (rep : Represents L heap t) (nonempty : t ≠ .nil) :
    L.nodeNil ∉ [rootAddress L t] := by
  intro member
  rw [List.mem_singleton] at member
  exact (rootAddress_isNode t rep nonempty).2 member.symm

theorem setColor_shows (rep : Represents L heap t) (distinct : (addresses t).Nodup)
    (nonempty : t ≠ .nil) (color : RBColor) :
    ∃ last, nodeSetColor L heap (rootAddress L t) color = .ok last ∧
      Shows L heap last (t.setColor color) [rootAddress L t] := by
  have frame := reshaped_setColorWord heap (rootAddress L t) color
  exact ⟨_, (rootAddress_isNode t rep nonempty).nodeSetColor color,
    (seenAs_iff _).mpr (represents_setColor t color rep distinct), frame,
    frame.other _ (nodeNil_not_root rep nonempty)⟩

theorem setChild_shows (rep : Represents L heap t) (distinct : (addresses t).Nodup)
    (nonempty : t ≠ .nil) (d : RBDirection) (fresh : ColorTree Cell)
    (repFresh : Represents L heap fresh) (apart : rootAddress L t ∉ addresses fresh) :
    ∃ last, nodeSetChild L heap (rootAddress L t) d (rootAddress L fresh) = .ok last ∧
      Shows L heap last (t.setChild d fresh) [rootAddress L t] := by
  obtain ⟨write, repLast⟩ := nodeSetChild_refines heap t fresh d rep nonempty distinct
    (fun _ _ _ => ⟨rfl, rfl⟩) repFresh apart
  have frame := reshaped_setChildWord heap (rootAddress L t) (rootAddress L fresh) d
  exact ⟨_, write, (seenAs_iff _).mpr repLast, frame,
    frame.other _ (nodeNil_not_root rep nonempty)⟩

theorem colorFlip_shows (rep : Represents L heap t) (distinct : (addresses t).Nodup)
    (nonempty : t ≠ .nil) :
    ∃ last, nodeColorFlip L heap (rootAddress L t) = .ok last ∧
      Shows L heap last t.colorFlip [rootAddress L t, rootAddress L (t.child .left),
        rootAddress L (t.child .right)] := by
  obtain ⟨last, completed, repLast, within, frame⟩ :=
    nodeColorFlip_touches t rep distinct nonempty
  exact ⟨last, completed, (seenAs_iff _).mpr repLast, frame,
    within.other _ (nodeNil_not_mem rep)⟩

structure Rotates (L : Layout) (heap last : Heap) (before after : ColorTree Cell)
    (touched : List U64) : Prop extends Shows L heap last after touched where
  order : after.inorder = before.inorder
  distinct : (addresses after).Nodup

theorem rotate_shows (rep : Represents L heap t) (distinct : (addresses t).Nodup)
    (d : RBDirection) (pivot : t.child d.flip ≠ .nil) :
    ∃ last, nodeRotate L heap (rootAddress L t) d = .ok (rootAddress L (t.rotate d), last) ∧
      Rotates L heap last t (t.rotate d) [rootAddress L t, rootAddress L (t.child d.flip)] := by
  obtain ⟨last, completed, repLast, frame⟩ := nodeRotate_touches t d rep distinct pivot
  have order := ColorTree.inorder_rotate t d pivot
  refine ⟨last, completed, ⟨(seenAs_iff _).mpr repLast, frame, frame.other _ ?_⟩, order, ?_⟩
  · exact fun member => nodeNil_not_mem rep (rotated_mem t d pivot _ member)
  · rw [addresses_of_inorder order]
    exact distinct

theorem doubleRotate_shows (rep : Represents L heap t) (distinct : (addresses t).Nodup)
    (d : RBDirection) (inner : (t.child d.flip).child d ≠ .nil) :
    ∃ last, nodeDoubleRotate L heap (rootAddress L t) d =
        .ok (rootAddress L (t.doubleRotate d), last) ∧
      Rotates L heap last t (t.doubleRotate d) [rootAddress L t, rootAddress L (t.child d.flip),
        rootAddress L ((t.child d.flip).child d)] := by
  obtain ⟨last, completed, repLast, frame⟩ := nodeDoubleRotate_touches t d rep distinct inner
  have order := ColorTree.inorder_doubleRotate t d inner
  refine ⟨last, completed, ⟨(seenAs_iff _).mpr repLast, frame, frame.other _ ?_⟩, order, ?_⟩
  · exact fun member => nodeNil_not_mem rep (doubleRotated_mem t d inner _ member)
  · rw [addresses_of_inorder order]
    exact distinct

/-- Colour bit and left child share a word, and no operation of the tree code shows it. -/
theorem tagged_surgery_simulates :
    (∀ (heap last : Heap) (node : U64) (color : RBColor),
      nodeSetColor L heap node color = .ok last →
        (∀ other, nodeGetColor L last other =
          if other = node then .ok color else nodeGetColor L heap other) ∧
        ∀ other side, nodeGetChild L last other side = nodeGetChild L heap other side) ∧
    (∀ (heap last : Heap) (node : U64) (d : RBDirection) (child : U64),
      nodeSetChild L heap node d child = .ok last →
        (∀ other, nodeGetColor L last other = nodeGetColor L heap other) ∧
        ∀ other side, nodeGetChild L last other side =
          if other = node ∧ side = d then .ok child else nodeGetChild L heap other side) ∧
    ∀ (heap : Heap) (t : ColorTree Cell), SeenAs L heap t → (addresses t).Nodup → t ≠ .nil →
      (∀ color, ∃ last, nodeSetColor L heap (rootAddress L t) color = .ok last ∧
        Shows L heap last (t.setColor color) [rootAddress L t]) ∧
      (∀ d fresh, SeenAs L heap fresh → rootAddress L t ∉ addresses fresh →
        ∃ last, nodeSetChild L heap (rootAddress L t) d (rootAddress L fresh) = .ok last ∧
          Shows L heap last (t.setChild d fresh) [rootAddress L t]) ∧
      (∃ last, nodeColorFlip L heap (rootAddress L t) = .ok last ∧
        Shows L heap last t.colorFlip [rootAddress L t, rootAddress L (t.child .left),
          rootAddress L (t.child .right)]) ∧
      (∀ d, t.child d.flip ≠ .nil → ∃ last,
        nodeRotate L heap (rootAddress L t) d = .ok (rootAddress L (t.rotate d), last) ∧
        Rotates L heap last t (t.rotate d)
          [rootAddress L t, rootAddress L (t.child d.flip)]) ∧
      ∀ d, (t.child d.flip).child d ≠ .nil → ∃ last,
        nodeDoubleRotate L heap (rootAddress L t) d =
          .ok (rootAddress L (t.doubleRotate d), last) ∧
        Rotates L heap last t (t.doubleRotate d) [rootAddress L t, rootAddress L (t.child d.flip),
          rootAddress L ((t.child d.flip).child d)] := by
  refine ⟨fun _ _ _ _ => nodeSetColor_seen, fun _ _ _ _ _ => nodeSetChild_seen, ?_⟩
  intro heap t seen distinct nonempty
  have rep := (seenAs_iff t).mp seen
  refine ⟨setColor_shows rep distinct nonempty, ?_, colorFlip_shows rep distinct nonempty,
    rotate_shows rep distinct, doubleRotate_shows rep distinct⟩
  intro d fresh seenFresh apart
  exact setChild_shows rep distinct nonempty d fresh ((seenAs_iff fresh).mp seenFresh) apart

def twoNodes : Heap := fun node =>
  if node = 256#64 then
    ⟨⟨16#64, 4#64⟩, fun _ => 128#64, fun | .left => 64#64 | .right => 320#64⟩
  else ⟨⟨32#64, 4#64⟩, fun _ => 128#64, fun | .left => 65#64 | .right => 64#64⟩

theorem tagged_surgery_simulates_sample :
    ∃ last, nodeRotate sampleLayout twoNodes 256#64 .left = .ok (320#64, last) ∧
      SeenAs sampleLayout last (.node .black
        (.node .red .nil ⟨256#64, ⟨16#64, 4#64⟩⟩ .nil) ⟨320#64, ⟨32#64, 4#64⟩⟩ .nil) := by
  obtain ⟨last, completed, rotates⟩ :=
    ((tagged_surgery_simulates (L := sampleLayout)).2.2 twoNodes
      (.node .black .nil ⟨256#64, ⟨16#64, 4#64⟩⟩
        (.node .red .nil ⟨320#64, ⟨32#64, 4#64⟩⟩ .nil))
      ⟨rfl, rfl, rfl, rfl, trivial, rfl, rfl, rfl, rfl, trivial, trivial⟩ (by decide)
      (by simp)).2.2.2.1 .left (by simp [ColorTree.child, Direction.flip])
  exact ⟨last, completed, rotates.seen⟩

end Drastic
