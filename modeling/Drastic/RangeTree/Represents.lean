import Mathlib.Data.List.Nodup
import Drastic.Library.RedBlack.Tree
import Drastic.RangeTree.Words

namespace Drastic

open Library.RedBlack (Direction Color ColorTree)
open Library.RedBlack.ColorTree (mk)

structure Cell where
  address : U64
  range : TestRange
  deriving DecidableEq, Repr

def addresses (t : ColorTree Cell) : List U64 := t.inorder.map Cell.address
def ranges (t : ColorTree Cell) : List TestRange := t.inorder.map Cell.range

def rootAddress (L : Layout) : ColorTree Cell → U64
  | .nil => L.nodeNil
  | .node _ _ cell _ => cell.address

def IsNode (L : Layout) (address : U64) : Prop :=
  nodeValid address = true ∧ address ≠ L.nodeNil

/-- The words of the heap below a root spell out a coloured tree. -/
def Represents (L : Layout) (heap : Heap) : ColorTree Cell → Prop
  | .nil => True
  | .node color left cell right =>
      (IsNode L cell.address ∧ (heap cell.address).range = cell.range ∧
        colorOf heap cell.address = color ∧
        childOf heap cell.address .left = rootAddress L left ∧
        childOf heap cell.address .right = rootAddress L right) ∧
      Represents L heap left ∧ Represents L heap right

def SameNode (heap next : Heap) (address : U64) : Prop :=
  (next address).range = (heap address).range ∧
    (next address).children = (heap address).children

/-- A change of shape: ranges and list links are kept everywhere, and nodes
outside `touched` are kept whole. -/
structure Reshaped (heap next : Heap) (touched : List U64) : Prop where
  range : ∀ address, (next address).range = (heap address).range
  list : ∀ address, (next address).list = (heap address).list
  other : ∀ address, address ∉ touched → next address = heap address

variable {L : Layout} {heap next : Heap}

theorem Reshaped.refl (heap : Heap) (touched : List U64) : Reshaped heap heap touched :=
  ⟨fun _ => rfl, fun _ => rfl, fun _ _ => rfl⟩

theorem Reshaped.trans {last : Heap} {touched : List U64} (first : Reshaped heap next touched)
    (second : Reshaped next last touched) : Reshaped heap last touched :=
  ⟨fun q => (second.range q).trans (first.range q), fun q => (second.list q).trans (first.list q),
    fun q outside => (second.other q outside).trans (first.other q outside)⟩

theorem Reshaped.mono {touched more : List U64} (reshaped : Reshaped heap next touched)
    (within : ∀ address ∈ touched, address ∈ more) : Reshaped heap next more :=
  ⟨reshaped.range, reshaped.list,
    fun q outside => reshaped.other q (fun member => outside (within q member))⟩

theorem Reshaped.same {touched : List U64} (reshaped : Reshaped heap next touched)
    (address : U64) (outside : address ∉ touched) : SameNode heap next address := by
  rw [SameNode, reshaped.other address outside]
  exact ⟨rfl, rfl⟩

theorem SameNode.trans {last : Heap} {address : U64} (first : SameNode heap next address)
    (second : SameNode next last address) : SameNode heap last address :=
  ⟨second.1.trans first.1, second.2.trans first.2⟩

theorem SameNode.color {address : U64} (same : SameNode heap next address) :
    colorOf next address = colorOf heap address := by
  simp only [colorOf, same.2]

theorem SameNode.child {address : U64} (same : SameNode heap next address)
    (direction : RBDirection) :
    childOf next address direction = childOf heap address direction := by
  cases direction <;> simp only [childOf, same.2]

theorem reshaped_setColorWord (heap : Heap) (node : U64) (color : RBColor) :
    Reshaped heap (setColorWord heap node color) [node] :=
  ⟨fun q => setColorWord_range heap node q color, fun q => setColorWord_list heap node q color,
    fun q outside => setColorWord_other heap node q color (by simpa using outside)⟩

theorem reshaped_setChildWord (heap : Heap) (node child : U64) (direction : RBDirection) :
    Reshaped heap (setChildWord heap node direction child) [node] :=
  ⟨fun q => setChildWord_range heap node q child direction,
    fun q => setChildWord_list heap node q child direction,
    fun q outside => setChildWord_other heap node q child direction (by simpa using outside)⟩

@[simp] theorem addresses_nil : addresses .nil = [] := rfl

theorem addresses_mk_perm (d : Direction) (c : Color) (near far : ColorTree Cell) (cell : Cell) :
    (addresses (mk d c near cell far)).Perm
      (cell.address :: (addresses near ++ addresses far)) := by
  cases d with
  | left => simp [addresses, mk, ColorTree.inorder, List.perm_middle]
  | right =>
      simp only [addresses, mk, ColorTree.inorder, List.map_append, List.map_cons]
      exact List.perm_middle.trans (List.Perm.cons _ List.perm_append_comm)

theorem mem_addresses_mk (d : Direction) (c : Color) (near far : ColorTree Cell) (cell : Cell)
    (address : U64) : address ∈ addresses (mk d c near cell far) ↔
      address = cell.address ∨ address ∈ addresses near ∨ address ∈ addresses far := by
  rw [(addresses_mk_perm d c near far cell).mem_iff]
  simp

theorem nodup_addresses_mk (d : Direction) (c : Color) (near far : ColorTree Cell) (cell : Cell) :
    (addresses (mk d c near cell far)).Nodup ↔
      cell.address ∉ addresses near ∧ cell.address ∉ addresses far ∧
        (addresses near).Nodup ∧ (addresses far).Nodup ∧
        (addresses near).Disjoint (addresses far) := by
  rw [(addresses_mk_perm d c near far cell).nodup_iff, List.nodup_cons, List.nodup_append']
  simp [and_assoc]

theorem addresses_of_inorder {t s : ColorTree Cell} (same : t.inorder = s.inorder) :
    addresses t = addresses s := by rw [addresses, addresses, same]

@[simp] theorem rootAddress_nil : rootAddress L .nil = L.nodeNil := rfl

theorem rootAddress_node (c : Color) (left right : ColorTree Cell) (cell : Cell) :
    rootAddress L (.node c left cell right) = cell.address := rfl

@[simp] theorem rootAddress_mk (d : Direction) (c : Color) (near far : ColorTree Cell)
    (cell : Cell) :
    rootAddress L (mk d c near cell far) = cell.address := by cases d <;> rfl

theorem represents_mk (d : Direction) (c : Color) (near far : ColorTree Cell) (cell : Cell) :
    Represents L heap (mk d c near cell far) ↔
      (IsNode L cell.address ∧ (heap cell.address).range = cell.range ∧
        colorOf heap cell.address = c ∧
        childOf heap cell.address d = rootAddress L near ∧
        childOf heap cell.address d.flip = rootAddress L far) ∧
      Represents L heap near ∧ Represents L heap far := by
  cases d
  · rfl
  · simp only [mk, Represents, Direction.flip]
    tauto

theorem represents_congr (t : ColorTree Cell)
    (same : ∀ address ∈ addresses t, SameNode heap next address)
    (rep : Represents L heap t) : Represents L next t := by
  induction t with
  | nil => trivial
  | node c left cell right ihl ihr =>
      have member := mem_addresses_mk .left c left right cell
      have here := same _ ((member _).mpr (Or.inl rfl))
      obtain ⟨⟨node, range, color, near, far⟩, repLeft, repRight⟩ := rep
      refine ⟨⟨node, here.1.trans range, here.color.trans color, (here.child _).trans near,
        (here.child _).trans far⟩, ihl ?_ repLeft, ihr ?_ repRight⟩
      · exact fun q inside => same q ((member q).mpr (Or.inr (Or.inl inside)))
      · exact fun q inside => same q ((member q).mpr (Or.inr (Or.inr inside)))

/-- A heap and a root determine the tree they spell out. -/
theorem represents_unique (t s : ColorTree Cell) (first : Represents L heap t)
    (second : Represents L heap s) (root : rootAddress L t = rootAddress L s) : t = s := by
  induction t generalizing s with
  | nil =>
      cases s with
      | nil => rfl
      | node c left cell right => exact absurd root.symm second.1.1.2
  | node c left cell right ihl ihr =>
      cases s with
      | nil => exact absurd root first.1.1.2
      | node e left' cell' right' =>
          obtain ⟨⟨_, range, color, near, far⟩, repLeft, repRight⟩ := first
          obtain ⟨⟨_, range', color', near', far'⟩, repLeft', repRight'⟩ := second
          obtain ⟨address, held⟩ := cell
          obtain ⟨address', held'⟩ := cell'
          simp only [rootAddress] at root
          subst root
          simp only at range range' color color' near near' far far'
          rw [ihl left' repLeft repLeft' (near.symm.trans near'),
            ihr right' repRight repRight' (far.symm.trans far'),
            ← range, ← range', ← color, ← color']

theorem represents_isNode (t : ColorTree Cell) (rep : Represents L heap t) :
    ∀ address ∈ addresses t, IsNode L address := by
  induction t with
  | nil => simp
  | node c left cell right ihl ihr =>
      intro address member
      rcases (mem_addresses_mk .left c left right cell address).mp member with rfl | inside | inside
      · exact rep.1.1
      · exact ihl rep.2.1 address inside
      · exact ihr rep.2.2 address inside

theorem represents_child (t : ColorTree Cell) (d : Direction) (rep : Represents L heap t) :
    Represents L heap (t.child d) := by
  cases t with
  | nil => cases d <;> trivial
  | node c left cell right => cases d <;> simp only [ColorTree.child, rep.2]

theorem rootAddress_valid (t : ColorTree Cell) (rep : Represents L heap t) :
    nodeValid (rootAddress L t) = true := by
  cases t with
  | nil => exact L.nodeNil_valid
  | node c left cell right => exact rep.1.1.1

theorem rootAddress_isNode (t : ColorTree Cell) (rep : Represents L heap t) (nonempty : t ≠ .nil) :
    IsNode L (rootAddress L t) := by
  cases t with
  | nil => exact absurd rfl nonempty
  | node c left cell right => exact rep.1.1

theorem rootAddress_mem (t : ColorTree Cell) (nonempty : t ≠ .nil) :
    rootAddress L t ∈ addresses t := by
  cases t with
  | nil => exact absurd rfl nonempty
  | node c left cell right => simp [rootAddress, addresses, ColorTree.inorder]

theorem nodeIsNil_eq {node : U64} (valid : nodeValid node = true) :
    nodeIsNil L node = .ok (decide (node = L.nodeNil)) := by
  simp [nodeIsNil, valid]

theorem nodeIsNil_nil : nodeIsNil L L.nodeNil = .ok true := by
  simp [nodeIsNil, L.nodeNil_valid]

theorem IsNode.nodeIsNil {node : U64} (isNode : IsNode L node) :
    nodeIsNil L node = .ok false := by
  simp [nodeIsNil_eq isNode.1, isNode.2]

theorem IsNode.assertNotNil {node : U64} (isNode : IsNode L node) :
    assertNotNil L node = .ok () := by
  simp [Drastic.assertNotNil, isNode.nodeIsNil]

theorem IsNode.nodeGetColor {node : U64} (isNode : IsNode L node) :
    nodeGetColor L heap node = .ok (colorOf heap node) := by
  simp [Drastic.nodeGetColor, isNode.1, isNode.assertNotNil]

theorem IsNode.nodeSetColor {node : U64} (isNode : IsNode L node) (color : RBColor) :
    nodeSetColor L heap node color = .ok (setColorWord heap node color) := by
  simp [Drastic.nodeSetColor, isNode.1, isNode.assertNotNil]

theorem IsNode.nodeGetChild {node : U64} (isNode : IsNode L node) (direction : RBDirection)
    (valid : nodeValid (childOf heap node direction) = true) :
    nodeGetChild L heap node direction = .ok (childOf heap node direction) := by
  simp [Drastic.nodeGetChild, isNode.1, isNode.assertNotNil, valid]

theorem IsNode.nodeSetChild {node child : U64} (isNode : IsNode L node)
    (direction : RBDirection) (valid : nodeValid child = true) :
    nodeSetChild L heap node direction child = .ok (setChildWord heap node direction child) := by
  simp [Drastic.nodeSetChild, isNode.1, isNode.assertNotNil, valid]

theorem Represents.nodeIsNil {t : ColorTree Cell} (rep : Represents L heap t) :
    nodeIsNil L (rootAddress L t) = .ok t.isNil := by
  cases t with
  | nil => exact nodeIsNil_nil
  | node c left cell right => exact rep.1.1.nodeIsNil

theorem Represents.nodeGetColor {t : ColorTree Cell} (rep : Represents L heap t)
    (nonempty : t ≠ .nil) : nodeGetColor L heap (rootAddress L t) = .ok t.color := by
  rw [(rootAddress_isNode t rep nonempty).nodeGetColor]
  cases t with
  | nil => exact absurd rfl nonempty
  | node c left cell right => rw [rootAddress, rep.1.2.2.1, ColorTree.color]

theorem Represents.childOf {t : ColorTree Cell} (rep : Represents L heap t) (nonempty : t ≠ .nil)
    (d : Direction) : childOf heap (rootAddress L t) d = rootAddress L (t.child d) := by
  cases t with
  | nil => exact absurd rfl nonempty
  | node c left cell right =>
      cases d
      · exact rep.1.2.2.2.1
      · exact rep.1.2.2.2.2

theorem Represents.nodeGetChild {t : ColorTree Cell} (rep : Represents L heap t)
    (nonempty : t ≠ .nil) (d : Direction) :
    nodeGetChild L heap (rootAddress L t) d = .ok (rootAddress L (t.child d)) := by
  have word := rep.childOf nonempty d
  rw [(rootAddress_isNode t rep nonempty).nodeGetChild, word]
  rw [word]
  exact rootAddress_valid _ (represents_child t d rep)

theorem Represents.nodeHasChild {t : ColorTree Cell} (rep : Represents L heap t)
    (nonempty : t ≠ .nil) (d : Direction) :
    nodeHasChild L heap (rootAddress L t) d = .ok (!(t.child d).isNil) := by
  simp [Drastic.nodeHasChild, (rootAddress_isNode t rep nonempty).assertNotNil,
    rep.nodeGetChild nonempty d, (represents_child t d rep).nodeIsNil]

theorem Represents.nodeRed {t : ColorTree Cell} (rep : Represents L heap t) :
    nodeRed L heap (rootAddress L t) = .ok t.isRed := by
  cases t with
  | nil => simp [Drastic.nodeRed, nodeIsNil_nil]
  | node c left cell right =>
      have color := rep.nodeGetColor (by simp)
      simp [Drastic.nodeRed, rep.nodeIsNil, ColorTree.isNil, color, ColorTree.isRed]

theorem Represents.nodeChildRed {t : ColorTree Cell} (rep : Represents L heap t)
    (nonempty : t ≠ .nil) (d : Direction) :
    nodeChildRed L heap (rootAddress L t) d = .ok (t.child d).isRed := by
  simp [Drastic.nodeChildRed, (rootAddress_isNode t rep nonempty).assertNotNil,
    rep.nodeGetChild nonempty d, (represents_child t d rep).nodeRed]

end Drastic
