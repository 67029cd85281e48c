import Mathlib.Logic.Function.Basic
import Drastic.Library.RedBlack.Tree
import Drastic.RangeTree.Range

namespace Drastic

open Library.RedBlack (Direction Color)

abbrev RBDirection := Direction
abbrev RBColor := Color

def rbDirectionFlip (direction : RBDirection) : RBDirection := direction.flip
def rbColorFlip (color : RBColor) : RBColor := color.flip

structure Node where
  range : TestRange
  list : RBDirection → U64
  children : RBDirection → U64

def Node.zero : Node := ⟨⟨0, 0⟩, fun _ => 0, fun _ => 0⟩

/-- The nodes by address. Chunk headers and the tree's own words are kept apart,
as the C types keep them. -/
abbrev Heap := U64 → Node

def nodeGet (node : U64) : U64 := node &&& ~~~1#64

def nodePtrMask : U64 := ~~~1#64

def nodeValid (node : U64) : Bool := node ≠ 0#64 && nodeGet node = node

/-- The addresses of the two nodes that exist outside every page: the shared
`node_nil` and the list head `&tree->list`. -/
structure Layout where
  nodeNil : U64
  list : U64
  nodeNil_valid : nodeValid nodeNil = true
  list_valid : nodeValid list = true
  list_ne_nodeNil : list ≠ nodeNil

def colorWord : RBColor → U64
  | .black => 0#64
  | .red => 1#64

def wordColor (word : U64) : RBColor := if word &&& 1#64 = 0#64 then .black else .red

/-- What `node_get_color` and `node_get_child` read once their assertions hold. -/
def colorOf (heap : Heap) (node : U64) : RBColor := wordColor ((heap node).children .left)

def childOf (heap : Heap) (node : U64) (direction : RBDirection) : U64 :=
  match direction with
  | .left => nodeGet ((heap node).children .left)
  | .right => (heap node).children .right

/-- What `node_set_color` and `node_set_child` write once their assertions hold. -/
def setColorWord (heap : Heap) (node : U64) (color : RBColor) : Heap :=
  Function.update heap node
    { heap node with
      children := Function.update (heap node).children .left
        (((heap node).children .left &&& nodePtrMask) ||| colorWord color) }

def setChildWord (heap : Heap) (node : U64) (direction : RBDirection) (child : U64) : Heap :=
  Function.update heap node
    { heap node with
      children := Function.update (heap node).children direction
        (match direction with
        | .left => child ||| colorWord (colorOf heap node)
        | .right => child) }

section

variable (L : Layout)

def nodeIsNil (node : U64) : Exec Bool := do
  kassert (nodeValid node) "node_valid(node)"
  return node = L.nodeNil

def assertNotNil (node : U64) : Exec Unit := do
  kassert (!(← nodeIsNil L node)) "!node_is_nil(node)"

def nodeGetColor (heap : Heap) (node : U64) : Exec RBColor := do
  kassert (nodeValid node) "node_valid(node)"
  assertNotNil L node
  return colorOf heap node

def nodeSetColor (heap : Heap) (node : U64) (color : RBColor) : Exec Heap := do
  kassert (nodeValid node) "node_valid(node)"
  assertNotNil L node
  return setColorWord heap node color

def nodeGetChild (heap : Heap) (node : U64) (direction : RBDirection) : Exec U64 := do
  kassert (nodeValid node) "node_valid(node)"
  assertNotNil L node
  let child := childOf heap node direction
  kassert (nodeValid child) "node_valid(child)"
  return child

def nodeSetChild (heap : Heap) (node : U64) (direction : RBDirection) (child : U64) :
    Exec Heap := do
  kassert (nodeValid node) "node_valid(node)"
  kassert (nodeValid child) "node_valid(child)"
  assertNotNil L node
  return setChildWord heap node direction child

def nodeHasChild (heap : Heap) (node : U64) (direction : RBDirection) : Exec Bool := do
  assertNotNil L node
  let child ← nodeGetChild L heap node direction
  return !(← nodeIsNil L child)

def nodeRed (heap : Heap) (node : U64) : Exec Bool := do
  if ← nodeIsNil L node then return false
  return (← nodeGetColor L heap node) = .red

def nodeChildRed (heap : Heap) (node : U64) (direction : RBDirection) : Exec Bool := do
  assertNotNil L node
  nodeRed L heap (← nodeGetChild L heap node direction)

def nodeFlipUnlessNil (heap : Heap) (node : U64) : Exec Heap := do
  if ← nodeIsNil L node then return heap
  nodeSetColor L heap node (rbColorFlip (← nodeGetColor L heap node))

def nodeColorFlip (heap : Heap) (node : U64) : Exec Heap := do
  assertNotNil L node
  let heap ← nodeSetColor L heap node (rbColorFlip (← nodeGetColor L heap node))
  let left ← nodeGetChild L heap node .left
  let heap ← nodeFlipUnlessNil L heap left
  let right ← nodeGetChild L heap node .right
  nodeFlipUnlessNil L heap right

def nodeRotate (heap : Heap) (node : U64) (direction : RBDirection) : Exec (U64 × Heap) := do
  assertNotNil L node
  let temp ← nodeGetChild L heap node (rbDirectionFlip direction)
  kassert (!(← nodeIsNil L temp)) "!node_is_nil(temp)"
  let heap ← nodeSetChild L heap node (rbDirectionFlip direction)
    (← nodeGetChild L heap temp direction)
  let heap ← nodeSetChild L heap temp direction node
  let heap ← nodeSetColor L heap temp (← nodeGetColor L heap node)
  let heap ← nodeSetColor L heap node .red
  kassert (nodeValid temp) "node_valid(temp)"
  return (temp, heap)

def nodeDoubleRotate (heap : Heap) (node : U64) (direction : RBDirection) :
    Exec (U64 × Heap) := do
  assertNotNil L node
  let pivot ← nodeGetChild L heap node (rbDirectionFlip direction)
  kassert (!(← nodeIsNil L pivot))
    "!node_is_nil(node_get_child(node, rb_direction_flip(direction)))"
  let (turned, heap) ← nodeRotate L heap pivot (rbDirectionFlip direction)
  let heap ← nodeSetChild L heap node (rbDirectionFlip direction) turned
  let (result, heap) ← nodeRotate L heap node direction
  kassert (nodeValid result) "node_valid(result)"
  return (result, heap)

def setListLink (heap : Heap) (node : U64) (direction : RBDirection) (target : U64) : Heap :=
  Function.update heap node
    { heap node with list := Function.update (heap node).list direction target }

def nodeInsert (heap : Heap) (node anker : U64) (direction : RBDirection) : Exec Heap := do
  kassert (nodeValid node) "node_valid(node)"
  assertNotNil L node
  kassert (nodeValid anker) "node_valid(anker)"
  kassert (!(← nodeIsNil L anker)) "!node_is_nil(anker)"
  let flipped := rbDirectionFlip direction
  let heap := setListLink heap node direction ((heap anker).list direction)
  let heap := setListLink heap node flipped anker
  let heap := setListLink heap anker direction node
  let heap := setListLink heap ((heap node).list direction) flipped node
  return heap

def nodeRemoveFromList (heap : Heap) (node : U64) : Exec Heap := do
  kassert (nodeValid node) "node_valid(node)"
  assertNotNil L node
  let heap := setListLink heap ((heap node).list .left) .right ((heap node).list .right)
  let heap := setListLink heap ((heap node).list .right) .left ((heap node).list .left)
  return heap

end

end Drastic
