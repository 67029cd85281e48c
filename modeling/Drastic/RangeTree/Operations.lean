import Drastic.RangeTree.Pool

namespace Drastic

open Library.RedBlack (Direction Color)

inductive RBInsertStatus where
  | ok
  | overlap
  | oom
  deriving DecidableEq, Repr

structure RBInsertResult where
  node : U64
  status : RBInsertStatus
  deriving DecidableEq, Repr

inductive RBDeleteStatus where
  | ok
  | fail
  deriving DecidableEq, Repr

structure RBDeleteResult where
  node : U64
  status : RBDeleteStatus
  deriving DecidableEq, Repr

def comparisonDirection (comparison : Int) : RBDirection :=
  if comparison > 0 then .right else .left

section

variable (L : Layout)

def rbInsertTurn (heap : Heap) (node : U64) (direction : RBDirection) : Exec (U64 × Heap) := do
  assertNotNil L node
  if ← nodeChildRed L heap node direction then
    let dirChild ← nodeGetChild L heap node direction
    if ← nodeChildRed L heap node (rbDirectionFlip direction) then
      if ← execOr (nodeChildRed L heap dirChild direction)
          (nodeChildRed L heap dirChild (rbDirectionFlip direction)) then
        return (node, ← nodeColorFlip L heap node)
      return (node, heap)
    if ← nodeChildRed L heap dirChild direction then
      nodeRotate L heap node (rbDirectionFlip direction)
    else if ← nodeChildRed L heap dirChild (rbDirectionFlip direction) then
      nodeDoubleRotate L heap node (rbDirectionFlip direction)
    else return (node, heap)
  else return (node, heap)

def rbInsertFixUp (heap : Heap) (node : U64) (direction : RBDirection) : Exec (U64 × Heap) := do
  let (node, heap) ← rbInsertTurn L heap node direction
  kassert (nodeValid node) "node_valid(node)"
  return (node, heap)

def rbInsertHelper : Nat → RBState → U64 → TestRange → U64 → RBDirection →
    Exec (RBInsertResult × RBState)
  | 0, _, _, _, _, _ => .error .recursionDepth
  | fuel + 1, s, node, range, listAnker, listDirection => do
    kassert (rbTreeValid s) "rb_tree_valid(tree)"
    kassert (nodeValid node) "node_valid(node)"
    kassert (testRangeValid range) "test_range_valid(range)"
    kassert (nodeValid listAnker) "node_valid(list_anker)"
    if ← nodeIsNil L node then
      let (newNode, s) ← rbTreeNodeMake L s range .red
      if newNode = 0#64 then return (⟨L.nodeNil, .oom⟩, s)
      let heap ← nodeInsert L s.heap newNode listAnker listDirection
      kassert (nodeValid newNode) "node_valid(result.node)"
      return (⟨newNode, .ok⟩, { s with heap := heap })
    if ← testRangeOverlap range (s.heap node).range then
      kassert (nodeValid node) "node_valid(result.node)"
      return (⟨node, .overlap⟩, s)
    let comparison := testRangeCompare range (s.heap node).range
    kassert (comparison ≠ 0) "comparison != 0"
    let direction := comparisonDirection comparison
    let child ← nodeGetChild L s.heap node direction
    let (result, s) ← rbInsertHelper fuel s child range node direction
    if result.status = .ok then
      let heap ← nodeSetChild L s.heap node direction result.node
      let (node, heap) ← rbInsertFixUp L heap node direction
      kassert (nodeValid node) "node_valid(result.node)"
      return (⟨node, .ok⟩, { s with heap := heap })
    kassert (nodeValid node) "node_valid(result.node)"
    return (⟨node, result.status⟩, s)

def rbInsert (s : RBState) (range : TestRange) : Exec (RBInsertStatus × RBState) := do
  kassert (rbTreeValid s) "rb_tree_valid(tree)"
  kassert (testRangeValid range) "test_range_valid(range)"
  let (result, s) ← rbInsertHelper L (recursionBudget s) s s.tree.root range L.list .right
  let s := { s with tree := { s.tree with root := result.node } }
  if result.status = .ok then
    let heap ← nodeSetColor L s.heap s.tree.root .black
    return (result.status, { s with heap := heap })
  return (result.status, s)

def rbBlackenChildren (heap : Heap) (node : U64) : Exec Heap := do
  let heap ← nodeSetColor L heap (← nodeGetChild L heap node .left) .black
  nodeSetColor L heap (← nodeGetChild L heap node .right) .black

/-- The rotations of `rb_delete_fix_up` when `sibling` has a red child, with the
colours patched afterwards. -/
def rbDeleteTurn (heap : Heap) (parent sibling : U64) (direction : RBDirection) :
    Exec (U64 × Heap) := do
  let initcolParent ← nodeGetColor L heap parent
  let (turned, heap) ←
    if ← nodeChildRed L heap sibling (rbDirectionFlip direction) then
      nodeRotate L heap parent direction
    else nodeDoubleRotate L heap parent direction
  let heap ← nodeSetColor L heap turned initcolParent
  let heap ← rbBlackenChildren L heap turned
  return (turned, heap)

/-- The part of `rb_delete_fix_up` after the red-sibling reduction. `node` is the
root to return, `parent` the node whose side `direction` is short; they differ
exactly when the reduction took place. -/
def rbDeleteFixBlack (heap : Heap) (node parent : U64) (direction : RBDirection) :
    Exec (RBDeleteResult × Heap) := do
  let sibling ← nodeGetChild L heap parent (rbDirectionFlip direction)
  if ← nodeIsNil L sibling then return (⟨node, .fail⟩, heap)
  if !(← execOr (nodeChildRed L heap sibling .left) (nodeChildRed L heap sibling .right)) then
    let status := if ← nodeRed L heap parent then RBDeleteStatus.ok else .fail
    let heap ← nodeSetColor L heap parent .black
    let heap ← nodeSetColor L heap sibling .red
    return (⟨node, status⟩, heap)
  let (turned, heap) ← rbDeleteTurn L heap parent sibling direction
  if node ≠ parent then
    return (⟨node, .ok⟩, ← nodeSetChild L heap node direction turned)
  return (⟨turned, .ok⟩, heap)

def rbDeleteFixUp (heap : Heap) (node : U64) (direction : RBDirection) :
    Exec (RBDeleteResult × Heap) := do
  kassert (nodeValid node) "node_valid(node)"
  assertNotNil L node
  let sibling ← nodeGetChild L heap node (rbDirectionFlip direction)
  let (top, heap) ←
    if ← nodeRed L heap sibling then nodeRotate L heap node direction else pure (node, heap)
  let (result, heap) ← rbDeleteFixBlack L heap top node direction
  kassert (nodeValid result.node) "node_valid(result.node)"
  return (result, heap)

def rightMost : Nat → Heap → U64 → Exec U64
  | 0, _, _ => .error .recursionDepth
  | fuel + 1, heap, temp => do
    if ← nodeHasChild L heap temp .right then
      rightMost fuel heap (← nodeGetChild L heap temp .right)
    else return temp

def rbDeleteTemp (heap : Heap) (node : U64) : Exec U64 := do
  let temp ←
    if ← nodeHasChild L heap node .left then nodeGetChild L heap node .left
    else pure L.nodeNil
  if ← nodeHasChild L heap node .right then nodeGetChild L heap node .right
  else return temp

/-- The status of the removal case, with the recolouring that goes with it. -/
def rbDeleteRecolor (heap : Heap) (node temp : U64) : Exec (RBDeleteStatus × Heap) := do
  if ← nodeRed L heap node then return (.ok, heap)
  if ← nodeRed L heap temp then return (.ok, ← nodeSetColor L heap temp .black)
  return (.fail, heap)

def rbDeleteRemove (s : RBState) (node : U64) : Exec (RBDeleteResult × RBState) := do
  let temp ← rbDeleteTemp L s.heap node
  let (status, heap) ← rbDeleteRecolor L s.heap node temp
  let heap ← nodeRemoveFromList L heap node
  let s ← rbTreeNodeFree L 1 { s with heap := heap } node false
  kassert (nodeValid temp) "node_valid(result.node)"
  return (⟨temp, status⟩, s)

def rbDeleteDescend (recurse : RBState → U64 → TestRange → Exec (RBDeleteResult × RBState))
    (s : RBState) (node : U64) (range : TestRange) : Exec (RBDeleteResult × RBState) := do
  let direction := comparisonDirection (testRangeCompare range (s.heap node).range)
  let (child, s) ← recurse s (← nodeGetChild L s.heap node direction) range
  let heap ← nodeSetChild L s.heap node direction child.node
  if child.status = .ok then
    kassert (nodeValid node) "node_valid(result.node)"
    return (⟨node, .ok⟩, { s with heap := heap })
  let (result, heap) ← rbDeleteFixUp L heap node direction
  kassert (nodeValid result.node) "node_valid(result.node)"
  return (result, { s with heap := heap })

def setRange (heap : Heap) (node : U64) (range : TestRange) : Heap :=
  Function.update heap node { heap node with range := range }

/-- The case of two children: the predecessor's range moves to `node` and is deleted
below it instead. -/
def rbDeletePredecessor (fuel : Nat)
    (recurse : RBState → U64 → TestRange → Exec (RBDeleteResult × RBState))
    (s : RBState) (node : U64) : Exec (RBDeleteResult × RBState) := do
  let temp ← rightMost L fuel s.heap (← nodeGetChild L s.heap node .left)
  kassert ((s.heap temp).list .right = node) "temp->list[RB_RIGHT] == node"
  let range := (s.heap temp).range
  rbDeleteDescend L recurse { s with heap := setRange s.heap node range } node range

def rbDeleteHelper : Nat → RBState → U64 → TestRange → Exec (RBDeleteResult × RBState)
  | 0, _, _, _ => .error .recursionDepth
  | fuel + 1, s, node, range => do
    kassert (rbTreeValid s) "rb_tree_valid(tree)"
    kassert (testRangeValid range) "test_range_valid(range)"
    if ← nodeIsNil L node then
      kassert (nodeValid node) "node_valid(result.node)"
      return (⟨node, .ok⟩, s)
    assertNotNil L node
    if testRangeCompare (s.heap node).range range = 0 then
      if !(← execAnd (nodeHasChild L s.heap node .left) (nodeHasChild L s.heap node .right)) then
        rbDeleteRemove L s node
      else
        rbDeletePredecessor L fuel (rbDeleteHelper fuel) s node
    else rbDeleteDescend L (rbDeleteHelper fuel) s node range

def rbDelete (s : RBState) (range : TestRange) : Exec RBState := do
  kassert (rbTreeValid s) "rb_tree_valid(tree)"
  kassert (testRangeValid range) "test_range_valid(range)"
  let (result, s) ← rbDeleteHelper L (recursionBudget s) s s.tree.root range
  let s := { s with tree := { s.tree with root := result.node } }
  if ← nodeIsNil L s.tree.root then return s
  let heap ← nodeSetColor L s.heap s.tree.root .black
  return { s with heap := heap }

end

end Drastic
