import Drastic.RangeTree.Node

namespace Drastic

/-- The header of a page of nodes; its slots are cells of the heap. -/
structure RBNodes where
  next : U64
  nodeCount : Nat
  deriving DecidableEq, Repr

def pageSize : Nat := 4096
def sizeOfRBNodes : Nat := 32
def sizeOfNode : Nat := 48
def rbNodesMax : Nat := (pageSize - sizeOfRBNodes) / sizeOfNode

def nodeSlot (page : U64) (index : Nat) : U64 :=
  page + BitVec.ofNat 64 (sizeOfRBNodes + sizeOfNode * index)

def pageSlots (page : U64) (count : Nat) : List U64 := (List.range count).map (nodeSlot page)

structure RBTree where
  root : U64
  freeList : U64
  nodes : U64
  currentNode : U64
  deriving DecidableEq, Repr

/-- The tree with the memory it lives in. `supply` lists what the coming calls of
`page_alloc` return (`none` for a failure, and nothing once it is used up);
`requests` counts the calls of `page_alloc`, and `allocated` and `freed` record the
pages handed out and given back. -/
structure RBState where
  heap : Heap
  chunks : U64 → RBNodes
  tree : RBTree
  supply : List (Option U64)
  requests : Nat
  allocated : List U64
  freed : List U64

def zeroPage (page : U64) (s : RBState) : RBState :=
  { s with
    heap := fun node => if node ∈ pageSlots page rbNodesMax then Node.zero else s.heap node
    chunks := Function.update s.chunks page ⟨0, 0⟩ }

def pageAlloc (s : RBState) : U64 × RBState :=
  let s := { s with requests := s.requests + 1 }
  match s.supply with
  | [] => (0#64, s)
  | none :: rest => (0#64, { s with supply := rest })
  | some page :: rest =>
      (page, zeroPage page { s with supply := rest, allocated := s.allocated ++ [page] })

def pageFree (page : U64) (s : RBState) : RBState := { s with freed := s.freed ++ [page] }

def rbNodesCreate (s : RBState) : U64 × RBState := pageAlloc s

def rbTreeValid (s : RBState) : Bool :=
  nodeValid s.tree.root && s.tree.nodes ≠ 0#64 && s.tree.currentNode ≠ 0#64

def resetList (L : Layout) (heap : Heap) : Heap :=
  setListLink (setListLink heap L.list .left L.list) L.list .right L.list

def rbTreeInit (L : Layout) (s : RBState) : Bool × RBState :=
  let s := { s with tree := { s.tree with root := L.nodeNil } }
  let (newNodes, s) := rbNodesCreate s
  if newNodes = 0#64 then (false, s)
  else
    (true,
      { s with
        tree := { s.tree with nodes := newNodes, currentNode := newNodes }
        heap := resetList L s.heap })

/-- The slot `rb_tree_node_make` picks, from the free list, from the current page
or from a new one; zero when no page can be had. -/
def takeSlot (s : RBState) : U64 × RBState :=
  let current := s.tree.currentNode
  if s.tree.freeList ≠ 0#64 then
    let node := s.tree.freeList
    (node,
      { s with
        tree := { s.tree with freeList := (s.heap node).children .right }
        heap := Function.update s.heap node Node.zero })
  else if (s.chunks current).nodeCount < rbNodesMax then
    let count := (s.chunks current).nodeCount + 1
    (nodeSlot current (count - 1),
      { s with
        chunks := Function.update s.chunks current { s.chunks current with nodeCount := count } })
  else
    let (newNodes, s) := rbNodesCreate s
    if newNodes = 0#64 then (0#64, s)
    else
      let chunks := Function.update s.chunks current { s.chunks current with next := newNodes }
      (nodeSlot newNodes 0,
        { s with
          tree := { s.tree with currentNode := newNodes }
          chunks := Function.update chunks newNodes { chunks newNodes with nodeCount := 1 } })

def writeNode (L : Layout) (heap : Heap) (node : U64) (range : TestRange) : Heap :=
  Function.update heap node
    { heap node with range := range, children := fun _ => L.nodeNil }

def rbTreeNodeMake (L : Layout) (s : RBState) (range : TestRange) (color : RBColor) :
    Exec (U64 × RBState) := do
  kassert (rbTreeValid s) "rb_tree_valid(tree)"
  kassert (testRangeValid range) "test_range_valid(range)"
  let (node, s) := takeSlot s
  if node = 0#64 then return (0#64, s)
  kassert (node &&& 7#64 = 0#64) "(((uintptr_t)node) & (sizeof(uintptr_t) - 1)) == 0"
  let heap ← nodeSetColor L (writeNode L s.heap node range) node color
  return (node, { s with heap := heap })

def pushFree (s : RBState) (node : U64) : RBState :=
  { s with
    heap := Function.update s.heap node
      { s.heap node with
        children := Function.update (s.heap node).children .right s.tree.freeList }
    tree := { s.tree with freeList := node } }

def rbTreeNodeFree (L : Layout) : Nat → RBState → U64 → Bool → Exec RBState
  | 0, _, _, _ => .error .recursionDepth
  | fuel + 1, s, node, recurse => do
    kassert (rbTreeValid s) "rb_tree_valid(tree)"
    kassert (nodeValid node) "node_valid(node)"
    if ← nodeIsNil L node then return s
    if recurse then
      let s ← rbTreeNodeFree L fuel s (← nodeGetChild L s.heap node .left) true
      let s ← rbTreeNodeFree L fuel s (← nodeGetChild L s.heap node .right) true
      return pushFree s node
    return pushFree s node

/-- No recursion over the tree goes deeper than the number of slots there are. -/
def recursionBudget (s : RBState) : Nat := s.allocated.length * rbNodesMax + 1

def freePages : Nat → RBState → U64 → Exec RBState
  | 0, _, _ => .error .recursionDepth
  | fuel + 1, s, current =>
      if current = 0#64 then .ok s
      else freePages fuel (pageFree current s) (s.chunks current).next

def RBTree.zero : RBTree := ⟨0, 0, 0, 0⟩

/-- The assignment `*tree = (RB_Tree){ 0 }`; the list head is part of the record. -/
def zeroTree (L : Layout) (s : RBState) : RBState :=
  { s with tree := RBTree.zero, heap := Function.update s.heap L.list Node.zero }

def rbDestroy (L : Layout) (s : RBState) : Exec RBState := do
  if !rbTreeValid s then return zeroTree L s
  let s ← freePages (s.allocated.length + 1) s s.tree.nodes
  return zeroTree L s

def rbClear (L : Layout) (s : RBState) : Exec RBState := do
  kassert (rbTreeValid s) "rb_tree_valid(tree)"
  let s ← rbTreeNodeFree L (recursionBudget s) s s.tree.root true
  return { s with
    tree := { s.tree with root := L.nodeNil }
    heap := resetList L s.heap }

end Drastic
