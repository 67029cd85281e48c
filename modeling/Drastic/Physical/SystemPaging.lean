import Drastic.Physical.Allocator

namespace Drastic

/-! The allocator lists of `system_paging.c`. Output is left out. -/

def kb (n : Nat) : U64 := BitVec.ofNat 64 n * 1024#64
def mb (n : Nat) : U64 := kb n * 1024#64
def gb (n : Nat) : U64 := mb n * 1024#64

structure LimineMemmapEntry where
  base : U64
  length : U64
  type : U64
  deriving DecidableEq, Repr

def limineMemmapUsable : U64 := 0#64

inductive SystemPhysicalPageKind where
  | normal
  | mb16
  | gb4
  deriving DecidableEq, Repr

inductive Link where
  | next
  | next16mb
  | next4gb
  deriving DecidableEq, Repr

def SystemPhysicalAllocator.link (pa : SystemPhysicalAllocator) : Link → AllocatorPointer
  | .next => pa.next
  | .next16mb => pa.next16mb
  | .next4gb => pa.next4gb

def SystemPhysicalAllocator.setLink (pa : SystemPhysicalAllocator) (target : AllocatorPointer) :
    Link → SystemPhysicalAllocator
  | .next => { pa with next := target }
  | .next16mb => { pa with next16mb := target }
  | .next4gb => { pa with next4gb := target }

/-- `system_paging` with the memory of the allocators; the sentinel and the dummy
head are allocators of that memory as well. -/
structure SystemPaging where
  allocators : AllocatorPointer → SystemPhysicalAllocator
  first : AllocatorPointer
  first16mb : AllocatorPointer
  first4gb : AllocatorPointer
  last : AllocatorPointer
  last16mb : AllocatorPointer
  last4gb : AllocatorPointer
  firstNon16mb : AllocatorPointer

def loadAllocator (paging : SystemPaging) (pa : AllocatorPointer) :
    Exec SystemPhysicalAllocator :=
  if pa = .null then .error .nullDereference else .ok (paging.allocators pa)

def storeAllocator (paging : SystemPaging) (pa : AllocatorPointer)
    (value : SystemPhysicalAllocator) : SystemPaging :=
  { paging with allocators := Function.update paging.allocators pa value }

def systemPagingPaIsSentinel (paging : SystemPaging) (pa : AllocatorPointer) : Exec Bool := do
  return pa = (← loadAllocator paging pa).next

/-- One loop of `system_paging_physical_alloc`, along `link` from `current`. -/
def allocAlong (link : Link) : Nat → AllocatorPointer → SystemPaging →
    Exec (Option Uintptr × SystemPaging)
  | 0, _, _ => .error .recursionDepth
  | fuel + 1, current, paging => do
    if ← systemPagingPaIsSentinel paging current then return (none, paging)
    let (result, pa) ← systemPaAlloc (← loadAllocator paging current)
    let paging := storeAllocator paging current pa
    match result with
    | some address => return (some address, paging)
    | none => allocAlong link fuel ((← loadAllocator paging current).link link) paging

/-- `fuel` bounds the loops; any number above the number of allocators will do. -/
def systemPagingPhysicalAlloc (fuel : Nat) (kind : SystemPhysicalPageKind)
    (paging : SystemPaging) : Exec (Option Uintptr × SystemPaging) :=
  match kind with
  | .normal => do
      let (result, paging) ← allocAlong .next fuel paging.firstNon16mb paging
      match result with
      | some address => return (some address, paging)
      | none => allocAlong .next16mb fuel paging.first16mb paging
  | .mb16 => allocAlong .next16mb fuel paging.first16mb paging
  | .gb4 => allocAlong .next4gb fuel paging.first4gb paging

def invalidFreeText : String := "PAGING: invalid physical page free"

def freeAlong : Nat → AllocatorPointer → SystemPaging → Uintptr → Exec SystemPaging
  | 0, _, _, _ => .error .recursionDepth
  | fuel + 1, current, paging, address => do
    if ← systemPagingPaIsSentinel paging current then .error (.kpanic invalidFreeText)
    else
      let pa ← loadAllocator paging current
      if inRange pa address then
        return storeAllocator paging current (← systemPaFree pa address)
      freeAlong fuel pa.next paging address

def systemPagingPhysicalFree (fuel : Nat) (paging : SystemPaging) (address : Uintptr) :
    Exec SystemPaging :=
  freeAlong fuel paging.first paging address

structure SetupState where
  paging : SystemPaging
  last : AllocatorPointer
  last16mb : AllocatorPointer
  last4gb : AllocatorPointer
  firstNon16mb : AllocatorPointer

/-- `SL_APPEND_BASE(last, link, current)`; the new `last` is `current`. -/
def slAppendBase (paging : SystemPaging) (last : AllocatorPointer) (link : Link)
    (current : AllocatorPointer) : Exec SystemPaging := do
  let pa ← loadAllocator paging last
  return storeAllocator paging last (pa.setLink current link)

def endsBelow (entry : LimineMemmapEntry) (limit : U64) : Bool :=
  entry.base < limit && entry.base + entry.length < limit

def addTo16mb (s : SetupState) (entry : LimineMemmapEntry) (current : AllocatorPointer) :
    Exec SetupState := do
  if endsBelow entry (mb 16) then
    let paging ← slAppendBase s.paging s.last16mb .next16mb current
    return { s with paging := paging, last16mb := current }
  else if ← systemPagingPaIsSentinel s.paging s.firstNon16mb then
    return { s with firstNon16mb := current }
  else return s

def addTo4gb (s : SetupState) (entry : LimineMemmapEntry) (current : AllocatorPointer) :
    Exec SetupState := do
  if endsBelow entry (gb 4) then
    let paging ← slAppendBase s.paging s.last4gb .next4gb current
    return { s with paging := paging, last4gb := current }
  else return s

/-- The three links are set to the sentinel; for the sentinel itself they then point
to itself. -/
def endLinks (pa : SystemPhysicalAllocator) : SystemPhysicalAllocator :=
  { pa with next := .sentinel, next16mb := .sentinel, next4gb := .sentinel }

/-- The branch for a USABLE entry longer than a page. `contents` is what the memory
of a region held before. -/
def systemPagingAddRegion (hhdmOffset : U64) (contents : Uintptr → RegionContents)
    (s : SetupState) (entry : LimineMemmapEntry) : Exec SetupState := do
  let requiredLength ← systemPaCalculateRequiredSize (entry.length.toInt.tdiv systemPageSize)
  let requiredPages := requiredLength.tdiv systemPageSize + 1
  kassert (entry.length ≥ BitVec.ofInt 64 requiredLength)
    "entry->length >= (U64)required_length"
  let address := entry.base + hhdmOffset
  let pa ← systemPaInit (contents address) entry.base requiredPages
    (entry.length / BitVec.ofNat 64 systemPageSize).toInt
  let current := AllocatorPointer.region address
  let paging := storeAllocator s.paging current (endLinks pa)
  let paging ← slAppendBase paging s.last .next current
  let s ← addTo16mb { s with paging := paging, last := current } entry current
  addTo4gb s entry current

def systemPagingSetupEntry (hhdmOffset : U64) (contents : Uintptr → RegionContents)
    (s : SetupState) (entry : LimineMemmapEntry) : Exec SetupState :=
  if entry.type = limineMemmapUsable then
    if entry.length ≤ BitVec.ofNat 64 systemPageSize then .ok s
    else systemPagingAddRegion hhdmOffset contents s entry
  else .ok s

def SystemPhysicalAllocator.zero : SystemPhysicalAllocator where
  next := .null
  next16mb := .null
  next4gb := .null
  size := 0
  stackTop := 0
  pagesBitmap := fun _ => 0#64
  pagesStack := fun _ => 0#32
  addressBase := 0

/-- `system_paging` and the memory of the allocators as the kernel is loaded. -/
def SystemPaging.zero : SystemPaging where
  allocators := fun _ => .zero
  first := .null
  first16mb := .null
  first4gb := .null
  last := .null
  last16mb := .null
  last4gb := .null
  firstNon16mb := .null

/-- `system_paging_setup` up to the replacement of the page table, which allocates
pages but writes no list. -/
def systemPagingSetup (hhdmOffset : U64) (contents : Uintptr → RegionContents)
    (response : Option (List LimineMemmapEntry)) (paging : SystemPaging) :
    Exec SystemPaging := do
  kassert response.isSome "system_paging_memmap_request.response != NULL"
  let paging := storeAllocator paging .base .zero
  let paging := storeAllocator paging .sentinel (endLinks (paging.allocators .sentinel))
  let s ← (response.getD []).foldlM (systemPagingSetupEntry hhdmOffset contents)
    ⟨paging, .base, .base, .base, .sentinel⟩
  let base := s.paging.allocators .base
  return { s.paging with
    first := base.next
    first16mb := base.next16mb
    first4gb := base.next4gb
    last := s.last
    last16mb := s.last16mb
    last4gb := s.last4gb
    firstNon16mb := s.firstNon16mb }

end Drastic
