import Mathlib.Logic.Function.Basic
import Drastic.Base

namespace Drastic

/-! `system_physical_allocator.c`. `Int` is the 64-bit `ptrdiff_t` of the source; no
value below leaves its range. -/

def systemPageSize : Nat := 4096
def u32Max : Int := 2 ^ 32 - 1

/-- Where the links of an allocator point: to NULL, to the sentinel in
`system_paging`, to the dummy head in `system_paging_setup`, or to an allocator at the
start of a region, by its direct-map address. -/
inductive AllocatorPointer where
  | null
  | sentinel
  | base
  | region (address : Uintptr)
  deriving DecidableEq, Repr

/-- The words of the bitmap and of the stack that follow the header are kept here. -/
structure SystemPhysicalAllocator where
  next : AllocatorPointer
  next16mb : AllocatorPointer
  next4gb : AllocatorPointer
  size : Int
  stackTop : Int
  pagesBitmap : Nat → U64
  pagesStack : Nat → U32
  addressBase : Uintptr

structure SystemPaPageIndex where
  bitmapIndex : Int
  bitIndex : Int
  deriving DecidableEq, Repr

def systemPaCalculatePageIndex (pa : SystemPhysicalAllocator) (page : Int) :
    Exec SystemPaPageIndex := do
  kassert (0 ≤ page && page < pa.size) "0 <= page && page < pa->size"
  return ⟨page.tdiv 64, page.tmod 64⟩

structure SystemPaSizeSpecification where
  stackSize : Int
  bitmapSize : Int
  deriving DecidableEq, Repr

def sizeOfAllocator : Int := 64
def sizeOfU32 : Int := 4
def sizeOfU64 : Int := 8

def systemPaCalculateSizeSpecification (pageCount : Int) : Exec SystemPaSizeSpecification := do
  kassert (pageCount ≤ u32Max) "page_count <= U32_MAX"
  return {
    stackSize := pageCount * sizeOfU32
    bitmapSize := (pageCount + (sizeOfU64 * 8 - 1)).tdiv (sizeOfU64 * 8) * sizeOfU64 }

def systemPaCalculateRequiredSize (pageCount : Int) : Exec Int := do
  kassert (pageCount ≤ u32Max) "page_count <= U32_MAX"
  let spec ← systemPaCalculateSizeSpecification pageCount
  return sizeOfAllocator + spec.stackSize + spec.bitmapSize

def pageBit (page : SystemPaPageIndex) : U64 := 1#64 <<< page.bitIndex.toNat

def systemPaSetUsed (pa : SystemPhysicalAllocator) (pageIndex : Int) :
    Exec SystemPhysicalAllocator := do
  let page ← systemPaCalculatePageIndex pa pageIndex
  let word := page.bitmapIndex.toNat
  return { pa with
    pagesBitmap := Function.update pa.pagesBitmap word (pa.pagesBitmap word ||| pageBit page) }

structure RegionContents where
  bitmap : Nat → U64
  stack : Nat → U32

def RegionContents.zero : RegionContents where
  bitmap := fun _ => 0#64
  stack := fun _ => 0#32

structure Area where
  offset : Int
  length : Int
  deriving DecidableEq, Repr

def headerArea : Area := ⟨0, sizeOfAllocator⟩

def bitmapArea (spec : SystemPaSizeSpecification) : Area := ⟨sizeOfAllocator, spec.bitmapSize⟩

def stackArea (spec : SystemPaSizeSpecification) : Area :=
  ⟨sizeOfAllocator + spec.bitmapSize, spec.stackSize⟩

/-- The bytes that `system_pa_init` zeroes. -/
def zeroedArea (metadataPages : Int) : Area := ⟨0, metadataPages * systemPageSize⟩

/-- Elements of `size` bytes of an array that starts `offset` bytes into the region, after an
area at its start was zeroed. -/
def zeroPrefix {w : Nat} (before : Nat → BitVec w) (offset size : Int) (zeroed : Area) :
    Nat → BitVec w :=
  fun index =>
    if offset + size * (index + 1) ≤ zeroed.offset + zeroed.length then 0#w else before index

def pushPages : Nat → U32 → Nat → (Nat → U32) → (Nat → U32) × Nat
  | 0, _, stackIndex, stack => (stack, stackIndex)
  | turns + 1, i, stackIndex, stack =>
      pushPages turns (i + 1#32) (stackIndex + 1) (Function.update stack stackIndex i)

def setUsedFrom : Nat → Int → SystemPhysicalAllocator → Exec SystemPhysicalAllocator
  | 0, _, pa => .ok pa
  | turns + 1, i, pa => do setUsedFrom turns (i + 1) (← systemPaSetUsed pa i)

def systemPaInit (before : RegionContents) (addressBase : Uintptr)
    (metadataPages pageCount : Int) : Exec SystemPhysicalAllocator := do
  kassert (pageCount ≤ u32Max) "page_count <= U32_MAX"
  kassert (0 < pageCount) "0 < page_count"
  kassert (0 < metadataPages) "0 < metadata_pages"
  let zeroed := zeroedArea metadataPages
  let spec ← systemPaCalculateSizeSpecification pageCount
  let bitmap := zeroPrefix before.bitmap (bitmapArea spec).offset sizeOfU64 zeroed
  let stack := zeroPrefix before.stack (stackArea spec).offset sizeOfU32 zeroed
  let first := BitVec.ofInt 32 metadataPages
  let last := BitVec.ofInt 32 pageCount
  let (stack, stackIndex) := pushPages (last.toNat - first.toNat) first 0 stack
  let pa ← setUsedFrom metadataPages.toNat 0 {
    next := .null
    next16mb := .null
    next4gb := .null
    size := pageCount
    stackTop := stackIndex - 1
    pagesBitmap := bitmap
    pagesStack := stack
    addressBase := 0 }
  return { pa with addressBase := addressBase }

/-- The range check of `system_pa_alloc`, `system_pa_is_free` and
`system_paging_physical_free`. -/
def inRange (pa : SystemPhysicalAllocator) (address : Uintptr) : Bool :=
  pa.addressBase ≤ address &&
    address < pa.addressBase + BitVec.ofInt 64 pa.size * BitVec.ofNat 64 systemPageSize

def inRangeText : String :=
  "pa->address_base <= address && " ++
    "address < pa->address_base + ((Uintptr)pa->size * SYSTEM_PAGE_SIZE)"

/-- No address stands for `*ok = false`. The product with the page size is taken in
32 bits, before the cast. -/
def systemPaAlloc (pa : SystemPhysicalAllocator) :
    Exec (Option Uintptr × SystemPhysicalAllocator) := do
  if pa.stackTop < 0 || pa.size ≤ 0 then return (none, pa)
  let offset := pa.pagesStack pa.stackTop.toNat
  let pa ← systemPaSetUsed pa offset.toNat
  let pa := { pa with stackTop := pa.stackTop - 1 }
  let address := (offset * BitVec.ofNat 32 systemPageSize).setWidth 64 + pa.addressBase
  kassert (inRange pa address) inRangeText
  return (some address, pa)

/-- `(Int)(address - pa->address_base) / SYSTEM_PAGE_SIZE`. -/
def pageIndexOf (pa : SystemPhysicalAllocator) (address : Uintptr) : Int :=
  (address - pa.addressBase).toInt.tdiv systemPageSize

def systemPaIsFree (pa : SystemPhysicalAllocator) (address : Uintptr) : Exec Bool := do
  kassert (inRange pa address) inRangeText
  let page ← systemPaCalculatePageIndex pa (pageIndexOf pa address)
  return pa.pagesBitmap page.bitmapIndex.toNat &&& pageBit page = 0#64

def systemPaFree (pa : SystemPhysicalAllocator) (address : Uintptr) :
    Exec SystemPhysicalAllocator := do
  kassert (!(← systemPaIsFree pa address)) "!system_pa_is_free(pa, address)"
  kassert (pa.stackTop + 1 < pa.size) "pa->stack_top+1 < pa->size"
  kassert (pa.stackTop ≥ -1) "pa->stack_top >= -1"
  let pageIndex := pageIndexOf pa address
  let stackTop := pa.stackTop + 1
  let pa := { pa with
    stackTop := stackTop
    pagesStack := Function.update pa.pagesStack stackTop.toNat (BitVec.ofInt 32 pageIndex) }
  let page ← systemPaCalculatePageIndex pa pageIndex
  let word := page.bitmapIndex.toNat
  return { pa with
    pagesBitmap := Function.update pa.pagesBitmap word (pa.pagesBitmap word &&& ~~~pageBit page) }

end Drastic
