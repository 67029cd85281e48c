import Drastic.Library.Bitmap
import Drastic.Library.FreeStack
import Drastic.Physical.Allocator

namespace Drastic

open Library (FreeStack)
open Library.Bitmap (testBit setBit clearBit mask)

variable {pa : SystemPhysicalAllocator}

theorem pageIndex_eq (page : Nat) (bound : (page : Int) < pa.size) :
    systemPaCalculatePageIndex pa page = .ok ⟨(page / 64 : Nat), (page % 64 : Nat)⟩ := by
  have checked : (decide (0 ≤ (page : Int)) && decide ((page : Int) < pa.size)) = true := by
    simp [bound]
  rw [systemPaCalculatePageIndex, checked, kassert_true, exec_bind_ok, exec_pure]
  congr 2

theorem pageBit_eq (page : Nat) :
    pageBit ⟨(page / 64 : Nat), (page % 64 : Nat)⟩ = mask page := rfl

theorem systemPaSetUsed_eq (page : Nat) (bound : (page : Int) < pa.size) :
    systemPaSetUsed pa page = .ok { pa with pagesBitmap := setBit pa.pagesBitmap page } := by
  rw [systemPaSetUsed, pageIndex_eq page bound, exec_bind_ok, pageBit_eq]
  rfl

def liveStack (pa : SystemPhysicalAllocator) : List Nat :=
  (List.range (pa.stackTop + 1).toNat).map (fun k => (pa.pagesStack k).toNat)

/-- The bitmap and the stack both spell out the same set of free pages. -/
structure Describes (pa : SystemPhysicalAllocator) {count : Nat} (free : FreeStack count) :
    Prop where
  size : pa.size = count
  small : count < 2 ^ 32
  top : pa.stackTop = (free.items.length : Int) - 1
  stack : liveStack pa = free.items
  bitmap : ∀ page < count, testBit pa.pagesBitmap page = decide (page ∉ free.items)

variable {count : Nat} {free : FreeStack count}

def topPage (pa : SystemPhysicalAllocator) : Nat := (pa.pagesStack pa.stackTop.toNat).toNat

def hasFreePage (pa : SystemPhysicalAllocator) : Bool := 0 ≤ pa.stackTop

def takePage (pa : SystemPhysicalAllocator) (page : Nat) : SystemPhysicalAllocator :=
  { pa with pagesBitmap := setBit pa.pagesBitmap page, stackTop := pa.stackTop - 1 }

def givePage (pa : SystemPhysicalAllocator) (page : Nat) : SystemPhysicalAllocator :=
  { pa with
    pagesBitmap := clearBit pa.pagesBitmap page
    stackTop := pa.stackTop + 1
    pagesStack := Function.update pa.pagesStack (pa.stackTop + 1).toNat (BitVec.ofNat 32 page) }

def allocatedAddress (pa : SystemPhysicalAllocator) (page : Nat) : Uintptr :=
  (BitVec.ofNat 32 page * BitVec.ofNat 32 systemPageSize).setWidth 64 + pa.addressBase

theorem liveStack_of_top {length : Nat} (top : pa.stackTop = (length : Int) - 1) :
    liveStack pa = (List.range length).map (fun k => (pa.pagesStack k).toNat) := by
  have positions : (pa.stackTop + 1).toNat = length := by omega
  rw [liveStack, positions]

theorem Describes.top_word (describes : Describes pa free) {front : List Nat} {page : Nat}
    (shape : free.items = front ++ [page]) :
    pa.stackTop.toNat = front.length ∧ pa.pagesStack front.length = BitVec.ofNat 32 page := by
  have top := describes.top
  have live := describes.stack
  rw [liveStack_of_top top] at live
  simp only [shape, List.length_append, List.length_singleton] at top live
  refine ⟨by omega, ?_⟩
  rw [List.range_succ, List.map_append, List.map_singleton] at live
  have word := (List.append_inj_right' live rfl)
  rw [List.cons.injEq] at word
  rw [← word.1]
  simp

theorem Describes.take (describes : Describes pa free) {front : List Nat} {page : Nat}
    (shape : free.items = front ++ [page]) : Describes (takePage pa page) free.dropTop := by
  have top := describes.top
  have dropped : free.dropTop.items = front := by simp [FreeStack.dropTop, shape]
  have distinct := free.distinct
  rw [shape, List.nodup_append'] at distinct
  have top' : (takePage pa page).stackTop = (front.length : Int) - 1 := by
    simp only [takePage, top, shape, List.length_append, List.length_singleton]
    omega
  refine ⟨describes.size, describes.small, by rw [dropped, top'], ?_, ?_⟩
  · have live := describes.stack
    rw [liveStack_of_top top, shape, List.length_append, List.length_singleton, List.range_succ,
      List.map_append] at live
    rw [dropped, liveStack_of_top top']
    exact List.append_inj_left' live rfl
  · intro other bound
    have before := describes.bitmap other bound
    simp only [takePage, Library.Bitmap.testBit_setBit, before, dropped, shape, List.mem_append,
      List.mem_singleton]
    by_cases same : other = page
    · have outside : page ∉ front := fun member => distinct.2.2 member (by simp)
      simp [same, outside]
    · simp [same]

theorem Describes.give (describes : Describes pa free) {page : Nat} (bound : page < count)
    (fresh : page ∉ free.items) : Describes (givePage pa page) (free.push page bound fresh) := by
  have top := describes.top
  have top' : (givePage pa page).stackTop =
      ((free.items.length + 1 : Nat) : Int) - 1 := by
    simp only [givePage, top]
    omega
  have position : (pa.stackTop + 1).toNat = free.items.length := by omega
  refine ⟨describes.size, describes.small, ?_, ?_, ?_⟩
  · rw [top', FreeStack.push, List.length_append, List.length_singleton]
  · have live := describes.stack
    rw [liveStack_of_top top] at live
    rw [liveStack_of_top top', FreeStack.push, List.range_succ, List.map_append]
    congr 1
    · refine Eq.trans (List.map_congr_left ?_) live
      intro k inside
      have below : k ≠ free.items.length := by
        rw [List.mem_range] at inside
        omega
      simp [givePage, position, below]
    · have small := describes.small
      simp only [givePage, position, List.map_singleton, Function.update_self,
        BitVec.toNat_ofNat]
      rw [Nat.mod_eq_of_lt (by omega)]
  · intro other otherBound
    have before := describes.bitmap other otherBound
    simp only [givePage, Library.Bitmap.testBit_clearBit, before, FreeStack.push, List.mem_append,
      List.mem_singleton]
    by_cases same : other = page <;> simp [same]

theorem systemPaAlloc_empty (describes : Describes pa free) (empty : free.items = []) :
    systemPaAlloc pa = .ok (none, pa) := by
  have top := describes.top
  rw [empty] at top
  have exhausted : (decide (pa.stackTop < 0) || decide (pa.size ≤ 0)) = true := by
    simp [top]
  rw [systemPaAlloc, if_pos exhausted]
  rfl

theorem systemPaAlloc_top (available : 0 ≤ pa.stackTop) (inside : (topPage pa : Int) < pa.size) :
    systemPaAlloc pa = (do
      kassert (inRange pa (allocatedAddress pa (topPage pa))) inRangeText
      return (some (allocatedAddress pa (topPage pa)), takePage pa (topPage pa))) := by
  have notEmpty : ¬ (decide (pa.stackTop < 0) || decide (pa.size ≤ 0)) = true := by
    simp only [Bool.or_eq_true, decide_eq_true_eq, not_or]
    omega
  have offset : BitVec.ofNat 32 (topPage pa) = pa.pagesStack pa.stackTop.toNat := by
    rw [topPage, BitVec.ofNat_toNat, BitVec.setWidth_eq]
  rw [systemPaAlloc, if_neg notEmpty]
  simp only [allocatedAddress, offset]
  change (do
    let pa ← systemPaSetUsed pa (topPage pa)
    _) = _
  rw [systemPaSetUsed_eq _ inside]
  rfl

theorem systemPaAlloc_ok (available : 0 ≤ pa.stackTop) (inside : (topPage pa : Int) < pa.size)
    {result : Option Uintptr} {last : SystemPhysicalAllocator}
    (call : systemPaAlloc pa = .ok (result, last)) :
    inRange pa (allocatedAddress pa (topPage pa)) = true ∧
      result = some (allocatedAddress pa (topPage pa)) ∧ last = takePage pa (topPage pa) := by
  rw [systemPaAlloc_top available inside, exec_bind_eq_ok] at call
  obtain ⟨_, checked, returned⟩ := call
  cases returned
  exact ⟨(kassert_eq_ok ..).mp checked, rfl, rfl⟩

theorem systemPaAlloc_eq (describes : Describes pa free) {front : List Nat} {page : Nat}
    (shape : free.items = front ++ [page]) :
    systemPaAlloc pa = (do
      kassert (inRange pa (allocatedAddress pa page)) inRangeText
      return (some (allocatedAddress pa page), takePage pa page)) := by
  have bound := free.bounded page (by simp [shape])
  have size := describes.size
  have small := describes.small
  have top := describes.top
  obtain ⟨position, word⟩ := describes.top_word shape
  have isTop : topPage pa = page := by
    rw [topPage, position, word, BitVec.toNat_ofNat, Nat.mod_eq_of_lt (by omega)]
  simp only [shape, List.length_append, List.length_singleton] at top
  rw [systemPaAlloc_top (by omega) (by omega), isTop]

theorem region_bytes (small : count < 2 ^ 32) (size : pa.size = count) :
    (BitVec.ofInt 64 pa.size * BitVec.ofNat 64 systemPageSize).toNat = count * systemPageSize := by
  rw [size, BitVec.ofInt_natCast, BitVec.toNat_mul, BitVec.toNat_ofNat, BitVec.toNat_ofNat,
    systemPageSize]
  omega

/-- The range check means what it says, even for a range that ends past the address
space: then it fails. -/
theorem inRange_bounds (small : count < 2 ^ 32) (size : pa.size = count) {address : Uintptr}
    (inside : inRange pa address = true) : pa.addressBase.toNat ≤ address.toNat ∧
      address.toNat < pa.addressBase.toNat + count * systemPageSize := by
  have bytes := region_bytes small size
  have start := pa.addressBase.isLt
  simp only [inRange, Bool.and_eq_true, decide_eq_true_eq, BitVec.le_def, BitVec.lt_def,
    BitVec.toNat_add, bytes] at inside
  rw [systemPageSize] at inside ⊢
  omega

theorem inRange_iff (small : count < 2 ^ 32) (size : pa.size = count)
    (fits : pa.addressBase.toNat + count * systemPageSize < 2 ^ 64) (address : Uintptr) :
    inRange pa address = true ↔ pa.addressBase.toNat ≤ address.toNat ∧
      address.toNat < pa.addressBase.toNat + count * systemPageSize := by
  have bytes := region_bytes small size
  simp only [inRange, Bool.and_eq_true, decide_eq_true_eq, BitVec.le_def, BitVec.lt_def,
    BitVec.toNat_add, bytes, Nat.mod_eq_of_lt fits]

def pageOf (pa : SystemPhysicalAllocator) (address : Uintptr) : Nat :=
  (address.toNat - pa.addressBase.toNat) / systemPageSize

theorem pageOf_lt (small : count < 2 ^ 32) (size : pa.size = count) {address : Uintptr}
    (inside : inRange pa address = true) : pageOf pa address < count := by
  obtain ⟨lower, upper⟩ := inRange_bounds small size inside
  rw [pageOf, systemPageSize] at *
  omega

theorem pageIndexOf_eq (small : count < 2 ^ 32) (size : pa.size = count) {address : Uintptr}
    (inside : inRange pa address = true) : pageIndexOf pa address = (pageOf pa address : Nat) := by
  obtain ⟨lower, upper⟩ := inRange_bounds small size inside
  have offset : (address - pa.addressBase).toNat = address.toNat - pa.addressBase.toNat :=
    BitVec.toNat_sub_of_le lower
  have signed : (address - pa.addressBase).toInt =
      ((address.toNat - pa.addressBase.toNat : Nat) : Int) := by
    rw [systemPageSize] at upper
    rw [BitVec.toInt_eq_toNat_of_lt (by omega), offset]
  rw [pageIndexOf, signed, pageOf]
  exact (Int.ofNat_tdiv _ _).symm

theorem systemPaIsFree_bit (small : count < 2 ^ 32) (size : pa.size = count) {address : Uintptr}
    (inside : inRange pa address = true) :
    systemPaIsFree pa address = .ok (!testBit pa.pagesBitmap (pageOf pa address)) := by
  have bound := pageOf_lt small size inside
  have index : ((pageOf pa address : Nat) : Int) < pa.size := by omega
  have word : ((pageOf pa address / 64 : Nat) : Int).toNat = pageOf pa address / 64 := rfl
  rw [systemPaIsFree, inside, kassert_true, exec_bind_ok, pageIndexOf_eq small size inside,
    pageIndex_eq _ index, exec_bind_ok, pageBit_eq]
  simp only [word, Library.Bitmap.and_mask_eq_zero_iff, exec_pure]
  cases testBit pa.pagesBitmap (pageOf pa address) <;> rfl

theorem systemPaIsFree_inRange {address : Uintptr} {isFree : Bool}
    (tested : systemPaIsFree pa address = .ok isFree) : inRange pa address = true := by
  rw [systemPaIsFree, exec_bind_eq_ok] at tested
  obtain ⟨_, checked, _⟩ := tested
  exact (kassert_eq_ok ..).mp checked

theorem systemPaFree_gives (small : count < 2 ^ 32) (size : pa.size = count) {address : Uintptr}
    (inside : inRange pa address = true)
    (used : testBit pa.pagesBitmap (pageOf pa address) = true) (fits : pa.stackTop + 1 < pa.size)
    (lower : pa.stackTop ≥ -1) :
    systemPaFree pa address = .ok (givePage pa (pageOf pa address)) := by
  have notFree := systemPaIsFree_bit small size inside
  have indexed := pageIndexOf_eq small size inside
  have bound := pageOf_lt small size inside
  rw [used] at notFree
  rw [systemPaFree, notFree, exec_bind_ok, indexed]
  generalize pageOf pa address = page at *
  have index : (page : Int) < pa.size := by omega
  simp only [fits, lower, decide_true, Bool.not_true, Bool.not_false, kassert_true, exec_bind_ok]
  simp only [pageIndex_eq, index, exec_bind_ok, pageBit_eq, BitVec.ofInt_natCast]
  rfl

theorem systemPaFree_iff (small : count < 2 ^ 32) (size : pa.size = count) (address : Uintptr)
    (last : SystemPhysicalAllocator) :
    systemPaFree pa address = .ok last ↔
      inRange pa address = true ∧ testBit pa.pagesBitmap (pageOf pa address) = true ∧
        pa.stackTop + 1 < pa.size ∧ pa.stackTop ≥ -1 ∧
        last = givePage pa (pageOf pa address) := by
  constructor
  · intro call
    have steps := call
    simp only [systemPaFree, exec_bind_eq_ok] at steps
    obtain ⟨isFree, tested, _, notFree, _, fits, _, lower, _⟩ := steps
    have inside := systemPaIsFree_inRange tested
    have notFree := (kassert_eq_ok ..).mp notFree
    have fits := of_decide_eq_true ((kassert_eq_ok ..).mp fits)
    have lower := of_decide_eq_true ((kassert_eq_ok ..).mp lower)
    have used : testBit pa.pagesBitmap (pageOf pa address) = true := by
      rw [systemPaIsFree_bit small size inside] at tested
      cases tested
      simpa using notFree
    rw [systemPaFree_gives small size inside used fits lower] at call
    exact ⟨inside, used, fits, lower, (Except.ok.inj call).symm⟩
  · rintro ⟨inside, used, fits, lower, rfl⟩
    exact systemPaFree_gives small size inside used fits lower

theorem systemPaIsFree_eq (describes : Describes pa free) {address : Uintptr}
    (inside : inRange pa address = true) :
    systemPaIsFree pa address = .ok (decide (pageOf pa address ∈ free.items)) := by
  have bound := pageOf_lt describes.small describes.size inside
  rw [systemPaIsFree_bit describes.small describes.size inside, describes.bitmap _ bound]
  simp

theorem systemPaFree_eq (describes : Describes pa free) {address : Uintptr}
    (inside : inRange pa address = true) (used : pageOf pa address ∉ free.items) :
    systemPaFree pa address = .ok (givePage pa (pageOf pa address)) := by
  have bound := pageOf_lt describes.small describes.size inside
  have room := free.length_lt_of_missing bound used
  have top := describes.top
  have size := describes.size
  refine systemPaFree_gives describes.small size inside ?_ (by omega) (by omega)
  rw [describes.bitmap _ bound]
  exact decide_eq_true used

theorem systemPaFree_ok (describes : Describes pa free) {address : Uintptr}
    {last : SystemPhysicalAllocator} (call : systemPaFree pa address = .ok last) :
    inRange pa address = true ∧ pageOf pa address ∉ free.items ∧
      last = givePage pa (pageOf pa address) := by
  obtain ⟨inside, used, _, _, same⟩ :=
    (systemPaFree_iff describes.small describes.size address last).mp call
  rw [describes.bitmap _ (pageOf_lt describes.small describes.size inside)] at used
  exact ⟨inside, of_decide_eq_true used, same⟩

end Drastic
