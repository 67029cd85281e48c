import Mathlib.Data.List.Range
import Drastic.Physical.AllocatorInvariant

namespace Drastic

open Library (FreeStack)
open Library.Bitmap (testBit setBit)

variable {pa : SystemPhysicalAllocator} {count : Nat} {free : FreeStack count}

theorem pushPages_spec (turns : Nat) (i : U32) (stackIndex : Nat) (stack : Nat → U32) :
    (pushPages turns i stackIndex stack).2 = stackIndex + turns ∧
      (∀ j < turns, (pushPages turns i stackIndex stack).1 (stackIndex + j) =
        i + BitVec.ofNat 32 j) ∧
      ∀ k < stackIndex, (pushPages turns i stackIndex stack).1 k = stack k := by
  induction turns generalizing i stackIndex stack with
  | zero => simp [pushPages]
  | succ turns ih =>
      obtain ⟨index, pushed, kept⟩ :=
        ih (i + 1#32) (stackIndex + 1) (Function.update stack stackIndex i)
      refine ⟨?_, ?_, ?_⟩
      · rw [pushPages, index]
        omega
      · intro j bound
        rw [pushPages]
        cases j with
        | zero =>
            simpa using kept stackIndex (Nat.lt_succ_self _)
        | succ j =>
            have word := pushed j (by omega)
            rw [show stackIndex + (j + 1) = stackIndex + 1 + j by omega, word, BitVec.add_assoc]
            congr 1
            apply BitVec.eq_of_toNat_eq
            rw [BitVec.toNat_add, BitVec.toNat_ofNat, BitVec.toNat_ofNat, BitVec.toNat_ofNat]
            omega
      · intro k bound
        have below : k ≠ stackIndex := by omega
        rw [pushPages, kept k (by omega), Function.update_of_ne below]

theorem setUsedFrom_spec (turns first : Nat) (pa : SystemPhysicalAllocator)
    (bound : ((first + turns : Nat) : Int) ≤ pa.size) :
    ∃ bits, setUsedFrom turns first pa = .ok { pa with pagesBitmap := bits } ∧
      ∀ page, testBit bits page =
        (testBit pa.pagesBitmap page || decide (first ≤ page ∧ page < first + turns)) := by
  induction turns generalizing first pa with
  | zero =>
      refine ⟨pa.pagesBitmap, rfl, fun page => ?_⟩
      simp
  | succ turns ih =>
      obtain ⟨bits, rest, marked⟩ :=
        ih (first + 1) { pa with pagesBitmap := setBit pa.pagesBitmap first } (by
          simp only
          omega)
      refine ⟨bits, ?_, fun page => ?_⟩
      · rw [setUsedFrom, systemPaSetUsed_eq first (by omega), exec_bind_ok]
        exact rest
      · rw [marked page, Library.Bitmap.testBit_setBit]
        by_cases here : page = first
        · have inside : first ≤ page ∧ page < first + (turns + 1) := by omega
          simp [here]
        · have same : (first + 1 ≤ page ∧ page < first + 1 + turns) ↔
              (first ≤ page ∧ page < first + (turns + 1)) := by omega
          simp only [here, decide_false, Bool.false_or, same]

def freshStack (metadataPages pageCount : Nat) : FreeStack pageCount where
  items := List.range' metadataPages (pageCount - metadataPages)
  distinct := List.nodup_range'
  bounded item member := by
    rw [List.mem_range'_1] at member
    omega

theorem mem_freshStack (metadataPages pageCount page : Nat) :
    page ∈ (freshStack metadataPages pageCount).items ↔
      metadataPages ≤ page ∧ page < pageCount := by
  rw [freshStack, List.mem_range'_1]
  omega

theorem ofInt_toNat_of_small (n : Nat) (small : n < 2 ^ 32) :
    (BitVec.ofInt 32 (n : Int)).toNat = n := by
  rw [BitVec.ofInt_natCast, BitVec.toNat_ofNat, Nat.mod_eq_of_lt small]

theorem liveStack_fresh {metadataPages pageCount : Nat} (small : pageCount < 2 ^ 32)
    (top : pa.stackTop = ((freshStack metadataPages pageCount).items.length : Int) - 1)
    (words : ∀ k < pageCount - metadataPages,
      pa.pagesStack k = BitVec.ofInt 32 (metadataPages : Int) + BitVec.ofNat 32 k) :
    liveStack pa = (freshStack metadataPages pageCount).items := by
  rw [liveStack_of_top top]
  simp only [freshStack, List.length_range']
  rw [List.range'_eq_map_range]
  apply List.map_congr_left
  intro k inside
  rw [List.mem_range] at inside
  rw [words k inside, BitVec.toNat_add, ofInt_toNat_of_small metadataPages (by omega),
    BitVec.toNat_ofNat]
  omega

/-- What `system_pa_init` leaves, whatever the region held before: the stack is
right, and the bitmap is right as far as it was zeroed. -/
theorem systemPaInit_eq (before : RegionContents) (addressBase : Uintptr)
    (metadataPages pageCount : Nat) (positive : 0 < metadataPages)
    (within : metadataPages ≤ pageCount) (small : pageCount < 2 ^ 32) :
    ∃ pa, systemPaInit before addressBase metadataPages pageCount = .ok pa ∧
      pa.size = pageCount ∧ pa.addressBase = addressBase ∧
      pa.stackTop = ((freshStack metadataPages pageCount).items.length : Int) - 1 ∧
      liveStack pa = (freshStack metadataPages pageCount).items ∧
      ∀ page, testBit pa.pagesBitmap page =
        (testBit (zeroPrefix before.bitmap sizeOfAllocator sizeOfU64
          (zeroedArea metadataPages)) page || decide (page < metadataPages)) := by
  have limit : (pageCount : Int) ≤ u32Max := by
    rw [u32Max]
    omega
  have first := ofInt_toNat_of_small metadataPages (by omega)
  have last := ofInt_toNat_of_small pageCount small
  obtain ⟨index, pushed, _⟩ := pushPages_spec (pageCount - metadataPages)
    (BitVec.ofInt 32 (metadataPages : Int)) 0
    (zeroPrefix before.stack (sizeOfAllocator +
      ((pageCount : Int) + (sizeOfU64 * 8 - 1)).tdiv (sizeOfU64 * 8) * sizeOfU64) sizeOfU32
      (zeroedArea metadataPages))
  generalize filled : pushPages (pageCount - metadataPages)
    (BitVec.ofInt 32 (metadataPages : Int)) 0 (zeroPrefix before.stack (sizeOfAllocator +
      ((pageCount : Int) + (sizeOfU64 * 8 - 1)).tdiv (sizeOfU64 * 8) * sizeOfU64) sizeOfU32
      (zeroedArea metadataPages)) = stack at index pushed
  let start : SystemPhysicalAllocator := {
    next := .null
    next16mb := .null
    next4gb := .null
    size := pageCount
    stackTop := (stack.2 : Int) - 1
    pagesBitmap := zeroPrefix before.bitmap sizeOfAllocator sizeOfU64
      (zeroedArea metadataPages)
    pagesStack := stack.1
    addressBase := 0 }
  obtain ⟨bits, marked, bit⟩ := setUsedFrom_spec metadataPages 0 start
    (by simpa [start] using within)
  have top : (stack.2 : Int) - 1 =
      ((freshStack metadataPages pageCount).items.length : Int) - 1 := by
    simp [freshStack, index]
  refine ⟨{ start with pagesBitmap := bits, addressBase := addressBase }, ?_, rfl, rfl, top, ?_, ?_⟩
  · have zeroth : ((0 : Nat) : Int) = 0 := rfl
    rw [zeroth] at marked
    simp only [start] at marked
    simp only [systemPaInit, systemPaCalculateSizeSpecification, limit, decide_true, kassert_true,
      exec_bind_ok, exec_pure, bitmapArea, stackArea, first, last, filled, Int.toNat_natCast,
      marked]
    simp [positive, positive.trans_le within, start]
  · apply liveStack_fresh small top
    intro k inside
    have word := pushed k inside
    rw [Nat.zero_add] at word
    exact word
  · intro page
    rw [bit page]
    simp [start]

/-- Every bitmap word below `pageCount` bits that `system_pa_init` does not zero was
zero before. The caller makes the metadata large enough for the whole bitmap. -/
def BlankBeyondZeroed (before : RegionContents) (metadataPages pageCount : Nat) : Prop :=
  ∀ word, word * 64 < pageCount → metadataPages * systemPageSize < 64 + 8 * (word + 1) →
    before.bitmap word = 0#64

def BitsBlank (before : RegionContents) (metadataPages pageCount : Nat) : Prop :=
  ∀ page, metadataPages ≤ page → page < pageCount →
    testBit (zeroPrefix before.bitmap sizeOfAllocator sizeOfU64
      (zeroedArea metadataPages)) page = false

theorem BlankBeyondZeroed.bits {before : RegionContents} {metadataPages pageCount : Nat}
    (blank : BlankBeyondZeroed before metadataPages pageCount) :
    BitsBlank before metadataPages pageCount := by
  intro page _ bound
  have word : zeroPrefix before.bitmap sizeOfAllocator sizeOfU64
      (zeroedArea metadataPages) (page / 64) = 0#64 := by
    unfold zeroPrefix
    split
    case isTrue => rfl
    case isFalse outside =>
      apply blank _ (by omega)
      simp only [zeroedArea, sizeOfAllocator, sizeOfU64, systemPageSize] at outside
      rw [systemPageSize]
      omega
  rw [testBit, word, BitVec.getLsbD_zero]

theorem systemPaInit_describes (before : RegionContents) (addressBase : Uintptr)
    (metadataPages pageCount : Nat) (positive : 0 < metadataPages)
    (within : metadataPages ≤ pageCount) (small : pageCount < 2 ^ 32)
    (blank : BitsBlank before metadataPages pageCount) :
    ∃ pa, systemPaInit before addressBase metadataPages pageCount = .ok pa ∧
      pa.addressBase = addressBase ∧ Describes pa (freshStack metadataPages pageCount) := by
  obtain ⟨pa, initialised, size, base, top, live, bit⟩ :=
    systemPaInit_eq before addressBase metadataPages pageCount positive within small
  refine ⟨pa, initialised, base, size, small, top, live, ?_⟩
  intro page bound
  rw [bit page]
  by_cases metadata : page < metadataPages
  · simp [mem_freshStack, metadata]
  · rw [blank page (Nat.le_of_not_lt metadata) bound, Bool.false_or]
    simp only [mem_freshStack, decide_eq_decide]
    omega

/-- What calls of `system_pa_alloc`, and calls of `system_pa_free` that pass its
first assertion, lead to. -/
inductive PaReachable (start : SystemPhysicalAllocator) : SystemPhysicalAllocator → Prop where
  | start : PaReachable start start
  | alloc {pa last : SystemPhysicalAllocator} {result : Option Uintptr}
      (reached : PaReachable start pa) (call : systemPaAlloc pa = .ok (result, last)) :
      PaReachable start last
  | free {pa last : SystemPhysicalAllocator} (address : Uintptr)
      (reached : PaReachable start pa) (used : systemPaIsFree pa address = .ok false)
      (call : systemPaFree pa address = .ok last) : PaReachable start last

theorem Describes.alloc_step (describes : Describes pa free) {result : Option Uintptr}
    {last : SystemPhysicalAllocator} (call : systemPaAlloc pa = .ok (result, last)) :
    ∃ free' : FreeStack count, Describes last free' := by
  rcases List.eq_nil_or_concat free.items with empty | ⟨front, page, shape⟩
  · rw [systemPaAlloc_empty describes empty] at call
    cases call
    exact ⟨free, describes⟩
  · rw [List.concat_eq_append] at shape
    rw [systemPaAlloc_eq describes shape, exec_bind_eq_ok] at call
    obtain ⟨_, _, returned⟩ := call
    cases returned
    exact ⟨free.dropTop, describes.take shape⟩

theorem systemPaIsFree_false (describes : Describes pa free) {address : Uintptr}
    (used : systemPaIsFree pa address = .ok false) :
    inRange pa address = true ∧ pageOf pa address ∉ free.items := by
  have inside := systemPaIsFree_inRange used
  refine ⟨inside, ?_⟩
  rw [systemPaIsFree_eq describes inside] at used
  simpa using used

theorem PaReachable.describes {start : SystemPhysicalAllocator}
    (initial : Describes start free) (reached : PaReachable start pa) :
    ∃ free' : FreeStack count, Describes pa free' := by
  induction reached with
  | start => exact ⟨free, initial⟩
  | alloc _ call ih =>
      obtain ⟨now, describes⟩ := ih
      exact describes.alloc_step call
  | free address _ used call ih =>
      obtain ⟨now, describes⟩ := ih
      obtain ⟨inside, missing⟩ := systemPaIsFree_false describes used
      rw [systemPaFree_eq describes inside missing] at call
      cases call
      exact ⟨_, describes.give (pageOf_lt describes.small describes.size inside) missing⟩

structure InStep (pa : SystemPhysicalAllocator) (pageCount : Nat) : Prop where
  size : pa.size = pageCount
  top_bounds : -1 ≤ pa.stackTop ∧ pa.stackTop < pa.size
  distinct : (liveStack pa).Nodup
  bounded : ∀ page ∈ liveStack pa, page < pageCount
  agree : ∀ page < pageCount, page ∈ liveStack pa ↔ testBit pa.pagesBitmap page = false
  clear_count : ((List.range pageCount).countP
    (fun page => testBit pa.pagesBitmap page = false) : Int) = pa.stackTop + 1
  alloc_fails : (∃ last, systemPaAlloc pa = .ok (none, last)) ↔
    ∀ page < pageCount, testBit pa.pagesBitmap page = true
  free_fits : ∀ address, systemPaIsFree pa address = .ok false →
    pa.stackTop + 1 < pa.size ∧ pa.stackTop ≥ -1 ∧ ∃ last, systemPaFree pa address = .ok last

theorem Describes.inStep (describes : Describes pa free) : InStep pa count := by
  have top := describes.top
  have size := describes.size
  have length := free.length_le
  have bit (page : Nat) (bound : page < count) :
      page ∈ free.items ↔ testBit pa.pagesBitmap page = false := by
    rw [describes.bitmap page bound]
    simp
  refine ⟨size, by omega, ?_, ?_, ?_, ?_, ?_, ?_⟩
  · rw [describes.stack]
    exact free.distinct
  · rw [describes.stack]
    exact free.bounded
  · rw [describes.stack]
    exact bit
  · have members := free.countP_members
    have same : (List.range count).countP (fun page => testBit pa.pagesBitmap page = false) =
        (List.range count).countP (fun item => decide (item ∈ free.items)) := by
      apply List.countP_congr
      intro page inside
      rw [List.mem_range] at inside
      simp [bit page inside]
    rw [same, members, top]
    omega
  · constructor
    · rintro ⟨last, call⟩ page bound
      rcases List.eq_nil_or_concat free.items with empty | ⟨front, taken, shape⟩
      · rw [describes.bitmap page bound, empty]
        rfl
      · rw [List.concat_eq_append] at shape
        rw [systemPaAlloc_eq describes shape, exec_bind_eq_ok] at call
        obtain ⟨_, _, returned⟩ := call
        cases returned
    · intro allUsed
      refine ⟨pa, systemPaAlloc_empty describes ?_⟩
      by_contra some
      obtain ⟨page, bound, member⟩ := free.nonempty_iff.mp some
      rw [bit page bound, allUsed page bound] at member
      cases member
  · intro address used
    obtain ⟨inside, missing⟩ := systemPaIsFree_false describes used
    have room := free.length_lt_of_missing (pageOf_lt describes.small size inside) missing
    exact ⟨by omega, by omega, _, systemPaFree_eq describes inside missing⟩

theorem allocator_stays_in_step (before : RegionContents) (addressBase : Uintptr)
    (metadataPages pageCount : Nat) (positive : 0 < metadataPages)
    (within : metadataPages ≤ pageCount) (small : pageCount < 2 ^ 32)
    (blank : BitsBlank before metadataPages pageCount) :
    ∃ start, systemPaInit before addressBase metadataPages pageCount = .ok start ∧
      ∀ pa, PaReachable start pa → InStep pa pageCount := by
  obtain ⟨start, initialised, _, initial⟩ :=
    systemPaInit_describes before addressBase metadataPages pageCount positive within small blank
  refine ⟨start, initialised, fun pa reached => ?_⟩
  obtain ⟨free, describes⟩ := reached.describes initial
  exact describes.inStep

/-- The last word of the bitmap is not zeroed; it was clear but for the bits without a page. -/
theorem allocator_stays_in_step_sample :
    ∃ start, systemPaInit ⟨fun _ => 0xFFFFFFFFFFFFFFF0#64, fun _ => 7#32⟩ 8192#64 (1 : Nat)
        (32260 : Nat) = .ok start ∧
      ∀ pa, PaReachable start pa → InStep pa 32260 := by
  refine allocator_stays_in_step ⟨fun _ => 0xFFFFFFFFFFFFFFF0#64, fun _ => 7#32⟩ 8192#64 1 32260
    (by decide) (by decide) (by decide) ?_
  intro page _ bound
  rw [testBit, zeroPrefix]
  split
  case isTrue => exact BitVec.getLsbD_zero
  case isFalse outside =>
    simp only [zeroedArea, sizeOfAllocator, sizeOfU64, systemPageSize] at outside
    have clear : ∀ bit < 4, (0xFFFFFFFFFFFFFFF0#64).getLsbD bit = false := by decide
    exact clear _ (by omega)

/-- One metadata page zeroes the bits of 32256 pages; the bits of the others are what
the memory held. -/
theorem allocator_out_of_step_beyond_zeroed :
    ¬ ∀ (before : RegionContents) (addressBase : Uintptr) (metadataPages pageCount : Nat),
      0 < metadataPages → metadataPages ≤ pageCount → pageCount < 2 ^ 32 →
      ∃ start, systemPaInit before addressBase metadataPages pageCount = .ok start ∧
        ∀ pa, PaReachable start pa → InStep pa pageCount := by
  intro claim
  let before : RegionContents := ⟨fun _ => BitVec.allOnes 64, fun _ => 0#32⟩
  obtain ⟨start, initialised, inStep⟩ :=
    claim before 0#64 1 40000 (by decide) (by decide) (by decide)
  obtain ⟨same, initialised', _, _, _, live, bit⟩ :=
    systemPaInit_eq before 0#64 1 40000 (by decide) (by decide) (by decide)
  rw [initialised] at initialised'
  cases initialised'
  have agree := (inStep start .start).agree 39999 (by decide)
  have onStack : 39999 ∈ liveStack start := by
    rw [live, mem_freshStack]
    decide
  have clear := agree.mp onStack
  have word : zeroPrefix before.bitmap sizeOfAllocator sizeOfU64 (zeroedArea (1 : Nat))
      (39999 / 64) = BitVec.allOnes 64 := by
    rw [zeroPrefix, zeroedArea, sizeOfAllocator, sizeOfU64, systemPageSize, if_neg (by decide)]
  rw [bit 39999, testBit, word] at clear
  simp at clear

end Drastic
