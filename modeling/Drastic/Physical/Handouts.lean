import Drastic.Physical.Walk

namespace Drastic

open Library (FreeStack)
open Library.Chain (ChainFrom chain_congr)

variable {pa : SystemPhysicalAllocator} {entry : LimineMemmapEntry} {outstanding : List Uintptr}

def LimineMemmapEntry.pageAddress (entry : LimineMemmapEntry) (page : Nat) : Uintptr :=
  BitVec.ofNat 64 (page * systemPageSize) + entry.base

theorem pageCount_bytes (entry : LimineMemmapEntry) :
    entry.pageCount * systemPageSize ≤ entry.length.toNat := by
  rw [LimineMemmapEntry.pageCount]
  exact Nat.div_mul_le_self _ _

theorem pageAddress_toNat {page : Nat} (bound : page < entry.pageCount)
    (noWrap : entry.base.toNat + entry.length.toNat < 2 ^ 64) :
    (entry.pageAddress page).toNat = entry.base.toNat + page * systemPageSize := by
  have bytes := pageCount_bytes entry
  rw [systemPageSize] at bytes
  rw [LimineMemmapEntry.pageAddress, BitVec.toNat_add, BitVec.toNat_ofNat, systemPageSize]
  omega

theorem pageAddress_ne {page other : Nat} (bound : page < entry.pageCount)
    (otherBound : other < entry.pageCount)
    (noWrap : entry.base.toNat + entry.length.toNat < 2 ^ 64) (different : other ≠ page) :
    entry.pageAddress other ≠ entry.pageAddress page := by
  intro equal
  have numbers := congrArg BitVec.toNat equal
  rw [pageAddress_toNat otherBound noWrap, pageAddress_toNat bound noWrap,
    systemPageSize] at numbers
  omega

/-- The free stack holds the pages behind the metadata that are not handed out. -/
def RegionHolds (pa : SystemPhysicalAllocator) (entry : LimineMemmapEntry)
    (outstanding : List Uintptr) : Prop :=
  pa.addressBase = entry.base ∧ ∃ free : FreeStack entry.pageCount, Describes pa free ∧
    ∀ page < entry.pageCount, page ∈ free.items ↔
      entry.metadataPages ≤ page ∧ entry.pageAddress page ∉ outstanding

theorem Ready.holds (ready : Ready pa entry) : RegionHolds pa entry [] := by
  refine ⟨ready.base, _, ready.describes, fun page bound => ?_⟩
  rw [mem_freshStack]
  simp [bound]

/-- The 32-bit product forgets all but the low 20 bits of the page index. -/
theorem allocatedAddress_eq (base : pa.addressBase = entry.base) (page : Nat) :
    allocatedAddress pa page = entry.pageAddress (page % 2 ^ 20) := by
  have product : (BitVec.ofNat 32 page * BitVec.ofNat 32 systemPageSize).setWidth 64 =
      BitVec.ofNat 64 (page % 2 ^ 20 * systemPageSize) := by
    apply BitVec.eq_of_toNat_eq
    rw [BitVec.toNat_setWidth, BitVec.toNat_mul, BitVec.toNat_ofNat, BitVec.toNat_ofNat,
      BitVec.toNat_ofNat, systemPageSize]
    omega
  rw [allocatedAddress, LimineMemmapEntry.pageAddress, product, base]

theorem RegionHolds.inRange_iff (holds : RegionHolds pa entry outstanding)
    (noWrap : entry.base.toNat + entry.length.toNat < 2 ^ 64) (address : Uintptr) :
    inRange pa address = true ↔ entry.base.toNat ≤ address.toNat ∧
      address.toNat < entry.base.toNat + entry.pageCount * systemPageSize := by
  obtain ⟨base, free, describes, _⟩ := holds
  have bytes := pageCount_bytes entry
  rw [Drastic.inRange_iff describes.small describes.size (by rw [base]; omega), base]

theorem RegionHolds.locates (holds : RegionHolds pa entry outstanding)
    (noWrap : entry.base.toNat + entry.length.toNat < 2 ^ 64) {page : Nat}
    (bound : page < entry.pageCount) : inRange pa (entry.pageAddress page) = true ∧
      pageOf pa (entry.pageAddress page) = page := by
  rw [holds.inRange_iff noWrap, pageOf, holds.1, pageAddress_toNat bound noWrap, systemPageSize]
  omega

theorem Describes.shape {count : Nat} {free : FreeStack count} (describes : Describes pa free)
    (hasPage : hasFreePage pa = true) : ∃ front, free.items = front ++ [topPage pa] := by
  have top := describes.top
  have nonempty : free.items ≠ [] := by
    intro empty
    have available : 0 ≤ pa.stackTop := by simpa [hasFreePage] using hasPage
    simp only [empty, List.length_nil] at top
    omega
  obtain ⟨front, page, shape⟩ := (List.eq_nil_or_concat free.items).resolve_left nonempty
  rw [List.concat_eq_append] at shape
  obtain ⟨position, word⟩ := describes.top_word shape
  have bound := free.bounded page (by simp [shape])
  have small := describes.small
  have isTop : topPage pa = page := by
    rw [topPage, position, word, BitVec.toNat_ofNat]
    omega
  exact ⟨front, isTop ▸ shape⟩

structure RegionAllocator (pa : SystemPhysicalAllocator) (entry : LimineMemmapEntry) : Prop where
  base : pa.addressBase = entry.base
  describes : ∃ free : FreeStack entry.pageCount, Describes pa free

theorem RegionHolds.allocator (holds : RegionHolds pa entry outstanding) :
    RegionAllocator pa entry := by
  obtain ⟨base, free, describes, _⟩ := holds
  exact ⟨base, free, describes⟩

theorem RegionAllocator.exhausted (allocator : RegionAllocator pa entry)
    (noPage : hasFreePage pa = false) : systemPaAlloc pa = .ok (none, pa) := by
  obtain ⟨_, free, describes⟩ := allocator
  have top := describes.top
  have short : pa.stackTop < 0 := by simpa [hasFreePage] using noPage
  exact systemPaAlloc_empty describes (List.eq_nil_of_length_eq_zero (by omega))

theorem RegionAllocator.serves (allocator : RegionAllocator pa entry)
    (noWrap : entry.base.toNat + entry.length.toNat < 2 ^ 64) (hasPage : hasFreePage pa = true) :
    topPage pa < entry.pageCount ∧
      systemPaAlloc pa =
        .ok (some (entry.pageAddress (topPage pa % 2 ^ 20)), takePage pa (topPage pa)) ∧
      RegionAllocator (takePage pa (topPage pa)) entry := by
  obtain ⟨base, free, describes⟩ := allocator
  obtain ⟨front, shape⟩ := describes.shape hasPage
  have bound := free.bounded (topPage pa) (by simp [shape])
  refine ⟨bound, ?_, base, _, describes.take shape⟩
  have lowBound : topPage pa % 2 ^ 20 < entry.pageCount := (Nat.mod_le _ _).trans_lt bound
  have bytes := pageCount_bytes entry
  have inside : inRange pa (entry.pageAddress (topPage pa % 2 ^ 20)) = true := by
    rw [Drastic.inRange_iff describes.small describes.size (by rw [base]; omega), base,
      pageAddress_toNat lowBound noWrap, systemPageSize]
    omega
  rw [systemPaAlloc_eq describes shape, allocatedAddress_eq base, inside]
  rfl

theorem RegionHolds.serves (holds : RegionHolds pa entry outstanding)
    (noWrap : entry.base.toNat + entry.length.toNat < 2 ^ 64) (hasPage : hasFreePage pa = true) :
    entry.metadataPages ≤ topPage pa ∧ entry.pageAddress (topPage pa) ∉ outstanding ∧
      RegionHolds (takePage pa (topPage pa)) entry
        (entry.pageAddress (topPage pa) :: outstanding) := by
  obtain ⟨base, free, describes, members⟩ := holds
  obtain ⟨front, shape⟩ := describes.shape hasPage
  have bound := free.bounded (topPage pa) (by simp [shape])
  obtain ⟨behind, fresh⟩ := (members _ bound).mp (by simp [shape])
  refine ⟨behind, fresh, base, free.dropTop, describes.take shape, ?_⟩
  have distinct := free.distinct
  rw [shape, List.nodup_append'] at distinct
  have dropped : free.dropTop.items = front := by simp [FreeStack.dropTop, shape]
  intro other otherBound
  have before := members other otherBound
  rw [shape, List.mem_append, List.mem_singleton] at before
  rw [dropped, List.mem_cons, not_or]
  by_cases same : other = topPage pa
  · have outside : other ∉ front := fun member => distinct.2.2 member (by simp [same])
    simp [same ▸ outside, same]
  · have apart := pageAddress_ne bound otherBound noWrap same
    simpa [same, apart] using before

/-- The first page a fresh region hands out is its last one. -/
theorem Ready.top (ready : Ready pa entry) (room : entry.metadataPages < entry.pageCount) :
    hasFreePage pa = true ∧ topPage pa = entry.pageCount - 1 := by
  have top := ready.describes.top
  have small := ready.describes.small
  have shape : (freshStack entry.metadataPages entry.pageCount).items =
      List.range' entry.metadataPages (entry.pageCount - entry.metadataPages - 1) ++
        [entry.pageCount - 1] := by
    have split : entry.pageCount - entry.metadataPages =
        entry.pageCount - entry.metadataPages - 1 + 1 := by omega
    have last : entry.metadataPages + (entry.pageCount - entry.metadataPages - 1) =
        entry.pageCount - 1 := by omega
    change List.range' _ _ = _
    rw [split, List.range'_1_concat, Nat.add_sub_cancel, last]
  obtain ⟨position, word⟩ := ready.describes.top_word shape
  rw [shape, List.length_append, List.length_singleton] at top
  refine ⟨by rw [hasFreePage, decide_eq_true_eq]; omega, ?_⟩
  rw [topPage, position, word, BitVec.toNat_ofNat]
  omega

theorem RegionHolds.frees (holds : RegionHolds pa entry outstanding)
    (noWrap : entry.base.toNat + entry.length.toNat < 2 ^ 64) (distinct : outstanding.Nodup)
    {page : Nat} (bound : page < entry.pageCount) (behind : entry.metadataPages ≤ page)
    (member : entry.pageAddress page ∈ outstanding) :
    systemPaFree pa (entry.pageAddress page) = .ok (givePage pa page) ∧
      RegionHolds (givePage pa page) entry (outstanding.erase (entry.pageAddress page)) := by
  obtain ⟨inside, located⟩ := holds.locates noWrap bound
  obtain ⟨base, free, describes, members⟩ := holds
  have used : page ∉ free.items := fun onStack => ((members page bound).mp onStack).2 member
  refine ⟨?_, base, free.push page bound used, describes.give bound used, ?_⟩
  · rw [systemPaFree_eq describes inside (by rwa [located]), located]
  · intro other otherBound
    rw [FreeStack.push, List.mem_append, List.mem_singleton, members other otherBound,
      distinct.mem_erase_iff]
    by_cases same : other = page
    · simp [same, behind]
    · have apart := pageAddress_ne bound otherBound noWrap same
      simp [same, apart]

theorem RegionHolds.refuses (holds : RegionHolds pa entry outstanding)
    (noWrap : entry.base.toNat + entry.length.toNat < 2 ^ 64) {page : Nat}
    (bound : page < entry.pageCount) (behind : entry.metadataPages ≤ page)
    (missing : entry.pageAddress page ∉ outstanding) :
    ∀ freed, systemPaFree pa (entry.pageAddress page) ≠ .ok freed := by
  obtain ⟨inside, located⟩ := holds.locates noWrap bound
  obtain ⟨base, free, describes, members⟩ := holds
  have onStack : page ∈ free.items := (members page bound).mpr ⟨behind, missing⟩
  intro freed call
  rw [systemPaFree, systemPaIsFree_eq describes inside, located] at call
  simp [onStack, kassert] at call

end Drastic
