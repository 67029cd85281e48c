import Drastic.Physical.AllocatorRuns
import Drastic.Physical.SystemPaging

namespace Drastic

namespace LimineMemmapEntry

/-- A USABLE entry longer than a page: it gets an allocator. -/
def Managed (entry : LimineMemmapEntry) : Bool :=
  entry.type = limineMemmapUsable && BitVec.ofNat 64 systemPageSize < entry.length

def pageCount (entry : LimineMemmapEntry) : Nat := entry.length.toNat / systemPageSize

def requiredLength (entry : LimineMemmapEntry) : Nat :=
  64 + entry.pageCount * 4 + (entry.pageCount + 63) / 64 * 8

def metadataPages (entry : LimineMemmapEntry) : Nat :=
  entry.requiredLength / systemPageSize + 1

def pointer (hhdmOffset : U64) (entry : LimineMemmapEntry) : AllocatorPointer :=
  .region (entry.base + hhdmOffset)

end LimineMemmapEntry

def managed (entries : List LimineMemmapEntry) : List LimineMemmapEntry :=
  entries.filter LimineMemmapEntry.Managed

/-- What Limine guarantees of a memory map, with USABLE entries of at most U32_MAX
pages. -/
structure MemmapValid (entries : List LimineMemmapEntry) : Prop where
  sorted : entries.Pairwise (fun a b => a.base.toNat ≤ b.base.toNat)
  aligned : ∀ entry ∈ entries, entry.type = limineMemmapUsable →
    entry.base.toNat % systemPageSize = 0 ∧ entry.length.toNat % systemPageSize = 0
  disjoint : (entries.filter (fun entry => entry.type = limineMemmapUsable)).Pairwise
    (fun a b => a.base.toNat + a.length.toNat ≤ b.base.toNat ∨
      b.base.toNat + b.length.toNat ≤ a.base.toNat)
  pages : ∀ entry ∈ entries, entry.type = limineMemmapUsable →
    entry.length.toNat / systemPageSize ≤ 2 ^ 32 - 1

variable {entry : LimineMemmapEntry}

theorem managed_length (isManaged : entry.Managed = true) :
    entry.type = limineMemmapUsable ∧ systemPageSize < entry.length.toNat := by
  simp only [LimineMemmapEntry.Managed, Bool.and_eq_true, decide_eq_true_eq,
    BitVec.lt_def] at isManaged
  exact ⟨isManaged.1, by simpa [systemPageSize] using isManaged.2⟩

theorem pageCount_pos (isManaged : entry.Managed = true) : 0 < entry.pageCount := by
  have long := (managed_length isManaged).2
  rw [systemPageSize] at long
  rw [LimineMemmapEntry.pageCount, systemPageSize]
  omega

theorem metadataPages_le (isManaged : entry.Managed = true) :
    entry.metadataPages ≤ entry.pageCount := by
  have positive := pageCount_pos isManaged
  rw [LimineMemmapEntry.metadataPages, LimineMemmapEntry.requiredLength, systemPageSize]
  omega

theorem metadata_blank (before : RegionContents) :
    BlankBeyondZeroed before entry.metadataPages entry.pageCount := by
  intro word inside outside
  rw [LimineMemmapEntry.metadataPages, LimineMemmapEntry.requiredLength, systemPageSize] at outside
  omega

structure Ready (pa : SystemPhysicalAllocator) (entry : LimineMemmapEntry) : Prop where
  base : pa.addressBase = entry.base
  describes : Describes pa (freshStack entry.metadataPages entry.pageCount)

theorem length_toInt (small : entry.pageCount < 2 ^ 32) :
    entry.length.toInt = (entry.length.toNat : Int) := by
  rw [LimineMemmapEntry.pageCount, systemPageSize] at small
  exact BitVec.toInt_eq_toNat_of_lt (by omega)

theorem requiredSize_eq (small : entry.pageCount < 2 ^ 32) :
    systemPaCalculateRequiredSize (entry.length.toInt.tdiv systemPageSize) =
      .ok (entry.requiredLength : Int) := by
  have count : entry.length.toInt.tdiv systemPageSize = (entry.pageCount : Int) := by
    rw [length_toInt small, LimineMemmapEntry.pageCount]
    exact (Int.ofNat_tdiv _ _).symm
  have limit : (entry.pageCount : Int) ≤ u32Max := by
    rw [u32Max]
    omega
  have words : ((entry.pageCount : Int) + (sizeOfU64 * 8 - 1)).tdiv (sizeOfU64 * 8) =
      ((entry.pageCount + 63) / 64 : Nat) := by
    rw [sizeOfU64]
    exact (Int.ofNat_tdiv (entry.pageCount + 63) 64).symm
  rw [count]
  simp only [systemPaCalculateRequiredSize, systemPaCalculateSizeSpecification, limit,
    decide_true, kassert_true, exec_bind_ok, exec_pure, words]
  rw [LimineMemmapEntry.requiredLength, sizeOfAllocator, sizeOfU32, sizeOfU64]
  push_cast
  rfl

theorem region_initialised (before : RegionContents) (isManaged : entry.Managed = true)
    (small : entry.pageCount < 2 ^ 32) :
    ∃ pa, systemPaInit before entry.base
        ((entry.requiredLength : Int).tdiv systemPageSize + 1)
        (entry.length / BitVec.ofNat 64 systemPageSize).toInt = .ok pa ∧ Ready pa entry := by
  have metadata : (entry.requiredLength : Int).tdiv systemPageSize + 1 =
      (entry.metadataPages : Int) := by
    rw [LimineMemmapEntry.metadataPages, Int.natCast_add, ← Int.ofNat_tdiv]
    rfl
  have quotient : (entry.length / BitVec.ofNat 64 systemPageSize).toNat = entry.pageCount := by
    rw [BitVec.toNat_udiv]
    rfl
  have count : (entry.length / BitVec.ofNat 64 systemPageSize).toInt = (entry.pageCount : Int) := by
    rw [BitVec.toInt_eq_toNat_of_lt (by omega), quotient]
  rw [metadata, count]
  obtain ⟨pa, initialised, base, describes⟩ := systemPaInit_describes before entry.base
    entry.metadataPages entry.pageCount (Nat.succ_pos _) (metadataPages_le isManaged) small
    (metadata_blank before).bits
  exact ⟨pa, initialised, base, describes⟩

theorem requiredLength_le (isManaged : entry.Managed = true) :
    entry.requiredLength ≤ entry.length.toNat := by
  have long := (managed_length isManaged).2
  have positive := pageCount_pos isManaged
  simp only [LimineMemmapEntry.requiredLength, LimineMemmapEntry.pageCount, systemPageSize]
    at long positive ⊢
  omega

theorem length_suffices (isManaged : entry.Managed = true) :
    entry.length ≥ BitVec.ofInt 64 (entry.requiredLength : Int) := by
  rw [ge_iff_le, BitVec.le_def, BitVec.ofInt_natCast, BitVec.toNat_ofNat]
  exact (Nat.mod_le _ _).trans (requiredLength_le isManaged)

namespace Area

def Apart (a b : Area) : Prop :=
  a.offset + a.length ≤ b.offset ∨ b.offset + b.length ≤ a.offset

def Inside (a b : Area) : Prop :=
  b.offset ≤ a.offset ∧ a.offset + a.length ≤ b.offset + b.length

end Area

def bitmapWordArea (page : Int) : Area := ⟨sizeOfAllocator + sizeOfU64 * page.tdiv 64, sizeOfU64⟩

/-- Header, bitmap and stack have their own bytes of the zeroed pages, with room for
every page. -/
structure MetadataFits (spec : SystemPaSizeSpecification) (metadataPages pageCount : Int) :
    Prop where
  headerInside : headerArea.Inside (zeroedArea metadataPages)
  bitmapInside : (bitmapArea spec).Inside (zeroedArea metadataPages)
  stackInside : (stackArea spec).Inside (zeroedArea metadataPages)
  headerBitmap : headerArea.Apart (bitmapArea spec)
  headerStack : headerArea.Apart (stackArea spec)
  bitmapStack : (bitmapArea spec).Apart (stackArea spec)
  bitmapAligned : (bitmapArea spec).offset % sizeOfU64 = 0
  stackAligned : (stackArea spec).offset % sizeOfU32 = 0
  bits : ∀ page, 0 ≤ page → page < pageCount → (bitmapWordArea page).Inside (bitmapArea spec)
  slots : (stackArea spec).length = pageCount * sizeOfU32

/-- The bitmap word and the stack slot of a page are zero before they are written. -/
def ZeroedFor (before : RegionContents) (spec : SystemPaSizeSpecification) (metadataPages : Int)
    (page : Nat) : Prop :=
  zeroPrefix before.bitmap (bitmapArea spec).offset sizeOfU64 (zeroedArea metadataPages)
      (page / 64) = 0#64 ∧
    zeroPrefix before.stack (stackArea spec).offset sizeOfU32 (zeroedArea metadataPages) page = 0#32

theorem MetadataFits.zeroedFor {spec : SystemPaSizeSpecification} {metadataPages : Int}
    {pageCount page : Nat} (fits : MetadataFits spec metadataPages pageCount)
    (before : RegionContents) (bound : page < pageCount) :
    ZeroedFor before spec metadataPages page := by
  have word := (fits.bits page (Int.natCast_nonneg page) (by omega)).2
  have bitmap := fits.bitmapInside.2
  have stack := fits.stackInside.2
  have slots := fits.slots
  have index : (page : Int).tdiv 64 = ((page / 64 : Nat) : Int) := (Int.ofNat_tdiv page 64).symm
  simp only [bitmapWordArea, index] at word
  rw [ZeroedFor, zeroPrefix, zeroPrefix, if_pos, if_pos]
  · exact ⟨rfl, rfl⟩
  · simp only [sizeOfU32] at slots ⊢
    omega
  · simp only [bitmapArea] at word bitmap ⊢
    simp only [sizeOfU64] at word ⊢
    omega

def specificationOf (count : Nat) : SystemPaSizeSpecification :=
  ⟨(count * 4 : Nat), ((count + 63) / 64 * 8 : Nat)⟩

theorem sizeSpecification_eq (count : Nat) (small : count < 2 ^ 32) :
    systemPaCalculateSizeSpecification count = .ok (specificationOf count) := by
  have limit : (count : Int) ≤ u32Max := by
    rw [u32Max]
    omega
  have words : ((count : Int) + (sizeOfU64 * 8 - 1)).tdiv (sizeOfU64 * 8) =
      ((count + 63) / 64 : Nat) := by
    rw [sizeOfU64]
    exact (Int.ofNat_tdiv (count + 63) 64).symm
  simp only [systemPaCalculateSizeSpecification, limit, decide_true, kassert_true, exec_bind_ok,
    exec_pure, words]
  rfl

theorem metadata_fits (entry : LimineMemmapEntry) :
    MetadataFits (specificationOf entry.pageCount) entry.metadataPages entry.pageCount := by
  have rounded : entry.requiredLength < entry.metadataPages * 4096 := by
    rw [LimineMemmapEntry.metadataPages, systemPageSize]
    omega
  rw [LimineMemmapEntry.requiredLength] at rounded
  constructor <;>
    simp only [Area.Inside, Area.Apart, headerArea, bitmapArea, stackArea, zeroedArea,
      bitmapWordArea, specificationOf, sizeOfAllocator, sizeOfU64, sizeOfU32,
      systemPageSize] <;> try omega
  intro page lower upper
  rw [Int.tdiv_eq_ediv_of_nonneg lower]
  omega

/-- The metadata of every region fits into its pages, all of it is zeroed before it is written,
and exactly the other pages are pushed. -/
theorem metadata_fits_region (before : RegionContents) (entry : LimineMemmapEntry)
    (usable : entry.type = limineMemmapUsable) (long : systemPageSize < entry.length.toNat)
    (small : entry.length.toNat / systemPageSize ≤ 2 ^ 32 - 1) :
    ∃ requiredLength requiredPages pageCount spec pa,
      systemPaCalculateRequiredSize (entry.length.toInt.tdiv systemPageSize) =
        .ok requiredLength ∧
      requiredPages = requiredLength.tdiv systemPageSize + 1 ∧
      pageCount = (entry.length / BitVec.ofNat 64 systemPageSize).toInt ∧
      requiredPages ≤ pageCount ∧ requiredLength ≤ entry.length.toNat ∧
      systemPaCalculateSizeSpecification pageCount = .ok spec ∧
      MetadataFits spec requiredPages pageCount ∧
      (∀ page : Nat, (page : Int) < pageCount → ZeroedFor before spec requiredPages page) ∧
      systemPaInit before entry.base requiredPages pageCount = .ok pa ∧
      liveStack pa = List.range' requiredPages.toNat (pageCount - requiredPages).toNat := by
  have isManaged : entry.Managed = true := by
    have size : (BitVec.ofNat 64 systemPageSize).toNat = systemPageSize := rfl
    simp only [LimineMemmapEntry.Managed, usable, BitVec.lt_def, size, long, decide_true,
      Bool.and_self]
  have count : entry.pageCount < 2 ^ 32 := by
    rw [LimineMemmapEntry.pageCount]
    omega
  have pages : (entry.length / BitVec.ofNat 64 systemPageSize).toInt = entry.pageCount := by
    have quotient : (entry.length / BitVec.ofNat 64 systemPageSize).toNat = entry.pageCount := by
      rw [BitVec.toNat_udiv]
      rfl
    rw [BitVec.toInt_eq_toNat_of_lt (by omega), quotient]
  have metadata : (entry.requiredLength : Int).tdiv systemPageSize + 1 =
      (entry.metadataPages : Int) := by
    rw [LimineMemmapEntry.metadataPages, Int.natCast_add, ← Int.ofNat_tdiv]
    rfl
  obtain ⟨pa, initialised, ready⟩ := region_initialised before isManaged count
  rw [metadata] at initialised
  refine ⟨_, _, _, specificationOf entry.pageCount, pa, requiredSize_eq count, rfl, rfl,
    ?_, ?_, ?_, ?_, ?_, ?_, ?_⟩
  · rw [metadata, pages]
    exact_mod_cast metadataPages_le isManaged
  · exact_mod_cast requiredLength_le isManaged
  · rw [pages]
    exact sizeSpecification_eq entry.pageCount count
  · rw [metadata, pages]
    exact metadata_fits entry
  · rw [metadata, pages]
    intro page bound
    exact (metadata_fits entry).zeroedFor before (by exact_mod_cast bound)
  · rw [metadata]
    exact initialised
  · rw [metadata, pages, Int.toNat_natCast, ← Int.natCast_sub (metadataPages_le isManaged),
      Int.toNat_natCast]
    exact ready.describes.stack

theorem metadata_fits_region_sample :
    let entry : LimineMemmapEntry := ⟨0x100000#64, 0x2001#64, limineMemmapUsable⟩
    ∃ requiredLength requiredPages pageCount spec pa,
      systemPaCalculateRequiredSize (entry.length.toInt.tdiv systemPageSize) =
        .ok requiredLength ∧
      requiredPages = requiredLength.tdiv systemPageSize + 1 ∧
      pageCount = (entry.length / BitVec.ofNat 64 systemPageSize).toInt ∧
      requiredPages ≤ pageCount ∧ requiredLength ≤ entry.length.toNat ∧
      systemPaCalculateSizeSpecification pageCount = .ok spec ∧
      MetadataFits spec requiredPages pageCount ∧
      (∀ page : Nat, (page : Int) < pageCount → ZeroedFor .zero spec requiredPages page) ∧
      systemPaInit .zero entry.base requiredPages pageCount = .ok pa ∧
      liveStack pa = List.range' requiredPages.toNat (pageCount - requiredPages).toNat :=
  metadata_fits_region .zero ⟨0x100000#64, 0x2001#64, limineMemmapUsable⟩ rfl (by decide)
    (by decide)

end Drastic
