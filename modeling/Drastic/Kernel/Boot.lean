import Drastic.Kernel.MemoryRuns
import Drastic.Paging.CloneTree
import Drastic.Physical.PageRuns

namespace Drastic

open Library (FreeStack)
open Library.RadixTable (tableAt lookup tablesBelow walk_congr)

/-! `system_paging_setup` as a whole, and what the kernel can then do with the memory. -/

/-- With the value written to cr3. What the allocators keep in the memory of their regions is
part of `SystemPaging`. -/
def systemPagingSetupFull (fuel : Nat) (hhdmOffset : U64) (contents : Uintptr → RegionContents)
    (response : Option (List LimineMemmapEntry)) (cr3 : U64) (s : PagingState SystemPaging) :
    Exec (U64 × PagingState SystemPaging) := do
  let pages ← systemPagingSetup hhdmOffset contents response s.pages
  let (table, s) ← systemPagingTableClone (systemPagingPhysicalAlloc fuel) hhdmOffset
    ((cr3 &&& systemPagingAmd64FlagAddress) + hhdmOffset) { s with pages := pages }
  return (table.physical, s)

def physicalFree (fuel : Nat) : PhysicalFree SystemPaging :=
  fun address paging => systemPagingPhysicalFree fuel paging address

/-- The memory maps on which every page has an address of its own: the index of a page fits
the 20 bits the allocator keeps of it, and the direct map neither wraps nor has a page at
NULL. -/
structure MemmapUsable (hhdmOffset : U64) (entries : List LimineMemmapEntry) : Prop extends
    MemmapBootable entries where
  indexed : ∀ entry ∈ managed entries, entry.pageCount ≤ 2 ^ 20
  physical : ∀ entry ∈ managed entries, entry.base.toNat + entry.length.toNat ≤ 2 ^ 48
  direct : ∀ entry ∈ managed entries,
    hhdmOffset.toNat + entry.base.toNat + entry.length.toNat ≤ 2 ^ 64
  notNull : ∀ entry ∈ managed entries, 0 < hhdmOffset.toNat + entry.base.toNat

def RegionPage (entries : List LimineMemmapEntry) (frame : Frame) : Prop :=
  ∃ entry ∈ managed entries, ∃ page, entry.metadataPages ≤ page ∧ page < entry.pageCount ∧
    frame.address = entry.pageAddress page

def FreePage (hhdmOffset : U64) (entries : List LimineMemmapEntry) (paging : SystemPaging)
    (frame : Frame) : Prop :=
  ∃ entry ∈ managed entries,
    ∃ page ∈ liveStack (paging.allocators (entry.pointer hhdmOffset)),
      frame.address = entry.pageAddress page

/-- A page with an address in a region, its metadata included. -/
def InRegion (entries : List LimineMemmapEntry) (frame : Frame) : Prop :=
  ∃ entry ∈ managed entries, entry.base.toNat ≤ frame.address.toNat ∧
    frame.address.toNat < entry.base.toNat + entry.length.toNat

/-- The addresses at which the allocators keep their headers, bitmaps and stacks. -/
def InMetadata (hhdmOffset : U64) (entries : List LimineMemmapEntry) (address : Uintptr) : Prop :=
  ∃ entry ∈ managed entries,
    (address - (entry.base + hhdmOffset)).toNat < entry.metadataPages * systemPageSize

def SameOutsideMetadata (hhdmOffset : U64) (entries : List LimineMemmapEntry)
    (memory memory' : Memory) : Prop :=
  ∀ address, ¬ InMetadata hhdmOffset entries address → memory address = memory' address

def PagesSound (hhdmOffset : U64) (entries : List LimineMemmapEntry) (paging : SystemPaging) :
    Prop :=
  ∃ outstanding, PagesInv hhdmOffset entries ⟨paging, outstanding⟩

variable {hhdmOffset : U64} {entries : List LimineMemmapEntry} {fuel : Nat}
  {paging : SystemPaging} {outstanding : List Uintptr} {entry : LimineMemmapEntry} {frame : Frame}

theorem pageAddress_frame (usable : MemmapUsable hhdmOffset entries)
    (member : entry ∈ managed entries) {page : Nat} (bound : page < entry.pageCount) :
    ∃ frame : Frame, entry.pageAddress page = frame.address := by
  have number := pageAddress_toNat bound (managed_noWrap usable.toMemmapBootable member)
  obtain ⟨inside, isManaged⟩ := List.mem_filter.mp member
  have aligned := (usable.valid.aligned entry inside (managed_length isManaged).1).1
  have bytes := pageCount_bytes entry
  have low := usable.physical entry member
  rw [systemPageSize] at number aligned bytes
  apply exists_frame
  · rw [number, systemPageSize]
    omega
  · rw [number]
    omega

theorem RegionPage.inRegion (usable : MemmapUsable hhdmOffset entries)
    (region : RegionPage entries frame) : InRegion entries frame := by
  obtain ⟨entry, member, page, _, bound, same⟩ := region
  have bytes := pageCount_bytes entry
  refine ⟨entry, member, ?_⟩
  rw [same, pageAddress_toNat bound (managed_noWrap usable.toMemmapBootable member)]
  rw [systemPageSize] at bytes ⊢
  omega

theorem RegionPage.notNull (usable : MemmapUsable hhdmOffset entries)
    (region : RegionPage entries frame) : frame.address + hhdmOffset ≠ 0#64 := by
  obtain ⟨entry, member, _, upper⟩ := region.inRegion usable
  have fits := usable.direct entry member
  have positive := usable.notNull entry member
  intro null
  have number := congrArg BitVec.toNat null
  rw [BitVec.toNat_add, BitVec.toNat_ofNat] at number
  omega

theorem RegionPage.not_inMetadata (usable : MemmapUsable hhdmOffset entries)
    (region : RegionPage entries frame) {address : Uintptr}
    (inside : InPage (frame.address + hhdmOffset) address) :
    ¬ InMetadata hhdmOffset entries address := by
  obtain ⟨entry, member, page, behind, bound, same⟩ := region
  rintro ⟨other, otherMember, within⟩
  have number := pageAddress_toNat bound (managed_noWrap usable.toMemmapBootable member)
  have bytes := pageCount_bytes entry
  have otherBytes := pageCount_bytes other
  have metadata := metadataPages_le (List.mem_filter.mp otherMember).2
  have direct := usable.direct entry member
  have otherDirect := usable.direct other otherMember
  rw [← same] at number
  rw [InPage, BitVec.toNat_sub, BitVec.toNat_add, number] at inside
  rw [BitVec.toNat_sub, BitVec.toNat_add] at within
  rw [systemPageSize] at inside within bytes otherBytes
  by_cases one : entry = other
  · subst one
    omega
  · have apart := managed_apart usable.valid member otherMember one
    omega

theorem walk_sameOutsideMetadata (usable : MemmapUsable hhdmOffset entries)
    {memory memory' : Memory} {root : Frame}
    (tables : ∀ path table, tableAt amd64 (wordAt hhdmOffset memory) 4 root path = some table →
      RegionPage entries table)
    (same : SameOutsideMetadata hhdmOffset entries memory' memory) (virtual : Uintptr) :
    hardwareWalk hhdmOffset memory' root virtual = hardwareWalk hhdmOffset memory root virtual := by
  have alike : lookup amd64 (wordAt hhdmOffset memory') 4 root (slots virtual) =
      lookup amd64 (wordAt hhdmOffset memory) 4 root (slots virtual) := by
    refine (walk_congr (slots virtual) 4 root ?_).2
    intro path slot _ table _ found
    apply wordAt_congr
    intro address inside
    exact same address ((tables path table found).not_inMetadata usable inside)
  rw [hardwareWalk, hardwareWalk, alike]

theorem PagesInv.free_iff (inv : PagesInv hhdmOffset entries ⟨paging, outstanding⟩) :
    FreePage hhdmOffset entries paging frame ↔
      RegionPage entries frame ∧ frame.address ∉ outstanding := by
  constructor
  · rintro ⟨entry, member, page, onStack, same⟩
    obtain ⟨_, free, describes, members⟩ := inv.regions entry member
    rw [describes.stack] at onStack
    have bound := free.bounded page onStack
    obtain ⟨behind, missing⟩ := (members page bound).mp onStack
    rw [same]
    exact ⟨⟨entry, member, page, behind, bound, same⟩, missing⟩
  · rintro ⟨⟨entry, member, page, behind, bound, same⟩, missing⟩
    obtain ⟨_, free, describes, members⟩ := inv.regions entry member
    rw [same] at missing
    refine ⟨entry, member, page, ?_, same⟩
    rw [describes.stack]
    exact (members page bound).mpr ⟨behind, missing⟩

theorem physical_allocs (usable : MemmapUsable hhdmOffset entries)
    (enough : (managed entries).length < fuel) (kind : SystemPhysicalPageKind)
    (sound : PagesSound hhdmOffset entries paging) :
    ∃ result after, systemPagingPhysicalAlloc fuel kind paging = .ok (result, after) ∧
      PagesSound hhdmOffset entries after ∧
      (∀ address, result = some address → ∃ frame : Frame, address = frame.address ∧
        FreePage hhdmOffset entries paging frame) ∧
      ∀ frame : Frame, FreePage hhdmOffset entries after frame ↔
        FreePage hhdmOffset entries paging frame ∧ result ≠ some frame.address := by
  obtain ⟨outstanding, inv⟩ := sound
  have boot := usable.toMemmapBootable
  rcases inv.allocators.alloc_cases boot enough kind with
    ⟨_, call⟩ | ⟨entry, member, found, call⟩
  · refine ⟨none, paging, call, ⟨outstanding, inv⟩, by simp, ?_⟩
    simp
  · have hasPage := List.find?_some found
    obtain ⟨bound, _⟩ := (inv.regions entry member).allocator.serves
      (managed_noWrap boot member) hasPage
    have served := inv.served boot member hasPage
    obtain ⟨behind, missing, _⟩ := (inv.regions entry member).serves
      (managed_noWrap boot member) hasPage
    obtain ⟨taken, same⟩ := pageAddress_frame usable member bound
    simp only [Nat.mod_eq_of_lt (bound.trans_le (usable.indexed entry member))] at call
    refine ⟨_, _, call, ⟨_, served⟩, ?_, ?_⟩
    · rintro address equal
      cases equal
      refine ⟨taken, same, inv.free_iff.mpr ⟨⟨entry, member, _, behind, bound, same.symm⟩, ?_⟩⟩
      rw [← same]
      exact missing
    · intro other
      rw [served.free_iff, inv.free_iff, List.mem_cons, not_or, ne_eq, Option.some.injEq, and_assoc,
        @and_comm _ (other.address ∉ outstanding), eq_comm]

theorem physical_frees (usable : MemmapUsable hhdmOffset entries)
    (enough : (managed entries).length < fuel) (sound : PagesSound hhdmOffset entries paging)
    (region : RegionPage entries frame) (inUse : ¬ FreePage hhdmOffset entries paging frame) :
    ∃ after, physicalFree fuel frame.address paging = .ok after ∧
      PagesSound hhdmOffset entries after ∧
      ∀ other, FreePage hhdmOffset entries after other ↔
        FreePage hhdmOffset entries paging other ∨ other = frame := by
  obtain ⟨outstanding, inv⟩ := sound
  have given : frame.address ∈ outstanding := by
    rw [inv.free_iff] at inUse
    by_contra missing
    exact inUse ⟨region, missing⟩
  obtain ⟨after, call, inv'⟩ := inv.freed usable.toMemmapBootable enough given
  refine ⟨after, call, ⟨_, inv'⟩, ?_⟩
  intro other
  rw [inv'.free_iff, inv.free_iff, inv.distinct.mem_erase_iff]
  by_cases same : other = frame
  · simp [same, region]
  · have apart : other.address ≠ frame.address := fun equal => same (address_inj equal)
    simp [same, apart]

theorem physical_supply (usable : MemmapUsable hhdmOffset entries)
    (enough : (managed entries).length < fuel) :
    PageSupply (systemPagingPhysicalAlloc fuel) (physicalFree fuel)
      (PagesSound hhdmOffset entries) (FreePage hhdmOffset entries) (RegionPage entries) := by
  refine ⟨?_, ?_, ?_⟩
  · exact fun kind _ sound => physical_allocs usable enough kind sound
  · exact fun _ _ sound region inUse => physical_frees usable enough sound region inUse
  · intro pages frame sound free
    obtain ⟨outstanding, inv⟩ := sound
    exact (inv.free_iff.mp free).1

variable {contents : Uintptr → RegionContents} {cr3 : U64} {s : PagingState SystemPaging}

structure Booted (hhdmOffset : U64) (entries : List LimineMemmapEntry) (cr3 : U64)
    (s : PagingState SystemPaging) (root : Frame) (s' : PagingState SystemPaging) : Prop where
  inv : MemoryInv hhdmOffset root (PagesSound hhdmOffset entries) (FreePage hhdmOffset entries)
    (RegionPage entries) s'.memory [] ⟨s', []⟩
  walks : ∀ virtual, hardwareWalk hhdmOffset s'.memory root virtual =
    hardwareWalk hhdmOffset s.memory (entryFrame cr3) virtual
  outside : ∀ address, s'.memory address ≠ s.memory address → ∃ path table,
    tableAt amd64 (wordAt hhdmOffset s'.memory) 4 root path = some table ∧
      InPage (table.address + hhdmOffset) address

theorem elsewhere_nil {σ : Type} (available : σ → Frame → Prop) (pages : σ) (frame : Frame) :
    Elsewhere available [] pages frame ↔ available pages frame := by
  simp [Elsewhere]

theorem systemPagingSetupFull_booted (contents : Uintptr → RegionContents)
    (usable : MemmapUsable hhdmOffset entries)
    (enough : (managed entries).length < fuel)
    (apart : ∀ path table,
      tableAt amd64 (wordAt hhdmOffset s.memory) 4 (entryFrame cr3) path = some table →
      ¬ InRegion entries table) :
    ∃ pages, systemPagingSetup hhdmOffset contents (some entries) s.pages = .ok pages ∧
      Outcome (systemPagingPhysicalAlloc fuel) pages
        (1 + tablesBelow amd64 (wordAt hhdmOffset s.memory) allSlots 4 (entryFrame cr3))
        (·.2.pages) (systemPagingSetupFull fuel hhdmOffset contents (some entries) cr3 s)
        fun result =>
          ∃ root : Frame, result.1 = root.address ∧
            Booted hhdmOffset entries cr3 s root result.2 := by
  obtain ⟨pages, listsSet, done⟩ :=
    systemPagingSetup_done hhdmOffset contents entries usable.valid s.pages
  have initial := PagesInv.start usable.toMemmapBootable done
  have supply := physical_supply usable enough
  refine ⟨pages, listsSet, ?_⟩
  simp only [systemPagingSetupFull, listsSet, exec_bind_ok, and_flagAddress]
  have used (path : List Slot) (table : Frame)
      (found : tableAt amd64 (wordAt hhdmOffset s.memory) 4 (entryFrame cr3) path = some table) :
      ¬ Elsewhere (FreePage hhdmOffset entries) [] pages table := by
    rw [elsewhere_nil, initial.free_iff]
    exact fun free => apart path table found (free.1.inRegion usable)
  apply (systemPagingTableClone_outcome (s := ⟨s.memory, pages⟩) (supply.fresh [])
    ⟨⟨[], initial⟩, by simp⟩ used).bind_done
  rintro ⟨_, memory, after⟩ ⟨root, rfl, cloned⟩
  have region {frame : Frame} (taken : Taken (Elsewhere (FreePage hhdmOffset entries) [])
      ⟨s.memory, pages⟩ ⟨memory, after⟩ frame) : RegionPage entries frame := by
    have before := taken.1
    rw [elsewhere_nil, initial.free_iff] at before
    exact before.1
  refine .ok (by rfl)
    ⟨root, rfl, ⟨cloned.tree, List.nodup_nil, by simp, ?_, ?_, ?_, ?_⟩, cloned.walks, ?_⟩
  · intro path table found
    exact region ((cloned.tables table).mpr ⟨path, found⟩)
  · intro frame inRegion
    by_cases still : FreePage hhdmOffset entries after frame
    · exact Or.inl still
    · refine Or.inr (Or.inr ((cloned.tables frame).mp ⟨?_, ?_⟩))
      · rw [elsewhere_nil, initial.free_iff]
        exact ⟨inRegion, by simp⟩
      · rw [elsewhere_nil]
        exact still
  · exact fun _ changed => absurd rfl changed
  · exact fun _ _ => rfl
  · intro address changed
    obtain ⟨table, taken, inside⟩ := cloned.outside address changed
    obtain ⟨path, found⟩ := (cloned.tables table).mp taken
    exact ⟨path, table, found, inside⟩

def sampleMap : List LimineMemmapEntry := [⟨0x10000#64, 0xa000#64, 0#64⟩]

theorem sampleMap_usable : MemmapUsable 0#64 sampleMap where
  valid := ⟨by decide, by decide, by decide, by decide⟩
  noWrap := by decide
  low := by decide
  indexed := by decide
  physical := by decide
  direct := by decide
  notNull := by decide

theorem sampleMap_apart (path : List Slot) (table : Frame)
    (found : tableAt amd64 (wordAt 0#64 gibibytePage) 4 (entryFrame 0x1000#64) path = some table) :
    ¬ InRegion sampleMap table := by
  have root : entryFrame 0x1000#64 = 1#36 := by decide
  have only : managed sampleMap = sampleMap := by decide
  rintro ⟨entry, member, lower, _⟩
  rw [only, sampleMap, List.mem_singleton] at member
  subst member
  rw [root] at found
  rcases gibibytePage_tableAt found with ⟨_, rfl⟩ | ⟨_, rfl⟩
  · exact absurd lower (by decide)
  · exact absurd lower (by decide)

def sampleBoot : Exec (U64 × PagingState SystemPaging) :=
  systemPagingSetupFull 2 0#64 (fun _ => .zero) (some sampleMap) 0x1000#64 ⟨gibibytePage, .zero⟩

/-- The page table is replaced by a copy that translates alike whatever the allocators keep in
their metadata, if as many allocations in a row succeed as it has tables; they are pages of the
regions, and nothing else of the memory changes but the metadata. -/
theorem setup_replaces_table (usable : MemmapUsable hhdmOffset entries)
    (enough : (managed entries).length < fuel) (contents : Uintptr → RegionContents) (cr3 : U64)
    (s : PagingState SystemPaging)
    (apart : ∀ path table,
      tableAt amd64 (wordAt hhdmOffset s.memory) 4 (entryFrame cr3) path = some table →
      ¬ InRegion entries table) :
    ∃ pages, systemPagingSetup hhdmOffset contents (some entries) s.pages = .ok pages ∧
      Outcome (systemPagingPhysicalAlloc fuel) pages
        (1 + tablesBelow amd64 (wordAt hhdmOffset s.memory) allSlots 4 (entryFrame cr3))
        (·.2.pages) (systemPagingSetupFull fuel hhdmOffset contents (some entries) cr3 s)
        fun result =>
          ∃ root : Frame, result.1 = root.address ∧
            (∀ memory, SameOutsideMetadata hhdmOffset entries memory result.2.memory →
              ∀ virtual, hardwareWalk hhdmOffset memory root virtual =
                hardwareWalk hhdmOffset s.memory (entryFrame cr3) virtual) ∧
            (∀ frame, RegionPage entries frame ↔ (FreePage hhdmOffset entries result.2.pages frame ∨
              ∃ path, tableAt amd64 (wordAt hhdmOffset result.2.memory) 4 root path =
                some frame)) ∧
            (∀ path table,
              tableAt amd64 (wordAt hhdmOffset result.2.memory) 4 root path = some table →
              ¬ FreePage hhdmOffset entries result.2.pages table) ∧
            ∀ address, result.2.memory address ≠ s.memory address →
              ¬ InMetadata hhdmOffset entries address ∧ ∃ path table,
                tableAt amd64 (wordAt hhdmOffset result.2.memory) 4 root path = some table ∧
                  InPage (table.address + hhdmOffset) address := by
  obtain ⟨pages, listsSet, outcome⟩ :=
    systemPagingSetupFull_booted contents usable enough apart
  refine ⟨pages, listsSet, outcome.mono ?_⟩
  rintro result ⟨root, isRoot, booted⟩
  have inv := booted.inv
  refine ⟨root, isRoot, ?_, ?_, ?_, ?_⟩
  · intro memory same virtual
    rw [walk_sameOutsideMetadata usable inv.tables same, booted.walks]
  · intro frame
    constructor
    · intro region
      rcases inv.accounted frame region with free | member | table
      · exact Or.inl free
      · exact absurd member (by simp)
      · exact Or.inr table
    · rintro (free | ⟨path, found⟩)
      · exact (physical_supply usable enough).within _ _ inv.tree.valid.1 free
      · exact inv.tables path frame found
  · intro path table found free
    exact inv.tree.unused path table found ((elsewhere_nil ..).mpr free)
  · intro address changed
    obtain ⟨path, table, found, inside⟩ := booted.outside address changed
    exact ⟨(inv.tables path table found).not_inMetadata usable inside, path, table, found, inside⟩

theorem setup_replaces_table_sample : ∃ newCr3 start, sampleBoot = .ok (newCr3, start) ∧
    hardwareWalk 0#64 start.memory (entryFrame newCr3) 0x1234#64 =
      some ⟨0x10000001234#64, 3, 0x83#64, [3#64]⟩ := by
  obtain ⟨⟨newCr3, start⟩, returned⟩ := exec_isOk (show sampleBoot.isOk = true by decide +kernel)
  obtain ⟨_, _, outcome⟩ := setup_replaces_table sampleMap_usable (show _ < 2 by decide)
    (fun _ => .zero) 0x1000#64 ⟨gibibytePage, .zero⟩ sampleMap_apart
  obtain ⟨root, isRoot, walks, _⟩ := outcome.of_ok returned
  simp only at isRoot
  refine ⟨newCr3, start, returned, ?_⟩
  rw [isRoot, entryFrame_address, walks _ fun _ _ => rfl]
  decide

variable {newCr3 : U64} {start : PagingState SystemPaging} {done : List MemoryRequest}
  {m : KernelMemory SystemPaging}

theorem booted_run (usable : MemmapUsable hhdmOffset entries)
    (enough : (managed entries).length < fuel)
    (apart : ∀ path table,
      tableAt amd64 (wordAt hhdmOffset s.memory) 4 (entryFrame cr3) path = some table →
      ¬ InRegion entries table)
    (boot : systemPagingSetupFull fuel hhdmOffset contents (some entries) cr3 s =
      .ok (newCr3, start))
    (run : MemoryRun (systemPagingPhysicalAlloc fuel) (physicalFree fuel) hhdmOffset
      (entryFrame newCr3) ⟨start, []⟩ done m) :
    Booted hhdmOffset entries cr3 s (entryFrame newCr3) start ∧
      (entryFrame newCr3).address + hhdmOffset ≠ 0#64 ∧
      MemoryInv hhdmOffset (entryFrame newCr3) (PagesSound hhdmOffset entries)
        (FreePage hhdmOffset entries) (RegionPage entries) start.memory done m := by
  obtain ⟨_, _, outcome⟩ := systemPagingSetupFull_booted contents usable enough apart
  obtain ⟨root, rfl, booted⟩ := outcome.of_ok boot
  rw [entryFrame_address] at run ⊢
  have notNull := (booted.inv.tables [] root (Library.RadixTable.tableAt_nil ..)).notNull usable
  exact ⟨booted, notNull, run.inv (physical_supply usable enough) notNull booted.inv⟩

def sampleRequests : List MemoryRequest :=
  [.alloc .normal, .table (.map 0x5000#64 0x8000000000#64 1#64)]

theorem sampleRun : ∃ newCr3 start m, sampleBoot = .ok (newCr3, start) ∧
    MemoryRun (systemPagingPhysicalAlloc 2) (physicalFree 2) 0#64 (entryFrame newCr3) ⟨start, []⟩
      sampleRequests m := by
  have completes : (do
      let (newCr3, start) ← sampleBoot
      sampleRequests.foldlM (KernelMemory.step (systemPagingPhysicalAlloc 2) (physicalFree 2) 0#64
        ((entryFrame newCr3).address + 0#64)) ⟨start, []⟩).isOk = true := by decide +kernel
  obtain ⟨m, returned⟩ := exec_isOk completes
  rw [exec_bind_eq_ok] at returned
  obtain ⟨⟨newCr3, start⟩, booted, stepped⟩ := returned
  simp only [sampleRequests, List.foldlM_cons, List.foldlM_nil, exec_bind_eq_ok, exec_pure,
    Except.ok.injEq] at stepped
  obtain ⟨held, handed, mapped, called, rfl⟩ := stepped
  obtain ⟨known, _⟩ := booted_run (s := ⟨gibibytePage, .zero⟩) sampleMap_usable (by decide)
    sampleMap_apart booted .start
  have first : MemoryRun (systemPagingPhysicalAlloc 2) (physicalFree 2) 0#64 (entryFrame newCr3)
      ⟨start, []⟩ [.alloc .normal] held := .step _ .start trivial handed
  refine ⟨newCr3, start, _, booted, .step _ first ⟨?_, ?_⟩ called⟩
  · simp [TableOp.Valid, Canonical, systemPageSize]
  · have same : held.paging.memory = start.memory := by
      rw [KernelMemory.step, exec_bind_eq_ok] at handed
      obtain ⟨_, _, handed⟩ := handed
      cases handed
      rfl
    have none : hardwareWalk 0#64 gibibytePage (entryFrame 0x1000#64) 0x8000000000#64 = none := by
      decide
    intro translation walk
    rw [same, TableOp.virtual, known.walks, none] at walk
    cases walk

structure PagesPartitioned (hhdmOffset : U64) (entries : List LimineMemmapEntry) (root : Frame)
    (m : KernelMemory SystemPaging) : Prop where
  all : ∀ frame, RegionPage entries frame ↔ (FreePage hhdmOffset entries m.paging.pages frame ∨
    frame ∈ m.held ∨
    ∃ path, tableAt amd64 (wordAt hhdmOffset m.paging.memory) 4 root path = some frame)
  heldInUse : ∀ frame ∈ m.held, ¬ FreePage hhdmOffset entries m.paging.pages frame
  heldOnce : m.held.Nodup
  tableInUse : ∀ path table,
    tableAt amd64 (wordAt hhdmOffset m.paging.memory) 4 root path = some table →
    ¬ FreePage hhdmOffset entries m.paging.pages table ∧ table ∉ m.held
  tableOnce : ∀ path other table,
    tableAt amd64 (wordAt hhdmOffset m.paging.memory) 4 root path = some table →
    tableAt amd64 (wordAt hhdmOffset m.paging.memory) 4 root other = some table → path = other

theorem kernel_pages_partitioned (usable : MemmapUsable hhdmOffset entries)
    (enough : (managed entries).length < fuel)
    (apart : ∀ path table,
      tableAt amd64 (wordAt hhdmOffset s.memory) 4 (entryFrame cr3) path = some table →
      ¬ InRegion entries table)
    (boot : systemPagingSetupFull fuel hhdmOffset contents (some entries) cr3 s =
      .ok (newCr3, start))
    (run : MemoryRun (systemPagingPhysicalAlloc fuel) (physicalFree fuel) hhdmOffset
      (entryFrame newCr3) ⟨start, []⟩ done m) :
    PagesPartitioned hhdmOffset entries (entryFrame newCr3) m := by
  obtain ⟨_, _, inv⟩ := booted_run usable enough apart boot run
  have supply := physical_supply usable enough
  refine ⟨?_, inv.tree.valid.2, inv.distinct, ?_, inv.tree.sole⟩
  · intro frame
    constructor
    · exact inv.accounted frame
    · rintro (free | member | ⟨path, found⟩)
      · exact supply.within _ _ inv.tree.valid.1 free
      · exact inv.placed frame member
      · exact inv.tables path frame found
  · intro path table found
    have unused := inv.tree.unused path table found
    exact ⟨fun free => unused (Or.inl free), fun member => unused (Or.inr member)⟩

theorem kernel_pages_partitioned_sample : ∃ newCr3 start m, sampleBoot = .ok (newCr3, start) ∧
    MemoryRun (systemPagingPhysicalAlloc 2) (physicalFree 2) 0#64 (entryFrame newCr3) ⟨start, []⟩
      sampleRequests m ∧
    PagesPartitioned 0#64 sampleMap (entryFrame newCr3) m := by
  obtain ⟨newCr3, start, m, booted, run⟩ := sampleRun
  exact ⟨newCr3, start, m, booted, run,
    kernel_pages_partitioned (s := ⟨gibibytePage, .zero⟩) sampleMap_usable (by decide)
      sampleMap_apart booted run⟩

/-- An address translates as the last operation on its page says, and as the bootloader had it
where there was none; writes reach pages of the regions only, never their metadata. -/
theorem kernel_translations_follow_requests (usable : MemmapUsable hhdmOffset entries)
    (enough : (managed entries).length < fuel)
    (apart : ∀ path table,
      tableAt amd64 (wordAt hhdmOffset s.memory) 4 (entryFrame cr3) path = some table →
      ¬ InRegion entries table)
    (boot : systemPagingSetupFull fuel hhdmOffset contents (some entries) cr3 s =
      .ok (newCr3, start))
    (run : MemoryRun (systemPagingPhysicalAlloc fuel) (physicalFree fuel) hhdmOffset
      (entryFrame newCr3) ⟨start, []⟩ done m) :
    (∀ memory, SameOutsideMetadata hhdmOffset entries memory m.paging.memory →
      ∀ virtual, Canonical virtual →
        TranslatesAs virtual (hardwareWalk hhdmOffset s.memory (entryFrame cr3) virtual)
          (done.filterMap MemoryRequest.op?)
          (hardwareWalk hhdmOffset memory (entryFrame newCr3) virtual)) ∧
    ∀ address, m.paging.memory address ≠ s.memory address →
      ¬ InMetadata hhdmOffset entries address ∧
        ∃ frame, RegionPage entries frame ∧ InPage (frame.address + hhdmOffset) address := by
  obtain ⟨booted, _, inv⟩ := booted_run usable enough apart boot run
  constructor
  · intro memory same virtual canonical
    rw [← booted.walks virtual, walk_sameOutsideMetadata usable inv.tables same]
    exact inv.walks virtual canonical
  · intro address changed
    by_cases later : m.paging.memory address = start.memory address
    · rw [later] at changed
      obtain ⟨path, table, found, inside⟩ := booted.outside address changed
      have region := booted.inv.tables path table found
      exact ⟨region.not_inMetadata usable inside, table, region, inside⟩
    · obtain ⟨frame, region, inside⟩ := inv.writes address later
      exact ⟨region.not_inMetadata usable inside, frame, region, inside⟩

theorem kernel_translations_follow_requests_sample : ∃ newCr3 start m upper,
    sampleBoot = .ok (newCr3, start) ∧
    MemoryRun (systemPagingPhysicalAlloc 2) (physicalFree 2) 0#64 (entryFrame newCr3) ⟨start, []⟩
      sampleRequests m ∧
    hardwareWalk 0#64 m.paging.memory (entryFrame newCr3) 0x8000000123#64 =
      some ⟨0x5123#64, 1, 0x8000000000000003#64, upper⟩ := by
  obtain ⟨newCr3, start, m, booted, run⟩ := sampleRun
  have walks := (kernel_translations_follow_requests (s := ⟨gibibytePage, .zero⟩)
    sampleMap_usable (by decide) sampleMap_apart booted run).1 _ (fun _ _ => rfl) 0x8000000123#64
    (by simp [Canonical])
  have last : lastOn (virtualPage 0x8000000123#64) (sampleRequests.filterMap MemoryRequest.op?) =
      some (.map 0x5000#64 0x8000000000#64 1#64) := by decide
  rw [TranslatesAs, last] at walks
  obtain ⟨upper, walk⟩ := walks
  exact ⟨newCr3, start, m, upper, booted, run, walk⟩

structure RequestsServed (fuel : Nat) (hhdmOffset : U64) (entries : List LimineMemmapEntry)
    (root : Frame) (m : KernelMemory SystemPaging) : Prop where
  alloc : ∀ kind, ∃ next, m.step (systemPagingPhysicalAlloc fuel) (physicalFree fuel) hhdmOffset
      (root.address + hhdmOffset) (.alloc kind) = .ok next ∧
    ((∃ frame, FreePage hhdmOffset entries m.paging.pages frame ∧
        next.held = frame :: m.held) ∨
      next.held = m.held ∧ ∀ pa ∈ searchPath hhdmOffset entries kind,
        hasFreePage (m.paging.pages.allocators pa) = false)
  free : ∀ frame ∈ m.held, ∃ next, m.step (systemPagingPhysicalAlloc fuel) (physicalFree fuel)
      hhdmOffset (root.address + hhdmOffset) (.free frame) = .ok next ∧
    FreePage hhdmOffset entries next.paging.pages frame
  table : ∀ op : TableOp, op.Valid →
    MappedSmall hhdmOffset m.paging.memory root op.virtual →
    Outcome (systemPagingPhysicalAlloc fuel) m.paging.pages
      (missing hhdmOffset m.paging.memory root (upperSlots op.virtual)) (·.paging.pages)
      (m.step (systemPagingPhysicalAlloc fuel) (physicalFree fuel) hhdmOffset
        (root.address + hhdmOffset) (.table op)) fun next => next.held = m.held

theorem kernel_requests_served (usable : MemmapUsable hhdmOffset entries)
    (enough : (managed entries).length < fuel)
    (apart : ∀ path table,
      tableAt amd64 (wordAt hhdmOffset s.memory) 4 (entryFrame cr3) path = some table →
      ¬ InRegion entries table)
    (boot : systemPagingSetupFull fuel hhdmOffset contents (some entries) cr3 s =
      .ok (newCr3, start))
    (run : MemoryRun (systemPagingPhysicalAlloc fuel) (physicalFree fuel) hhdmOffset
      (entryFrame newCr3) ⟨start, []⟩ done m) :
    RequestsServed fuel hhdmOffset entries (entryFrame newCr3) m := by
  obtain ⟨_, notNull, inv⟩ := booted_run usable enough apart boot run
  have supply := physical_supply usable enough
  obtain ⟨sound, heldInUse⟩ := inv.tree.valid
  refine ⟨?_, ?_, ?_⟩
  · intro kind
    obtain ⟨outstanding, pagesInv⟩ := sound
    obtain ⟨result, after, call, _, took, _⟩ :=
      physical_allocs usable enough kind ⟨outstanding, pagesInv⟩
    refine ⟨_, by rw [KernelMemory.step, call]; rfl, ?_⟩
    cases result with
    | some address =>
        obtain ⟨frame, rfl, free⟩ := took address rfl
        refine Or.inl ⟨frame, free, ?_⟩
        simp [entryFrame_address]
    | none =>
        refine Or.inr ⟨rfl, ?_⟩
        rcases pagesInv.allocators.alloc_cases usable.toMemmapBootable enough kind with
          ⟨nowhere, _⟩ | ⟨_, _, _, served⟩
        · simpa using nowhere
        · rw [call] at served
          cases served
  · intro frame member
    obtain ⟨after, call, _, rest⟩ :=
      physical_frees usable enough sound (inv.placed frame member) (heldInUse frame member)
    exact ⟨_, by rw [KernelMemory.step, call]; rfl, (rest frame).mpr (Or.inr rfl)⟩
  · intro op isValid mapped
    exact (inv.operated supply notNull isValid mapped).mono fun _ done => done.1

theorem kernel_requests_served_sample : ∃ newCr3 start m, sampleBoot = .ok (newCr3, start) ∧
    MemoryRun (systemPagingPhysicalAlloc 2) (physicalFree 2) 0#64 (entryFrame newCr3) ⟨start, []⟩
      sampleRequests m ∧
    RequestsServed 2 0#64 sampleMap (entryFrame newCr3) m := by
  obtain ⟨newCr3, start, m, booted, run⟩ := sampleRun
  exact ⟨newCr3, start, m, booted, run,
    kernel_requests_served (s := ⟨gibibytePage, .zero⟩) sampleMap_usable (by decide)
      sampleMap_apart booted run⟩

end Drastic
