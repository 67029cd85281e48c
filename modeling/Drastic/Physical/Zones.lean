import Drastic.Physical.PageRuns

namespace Drastic

variable {hhdmOffset : U64} {entries : List LimineMemmapEntry} {fuel : Nat}
  {paging : SystemPaging} {entry : LimineMemmapEntry}

def SystemPhysicalPageKind.limit : SystemPhysicalPageKind → Option Nat
  | .normal => none
  | .mb16 => some (16 * 1024 * 1024)
  | .gb4 => some (4 * 1024 * 1024 * 1024)

def SystemPhysicalPageKind.Serves (kind : SystemPhysicalPageKind)
    (entry : LimineMemmapEntry) : Prop :=
  ∀ limit ∈ kind.limit, entry.EndsBefore limit = true

def Exhausted (hhdmOffset : U64) (paging : SystemPaging) (entry : LimineMemmapEntry) : Prop :=
  (paging.allocators (entry.pointer hhdmOffset)).stackTop < 0

def TakenFrom (hhdmOffset : U64) (paging after : SystemPaging) (entry : LimineMemmapEntry) :
    Prop :=
  let pa := paging.allocators (entry.pointer hhdmOffset)
  ¬ Exhausted hhdmOffset paging entry ∧
    after = storeAllocator paging (entry.pointer hhdmOffset) (takePage pa (topPage pa))

structure PageIn (entry : LimineMemmapEntry) (address : Uintptr) : Prop where
  aligned : address.toNat % systemPageSize = 0
  lower : entry.base.toNat ≤ address.toNat
  upper : address.toNat + systemPageSize ≤ entry.base.toNat + entry.length.toNat

structure ZonesHonoured (hhdmOffset : U64) (entries : List LimineMemmapEntry)
    (kind : SystemPhysicalPageKind) (paging : SystemPaging) (result : Option Uintptr)
    (after : SystemPaging) : Prop where
  below : ∀ address ∈ result, ∀ limit ∈ kind.limit, address.toNat + systemPageSize ≤ limit
  fails : result = none ↔
    ∀ entry ∈ managed entries, kind.Serves entry → Exhausted hhdmOffset paging entry
  unchanged : result = none → after = paging
  taken : ∀ address ∈ result, ∃ entry ∈ managed entries, kind.Serves entry ∧
    PageIn entry address ∧ TakenFrom hhdmOffset paging after entry ∧
    (kind = .normal → entry.EndsBefore (16 * 1024 * 1024) = true →
      ∀ other ∈ managed entries, ¬ other.EndsBefore (16 * 1024 * 1024) = true →
        Exhausted hhdmOffset paging other)

theorem hasFreePage_eq_false_iff :
    hasFreePage (paging.allocators (entry.pointer hhdmOffset)) = false ↔
      Exhausted hhdmOffset paging entry := by
  rw [hasFreePage, decide_eq_false_iff_not, Exhausted, Int.not_le]

theorem managed_ordered (valid : MemmapValid entries) :
    (managed entries).Pairwise fun a b => a.base.toNat + a.length.toNat ≤ b.base.toNat := by
  have all : (managed entries).Sublist entries := List.filter_sublist
  have sorted := valid.sorted.sublist all
  have within : (managed entries).Sublist
      (entries.filter fun entry => entry.type = limineMemmapUsable) := by
    apply List.monotone_filter_right _
    intro entry isManaged
    exact decide_eq_true (managed_length isManaged).1
  refine List.Pairwise.imp_of_mem ?_ (sorted.and (valid.disjoint.sublist within))
  rintro a b - member ⟨lower, before | after⟩
  · exact before
  · have long := (managed_length (List.mem_filter.mp member).2).2
    omega

/-- Once a region ends past 16 MiB, so do all regions after it. -/
theorem fromNon16mb_high (valid : MemmapValid entries) {entry : LimineMemmapEntry}
    (member : entry ∈ fromNon16mb entries) : ¬ entry.EndsBefore (16 * 1024 * 1024) = true := by
  have ordered := (managed_ordered valid).sublist (List.dropWhile_sublist (inZone .next16mb))
  have within (other : LimineMemmapEntry) (inside : other ∈ fromNon16mb entries) :
      other ∈ managed entries := (List.dropWhile_sublist _).subset inside
  have first := List.head?_dropWhile_not (inZone .next16mb) (managed entries)
  rw [fromNon16mb] at member within
  cases shape : (managed entries).dropWhile (inZone .next16mb) with
  | nil =>
      rw [shape] at member
      cases member
  | cons head rest =>
      rw [shape] at member within ordered first
      have headHigh : ¬ head.EndsBefore (16 * 1024 * 1024) = true := by
        have short := managed_length_lt valid (within head List.mem_cons_self)
        rw [List.head?_cons] at first
        change inZone .next16mb head = false at first
        rw [← inZone_16mb short, first]
        decide
      rcases List.mem_cons.mp member with rfl | later
      · exact headHigh
      · have behind := (List.pairwise_cons.mp ordered).1 entry later
        rw [LimineMemmapEntry.EndsBefore, decide_eq_true_eq] at headHigh ⊢
        omega

theorem serves_normal (entry : LimineMemmapEntry) :
    SystemPhysicalPageKind.normal.Serves entry := by
  intro limit isLimit
  exact absurd isLimit (Option.not_mem_none limit)

theorem mem_searchPath (valid : MemmapValid entries) (kind : SystemPhysicalPageKind)
    (cell : AllocatorPointer) : cell ∈ searchPath hhdmOffset entries kind ↔
      ∃ entry ∈ managed entries, kind.Serves entry ∧ entry.pointer hhdmOffset = cell := by
  cases kind with
  | mb16 =>
      rw [searchPath, listed_16mb valid]
      simp [SystemPhysicalPageKind.Serves, SystemPhysicalPageKind.limit, and_assoc]
  | gb4 =>
      rw [searchPath, listed_4gb valid]
      simp [SystemPhysicalPageKind.Serves, SystemPhysicalPageKind.limit, and_assoc]
  | normal =>
      rw [searchPath, List.mem_append, List.mem_map]
      constructor
      · rintro (⟨entry, late, same⟩ | low)
        · exact ⟨entry, (List.dropWhile_sublist _).subset late, serves_normal entry, same⟩
        · obtain ⟨entry, inside, same⟩ := List.mem_map.mp low
          exact ⟨entry, (List.mem_filter.mp inside).1, serves_normal entry, same⟩
      · rintro ⟨entry, member, -, rfl⟩
        rcases mem_fromNon16mb member with low | late
        · exact Or.inr (List.mem_map_of_mem (List.mem_filter.mpr ⟨member, low⟩))
        · exact Or.inl ⟨entry, late, rfl⟩

/-- A request for any page only comes to low memory when all other memory is used up. -/
theorem low_memory_last (valid : MemmapValid entries) (member : entry ∈ managed entries)
    (found : (searchPath hhdmOffset entries .normal).find?
      (fun pa => hasFreePage (paging.allocators pa)) = some (entry.pointer hhdmOffset))
    (low : entry.EndsBefore (16 * 1024 * 1024) = true) {other : LimineMemmapEntry}
    (otherMember : other ∈ managed entries)
    (high : ¬ other.EndsBefore (16 * 1024 * 1024) = true) : Exhausted hhdmOffset paging other := by
  have late : other ∈ fromNon16mb entries := by
    apply (mem_fromNon16mb otherMember).resolve_left
    rwa [inZone_16mb (managed_length_lt valid otherMember)]
  rw [searchPath, List.find?_append] at found
  cases first : ((fromNon16mb entries).map (LimineMemmapEntry.pointer hhdmOffset)).find?
      (fun pa => hasFreePage (paging.allocators pa)) with
  | none =>
      rw [List.find?_eq_none] at first
      have noPage := first _ (List.mem_map_of_mem late)
      exact hasFreePage_eq_false_iff.mp (by simpa using noPage)
  | some cell =>
      rw [first, Option.some_or, Option.some.injEq] at found
      subst found
      obtain ⟨early, inside, same⟩ := List.mem_map.mp (List.mem_of_find?_eq_some first)
      have isEntry : early = entry := by
        by_contra different
        exact managed_pointer_ne valid ((List.dropWhile_sublist _).subset inside) member different
          same
      subst isEntry
      exact absurd low (fromNon16mb_high valid inside)

theorem zonesHonoured_none
    (all : ∀ entry ∈ managed entries, kind.Serves entry → Exhausted hhdmOffset paging entry) :
    ZonesHonoured hhdmOffset entries kind paging none paging where
  below := by
    intro address absent
    exact absurd absent (Option.not_mem_none address)
  fails := iff_of_true rfl all
  unchanged := fun _ => rfl
  taken := by
    intro address absent
    exact absurd absent (Option.not_mem_none address)

theorem zonesHonoured_some (member : entry ∈ managed entries) (serves : kind.Serves entry)
    (inside : PageIn entry address) (taken : TakenFrom hhdmOffset paging after entry)
    (lowLast : kind = .normal → entry.EndsBefore (16 * 1024 * 1024) = true →
      ∀ other ∈ managed entries, ¬ other.EndsBefore (16 * 1024 * 1024) = true →
        Exhausted hhdmOffset paging other) :
    ZonesHonoured hhdmOffset entries kind paging (some address) after where
  below := by
    intro other isAddress limit isLimit
    have upper := inside.upper
    have ends := serves limit isLimit
    rw [LimineMemmapEntry.EndsBefore, decide_eq_true_eq] at ends
    rw [← Option.mem_some.mp isAddress]
    omega
  fails := iff_of_false (Option.some_ne_none address)
    fun all => taken.1 (all entry member serves)
  unchanged := fun noAddress => absurd noAddress (Option.some_ne_none address)
  taken := by
    intro other isAddress
    rw [← Option.mem_some.mp isAddress]
    exact ⟨entry, member, serves, inside, taken, lowLast⟩

theorem pageIn_pageAddress (boot : MemmapBootable entries) (member : entry ∈ managed entries)
    {page : Nat} (bound : page < entry.pageCount) : PageIn entry (entry.pageAddress page) := by
  obtain ⟨isEntry, isManaged⟩ := List.mem_filter.mp member
  have number := pageAddress_toNat bound (managed_noWrap boot member)
  have aligned := (boot.valid.aligned entry isEntry (managed_length isManaged).1).1
  have bytes := pageCount_bytes entry
  rw [systemPageSize] at number aligned bytes
  refine ⟨?_, ?_, ?_⟩ <;> rw [number]
  · rw [systemPageSize]
    omega
  · omega
  · rw [systemPageSize]
    omega

theorem AllocatorsInv.honoured (boot : MemmapBootable entries)
    (inv : AllocatorsInv hhdmOffset entries paging) (enough : (managed entries).length < fuel)
    (kind : SystemPhysicalPageKind) :
    ∃ result after, systemPagingPhysicalAlloc fuel kind paging = .ok (result, after) ∧
      ZonesHonoured hhdmOffset entries kind paging result after := by
  rcases inv.alloc_cases boot enough kind with ⟨notFound, call⟩ | ⟨entry, member, found, call⟩
  · rw [List.find?_eq_none] at notFound
    refine ⟨none, paging, call, zonesHonoured_none ?_⟩
    intro entry member serves
    have noPage := notFound _ ((mem_searchPath boot.valid kind _).mpr ⟨entry, member, serves, rfl⟩)
    exact hasFreePage_eq_false_iff.mp (by simpa using noPage)
  · have hasPage := List.find?_some found
    have left : ¬ Exhausted hhdmOffset paging entry := by
      rw [← hasFreePage_eq_false_iff, hasPage]
      decide
    have serves : kind.Serves entry := by
      obtain ⟨other, otherMember, serves, same⟩ :=
        (mem_searchPath boot.valid kind _).mp (List.mem_of_find?_eq_some found)
      have isEntry : other = entry := by
        by_contra different
        exact managed_pointer_ne boot.valid otherMember member different same
      exact isEntry ▸ serves
    have bound := ((inv.regions entry member).serves (managed_noWrap boot member) hasPage).1
    have inside := pageIn_pageAddress boot member ((Nat.mod_le _ (2 ^ 20)).trans_lt bound)
    refine ⟨_, _, call, zonesHonoured_some member serves inside ⟨left, rfl⟩ ?_⟩
    intro isNormal low other otherMember high
    subst isNormal
    exact low_memory_last boot.valid member found low otherMember high

theorem AllocatorsInv.store (valid : MemmapValid entries)
    (inv : AllocatorsInv hhdmOffset entries paging) (member : entry ∈ managed entries)
    {value : SystemPhysicalAllocator}
    (same : ∀ link, value.link link =
      (paging.allocators (entry.pointer hhdmOffset)).link link)
    (allocator : RegionAllocator value entry) :
    AllocatorsInv hhdmOffset entries
      (storeAllocator paging (entry.pointer hhdmOffset) value) := by
  refine ⟨inv.chained.store _ _ same, ?_⟩
  intro other otherMember
  by_cases isEntry : other = entry
  · subst isEntry
    simpa [storeAllocator] using allocator
  · have apart : other.pointer hhdmOffset ≠ entry.pointer hhdmOffset :=
      managed_pointer_ne valid otherMember member isEntry
    simp only [storeAllocator, Function.update_of_ne apart]
    exact inv.regions other otherMember

theorem RegionAllocator.gives {pa last : SystemPhysicalAllocator}
    (allocator : RegionAllocator pa entry) {address : Uintptr}
    (call : systemPaFree pa address = .ok last) :
    RegionAllocator last entry ∧ ∀ link, last.link link = pa.link link := by
  obtain ⟨base, free, describes⟩ := allocator
  obtain ⟨inside, used, rfl⟩ := systemPaFree_ok describes call
  have bound := pageOf_lt describes.small describes.size inside
  exact ⟨⟨base, _, describes.give bound used⟩, givePage_link pa _⟩

theorem AllocatorsInv.step (boot : MemmapBootable entries) {m next : Handouts}
    (inv : AllocatorsInv hhdmOffset entries m.paging) (enough : (managed entries).length < fuel)
    {request : PageRequest} (call : m.step fuel request = .ok next) :
    AllocatorsInv hhdmOffset entries next.paging := by
  cases request with
  | alloc kind =>
      rcases inv.alloc_cases boot enough kind with ⟨_, none⟩ | ⟨entry, member, found, served⟩
      · rw [Handouts.step, none] at call
        cases call
        exact inv
      · rw [Handouts.step, served] at call
        cases call
        have hasPage := List.find?_some found
        obtain ⟨_, _, allocator⟩ :=
          (inv.regions entry member).serves (managed_noWrap boot member) hasPage
        exact inv.store boot.valid member (takePage_link _ _) allocator
  | free address =>
      rw [Handouts.step, exec_bind_eq_ok] at call
      obtain ⟨freed, call, same⟩ := call
      cases same
      have chain := inv.chained.first
      rw [listed_next] at chain
      have proceeds (cell : AllocatorPointer)
          (listed : cell ∈ (managed entries).map (LimineMemmapEntry.pointer hhdmOffset)) :
          systemPagingPaIsSentinel m.paging cell = .ok false := by
        obtain ⟨entry, member, rfl⟩ := List.mem_map.mp listed
        exact inv.proceeds member
      obtain ⟨cell, listed, pa, done, rfl⟩ := freeAlong_ok _ address
        (isSentinel_sentinel (inv.chained.sentinel .next)) _ fuel chain proceeds call
      obtain ⟨entry, member, rfl⟩ := List.mem_map.mp listed
      obtain ⟨allocator, links⟩ := (inv.regions entry member).gives done
      exact inv.store boot.valid member links allocator

theorem PageRun.allocators (boot : MemmapBootable entries)
    (done : SetupDone hhdmOffset entries paging) (enough : (managed entries).length < fuel)
    {steps : List (Handouts × PageRequest)} {m : Handouts} (run : PageRun fuel paging steps m) :
    AllocatorsInv hhdmOffset entries m.paging := by
  induction run with
  | start => exact (PagesInv.start boot done).allocators
  | step request _ _ call ih => exact ih.step boot enough call

/-- In every reachable state each request is answered from its zone, and fails only when
its zone is used up. -/
theorem zones_honoured (hhdmOffset : U64) (contents : Uintptr → RegionContents)
    (entries : List LimineMemmapEntry) (paging : SystemPaging) (fuel : Nat)
    (boot : MemmapBootable entries) (enough : (managed entries).length < fuel) :
    ∃ start, systemPagingSetup hhdmOffset contents (some entries) paging = .ok start ∧
      ∀ steps m, PageRun fuel start steps m → ∀ kind, ∃ result after,
        systemPagingPhysicalAlloc fuel kind m.paging = .ok (result, after) ∧
          ZonesHonoured hhdmOffset entries kind m.paging result after := by
  obtain ⟨start, completed, done⟩ :=
    systemPagingSetup_done hhdmOffset contents entries boot.valid paging
  refine ⟨start, completed, fun steps m run kind => ?_⟩
  exact (run.allocators boot done enough).honoured boot enough kind

theorem zones_honoured_sample :
    ∃ start, systemPagingSetup 0xffff800000000000#64 (fun _ => .zero)
        (some [⟨0x1000#64, 0x9e000#64, 0#64⟩, ⟨0x100000#64, 0x7ee0000#64, 0#64⟩]) .zero =
          .ok start ∧
      ∀ steps m, PageRun 3 start steps m → ∀ kind, ∃ result after,
        systemPagingPhysicalAlloc 3 kind m.paging = .ok (result, after) ∧
          ZonesHonoured 0xffff800000000000#64 [⟨0x1000#64, 0x9e000#64, 0#64⟩,
            ⟨0x100000#64, 0x7ee0000#64, 0#64⟩] kind m.paging result after :=
  zones_honoured 0xffff800000000000#64 (fun _ => .zero)
    [⟨0x1000#64, 0x9e000#64, 0#64⟩, ⟨0x100000#64, 0x7ee0000#64, 0#64⟩] .zero 3
    ⟨⟨by decide, by decide, by decide, by decide⟩, by decide, by decide⟩ (by decide)

end Drastic
