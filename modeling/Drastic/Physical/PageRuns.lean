import Drastic.Physical.Handouts

namespace Drastic

open Library.Chain (ChainFrom chain_congr chain_nodup)

inductive PageRequest where
  | alloc (kind : SystemPhysicalPageKind)
  | free (address : Uintptr)
  deriving DecidableEq, Repr

structure Handouts where
  paging : SystemPaging
  outstanding : List Uintptr

namespace Handouts

def step (fuel : Nat) (m : Handouts) : PageRequest → Exec Handouts
  | .alloc kind => do
      let (result, paging) ← systemPagingPhysicalAlloc fuel kind m.paging
      return ⟨paging, result.toList ++ m.outstanding⟩
  | .free address => do
      let paging ← systemPagingPhysicalFree fuel m.paging address
      return ⟨paging, m.outstanding.erase address⟩

def Allowed (m : Handouts) : PageRequest → Prop
  | .alloc _ => True
  | .free address => address ∈ m.outstanding

end Handouts

/-- A run from `start` with the steps made so far, each with the state before it. -/
inductive PageRun (fuel : Nat) (start : SystemPaging) :
    List (Handouts × PageRequest) → Handouts → Prop where
  | start : PageRun fuel start [] ⟨start, []⟩
  | step {steps : List (Handouts × PageRequest)} {m next : Handouts} (request : PageRequest)
      (run : PageRun fuel start steps m) (allowed : m.Allowed request)
      (call : m.step fuel request = .ok next) :
      PageRun fuel start (steps ++ [(m, request)]) next

/-- Outstanding addresses are pages of USABLE entries behind the metadata, no two are
the same, and all of them can be freed. -/
structure Exclusive (fuel : Nat) (entries : List LimineMemmapEntry) (m : Handouts) : Prop where
  placed : ∀ address ∈ m.outstanding, address.toNat % systemPageSize = 0 ∧
    ∃ entry ∈ entries, entry.type = limineMemmapUsable ∧
      entry.base.toNat + entry.metadataPages * systemPageSize ≤ address.toNat ∧
      address.toNat < entry.base.toNat + entry.length.toNat
  distinct : m.outstanding.Nodup
  accepted : ∀ address ∈ m.outstanding, ∃ paging,
    systemPagingPhysicalFree fuel m.paging address = .ok paging
  returns : ∀ kind, ∃ answer, systemPagingPhysicalAlloc fuel kind m.paging = .ok answer

def searchPath (hhdmOffset : U64) (entries : List LimineMemmapEntry) :
    SystemPhysicalPageKind → List AllocatorPointer
  | .normal => (fromNon16mb entries).map (LimineMemmapEntry.pointer hhdmOffset) ++
      listed hhdmOffset entries .next16mb
  | .mb16 => listed hhdmOffset entries .next16mb
  | .gb4 => listed hhdmOffset entries .next4gb

/-- The first allocator tried that has a free page has one of the first 2^20 pages of
its region on top of its stack. -/
def ServesLow (hhdmOffset : U64) (entries : List LimineMemmapEntry) (m : Handouts) :
    PageRequest → Prop
  | .alloc kind => ∀ pa ∈ (searchPath hhdmOffset entries kind).find?
      (fun pa => hasFreePage (m.paging.allocators pa)),
      topPage (m.paging.allocators pa) < 2 ^ 20
  | .free _ => True

structure MemmapBootable (entries : List LimineMemmapEntry) : Prop where
  valid : MemmapValid entries
  noWrap : ∀ entry ∈ entries, entry.base.toNat + entry.length.toNat < 2 ^ 64
  low : ∃ entry ∈ entries, entry.Managed = true ∧
    entry.base.toNat + entry.length.toNat < 16 * 1024 * 1024

structure AllocatorsInv (hhdmOffset : U64) (entries : List LimineMemmapEntry)
    (paging : SystemPaging) : Prop where
  chained : Chained hhdmOffset entries paging
  regions : ∀ entry ∈ managed entries,
    RegionAllocator (paging.allocators (entry.pointer hhdmOffset)) entry

structure PagesInv (hhdmOffset : U64) (entries : List LimineMemmapEntry) (m : Handouts) :
    Prop where
  chained : Chained hhdmOffset entries m.paging
  regions : ∀ entry ∈ managed entries,
    RegionHolds (m.paging.allocators (entry.pointer hhdmOffset)) entry m.outstanding
  placed : ∀ address ∈ m.outstanding, ∃ entry ∈ managed entries,
    ∃ page, entry.metadataPages ≤ page ∧ page < entry.pageCount ∧
      address = entry.pageAddress page
  distinct : m.outstanding.Nodup

variable {hhdmOffset : U64} {entries : List LimineMemmapEntry} {m : Handouts} {fuel : Nat}
  {paging : SystemPaging} {entry other : LimineMemmapEntry}

theorem managed_apart (valid : MemmapValid entries) (member : entry ∈ managed entries)
    (otherMember : other ∈ managed entries) (different : entry ≠ other) :
    entry.base.toNat + entry.length.toNat ≤ other.base.toNat ∨
      other.base.toNat + other.length.toNat ≤ entry.base.toNat := by
  obtain ⟨inside, isManaged⟩ := List.mem_filter.mp member
  obtain ⟨otherInside, otherManaged⟩ := List.mem_filter.mp otherMember
  have usable := (managed_length isManaged).1
  have otherUsable := (managed_length otherManaged).1
  have symmetric : Std.Symm (fun a b : LimineMemmapEntry =>
      a.base.toNat + a.length.toNat ≤ b.base.toNat ∨
        b.base.toNat + b.length.toNat ≤ a.base.toNat) := ⟨fun _ _ apart => apart.symm⟩
  refine valid.disjoint.forall ?_ ?_ different
  · simp [inside, usable]
  · simp [otherInside, otherUsable]

theorem managed_pointer_ne (valid : MemmapValid entries) (member : entry ∈ managed entries)
    (otherMember : other ∈ managed entries) (different : entry ≠ other) :
    entry.pointer hhdmOffset ≠ other.pointer hhdmOffset := by
  apply pointer_ne
  intro same
  have apart := managed_apart valid member otherMember different
  have long := (managed_length (List.mem_filter.mp member).2).2
  have otherLong := (managed_length (List.mem_filter.mp otherMember).2).2
  rw [same] at apart
  omega

theorem managed_noWrap (boot : MemmapBootable entries) (member : entry ∈ managed entries) :
    entry.base.toNat + entry.length.toNat < 2 ^ 64 :=
  boot.noWrap entry (List.mem_filter.mp member).1

theorem pageAddress_apart (boot : MemmapBootable entries) (member : entry ∈ managed entries)
    (otherMember : other ∈ managed entries) (different : entry ≠ other) {page otherPage : Nat}
    (bound : page < entry.pageCount) (otherBound : otherPage < other.pageCount) :
    entry.pageAddress page ≠ other.pageAddress otherPage := by
  intro same
  have numbers := congrArg BitVec.toNat same
  have bytes := pageCount_bytes entry
  have otherBytes := pageCount_bytes other
  have apart := managed_apart boot.valid member otherMember different
  rw [pageAddress_toNat bound (managed_noWrap boot member),
    pageAddress_toNat otherBound (managed_noWrap boot otherMember)] at numbers
  rw [systemPageSize] at numbers bytes otherBytes
  omega

theorem PagesInv.outside (boot : MemmapBootable entries) (inv : PagesInv hhdmOffset entries m)
    (member : entry ∈ managed entries) (otherMember : other ∈ managed entries)
    (different : entry ≠ other) {page : Nat} (bound : page < entry.pageCount) :
    ¬ inRange (m.paging.allocators (other.pointer hhdmOffset)) (entry.pageAddress page) = true := by
  have bytes := pageCount_bytes entry
  have otherBytes := pageCount_bytes other
  have apart := managed_apart boot.valid member otherMember different
  rw [(inv.regions other otherMember).inRange_iff (managed_noWrap boot otherMember),
    pageAddress_toNat bound (managed_noWrap boot member)]
  rw [systemPageSize] at bytes otherBytes ⊢
  omega

theorem Chained.store (chained : Chained hhdmOffset entries paging) (cell : AllocatorPointer)
    (value : SystemPhysicalAllocator)
    (same : ∀ link, value.link link = (paging.allocators cell).link link) :
    Chained hhdmOffset entries (storeAllocator paging cell value) := by
  have follow (link : Link) : (storeAllocator paging cell value).follow link =
      paging.follow link := by
    funext other
    rw [follow_store]
    split
    case isTrue isCell => rw [isCell, same, SystemPaging.follow]
    case isFalse => rfl
  refine ⟨fun link => ?_, ?_, ?_, ?_, ?_⟩
  · rw [follow]
    exact chained.sentinel link
  · rw [follow]
    exact chained.first
  · rw [follow]
    exact chained.first16mb
  · rw [follow]
    exact chained.first4gb
  · rw [follow]
    exact chained.firstNon16mb

theorem takePage_link (pa : SystemPhysicalAllocator) (page : Nat) (link : Link) :
    (takePage pa page).link link = pa.link link := by
  cases link <;> rfl

theorem givePage_link (pa : SystemPhysicalAllocator) (page : Nat) (link : Link) :
    (givePage pa page).link link = pa.link link := by
  cases link <;> rfl

theorem RegionHolds.congr {pa : SystemPhysicalAllocator} {outstanding changed : List Uintptr}
    (holds : RegionHolds pa entry outstanding)
    (same : ∀ page < entry.pageCount,
      entry.pageAddress page ∈ changed ↔ entry.pageAddress page ∈ outstanding) :
    RegionHolds pa entry changed := by
  obtain ⟨base, free, describes, members⟩ := holds
  refine ⟨base, free, describes, fun page bound => ?_⟩
  rw [members page bound, same page bound]

theorem PagesInv.regions_store (boot : MemmapBootable entries)
    (inv : PagesInv hhdmOffset entries m) (member : entry ∈ managed entries)
    {value : SystemPhysicalAllocator} {changed : List Uintptr}
    (holds : RegionHolds value entry changed)
    (same : ∀ other ∈ managed entries, other ≠ entry → ∀ page < other.pageCount,
      other.pageAddress page ∈ changed ↔ other.pageAddress page ∈ m.outstanding) :
    ∀ other ∈ managed entries, RegionHolds
      ((storeAllocator m.paging (entry.pointer hhdmOffset) value).allocators
        (other.pointer hhdmOffset)) other changed := by
  intro other otherMember
  by_cases isEntry : other = entry
  · subst isEntry
    simpa [storeAllocator] using holds
  · have apart : other.pointer hhdmOffset ≠ entry.pointer hhdmOffset :=
      managed_pointer_ne boot.valid otherMember member isEntry
    simp only [storeAllocator, Function.update_of_ne apart]
    exact (inv.regions other otherMember).congr (same other otherMember isEntry)

theorem AllocatorsInv.proceeds (inv : AllocatorsInv hhdmOffset entries paging)
    (member : entry ∈ managed entries) :
    systemPagingPaIsSentinel paging (entry.pointer hhdmOffset) = .ok false := by
  refine isSentinel_region inv.chained.first ?_ (pointer_isRegion hhdmOffset entry)
  rw [listed_next]
  exact List.mem_map_of_mem member

theorem AllocatorsInv.allocAlong (boot : MemmapBootable entries)
    (inv : AllocatorsInv hhdmOffset entries paging)
    (link : Link) (start : AllocatorPointer) (tried : List LimineMemmapEntry)
    (chain : ChainFrom (paging.follow link) .sentinel start
      (tried.map (LimineMemmapEntry.pointer hhdmOffset)))
    (within : tried ⊆ managed entries) (enough : tried.length < fuel) :
    ((tried.map (LimineMemmapEntry.pointer hhdmOffset)).find?
        (fun pa => hasFreePage (paging.allocators pa)) = none ∧
      Drastic.allocAlong link fuel start paging = .ok (none, paging)) ∨
    ∃ entry ∈ managed entries, (tried.map (LimineMemmapEntry.pointer hhdmOffset)).find?
        (fun pa => hasFreePage (paging.allocators pa)) = some (entry.pointer hhdmOffset) ∧
      let pa := paging.allocators (entry.pointer hhdmOffset)
      Drastic.allocAlong link fuel start paging =
        .ok (some (entry.pageAddress (topPage pa % 2 ^ 20)),
          storeAllocator paging (entry.pointer hhdmOffset) (takePage pa (topPage pa))) := by
  have proceeds : ∀ cell ∈ tried.map (LimineMemmapEntry.pointer hhdmOffset),
      systemPagingPaIsSentinel paging cell = .ok false := by
    intro cell member
    obtain ⟨entry, inside, rfl⟩ := List.mem_map.mp member
    exact inv.proceeds (within inside)
  have exhausted : ∀ cell ∈ tried.map (LimineMemmapEntry.pointer hhdmOffset),
      ¬ hasFreePage (paging.allocators cell) = true →
        systemPaAlloc (paging.allocators cell) = .ok (none, paging.allocators cell) := by
    intro cell member noPage
    obtain ⟨entry, inside, rfl⟩ := List.mem_map.mp member
    exact (inv.regions entry (within inside)).exhausted (by simpa using noPage)
  cases found : (tried.map (LimineMemmapEntry.pointer hhdmOffset)).find?
      (fun pa => hasFreePage (paging.allocators pa)) with
  | none =>
      rw [List.find?_eq_none] at found
      refine Or.inl ⟨rfl, allocAlong_exhausted _
        (isSentinel_sentinel (inv.chained.sentinel .next)) start fuel chain proceeds ?_ ?_⟩
      · exact fun cell member => exhausted cell member (found cell member)
      · simpa using enough
  | some cell =>
      have member := List.mem_of_find?_eq_some found
      obtain ⟨hasPage, front, back, shape, skipped⟩ := List.find?_eq_some_iff_append.mp found
      obtain ⟨entry, inside, rfl⟩ := List.mem_map.mp member
      have isManaged := within inside
      obtain ⟨_, served, _⟩ :=
        (inv.regions entry isManaged).serves (managed_noWrap boot isManaged) hasPage
      have shorter := congrArg List.length shape
      rw [List.length_map, List.length_append, List.length_cons] at shorter
      rw [shape] at chain proceeds exhausted
      refine Or.inr ⟨entry, isManaged, rfl, allocAlong_served front back _ _ served start fuel
        chain ?_ ?_ (by omega)⟩
      · intro other near
        apply proceeds other
        rcases List.mem_append.mp near with inFront | isCell
        · exact List.mem_append_left _ inFront
        · exact List.mem_append_right _ (by simp_all)
      · intro other inFront
        exact exhausted other (List.mem_append_left _ inFront)
          (by simpa using skipped other inFront)

theorem AllocatorsInv.alloc_cases (boot : MemmapBootable entries)
    (inv : AllocatorsInv hhdmOffset entries paging)
    (enough : (managed entries).length < fuel) (kind : SystemPhysicalPageKind) :
    ((searchPath hhdmOffset entries kind).find?
        (fun pa => hasFreePage (paging.allocators pa)) = none ∧
      systemPagingPhysicalAlloc fuel kind paging = .ok (none, paging)) ∨
    ∃ entry ∈ managed entries, (searchPath hhdmOffset entries kind).find?
        (fun pa => hasFreePage (paging.allocators pa)) = some (entry.pointer hhdmOffset) ∧
      let pa := paging.allocators (entry.pointer hhdmOffset)
      systemPagingPhysicalAlloc fuel kind paging =
        .ok (some (entry.pageAddress (topPage pa % 2 ^ 20)),
          storeAllocator paging (entry.pointer hhdmOffset) (takePage pa (topPage pa))) := by
  have zone (link : Link) (start : AllocatorPointer)
      (chain : ChainFrom (paging.follow link) .sentinel start (listed hhdmOffset entries link)) :=
    inv.allocAlong boot link start _ chain (List.filter_subset_self _)
      ((List.length_filter_le _ _).trans_lt enough)
  have low := zone .next16mb paging.first16mb inv.chained.first16mb
  cases kind with
  | mb16 => exact low
  | gb4 => exact zone .next4gb paging.first4gb inv.chained.first4gb
  | normal =>
      have high := inv.allocAlong boot .next paging.firstNon16mb (fromNon16mb entries)
        inv.chained.firstNon16mb (List.dropWhile_sublist _).subset
        ((List.dropWhile_sublist _).length_le.trans_lt enough)
      simp only [systemPagingPhysicalAlloc, searchPath, List.find?_append]
      rcases high with ⟨notFound, high⟩ | ⟨entry, isManaged, found, high⟩
      · rw [notFound, high, exec_bind_ok, Option.none_or]
        exact low
      · refine Or.inr ⟨entry, isManaged, ?_, ?_⟩
        · rw [found, Option.some_or]
        · rw [high, exec_bind_ok]
          rfl

theorem PagesInv.allocators (inv : PagesInv hhdmOffset entries m) :
    AllocatorsInv hhdmOffset entries m.paging :=
  ⟨inv.chained, fun entry member => (inv.regions entry member).allocator⟩

/-- The page on top of a stack counts as handed out after the call, whatever address
was returned for it. -/
theorem PagesInv.served (boot : MemmapBootable entries) (inv : PagesInv hhdmOffset entries m)
    (member : entry ∈ managed entries)
    (hasPage : hasFreePage (m.paging.allocators (entry.pointer hhdmOffset)) = true) :
    let pa := m.paging.allocators (entry.pointer hhdmOffset)
    PagesInv hhdmOffset entries
      ⟨storeAllocator m.paging (entry.pointer hhdmOffset) (takePage pa (topPage pa)),
        entry.pageAddress (topPage pa) :: m.outstanding⟩ := by
  obtain ⟨bound, _⟩ :=
    (inv.regions entry member).allocator.serves (managed_noWrap boot member) hasPage
  obtain ⟨behind, fresh, holds⟩ :=
    (inv.regions entry member).serves (managed_noWrap boot member) hasPage
  refine ⟨inv.chained.store _ _ (takePage_link _ _), inv.regions_store boot member holds ?_, ?_,
    List.nodup_cons.mpr ⟨fresh, inv.distinct⟩⟩
  · intro other otherMember different page otherBound
    have apart := pageAddress_apart boot otherMember member different otherBound bound
    rw [List.mem_cons, or_iff_right apart]
  · intro address given
    rcases List.mem_cons.mp given with rfl | earlier
    · exact ⟨entry, member, _, behind, bound, rfl⟩
    · exact inv.placed address earlier

theorem PagesInv.free_eq (boot : MemmapBootable entries) (inv : PagesInv hhdmOffset entries m)
    (enough : (managed entries).length < fuel) (member : entry ∈ managed entries) {page : Nat}
    (bound : page < entry.pageCount) :
    systemPagingPhysicalFree fuel m.paging (entry.pageAddress page) = (do
      return storeAllocator m.paging (entry.pointer hhdmOffset) (← systemPaFree
        (m.paging.allocators (entry.pointer hhdmOffset)) (entry.pageAddress page))) := by
  obtain ⟨front, back, shape⟩ := List.append_of_mem member
  have chain := inv.chained.first
  rw [listed_next, shape, List.map_append, List.map_cons] at chain
  have distinct := chain_nodup _ _ chain
  have inside := ((inv.regions entry member).locates (managed_noWrap boot member) bound).1
  have all (other : LimineMemmapEntry) (near : other ∈ front ++ [entry]) :
      other ∈ managed entries := by
    rw [shape]
    rcases List.mem_append.mp near with inFront | isEntry
    · exact List.mem_append_left _ inFront
    · exact List.mem_append_right _ (by simp_all)
  rw [systemPagingPhysicalFree]
  refine freeAlong_found _ _ _ inside _ fuel chain ?_ ?_ ?_
  · intro cell near
    rw [← List.map_singleton, ← List.map_append] at near
    obtain ⟨other, inFront, rfl⟩ := List.mem_map.mp near
    exact inv.allocators.proceeds (all other inFront)
  · intro cell near
    obtain ⟨other, inFront, rfl⟩ := List.mem_map.mp near
    refine inv.outside boot member (all other (List.mem_append_left _ inFront)) ?_ bound
    rintro rfl
    rw [List.nodup_append'] at distinct
    exact distinct.2.2 near (by simp)
  · have shorter := congrArg List.length shape
    rw [List.length_append, List.length_cons] at shorter
    rw [List.length_map]
    omega

theorem PagesInv.freed (boot : MemmapBootable entries) (inv : PagesInv hhdmOffset entries m)
    (enough : (managed entries).length < fuel) {address : Uintptr}
    (given : address ∈ m.outstanding) :
    ∃ paging, systemPagingPhysicalFree fuel m.paging address = .ok paging ∧
      PagesInv hhdmOffset entries ⟨paging, m.outstanding.erase address⟩ := by
  obtain ⟨entry, member, page, behind, bound, rfl⟩ := inv.placed address given
  obtain ⟨freed, holds⟩ := (inv.regions entry member).frees (managed_noWrap boot member)
    inv.distinct bound behind given
  refine ⟨_, ?_, inv.chained.store _ _ (givePage_link _ _),
    inv.regions_store boot member holds ?_, ?_, inv.distinct.erase _⟩
  · rw [inv.free_eq boot enough member bound, freed]
    rfl
  · intro other otherMember different otherPage otherBound
    have apart := pageAddress_apart boot otherMember member different otherBound bound
    rw [inv.distinct.mem_erase_iff, and_iff_right apart]
  · exact fun left member => inv.placed left (List.mem_of_mem_erase member)

theorem PagesInv.start (boot : MemmapBootable entries)
    (done : SetupDone hhdmOffset entries paging) :
    PagesInv hhdmOffset entries ⟨paging, []⟩ := by
  refine ⟨done.chained boot.valid ((listed_16mb_ne_nil boot.valid).mpr boot.low), ?_, ?_, ?_⟩
  · exact fun entry member => (done.ready entry member).holds
  · simp
  · simp

theorem PagesInv.exclusive (boot : MemmapBootable entries) (inv : PagesInv hhdmOffset entries m)
    (enough : (managed entries).length < fuel) : Exclusive fuel entries m := by
  refine ⟨?_, inv.distinct, ?_, ?_⟩
  · intro address given
    obtain ⟨entry, member, page, behind, bound, rfl⟩ := inv.placed address given
    obtain ⟨inside, isManaged⟩ := List.mem_filter.mp member
    have usable := (managed_length isManaged).1
    have aligned := (boot.valid.aligned entry inside usable).1
    have bytes := pageCount_bytes entry
    rw [pageAddress_toNat bound (managed_noWrap boot member)]
    rw [systemPageSize] at aligned bytes ⊢
    refine ⟨by omega, entry, inside, usable, by omega, by omega⟩
  · intro address given
    obtain ⟨freed, call, _⟩ := inv.freed boot enough given
    exact ⟨freed, call⟩
  · intro kind
    rcases inv.allocators.alloc_cases boot enough kind with ⟨_, call⟩ | ⟨_, _, _, call⟩
    · exact ⟨_, call⟩
    · exact ⟨_, call⟩

theorem PagesInv.step (boot : MemmapBootable entries) (inv : PagesInv hhdmOffset entries m)
    (enough : (managed entries).length < fuel) {request : PageRequest} {next : Handouts}
    (allowed : m.Allowed request) (low : ServesLow hhdmOffset entries m request)
    (call : m.step fuel request = .ok next) : PagesInv hhdmOffset entries next := by
  cases request with
  | alloc kind =>
      rcases inv.allocators.alloc_cases boot enough kind with
        ⟨_, none⟩ | ⟨entry, member, found, served⟩
      · rw [Handouts.step, none] at call
        cases call
        exact inv
      · rw [Handouts.step, served] at call
        cases call
        have lowTop := low _ found
        have hasPage := List.find?_some found
        have state := inv.served boot member hasPage
        rw [Nat.mod_eq_of_lt lowTop]
        exact state
  | free address =>
      obtain ⟨paging, freed, inv'⟩ := inv.freed boot enough allowed
      rw [Handouts.step, freed] at call
      cases call
      exact inv'

theorem behind_of_placed (boot : MemmapBootable entries) (member : entry ∈ managed entries)
    {page : Nat} (bound : page < entry.pageCount)
    (placed : ∃ other ∈ entries, other.type = limineMemmapUsable ∧
      other.base.toNat + other.metadataPages * systemPageSize ≤ (entry.pageAddress page).toNat ∧
      (entry.pageAddress page).toNat < other.base.toNat + other.length.toNat) :
    entry.metadataPages ≤ page := by
  obtain ⟨other, inside, usable, lower, upper⟩ := placed
  have bytes := pageCount_bytes entry
  have positive : 0 < other.metadataPages := Nat.succ_pos _
  rw [pageAddress_toNat bound (managed_noWrap boot member)] at lower upper
  have isManaged : other ∈ managed entries := by
    refine List.mem_filter.mpr ⟨inside, ?_⟩
    rw [systemPageSize] at lower upper
    simp only [LimineMemmapEntry.Managed, usable, decide_true, Bool.true_and, decide_eq_true_eq,
      BitVec.lt_def, BitVec.toNat_ofNat, systemPageSize]
    omega
  by_cases same : other = entry
  · subst same
    rw [systemPageSize] at lower
    omega
  · have apart := managed_apart boot.valid isManaged member same
    rw [systemPageSize] at bytes lower upper
    omega

/-- Returning a page under the address of another one breaks exclusiveness: the other
is a metadata page, handed out already, or still free. -/
theorem PagesInv.not_exclusive (boot : MemmapBootable entries) {outstanding : List Uintptr}
    {page top : Nat}
    (inv : PagesInv hhdmOffset entries ⟨paging, entry.pageAddress top :: outstanding⟩)
    (enough : (managed entries).length < fuel) (member : entry ∈ managed entries)
    (topBound : top < entry.pageCount) (bound : page < entry.pageCount) (different : page ≠ top) :
    ¬ Exclusive fuel entries ⟨paging, entry.pageAddress page :: outstanding⟩ := by
  intro exclusive
  have noWrap := managed_noWrap boot member
  have behind := behind_of_placed boot member bound
    (exclusive.placed _ (List.mem_cons_self ..)).2
  have fresh := (List.nodup_cons.mp exclusive.distinct).1
  have missing : entry.pageAddress page ∉ entry.pageAddress top :: outstanding := by
    rw [List.mem_cons, not_or]
    exact ⟨pageAddress_ne topBound bound noWrap different, fresh⟩
  obtain ⟨freed, accepted⟩ := exclusive.accepted _ (List.mem_cons_self ..)
  have reached := inv.free_eq boot enough member bound
  rw [reached, exec_bind_eq_ok] at accepted
  obtain ⟨pa, call, _⟩ := accepted
  exact (inv.regions entry member).refuses noWrap bound behind missing pa call

theorem PagesInv.broken (boot : MemmapBootable entries) (inv : PagesInv hhdmOffset entries m)
    (enough : (managed entries).length < fuel) {request : PageRequest} {next : Handouts}
    (high : ¬ ServesLow hhdmOffset entries m request)
    (call : m.step fuel request = .ok next) : ¬ Exclusive fuel entries next := by
  cases request with
  | free address => exact absurd trivial high
  | alloc kind =>
      rcases inv.allocators.alloc_cases boot enough kind with
        ⟨notFound, _⟩ | ⟨entry, member, found, served⟩
      · exact absurd (fun pa some => by simp [notFound] at some) high
      · have highTop : 2 ^ 20 ≤ topPage (m.paging.allocators (entry.pointer hhdmOffset)) := by
          by_contra low
          refine high fun pa some => ?_
          rw [found, Option.mem_some_iff] at some
          rw [← some]
          omega
        have hasPage := List.find?_some found
        have state := inv.served boot member hasPage
        obtain ⟨topBound, _⟩ :=
          (inv.regions entry member).allocator.serves (managed_noWrap boot member) hasPage
        rw [Handouts.step, served] at call
        cases call
        refine state.not_exclusive boot enough member topBound ?_ ?_
        · exact (Nat.mod_le _ _).trans_lt topBound
        · have small := Nat.mod_lt (topPage (m.paging.allocators (entry.pointer hhdmOffset)))
            (Nat.two_pow_pos 20)
          omega

theorem PageRun.exclusive_iff (boot : MemmapBootable entries)
    (done : SetupDone hhdmOffset entries paging) (enough : (managed entries).length < fuel)
    {steps : List (Handouts × PageRequest)} {last : Handouts}
    (run : PageRun fuel paging steps last) :
    ((∀ step ∈ steps, ServesLow hhdmOffset entries step.1 step.2) →
      PagesInv hhdmOffset entries last) ∧
    ((∀ step ∈ steps, Exclusive fuel entries step.1) → Exclusive fuel entries last →
      ∀ step ∈ steps, ServesLow hhdmOffset entries step.1 step.2) := by
  induction run with
  | start => exact ⟨fun _ => PagesInv.start boot done, by simp⟩
  | step request run allowed call ih =>
      obtain ⟨forward, backward⟩ := ih
      refine ⟨fun low => ?_, fun exclusive lastExclusive => ?_⟩
      · have before := forward fun step earlier => low step (List.mem_append_left _ earlier)
        exact before.step boot enough allowed (low (_, request) (by simp)) call
      · have earlier := backward
          (fun step member => exclusive step (List.mem_append_left _ member))
          (exclusive (_, request) (by simp))
        have inv := forward earlier
        intro step member
        rcases List.mem_append.mp member with inside | isLast
        · exact earlier step inside
        · obtain rfl := List.mem_singleton.mp isLast
          by_contra high
          exact inv.broken boot enough high call lastExclusive

theorem PageRun.all_exclusive (boot : MemmapBootable entries)
    (done : SetupDone hhdmOffset entries paging) (enough : (managed entries).length < fuel)
    {steps : List (Handouts × PageRequest)} {last : Handouts}
    (run : PageRun fuel paging steps last)
    (low : ∀ step ∈ steps, ServesLow hhdmOffset entries step.1 step.2) :
    (∀ step ∈ steps, Exclusive fuel entries step.1) ∧ Exclusive fuel entries last := by
  induction run with
  | start => exact ⟨by simp, (PagesInv.start boot done).exclusive boot enough⟩
  | step request run allowed call ih =>
      have whole := PageRun.step request run allowed call
      obtain ⟨before, here⟩ := ih fun step member => low step (List.mem_append_left _ member)
      refine ⟨?_, ((whole.exclusive_iff boot done enough).1 low).exclusive boot enough⟩
      intro step member
      rcases List.mem_append.mp member with inside | isLast
      · exact before step inside
      · rw [List.mem_singleton.mp isLast]
        exact here

/-- Pages stay exclusive in every state of a run exactly when every allocation is
served a page among the first 2^20 of its region. -/
theorem pages_exclusive_iff (hhdmOffset : U64) (contents : Uintptr → RegionContents)
    (entries : List LimineMemmapEntry) (paging : SystemPaging) (fuel : Nat)
    (boot : MemmapBootable entries) (enough : (managed entries).length < fuel) :
    ∃ start, systemPagingSetup hhdmOffset contents (some entries) paging = .ok start ∧
      ∀ steps last, PageRun fuel start steps last →
        ((∀ step ∈ steps, Exclusive fuel entries step.1) ∧ Exclusive fuel entries last ↔
          ∀ step ∈ steps, ServesLow hhdmOffset entries step.1 step.2) := by
  obtain ⟨start, completed, done⟩ :=
    systemPagingSetup_done hhdmOffset contents entries boot.valid paging
  refine ⟨start, completed, fun steps last run => ⟨?_, ?_⟩⟩
  · rintro ⟨before, here⟩
    exact (run.exclusive_iff boot done enough).2 before here
  · exact run.all_exclusive boot done enough

theorem pages_exclusive_iff_sample :
    ∃ start, systemPagingSetup 0xffff800000000000#64 (fun _ => .zero)
        (some [⟨0x1000#64, 0x9e000#64, 0#64⟩, ⟨0x100000#64, 0x7ee0000#64, 0#64⟩]) .zero =
          .ok start ∧
      ∀ steps last, PageRun 3 start steps last →
        ((∀ step ∈ steps, Exclusive 3 [⟨0x1000#64, 0x9e000#64, 0#64⟩,
            ⟨0x100000#64, 0x7ee0000#64, 0#64⟩] step.1) ∧
          Exclusive 3 [⟨0x1000#64, 0x9e000#64, 0#64⟩, ⟨0x100000#64, 0x7ee0000#64, 0#64⟩] last ↔
          ∀ step ∈ steps, ServesLow 0xffff800000000000#64 [⟨0x1000#64, 0x9e000#64, 0#64⟩,
            ⟨0x100000#64, 0x7ee0000#64, 0#64⟩] step.1 step.2) :=
  pages_exclusive_iff 0xffff800000000000#64 (fun _ => .zero)
    [⟨0x1000#64, 0x9e000#64, 0#64⟩, ⟨0x100000#64, 0x7ee0000#64, 0#64⟩] .zero 3
    ⟨⟨by decide, by decide, by decide, by decide⟩, by decide, by decide⟩ (by decide)

/-- With 2^20 + 1 pages from 4 GiB on, the first allocation returns the address of the
allocator itself. -/
theorem first_page_is_metadata_of_large_region :
    ∃ start m, systemPagingSetup 0xffff800000000000#64 (fun _ => .zero)
        (some [⟨0x1000#64, 0x9e000#64, 0#64⟩, ⟨0x100000000#64, 0x100001000#64, 0#64⟩]) .zero =
          .ok start ∧
      MemmapBootable [⟨0x1000#64, 0x9e000#64, 0#64⟩, ⟨0x100000000#64, 0x100001000#64, 0#64⟩] ∧
      PageRun 3 start [(⟨start, []⟩, .alloc .normal)] m ∧ m.outstanding = [0x100000000#64] ∧
      ¬ Exclusive 3 [⟨0x1000#64, 0x9e000#64, 0#64⟩,
        ⟨0x100000000#64, 0x100001000#64, 0#64⟩] m := by
  let low : LimineMemmapEntry := ⟨0x1000#64, 0x9e000#64, 0#64⟩
  let large : LimineMemmapEntry := ⟨0x100000000#64, 0x100001000#64, 0#64⟩
  have boot : MemmapBootable [low, large] :=
    ⟨⟨by decide, by decide, by decide, by decide⟩, by decide, by decide⟩
  have enough : (managed [low, large]).length < 3 := by decide
  have isManaged : large ∈ managed [low, large] := by decide
  obtain ⟨start, completed, done⟩ := systemPagingSetup_done 0xffff800000000000#64
    (fun _ => .zero) [low, large] boot.valid .zero
  have inv := PagesInv.start boot done
  obtain ⟨hasPage, top⟩ := (done.ready large isManaged).top (by decide)
  have found : (searchPath 0xffff800000000000#64 [low, large] .normal).find?
      (fun pa => hasFreePage (start.allocators pa)) =
        some (large.pointer 0xffff800000000000#64) := by
    have path : searchPath 0xffff800000000000#64 [low, large] .normal =
        [large.pointer 0xffff800000000000#64, low.pointer 0xffff800000000000#64] := by decide
    rw [path]
    exact List.find?_cons_of_pos (p := fun pa => hasFreePage (start.allocators pa)) hasPage
  rcases inv.allocators.alloc_cases boot enough .normal with
    ⟨notFound, _⟩ | ⟨entry, member, first, served⟩
  · rw [found] at notFound
    cases notFound
  · have isLarge : entry = large := by
      rw [found, Option.some.injEq] at first
      by_contra different
      exact managed_pointer_ne boot.valid isManaged member (Ne.symm different) first
    subst isLarge
    let pa := start.allocators (large.pointer 0xffff800000000000#64)
    let next : Handouts :=
      ⟨storeAllocator start (large.pointer 0xffff800000000000#64) (takePage pa (topPage pa)),
        [large.pageAddress (topPage pa % 2 ^ 20)]⟩
    have call : Handouts.step 3 ⟨start, []⟩ (.alloc .normal) = .ok next := by
      rw [Handouts.step, served]
      rfl
    refine ⟨start, next, completed, boot, PageRun.step _ .start trivial call, ?_, ?_⟩
    · change [large.pageAddress (topPage pa % 2 ^ 20)] = _
      rw [top]
      decide
    · refine inv.broken boot enough ?_ call
      intro low
      have below := low _ found
      rw [top] at below
      exact absurd below (by decide)

end Drastic
