import Drastic.Library.Chain
import Drastic.Library.Ring
import Drastic.Physical.RegionSetup

namespace Drastic

open Library.Chain (ChainFrom)
open Library.Ring (before)

variable {hhdmOffset : U64} {paging : SystemPaging} {s : SetupState} {link : Link}
  {last current : AllocatorPointer} {cells : List AllocatorPointer}

def SystemPaging.follow (paging : SystemPaging) (link : Link) (pa : AllocatorPointer) :
    AllocatorPointer := (paging.allocators pa).link link

def AllocatorPointer.IsRegion (pa : AllocatorPointer) : Prop := ∃ address, pa = .region address

/-- A list hanging from the dummy head: it ends at the sentinel once it has a cell,
and `last` is its last cell, or the head itself. -/
structure Hung (paging : SystemPaging) (link : Link) (last : AllocatorPointer)
    (cells : List AllocatorPointer) : Prop where
  regions : ∀ cell ∈ cells, cell.IsRegion
  last_cell : last = before .base cells
  empty : cells = [] → paging.follow link .base = .null
  chain : cells ≠ [] →
    ChainFrom (paging.follow link) .sentinel (paging.follow link .base) cells

theorem AllocatorPointer.IsRegion.proper {pa : AllocatorPointer} (isRegion : pa.IsRegion) :
    pa ≠ .null ∧ pa ≠ .base ∧ pa ≠ .sentinel := by
  obtain ⟨address, rfl⟩ := isRegion
  exact ⟨by simp, by simp, by simp⟩

theorem link_setLink (pa : SystemPhysicalAllocator) (target : AllocatorPointer)
    (link other : Link) :
    (pa.setLink target link).link other = if other = link then target else pa.link other := by
  cases link <;> cases other <;> rfl

theorem follow_store (paging : SystemPaging) (pa cell : AllocatorPointer)
    (value : SystemPhysicalAllocator) (link : Link) :
    (storeAllocator paging pa value).follow link cell =
      if cell = pa then value.link link else paging.follow link cell := by
  by_cases same : cell = pa <;> simp [SystemPaging.follow, storeAllocator, same]

theorem follow_append (paging : SystemPaging) (last current cell : AllocatorPointer)
    (link other : Link) :
    (storeAllocator paging last ((paging.allocators last).setLink current link)).follow other cell =
      if cell = last ∧ other = link then current else paging.follow other cell := by
  rw [follow_store, link_setLink]
  by_cases same : cell = last
  · subst same
    simp [SystemPaging.follow]
  · simp [same]

theorem Hung.congr {changed : SystemPaging} (hung : Hung paging link last cells)
    (same : ∀ cell ∈ AllocatorPointer.base :: cells,
      changed.follow link cell = paging.follow link cell) : Hung changed link last cells where
  regions := hung.regions
  last_cell := hung.last_cell
  empty nothing := (same _ (by simp)).trans (hung.empty nothing)
  chain some := by
    rw [same _ (by simp)]
    exact Library.Chain.chain_congr _ _ (fun cell member => same cell (by simp [member]))
      (hung.chain some)

theorem Hung.last_mem (hung : Hung paging link last cells) :
    last = .base ∨ last ∈ cells := by
  have member := Library.Ring.before_mem AllocatorPointer.base cells
  rw [← hung.last_cell] at member
  simpa using member

theorem Hung.last_ne (hung : Hung paging link last cells) : last ≠ .null ∧ last ≠ .sentinel := by
  rcases hung.last_mem with rfl | member
  · simp
  · exact ⟨(hung.regions last member).proper.1, (hung.regions last member).proper.2.2⟩

theorem Hung.append (hung : Hung paging link last cells) (isRegion : current.IsRegion)
    (outside : current ∉ cells) (ends : paging.follow link current = .sentinel) :
    Hung (storeAllocator paging last ((paging.allocators last).setLink current link)) link current
      (cells ++ [current]) := by
  have follow (cell : AllocatorPointer) :
      (storeAllocator paging last ((paging.allocators last).setLink current link)).follow link
        cell = if cell = last then current else paging.follow link cell := by
    rw [follow_append]
    simp
  obtain ⟨_, notBase, notSentinel⟩ := isRegion.proper
  refine ⟨?_, by simp, by simp, fun _ => ?_⟩
  · intro cell member
    rcases List.mem_append.mp member with inside | isCurrent
    · exact hung.regions cell inside
    · rwa [List.mem_singleton.mp isCurrent]
  rcases List.eq_nil_or_concat cells with rfl | ⟨front, tail, shape⟩
  · have head : last = .base := hung.last_cell
    subst head
    refine ⟨by rw [follow, if_pos rfl], notSentinel, ?_⟩
    rw [follow, if_neg notBase, ends]
    exact rfl
  · rw [List.concat_eq_append] at shape
    subst shape
    have tailLast : last = tail := by rw [hung.last_cell, Library.Ring.before_concat]
    subst tailLast
    have chain := hung.chain (by simp)
    have headApart : AllocatorPointer.base ≠ last :=
      Ne.symm (hung.regions last (by simp)).proper.2.1
    rw [follow, if_neg headApart, List.append_assoc]
    refine Library.Chain.chain_concat _ last current front chain outside notSentinel ?_ ?_ ?_
    · rw [follow, if_pos rfl]
    · have apart : current ≠ last := by
        rintro rfl
        exact outside (by simp)
      rw [follow, if_neg apart, ends]
    · intro cell notLast _
      rw [follow, if_neg notLast]

structure Lists (paging : SystemPaging) (lasts : Link → AllocatorPointer)
    (cells : Link → List AllocatorPointer) : Prop where
  hung : ∀ link, Hung paging link (lasts link) (cells link)
  sentinel : ∀ link, paging.follow link .sentinel = .sentinel

def SamePages (pa pa' : SystemPhysicalAllocator) : Prop :=
  pa'.size = pa.size ∧ pa'.stackTop = pa.stackTop ∧ pa'.pagesBitmap = pa.pagesBitmap ∧
    pa'.pagesStack = pa.pagesStack ∧ pa'.addressBase = pa.addressBase

theorem SamePages.refl (pa : SystemPhysicalAllocator) : SamePages pa pa :=
  ⟨rfl, rfl, rfl, rfl, rfl⟩

theorem samePages_setLink (pa : SystemPhysicalAllocator) (target : AllocatorPointer)
    (link : Link) : SamePages pa (pa.setLink target link) := by
  cases link <;> exact SamePages.refl pa

theorem SamePages.ready {pa pa' : SystemPhysicalAllocator} {entry : LimineMemmapEntry}
    (same : SamePages pa pa') (ready : Ready pa entry) : Ready pa' entry := by
  obtain ⟨size, top, bitmap, stack, base⟩ := same
  obtain ⟨base', size', small, top', stack', bitmap'⟩ := ready
  refine ⟨base.trans base', size.trans size', small, top.trans top', ?_, ?_⟩
  · rw [← stack', liveStack, liveStack, top, stack]
  · rw [bitmap]
    exact bitmap'

variable {lasts : Link → AllocatorPointer} {lists : Link → List AllocatorPointer}

theorem Lists.append (inv : Lists paging lasts lists) (link : Link)
    (isRegion : current.IsRegion) (outside : current ∉ lists link)
    (ends : paging.follow link current = .sentinel) :
    ∃ after, slAppendBase paging (lasts link) link current = .ok after ∧
      Lists after (Function.update lasts link current)
        (Function.update lists link (lists link ++ [current])) ∧
      (∀ other, after.follow other current = paging.follow other current) ∧
      ∀ pa, SamePages (paging.allocators pa) (after.allocators pa) := by
  have hung := inv.hung link
  obtain ⟨notNull, notSentinel⟩ := hung.last_ne
  refine ⟨storeAllocator paging (lasts link)
    ((paging.allocators (lasts link)).setLink current link), ?_, ⟨?_, ?_⟩, ?_, ?_⟩
  · rw [slAppendBase, loadAllocator, if_neg notNull, exec_bind_ok, exec_pure]
  · intro other
    by_cases same : other = link
    · subst same
      rw [Function.update_self, Function.update_self]
      exact hung.append isRegion outside ends
    · rw [Function.update_of_ne same, Function.update_of_ne same]
      apply (inv.hung other).congr
      intro cell _
      rw [follow_append, if_neg (fun both => same both.2)]
  · intro other
    rw [follow_append, if_neg (fun both => notSentinel both.1.symm), inv.sentinel other]
  · intro other
    have apart : current ≠ lasts link := by
      intro isLast
      rcases hung.last_mem with isBase | inside
      · exact isRegion.proper.2.1 (isLast.trans isBase)
      · exact outside (isLast ▸ inside)
    rw [follow_append, if_neg (fun both => apart both.1)]
  · intro pa
    by_cases same : pa = lasts link
    · rw [same]
      simpa [storeAllocator] using samePages_setLink _ current link
    · simpa [storeAllocator, same] using SamePages.refl _

theorem Lists.store (inv : Lists paging lasts lists) (isRegion : current.IsRegion)
    (outside : ∀ link, current ∉ lists link) (value : SystemPhysicalAllocator) :
    Lists (storeAllocator paging current value) lasts lists := by
  obtain ⟨_, notBase, notSentinel⟩ := isRegion.proper
  refine ⟨fun link => (inv.hung link).congr ?_, ?_⟩
  · intro cell member
    have other : cell ≠ current := by
      rintro rfl
      rcases List.mem_cons.mp member with isBase | inside
      · exact notBase isBase
      · exact outside link inside
    rw [follow_store, if_neg other]
  · intro link
    rw [follow_store, if_neg (Ne.symm notSentinel), inv.sentinel link]

def SetupState.lastOf (s : SetupState) : Link → AllocatorPointer
  | .next => s.last
  | .next16mb => s.last16mb
  | .next4gb => s.last4gb

def SetupState.appended (s : SetupState) (paging : SystemPaging) (pa : AllocatorPointer) :
    Link → SetupState
  | .next => { s with paging := paging, last := pa }
  | .next16mb => { s with paging := paging, last16mb := pa }
  | .next4gb => { s with paging := paging, last4gb := pa }

theorem SetupState.lastOf_appended (s : SetupState) (paging : SystemPaging)
    (pa : AllocatorPointer) (link : Link) :
    (s.appended paging pa link).lastOf = Function.update s.lastOf link pa := by
  funext other
  cases link <;> cases other <;> simp [SetupState.lastOf, SetupState.appended]

def inZone : Link → LimineMemmapEntry → Bool
  | .next, _ => true
  | .next16mb, entry => endsBelow entry (mb 16)
  | .next4gb, entry => endsBelow entry (gb 4)

def listed (hhdmOffset : U64) (entries : List LimineMemmapEntry) (link : Link) :
    List AllocatorPointer :=
  ((managed entries).filter (inZone link)).map (LimineMemmapEntry.pointer hhdmOffset)

/-- The managed entries from the first one outside the 16 MiB zone on. -/
def fromNon16mb (entries : List LimineMemmapEntry) : List LimineMemmapEntry :=
  (managed entries).dropWhile (inZone .next16mb)

structure SetupInv (hhdmOffset : U64) (done : List LimineMemmapEntry) (s : SetupState) : Prop where
  lists : Lists s.paging s.lastOf (listed hhdmOffset done)
  non16mb : s.firstNon16mb =
    (((fromNon16mb done).map (LimineMemmapEntry.pointer hhdmOffset)).head?).getD .sentinel
  ready : ∀ entry ∈ managed done, Ready (s.paging.allocators (entry.pointer hhdmOffset)) entry

variable {done : List LimineMemmapEntry} {entry : LimineMemmapEntry}

theorem pointer_isRegion (hhdmOffset : U64) (entry : LimineMemmapEntry) :
    (entry.pointer hhdmOffset).IsRegion :=
  ⟨_, rfl⟩

theorem listed_next (entries : List LimineMemmapEntry) :
    listed hhdmOffset entries .next =
      (managed entries).map (LimineMemmapEntry.pointer hhdmOffset) := by
  have all : (managed entries).filter (inZone .next) = managed entries :=
    List.filter_eq_self.mpr (fun _ _ => rfl)
  rw [listed, all]

theorem listed_subset (entries : List LimineMemmapEntry) (link : Link) :
    listed hhdmOffset entries link ⊆ listed hhdmOffset entries .next := by
  rw [listed_next]
  exact List.map_subset _ List.filter_sublist.subset

theorem managed_concat (isManaged : entry.Managed = true) :
    managed (done ++ [entry]) = managed done ++ [entry] := by
  simp [managed, isManaged]

theorem listed_concat (isManaged : entry.Managed = true) (link : Link) :
    listed hhdmOffset (done ++ [entry]) link = if inZone link entry = true
      then listed hhdmOffset done link ++ [entry.pointer hhdmOffset]
      else listed hhdmOffset done link := by
  rw [listed, managed_concat isManaged, List.filter_append, List.map_append]
  split
  case isTrue inside => simp [listed, inside]
  case isFalse outside => simp [listed, outside]

/-- On its way the list of all allocators never meets a cell that points to itself. -/
theorem isSentinel_region {start : AllocatorPointer}
    (chain : ChainFrom (paging.follow .next) .sentinel start cells) {cell : AllocatorPointer}
    (member : cell ∈ cells) (isRegion : cell.IsRegion) :
    systemPagingPaIsSentinel paging cell = .ok false := by
  have different := Library.Chain.chain_step_ne start cell cells chain member
  have notSelf : ¬ cell = (paging.allocators cell).next := fun same => different same.symm
  rw [systemPagingPaIsSentinel, loadAllocator, if_neg isRegion.proper.1]
  simp [notSelf]

theorem isSentinel_sentinel (self : paging.follow .next .sentinel = .sentinel) :
    systemPagingPaIsSentinel paging .sentinel = .ok true := by
  have same : AllocatorPointer.sentinel = (paging.allocators .sentinel).next := self.symm
  rw [systemPagingPaIsSentinel, loadAllocator, if_neg (by simp)]
  simp [← same]

theorem addTo4gb_step (entry : LimineMemmapEntry) (inv : Lists s.paging s.lastOf lists)
    (isRegion : current.IsRegion)
    (outside : current ∉ lists .next4gb)
    (ends : s.paging.follow .next4gb current = .sentinel) :
    ∃ after, addTo4gb s entry current = .ok after ∧
      Lists after.paging after.lastOf (if inZone .next4gb entry = true
        then Function.update lists .next4gb (lists .next4gb ++ [current]) else lists) ∧
      after.firstNon16mb = s.firstNon16mb ∧
      ∀ pa, SamePages (s.paging.allocators pa) (after.paging.allocators pa) := by
  unfold addTo4gb
  by_cases zone : endsBelow entry (gb 4) = true
  · obtain ⟨paging, appended, inv', _, same⟩ := inv.append .next4gb isRegion outside ends
    rw [← s.lastOf_appended paging current .next4gb] at inv'
    have zone' : inZone .next4gb entry = true := zone
    change slAppendBase s.paging s.last4gb .next4gb current = _ at appended
    refine ⟨s.appended paging current .next4gb, ?_, ?_, rfl, same⟩
    · simp [zone, appended, SetupState.appended]
    · rw [if_pos zone']
      exact inv'
  · have zone' : ¬ inZone .next4gb entry = true := zone
    refine ⟨s, by simp [zone], ?_, rfl, fun _ => .refl _⟩
    rw [if_neg zone']
    exact inv

theorem addTo16mb_step (entry : LimineMemmapEntry) (inv : Lists s.paging s.lastOf lists)
    (isRegion : current.IsRegion)
    (outside : current ∉ lists .next16mb)
    (ends : ∀ link, s.paging.follow link current = .sentinel)
    (nowhere : s.firstNon16mb = .sentinel ∨ s.firstNon16mb ∈ lists .next) :
    ∃ after, addTo16mb s entry current = .ok after ∧
      Lists after.paging after.lastOf (if inZone .next16mb entry = true
        then Function.update lists .next16mb (lists .next16mb ++ [current]) else lists) ∧
      after.firstNon16mb = (if inZone .next16mb entry = true ∨ s.firstNon16mb ≠ .sentinel
        then s.firstNon16mb else current) ∧
      after.paging.follow .next4gb current = .sentinel ∧
      ∀ pa, SamePages (s.paging.allocators pa) (after.paging.allocators pa) := by
  unfold addTo16mb
  by_cases zone : endsBelow entry (mb 16) = true
  · obtain ⟨paging, appended, inv', others, same⟩ :=
      inv.append .next16mb isRegion outside (ends .next16mb)
    rw [← s.lastOf_appended paging current .next16mb] at inv'
    have zone' : inZone .next16mb entry = true := zone
    change slAppendBase s.paging s.last16mb .next16mb current = _ at appended
    refine ⟨s.appended paging current .next16mb, ?_, ?_, ?_, ?_, same⟩
    · simp [zone, appended, SetupState.appended]
    · rw [if_pos zone']
      exact inv'
    · exact (if_pos (Or.inl zone')).symm
    · exact (others .next4gb).trans (ends .next4gb)
  · have zone' : ¬ inZone .next16mb entry = true := zone
    rw [if_neg zone']
    rcases nowhere with none | member
    · have test := isSentinel_sentinel (inv.sentinel .next)
      refine ⟨{ s with firstNon16mb := current }, ?_, inv, ?_, ends .next4gb, fun _ => .refl _⟩
      · simp [zone, none, test]
      · simp [zone', none]
    · have hung := inv.hung .next
      have proper := hung.regions _ member
      have test := isSentinel_region (hung.chain (List.ne_nil_of_mem member)) member proper
      refine ⟨s, ?_, inv, ?_, ends .next4gb, fun _ => .refl _⟩
      · simp [zone, test]
      · simp [proper.proper.2.2]

theorem pointer_ne (hhdmOffset : U64) {other : LimineMemmapEntry}
    (different : entry.base ≠ other.base) :
    entry.pointer hhdmOffset ≠ other.pointer hhdmOffset := by
  intro same
  rw [LimineMemmapEntry.pointer, LimineMemmapEntry.pointer, AllocatorPointer.region.injEq] at same
  exact different ((BitVec.add_left_inj hhdmOffset).mp same)

theorem pointer_not_listed (apart : ∀ other ∈ managed done, entry.base ≠ other.base)
    (link : Link) : entry.pointer hhdmOffset ∉ listed hhdmOffset done link := by
  intro member
  have inAll := listed_subset done link member
  rw [listed_next, List.mem_map] at inAll
  obtain ⟨other, inside, same⟩ := inAll
  exact pointer_ne hhdmOffset (apart other inside) same.symm

theorem SetupInv.non16mb_cases (inv : SetupInv hhdmOffset done s) :
    s.firstNon16mb = .sentinel ∧ fromNon16mb done = [] ∨
      s.firstNon16mb ∈ listed hhdmOffset done .next ∧ fromNon16mb done ≠ [] := by
  have first := inv.non16mb
  cases shape : fromNon16mb done with
  | nil => exact Or.inl ⟨by simpa [shape] using first, rfl⟩
  | cons entry rest =>
      refine Or.inr ⟨?_, by simp⟩
      have inside : entry ∈ managed done :=
        (List.dropWhile_sublist _).subset (show entry ∈ fromNon16mb done by simp [shape])
      rw [first, shape, listed_next]
      simpa using List.mem_map_of_mem inside

theorem fromNon16mb_concat (isManaged : entry.Managed = true) :
    fromNon16mb (done ++ [entry]) = if fromNon16mb done = [] then
      (if inZone .next16mb entry = true then [] else [entry]) else fromNon16mb done ++ [entry] := by
  rw [fromNon16mb, managed_concat isManaged, List.dropWhile_append]
  simp only [List.isEmpty_iff]
  change (if fromNon16mb done = [] then _ else fromNon16mb done ++ [entry]) = _
  by_cases none : fromNon16mb done = []
  · rw [if_pos none, if_pos none]
    by_cases zone : inZone .next16mb entry = true <;> simp [zone]
  · rw [if_neg none, if_neg none]

theorem SetupInv.non16mb_built (inv : SetupInv hhdmOffset done s)
    (isManaged : entry.Managed = true) :
    (if inZone .next16mb entry = true ∨ s.firstNon16mb ≠ .sentinel then s.firstNon16mb
      else entry.pointer hhdmOffset) =
    (((fromNon16mb (done ++ [entry])).map
      (LimineMemmapEntry.pointer hhdmOffset)).head?).getD .sentinel := by
  rw [fromNon16mb_concat isManaged]
  rcases inv.non16mb_cases with ⟨none, empty⟩ | ⟨member, some⟩
  · rw [if_pos empty]
    by_cases zone : inZone .next16mb entry = true <;> simp [zone, none]
  · have proper : s.firstNon16mb ≠ .sentinel :=
      (((inv.lists.hung .next).regions _ member).proper).2.2
    rw [if_neg some, if_pos (Or.inr proper), inv.non16mb, List.map_append, List.head?_append]
    cases shape : (fromNon16mb done).map (LimineMemmapEntry.pointer hhdmOffset) with
    | nil => exact absurd (List.map_eq_nil_iff.mp shape) some
    | cons => rfl

theorem listed_built (isManaged : entry.Managed = true) :
    let all := Function.update (listed hhdmOffset done) .next
      (listed hhdmOffset done .next ++ [entry.pointer hhdmOffset])
    let low := if inZone .next16mb entry = true
      then Function.update all .next16mb (all .next16mb ++ [entry.pointer hhdmOffset]) else all
    (if inZone .next4gb entry = true
      then Function.update low .next4gb (low .next4gb ++ [entry.pointer hhdmOffset]) else low) =
      listed hhdmOffset (done ++ [entry]) := by
  funext link
  rw [listed_concat isManaged]
  have always : inZone .next entry = true := rfl
  cases link <;> by_cases low : inZone .next16mb entry = true <;>
    by_cases high : inZone .next4gb entry = true <;> simp [low, high, always]

theorem SetupInv.addToAll (inv : SetupInv hhdmOffset done s)
    (apart : ∀ other ∈ managed done, entry.base ≠ other.base) (pa : SystemPhysicalAllocator) :
    ∃ paging, slAppendBase (storeAllocator s.paging (entry.pointer hhdmOffset) (endLinks pa))
        s.last .next (entry.pointer hhdmOffset) = .ok paging ∧
      Lists paging (s.appended paging (entry.pointer hhdmOffset) .next).lastOf
        (Function.update (listed hhdmOffset done) .next
          (listed hhdmOffset done .next ++ [entry.pointer hhdmOffset])) ∧
      (∀ link, paging.follow link (entry.pointer hhdmOffset) = .sentinel) ∧
      ∀ cell, SamePages ((storeAllocator s.paging (entry.pointer hhdmOffset)
        (endLinks pa)).allocators cell) (paging.allocators cell) := by
  have isRegion := pointer_isRegion hhdmOffset entry
  have fresh : ∀ link, entry.pointer hhdmOffset ∉ listed hhdmOffset done link :=
    pointer_not_listed apart
  have ends (link : Link) : (storeAllocator s.paging (entry.pointer hhdmOffset)
      (endLinks pa)).follow link (entry.pointer hhdmOffset) = .sentinel := by
    rw [follow_store, if_pos rfl]
    cases link <;> rfl
  have stored := inv.lists.store isRegion fresh (endLinks pa)
  obtain ⟨paging, appended, lists, others, same⟩ :=
    stored.append .next isRegion (fresh .next) (ends .next)
  rw [← s.lastOf_appended paging (entry.pointer hhdmOffset) .next] at lists
  exact ⟨paging, appended, lists, fun link => (others link).trans (ends link), same⟩

theorem SetupInv.ready_added (inv : SetupInv hhdmOffset done s)
    (apart : ∀ other ∈ managed done, entry.base ≠ other.base) (isManaged : entry.Managed = true)
    {pa : SystemPhysicalAllocator} (ready : Ready pa entry) :
    ∀ other ∈ managed (done ++ [entry]), Ready ((storeAllocator s.paging
      (entry.pointer hhdmOffset) (endLinks pa)).allocators (other.pointer hhdmOffset)) other := by
  intro other member
  rw [managed_concat isManaged, List.mem_append, List.mem_singleton] at member
  rcases member with earlier | rfl
  · have different := pointer_ne hhdmOffset (apart other earlier)
    simpa [storeAllocator, Ne.symm different] using inv.ready other earlier
  · have kept : SamePages pa (endLinks pa) := ⟨rfl, rfl, rfl, rfl, rfl⟩
    simpa [storeAllocator] using kept.ready ready

theorem systemPagingAddRegion_step (contents : Uintptr → RegionContents)
    (inv : SetupInv hhdmOffset done s) (isManaged : entry.Managed = true)
    (small : entry.pageCount < 2 ^ 32)
    (apart : ∀ other ∈ managed done, entry.base ≠ other.base) :
    ∃ after, systemPagingAddRegion hhdmOffset contents s entry = .ok after ∧
      SetupInv hhdmOffset (done ++ [entry]) after := by
  have isRegion := pointer_isRegion hhdmOffset entry
  have fresh : ∀ link, entry.pointer hhdmOffset ∉ listed hhdmOffset done link :=
    pointer_not_listed apart
  obtain ⟨pa, initialised, ready⟩ :=
    region_initialised (contents (entry.base + hhdmOffset)) isManaged small
  obtain ⟨paging, appended, lists, ends, same⟩ := inv.addToAll apart pa
  have nowhere : s.firstNon16mb = .sentinel ∨ s.firstNon16mb ∈ Function.update
      (listed hhdmOffset done) .next (listed hhdmOffset done .next ++
        [entry.pointer hhdmOffset]) .next := by
    rw [Function.update_self]
    rcases inv.non16mb_cases with ⟨none, _⟩ | ⟨member, _⟩
    · exact Or.inl none
    · exact Or.inr (List.mem_append_left _ member)
  obtain ⟨s₂, zoned, lists₂, first, ends₂, same₂⟩ :=
    addTo16mb_step (s := s.appended paging (entry.pointer hhdmOffset) .next) entry lists isRegion
      (by simpa using fresh .next16mb) ends nowhere
  obtain ⟨s₃, zoned₃, lists₃, first₃, same₃⟩ := addTo4gb_step entry lists₂ isRegion
    (by split <;> simpa using fresh .next4gb) ends₂
  refine ⟨s₃, ?_, ?_, ?_, ?_⟩
  · unfold systemPagingAddRegion
    have suffices_ := length_suffices isManaged
    simp only [requiredSize_eq small, exec_bind_ok, suffices_, decide_true, kassert_true,
      initialised]
    rw [SetupState.appended] at zoned
    rw [show AllocatorPointer.region (entry.base + hhdmOffset) = entry.pointer hhdmOffset from rfl,
      appended, exec_bind_ok, zoned, exec_bind_ok, zoned₃]
  · rw [← listed_built isManaged]
    exact lists₃
  · rw [first₃, first]
    exact inv.non16mb_built isManaged
  · intro other member
    exact (same₃ _).ready ((same₂ _).ready ((same _).ready
      (inv.ready_added apart isManaged ready other member)))

theorem systemPagingSetupEntry_step (contents : Uintptr → RegionContents)
    (inv : SetupInv hhdmOffset done s) (small : entry.Managed = true → entry.pageCount < 2 ^ 32)
    (apart : entry.Managed = true → ∀ other ∈ managed done, entry.base ≠ other.base) :
    ∃ after, systemPagingSetupEntry hhdmOffset contents s entry = .ok after ∧
      SetupInv hhdmOffset (done ++ [entry]) after := by
  by_cases isManaged : entry.Managed = true
  · obtain ⟨after, completed, inv'⟩ := systemPagingAddRegion_step contents inv isManaged
      (small isManaged) (apart isManaged)
    refine ⟨after, ?_, inv'⟩
    have long : ¬ entry.length ≤ BitVec.ofNat 64 systemPageSize := by
      rw [BitVec.not_le]
      simp only [LimineMemmapEntry.Managed, Bool.and_eq_true, decide_eq_true_eq] at isManaged
      exact isManaged.2
    rw [systemPagingSetupEntry, if_pos (managed_length isManaged).1, if_neg long, completed]
  · have skipped : systemPagingSetupEntry hhdmOffset contents s entry = .ok s := by
      unfold systemPagingSetupEntry
      split
      case isTrue usable =>
        have short : entry.length ≤ BitVec.ofNat 64 systemPageSize := by
          by_contra long
          rw [BitVec.not_le] at long
          exact isManaged (by simp [LimineMemmapEntry.Managed, usable, long])
        rw [if_pos short]
      case isFalse => rfl
    have same : managed (done ++ [entry]) = managed done := by simp [managed, isManaged]
    refine ⟨s, skipped, ?_, ?_, ?_⟩
    · have unchanged : listed hhdmOffset (done ++ [entry]) = listed hhdmOffset done := by
        funext link
        rw [listed, listed, same]
      rw [unchanged]
      exact inv.lists
    · rw [fromNon16mb, same]
      exact inv.non16mb
    · rw [same]
      exact inv.ready

theorem setupEntries_inv (hhdmOffset : U64) (contents : Uintptr → RegionContents)
    (rest : List LimineMemmapEntry) :
    ∀ (done : List LimineMemmapEntry) (s : SetupState), SetupInv hhdmOffset done s →
      MemmapValid (done ++ rest) →
      ∃ after, rest.foldlM (systemPagingSetupEntry hhdmOffset contents) s = .ok after ∧
        SetupInv hhdmOffset (done ++ rest) after := by
  induction rest with
  | nil =>
      intro done s inv _
      exact ⟨s, rfl, by simpa using inv⟩
  | cons entry rest ih =>
      intro done s inv valid
      have member : entry ∈ done ++ entry :: rest := by simp
      have small (isManaged : entry.Managed = true) : entry.pageCount < 2 ^ 32 := by
        have limit := valid.pages entry member (managed_length isManaged).1
        rw [LimineMemmapEntry.pageCount]
        omega
      have apart (isManaged : entry.Managed = true) :
          ∀ other ∈ managed done, entry.base ≠ other.base := by
        intro other inside same
        obtain ⟨usable, long⟩ := managed_length isManaged
        obtain ⟨otherDone, otherManaged⟩ := List.mem_filter.mp inside
        obtain ⟨otherUsable, otherLong⟩ := managed_length otherManaged
        have disjoint := valid.disjoint
        rw [List.filter_append, List.pairwise_append] at disjoint
        have separate := disjoint.2.2 other (by simp [otherDone, otherUsable]) entry
          (by simp [usable])
        rw [same] at separate
        omega
      obtain ⟨middle, completed, inv'⟩ := systemPagingSetupEntry_step contents inv small apart
      obtain ⟨after, finished, inv''⟩ := ih (done ++ [entry]) middle inv' (by simpa using valid)
      refine ⟨after, ?_, by simpa using inv''⟩
      rw [List.foldlM_cons, completed, exec_bind_ok, finished]

structure SetupDone (hhdmOffset : U64) (entries : List LimineMemmapEntry)
    (paging : SystemPaging) : Prop where
  hung : ∀ link, ∃ last, Hung paging link last (listed hhdmOffset entries link)
  sentinel : ∀ link, paging.follow link .sentinel = .sentinel
  ready : ∀ entry ∈ managed entries,
    Ready (paging.allocators (entry.pointer hhdmOffset)) entry
  first : paging.first = paging.follow .next .base
  first16mb : paging.first16mb = paging.follow .next16mb .base
  first4gb : paging.first4gb = paging.follow .next4gb .base
  firstNon16mb : paging.firstNon16mb =
    (((fromNon16mb entries).map (LimineMemmapEntry.pointer hhdmOffset)).head?).getD .sentinel

theorem setup_start (paging : SystemPaging) :
    SetupInv hhdmOffset [] ⟨storeAllocator (storeAllocator paging .base .zero) .sentinel
      (endLinks ((storeAllocator paging .base .zero).allocators .sentinel)),
      .base, .base, .base, .sentinel⟩ := by
  refine ⟨⟨fun link => ⟨by simp [listed, managed], ?_, fun _ => ?_, fun some => ?_⟩, ?_⟩, rfl,
    by simp [managed]⟩
  · cases link <;> rfl
  · rw [follow_store, if_neg (by simp), follow_store, if_pos rfl]
    cases link <;> rfl
  · simp [listed, managed] at some
  · intro link
    rw [follow_store, if_pos rfl]
    cases link <;> rfl

theorem systemPagingSetup_done (hhdmOffset : U64) (contents : Uintptr → RegionContents)
    (entries : List LimineMemmapEntry) (valid : MemmapValid entries) (paging : SystemPaging) :
    ∃ after, systemPagingSetup hhdmOffset contents (some entries) paging = .ok after ∧
      SetupDone hhdmOffset entries after := by
  obtain ⟨s, completed, inv⟩ := setupEntries_inv hhdmOffset contents entries [] _
    (setup_start paging) (by simpa using valid)
  rw [List.nil_append] at inv
  refine ⟨{ s.paging with
      first := s.paging.follow .next .base
      first16mb := s.paging.follow .next16mb .base
      first4gb := s.paging.follow .next4gb .base
      last := s.last, last16mb := s.last16mb, last4gb := s.last4gb
      firstNon16mb := s.firstNon16mb }, ?_, fun link => ⟨s.lastOf link, ?_⟩,
    inv.lists.sentinel, inv.ready, rfl, rfl, rfl, inv.non16mb⟩
  · simp only [systemPagingSetup, Option.isSome_some, kassert_true, exec_bind_ok,
      Option.getD_some, completed]
    rfl
  · exact (inv.lists.hung link).congr fun _ _ => rfl

end Drastic
