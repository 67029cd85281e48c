import Drastic.Physical.Lists
import Mathlib.Data.List.TakeWhile

namespace Drastic

open Library.Chain (ChainFrom chain_suffix)

namespace LimineMemmapEntry

def EndsBefore (limit : Nat) (entry : LimineMemmapEntry) : Bool :=
  entry.base.toNat + entry.length.toNat < limit

end LimineMemmapEntry

/-- Each list starts at its field of `system_paging`, holds the allocators it is for
in map order and ends at the sentinel, which points to itself. -/
structure ListsWellFormed (hhdmOffset : U64) (entries : List LimineMemmapEntry)
    (paging : SystemPaging) : Prop where
  sentinel : ∀ link, paging.follow link .sentinel = .sentinel
  first : ChainFrom (paging.follow .next) .sentinel paging.first
    ((managed entries).map (LimineMemmapEntry.pointer hhdmOffset))
  first16mb : ChainFrom (paging.follow .next16mb) .sentinel paging.first16mb
    (((managed entries).filter (LimineMemmapEntry.EndsBefore (16 * 1024 * 1024))).map
      (LimineMemmapEntry.pointer hhdmOffset))
  first4gb : ChainFrom (paging.follow .next4gb) .sentinel paging.first4gb
    (((managed entries).filter (LimineMemmapEntry.EndsBefore (4 * 1024 * 1024 * 1024))).map
      (LimineMemmapEntry.pointer hhdmOffset))
  firstNon16mb : ∃ cells, ChainFrom (paging.follow .next) .sentinel paging.firstNon16mb cells ∧
    (∀ cell ∈ cells, cell ≠ .null) ∧
    ∀ entry ∈ managed entries,
      entry.EndsBefore (16 * 1024 * 1024) = true ∨ entry.pointer hhdmOffset ∈ cells

variable {hhdmOffset : U64} {entries : List LimineMemmapEntry} {paging : SystemPaging}

theorem managed_length_lt (valid : MemmapValid entries) {entry : LimineMemmapEntry}
    (member : entry ∈ managed entries) : entry.length.toNat < 2 ^ 44 := by
  obtain ⟨inside, isManaged⟩ := List.mem_filter.mp member
  have pages := valid.pages entry inside (managed_length isManaged).1
  rw [systemPageSize] at pages
  omega

theorem endsBelow_eq {entry : LimineMemmapEntry} (short : entry.length.toNat < 2 ^ 44)
    (limit : U64) (low : limit.toNat ≤ 2 ^ 32) :
    endsBelow entry limit = entry.EndsBefore limit.toNat := by
  rw [endsBelow, LimineMemmapEntry.EndsBefore, Bool.eq_iff_iff]
  simp only [Bool.and_eq_true, decide_eq_true_eq, BitVec.lt_def, BitVec.toNat_add]
  constructor
  · rintro ⟨base, total⟩
    omega
  · intro total
    omega

theorem inZone_16mb {entry : LimineMemmapEntry} (short : entry.length.toNat < 2 ^ 44) :
    inZone .next16mb entry = entry.EndsBefore (16 * 1024 * 1024) :=
  endsBelow_eq short (mb 16) (by decide)

theorem inZone_4gb {entry : LimineMemmapEntry} (short : entry.length.toNat < 2 ^ 44) :
    inZone .next4gb entry = entry.EndsBefore (4 * 1024 * 1024 * 1024) :=
  endsBelow_eq short (gb 4) (by decide)

theorem listed_zone (valid : MemmapValid entries) {link : Link} {limit : Nat}
    (zone : ∀ entry : LimineMemmapEntry, entry.length.toNat < 2 ^ 44 →
      inZone link entry = entry.EndsBefore limit) :
    listed hhdmOffset entries link =
      ((managed entries).filter (LimineMemmapEntry.EndsBefore limit)).map
        (LimineMemmapEntry.pointer hhdmOffset) := by
  have same : (managed entries).filter (inZone link) =
      (managed entries).filter (LimineMemmapEntry.EndsBefore limit) :=
    List.filter_congr fun entry member => zone entry (managed_length_lt valid member)
  rw [listed, same]

theorem listed_16mb (valid : MemmapValid entries) :
    listed hhdmOffset entries .next16mb =
      ((managed entries).filter (LimineMemmapEntry.EndsBefore (16 * 1024 * 1024))).map
        (LimineMemmapEntry.pointer hhdmOffset) :=
  listed_zone valid fun _ => inZone_16mb

theorem listed_4gb (valid : MemmapValid entries) :
    listed hhdmOffset entries .next4gb =
      ((managed entries).filter (LimineMemmapEntry.EndsBefore (4 * 1024 * 1024 * 1024))).map
        (LimineMemmapEntry.pointer hhdmOffset) :=
  listed_zone valid fun _ => inZone_4gb

theorem SetupDone.chain (done : SetupDone hhdmOffset entries paging) (link : Link)
    (some : listed hhdmOffset entries link ≠ []) :
    ChainFrom (paging.follow link) .sentinel (paging.follow link .base)
      (listed hhdmOffset entries link) := by
  obtain ⟨_, hung⟩ := done.hung link
  exact hung.chain some

/-- A list without a cell starts at NULL, not at the sentinel. -/
theorem SetupDone.follow_empty (done : SetupDone hhdmOffset entries paging) (link : Link)
    (none : listed hhdmOffset entries link = []) : paging.follow link .base = .null := by
  obtain ⟨_, hung⟩ := done.hung link
  exact hung.empty none

theorem SetupDone.non16mb_chain (done : SetupDone hhdmOffset entries paging)
    (some : listed hhdmOffset entries .next ≠ []) :
    ChainFrom (paging.follow .next) .sentinel paging.firstNon16mb
      ((fromNon16mb entries).map (LimineMemmapEntry.pointer hhdmOffset)) := by
  have first := done.firstNon16mb
  have all := done.chain .next some
  have split : (managed entries).takeWhile (inZone .next16mb) ++ fromNon16mb entries =
      managed entries := List.takeWhile_append_dropWhile
  rw [listed_next, ← split, List.map_append] at all
  cases shape : fromNon16mb entries with
  | nil =>
      rw [shape] at first
      exact first
  | cons entry rest =>
      rw [shape, List.map_cons] at all first
      have entered : paging.firstNon16mb = entry.pointer hhdmOffset := first
      rw [List.map_cons, entered]
      exact chain_suffix _ _ _ _ all

theorem mem_fromNon16mb {entry : LimineMemmapEntry} (member : entry ∈ managed entries) :
    inZone .next16mb entry = true ∨ entry ∈ fromNon16mb entries := by
  have split : (managed entries).takeWhile (inZone .next16mb) ++ fromNon16mb entries =
      managed entries := List.takeWhile_append_dropWhile
  rw [← split, List.mem_append] at member
  rcases member with early | late
  · exact Or.inl (List.mem_takeWhile_imp early)
  · exact Or.inr late

structure Chained (hhdmOffset : U64) (entries : List LimineMemmapEntry)
    (paging : SystemPaging) : Prop where
  sentinel : ∀ link, paging.follow link .sentinel = .sentinel
  first : ChainFrom (paging.follow .next) .sentinel paging.first (listed hhdmOffset entries .next)
  first16mb : ChainFrom (paging.follow .next16mb) .sentinel paging.first16mb
    (listed hhdmOffset entries .next16mb)
  first4gb : ChainFrom (paging.follow .next4gb) .sentinel paging.first4gb
    (listed hhdmOffset entries .next4gb)
  firstNon16mb : ChainFrom (paging.follow .next) .sentinel paging.firstNon16mb
    ((fromNon16mb entries).map (LimineMemmapEntry.pointer hhdmOffset))

theorem SetupDone.chained (done : SetupDone hhdmOffset entries paging)
    (valid : MemmapValid entries) (some : listed hhdmOffset entries .next16mb ≠ []) :
    Chained hhdmOffset entries paging := by
  have someAll : listed hhdmOffset entries .next ≠ [] :=
    fun none => some (List.subset_nil.mp (none ▸ listed_subset entries .next16mb))
  have some4gb : listed hhdmOffset entries .next4gb ≠ [] := by
    obtain ⟨cell, member⟩ := List.exists_mem_of_ne_nil _ some
    rw [listed_16mb valid, List.mem_map] at member
    obtain ⟨entry, inside, -⟩ := member
    obtain ⟨isManaged, low⟩ := List.mem_filter.mp inside
    rw [listed_4gb valid]
    refine List.ne_nil_of_mem (List.mem_map_of_mem (List.mem_filter.mpr ⟨isManaged, ?_⟩))
    rw [LimineMemmapEntry.EndsBefore, decide_eq_true_eq] at low ⊢
    omega
  refine ⟨done.sentinel, ?_, ?_, ?_, done.non16mb_chain someAll⟩
  · rw [done.first]
    exact done.chain .next someAll
  · rw [done.first16mb]
    exact done.chain .next16mb some
  · rw [done.first4gb]
    exact done.chain .next4gb some4gb

theorem Chained.wellFormed (chained : Chained hhdmOffset entries paging)
    (valid : MemmapValid entries) : ListsWellFormed hhdmOffset entries paging := by
  have first := chained.first
  have first16mb := chained.first16mb
  have first4gb := chained.first4gb
  rw [listed_next] at first
  rw [listed_16mb valid] at first16mb
  rw [listed_4gb valid] at first4gb
  refine ⟨chained.sentinel, first, first16mb, first4gb, _, chained.firstNon16mb, ?_, ?_⟩
  · intro cell member
    obtain ⟨entry, _, rfl⟩ := List.mem_map.mp member
    exact (pointer_isRegion hhdmOffset entry).proper.1
  · intro entry member
    rw [← inZone_16mb (managed_length_lt valid member)]
    exact (mem_fromNon16mb member).imp_right fun late => List.mem_map_of_mem late

theorem listed_16mb_ne_nil (valid : MemmapValid entries) :
    listed hhdmOffset entries .next16mb ≠ [] ↔
      ∃ entry ∈ entries, entry.Managed = true ∧
        entry.base.toNat + entry.length.toNat < 16 * 1024 * 1024 := by
  rw [listed_16mb valid]
  constructor
  · intro some
    obtain ⟨cell, member⟩ := List.exists_mem_of_ne_nil _ some
    obtain ⟨entry, inside, -⟩ := List.mem_map.mp member
    obtain ⟨isManaged, low⟩ := List.mem_filter.mp inside
    obtain ⟨inMap, isManaged⟩ := List.mem_filter.mp isManaged
    exact ⟨entry, inMap, isManaged, of_decide_eq_true low⟩
  · rintro ⟨entry, inMap, isManaged, low⟩
    exact List.ne_nil_of_mem (List.mem_map_of_mem
      (List.mem_filter.mpr ⟨List.mem_filter.mpr ⟨inMap, isManaged⟩, decide_eq_true low⟩))

/-- The lists are well formed exactly when the 16 MiB list gets an allocator: a list
without one starts at NULL. -/
theorem setup_lists_well_formed_iff (hhdmOffset : U64) (contents : Uintptr → RegionContents)
    (entries : List LimineMemmapEntry) (paging : SystemPaging) (valid : MemmapValid entries) :
    ∃ after, systemPagingSetup hhdmOffset contents (some entries) paging = .ok after ∧
      (ListsWellFormed hhdmOffset entries after ↔
        ∃ entry ∈ entries, entry.Managed = true ∧
          entry.base.toNat + entry.length.toNat < 16 * 1024 * 1024) := by
  obtain ⟨after, completed, done⟩ :=
    systemPagingSetup_done hhdmOffset contents entries valid paging
  refine ⟨after, completed, ?_⟩
  rw [← listed_16mb_ne_nil valid]
  constructor
  · intro wellFormed none
    have chain := wellFormed.first16mb
    rw [← listed_16mb valid, none, done.first16mb, done.follow_empty .next16mb none] at chain
    exact absurd chain (by simp [ChainFrom])
  · intro some
    exact (done.chained valid some).wellFormed valid

theorem setup_lists_well_formed_iff_sample :
    ∃ after, systemPagingSetup 0xffff800000000000#64 (fun _ => .zero)
        (some [⟨0x1000#64, 0x9e000#64, 0#64⟩, ⟨0x9f000#64, 0x1000#64, 1#64⟩,
          ⟨0x100000#64, 0x7ee0000#64, 0#64⟩]) .zero = .ok after ∧
      (ListsWellFormed 0xffff800000000000#64 [⟨0x1000#64, 0x9e000#64, 0#64⟩,
          ⟨0x9f000#64, 0x1000#64, 1#64⟩, ⟨0x100000#64, 0x7ee0000#64, 0#64⟩] after ↔
        ∃ entry ∈ ([⟨0x1000#64, 0x9e000#64, 0#64⟩, ⟨0x9f000#64, 0x1000#64, 1#64⟩,
            ⟨0x100000#64, 0x7ee0000#64, 0#64⟩] : List LimineMemmapEntry),
          entry.Managed = true ∧
            entry.base.toNat + entry.length.toNat < 16 * 1024 * 1024) :=
  setup_lists_well_formed_iff 0xffff800000000000#64 (fun _ => .zero)
    [⟨0x1000#64, 0x9e000#64, 0#64⟩, ⟨0x9f000#64, 0x1000#64, 1#64⟩,
      ⟨0x100000#64, 0x7ee0000#64, 0#64⟩] .zero
    ⟨by decide, by decide, by decide, by decide⟩

/-- Without memory below 16 MiB the first exhausted or low allocation follows NULL. -/
theorem setup_lists_broken_without_low_memory :
    ∃ after, systemPagingSetup 0xffff800000000000#64 (fun _ => .zero)
        (some [⟨0x1000000#64, 0x100000#64, 0#64⟩]) .zero = .ok after ∧
      MemmapValid [⟨0x1000000#64, 0x100000#64, 0#64⟩] ∧
      ¬ ListsWellFormed 0xffff800000000000#64 [⟨0x1000000#64, 0x100000#64, 0#64⟩] after ∧
      systemPagingPhysicalAlloc 2 .mb16 after = .error .nullDereference := by
  have valid : MemmapValid [⟨0x1000000#64, 0x100000#64, 0#64⟩] :=
    ⟨by decide, by decide, by decide, by decide⟩
  obtain ⟨after, completed, done⟩ :=
    systemPagingSetup_done 0xffff800000000000#64 (fun _ => .zero) _ valid .zero
  have none : listed 0xffff800000000000#64 [⟨0x1000000#64, 0x100000#64, 0#64⟩] .next16mb = [] := by
    decide
  have start : after.first16mb = .null := done.first16mb.trans (done.follow_empty .next16mb none)
  refine ⟨after, completed, valid, ?_, ?_⟩
  · intro wellFormed
    have chain := wellFormed.first16mb
    rw [← listed_16mb valid, none, start] at chain
    exact absurd chain (by simp [ChainFrom])
  · rw [systemPagingPhysicalAlloc, allocAlong, start]
    rfl

end Drastic
