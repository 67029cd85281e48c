import Drastic.Library.RadixOwned
import Drastic.Paging.CloneCopies

namespace Drastic

open Library.RadixTable (tableAt walk_congr Copied copied_succ Owns OwnsWithin tablesBelow)

variable {σ : Type} {hhdmOffset : U64} {alloc : PhysicalAlloc σ} {valid : σ → Prop}
  {available : σ → Frame → Prop} {origin s s' : PagingState σ} {page copy frame : Frame}
  {n i : Nat} {slot : Slot}

/-! The pages of a clone make one tree of tables, whatever the source shares. -/

theorem taken_split {s₁ s₂ s₃ : PagingState σ}
    (shrinks₁ : ∀ frame, available s₁.pages frame → available s.pages frame)
    (shrinks₂ : ∀ frame, available s₂.pages frame → available s₁.pages frame)
    (shrinks₃ : ∀ frame, available s₃.pages frame → available s₂.pages frame)
    (table : Frame) : Taken available s s₃ table ↔ Taken available s s₁ table ∨
      Taken available s₁ s₂ table ∨ Taken available s₂ s₃ table := by
  have first := shrinks₁ table
  have second := shrinks₂ table
  have third := shrinks₃ table
  unfold Taken
  tauto

theorem CopyLoop.turn_kept
    (start : CopyStart hhdmOffset valid available origin (n + 1) page copy s)
    (loop : CopyLoop hhdmOffset valid available origin n page copy s i s')
    (owns : OwnsWithin amd64 (wordAt hhdmOffset s'.memory) (Taken available s s') (n + 1) copy
      fun other => other.toNat < i) (here : slot.toNat = i)
    {result : Uintptr × PagingState σ} {s'' : PagingState σ}
    (cloned : EntryCloned hhdmOffset valid available s' copy slot result frame)
    (writes : CopyWrites hhdmOffset valid available frame result.2 s'')
    (index : Slot) (rest : List Slot) (before : index.toNat < i) :
    tableAt amd64 (wordAt hhdmOffset s''.memory) (n + 1) copy (index :: rest) =
      tableAt amd64 (wordAt hhdmOffset s'.memory) (n + 1) copy (index :: rest) := by
  have used : ¬ available s'.pages copy :=
    fun free => start.taken.2 (loop.writes.allocated.shrinks copy free)
  refine (walk_congr _ _ _ ?_).1
  intro front slot' back table shape reached
  cases front with
  | nil =>
      rw [tableAt, Option.some.injEq] at reached
      rw [List.nil_append, List.cons.injEq] at shape
      have different : slot' ≠ slot := by
        rintro rfl
        rw [shape.1] at before
        omega
      rw [← reached]
      exact cloned.kept writes (cloned.ne_frame used) used (Or.inr different)
  | cons first others =>
      rw [List.cons_append, List.cons.injEq] at shape
      rw [← shape.1] at reached
      have taken := owns.below index others table before reached
      have isOld : table ≠ frame := by
        rintro rfl
        exact taken.2 cloned.taken.1
      have notCopy : table ≠ copy := by
        rintro rfl
        exact start.taken.2 taken.1
      exact cloned.kept writes isOld taken.2 (Or.inl notCopy)

theorem CopyLoop.owns_enter
    (start : CopyStart hhdmOffset valid available origin (n + 1) page copy s)
    (loop : CopyLoop hhdmOffset valid available origin n page copy s i s')
    (owns : OwnsWithin amd64 (wordAt hhdmOffset s'.memory) (Taken available s s') (n + 1) copy
      fun other => other.toNat < i) (here : slot.toNat = i)
    (isChild : amd64.child (n + 1) (wordAt hhdmOffset s'.memory copy slot) =
      some (entryFrame (wordAt hhdmOffset s'.memory copy slot)))
    {result : Uintptr × PagingState σ} {s'' : PagingState σ}
    (cloned : EntryCloned hhdmOffset valid available s' copy slot result frame)
    (writes : CopyWrites hhdmOffset valid available frame result.2 s'')
    (below : Owns amd64 (wordAt hhdmOffset s''.memory) (Taken available result.2 s'') n frame) :
    OwnsWithin amd64 (wordAt hhdmOffset s''.memory) (Taken available s s'') (n + 1) copy
      fun other => other.toNat < i ∨ other = slot := by
  have used : ¬ available s'.pages copy :=
    fun free => start.taken.2 (loop.writes.allocated.shrinks copy free)
  have one (table : Frame) : Taken available s' result.2 table ↔ table = frame := by
    constructor
    · rintro ⟨before, after⟩
      by_contra different
      exact after ((cloned.page.rest table).mpr ⟨before, different⟩)
    · rintro rfl
      exact cloned.taken
  refine owns.hang (by omega) ?_ below (loop.turn_kept start owns here cloned writes)
    ?_ ?_
  · rw [cloned.entry_kept used writes]
    exact child_redirected isChild frame
  · intro table
    rw [taken_split loop.writes.allocated.shrinks cloned.allocated.shrinks
      writes.allocated.shrinks table, one]
  · rintro table taken (rfl | later)
    · exact taken.2 cloned.taken.1
    · exact taken.2 (cloned.allocated.shrinks table later.1)

def allSlots : List Slot := (List.range 512).map (BitVec.ofNat 9)

def entryTables (hhdmOffset : U64) (memory : Memory) (n : Nat) (page : Frame) (slot : Slot) : Nat :=
  (amd64.child (n + 1) (wordAt hhdmOffset memory page slot)).elim 0 fun next =>
    1 + tablesBelow amd64 (wordAt hhdmOffset memory) allSlots n next

def CopySpec (hhdmOffset : U64) (alloc : PhysicalAlloc σ) (valid : σ → Prop)
    (available : σ → Frame → Prop) (origin : PagingState σ) (level : Nat)
    (loop : Uintptr → PagingState σ → Exec (PagingState σ)) : Prop :=
  ∀ s page copy, CopyStart hhdmOffset valid available origin level page copy s →
    Outcome alloc s.pages
      (tablesBelow amd64 (wordAt hhdmOffset origin.memory) allSlots level page) (·.pages)
      (loop (copy.address + hhdmOffset) s) fun s' =>
        CopyWrites hhdmOffset valid available copy s s' ∧
        Copied amd64 (wordAt hhdmOffset origin.memory) (wordAt hhdmOffset s'.memory)
          (Taken available s s') level page copy ∧
        Owns amd64 (wordAt hhdmOffset s'.memory) (Taken available s s') level copy

theorem copySpec_lowest :
    CopySpec hhdmOffset alloc valid available origin 1 fun _ s => .ok s := by
  intro s page copy start
  have none : tablesBelow amd64 (wordAt hhdmOffset origin.memory) allSlots 1 page = 0 := by
    simp [tablesBelow, amd64_child_one]
  rw [none]
  refine .ok rfl ⟨.refl start.valid, ?_, .leaf amd64_child_one fun _ taken => taken.2 taken.1⟩
  intro slot
  rw [amd64_child_one]
  exact start.same slot

structure CopyTurns (hhdmOffset : U64) (valid : σ → Prop) (available : σ → Frame → Prop)
    (origin : PagingState σ) (n : Nat) (page copy : Frame) (s : PagingState σ) (i : Nat)
    (s' : PagingState σ) : Prop where
  loop : CopyLoop hhdmOffset valid available origin n page copy s i s'
  owns : OwnsWithin amd64 (wordAt hhdmOffset s'.memory) (Taken available s s') (n + 1) copy
    fun other => other.toNat < i

theorem CopyTurns.skip
    (turns : CopyTurns hhdmOffset valid available origin n page copy s i s') (here : slot.toNat = i)
    (noChild : amd64.child (n + 1) (wordAt hhdmOffset s'.memory copy slot) = none) :
    CopyTurns hhdmOffset valid available origin n page copy s (i + 1) s' := by
  have upTo (other : Slot) : other.toNat < i + 1 ↔ other.toNat < i ∨ other = slot := by
    rw [← BitVec.toNat_inj, here]
    omega
  refine ⟨turns.loop.skip here noChild, ?_⟩
  simp only [upTo]
  exact turns.owns.skip noChild

theorem CopyTurns.turn (fresh : FreshAllocator alloc valid available) {skipLarge : Bool}
    {inner : Uintptr → PagingState σ → Exec (PagingState σ)}
    (spec : CopySpec hhdmOffset alloc valid available origin n inner)
    (levels : n ≠ 0 ∧ (skipLarge = false ↔ n + 1 = 4))
    (start : CopyStart hhdmOffset valid available origin (n + 1) page copy s)
    (turns : CopyTurns hhdmOffset valid available origin n page copy s i s') (bound : i < 512) :
    Outcome alloc s'.pages
      (entryTables hhdmOffset origin.memory n page (BitVec.ofNat 9 i)) (·.pages)
      (cloneEntry alloc hhdmOffset skipLarge inner (copy.address + hhdmOffset) s' i)
      (CopyTurns hhdmOffset valid available origin n page copy s (i + 1)) := by
  obtain ⟨loop, owns⟩ := turns
  have here : (BitVec.ofNat 9 i).toNat = i := by
    rw [BitVec.toNat_ofNat]
    omega
  have upTo (other : Slot) : other.toNat < i + 1 ↔ other.toNat < i ∨ other = BitVec.ofNat 9 i := by
    rw [← BitVec.toNat_inj, here]
    omega
  have pointer : copy.address + hhdmOffset + 8#64 * BitVec.ofNat 64 i =
      slotPointer hhdmOffset copy (BitVec.ofNat 9 i) := by
    have index : (BitVec.ofNat 9 i).setWidth 64 = BitVec.ofNat 64 i := by
      apply BitVec.eq_of_toNat_eq
      rw [BitVec.toNat_setWidth, here, BitVec.toNat_ofNat]
    rw [slotPointer, index]
  have same := loop.rest (BitVec.ofNat 9 i) here.ge
  have skipped (noChild : amd64.child (n + 1)
      (wordAt hhdmOffset s'.memory copy (BitVec.ofNat 9 i)) = none) :
      Outcome alloc s'.pages
        (entryTables hhdmOffset origin.memory n page (BitVec.ofNat 9 i)) (·.pages) (.ok s')
        (CopyTurns hhdmOffset valid available origin n page copy s (i + 1)) := by
    rw [entryTables, ← same, noChild]
    exact .ok rfl (CopyTurns.skip ⟨loop, owns⟩ here noChild)
  simp only [cloneEntry, pointer]
  split
  case isTrue absent =>
    exact skipped (amd64_child_absent (present_eq_false.mpr absent) _)
  case isFalse isPresent =>
    split
    case isTrue isLarge =>
      have notTop : n + 1 ≠ 4 := by
        intro top
        rw [levels.2.mpr top] at isLarge
        exact absurd isLarge.1 (by decide)
      exact skipped (child_of_large notTop isLarge.2)
    case isFalse notSkipped =>
      have isChild := child_of_cloned ⟨levels.1, levels.2.mp⟩ isPresent notSkipped
      have used : ¬ available s'.pages copy :=
        fun free => start.taken.2 (loop.writes.allocated.shrinks copy free)
      rw [entryTables, ← same, show amd64.child (n + 1) (wordAt hhdmOffset s'.memory copy
        (BitVec.ofNat 9 i)) = _ from isChild]
      apply (systemPagingTablePageEntryClone_outcome fresh loop.writes.allocated.valid used _).bind
      rintro ⟨_, t⟩ ⟨frame, cloned⟩
      obtain rfl := cloned.pointer
      have entered := loop.entryStart start here isChild cloned
      rw [← same] at entered
      apply (spec t _ frame entered).mono
      rintro s'' ⟨writes, copied, below⟩
      rw [same] at copied
      refine ⟨loop.enter start here isChild cloned writes copied, ?_⟩
      simp only [upTo]
      exact loop.owns_enter start owns here isChild cloned writes below

theorem copySpec_cloneEntries (fresh : FreshAllocator alloc valid available) {skipLarge : Bool}
    {inner : Uintptr → PagingState σ → Exec (PagingState σ)}
    (spec : CopySpec hhdmOffset alloc valid available origin n inner)
    (levels : n ≠ 0 ∧ (skipLarge = false ↔ n + 1 = 4)) :
    CopySpec hhdmOffset alloc valid available origin (n + 1)
      (cloneEntries alloc hhdmOffset skipLarge inner) := by
  intro s page copy start
  have turns : ∀ i ≤ 512, Outcome alloc s.pages
      (((List.range i).map fun j =>
        entryTables hhdmOffset origin.memory n page (BitVec.ofNat 9 j)).sum) (·.pages)
      ((List.range i).foldlM
        (cloneEntry alloc hhdmOffset skipLarge inner (copy.address + hhdmOffset)) s)
      (CopyTurns hhdmOffset valid available origin n page copy s i) := by
    intro i bound
    induction i with
    | zero =>
        refine .ok rfl ⟨⟨.refl start.valid, fun _ before => absurd before (Nat.not_lt_zero _),
          fun slot _ => start.same slot⟩, ?_⟩
        simp only [Nat.not_lt_zero]
        exact .start fun table taken => taken.2 taken.1
    | succ i ih =>
        rw [List.range_succ, List.foldlM_append, List.map_append, List.sum_append]
        apply (ih (by omega)).bind
        intro s' done
        rw [List.foldlM_cons, List.map_singleton, List.sum_singleton]
        apply (done.turn fresh spec levels start (by omega)).bind_done
        exact fun _ next => .ok rfl next
  have count : tablesBelow amd64 (wordAt hhdmOffset origin.memory) allSlots (n + 1) page =
      ((List.range 512).map fun j =>
        entryTables hhdmOffset origin.memory n page (BitVec.ofNat 9 j)).sum := by
    simp only [tablesBelow, allSlots, List.map_map, Function.comp_def, entryTables]
  rw [count]
  apply (turns 512 (Nat.le_refl _)).mono
  rintro s' ⟨loop, owns⟩
  exact ⟨loop.writes, copied_succ.mpr fun slot => loop.copied slot slot.isLt,
    owns.owns (fun slot => slot.isLt) fun taken => start.taken.2 taken.1⟩

theorem clonePml4_spec (fresh : FreshAllocator alloc valid available) :
    CopySpec hhdmOffset alloc valid available origin 4 (clonePml4 alloc hhdmOffset) :=
  copySpec_cloneEntries fresh (copySpec_cloneEntries fresh (copySpec_cloneEntries fresh
    copySpec_lowest (by decide)) (by decide)) (by decide)

/-- What the clone of the tables below `root` leaves: tables made of the pages that were
allocated, and of all of them. -/
structure ClonedTree (hhdmOffset : U64) (root : Frame) (valid : σ → Prop)
    (available : σ → Frame → Prop) (s : PagingState σ) (copy : Frame) (s' : PagingState σ) :
    Prop where
  tree : TableTree hhdmOffset copy valid available s'
  allocated : Allocated valid available s.pages s'.pages
  tables : ∀ frame, Taken available s s' frame ↔
    ∃ path, tableAt amd64 (wordAt hhdmOffset s'.memory) 4 copy path = some frame
  walks : ∀ virtual, hardwareWalk hhdmOffset s'.memory copy virtual =
    hardwareWalk hhdmOffset s.memory root virtual
  outside : ∀ address, s'.memory address ≠ s.memory address →
    ∃ table, Taken available s s' table ∧ InPage (table.address + hhdmOffset) address

theorem systemPagingPageClone_start {root : Frame} {pages : σ}
    (used : ∀ path table, tableAt amd64 (wordAt hhdmOffset s.memory) 4 root path = some table →
      ¬ available s.pages table)
    (taken : PageTaken valid available s.pages pages copy) :
    CopyStart hhdmOffset valid available s 4 root copy
      ⟨copyPageAt s.memory (copy.address + hhdmOffset) (root.address + hhdmOffset), pages⟩ := by
  have words (table : Frame) (slot : Slot) : wordAt hhdmOffset
      (copyPageAt s.memory (copy.address + hhdmOffset) (root.address + hhdmOffset)) table slot =
        if table = copy then wordAt hhdmOffset s.memory root slot
        else wordAt hhdmOffset s.memory table slot := wordAt_copyPageAt copy root table slot
  refine ⟨taken.valid, taken.allocated.shrinks, ?_, ⟨taken.free, taken.used⟩, ?_, used⟩
  · intro table unavailable slot
    have different : table ≠ copy := by
      rintro rfl
      exact unavailable taken.free
    rw [words, if_neg different]
  · intro slot
    rw [words, if_pos rfl]

theorem systemPagingTableClone_outcome (fresh : FreshAllocator alloc valid available)
    (isValid : valid s.pages) {root : Frame}
    (used : ∀ path table, tableAt amd64 (wordAt hhdmOffset s.memory) 4 root path = some table →
      ¬ available s.pages table) :
    Outcome alloc s.pages (1 + tablesBelow amd64 (wordAt hhdmOffset s.memory) allSlots 4 root)
      (·.2.pages) (systemPagingTableClone alloc hhdmOffset (root.address + hhdmOffset) s)
      fun result => ∃ copy : Frame, result.1 = ⟨copy.address, copy.address + hhdmOffset⟩ ∧
        ClonedTree hhdmOffset root valid available s copy result.2 := by
  apply (systemPagingPageClone_outcome fresh isValid _).bind
  rintro ⟨_, memory, pages⟩ ⟨copy, rfl, rfl, taken⟩
  apply (clonePml4_spec fresh _ root copy (systemPagingPageClone_start used taken)).bind_done
  rintro s' ⟨writes, copied, owns⟩
  have shrinks := taken.allocated.shrinks
  have top : Taken available s s' copy :=
    ⟨taken.free, fun still => taken.used (writes.allocated.shrinks copy still)⟩
  have all (frame : Frame) : Taken available s s' frame ↔
      ∃ path, tableAt amd64 (wordAt hhdmOffset s'.memory) 4 copy path = some frame := by
    constructor
    · rintro ⟨before, after⟩
      by_cases first : frame = copy
      · exact ⟨[], first ▸ Library.RadixTable.tableAt_nil ..⟩
      · exact owns.all frame ⟨(taken.rest frame).mpr ⟨before, first⟩, after⟩
    · rintro ⟨path, found⟩
      rcases owns.below path frame found with rfl | ⟨before, after⟩
      · exact top
      · exact ⟨shrinks frame before, after⟩
  refine .ok (by rfl) ⟨copy, rfl, ⟨writes.allocated.valid, owns.sole, ?_⟩,
    taken.allocated.trans writes.allocated, all, ?_, ?_⟩
  · intro path table found
    exact ((all table).mpr ⟨path, found⟩).2
  · intro virtual
    rw [hardwareWalk, hardwareWalk, copied.lookup_eq]
  · intro address changed
    by_cases later : s'.memory address =
        copyPageAt s.memory (copy.address + hhdmOffset) (root.address + hhdmOffset) address
    · refine ⟨copy, top, ?_⟩
      by_contra outside
      rw [later, copyPageAt, if_neg outside] at changed
      exact changed rfl
    · obtain ⟨table, which, inside⟩ := writes.outside address later
      refine ⟨table, ?_, inside⟩
      rcases which with rfl | ⟨before, after⟩
      · exact top
      · exact ⟨shrinks table before, after⟩

/-- A clone is made if one allocation succeeds for each table of the source; it translates every
address as its source does and shares no table with it, and the source is left as it was. -/
theorem table_clone_translates_alike (fresh : FreshAllocator alloc valid available)
    (s : PagingState σ) (isValid : valid s.pages) (root : Frame)
    (used : ∀ path table, tableAt amd64 (wordAt hhdmOffset s.memory) 4 root path = some table →
      ¬ available s.pages table) :
    Outcome alloc s.pages (1 + tablesBelow amd64 (wordAt hhdmOffset s.memory) allSlots 4 root)
      (·.2.pages) (systemPagingTableClone alloc hhdmOffset (root.address + hhdmOffset) s)
      fun result => ∃ copy : Frame, result.1 = ⟨copy.address, copy.address + hhdmOffset⟩ ∧
        (∀ virtual, hardwareWalk hhdmOffset result.2.memory copy virtual =
          hardwareWalk hhdmOffset s.memory root virtual) ∧
        (∀ path other table,
          tableAt amd64 (wordAt hhdmOffset result.2.memory) 4 copy path = some table →
          tableAt amd64 (wordAt hhdmOffset s.memory) 4 root other ≠ some table) ∧
        ∀ path table address,
          tableAt amd64 (wordAt hhdmOffset s.memory) 4 root path = some table →
          InPage (table.address + hhdmOffset) address →
          result.2.memory address = s.memory address := by
  apply (systemPagingTableClone_outcome fresh isValid used).mono
  rintro result ⟨copy, pointers, cloned⟩
  refine ⟨copy, pointers, cloned.walks, ?_, ?_⟩
  · intro path other table found source
    exact used other table source ((cloned.tables table).mpr ⟨path, found⟩).1
  · intro path table address found inside
    by_contra changed
    obtain ⟨other, fromPages, inOther⟩ := cloned.outside address changed
    obtain rfl := inPage_unique inside inOther
    exact used path table found fromPages.1

theorem table_clone_translates_alike_sample : ∃ result copy,
    systemPagingTableClone consecutivePages 0#64 (Frame.address 1#36 + 0#64)
      (⟨gibibytePage, 3⟩ : PagingState Nat) = .ok result ∧
    hardwareWalk 0#64 result.2.memory copy 0x1234#64 =
      some ⟨0x10000001234#64, 3, 0x83#64, [3#64]⟩ ∧
    ∀ path, tableAt amd64 (wordAt 0#64 result.2.memory) 4 copy path ≠ some 2#36 := by
  have one : tablesBelow amd64 (wordAt 0#64 gibibytePage) allSlots 4 1#36 = 1 := by
    decide +kernel
  have cloned := table_clone_translates_alike consecutivePages_fresh ⟨gibibytePage, 3⟩ trivial 1#36
    gibibytePage_tree.unused
  simp only [one] at cloned
  obtain ⟨result, returned, ⟨copy, _, walks, apart, _⟩, _⟩ :=
    cloned.returns ⟨_, _, rfl, _, _, rfl, trivial⟩
  refine ⟨result, copy, returned, (walks _).trans (by decide), ?_⟩
  intro path found
  exact apart path [0#9] 2#36 found (by decide)

end Drastic
