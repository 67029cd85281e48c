import Drastic.Library.RadixGrowth
import Drastic.Paging.Entries
import Drastic.Paging.FreshPages

namespace Drastic

open Library.RadixTable (Format lookup tableAt Sole Grows)
open Library.WordMemory (readWord writeWord)

variable {σ : Type} {hhdmOffset : U64} {root : Frame} {alloc : PhysicalAlloc σ}
  {valid : σ → Prop} {available : σ → Frame → Prop}

/-- The tables below `root` are all different, and none of them is available. -/
structure TableTree (hhdmOffset : U64) (root : Frame) (valid : σ → Prop)
    (available : σ → Frame → Prop) (s : PagingState σ) : Prop where
  valid : valid s.pages
  sole : Sole amd64 (wordAt hhdmOffset s.memory) 4 root
  unused : ∀ path table, tableAt amd64 (wordAt hhdmOffset s.memory) 4 root path = some table →
    ¬ available s.pages table

def Taken (available : σ → Frame → Prop) (s s' : PagingState σ) (frame : Frame) : Prop :=
  available s.pages frame ∧ ¬ available s'.pages frame

/-- Tables were added, made of all the pages that were allocated, and no leaf changed. -/
structure Grown (hhdmOffset : U64) (root : Frame) (valid : σ → Prop)
    (available : σ → Frame → Prop) (s s' : PagingState σ) : Prop where
  lookup_eq : ∀ path, lookup amd64 (wordAt hhdmOffset s'.memory) 4 root path =
    lookup amd64 (wordAt hhdmOffset s.memory) 4 root path
  tables : ∀ path table, tableAt amd64 (wordAt hhdmOffset s'.memory) 4 root path = some table →
    tableAt amd64 (wordAt hhdmOffset s.memory) 4 root path = some table ∨
      Taken available s s' table
  kept : ∀ path table, tableAt amd64 (wordAt hhdmOffset s.memory) 4 root path = some table →
    tableAt amd64 (wordAt hhdmOffset s'.memory) 4 root path = some table
  linked : ∀ frame, Taken available s s' frame →
    ∃ path, tableAt amd64 (wordAt hhdmOffset s'.memory) 4 root path = some frame
  entries : ∀ path table slot,
    tableAt amd64 (wordAt hhdmOffset s'.memory) 4 root path = some table →
    (tableAt amd64 (wordAt hhdmOffset s.memory) 4 root path = some table ∧
      wordAt hhdmOffset s'.memory table slot = wordAt hhdmOffset s.memory table slot) ∨
    wordAt hhdmOffset s'.memory table slot = 0#64 ∨
    ∃ frame, wordAt hhdmOffset s'.memory table slot = parentEntry frame
  allocated : Allocated valid available s.pages s'.pages
  outside : ∀ address, s'.memory address ≠ s.memory address → ∃ table,
    ((∃ path, tableAt amd64 (wordAt hhdmOffset s.memory) 4 root path = some table) ∨
      Taken available s s' table) ∧ InPage (table.address + hhdmOffset) address

variable {s s' s'' : PagingState σ}

theorem Grown.refl (isValid : valid s.pages) :
    Grown hhdmOffset root valid available s s where
  lookup_eq _ := rfl
  tables _ _ found := Or.inl found
  kept _ _ found := found
  linked _ taken := absurd taken.1 taken.2
  entries _ _ _ found := Or.inl ⟨found, rfl⟩
  allocated := .refl isValid
  outside _ changed := absurd rfl changed

theorem Grown.trans (first : Grown hhdmOffset root valid available s s')
    (second : Grown hhdmOffset root valid available s' s'') :
    Grown hhdmOffset root valid available s s'' where
  lookup_eq path := (second.lookup_eq path).trans (first.lookup_eq path)
  tables path table found := by
    rcases second.tables path table found with older | ⟨free, taken⟩
    · rcases first.tables path table older with oldest | ⟨free, taken⟩
      · exact Or.inl oldest
      · exact Or.inr ⟨free, fun still => taken (second.allocated.shrinks table still)⟩
    · exact Or.inr ⟨first.allocated.shrinks table free, taken⟩
  kept path table found := second.kept path table (first.kept path table found)
  linked frame := by
    rintro ⟨before, after⟩
    by_cases between : available s'.pages frame
    · exact second.linked frame ⟨between, after⟩
    · obtain ⟨path, found⟩ := first.linked frame ⟨before, between⟩
      exact ⟨path, second.kept path frame found⟩
  entries path table slot found := by
    rcases second.entries path table slot found with ⟨older, same⟩ | zero | parent
    · rw [same]
      exact first.entries path table slot older
    · exact Or.inr (Or.inl zero)
    · exact Or.inr (Or.inr parent)
  allocated := first.allocated.trans second.allocated
  outside address changed := by
    by_cases later : s''.memory address = s'.memory address
    · rw [later] at changed
      obtain ⟨table, which, inside⟩ := first.outside address changed
      refine ⟨table, which.imp_right fun taken => ⟨taken.1, ?_⟩, inside⟩
      exact fun still => taken.2 (second.allocated.shrinks table still)
    · obtain ⟨table, which, inside⟩ := second.outside address later
      refine ⟨table, ?_, inside⟩
      rcases which with ⟨path, older⟩ | taken
      · rcases first.tables path table older with oldest | taken
        · exact Or.inl ⟨path, oldest⟩
        · exact Or.inr ⟨taken.1, fun still => taken.2 (second.allocated.shrinks table still)⟩
      · exact Or.inr ⟨first.allocated.shrinks table taken.1, taken.2⟩

def withTable (hhdmOffset : U64) (memory : Memory) (page : Frame) (slot : Slot) (frame : Frame) :
    Memory :=
  writeWord (zeroPageAt memory (frame.address + hhdmOffset))
    (slotPointer hhdmOffset page slot) (parentEntry frame)

theorem wordAt_withTable (memory : Memory) (page table frame : Frame) (slot slot' : Slot) :
    wordAt hhdmOffset (withTable hhdmOffset memory page slot frame) table slot' =
      if table = page ∧ slot' = slot then parentEntry frame
      else if table = frame then 0#64 else wordAt hhdmOffset memory table slot' := by
  rw [withTable, wordAt_writeWord, wordAt_zeroPageAt]

theorem withTable_outside {memory : Memory} {page frame : Frame} {slot : Slot}
    {address : Uintptr}
    (changed : withTable hhdmOffset memory page slot frame address ≠ memory address) :
    InPage (page.address + hhdmOffset) address ∨ InPage (frame.address + hhdmOffset) address := by
  by_contra neither
  rw [not_or] at neither
  have stored : withTable hhdmOffset memory page slot frame address =
      zeroPageAt memory (frame.address + hhdmOffset) address := by
    by_contra different
    exact neither.1 (writeWord_inPage different)
  rw [stored, zeroPageAt, if_neg neither.2] at changed
  exact changed rfl

variable {path : List Slot} {page frame : Frame} {slot : Slot} {n : Nat}

theorem TableTree.grows (tree : TableTree hhdmOffset root valid available s)
    (found : tableAt amd64 (wordAt hhdmOffset s.memory) 4 root path = some page)
    (deep : 4 = path.length + (n + 1)) (upper : n + 1 ≠ 1)
    (absent : present (wordAt hhdmOffset s.memory page slot) = false)
    (free : available s.pages frame) :
    Grows amd64 (wordAt hhdmOffset s.memory)
      (wordAt hhdmOffset (withTable hhdmOffset s.memory page slot frame)) 4 n root page frame path
      slot := by
  have apart : frame ≠ page := by
    rintro rfl
    exact tree.unused path frame found free
  refine ⟨found, deep, amd64_child_absent absent _, amd64_leaf_absent absent _, ?_, ?_, ?_, ?_⟩
  · intro other reached
    exact tree.unused other frame reached free
  · rw [wordAt_withTable, if_pos ⟨rfl, rfl⟩]
    exact amd64_child_parent frame upper
  · intro level other
    rw [wordAt_withTable, if_neg (fun same => apart same.1), if_pos rfl]
    exact ⟨amd64_child_zero level, amd64_leaf_zero level⟩
  · intro table other different elsewhere
    rw [wordAt_withTable, if_neg (by tauto), if_neg different]

theorem TableTree.withTable (tree : TableTree hhdmOffset root valid available s)
    (found : tableAt amd64 (wordAt hhdmOffset s.memory) 4 root path = some page)
    (deep : 4 = path.length + (n + 1)) (upper : n + 1 ≠ 1)
    (absent : present (wordAt hhdmOffset s.memory page slot) = false) {pages : σ}
    (taken : PageTaken valid available s.pages pages frame) :
    let s' : PagingState σ := ⟨Drastic.withTable hhdmOffset s.memory page slot frame, pages⟩
    TableTree hhdmOffset root valid available s' ∧
      Grown hhdmOffset root valid available s s' ∧
      tableAt amd64 (wordAt hhdmOffset s'.memory) 4 root (path ++ [slot]) = some frame := by
  have grows := tree.grows found deep upper absent taken.free
  have tables := grows.tableAt_eq tree.sole
  refine ⟨⟨taken.valid, grows.sole tree.sole, ?_⟩,
    ⟨grows.lookup_eq tree.sole, ?_, ?_, ?_, ?_, taken.allocated, ?_⟩, ?_⟩
  · intro other table reached still
    rw [tables] at reached
    split at reached
    case isTrue =>
      cases reached
      exact taken.used still
    case isFalse => exact tree.unused other table reached (taken.allocated.shrinks table still)
  · intro other table reached
    rw [tables] at reached
    split at reached
    case isTrue =>
      cases reached
      exact Or.inr ⟨taken.free, taken.used⟩
    case isFalse => exact Or.inl reached
  · intro other table reached
    rw [tables]
    split
    case isTrue isNew =>
      rw [isNew, Library.RadixTable.tableAt_concat found deep, grows.noChild] at reached
      cases reached
    case isFalse => exact reached
  · rintro other ⟨before, after⟩
    obtain rfl : other = frame := by
      by_contra different
      exact after ((taken.rest other).mpr ⟨before, different⟩)
    exact ⟨path ++ [slot], by rw [tables, if_pos rfl]⟩
  · intro other table slot' reached
    rw [wordAt_withTable]
    split
    case isTrue => exact Or.inr (Or.inr ⟨frame, rfl⟩)
    case isFalse =>
      split
      case isTrue => exact Or.inr (Or.inl rfl)
      case isFalse different =>
        rw [tables] at reached
        split at reached
        case isTrue =>
          cases reached
          exact absurd rfl different
        case isFalse => exact Or.inl ⟨reached, rfl⟩
  · intro address changed
    rcases withTable_outside changed with inside | inside
    · exact ⟨page, Or.inl ⟨path, found⟩, inside⟩
    · exact ⟨frame, Or.inr ⟨taken.free, taken.used⟩, inside⟩
  · rw [tables, if_pos rfl]

def SetsParent (setEntry : Memory → Uintptr → Uintptr → U64 → Exec Memory) : Prop :=
  ∀ memory target targetAddress,
    setEntry memory target targetAddress parentFlags =
      .ok (writeEntry memory target targetAddress parentFlags)

theorem present_eq_false {entry : U64} :
    present entry = false ↔ entry &&& systemPagingAmd64FlagP = 0#64 := by simp [present]

theorem descend_present (setEntry : Memory → Uintptr → Uintptr → U64 → Exec Memory)
    (isPresent : present (wordAt hhdmOffset s.memory page slot) = true) :
    descend alloc hhdmOffset setEntry (slotPointer hhdmOffset page slot) s =
      .ok ((entryFrame (wordAt hhdmOffset s.memory page slot)).address + hhdmOffset, s) := by
  have test : ¬ readWord s.memory (slotPointer hhdmOffset page slot) &&& systemPagingAmd64FlagP =
      0#64 := by
    rw [← present_eq_false]
    simpa [wordAt] using isPresent
  rw [descend, if_neg test, exec_bind_ok, ← and_flagAddress]
  rfl

theorem descend_absent {setEntry : Memory → Uintptr → Uintptr → U64 → Exec Memory}
    (sets : SetsParent setEntry)
    (absent : present (wordAt hhdmOffset s.memory page slot) = false) {pages : σ}
    (call : allocPage alloc s = .ok (frame.address, ⟨s.memory, pages⟩)) :
    descend alloc hhdmOffset setEntry (slotPointer hhdmOffset page slot) s =
      .ok (frame.address + hhdmOffset, ⟨withTable hhdmOffset s.memory page slot frame, pages⟩) := by
  have test : readWord s.memory (slotPointer hhdmOffset page slot) &&& systemPagingAmd64FlagP =
      0#64 := present_eq_false.mp absent
  have made : makeTable alloc hhdmOffset setEntry (slotPointer hhdmOffset page slot) s =
      .ok ⟨withTable hhdmOffset s.memory page slot frame, pages⟩ := by
    have wrote := sets (zeroPageAt s.memory (frame.address + hhdmOffset))
      (slotPointer hhdmOffset page slot) frame.address
    rw [writeEntry, address_and_flagAddress] at wrote
    rw [makeTable, systemPagingEntryNewPhysical, call]
    simp only [exec_bind_ok, exec_pure, wrote]
    rfl
  have written : readWord (withTable hhdmOffset s.memory page slot frame)
      (slotPointer hhdmOffset page slot) = parentEntry frame := Library.WordMemory.readWord_writeWord _ _ _
  have same : entryFrame (parentEntry frame) = frame := entryFrame_entry frame (by decide)
  rw [descend, if_pos test, made, exec_bind_ok]
  simp only [written, and_flagAddress, same, exec_pure]

theorem descend_fails (setEntry : Memory → Uintptr → Uintptr → U64 → Exec Memory)
    (absent : present (wordAt hhdmOffset s.memory page slot) = false) {halt : Halt}
    (failed : allocPage alloc s = .error halt) :
    descend alloc hhdmOffset setEntry (slotPointer hhdmOffset page slot) s = .error halt := by
  have test : readWord s.memory (slotPointer hhdmOffset page slot) &&& systemPagingAmd64FlagP =
      0#64 := present_eq_false.mp absent
  rw [descend, if_pos test, makeTable, systemPagingEntryNewPhysical, failed]
  rfl

theorem descend_absent_outcome (fresh : FreshAllocator alloc valid available)
    (isValid : valid s.pages) {setEntry : Memory → Uintptr → Uintptr → U64 → Exec Memory}
    (sets : SetsParent setEntry)
    (absent : present (wordAt hhdmOffset s.memory page slot) = false) :
    Outcome alloc s.pages 1 (·.2.pages)
      (descend alloc hhdmOffset setEntry (slotPointer hhdmOffset page slot) s) fun result =>
        ∃ frame pages, PageTaken valid available s.pages pages frame ∧ result =
          (frame.address + hhdmOffset, ⟨withTable hhdmOffset s.memory page slot frame, pages⟩) := by
  have allocated := allocPage_outcome fresh s isValid
  constructor
  · intro supplied
    obtain ⟨⟨_, memory, pages⟩, call, ⟨frame, rfl, rfl, taken⟩, rest⟩ := allocated.returns supplied
    exact ⟨_, descend_absent sets absent call, ⟨frame, pages, taken, rfl⟩, rest⟩
  · exact fun short => descend_fails setEntry absent (allocated.fails short)

def missing (hhdmOffset : U64) (memory : Memory) : Frame → List Slot → Nat
  | _, [] => 0
  | page, slot :: rest =>
      if present (wordAt hhdmOffset memory page slot) then
        missing hhdmOffset memory (entryFrame (wordAt hhdmOffset memory page slot)) rest
      else rest.length + 1

theorem missing_present {memory : Memory}
    (isPresent : present (wordAt hhdmOffset memory page slot) = true) (rest : List Slot) :
    missing hhdmOffset memory page (slot :: rest) =
      missing hhdmOffset memory (entryFrame (wordAt hhdmOffset memory page slot)) rest := by
  rw [missing, if_pos isPresent]

theorem missing_absent {memory : Memory}
    (absent : present (wordAt hhdmOffset memory page slot) = false) (rest : List Slot) :
    missing hhdmOffset memory page (slot :: rest) = rest.length + 1 := by
  rw [missing, if_neg (by simp [absent])]

theorem missing_head_le (memory : Memory) (page : Frame) (slot : Slot) (rest : List Slot) :
    missing hhdmOffset memory page [slot] ≤ missing hhdmOffset memory page (slot :: rest) := by
  cases isPresent : present (wordAt hhdmOffset memory page slot) with
  | true =>
      rw [missing_present isPresent, missing]
      exact Nat.zero_le _
  | false =>
      rw [missing_absent isPresent, missing_absent isPresent]
      exact Nat.succ_le_succ (Nat.zero_le _)

theorem missing_withTable {memory : Memory} (apart : frame ≠ page) (rest : List Slot) :
    missing hhdmOffset (withTable hhdmOffset memory page slot frame) frame rest = rest.length := by
  cases rest with
  | nil => rfl
  | cons next rest =>
      rw [missing_absent, List.length_cons]
      rw [wordAt_withTable, if_neg (fun same => apart same.1), if_pos rfl]
      rfl

structure Descended (hhdmOffset : U64) (root : Frame) (valid : σ → Prop)
    (available : σ → Frame → Prop) (s : PagingState σ) (path : List Slot) (page : Frame)
    (slot : Slot) (result : Uintptr × PagingState σ) (next : Frame) : Prop where
  pointer : result.1 = next.address + hhdmOffset
  tree : TableTree hhdmOffset root valid available result.2
  grown : Grown hhdmOffset root valid available s result.2
  found : tableAt amd64 (wordAt hhdmOffset result.2.memory) 4 root (path ++ [slot]) = some next
  paths : ∀ other, tableAt amd64 (wordAt hhdmOffset result.2.memory) 4 root other = none ↔
    tableAt amd64 (wordAt hhdmOffset s.memory) 4 root other = none ∧ other ≠ path ++ [slot]
  below : ∀ rest, missing hhdmOffset s.memory page (slot :: rest) =
    missing hhdmOffset s.memory page [slot] + missing hhdmOffset result.2.memory next rest

theorem tableAt_present {memory : Memory}
    (found : tableAt amd64 (wordAt hhdmOffset memory) 4 root path = some page)
    (deep : 4 = path.length + (n + 1)) (upper : n + 1 ≠ 1)
    (isPresent : present (wordAt hhdmOffset memory page slot) = true)
    (small : n + 1 = 4 ∨ large (wordAt hhdmOffset memory page slot) = false) :
    tableAt amd64 (wordAt hhdmOffset memory) 4 root (path ++ [slot]) =
      some (entryFrame (wordAt hhdmOffset memory page slot)) := by
  rw [Library.RadixTable.tableAt_concat found deep]
  rcases small with top | isSmall
  · simp [amd64, isPresent, top]
  · have notLowest : n ≠ 0 := by omega
    simp [amd64, isPresent, isSmall, notLowest]

theorem descend_outcome (fresh : FreshAllocator alloc valid available)
    (tree : TableTree hhdmOffset root valid available s)
    {setEntry : Memory → Uintptr → Uintptr → U64 → Exec Memory} (sets : SetsParent setEntry)
    (path : List Slot) (n : Nat)
    (found : tableAt amd64 (wordAt hhdmOffset s.memory) 4 root path = some page)
    (deep : 4 = path.length + (n + 1)) (upper : n + 1 ≠ 1)
    (small : present (wordAt hhdmOffset s.memory page slot) = true →
      n + 1 = 4 ∨ large (wordAt hhdmOffset s.memory page slot) = false) :
    Outcome alloc s.pages (missing hhdmOffset s.memory page [slot]) (·.2.pages)
      (descend alloc hhdmOffset setEntry (slotPointer hhdmOffset page slot) s) fun result =>
        ∃ next, Descended hhdmOffset root valid available s path page slot result next := by
  cases isPresent : present (wordAt hhdmOffset s.memory page slot) with
  | true =>
      rw [descend_present setEntry isPresent, missing_present isPresent, missing]
      have found' := tableAt_present found deep upper isPresent (small isPresent)
      refine .ok rfl ⟨_, rfl, tree, .refl tree.valid, found', fun other => ?_, fun rest => ?_⟩
      · refine ⟨fun noTable => ⟨noTable, ?_⟩, And.left⟩
        rintro rfl
        rw [found'] at noTable
        cases noTable
      · rw [missing_present isPresent, missing_present isPresent, missing, Nat.zero_add]
  | false =>
      rw [missing_absent isPresent]
      apply (descend_absent_outcome fresh tree.valid sets isPresent).mono
      rintro _ ⟨frame, pages, taken, rfl⟩
      have grows := tree.grows found deep upper isPresent taken.free
      obtain ⟨tree', grown, found'⟩ := tree.withTable found deep upper isPresent taken
      refine ⟨frame, rfl, tree', grown, found', fun other => ?_, fun rest => ?_⟩
      · rw [grows.tableAt_eq tree.sole]
        by_cases isNew : other = path ++ [slot] <;> simp [isNew]
      · have apart : frame ≠ page := by
          rintro rfl
          exact tree.unused path frame found taken.free
        rw [missing_absent isPresent, missing_absent isPresent, missing_withTable apart]
        exact Nat.add_comm ..

theorem Outcome.descended {α : Type} {slot : Slot} {rest : List Slot} {left : α → σ}
    {run : Exec (Uintptr × PagingState σ)} {next : Uintptr × PagingState σ → Exec α}
    {post : α → Prop}
    (first : Outcome alloc s.pages (missing hhdmOffset s.memory page [slot]) (·.2.pages) run
      fun result => ∃ next, Descended hhdmOffset root valid available s path page slot result next)
    (second : ∀ result table,
      Descended hhdmOffset root valid available s path page slot result table →
      Outcome alloc result.2.pages (missing hhdmOffset result.2.memory table rest) left
        (next result) post) :
    Outcome alloc s.pages (missing hhdmOffset s.memory page (slot :: rest)) left (run >>= next)
      post := by
  have fewer : missing hhdmOffset s.memory page [slot] ≤
      missing hhdmOffset s.memory page (slot :: rest) := missing_head_le ..
  obtain ⟨k, count⟩ := Nat.exists_eq_add_of_le fewer
  rw [count]
  apply first.bind
  rintro result ⟨table, descended⟩
  have below := descended.below rest
  have same : missing hhdmOffset result.2.memory table rest = k := by omega
  rw [← same]
  exact second result table descended

theorem foldr_under_level (entries : List U64) (leaf : Leaf) :
    (entries.foldr amd64.under leaf).level = leaf.level := by
  induction entries with
  | nil => rfl
  | cons entry entries ih => exact ih

/-- No 1 GiB or 2 MiB page maps the address. -/
def MappedSmall (hhdmOffset : U64) (memory : Memory) (root : Frame) (virtual : Uintptr) : Prop :=
  ∀ translation, hardwareWalk hhdmOffset memory root virtual = some translation →
    translation.level = 1

theorem MappedSmall.entry_small {memory : Memory} {virtual : Uintptr}
    (mapped : MappedSmall hhdmOffset memory root virtual) (n : Nat) {back : List Slot}
    (shape : slots virtual = path ++ slot :: back)
    (found : tableAt amd64 (wordAt hhdmOffset memory) 4 root path = some page)
    (deep : 4 = path.length + (n + 1)) (upper : n + 1 ≠ 1)
    (isPresent : present (wordAt hhdmOffset memory page slot) = true) :
    n + 1 = 4 ∨ large (wordAt hhdmOffset memory page slot) = false := by
  by_contra neither
  rw [not_or, Bool.not_eq_false] at neither
  obtain ⟨notTop, isLarge⟩ := neither
  have remaining : 4 - path.length = n + 1 := by omega
  have noChild : amd64.child (n + 1) (wordAt hhdmOffset memory page slot) = none := by
    simp only [amd64, isPresent, isLarge, notTop]
    simp
  have isLeaf : amd64.leaf (n + 1) (wordAt hhdmOffset memory page slot) =
      some ⟨n + 1, wordAt hhdmOffset memory page slot, []⟩ := by simp [amd64, isPresent]
  have walk := Library.RadixTable.lookup_append path (slot :: back) 4 root page found
  rw [remaining, lookup, noChild, ← shape] at walk
  simp only [isLeaf, Option.map_some] at walk
  have level := mapped _ (by rw [hardwareWalk, walk, Option.map_some])
  simp only [Leaf.translate, foldr_under_level] at level
  exact upper level

theorem MappedSmall.grown {virtual : Uintptr}
    (mapped : MappedSmall hhdmOffset s.memory root virtual)
    (grown : Grown hhdmOffset root valid available s s') :
    MappedSmall hhdmOffset s'.memory root virtual := by
  intro translation walk
  rw [hardwareWalk, grown.lookup_eq] at walk
  exact mapped translation walk

theorem systemPagingPml4Entry_sets : SetsParent systemPagingPml4Entry := fun _ _ _ => rfl

theorem systemPagingPdptEntry_sets : SetsParent systemPagingPdptEntry := fun _ _ _ => rfl

theorem systemPagingPdEntry_sets : SetsParent systemPagingPdEntry := fun _ _ _ => rfl

theorem assertAligned_ok (name : String) {address : U64}
    (aligned : address.toNat % systemPageSize = 0) :
    systemPagingAssertAddressAligned name address = .ok () := by
  have mask : (BitVec.ofNat 64 systemPageSize - 1#64).toNat = 2 ^ 12 - 1 := rfl
  have clear : address &&& (BitVec.ofNat 64 systemPageSize - 1#64) = 0#64 := by
    apply BitVec.eq_of_toNat_eq
    rw [BitVec.toNat_and, mask, Nat.and_two_pow_sub_one_eq_mod]
    exact aligned
  rw [systemPagingAssertAddressAligned, clear]
  rfl

def upperSlots (virtual : Uintptr) : List Slot :=
  [virtual.extractLsb' 39 9, virtual.extractLsb' 30 9, virtual.extractLsb' 21 9]

theorem slots_eq (virtual : Uintptr) :
    slots virtual = upperSlots virtual ++ [virtual.extractLsb' 12 9] := rfl

/-- The paths of the tables that the walk of an address passes below the PML4. -/
def tablePaths (virtual : Uintptr) : List (List Slot) := (upperSlots virtual).inits.tail

structure EntryFound (hhdmOffset : U64) (root : Frame) (valid : σ → Prop)
    (available : σ → Frame → Prop) (s : PagingState σ) (virtual : Uintptr)
    (result : Uintptr × PagingState σ) (pt : Frame) : Prop where
  pointer : result.1 = slotPointer hhdmOffset pt (virtual.extractLsb' 12 9)
  tree : TableTree hhdmOffset root valid available result.2
  grown : Grown hhdmOffset root valid available s result.2
  found : tableAt amd64 (wordAt hhdmOffset result.2.memory) 4 root (upperSlots virtual) = some pt
  paths : ∀ path, tableAt amd64 (wordAt hhdmOffset result.2.memory) 4 root path = none ↔
    tableAt amd64 (wordAt hhdmOffset s.memory) 4 root path = none ∧ path ∉ tablePaths virtual

theorem systemPagingEntry_outcome (fresh : FreshAllocator alloc valid available)
    (tree : TableTree hhdmOffset root valid available s)
    (notNull : root.address + hhdmOffset ≠ 0#64) {virtual : Uintptr}
    (aligned : virtual.toNat % systemPageSize = 0)
    (mapped : MappedSmall hhdmOffset s.memory root virtual) :
    Outcome alloc s.pages (missing hhdmOffset s.memory root (upperSlots virtual)) (·.2.pages)
      (systemPagingEntry alloc hhdmOffset (root.address + hhdmOffset) virtual s) fun result =>
        ∃ pt, EntryFound hhdmOffset root valid available s virtual result pt := by
  have checked : decide (root.address + hhdmOffset ≠ 0#64) = true := decide_eq_true notNull
  simp only [systemPagingEntry, assertAligned_ok "virtual" aligned, checked, kassert_true,
    exec_bind_ok, entryPointer_eq]
  apply (descend_outcome fresh tree systemPagingPml4Entry_sets [] 3
    (Library.RadixTable.tableAt_nil ..) rfl (by decide)
    (mapped.entry_small 3 rfl (Library.RadixTable.tableAt_nil ..) rfl (by decide))).descended
  rintro ⟨_, s₁⟩ pdpt ⟨rfl, tree₁, grown₁, found₁, paths₁, _⟩
  have mapped₁ := mapped.grown grown₁
  simp only [entryPointer_eq]
  apply (descend_outcome fresh tree₁ systemPagingPdptEntry_sets _ 2 found₁ rfl (by decide)
    (mapped₁.entry_small 2 rfl found₁ rfl (by decide))).descended
  rintro ⟨_, s₂⟩ pd ⟨rfl, tree₂, grown₂, found₂, paths₂, _⟩
  have mapped₂ := mapped₁.grown grown₂
  simp only [entryPointer_eq]
  apply (descend_outcome fresh tree₂ systemPagingPdEntry_sets _ 1 found₂ rfl (by decide)
    (mapped₂.entry_small 1 rfl found₂ rfl (by decide))).descended
  rintro ⟨_, s₃⟩ pt ⟨rfl, tree₃, grown₃, found₃, paths₃, _⟩
  simp only [entryPointer_eq]
  refine .ok rfl ⟨pt, rfl, tree₃, (grown₁.trans grown₂).trans grown₃, found₃, fun path => ?_⟩
  rw [paths₃, paths₂, paths₁]
  simp [tablePaths, upperSlots, and_assoc]

end Drastic
