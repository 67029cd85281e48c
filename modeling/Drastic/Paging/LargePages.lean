import Drastic.Paging.MapRuns

namespace Drastic

open Library.RadixTable (Format tableAt)
open Library.WordMemory (writeWord)

variable {σ : Type} {hhdmOffset : U64} {root : Frame} {alloc : PhysicalAlloc σ}
  {valid : σ → Prop} {available : σ → Frame → Prop} {s s' : PagingState σ}

/-! `system_paging_entry` does not look at PS: below a 1 GiB or 2 MiB page it takes the
memory of that page for a table. -/

def WithinTables (hhdmOffset : U64) (root : Frame) (available : σ → Frame → Prop)
    (s s' : PagingState σ) (address : Uintptr) : Prop :=
  ∃ table, ((∃ path, tableAt amd64 (wordAt hhdmOffset s.memory) 4 root path = some table) ∨
    Taken available s s' table) ∧ InPage (table.address + hhdmOffset) address

/-- An operation on a page wrote into tables only, and other pages kept their
translation. -/
structure Isolated (hhdmOffset : U64) (root : Frame) (available : σ → Frame → Prop)
    (s : PagingState σ) (virtual : Uintptr) (s' : PagingState σ) : Prop where
  within : ∀ address, s'.memory address ≠ s.memory address →
    WithinTables hhdmOffset root available s s' address
  others : ∀ other, Canonical other →
    other.toNat / systemPageSize ≠ virtual.toNat / systemPageSize →
    hardwareWalk hhdmOffset s'.memory root other = hardwareWalk hhdmOffset s.memory root other

theorem LeafWritten.isolated {virtual : Uintptr} {value : U64}
    (written : LeafWritten hhdmOffset root valid available s virtual value s')
    (canonical : Canonical virtual) : Isolated hhdmOffset root available s virtual s' where
  within := written.outside
  others _ otherCanonical different := written.walk_other canonical otherCanonical different

/-! The converse, as far as the memory of a large page has nothing to do with the tables. -/

/-- The tables as `system_paging_entry` reads them: PS is not looked at. -/
def withoutPs : Format Frame U64 Leaf where
  child level entry := if present entry ∧ level ≠ 1 then some (entryFrame entry) else none
  leaf := amd64.leaf
  under := amd64.under

/-- What the operation takes for tables below a large page are neither tables of the tree
nor pages to be allocated, and the entry it writes there is not the word found there. -/
structure Unrelated (hhdmOffset : U64) (root : Frame) (available : σ → Frame → Prop)
    (s : PagingState σ) (op : TableOp) : Prop where
  apart : ∀ front back table, slots op.virtual = front ++ back →
    tableAt withoutPs (wordAt hhdmOffset s.memory) 4 root front = some table →
    tableAt amd64 (wordAt hhdmOffset s.memory) 4 root front = none →
    (∀ path, tableAt amd64 (wordAt hhdmOffset s.memory) 4 root path ≠ some table) ∧
      ¬ available s.pages table
  different : ∀ pt, tableAt withoutPs (wordAt hhdmOffset s.memory) 4 root
      (upperSlots op.virtual) = some pt →
    wordAt hhdmOffset s.memory pt (op.virtual.extractLsb' 12 9) ≠ op.value

theorem not_isolated_of_word {virtual : Uintptr} {frame : Frame} (slot : Slot)
    (noTable : ∀ path, tableAt amd64 (wordAt hhdmOffset s.memory) 4 root path ≠ some frame)
    (notFree : ¬ available s.pages frame)
    (changed : wordAt hhdmOffset s'.memory frame slot ≠ wordAt hhdmOffset s.memory frame slot) :
    ¬ Isolated hhdmOffset root available s virtual s' := by
  intro isolated
  obtain ⟨address, inFrame, differs⟩ := exists_changed changed
  obtain ⟨table, origin, inside⟩ := isolated.within address differs
  obtain rfl := inPage_unique inFrame inside
  rcases origin with ⟨path, found⟩ | ⟨free, _⟩
  · exact noTable path found
  · exact notFree free

theorem amd64_child_some {level : Nat} {entry : U64} {next : Frame}
    (isChild : amd64.child level entry = some next) :
    present entry = true ∧ next = entryFrame entry := by
  simp only [amd64] at isChild
  split at isChild
  case isTrue holds => exact ⟨holds.1, (Option.some.inj isChild).symm⟩
  case isFalse => cases isChild

theorem large_page_located {virtual : Uintptr}
    (mapped : ¬ MappedSmall hhdmOffset s.memory root virtual) :
    ∃ front slot back page, slots virtual = front ++ slot :: back ∧
      tableAt amd64 (wordAt hhdmOffset s.memory) 4 root front = some page ∧
      (front.length = 1 ∨ front.length = 2) ∧
      present (wordAt hhdmOffset s.memory page slot) = true ∧
      amd64.child (4 - front.length) (wordAt hhdmOffset s.memory page slot) = none := by
  simp only [MappedSmall, not_forall] at mapped
  obtain ⟨translation, walk, level⟩ := mapped
  obtain ⟨leaf, found, rfl⟩ := Option.map_eq_some_iff.mp walk
  obtain ⟨front, slot, back, page, n, last, shape, reached, deep, noChild, isLeaf, rfl⟩ :=
    Library.RadixTable.lookup_ends found
  have isPresent : present (wordAt hhdmOffset s.memory page slot) = true := by
    simp only [amd64] at isLeaf
    split at isLeaf
    case isTrue holds => exact holds
    case isFalse => cases isLeaf
  have depth : last.level = n + 1 := by
    simp only [amd64, isPresent, if_true, Option.some.injEq] at isLeaf
    rw [← isLeaf]
  have notLowest : n + 1 ≠ 1 := by
    simpa [Leaf.translate, foldr_under_level, depth] using level
  have notTop : n + 1 ≠ 4 := by
    rintro top
    simp [amd64, isPresent, top] at noChild
  have remaining : 4 - front.length = n + 1 := by omega
  exact ⟨front, slot, back, page, shape, reached, by omega, isPresent, remaining ▸ noChild⟩

theorem withoutPs_child {level : Nat} {entry : U64} (isPresent : present entry = true)
    (upper : level ≠ 1) : withoutPs.child level entry = some (entryFrame entry) := by
  simp [withoutPs, isPresent, upper]

theorem amd64_child_withoutPs (level : Nat) (entry : U64) (next : Frame)
    (isChild : amd64.child level entry = some next) :
    withoutPs.child level entry = some next := by
  simp only [amd64, withoutPs] at isChild ⊢
  split at isChild
  case isTrue holds => rwa [if_pos ⟨holds.1, holds.2.1⟩]
  case isFalse => cases isChild

theorem Unrelated.overwritten {op : TableOp} {pt : Frame}
    (unrelated : Unrelated hhdmOffset root available s op)
    (reached : tableAt withoutPs (wordAt hhdmOffset s.memory) 4 root (upperSlots op.virtual) =
      some pt)
    (noTable : tableAt amd64 (wordAt hhdmOffset s.memory) 4 root (upperSlots op.virtual) = none) :
    ¬ Isolated hhdmOffset root available s op.virtual
      { s with
        memory := writeWord s.memory
          (slotPointer hhdmOffset pt (op.virtual.extractLsb' 12 9)) op.value } := by
  obtain ⟨notTable, notFree⟩ := unrelated.apart _ _ pt (slots_eq op.virtual) reached noTable
  apply not_isolated_of_word (op.virtual.extractLsb' 12 9) notTable notFree
  rw [wordAt_writeWord, if_pos ⟨rfl, rfl⟩]
  exact (unrelated.different pt reached).symm

theorem Unrelated.linked {op : TableOp} {below frame : Frame} {pages : σ}
    (notTable : ∀ path, tableAt amd64 (wordAt hhdmOffset s.memory) 4 root path ≠ some below)
    (notFree : ¬ available s.pages below) (free : available s.pages frame) (slot slot' : Slot)
    (absent : present (wordAt hhdmOffset s.memory below slot) = false) :
    ¬ Isolated hhdmOffset root available s op.virtual
      ⟨writeWord (withTable hhdmOffset s.memory below slot frame)
        (slotPointer hhdmOffset frame slot') op.value, pages⟩ := by
  have apart : below ≠ frame := by
    rintro rfl
    exact notFree free
  apply not_isolated_of_word slot notTable notFree
  rw [wordAt_writeWord, if_neg (fun same => apart same.1), wordAt_withTable, if_pos ⟨rfl, rfl⟩]
  intro same
  have isPresent : present (parentEntry frame) = present parentFlags :=
    present_entry frame parentFlags
  rw [same, absent] at isPresent
  exact absurd isPresent (by decide)

theorem Unrelated.below_gibibyte {op : TableOp} {below : Frame}
    (fresh : FreshAllocator alloc valid available) (isValid : valid s.pages)
    (unrelated : Unrelated hhdmOffset root available s op)
    (taken : tableAt withoutPs (wordAt hhdmOffset s.memory) 4 root
      [op.virtual.extractLsb' 39 9, op.virtual.extractLsb' 30 9] = some below)
    (noTable : tableAt amd64 (wordAt hhdmOffset s.memory) 4 root
      [op.virtual.extractLsb' 39 9, op.virtual.extractLsb' 30 9] = none) :
    Outcome alloc s.pages (missing hhdmOffset s.memory below [op.virtual.extractLsb' 21 9])
      (·.2.pages)
      (do
        let (pt, s) ← descend alloc hhdmOffset systemPagingPdEntry
          (slotPointer hhdmOffset below (op.virtual.extractLsb' 21 9)) s
        return (entryPointer pt op.virtual 12, s))
      fun result => ¬ Isolated hhdmOffset root available s op.virtual
        { result.2 with memory := writeWord result.2.memory result.1 op.value } := by
  have shape : upperSlots op.virtual = [op.virtual.extractLsb' 39 9, op.virtual.extractLsb' 30 9] ++
    [op.virtual.extractLsb' 21 9] := rfl
  cases isPresent : present (wordAt hhdmOffset s.memory below (op.virtual.extractLsb' 21 9)) with
  | true =>
      rw [descend_present _ isPresent, exec_bind_ok, missing_present isPresent, missing]
      simp only [entryPointer_eq]
      refine .ok (by rfl) (unrelated.overwritten ?_ ?_)
      · rw [shape, Library.RadixTable.tableAt_concat taken (show 4 = 2 + (1 + 1) from rfl)]
        exact withoutPs_child isPresent (by decide)
      · rw [shape, Library.RadixTable.tableAt_append, noTable]
        rfl
  | false =>
      obtain ⟨notTable, notFree⟩ := unrelated.apart _ _ below rfl taken noTable
      rw [missing_absent isPresent]
      apply (descend_absent_outcome fresh isValid systemPagingPdEntry_sets isPresent).bind_done
      rintro _ ⟨frame, pages, page, rfl⟩
      simp only [entryPointer_eq]
      exact .ok (by rfl) (Unrelated.linked notTable notFree page.free _ _ isPresent)

/-- Below a large page the operation writes to words that are not its own. -/
theorem large_page_overwritten (fresh : FreshAllocator alloc valid available)
    (tree : TableTree hhdmOffset root valid available s)
    (notNull : root.address + hhdmOffset ≠ 0#64) (op : TableOp) (isValid : op.Valid)
    (mapped : ¬ MappedSmall hhdmOffset s.memory root op.virtual)
    (unrelated : Unrelated hhdmOffset root available s op) :
    Outcome alloc s.pages (missing hhdmOffset s.memory root (upperSlots op.virtual)) (·.pages)
      (op.run alloc hhdmOffset (root.address + hhdmOffset) s)
      fun s' => ¬ Isolated hhdmOffset root available s op.virtual s' := by
  have checked : decide (root.address + hhdmOffset ≠ 0#64) = true := decide_eq_true notNull
  obtain ⟨front, slot, back, page, shape, reached, length, isPresent, noChild⟩ :=
    large_page_located mapped
  apply TableOp.run_outcome isValid
  simp only [systemPagingEntry, assertAligned_ok "virtual" isValid.page.1, checked, kassert_true,
    exec_bind_ok, entryPointer_eq, upperSlots]
  have deep : 4 = front.length + (4 - front.length - 1 + 1) := by omega
  have level : 4 - front.length - 1 + 1 = 4 - front.length := by omega
  have noTable := Library.RadixTable.tableAt_concat reached deep slot
  rw [level, noChild] at noTable
  -- the memory of the page is taken for a table
  have taken := Library.RadixTable.tableAt_concat
    (Library.RadixTable.tableAt_mono withoutPs amd64_child_withoutPs reached) deep slot
  rw [level, withoutPs_child isPresent (by omega)] at taken
  rcases length with one | two
  · obtain ⟨first, rfl⟩ := List.length_eq_one_iff.mp one
    simp only [slots, List.singleton_append, List.cons.injEq] at shape
    obtain ⟨rfl, rfl, rfl⟩ := shape
    have top : amd64.child 4 (wordAt hhdmOffset s.memory root (op.virtual.extractLsb' 39 9)) =
        some page := by simpa [tableAt] using reached
    obtain ⟨topPresent, rfl⟩ := amd64_child_some top
    rw [descend_present _ topPresent, exec_bind_ok, missing_present topPresent]
    simp only [entryPointer_eq]
    rw [descend_present _ isPresent, exec_bind_ok, missing_present isPresent]
    simp only [entryPointer_eq]
    exact unrelated.below_gibibyte fresh tree.valid taken noTable
  · obtain ⟨first, second, rfl⟩ := List.length_eq_two.mp two
    simp only [slots, List.cons_append, List.nil_append, List.cons.injEq] at shape
    obtain ⟨rfl, rfl, rfl, rfl⟩ := shape
    rw [tableAt, Option.bind_eq_some_iff] at reached
    obtain ⟨pdpt, top, second⟩ := reached
    have next : amd64.child 3 (wordAt hhdmOffset s.memory pdpt (op.virtual.extractLsb' 30 9)) =
        some page := by simpa [tableAt] using second
    obtain ⟨topPresent, rfl⟩ := amd64_child_some top
    obtain ⟨nextPresent, rfl⟩ := amd64_child_some next
    rw [descend_present _ topPresent, exec_bind_ok, missing_present topPresent]
    simp only [entryPointer_eq]
    rw [descend_present _ nextPresent, exec_bind_ok, missing_present nextPresent]
    simp only [entryPointer_eq]
    rw [descend_present _ isPresent, exec_bind_ok, missing_present isPresent, missing]
    simp only [entryPointer_eq]
    exact .ok (by rfl) (unrelated.overwritten taken noTable)

/-- A PML4 at 0x1000 and a PDPT at 0x2000 whose first entry is the 1 GiB page at 1 TiB. -/
def gibibytePage : Memory :=
  writeWord (writeWord (fun _ => 0#8) 0x1000#64 0x2003#64) 0x2000#64 0x10000000083#64

theorem gibibytePage_wordAt (frame : Frame) (slot : Slot) :
    wordAt 0#64 gibibytePage frame slot =
      if frame = 1#36 ∧ slot = 0#9 then 0x2003#64
      else if frame = 2#36 ∧ slot = 0#9 then 0x10000000083#64 else 0#64 := by
  have first : slotPointer 0#64 1#36 0#9 = 0x1000#64 := by decide
  have second : slotPointer 0#64 2#36 0#9 = 0x2000#64 := by decide
  rw [gibibytePage, ← first, ← second, wordAt_writeWord, wordAt_writeWord, wordAt_blank]
  by_cases top : frame = 1#36
  · simp [top]
  · simp [top]

theorem gibibytePage_tableAt {path : List Slot} {table : Frame}
    (found : tableAt amd64 (wordAt 0#64 gibibytePage) 4 1#36 path = some table) :
    (path = [] ∧ table = 1#36) ∨ (path = [0#9] ∧ table = 2#36) := by
  have pdpt (slot : Slot) : amd64.child 3 (wordAt 0#64 gibibytePage 2#36 slot) = none := by
    rw [gibibytePage_wordAt, if_neg (fun both => absurd both.1 (by decide))]
    split <;> decide
  have pml4 (slot : Slot) : amd64.child 4 (wordAt 0#64 gibibytePage 1#36 slot) =
      if slot = 0#9 then some 2#36 else none := by
    rw [gibibytePage_wordAt]
    by_cases first : slot = 0#9
    · rw [if_pos ⟨rfl, first⟩, if_pos first]
      decide
    · rw [if_neg (fun both => first both.2), if_neg (fun both => first both.2), if_neg first]
      decide
  cases path with
  | nil => exact Or.inl ⟨rfl, (Option.some.inj found).symm⟩
  | cons slot rest =>
      rw [tableAt, pml4] at found
      split at found
      case isFalse => cases found
      case isTrue first =>
        rw [Option.bind_some] at found
        cases rest with
        | nil => exact Or.inr ⟨by rw [first], (Option.some.inj found).symm⟩
        | cons slot' rest =>
            rw [tableAt, pdpt] at found
            cases found

theorem gibibytePage_tree : TableTree 0#64 1#36 (fun _ => True)
    (fun next frame => next ≤ frame.toNat ∧ frame.toNat < 2 ^ 20)
    (⟨gibibytePage, 3⟩ : PagingState Nat) := by
  refine ⟨trivial, ?_, ?_⟩
  · intro path other table found found'
    rcases gibibytePage_tableAt found with ⟨rfl, rfl⟩ | ⟨rfl, rfl⟩ <;>
      rcases gibibytePage_tableAt found' with ⟨rfl, same⟩ | ⟨rfl, same⟩
    · rfl
    · exact absurd same (by decide)
    · exact absurd same (by decide)
    · rfl
  · intro path table found
    rcases gibibytePage_tableAt found with ⟨_, rfl⟩ | ⟨_, rfl⟩ <;> decide

theorem gibibytePage_unrelated : Unrelated 0#64 1#36
    (fun next frame => next ≤ frame.toNat ∧ frame.toNat < 2 ^ 20)
    (⟨gibibytePage, 3⟩ : PagingState Nat) (.map 0x5000#64 0#64 1#64) := by
  have beyond : tableAt withoutPs (wordAt 0#64 gibibytePage) 4 1#36 [0#9, 0#9] =
      some 0x10000000#36 := by decide
  have nothing : tableAt withoutPs (wordAt 0#64 gibibytePage) 4 1#36 [0#9, 0#9, 0#9] = none := by
    decide
  constructor
  · intro front back table shape taken noTable
    have zeros : slots (TableOp.virtual (.map 0x5000#64 0#64 1#64)) = [0#9, 0#9, 0#9, 0#9] := by
      decide
    rw [zeros] at shape
    rcases front with _ | ⟨first, _ | ⟨second, _ | ⟨third, rest⟩⟩⟩
    · simp at noTable
    · simp only [List.cons_append, List.cons.injEq] at shape
      rw [← shape.1] at noTable
      exact absurd noTable (by decide)
    · simp only [List.cons_append, List.cons.injEq] at shape
      rw [← shape.1, ← shape.2.1, beyond, Option.some.injEq] at taken
      subst taken
      refine ⟨fun path found => ?_, by decide⟩
      rcases gibibytePage_tableAt found with ⟨_, same⟩ | ⟨_, same⟩ <;>
        exact absurd same (by decide)
    · simp only [List.cons_append, List.cons.injEq] at shape
      rw [← shape.1, ← shape.2.1, ← shape.2.2.1] at taken
      have further : tableAt withoutPs (wordAt 0#64 gibibytePage) 4 1#36
          ([0#9, 0#9, 0#9] ++ rest) = none := by
        rw [Library.RadixTable.tableAt_append, nothing, Option.bind_none]
      rw [show 0#9 :: 0#9 :: 0#9 :: rest = [0#9, 0#9, 0#9] ++ rest from rfl, further] at taken
      cases taken
  · intro pt reached
    have zeros : upperSlots (TableOp.virtual (.map 0x5000#64 0#64 1#64)) = [0#9, 0#9, 0#9] := by
      decide
    rw [zeros, nothing] at reached
    cases reached

/-- Where two entries share a table, mapping a page below one of them maps another page below
the other. -/
theorem shared_table_maps_twice : ∃ (memory : Memory) (s' : PagingState Nat),
    MappedSmall 0#64 memory 1#36 0#64 ∧
    TableOp.run consecutivePages 0#64 (Frame.address 1#36 + 0#64) ⟨memory, 3⟩
      (.map 0x5000#64 0#64 1#64) = .ok s' ∧
    hardwareWalk 0#64 memory 1#36 0x8000000000#64 = none ∧
    hardwareWalk 0#64 s'.memory 1#36 0x8000000000#64 =
      some ⟨0x5000#64, 1, 0x8000000000000003#64, [3#64, 3#64, 3#64]⟩ := by
  refine ⟨writeWord (writeWord (fun _ => 0#8) 0x1000#64 0x2003#64) 0x1008#64 0x2003#64, _,
    ?_, rfl, by decide, by decide⟩
  have unmapped : hardwareWalk 0#64
      (writeWord (writeWord (fun _ => 0#8) 0x1000#64 0x2003#64) 0x1008#64 0x2003#64) 1#36 0#64 = none := by
    decide
  intro translation walk
  rw [unmapped] at walk
  cases walk

end Drastic
