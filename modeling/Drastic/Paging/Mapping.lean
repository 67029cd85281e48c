import Drastic.Paging.Growth

namespace Drastic

open Library.RadixTable (lookup tableAt entriesAlong SetsLeaf)
open Library.WordMemory (writeWord)

variable {σ : Type} {hhdmOffset : U64} {root : Frame} {alloc : PhysicalAlloc σ}
  {valid : σ → Prop} {available : σ → Frame → Prop} {s s' : PagingState σ}

def Canonical (virtual : Uintptr) : Prop :=
  virtual.toNat < 2 ^ 47 ∨ 2 ^ 64 - 2 ^ 47 ≤ virtual.toNat

/-- Canonical addresses that select the same positions are in the same page. -/
theorem slots_inj {virtual other : Uintptr} (canonical : Canonical virtual)
    (otherCanonical : Canonical other) (same : slots virtual = slots other) :
    virtual.toNat / systemPageSize = other.toNat / systemPageSize := by
  simp only [slots, List.cons.injEq, and_true] at same
  obtain ⟨first, second, third, fourth⟩ := same
  have position (shift : Nat)
      (equal : virtual.extractLsb' shift 9 = other.extractLsb' shift 9) :
      virtual.toNat / 2 ^ shift % 512 = other.toNat / 2 ^ shift % 512 := by
    have numbers := congrArg BitVec.toNat equal
    rwa [BitVec.extractLsb'_toNat, BitVec.extractLsb'_toNat, Nat.shiftRight_eq_div_pow,
      Nat.shiftRight_eq_div_pow] at numbers
  have at39 := position 39 first
  have at30 := position 30 second
  have at21 := position 21 third
  have at12 := position 12 fourth
  have bound := virtual.isLt
  have otherBound := other.isLt
  rw [Canonical] at canonical otherCanonical
  rw [systemPageSize]
  omega

inductive TableOp where
  | map (physical virtual : Uintptr) (flags : U64)
  | unmap (virtual : Uintptr)
  deriving DecidableEq, Repr

namespace TableOp

def virtual : TableOp → Uintptr
  | .map _ virtual _ => virtual
  | .unmap virtual => virtual

def run (alloc : PhysicalAlloc σ) (hhdmOffset : U64) (table : Uintptr) (s : PagingState σ) :
    TableOp → Exec (PagingState σ)
  | .map physical virtual flags => systemPagingMap alloc hhdmOffset table physical virtual flags s
  | .unmap virtual => systemPagingUnmap alloc hhdmOffset table virtual s

def value : TableOp → U64
  | .map physical _ flags => (physical &&& systemPagingAmd64FlagAddress) |||
      (systemPagingAmd64FlagConvert flags ||| systemPagingAmd64FlagP)
  | .unmap _ => 0#64

/-- Page-aligned addresses, the virtual one canonical and the physical one below 2^48. -/
def Valid : TableOp → Prop
  | .map physical virtual _ => virtual.toNat % systemPageSize = 0 ∧ Canonical virtual ∧
      physical.toNat % systemPageSize = 0 ∧ physical.toNat < 2 ^ 48
  | .unmap virtual => virtual.toNat % systemPageSize = 0 ∧ Canonical virtual

theorem Valid.page {op : TableOp} (isValid : op.Valid) :
    op.virtual.toNat % systemPageSize = 0 ∧ Canonical op.virtual := by
  cases op with
  | map => exact ⟨isValid.1, isValid.2.1⟩
  | unmap => exact isValid

end TableOp

theorem TableOp.run_outcome {op : TableOp} (isValid : op.Valid) {table : Uintptr} {n : Nat}
    {post : PagingState σ → Prop}
    (entry : Outcome alloc s.pages n (·.2.pages)
      (systemPagingEntry alloc hhdmOffset table op.virtual s) fun result =>
        post { result.2 with memory := writeWord result.2.memory result.1 op.value }) :
    Outcome alloc s.pages n (·.pages) (op.run alloc hhdmOffset table s) post := by
  cases op with
  | map physical virtual flags =>
      obtain ⟨aligned, _, physicalAligned, _⟩ := isValid
      simp only [TableOp.run, systemPagingMap, assertAligned_ok "virtual" aligned,
        assertAligned_ok "physical" physicalAligned, exec_bind_ok]
      exact entry.bind_done fun result holds => .ok (by rfl) holds
  | unmap virtual =>
      obtain ⟨aligned, _⟩ := isValid
      simp only [TableOp.run, systemPagingUnmap, assertAligned_ok "virtual" aligned, exec_bind_ok]
      exact entry.bind_done fun result holds => .ok (by rfl) holds

structure LeafWritten (hhdmOffset : U64) (root : Frame) (valid : σ → Prop)
    (available : σ → Frame → Prop) (s : PagingState σ) (virtual : Uintptr) (value : U64)
    (s' : PagingState σ) : Prop where
  tree : TableTree hhdmOffset root valid available s'
  allocated : Allocated valid available s.pages s'.pages
  others : ∀ path, path.length = 4 → path ≠ slots virtual →
    lookup amd64 (wordAt hhdmOffset s'.memory) 4 root path =
      lookup amd64 (wordAt hhdmOffset s.memory) 4 root path
  here : lookup amd64 (wordAt hhdmOffset s'.memory) 4 root (slots virtual) =
    (amd64.leaf 1 value).map fun leaf =>
      (entriesAlong amd64 (wordAt hhdmOffset s'.memory) 4 root (upperSlots virtual)).foldr
        amd64.under leaf
  found : ∃ pt, tableAt amd64 (wordAt hhdmOffset s'.memory) 4 root (upperSlots virtual) = some pt
  tables : ∀ path table, tableAt amd64 (wordAt hhdmOffset s'.memory) 4 root path = some table →
    tableAt amd64 (wordAt hhdmOffset s.memory) 4 root path = some table ∨
      Taken available s s' table
  kept : ∀ path table, tableAt amd64 (wordAt hhdmOffset s.memory) 4 root path = some table →
    tableAt amd64 (wordAt hhdmOffset s'.memory) 4 root path = some table
  linked : ∀ frame, Taken available s s' frame →
    ∃ path, tableAt amd64 (wordAt hhdmOffset s'.memory) 4 root path = some frame
  paths : ∀ path, tableAt amd64 (wordAt hhdmOffset s'.memory) 4 root path = none ↔
    tableAt amd64 (wordAt hhdmOffset s.memory) 4 root path = none ∧ path ∉ tablePaths virtual
  entries : ∀ path table slot, path.length < 3 →
    tableAt amd64 (wordAt hhdmOffset s'.memory) 4 root path = some table →
    (tableAt amd64 (wordAt hhdmOffset s.memory) 4 root path = some table ∧
      wordAt hhdmOffset s'.memory table slot = wordAt hhdmOffset s.memory table slot) ∨
    wordAt hhdmOffset s'.memory table slot = 0#64 ∨
    ∃ frame, wordAt hhdmOffset s'.memory table slot = parentEntry frame
  outside : ∀ address, s'.memory address ≠ s.memory address → ∃ table,
    ((∃ path, tableAt amd64 (wordAt hhdmOffset s.memory) 4 root path = some table) ∨
      Taken available s s' table) ∧ InPage (table.address + hhdmOffset) address

theorem EntryFound.written {virtual : Uintptr} {result : Uintptr × PagingState σ} {pt : Frame}
    (found : EntryFound hhdmOffset root valid available s virtual result pt) (value : U64) :
    LeafWritten hhdmOffset root valid available s virtual value
      { result.2 with memory := writeWord result.2.memory result.1 value } := by
  obtain ⟨pointer, s₁⟩ := result
  obtain ⟨rfl, tree, grown, atUpper, paths⟩ := found
  have sets : SetsLeaf amd64 (wordAt hhdmOffset s₁.memory)
      (wordAt hhdmOffset (writeWord s₁.memory
        (slotPointer hhdmOffset pt (virtual.extractLsb' 12 9)) value)) 4 root pt
      (upperSlots virtual) (virtual.extractLsb' 12 9) := by
    refine ⟨atUpper, rfl, amd64_child_one, ?_⟩
    intro table slot elsewhere
    rw [wordAt_writeWord, if_neg (by tauto)]
  have tables := sets.tableAt_eq tree.sole
  refine ⟨⟨tree.valid, sets.sole tree.sole, ?_⟩, grown.allocated, ?_, ?_, ⟨pt, ?_⟩, ?_, ?_, ?_, ?_,
    ?_, ?_⟩
  · intro path table reached
    rw [tables] at reached
    exact tree.unused path table reached
  · intro path full different
    refine ((sets.walk_beside tree.sole ?_).2).trans (grown.lookup_eq path)
    rintro back rfl
    have length : back = [] := by simpa [upperSlots] using full
    exact different (by rw [slots_eq, length])
  · rw [slots_eq, sets.lookup_self tree.sole, wordAt_writeWord, if_pos ⟨rfl, rfl⟩]
  · rw [tables]
    exact atUpper
  · simp only [tables]
    exact grown.tables
  · simp only [tables]
    exact grown.kept
  · simp only [tables]
    exact grown.linked
  · simp only [tables]
    exact paths
  · intro path table slot short reached
    rw [tables] at reached
    have apart : table ≠ pt := by
      rintro rfl
      have same := tree.sole path (upperSlots virtual) table reached atUpper
      rw [same] at short
      exact absurd short (by simp [upperSlots])
    have kept := sets.kept table slot (Or.inl apart)
    rw [kept]
    exact grown.entries path table slot reached
  · intro address changed
    by_cases kept : writeWord s₁.memory (slotPointer hhdmOffset pt (virtual.extractLsb' 12 9)) value
        address = s₁.memory address
    · exact grown.outside address fun same => changed (kept.trans same)
    · refine ⟨pt, ?_, writeWord_inPage kept⟩
      exact (grown.tables _ pt atUpper).imp_left fun older => ⟨_, older⟩

theorem TableOp.run_written (fresh : FreshAllocator alloc valid available)
    (tree : TableTree hhdmOffset root valid available s)
    (notNull : root.address + hhdmOffset ≠ 0#64) {op : TableOp} (isValid : op.Valid)
    (mapped : MappedSmall hhdmOffset s.memory root op.virtual) :
    Outcome alloc s.pages (missing hhdmOffset s.memory root (upperSlots op.virtual)) (·.pages)
      (op.run alloc hhdmOffset (root.address + hhdmOffset) s)
      (LeafWritten hhdmOffset root valid available s op.virtual op.value) := by
  apply TableOp.run_outcome isValid
  apply (systemPagingEntry_outcome fresh tree notNull isValid.page.1 mapped).mono
  rintro result ⟨pt, found⟩
  exact found.written op.value

end Drastic
