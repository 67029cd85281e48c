import Drastic.Paging.PageSupply

namespace Drastic

open Library.RadixTable (tableAt lookup walk_congr)

variable {σ : Type} {hhdmOffset : U64} {root : Frame} {alloc : PhysicalAlloc σ}
  {free : PhysicalFree σ} {valid : σ → Prop} {available : σ → Frame → Prop}
  {supplied : Frame → Prop}

/-! Memory while the kernel runs: pages go out and come back, their holders write to them, and
one page table is changed. -/

/-- `held` are the pages that were handed out by `system_paging_physical_alloc` to others than
the tables and not freed yet. The headers, bitmaps and stacks of the allocators are in
`paging.pages` and not in the memory: no request writes to the pages they lie on. -/
structure KernelMemory (σ : Type) where
  paging : PagingState σ
  held : List Frame

/-- `store` is what the holder of a page does to a byte of it through the direct map. -/
inductive MemoryRequest where
  | alloc (kind : SystemPhysicalPageKind)
  | free (frame : Frame)
  | store (frame : Frame) (offset : BitVec 12) (byte : U8)
  | table (op : TableOp)
  deriving DecidableEq, Repr

def MemoryRequest.op? : MemoryRequest → Option TableOp
  | .table op => some op
  | _ => none

namespace KernelMemory

def step (alloc : PhysicalAlloc σ) (free : PhysicalFree σ) (hhdmOffset : U64) (table : Uintptr)
    (m : KernelMemory σ) : MemoryRequest → Exec (KernelMemory σ)
  | .alloc kind => do
      let (result, pages) ← alloc kind m.paging.pages
      return ⟨{ m.paging with pages := pages }, (result.map entryFrame).toList ++ m.held⟩
  | .free frame => do
      let pages ← free frame.address m.paging.pages
      return ⟨{ m.paging with pages := pages }, m.held.erase frame⟩
  | .store frame offset byte =>
      let address := frame.address + hhdmOffset + offset.setWidth 64
      let memory := Function.update m.paging.memory address byte
      .ok ⟨{ m.paging with memory := memory }, m.held⟩
  | .table op => do
      let paging ← op.run alloc hhdmOffset table m.paging
      return ⟨paging, m.held⟩

/-- Pages that are held may be freed and written to; addresses below a large page are not
mapped or unmapped. -/
def Allowed (hhdmOffset : U64) (root : Frame) (m : KernelMemory σ) : MemoryRequest → Prop
  | .alloc _ => True
  | .free frame => frame ∈ m.held
  | .store frame _ _ => frame ∈ m.held
  | .table op => op.Valid ∧ MappedSmall hhdmOffset m.paging.memory root op.virtual

end KernelMemory

inductive MemoryRun (alloc : PhysicalAlloc σ) (free : PhysicalFree σ) (hhdmOffset : U64)
    (root : Frame) (start : KernelMemory σ) : List MemoryRequest → KernelMemory σ → Prop where
  | start : MemoryRun alloc free hhdmOffset root start [] start
  | step {done : List MemoryRequest} {m next : KernelMemory σ} (request : MemoryRequest)
      (run : MemoryRun alloc free hhdmOffset root start done m)
      (allowed : m.Allowed hhdmOffset root request)
      (call : m.step alloc free hhdmOffset (root.address + hhdmOffset) request = .ok next) :
      MemoryRun alloc free hhdmOffset root start (done ++ [request]) next

def virtualPage (virtual : Uintptr) : Uintptr := virtual &&& ~~~offsetMask 1

theorem virtualPage_toNat (virtual : Uintptr) :
    (virtualPage virtual).toNat = virtual.toNat / systemPageSize * systemPageSize := by
  have shifted : virtualPage virtual = (virtual >>> 12) <<< 12 := by
    have mask : ∀ i < 64, (~~~offsetMask 1).getLsbD i = decide (12 ≤ i) := by decide
    apply BitVec.eq_of_getLsbD_eq
    intro i inside
    rw [virtualPage, BitVec.getLsbD_and, mask i inside, BitVec.getLsbD_shiftLeft,
      BitVec.getLsbD_ushiftRight]
    by_cases high : 12 ≤ i
    · simp [high, inside]
    · simp [high]
  have bound := virtual.isLt
  rw [shifted, BitVec.toNat_shiftLeft, BitVec.toNat_ushiftRight, Nat.shiftRight_eq_div_pow,
    Nat.shiftLeft_eq, systemPageSize]
  omega

theorem virtualPage_slots (virtual : Uintptr) : slots (virtualPage virtual) = slots virtual := by
  have position (shift : Nat) (high : 12 ≤ shift) (low : shift + 9 ≤ 64) :
      (virtualPage virtual).extractLsb' shift 9 = virtual.extractLsb' shift 9 := by
    have mask : ∀ i < 64, (~~~offsetMask 1).getLsbD i = decide (12 ≤ i) := by decide
    apply BitVec.eq_of_getLsbD_eq
    intro i inside
    rw [BitVec.getLsbD_extractLsb', BitVec.getLsbD_extractLsb', virtualPage, BitVec.getLsbD_and,
      mask (shift + i) (by omega)]
    simp [show 12 ≤ shift + i by omega]
  rw [slots, slots, position 39 (by decide) (by decide), position 30 (by decide) (by decide),
    position 21 (by decide) (by decide), position 12 (by decide) (by decide)]

def TranslatesAs (virtual : Uintptr) (before : Option Translation) (ops : List TableOp)
    (now : Option Translation) : Prop :=
  match lastOn (virtualPage virtual) ops with
  | some (.map physical _ flags) => ∃ upper, now = some {
      physical := physical ||| (virtual &&& offsetMask 1)
      level := 1
      leafBits := systemPagingAmd64FlagConvert flags ||| systemPagingAmd64FlagP
      upper := upper }
  | some (.unmap _) => now = none
  | none => now = before

variable {s s' : PagingState σ} {virtual : Uintptr}

theorem LeafWritten.translates {op : TableOp}
    (written : LeafWritten hhdmOffset root valid available s op.virtual op.value s')
    (isValid : op.Valid) (here : op.virtual = virtualPage virtual) (before : Option Translation)
    (ops : List TableOp) :
    TranslatesAs virtual before (ops ++ [op]) (hardwareWalk hhdmOffset s'.memory root virtual) := by
  have same : slots virtual = slots op.virtual := by rw [here, virtualPage_slots]
  rw [TranslatesAs, lastOn_concat, if_pos here, written.walk_here isValid same]
  cases op with
  | unmap _ => rfl
  | map physical page flags => exact ⟨_, rfl⟩

theorem LeafWritten.translates_other {op : TableOp}
    (written : LeafWritten hhdmOffset root valid available s op.virtual op.value s')
    (isValid : op.Valid) (canonical : Canonical virtual) (other : op.virtual ≠ virtualPage virtual)
    {before : Option Translation} {ops : List TableOp}
    (earlier : TranslatesAs virtual before ops (hardwareWalk hhdmOffset s.memory root virtual)) :
    TranslatesAs virtual before (ops ++ [op]) (hardwareWalk hhdmOffset s'.memory root virtual) := by
  have different : virtual.toNat / systemPageSize ≠ op.virtual.toNat / systemPageSize := by
    intro same
    have aligned := isValid.page.1
    apply other
    apply BitVec.eq_of_toNat_eq
    rw [virtualPage_toNat]
    rw [systemPageSize] at same aligned ⊢
    omega
  rw [written.walk_other isValid.page.2 canonical different]
  rwa [TranslatesAs, lastOn_concat, if_neg other]

/-- Every page the allocators were given is available, held or a table, and only one of them;
writes went to such pages alone, and the table translates as the operations on it say. -/
structure MemoryInv (hhdmOffset : U64) (root : Frame) (valid : σ → Prop)
    (available : σ → Frame → Prop) (supplied : Frame → Prop) (origin : Memory)
    (done : List MemoryRequest) (m : KernelMemory σ) : Prop where
  tree : TableTree hhdmOffset root (ValidHeld valid available m.held)
    (Elsewhere available m.held) m.paging
  distinct : m.held.Nodup
  placed : ∀ frame ∈ m.held, supplied frame
  tables : ∀ path table,
    tableAt amd64 (wordAt hhdmOffset m.paging.memory) 4 root path = some table → supplied table
  accounted : ∀ frame, supplied frame → available m.paging.pages frame ∨ frame ∈ m.held ∨
    ∃ path, tableAt amd64 (wordAt hhdmOffset m.paging.memory) 4 root path = some frame
  writes : ∀ address, m.paging.memory address ≠ origin address →
    ∃ frame, supplied frame ∧ InPage (frame.address + hhdmOffset) address
  walks : ∀ virtual, Canonical virtual →
    TranslatesAs virtual (hardwareWalk hhdmOffset origin root virtual)
      (done.filterMap MemoryRequest.op?) (hardwareWalk hhdmOffset m.paging.memory root virtual)

variable {origin : Memory} {done : List MemoryRequest} {m : KernelMemory σ}

theorem MemoryInv.keep_table
    (inv : MemoryInv hhdmOffset root valid available supplied origin done m)
    {request : MemoryRequest} (noOp : request.op? = none) {next : KernelMemory σ}
    (isValid : ValidHeld valid available next.held next.paging.pages)
    (elsewhere : ∀ frame, Elsewhere available next.held next.paging.pages frame ↔
      Elsewhere available m.held m.paging.pages frame)
    (distinct : next.held.Nodup) (placed : ∀ frame ∈ next.held, supplied frame)
    (kept : ∀ path table slot,
      tableAt amd64 (wordAt hhdmOffset m.paging.memory) 4 root path = some table →
      wordAt hhdmOffset next.paging.memory table slot =
        wordAt hhdmOffset m.paging.memory table slot)
    (writes : ∀ address, next.paging.memory address ≠ m.paging.memory address →
      ∃ frame, supplied frame ∧ InPage (frame.address + hhdmOffset) address) :
    MemoryInv hhdmOffset root valid available supplied origin (done ++ [request]) next := by
  have same (path : List Slot) :
      tableAt amd64 (wordAt hhdmOffset next.paging.memory) 4 root path =
        tableAt amd64 (wordAt hhdmOffset m.paging.memory) 4 root path ∧
      lookup amd64 (wordAt hhdmOffset next.paging.memory) 4 root path =
        lookup amd64 (wordAt hhdmOffset m.paging.memory) 4 root path := by
    apply walk_congr
    intro front index _ table _ reached
    exact kept front table index reached
  refine ⟨⟨isValid, ?_, ?_⟩, distinct, placed, ?_, ?_, ?_, ?_⟩
  · intro path other table found found'
    rw [(same path).1] at found
    rw [(same other).1] at found'
    exact inv.tree.sole path other table found found'
  · intro path table found
    rw [(same path).1] at found
    rw [elsewhere]
    exact inv.tree.unused path table found
  · intro path table found
    rw [(same path).1] at found
    exact inv.tables path table found
  · intro frame given
    simp only [same]
    have before := inv.accounted frame given
    have moved := elsewhere frame
    unfold Elsewhere at moved
    tauto
  · intro address changed
    by_cases now : next.paging.memory address = m.paging.memory address
    · rw [now] at changed
      exact inv.writes address changed
    · exact writes address now
  · intro virtual canonical
    have walk : hardwareWalk hhdmOffset next.paging.memory root virtual =
        hardwareWalk hhdmOffset m.paging.memory root virtual := by
      rw [hardwareWalk, hardwareWalk, (same _).2]
    rw [List.filterMap_append, List.filterMap_cons, noOp, List.filterMap_nil, List.append_nil,
      walk]
    exact inv.walks virtual canonical

theorem MemoryInv.allocated (supply : PageSupply alloc free valid available supplied)
    (inv : MemoryInv hhdmOffset root valid available supplied origin done m)
    (kind : SystemPhysicalPageKind) :
    ∃ next, m.step alloc free hhdmOffset (root.address + hhdmOffset) (.alloc kind) = .ok next ∧
      MemoryInv hhdmOffset root valid available supplied origin (done ++ [.alloc kind]) next := by
  obtain ⟨isValid, apart⟩ := inv.tree.valid
  obtain ⟨result, pages, call, isValid', took, rest⟩ :=
    supply.allocs kind m.paging.pages isValid
  refine ⟨_, by rw [KernelMemory.step, call]; rfl, ?_⟩
  cases result with
  | none =>
      refine inv.keep_table rfl ⟨isValid', ?_⟩ ?_ inv.distinct inv.placed (fun _ _ _ _ => rfl)
        (fun _ changed => absurd rfl changed)
      · exact fun frame member still => apart frame member ((rest frame).mp still).1
      · intro frame
        change available pages frame ∨ frame ∈ m.held ↔ _
        rw [rest]
        simp [Elsewhere]
  | some address =>
      obtain ⟨taken, rfl, before⟩ := took address rfl
      have held : (Option.map entryFrame (some taken.address)).toList ++ m.held =
          taken :: m.held := by
        rw [Option.map_some, entryFrame_address]
        rfl
      rw [held]
      have same (frame : Frame) : available pages frame ↔
          available m.paging.pages frame ∧ frame ≠ taken := by
        rw [rest, ne_eq, Option.some.injEq]
        refine and_congr_right fun _ => not_congr ⟨fun equal => (address_inj equal).symm, ?_⟩
        rintro rfl
        rfl
      refine inv.keep_table rfl ⟨isValid', ?_⟩ ?_ ?_ ?_ (fun _ _ _ _ => rfl)
        (fun _ changed => absurd rfl changed)
      · intro frame member still
        rw [same] at still
        rcases List.mem_cons.mp member with rfl | older
        · exact still.2 rfl
        · exact apart frame older still.1
      · intro frame
        change available pages frame ∨ frame ∈ taken :: m.held ↔ _
        rw [same, List.mem_cons, Elsewhere]
        by_cases isTaken : frame = taken
        · simp [isTaken, before]
        · simp [isTaken]
      · exact List.nodup_cons.mpr ⟨fun member => apart taken member before, inv.distinct⟩
      · intro frame member
        rcases List.mem_cons.mp member with rfl | older
        · exact supply.within _ _ isValid before
        · exact inv.placed frame older

theorem MemoryInv.freed (supply : PageSupply alloc free valid available supplied)
    (inv : MemoryInv hhdmOffset root valid available supplied origin done m) {frame : Frame}
    (member : frame ∈ m.held) :
    ∃ next, m.step alloc free hhdmOffset (root.address + hhdmOffset) (.free frame) = .ok next ∧
      MemoryInv hhdmOffset root valid available supplied origin (done ++ [.free frame]) next := by
  obtain ⟨isValid, apart⟩ := inv.tree.valid
  obtain ⟨pages, call, isValid', rest⟩ :=
    supply.frees m.paging.pages frame isValid (inv.placed frame member) (apart frame member)
  refine ⟨_, by rw [KernelMemory.step, call]; rfl, ?_⟩
  refine inv.keep_table rfl ⟨isValid', ?_⟩ ?_ (inv.distinct.erase frame) ?_
    (fun _ _ _ _ => rfl) (fun _ changed => absurd rfl changed)
  · intro other left
    rw [inv.distinct.mem_erase_iff] at left
    rw [rest, not_or]
    exact ⟨apart other left.2, left.1⟩
  · intro other
    change available pages other ∨ other ∈ m.held.erase frame ↔ _
    rw [rest, inv.distinct.mem_erase_iff, Elsewhere]
    by_cases isFreed : other = frame
    · simp [isFreed, member]
    · simp [isFreed]
  · exact fun other left => inv.placed other (List.mem_of_mem_erase left)

theorem MemoryInv.stored (inv : MemoryInv hhdmOffset root valid available supplied origin done m)
    {frame : Frame} (member : frame ∈ m.held) (offset : BitVec 12) (byte : U8) :
    MemoryInv hhdmOffset root valid available supplied origin (done ++ [.store frame offset byte])
      ⟨⟨Function.update m.paging.memory (frame.address + hhdmOffset + offset.setWidth 64) byte,
        m.paging.pages⟩, m.held⟩ := by
  have inside : InPage (frame.address + hhdmOffset)
      (frame.address + hhdmOffset + offset.setWidth 64) := by
    have bound := offset.isLt
    rw [InPage, add_sub_cancel_left, BitVec.toNat_setWidth, systemPageSize]
    omega
  refine inv.keep_table rfl inv.tree.valid (fun _ => Iff.rfl) inv.distinct inv.placed ?_ ?_
  · intro path table slot found
    have apart : table ≠ frame := by
      rintro rfl
      exact inv.tree.unused path table found (Or.inr member)
    apply wordAt_congr
    intro address inTable
    have elsewhere : address ≠ frame.address + hhdmOffset + offset.setWidth 64 := by
      rintro rfl
      exact apart (inPage_unique inTable inside)
    exact Function.update_of_ne elsewhere byte m.paging.memory
  · intro other changed
    have same : other = frame.address + hhdmOffset + offset.setWidth 64 := by
      by_contra different
      exact changed (Function.update_of_ne different ..)
    rw [same]
    exact ⟨frame, inv.placed frame member, inside⟩

theorem MemoryInv.operated (supply : PageSupply alloc free valid available supplied)
    (notNull : root.address + hhdmOffset ≠ 0#64)
    (inv : MemoryInv hhdmOffset root valid available supplied origin done m) {op : TableOp}
    (isValid : op.Valid) (mapped : MappedSmall hhdmOffset m.paging.memory root op.virtual) :
    Outcome alloc m.paging.pages
      (missing hhdmOffset m.paging.memory root (upperSlots op.virtual)) (·.paging.pages)
      (m.step alloc free hhdmOffset (root.address + hhdmOffset) (.table op)) fun next =>
        next.held = m.held ∧
          MemoryInv hhdmOffset root valid available supplied origin (done ++ [.table op]) next := by
  have within {paging : PagingState σ} {frame : Frame}
      (taken : Taken (Elsewhere available m.held) m.paging paging frame) : supplied frame := by
    rcases taken.1 with before | member
    · exact supply.within _ _ inv.tree.valid.1 before
    · exact inv.placed frame member
  refine (TableOp.run_written (supply.fresh m.held) inv.tree notNull isValid mapped).bind_done ?_
  intro paging written
  refine .ok (by rfl) ⟨rfl, written.tree, inv.distinct, inv.placed, ?_, ?_, ?_, ?_⟩
  · intro path table found
    rcases written.tables path table found with older | taken
    · exact inv.tables path table older
    · exact within taken
  · intro frame given
    by_cases still : available paging.pages frame
    · exact Or.inl still
    · rcases inv.accounted frame given with before | member | ⟨path, found⟩
      · by_cases member : frame ∈ m.held
        · exact Or.inr (Or.inl member)
        · exact Or.inr (Or.inr (written.linked frame ⟨Or.inl before, fun other =>
            other.elim still member⟩))
      · exact Or.inr (Or.inl member)
      · exact Or.inr (Or.inr ⟨path, written.kept path frame found⟩)
  · intro address changed
    by_cases now : paging.memory address = m.paging.memory address
    · rw [now] at changed
      exact inv.writes address changed
    · obtain ⟨table, which, inside⟩ := written.outside address now
      refine ⟨table, ?_, inside⟩
      rcases which with ⟨path, found⟩ | taken
      · exact inv.tables path table found
      · exact within taken
  · intro virtual canonical
    rw [List.filterMap_append]
    by_cases here : op.virtual = virtualPage virtual
    · exact written.translates isValid here _ _
    · exact written.translates_other isValid canonical here (inv.walks virtual canonical)

theorem MemoryInv.step (supply : PageSupply alloc free valid available supplied)
    (notNull : root.address + hhdmOffset ≠ 0#64)
    (inv : MemoryInv hhdmOffset root valid available supplied origin done m)
    {request : MemoryRequest} (allowed : m.Allowed hhdmOffset root request) {next : KernelMemory σ}
    (call : m.step alloc free hhdmOffset (root.address + hhdmOffset) request = .ok next) :
    MemoryInv hhdmOffset root valid available supplied origin (done ++ [request]) next := by
  cases request with
  | alloc kind =>
      obtain ⟨_, same, inv'⟩ := inv.allocated supply kind
      rw [call] at same
      cases same
      exact inv'
  | free frame =>
      obtain ⟨_, same, inv'⟩ := inv.freed supply allowed
      rw [call] at same
      cases same
      exact inv'
  | store frame slot value =>
      cases call
      exact inv.stored allowed slot value
  | table op => exact ((inv.operated supply notNull allowed.1 allowed.2).of_ok call).2

theorem MemoryRun.inv (supply : PageSupply alloc free valid available supplied)
    (notNull : root.address + hhdmOffset ≠ 0#64) {start : KernelMemory σ}
    (initial : MemoryInv hhdmOffset root valid available supplied origin [] start)
    (run : MemoryRun alloc free hhdmOffset root start done m) :
    MemoryInv hhdmOffset root valid available supplied origin done m := by
  induction run with
  | start => exact initial
  | step request run allowed call ih => exact ih.step supply notNull allowed call

end Drastic
