import Drastic.Library.Processor
import Drastic.Platform.Idt

namespace Drastic

open Library.X86

/-! The first part of `system_setup`: both tables in memory, and the processor that uses them. -/

abbrev systemGdtDataSize : Nat := systemGdtSegmentCount * 8
abbrev systemIdtDataSize : Nat := systemIdtEntries * systemIdtEntrySize

def systemGdtKdataSelector : U64 := systemGdtSegmentSelector systemGdtKdataSegment 0

def placeArray (memory : ByteMemory) (base : Uintptr) (size : Nat) (data : Nat → U8) :
    ByteMemory := fun a =>
  if (a - base).toNat < size then data (a - base).toNat else memory a

def ax (p : Processor) : Selector := (p.regs .rax).setWidth 16

def loadKernelData (p : Processor) : Option Processor := do
  let p := p.set .rax (p.regs .rax &&& ~~~0xFFFF#64 ||| systemGdtKdataSelector)
  let p ← p.loadSegment .ds (ax p)
  let p ← p.loadSegment .es (ax p)
  p.loadStackSegment (ax p)

def loadNullSegments (adjust : Bool) (p : Processor) : Option Processor := do
  let p := p.xorSelf .rax adjust
  let p ← p.loadSegment .fs (ax p)
  p.loadSegment .gs (ax p)

/-- From the first push on; `label` is the address of the label `1`. -/
def returnToLabel (label : U64) (p : Processor) : Option Processor :=
  let p := p.push systemGdtKcodeSelector
  let p := p.set .rax label
  let p := p.push (p.regs .rax)
  p.farReturn

def systemGdtLoad (adjust : Bool) (p : Processor) (limit : U16) (base label : U64) :
    Option Processor := do
  let p ← p.lgdt limit base
  let p ← loadKernelData p
  let p ← loadNullSegments adjust p
  returnToLabel label p

/-- `system_gdt_setup` with `system_gdt.data` at `gdtData`. It ends as `none` in a `kpanic`. -/
def systemGdtInstall (adjust : Bool) (p : Processor) (gdtData label : Uintptr) :
    Option Processor :=
  match systemGdtSetup
    { systemGdt with data := fun k => p.memory (gdtData + BitVec.ofNat 64 k) } with
  | .ok gdt =>
    systemGdtLoad adjust
      { p with memory := placeArray p.memory gdtData systemGdtDataSize gdt.data }
      (BitVec.ofNat 16 systemGdtDataSize - 1) gdtData label
  | .error _ => none

def systemIdtInstall (p : Processor) (idtData systemIdtIsrStub0 : Uintptr) : Option Processor :=
  { p with
    memory := placeArray p.memory idtData systemIdtDataSize
      (systemIdtSetup (fun k => p.memory (idtData + BitVec.ofNat 64 k)) systemIdtIsrStub0)
  }.lidt (BitVec.ofNat 16 systemIdtDataSize - 1) idtData

def asmDisableInterrupts (p : Processor) : Processor :=
  { p with rflags := p.rflags &&& ~~~interruptBit }

def asmEnableInterrupts (p : Processor) : Processor :=
  { p with rflags := p.rflags ||| interruptBit }

/-- `system_setup` up to `asm_enable_interrupts`. What the compiled code does between the
instructions of the `asm` statements, besides filling the tables, is `compiled`: before the load
of the first table, before the load of the second and behind it. -/
def systemTablesSetup (compiled : Fin 3 → Processor → Processor) (adjust : Bool) (p : Processor)
    (gdtData idtData systemIdtIsrStub0 label : Uintptr) : Option Processor := do
  let p := compiled 0 (asmDisableInterrupts p)
  let p ← systemGdtInstall adjust p gdtData label
  let p ← systemIdtInstall (compiled 1 p) idtData systemIdtIsrStub0
  return asmEnableInterrupts (compiled 2 p)

def UpToAccessed (k : Nat) (byte found : U8) : Prop :=
  found = byte ∨ k % 8 = 5 ∧ found = byte ||| 1#8

structure GdtInstalled (gdtData : Uintptr) (p : Processor) : Prop where
  gdtr : p.gdtr = ⟨39#16, gdtData⟩
  gdt : ∃ data gdt, systemGdtSetup { systemGdt with data := data } = .ok gdt ∧
    ∀ k < systemGdtDataSize, UpToAccessed k (gdt.data k) (p.memory (gdtData + BitVec.ofNat 64 k))

structure TablesInstalled (gdtData idtData systemIdtIsrStub0 : Uintptr) (p : Processor) : Prop
    extends GdtInstalled gdtData p where
  idtr : p.idtr = ⟨4095#16, idtData⟩
  idt : ∃ data, ∀ k < systemIdtDataSize,
    p.memory (idtData + BitVec.ofNat 64 k) = systemIdtSetup data systemIdtIsrStub0 k
  cs : p.cs = 0x08#16
  ss : p.ss = 0x10#16

variable {gdtData idtData systemIdtIsrStub0 label : Uintptr} {p q : Processor}

theorem placeArray_inside (memory : ByteMemory) (base : Uintptr) {size : Nat} (data : Nat → U8)
    (small : size ≤ 2 ^ 64) {k : Nat} (inside : k < size) :
    placeArray memory base size data (base + BitVec.ofNat 64 k) = data k := by
  have offset : (base + BitVec.ofNat 64 k - base).toNat = k := by
    have bound := base.isLt
    rw [BitVec.add_comm, BitVec.add_sub_cancel, BitVec.toNat_ofNat, Nat.mod_eq_of_lt (by omega)]
  rw [placeArray, offset, if_pos inside]

theorem placeArray_outside (memory : ByteMemory) {base a : Uintptr} {size : Nat}
    (data : Nat → U8) (outside : size ≤ (a - base).toNat) :
    placeArray memory base size data a = memory a :=
  if_neg (Nat.not_lt.mpr outside)

theorem UpToAccessed.refl (k : Nat) (byte : U8) : UpToAccessed k byte byte := .inl rfl

theorem UpToAccessed.trans {k : Nat} {byte found later : U8} (first : UpToAccessed k byte found)
    (second : UpToAccessed k found later) : UpToAccessed k byte later := by
  obtain rfl | ⟨isAccess, rfl⟩ := first
  · exact second
  · obtain rfl | ⟨_, rfl⟩ := second
    · exact .inr ⟨isAccess, rfl⟩
    · exact .inr ⟨isAccess, by rw [BitVec.or_assoc]; rfl⟩

theorem GdtInstalled.descriptor (installed : GdtInstalled gdtData p)
    (i : Fin systemGdtSegmentCount) :
    ∃ access ∈ [(systemGdt.entries i).accessByte, (systemGdt.entries i).accessByte ||| 1#8],
      p.descriptor (BitVec.ofNat 16 (i.val * 8)) =
        some ⟨access, (systemGdt.entries i).flags⟩ := by
  obtain ⟨data, gdt, setup, bytes⟩ := installed.gdt
  obtain ⟨_, run, _, descriptors, _⟩ := encodeAll_ok (List.finRange systemGdtSegmentCount)
    (List.nodup_finRange _) { systemGdt with data := data } systemGdt_fits
  change systemGdtSetup { systemGdt with data := data } = _ at run
  cases setup.symm.trans run
  obtain ⟨_, encoded⟩ := descriptors i (List.mem_finRange i)
  have decoded := encoded.decoded (systemGdt_fits i)
  rw [segmentDescriptor, SystemGdtEntry.mk.injEq] at decoded
  obtain ⟨_, _, access, flags⟩ := decoded
  have bound : i.val < 5 := i.isLt
  have size : systemGdtDataSize = 40 := rfl
  have offset : (BitVec.ofNat 16 (i.val * 8)).toNat / 8 * 8 = i.val * 8 := by
    rw [BitVec.toNat_ofNat]
    omega
  have global : ∀ j : Fin systemGdtSegmentCount,
      (BitVec.ofNat 16 (j.val * 8)).getLsbD 2 = false := by decide
  have limit : (39#16).toNat = 39 := rfl
  have flagsByte : p.memory (gdtData + BitVec.ofNat 64 (i.val * 8 + 6)) =
      gdt.data (i.val * 8 + 6) :=
    (bytes _ (by omega)).resolve_right fun accessed => by omega
  refine ⟨p.memory (gdtData + BitVec.ofNat 64 (i.val * 8 + 5)), ?_, ?_⟩
  · obtain same | ⟨_, same⟩ := bytes (i.val * 8 + 5) (by omega)
    · simp [same, access]
    · simp [same, access]
  · simp only [Processor.descriptor, installed.gdtr, offset]
    rw [if_pos ⟨global i, by omega⟩, flagsByte, flags]

theorem GdtInstalled.selects (installed : GdtInstalled gdtData p) (i : Fin systemGdtSegmentCount)
    {property : Descriptor → Bool} (notNull : 4 ≤ (BitVec.ofNat 16 (i.val * 8)).toNat)
    (holds : ∀ access ∈
      [(systemGdt.entries i).accessByte, (systemGdt.entries i).accessByte ||| 1#8],
      property ⟨access, (systemGdt.entries i).flags⟩ = true) :
    p.Selects (BitVec.ofNat 16 (i.val * 8)) property := by
  obtain ⟨access, member, read⟩ := installed.descriptor i
  exact ⟨notNull, _, read, holds access member⟩

theorem GdtInstalled.kcode (installed : GdtInstalled gdtData p) :
    p.Selects 0x08#16 fun d => d.isCode 0 :=
  installed.selects 1 (by decide) (by decide)

theorem GdtInstalled.kstack (installed : GdtInstalled gdtData p) : p.StackAllowed 0x10#16 0 :=
  ⟨by decide, .inr (installed.selects 2 (by decide) (by decide))⟩

theorem GdtInstalled.kdata (installed : GdtInstalled gdtData p) :
    p.Selects 0x10#16 fun d => d.isData 0 :=
  installed.selects 2 (by decide) (by decide)

theorem GdtInstalled.congr (installed : GdtInstalled gdtData p) (register : q.gdtr = p.gdtr)
    (same : ∀ k < systemGdtDataSize, UpToAccessed k (p.memory (gdtData + BitVec.ofNat 64 k))
      (q.memory (gdtData + BitVec.ofNat 64 k))) : GdtInstalled gdtData q := by
  obtain ⟨data, gdt, setup, bytes⟩ := installed.gdt
  refine ⟨register.trans installed.gdtr, data, gdt, setup, ?_⟩
  intro k inside
  exact (bytes k inside).trans (same k inside)

/-- A segment register that is loaded changes the table by an accessed bit, and no other byte. -/
theorem markAccessed_gdt (register : p.gdtr = ⟨39#16, gdtData⟩) {selector : Selector}
    (inside : selector.toNat < 40) :
    (∀ k < systemGdtDataSize, UpToAccessed k (p.memory (gdtData + BitVec.ofNat 64 k))
      ((p.markAccessed selector).memory (gdtData + BitVec.ofNat 64 k))) ∧
    ∀ a, systemGdtDataSize ≤ (a - gdtData).toNat →
      (p.markAccessed selector).memory a = p.memory a := by
  have size : systemGdtDataSize = 40 := rfl
  have byte : p.accessByte selector =
      gdtData + BitVec.ofNat 64 (selector.toNat / 8 * 8 + 5) := by
    rw [Processor.accessByte, register]
  constructor
  · intro k bound
    by_cases here : k = selector.toNat / 8 * 8 + 5
    · rw [here, ← byte]
      simp only [Processor.markAccessed]
      split
      · exact .refl ..
      · exact .inr ⟨by omega, Function.update_self ..⟩
    · refine .inl (p.markAccessed_memory fun _ => ?_)
      rw [byte]
      bv_omega
  · intro a outside
    apply p.markAccessed_memory
    intro _ same
    rw [same, byte] at outside
    bv_omega

theorem TablesInstalled.gate (installed : TablesInstalled gdtData idtData systemIdtIsrStub0 p)
    {vector : Nat} (isVector : vector < 256) :
    p.gate vector = some {
      handler := systemIdtIsrStub0 + BitVec.ofNat 64 (vector * 16)
      selector := 0x08#16
      ist := 0#8
      gateType := 0xE#8
      dpl := 0#8
      present := true } := by
  obtain ⟨data, bytes⟩ := installed.idt
  have number : (BitVec.ofNat 8 vector).toNat = vector := by
    rw [BitVec.toNat_ofNat, Nat.mod_eq_of_lt isVector]
  have installedGate := installed_runs data (setupCalls systemIdtIsrStub0) (setupCalls_fits _)
    (BitVec.ofNat 8 vector)
  rw [Installed, lastFor_setupCalls, ← systemIdtSetup_calls, number] at installedGate
  have size : systemIdtDataSize = 4096 := rfl
  have byte (k : Nat) (inside : k < 16) :
      p.memory (idtData + BitVec.ofNat 64 (vector * 16 + k)) =
        systemIdtSetup data systemIdtIsrStub0 (vector * 16 + k) :=
    bytes _ (by omega)
  have decoded : interruptGate (fun k => p.memory (idtData + BitVec.ofNat 64 (vector * 16 + k))) =
      interruptGate (fun k => systemIdtSetup data systemIdtIsrStub0 (vector * 16 + k)) := by
    simp only [interruptGate, byte 0 (by decide), byte 1 (by decide), byte 2 (by decide),
      byte 3 (by decide), byte 4 (by decide), byte 5 (by decide), byte 6 (by decide),
      byte 7 (by decide), byte 8 (by decide), byte 9 (by decide), byte 10 (by decide),
      byte 11 (by decide)]
  have limit : (4095#16).toNat = 4095 := rfl
  rw [Processor.gate, installed.idtr, if_pos (by rw [limit]; omega), decoded]
  simp only [gateAt, gateOf, number, Gate.mk.injEq, InterruptEntryCall.gate, setupCall]
    at installedGate
  obtain ⟨handler, selector, ist, gateType, dpl, present, _⟩ := installedGate
  rw [interruptGate, handler, selector, ist, gateType, dpl, present]
  rfl

structure Loads (gdtData : Uintptr) (p q : Processor) : Prop where
  table : GdtInstalled gdtData q
  idtr : q.idtr = p.idtr
  cs : q.cs = p.cs
  regs : q.regs = p.regs
  rflags : q.rflags = p.rflags
  directionFlag : q.directionFlag = p.directionFlag
  memory : ∀ a, systemGdtDataSize ≤ (a - gdtData).toNat → q.memory a = p.memory a

theorem Loads.trans {r : Processor} (first : Loads gdtData p q) (second : Loads gdtData q r) :
    Loads gdtData p r where
  table := second.table
  idtr := second.idtr.trans first.idtr
  cs := second.cs.trans first.cs
  regs := second.regs.trans first.regs
  rflags := second.rflags.trans first.rflags
  directionFlag := second.directionFlag.trans first.directionFlag
  memory a outside := (second.memory a outside).trans (first.memory a outside)

theorem Loads.cpl (loads : Loads gdtData p q) : q.cpl = p.cpl := by
  rw [Processor.cpl, loads.cs, Processor.cpl]

theorem Loads.ax (loads : Loads gdtData p q) : ax q = ax p := by
  rw [Drastic.ax, loads.regs, Drastic.ax]

theorem GdtInstalled.marked (table : GdtInstalled gdtData p) {selector : Selector}
    (inside : selector.toNat < 40) : GdtInstalled gdtData (p.markAccessed selector) :=
  table.congr rfl (markAccessed_gdt table.gdtr inside).1

theorem loadSegment_loads (table : GdtInstalled gdtData p) (target : DataSegment)
    {selector : Selector} (inside : selector.toNat < 40)
    (allowed : selector.toNat < 4 ∨
      p.Selects selector fun d => d.isData (max p.cpl (level selector))) :
    ∃ q, p.loadSegment target selector = some q ∧ Loads gdtData p q ∧ q.ss = p.ss ∧
      q.segments = Function.update p.segments target selector := by
  refine ⟨_, if_pos allowed, ⟨?_, rfl, rfl, rfl, rfl, rfl, ?_⟩, rfl, rfl⟩
  · exact (table.marked inside).congr rfl fun _ _ => .refl ..
  · exact (markAccessed_gdt table.gdtr inside).2

theorem loadSegment_kdata (table : GdtInstalled gdtData p) (inner : p.cpl = 0)
    (selected : ax p = 0x10#16) (target : DataSegment) :
    ∃ q, p.loadSegment target (ax p) = some q ∧ Loads gdtData p q ∧ q.ss = p.ss ∧
      q.segments = Function.update p.segments target 0x10#16 := by
  rw [selected]
  refine loadSegment_loads table target (by decide) (.inr ?_)
  rw [inner]
  exact table.kdata

theorem loadSegment_null (table : GdtInstalled gdtData p) (selected : ax p = 0#16)
    (target : DataSegment) :
    ∃ q, p.loadSegment target (ax p) = some q ∧ Loads gdtData p q ∧ q.ss = p.ss ∧
      q.segments = Function.update p.segments target 0#16 := by
  rw [selected]
  exact loadSegment_loads table target (by decide) (.inl (by decide))

theorem loadStackSegment_kdata (table : GdtInstalled gdtData p) (inner : p.cpl = 0)
    (selected : ax p = 0x10#16) :
    ∃ q, p.loadStackSegment (ax p) = some q ∧ Loads gdtData p q ∧ q.ss = 0x10#16 ∧
      q.segments = p.segments := by
  have inside : (0x10#16).toNat < 40 := by decide
  rw [selected]
  refine ⟨_, if_pos ?_, ⟨?_, rfl, rfl, rfl, rfl, rfl, ?_⟩, rfl, rfl⟩
  · rw [inner]
    exact table.kstack
  · exact (table.marked inside).congr rfl fun _ _ => .refl ..
  · exact (markAccessed_gdt table.gdtr inside).2

theorem ax_kdata (value : U64) :
    (value &&& ~~~0xFFFF#64 ||| systemGdtKdataSelector).setWidth 16 = 0x10#16 := by
  have low : (~~~0xFFFF#64).setWidth 16 = 0#16 := by decide
  have selector : systemGdtKdataSelector.setWidth 16 = 0x10#16 := by decide
  rw [BitVec.setWidth_or, BitVec.setWidth_and, low, selector, BitVec.and_zero, BitVec.zero_or]

/-- A part of `system_gdt_load`: `rax`, the arithmetic flags and 16 bytes of the stack are its
own. -/
structure Reloads (gdtData : Uintptr) (p q : Processor) : Prop where
  table : GdtInstalled gdtData q
  idtr : q.idtr = p.idtr
  regs : ∀ r, r ≠ .rax → q.regs r = p.regs r
  flags : q.rflags &&& ~~~arithmeticBits = p.rflags &&& ~~~arithmeticBits
  directionFlag : q.directionFlag = p.directionFlag
  memory : ∀ a, systemGdtDataSize ≤ (a - gdtData).toNat →
    a < p.regs .rsp - 16#64 ∨ p.regs .rsp ≤ a → q.memory a = p.memory a

theorem Reloads.trans {r : Processor} (first : Reloads gdtData p q)
    (second : Reloads gdtData q r) : Reloads gdtData p r where
  table := second.table
  idtr := second.idtr.trans first.idtr
  regs x other := (second.regs x other).trans (first.regs x other)
  flags := second.flags.trans first.flags
  directionFlag := second.directionFlag.trans first.directionFlag
  memory a outside stack := by
    have rsp := first.regs .rsp (by decide)
    exact (second.memory a outside (by rw [rsp]; exact stack)).trans (first.memory a outside stack)

theorem Loads.reloads {p' : Processor} (loads : Loads gdtData p' q)
    (idtr : p'.idtr = p.idtr) (regs : ∀ r, r ≠ .rax → p'.regs r = p.regs r)
    (flags : p'.rflags &&& ~~~arithmeticBits = p.rflags &&& ~~~arithmeticBits)
    (directionFlag : p'.directionFlag = p.directionFlag) (memory : p'.memory = p.memory) :
    Reloads gdtData p q where
  table := loads.table
  idtr := loads.idtr.trans idtr
  regs r other := by rw [loads.regs, regs r other]
  flags := by rw [loads.rflags, flags]
  directionFlag := loads.directionFlag.trans directionFlag
  memory a outside _ := by rw [loads.memory a outside, memory]

theorem loadKernelData_ok (table : GdtInstalled gdtData p) (inner : p.cpl = 0) :
    ∃ q, loadKernelData p = some q ∧ Reloads gdtData p q ∧ q.cs = p.cs ∧ q.ss = 0x10#16 ∧
      q.segments = Function.update (Function.update p.segments .ds 0x10#16) .es 0x10#16 := by
  let p₁ := p.set .rax (p.regs .rax &&& ~~~0xFFFF#64 ||| systemGdtKdataSelector)
  have selected : ax p₁ = 0x10#16 := by
    rw [ax, show p₁.regs .rax = _ from Machine.set_self ..]
    exact ax_kdata (p.regs .rax)
  have table₁ : GdtInstalled gdtData p₁ := table.congr rfl fun _ _ => .refl ..
  obtain ⟨p₂, run₂, loads₂, _, segments₂⟩ := loadSegment_kdata table₁ inner selected .ds
  obtain ⟨p₃, run₃, loads₃, _, segments₃⟩ := loadSegment_kdata loads₂.table
    (loads₂.cpl.trans inner) (loads₂.ax.trans selected) .es
  have both := loads₂.trans loads₃
  obtain ⟨q, run, loads, ss, segments⟩ := loadStackSegment_kdata both.table
    (both.cpl.trans inner) (both.ax.trans selected)
  have all := both.trans loads
  refine ⟨q, ?_, all.reloads rfl (fun r other => Machine.set_other _ other _) rfl rfl rfl,
    all.cs, ss, ?_⟩
  · calc loadKernelData p
      _ = (p₁.loadSegment .ds (ax p₁)).bind fun p =>
          (p.loadSegment .es (ax p)).bind fun p => p.loadStackSegment (ax p) := rfl
      _ = some q := by rw [run₂, Option.bind_some, run₃, Option.bind_some, run]
  · rw [segments, segments₃, segments₂]
    rfl

theorem loadNullSegments_ok (adjust : Bool) (table : GdtInstalled gdtData p) :
    ∃ q, loadNullSegments adjust p = some q ∧ Reloads gdtData p q ∧ q.cs = p.cs ∧ q.ss = p.ss ∧
      q.segments = Function.update (Function.update p.segments .fs 0#16) .gs 0#16 := by
  let p₁ := p.xorSelf .rax adjust
  have selected : ax p₁ = 0#16 := by
    rw [ax, show p₁.regs .rax = _ from Machine.set_self .., BitVec.xor_self]
    rfl
  have table₁ : GdtInstalled gdtData p₁ := table.congr rfl fun _ _ => .refl ..
  obtain ⟨p₂, run₂, loads₂, ss₂, segments₂⟩ := loadSegment_null table₁ selected .fs
  obtain ⟨q, run, loads, ss, segments⟩ :=
    loadSegment_null loads₂.table (loads₂.ax.trans selected) .gs
  have all := loads₂.trans loads
  refine ⟨q, ?_, all.reloads rfl (fun r other => Machine.set_other _ other _)
    (p.xorSelf_flags .rax adjust) rfl rfl, all.cs, ss.trans ss₂, ?_⟩
  · calc loadNullSegments adjust p
      _ = (p₁.loadSegment .fs (ax p₁)).bind fun p => p.loadSegment .gs (ax p) := rfl
      _ = some q := by rw [run₂, Option.bind_some, run]
  · rw [segments, segments₂]
    rfl

theorem returnToLabel_pushes (room : 16 ≤ (p.regs .rsp).toNat) (label : U64) :
    let m := ((p.push systemGdtKcodeSelector).set .rax label).push label
    m.Holds [label, systemGdtKcodeSelector] ∧ m.regs .rsp = p.regs .rsp - 16#64 ∧
      (∀ r, r ≠ .rax → r ≠ .rsp → m.regs r = p.regs r) ∧
      ∀ a, a < p.regs .rsp - 16#64 ∨ p.regs .rsp ≤ a → m.memory a = p.memory a := by
  let saved := (p.push systemGdtKcodeSelector).set .rax label
  have empty : p.Holds [] := ⟨Nat.le_of_lt (BitVec.isLt _), by simp⟩
  have savedRsp : saved.regs .rsp = p.regs .rsp - 8 :=
    (Machine.set_other _ (by decide) _).trans (Machine.push_rsp _ _)
  have savedOnStack : saved.Holds [systemGdtKcodeSelector] := by
    have pushed := empty.push (by omega) systemGdtKcodeSelector
    rw [Machine.Holds, Machine.push_rsp, ← savedRsp] at pushed
    exact pushed
  have space : 8 ≤ (saved.regs .rsp).toNat := by
    rw [savedRsp]
    bv_omega
  refine ⟨savedOnStack.push space label, ?_, ?_, ?_⟩
  · rw [show (saved.push label).regs .rsp = _ from Machine.push_rsp _ _, savedRsp]
    bv_omega
  · intro r other notRsp
    calc (saved.push label).regs r
      _ = saved.regs r := Machine.push_other _ notRsp _
      _ = (p.push systemGdtKcodeSelector).regs r := Machine.set_other _ other _
      _ = p.regs r := Machine.push_other _ notRsp _
  · intro a outside
    calc (saved.push label).memory a
      _ = saved.memory a := Machine.push_outside _ space _ (by rw [savedRsp]; bv_omega)
      _ = p.memory a := Machine.push_outside _ (by omega) _ (by bv_omega)

theorem farReturn_kcode (table : GdtInstalled gdtData p) (inner : p.cpl = 0)
    (onStack : p.Holds [label, systemGdtKcodeSelector]) (canonical : IsCanonical label) :
    p.farReturn = some { (p.markAccessed 0x08#16).set .rsp (p.regs .rsp + 16#64) with
      rip := label, cs := 0x08#16 } := by
  have rip := onStack.word 0 (by simp)
  have cs := onStack.word 1 (by simp)
  simp only [Nat.mul_zero, BitVec.add_zero, Nat.mul_one, List.getElem_cons_zero,
    List.getElem_cons_succ] at rip cs
  have selector : systemGdtKcodeSelector.setWidth 16 = 0x08#16 := by decide
  have isLevel : level 0x08#16 = 0 := by decide
  simp only [Processor.farReturn, rip, cs, selector, inner, isLevel]
  exact if_pos ⟨trivial, table.kcode, canonical⟩

theorem returnToLabel_ok (table : GdtInstalled gdtData p) (inner : p.cpl = 0)
    (room : 16 ≤ (p.regs .rsp).toNat) (canonical : IsCanonical label)
    (apart : ∀ k < systemGdtDataSize, gdtData + BitVec.ofNat 64 k < p.regs .rsp - 16#64 ∨
      p.regs .rsp ≤ gdtData + BitVec.ofNat 64 k) :
    ∃ q, returnToLabel label p = some q ∧ Reloads gdtData p q ∧ q.cs = 0x08#16 ∧ q.ss = p.ss ∧
      q.segments = p.segments ∧ q.rip = label := by
  let returning := ((p.push systemGdtKcodeSelector).set .rax label).push label
  obtain ⟨onStack, lower, regs, memory⟩ := returnToLabel_pushes room label
  have table' : GdtInstalled gdtData returning :=
    table.congr rfl fun k inside => .inl (memory _ (apart k inside))
  have inside : (0x08#16).toNat < 40 := by decide
  have loaded : ((p.push systemGdtKcodeSelector).set .rax label).regs .rax = label :=
    Machine.set_self ..
  have run : returnToLabel label p = some { (returning.markAccessed 0x08#16).set .rsp
      (returning.regs .rsp + 16#64) with rip := label, cs := 0x08#16 } := by
    have same : returnToLabel label p = returning.farReturn := by
      rw [returnToLabel, loaded]
    rw [same]
    exact farReturn_kcode table' inner onStack canonical
  have marked := markAccessed_gdt table'.gdtr inside
  refine ⟨_, run, ⟨?_, rfl, ?_, rfl, rfl, ?_⟩, rfl, rfl, rfl, rfl⟩
  · exact (table'.marked inside).congr rfl fun _ _ => .refl ..
  · intro r other
    by_cases isRsp : r = .rsp
    · rw [isRsp]
      apply (Machine.set_self ..).trans
      rw [lower]
      bv_omega
    · exact (Machine.set_other _ isRsp _).trans (regs r other isRsp)
  · intro a outside stack
    exact (marked.2 a outside).trans (memory a stack)

theorem systemGdtLoad_ok (adjust : Bool)
    (installed : GdtInstalled gdtData { p with gdtr := ⟨39#16, gdtData⟩ })
    (inner : p.cpl = 0) (room : 16 ≤ (p.regs .rsp).toNat) (canonical : IsCanonical label)
    (canonicalTable : IsCanonical gdtData)
    (apart : ∀ k < systemGdtDataSize, gdtData + BitVec.ofNat 64 k < p.regs .rsp - 16#64 ∨
      p.regs .rsp ≤ gdtData + BitVec.ofNat 64 k) :
    ∃ q, systemGdtLoad adjust p 39#16 gdtData label = some q ∧ Reloads gdtData p q ∧
      q.cs = 0x08#16 ∧ q.ss = 0x10#16 ∧
      (∀ s, q.segments s = if s = .ds ∨ s = .es then 0x10#16 else 0#16) ∧ q.rip = label := by
  let p₀ : Processor := { p with gdtr := ⟨39#16, gdtData⟩ }
  obtain ⟨p₁, data, reloads₁, cs₁, ss₁, segments₁⟩ := loadKernelData_ok (p := p₀) installed inner
  obtain ⟨p₂, null, reloads₂, cs₂, ss₂, segments₂⟩ := loadNullSegments_ok adjust reloads₁.table
  have before := reloads₁.trans reloads₂
  have rsp : p₂.regs .rsp = p.regs .rsp := before.regs .rsp (by decide)
  have inner' : p₂.cpl = 0 := by
    rw [Processor.cpl, cs₂, cs₁]
    exact inner
  obtain ⟨q, far, reloads, cs, ss, segments, rip⟩ := returnToLabel_ok before.table inner'
    (by rw [rsp]; exact room) canonical (by rw [rsp]; exact apart)
  have all := before.trans reloads
  refine ⟨q, ?_, ⟨all.table, all.idtr, all.regs, all.flags, all.directionFlag, all.memory⟩, cs,
    ss.trans (ss₂.trans ss₁), ?_, rip⟩
  · have load : p.lgdt 39#16 gdtData = some p₀ := if_pos canonicalTable
    simp only [systemGdtLoad, load, Option.bind_eq_bind, Option.bind_some, data, null, far]
  · intro s
    rw [segments, segments₂, segments₁]
    cases s <;> rfl

theorem systemGdtInstall_loads (adjust : Bool) {gdt : SystemGdt}
    (setup : systemGdtSetup { systemGdt with
      data := fun k => p.memory (gdtData + BitVec.ofNat 64 k) } = .ok gdt) :
    systemGdtInstall adjust p gdtData label =
      systemGdtLoad adjust
        { p with memory := placeArray p.memory gdtData systemGdtDataSize gdt.data }
        39#16 gdtData label := by
  have limit : BitVec.ofNat 16 systemGdtDataSize - 1 = 39#16 := by decide
  unfold systemGdtInstall
  rw [setup]
  simp only
  rw [limit]

/-- `cli` first and `sti` last: the interrupt flag is set in the end. -/
theorem enabled_flags {before after : U64}
    (same : after &&& ~~~arithmeticBits = (before &&& ~~~interruptBit) &&& ~~~arithmeticBits) :
    (after ||| interruptBit) &&& ~~~arithmeticBits =
      (before ||| interruptBit) &&& ~~~arithmeticBits := by
  apply BitVec.eq_of_getLsbD_eq
  intro i bound
  have bits := congrArg (·.getLsbD i) same
  simp only [BitVec.getLsbD_and, BitVec.getLsbD_not, bound, decide_true, Bool.true_and,
    BitVec.getLsbD_or] at bits ⊢
  revert bits
  cases interruptBit.getLsbD i <;> cases arithmeticBits.getLsbD i <;> simp

def InTables (gdtData idtData a : Uintptr) : Prop :=
  (a - gdtData).toNat < systemGdtDataSize ∨ (a - idtData).toNat < systemIdtDataSize

structure StackRange where
  bottom : Nat
  top : Nat

def StackRange.Mem (stack : StackRange) (a : Uintptr) : Prop :=
  stack.bottom ≤ a.toNat ∧ a.toNat < stack.top

def StackRange.HasRoom (stack : StackRange) (room : Nat) (rsp : Uintptr) : Prop :=
  stack.bottom + room ≤ rsp.toNat ∧ rsp.toNat ≤ stack.top

/-- Where the tables are: apart from each other and from the stack. -/
structure TablesApart (stack : StackRange) (gdtData idtData : Uintptr) : Prop where
  notStack : ∀ a, InTables gdtData idtData a → ¬ stack.Mem a
  apart : ∀ k < systemGdtDataSize,
    systemIdtDataSize ≤ (gdtData + BitVec.ofNat 64 k - idtData).toNat

/-- What compiled code does not touch on its own: it has the general registers, the arithmetic
flags and its stack. -/
structure CompiledKeeps (stack : StackRange) (p q : Processor) : Prop where
  cs : q.cs = p.cs
  ss : q.ss = p.ss
  segments : q.segments = p.segments
  gdtr : q.gdtr = p.gdtr
  idtr : q.idtr = p.idtr
  flags : q.rflags &&& ~~~arithmeticBits = p.rflags &&& ~~~arithmeticBits
  directionFlag : q.directionFlag = p.directionFlag
  room : stack.HasRoom 16 (q.regs .rsp)
  memory : ∀ a, ¬ stack.Mem a → q.memory a = p.memory a

def IsCompiled (stack : StackRange) (code : Processor → Processor) : Prop :=
  ∀ p, stack.HasRoom 16 (p.regs .rsp) → CompiledKeeps stack p (code p)

variable {stack : StackRange}

theorem inTables_gdt {k : Nat} (inside : k < systemGdtDataSize) :
    InTables gdtData idtData (gdtData + BitVec.ofNat 64 k) := by
  have size : systemGdtDataSize = 40 := rfl
  refine .inl ?_
  bv_omega

theorem inTables_idt {k : Nat} (inside : k < systemIdtDataSize) :
    InTables gdtData idtData (idtData + BitVec.ofNat 64 k) := by
  have size : systemIdtDataSize = 4096 := rfl
  refine .inr ?_
  bv_omega

theorem TablesInstalled.congr (installed : TablesInstalled gdtData idtData systemIdtIsrStub0 p)
    (gdtr : q.gdtr = p.gdtr) (idtr : q.idtr = p.idtr) (cs : q.cs = p.cs) (ss : q.ss = p.ss)
    (gdt : ∀ k < systemGdtDataSize, UpToAccessed k (p.memory (gdtData + BitVec.ofNat 64 k))
      (q.memory (gdtData + BitVec.ofNat 64 k)))
    (idt : ∀ k < systemIdtDataSize, q.memory (idtData + BitVec.ofNat 64 k) =
      p.memory (idtData + BitVec.ofNat 64 k)) :
    TablesInstalled gdtData idtData systemIdtIsrStub0 q := by
  obtain ⟨data, bytes⟩ := installed.idt
  refine ⟨installed.toGdtInstalled.congr gdtr gdt, idtr.trans installed.idtr, ⟨data, ?_⟩,
    cs.trans installed.cs, ss.trans installed.ss⟩
  intro k inside
  rw [idt k inside, bytes k inside]

theorem setup_placed (p : Processor) (gdtData : Uintptr) :
    ∃ gdt, systemGdtSetup { systemGdt with
        data := fun k => p.memory (gdtData + BitVec.ofNat 64 k) } = .ok gdt ∧
      GdtInstalled gdtData { p with
        memory := placeArray p.memory gdtData systemGdtDataSize gdt.data
        gdtr := ⟨39#16, gdtData⟩ } := by
  obtain ⟨gdt, setup, _⟩ := encodeAll_ok (List.finRange systemGdtSegmentCount)
    (List.nodup_finRange _)
    { systemGdt with data := fun k => p.memory (gdtData + BitVec.ofNat 64 k) } systemGdt_fits
  change systemGdtSetup _ = _ at setup
  refine ⟨gdt, setup, rfl, _, gdt, setup, ?_⟩
  intro k inside
  exact .inl (placeArray_inside p.memory gdtData gdt.data (by decide) inside)

theorem systemGdtInstall_ok (adjust : Bool) (inner : p.cpl = 0)
    (room : stack.HasRoom 16 (p.regs .rsp)) (canonical : IsCanonical label)
    (canonicalTable : IsCanonical gdtData)
    (apart : ∀ k < systemGdtDataSize, ¬ stack.Mem (gdtData + BitVec.ofNat 64 k)) :
    ∃ q, systemGdtInstall adjust p gdtData label = some q ∧ GdtInstalled gdtData q ∧
      q.cs = 0x08#16 ∧ q.ss = 0x10#16 ∧ q.rip = label ∧
      (∀ s, q.segments s = if s = .ds ∨ s = .es then 0x10#16 else 0#16) ∧
      (∀ r, r ≠ .rax → q.regs r = p.regs r) ∧
      q.rflags &&& ~~~arithmeticBits = p.rflags &&& ~~~arithmeticBits ∧
      q.directionFlag = p.directionFlag ∧
      ∀ a, systemGdtDataSize ≤ (a - gdtData).toNat → ¬ stack.Mem a → q.memory a = p.memory a := by
  obtain ⟨gdt, setup, placed⟩ := setup_placed p gdtData
  obtain ⟨enough, below⟩ := room
  have outside (a : Uintptr) (notStack : ¬ stack.Mem a) :
      a < p.regs .rsp - 16#64 ∨ p.regs .rsp ≤ a := by
    rw [StackRange.Mem] at notStack
    bv_omega
  obtain ⟨q, load, reloads, cs, ss, segments, rip⟩ := systemGdtLoad_ok
    (p := { p with memory := placeArray p.memory gdtData systemGdtDataSize gdt.data }) adjust
    placed inner (by simp only; omega) canonical canonicalTable
    fun k inside => outside _ (apart k inside)
  refine ⟨q, (systemGdtInstall_loads adjust setup).trans load, reloads.table, cs, ss, rip,
    segments, reloads.regs, reloads.flags, reloads.directionFlag, ?_⟩
  intro a notTable notStack
  rw [reloads.memory a notTable (outside a notStack)]
  exact placeArray_outside p.memory gdt.data notTable

theorem systemIdtInstall_ok (table : GdtInstalled gdtData p) (cs : p.cs = 0x08#16)
    (ss : p.ss = 0x10#16) (canonical : IsCanonical idtData) (systemIdtIsrStub0 : Uintptr)
    (apart : ∀ k < systemGdtDataSize,
      systemIdtDataSize ≤ (gdtData + BitVec.ofNat 64 k - idtData).toNat) :
    ∃ q, systemIdtInstall p idtData systemIdtIsrStub0 = some q ∧
      TablesInstalled gdtData idtData systemIdtIsrStub0 q ∧ q.segments = p.segments ∧
      q.regs = p.regs ∧ q.rflags = p.rflags ∧ q.directionFlag = p.directionFlag ∧
      ∀ a, systemIdtDataSize ≤ (a - idtData).toNat → q.memory a = p.memory a := by
  have limit : BitVec.ofNat 16 systemIdtDataSize - 1 = 4095#16 := by decide
  let q : Processor := { p with
    memory := placeArray p.memory idtData systemIdtDataSize
      (systemIdtSetup (fun k => p.memory (idtData + BitVec.ofNat 64 k)) systemIdtIsrStub0)
    idtr := ⟨4095#16, idtData⟩ }
  have run : systemIdtInstall p idtData systemIdtIsrStub0 = some q := by
    rw [systemIdtInstall, limit]
    exact if_pos canonical
  have kept (a : Uintptr) (outside : systemIdtDataSize ≤ (a - idtData).toNat) :
      q.memory a = p.memory a := placeArray_outside p.memory _ outside
  refine ⟨q, run, ⟨?_, rfl, ⟨fun k => p.memory (idtData + BitVec.ofNat 64 k), ?_⟩, cs, ss⟩,
    rfl, rfl, rfl, rfl, kept⟩
  · exact table.congr rfl fun k inside => .inl (kept _ (apart k inside))
  · intro k inside
    have small : systemIdtDataSize ≤ 2 ^ 64 := by decide
    exact placeArray_inside p.memory idtData _ small inside

/-- `system_setup` installs both tables without a fault and goes on with interrupts enabled,
whatever the compiled code around the `asm` statements has in its registers and on its stack. -/
theorem tables_installed (compiled : Fin 3 → Processor → Processor)
    (isCompiled : ∀ place, IsCompiled stack (compiled place)) (adjust : Bool) (p : Processor)
    (gdtData idtData systemIdtIsrStub0 label : Uintptr) (inner : p.cpl = 0)
    (room : stack.HasRoom 16 (p.regs .rsp)) (canonical : IsCanonical label)
    (canonicalGdt : IsCanonical gdtData) (canonicalIdt : IsCanonical idtData)
    (tables : TablesApart stack gdtData idtData) :
    ∃ q, systemTablesSetup compiled adjust p gdtData idtData systemIdtIsrStub0 label = some q ∧
      TablesInstalled gdtData idtData systemIdtIsrStub0 q ∧
      (∀ s, q.segments s = if s = .ds ∨ s = .es then 0x10#16 else 0#16) ∧
      q.rflags &&& ~~~arithmeticBits = (p.rflags ||| interruptBit) &&& ~~~arithmeticBits ∧
      q.directionFlag = p.directionFlag ∧ stack.HasRoom 16 (q.regs .rsp) ∧
      ∀ a, ¬ InTables gdtData idtData a → ¬ stack.Mem a → q.memory a = p.memory a := by
  obtain ⟨notStack, apart⟩ := tables
  have first := isCompiled 0 (asmDisableInterrupts p) room
  have inner₁ : (compiled 0 (asmDisableInterrupts p)).cpl = 0 := by
    rw [Processor.cpl, first.cs]
    exact inner
  obtain ⟨p₂, load, table, cs, ss, _, segments, regs, flags, direction, memory⟩ :=
    systemGdtInstall_ok adjust inner₁ first.room canonical canonicalGdt
      fun k inside => notStack _ (inTables_gdt inside)
  have second := isCompiled 1 p₂ (by rw [regs .rsp (by decide)]; exact first.room)
  generalize place₁ : compiled 1 p₂ = p₃ at second
  obtain ⟨p₄, idt, installed, segments₄, regs₄, rflags₄, direction₄, memory₄⟩ :=
    systemIdtInstall_ok
      (table.congr second.gdtr fun k inside =>
        .inl (second.memory _ (notStack _ (inTables_gdt inside))))
      (second.cs.trans cs) (second.ss.trans ss) canonicalIdt systemIdtIsrStub0 apart
  have third := isCompiled 2 p₄ (by rw [regs₄]; exact second.room)
  generalize place₂ : compiled 2 p₄ = p₅ at third
  have run : systemTablesSetup compiled adjust p gdtData idtData systemIdtIsrStub0 label =
      some (asmEnableInterrupts p₅) := by
    rw [systemTablesSetup, load, Option.bind_eq_bind, Option.bind_some, place₁, idt,
      Option.bind_some, place₂]
    rfl
  refine ⟨_, run, ?_, ?_, ?_, ?_, third.room, ?_⟩
  · exact installed.congr third.gdtr third.idtr third.cs third.ss
      (fun k inside => .inl (third.memory _ (notStack _ (inTables_gdt inside))))
      fun k inside => third.memory _ (notStack _ (inTables_idt inside))
  · intro s
    rw [show (asmEnableInterrupts p₅).segments = p₄.segments from third.segments, segments₄,
      second.segments]
    exact segments s
  · apply enabled_flags
    rw [third.flags, rflags₄, second.flags, flags, first.flags]
    rfl
  · calc p₅.directionFlag
      _ = p₄.directionFlag := third.directionFlag
      _ = p₃.directionFlag := direction₄
      _ = p₂.directionFlag := second.directionFlag
      _ = (compiled 0 (asmDisableInterrupts p)).directionFlag := direction
      _ = p.directionFlag := first.directionFlag
  · intro a outside notOnStack
    rw [InTables, not_or, Nat.not_lt, Nat.not_lt] at outside
    calc p₅.memory a
      _ = p₄.memory a := third.memory a notOnStack
      _ = p₃.memory a := memory₄ a outside.2
      _ = p₂.memory a := second.memory a notOnStack
      _ = (compiled 0 (asmDisableInterrupts p)).memory a := memory a outside.1 notOnStack
      _ = p.memory a := first.memory a notOnStack

theorem tables_installed_sample : ∃ q,
    systemTablesSetup (fun _ p => p.set .rcx 0) true ⟨⟨fun _ => 0x9000, fun _ => 0, false⟩,
      0x5000, 0x2, 0x28, 0x30, fun _ => 0x30, ⟨0x37, 0x6000⟩, ⟨0, 0⟩⟩ 0x1000 0x2000 0x100010
      0x5080 = some q ∧ q.cs = 0x08 ∧ q.rflags.getLsbD 9 = true := by
  have size : systemGdtDataSize = 40 := rfl
  have size' : systemIdtDataSize = 4096 := rfl
  have isCompiled : IsCompiled ⟨0x8000, 0x9000⟩ fun p => p.set .rcx 0 := by
    intro p room
    exact ⟨rfl, rfl, rfl, rfl, rfl, rfl, rfl, room, fun _ _ => rfl⟩
  obtain ⟨q, run, installed, _, flags, _⟩ := tables_installed
    (fun _ p => p.set .rcx 0) (fun _ => isCompiled) true
    ⟨⟨fun _ => 0x9000, fun _ => 0, false⟩, 0x5000, 0x2, 0x28, 0x30, fun _ => 0x30,
      ⟨0x37, 0x6000⟩, ⟨0, 0⟩⟩ 0x1000 0x2000 0x100010 0x5080 (by decide) ⟨by decide, by decide⟩
    (by decide) (by decide) (by decide)
    ⟨by
      intro a inTables
      rw [InTables, size, size'] at inTables
      rw [StackRange.Mem]
      bv_omega,
    by
      intro k inside
      bv_omega⟩
  refine ⟨q, run, installed.cs, ?_⟩
  have bit : ((0x2 ||| interruptBit) &&& ~~~arithmeticBits).getLsbD 9 = true := by decide
  rw [← flags, BitVec.getLsbD_and, Bool.and_eq_true] at bit
  exact bit.1

end Drastic
