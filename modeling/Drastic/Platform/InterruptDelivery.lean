import Drastic.Platform.StubLayout
import Drastic.Platform.SystemTables

namespace Drastic

open Library.X86
open Library.WordMemory Library.WordStack

/-! An interrupt of the kernel, from the processor through the tables and the stub to the handler
and back. The stubs start behind code that ends at `textEnd`. -/

def pushedBy (p : Processor) (errorCode : U64) : Pushed where
  errorCode := errorCode
  rip := p.rip
  cs := p.cs.setWidth 64
  rflags := p.flagsWord
  rsp := p.regs .rsp
  ss := p.ss.setWidth 64

def takeInterrupt (longJump : Nat → Bool) (textEnd : Nat) (p : Processor) (vector : Nat)
    (errorCode : U64) : Option (Processor × Exit Symbol) := do
  let entered ← p.deliver vector (if vector ∈ errorCodeVectors then some errorCode else none)
  let stub ← stubAt longJump textEnd entered.rip
  match run stub entered.toMachine with
  | .jmp .systemIdtInterruptStub m => return (entered, run systemIdtInterruptStub m)
  | other => return (entered, other)

def leaveInterrupt (entered : Processor) (code : List (Instr Symbol)) (returned : Machine) :
    Option Processor :=
  match run code returned with
  | .iretq m => { entered with toMachine := m }.interruptReturn
  | _ => none

/-- A whole interrupt; the handler takes the machine at its call to the one at its return. -/
def serveInterrupt (longJump : Nat → Bool) (textEnd : Nat) (handler : Machine → Machine)
    (p : Processor) (vector : Nat) (errorCode : U64) : Option Processor := do
  match ← takeInterrupt longJump textEnd p vector errorCode with
  | (entered, .call .systemIdtInterruptHandler atCall code) =>
    leaveInterrupt entered code (handler atCall)
  | _ => none

def systemIdtIsrStub0 (textEnd : Nat) : Uintptr := BitVec.ofNat 64 (alignUp textEnd 16)

variable {p entered : Processor} {vector textEnd : Nat} {errorCode : U64}
  {gdtData idtData : Uintptr} {longJump : Nat → Bool} {m m' : Machine}

theorem interruptWords_pushed (p : Processor) (vector : Nat) (errorCode : U64) :
    p.interruptWords (if vector ∈ errorCodeVectors then some errorCode else none) =
      (pushedBy p errorCode).words vector := by
  unfold Pushed.words
  split <;> rfl

structure GrewBy (size : Nat) (m m' : Machine) : Prop where
  lower : (m'.regs .rsp).toNat ≤ (m.regs .rsp).toNat
  near : (m.regs .rsp).toNat ≤ (m'.regs .rsp).toNat + size
  memory : ∀ a, a < m'.regs .rsp ∨ m.regs .rsp ≤ a → m'.memory a = m.memory a

theorem GrewBy.trans {m'' : Machine} {size size' : Nat} (first : GrewBy size m m')
    (second : GrewBy size' m' m'') : GrewBy (size + size') m m'' := by
  have lower := first.lower
  have lower' := second.lower
  have near := first.near
  have near' := second.near
  refine ⟨by omega, by omega, ?_⟩
  intro a outside
  rw [second.memory a (by bv_omega), first.memory a (by bv_omega)]

theorem GrewBy.refl (m : Machine) : GrewBy 0 m m := ⟨Nat.le_refl _, Nat.le_refl _, fun _ _ => rfl⟩

theorem GrewBy.push (m : Machine) (room : 8 ≤ (m.regs .rsp).toNat) (value : U64) :
    GrewBy 8 m (m.push value) := by
  have rsp := m.push_rsp value
  refine ⟨by rw [rsp]; bv_omega, by rw [rsp]; bv_omega, ?_⟩
  intro a outside
  rw [rsp] at outside
  exact m.push_outside room value outside

theorem GrewBy.pushAll (list : List Reg) (m : Machine)
    (room : 8 * list.length ≤ (m.regs .rsp).toNat) :
    GrewBy (8 * list.length) m (pushAll list m) := by
  induction list generalizing m with
  | nil => exact .refl m
  | cons r rest ih =>
      rw [List.length_cons] at room ⊢
      have first := GrewBy.push m (by omega) (m.regs r)
      have near := first.near
      have whole := first.trans (ih (m.push (m.regs r)) (by omega))
      rwa [Nat.mul_succ, Nat.add_comm]

theorem stub_grows (isVector : vector < 256) (room : 16 ≤ (m.regs .rsp).toNat) :
    ∃ m', run (systemIdtIsrStubs.getD vector []) m = .jmp .systemIdtInterruptStub m' ∧
      GrewBy 16 m m' := by
  have wider {m' : Machine} (grew : GrewBy 8 m m') : GrewBy 16 m m' :=
    ⟨grew.lower, Nat.le_trans grew.near (by omega), grew.memory⟩
  rw [stub_shape isVector]
  by_cases withCode : vector ∈ errorCodeVectors
  · rw [if_pos withCode]
    exact ⟨m.push (BitVec.ofNat 64 vector), rfl, wider (.push m (by omega) _)⟩
  · rw [if_neg withCode]
    have first := GrewBy.push m (by omega) 0
    have near := first.near
    exact ⟨(m.push 0).push (BitVec.ofNat 64 vector), rfl, first.trans (.push _ (by omega) _)⟩

theorem systemIdtInterruptStub_grows (room : 120 + 31 ≤ (m.regs .rsp).toNat) :
    ∃ atCall code, run systemIdtInterruptStub m =
        .call .systemIdtInterruptHandler atCall code ∧ GrewBy (120 + 31) m atCall := by
  have count : 8 * savedRegisters.length = 120 := rfl
  have saved := GrewBy.pushAll savedRegisters m (by omega)
  obtain ⟨atCall, run, _, rsp, memory, _⟩ := interruptCall_run (pushAll savedRegisters m)
  have mask := and_sixteen ((pushAll savedRegisters m).regs .rsp)
  have near := saved.near
  rw [count] at near saved
  have called : GrewBy 31 (pushAll savedRegisters m) atCall := by
    refine ⟨by rw [rsp]; bv_omega, by rw [rsp]; bv_omega, ?_⟩
    intro a outside
    rw [rsp] at outside
    rw [memory, writeWord, if_neg (by bv_omega)]
  refine ⟨atCall, interruptExit, ?_, saved.trans called⟩
  rw [systemIdtInterruptStub_shape, run_pushAll]
  exact run

theorem interruptExit_memory (m : Machine) :
    ∃ last, run interruptExit m = .iretq last ∧ last.memory = m.memory := by
  have popped (list : List Reg) (m : Machine) : (popAll list m).memory = m.memory := by
    induction list generalizing m with
    | nil => rfl
    | cons r rest ih => exact ih (m.pop r)
  generalize restored : popAll savedRegisters.reverse (m.pop .rsp) = after
  refine ⟨after.set .rsp (after.regs .rsp + 16), ?_, ?_⟩
  · rw [interruptExit, run, run_popAll, restored]
    rfl
  · change after.memory = _
    rw [← restored]
    exact popped savedRegisters.reverse (m.pop .rsp)

/-- The stubs are at addresses the processor accepts. -/
structure StubsPlaced (textEnd : Nat) : Prop where
  fits : alignUp textEnd 16 + 4096 ≤ 2 ^ 64
  canonical : ∀ vector < 256,
    IsCanonical (systemIdtIsrStub0 textEnd + BitVec.ofNat 64 (vector * 16))

structure Entered (p : Processor) (vector : Nat) (errorCode : U64) (entered : Processor) :
    Prop where
  onStack : entered.Holds ((pushedBy p errorCode).words vector)
  rsp : (entered.regs .rsp).toNat + 8 * ((pushedBy p errorCode).words vector).length =
    (p.regs .rsp).toNat / 16 * 16
  grew : GrewBy 63 (p.markAccessed 0x08#16).toMachine entered.toMachine
  regs : ∀ r, r ≠ .rsp → entered.regs r = p.regs r
  cs : entered.cs = 0x08#16
  ss : entered.ss = p.ss
  segments : entered.segments = p.segments
  gdtr : entered.gdtr = p.gdtr
  idtr : entered.idtr = p.idtr
  nested : entered.rflags &&& nestedBit = 0#64
  disabled : entered.rflags &&& interruptBit = 0#64

theorem words_length (pushed : Pushed) (vector : Nat) :
    8 * (pushed.words vector).length + entryBytes vector = 176 := by
  unfold Pushed.words entryBytes
  split <;> rfl

theorem deliver_enters
    (installed : TablesInstalled gdtData idtData (systemIdtIsrStub0 textEnd) p)
    (placed : StubsPlaced textEnd) (isVector : vector < 256) (errorCode : U64)
    (room : 63 ≤ (p.regs .rsp).toNat) :
    ∃ entered, p.deliver vector (if vector ∈ errorCodeVectors then some errorCode else none) =
        some entered ∧
      entered.rip = systemIdtIsrStub0 textEnd + BitVec.ofNat 64 (vector * 16) ∧
      Entered p vector errorCode entered := by
  have inner : p.cpl = 0 := by
    rw [Processor.cpl, installed.cs]
    rfl
  have words := interruptWords_pushed p vector errorCode
  have count := words_length (pushedBy p errorCode) vector
  have most : 128 ≤ entryBytes vector := by
    unfold entryBytes
    split <;> decide
  have mask := and_sixteen (p.regs .rsp)
  have allowed : p.GateAllowed {
      handler := systemIdtIsrStub0 textEnd + BitVec.ofNat 64 (vector * 16)
      selector := 0x08#16, ist := 0#8, gateType := 0xE#8, dpl := 0#8, present := true } := by
    refine ⟨rfl, .inl rfl, rfl, ?_, placed.canonical vector isVector⟩
    rw [inner]
    exact installed.kcode
  obtain ⟨entered, deliver, delivered⟩ := Processor.deliver_ok (installed.gate isVector) allowed
    (by rw [words, mask]; omega)
  have pushed := delivered.pushed
  rw [words] at pushed
  have aligned := Machine.set_self (p.markAccessed 0x08#16).toMachine .rsp (p.regs .rsp &&& -16#64)
  have rsp := pushed.rsp
  rw [aligned, mask] at rsp
  have same : (p.markAccessed 0x08#16).regs .rsp = p.regs .rsp := rfl
  refine ⟨entered, deliver, delivered.rip, ?_, rsp, ⟨?_, ?_, ?_⟩, ?_, ?_, delivered.ss,
    delivered.segments, delivered.gdtr, delivered.idtr, delivered.nested, ?_⟩
  · have holds := pushed.onStack
    rwa [List.append_nil] at holds
  · rw [same]
    omega
  · rw [same]
    omega
  · intro a outside
    rw [same] at outside
    rw [pushed.memory a (by rw [aligned]; bv_omega)]
    rfl
  · intro r other
    exact (pushed.regs r other).trans (Machine.set_other _ other _)
  · have selector : (0x08#16).extractLsb' 2 14 ++ BitVec.ofNat 2 0 = 0x08#16 := by decide
    have cs := delivered.cs
    rw [inner] at cs
    exact cs.trans selector
  · have covered : ∀ gate : InterruptGate, gate.gateType = 0xE#8 →
        ~~~Processor.clearedFlags gate &&& interruptBit = 0#64 := by
      intro gate isInterrupt
      rw [Processor.clearedFlags, if_pos isInterrupt]
      decide
    rw [delivered.rflags, BitVec.and_assoc, covered _ rfl, BitVec.and_zero]

theorem stub_calls {pushed : Pushed} (isVector : vector < 256)
    (onStack : m.Holds (pushed.words vector)) (room : 167 ≤ (m.regs .rsp).toNat) :
    ∃ jumped atCall,
      run (systemIdtIsrStubs.getD vector []) m = .jmp .systemIdtInterruptStub jumped ∧
      run systemIdtInterruptStub jumped =
        .call .systemIdtInterruptHandler atCall interruptExit ∧
      AtCall ((savedRegisters.map m.regs).reverse ++ BitVec.ofNat 64 vector ::
        (if vector ∈ errorCodeVectors then pushed.errorCode else 0) :: pushed.returnWords) atCall ∧
      (atCall.regs .rdi).toNat + entryBytes vector = (m.regs .rsp).toNat ∧
      GrewBy 167 m atCall := by
  obtain ⟨jumped, stub, holds, lower, kept⟩ := stub_run isVector onStack (by omega)
  obtain ⟨_, stub', grew⟩ := stub_grows isVector (show 16 ≤ (m.regs .rsp).toNat by omega)
  cases stub.symm.trans stub'
  have near := grew.near
  obtain ⟨atCall, entry, called, rdi⟩ := systemIdtInterruptStub_run holds (by omega)
  obtain ⟨_, _, entry', grew'⟩ := systemIdtInterruptStub_grows
    (show 120 + 31 ≤ (jumped.regs .rsp).toNat by omega)
  cases entry.symm.trans entry'
  have saved : savedRegisters.map jumped.regs = savedRegisters.map m.regs := by
    apply List.map_congr_left
    intro r member
    have other : r ≠ .rsp := by
      rintro rfl
      revert member
      decide
    exact kept r other
  rw [saved] at called
  exact ⟨jumped, atCall, stub, entry, called, by omega, grew.trans grew'⟩

/-- What the handler of a vector finds. Of the tables only an accessed bit has changed. -/
structure AtHandler (p : Processor) (vector : Nat) (errorCode : U64) (entered : Processor)
    (atCall : Machine) : Prop where
  call : AtCall ((savedRegisters.map p.regs).reverse ++ BitVec.ofNat 64 vector ::
    (if vector ∈ errorCodeVectors then errorCode else 0) :: (pushedBy p errorCode).returnWords)
    atCall
  rdi : (atCall.regs .rdi).toNat + 176 ≤ (p.regs .rsp).toNat
  grew : GrewBy 230 (p.markAccessed 0x08#16).toMachine atCall
  cs : entered.cs = 0x08#16
  ss : entered.ss = p.ss
  segments : entered.segments = p.segments
  gdtr : entered.gdtr = p.gdtr
  idtr : entered.idtr = p.idtr
  nested : entered.rflags &&& nestedBit = 0#64
  disabled : entered.rflags &&& interruptBit = 0#64

theorem takeInterrupt_ok (longJump : Nat → Bool)
    (installed : TablesInstalled gdtData idtData (systemIdtIsrStub0 textEnd) p)
    (placed : StubsPlaced textEnd) (isVector : vector < 256) (errorCode : U64)
    (room : 256 ≤ (p.regs .rsp).toNat) :
    ∃ entered atCall, takeInterrupt longJump textEnd p vector errorCode =
        some (entered, .call .systemIdtInterruptHandler atCall interruptExit) ∧
      AtHandler p vector errorCode entered atCall := by
  obtain ⟨entered, deliver, rip, enters⟩ :=
    deliver_enters installed placed isVector errorCode (by omega)
  have near : (p.regs .rsp).toNat ≤ (entered.regs .rsp).toNat + 63 := enters.grew.near
  obtain ⟨jumped, atCall, stub, entry, called, rdi, grew⟩ :=
    stub_calls isVector enters.onStack (by omega)
  have count := words_length (pushedBy p errorCode) vector
  have rsp := enters.rsp
  have saved : savedRegisters.map entered.regs = savedRegisters.map p.regs := by
    apply List.map_congr_left
    intro r member
    have other : r ≠ .rsp := by
      rintro rfl
      revert member
      decide
    exact enters.regs r other
  rw [saved] at called
  have run : takeInterrupt longJump textEnd p vector errorCode =
      some (entered, .call .systemIdtInterruptHandler atCall interruptExit) := by
    rw [takeInterrupt, deliver, Option.bind_eq_bind, Option.bind_some, rip, systemIdtIsrStub0,
      stubAt_vector longJump isVector placed.fits, Option.bind_eq_bind, Option.bind_some, stub]
    simp only
    rw [entry]
    rfl
  exact ⟨entered, atCall, run, called, by omega, enters.grew.trans grew, enters.cs, enters.ss,
    enters.segments, enters.gdtr, enters.idtr, enters.nested, enters.disabled⟩

theorem AtHandler.frame {atCall : Machine} (taken : AtHandler p vector errorCode entered atCall) :
    stackFrameAt atCall.memory (atCall.regs .rdi) =
      interruptedFrame vector p.toMachine (pushedBy p errorCode) :=
  stackFrameAt_stack taken.call.onStack

/-- What a handler that returns leaves as it was: the stack from `rsp` up and the tables, but for
accessed bits. All other memory is its own. -/
structure HandlerKeeps (stack : StackRange) (gdtData idtData : Uintptr)
    (atCall returned : Machine) : Prop where
  rsp : returned.regs .rsp = atCall.regs .rsp
  onStack : ∀ a, atCall.regs .rsp ≤ a → a.toNat < stack.top →
    returned.memory a = atCall.memory a
  gdt : ∀ k < systemGdtDataSize, UpToAccessed k (atCall.memory (gdtData + BitVec.ofNat 64 k))
    (returned.memory (gdtData + BitVec.ofNat 64 k))
  idt : ∀ k < systemIdtDataSize, returned.memory (idtData + BitVec.ofNat 64 k) =
    atCall.memory (idtData + BitVec.ofNat 64 k)

/-- A handler that keeps to the calling convention, on a stack. -/
def IsHandler (stack : StackRange) (gdtData idtData : Uintptr) (handler : Machine → Machine) :
    Prop :=
  ∀ atCall, stack.HasRoom 0 (atCall.regs .rsp) →
    HandlerKeeps stack gdtData idtData atCall (handler atCall)

/-- The interrupted program goes on as if nothing had happened; its stack is as it was. -/
structure Unnoticed (stack : StackRange) (p p' : Processor) : Prop where
  regs : p'.regs = p.regs
  rip : p'.rip = p.rip
  flags : p'.flagsWord = p.flagsWord
  cs : p'.cs = p.cs
  ss : p'.ss = p.ss
  segments : p'.segments = p.segments
  onStack : ∀ a, p.regs .rsp ≤ a → a.toNat < stack.top → p'.memory a = p.memory a

theorem Unnoticed.refl (stack : StackRange) (p : Processor) : Unnoticed stack p p :=
  ⟨rfl, rfl, rfl, rfl, rfl, rfl, fun _ _ _ => rfl⟩

theorem Unnoticed.trans {stack : StackRange} {p' p'' : Processor} (first : Unnoticed stack p p')
    (second : Unnoticed stack p' p'') : Unnoticed stack p p'' := by
  refine ⟨second.regs.trans first.regs, second.rip.trans first.rip,
    second.flags.trans first.flags, second.cs.trans first.cs, second.ss.trans first.ss,
    second.segments.trans first.segments, ?_⟩
  intro a above inside
  rw [second.onStack a (by rw [first.regs]; exact above) inside, first.onStack a above inside]

variable {stack : StackRange} {p' q : Processor} {stub : Uintptr} {atCall returned : Machine}

theorem TablesApart.idt (tables : TablesApart stack gdtData idtData) {k : Nat}
    (inside : k < systemIdtDataSize) :
    systemGdtDataSize ≤ (idtData + BitVec.ofNat 64 k - gdtData).toNat := by
  by_contra overlap
  have size : systemGdtDataSize = 40 := rfl
  have size' : systemIdtDataSize = 4096 := rfl
  have apart := tables.apart (idtData + BitVec.ofNat 64 k - gdtData).toNat (by omega)
  have here : gdtData + BitVec.ofNat 64 (idtData + BitVec.ofNat 64 k - gdtData).toNat =
      idtData + BitVec.ofNat 64 k := by
    bv_omega
  rw [here] at apart
  bv_omega

theorem TablesInstalled.marked (installed : TablesInstalled gdtData idtData stub p)
    (tables : TablesApart stack gdtData idtData) {selector : Selector}
    (inside : selector.toNat < 40) :
    TablesInstalled gdtData idtData stub (p.markAccessed selector) :=
  have marked := markAccessed_gdt installed.gdtr inside
  installed.congr rfl rfl rfl rfl marked.1 fun _ bound => marked.2 _ (tables.idt bound)

theorem AtHandler.tables (taken : AtHandler p vector errorCode entered atCall)
    (installed : TablesInstalled gdtData idtData stub p)
    (tables : TablesApart stack gdtData idtData) (room : stack.HasRoom 256 (p.regs .rsp))
    (keeps : HandlerKeeps stack gdtData idtData atCall returned) :
    TablesInstalled gdtData idtData stub { entered with
      toMachine := { atCall with memory := returned.memory }, ss := p.ss } := by
  have marked := installed.marked tables (show (0x08#16).toNat < 40 by decide)
  have near : (p.regs .rsp).toNat ≤ (atCall.regs .rsp).toNat + 230 := taken.grew.near
  obtain ⟨enough, inside⟩ := room
  have kept (a : Uintptr) (inTables : InTables gdtData idtData a) :
      atCall.memory a = (p.markAccessed 0x08#16).memory a := by
    have outside := tables.notStack a inTables
    rw [StackRange.Mem] at outside
    apply taken.grew.memory a
    rw [show (p.markAccessed 0x08#16).toMachine.regs .rsp = p.regs .rsp from rfl]
    bv_omega
  refine marked.congr taken.gdtr taken.idtr (taken.cs.trans installed.cs.symm) rfl ?_ ?_
  · intro k bound
    have handled := keeps.gdt k bound
    rw [kept _ (inTables_gdt bound)] at handled
    exact handled
  · intro k bound
    exact (keeps.idt k bound).trans (kept _ (inTables_idt bound))

theorem markAccessed_onStack (installed : TablesInstalled gdtData idtData stub p)
    (tables : TablesApart stack gdtData idtData) {selector : Selector}
    (inside : selector.toNat < 40) {a : Uintptr} (onStack : stack.Mem a) :
    (p.markAccessed selector).memory a = p.memory a := by
  apply (markAccessed_gdt installed.gdtr inside).2
  by_contra inTable
  exact tables.notStack a (.inl (Nat.lt_of_not_le inTable)) onStack

theorem leaveInterrupt_ok {handler : Machine → Machine}
    (installed : TablesInstalled gdtData idtData stub p)
    (taken : AtHandler p vector errorCode entered atCall) (canonical : IsCanonical p.rip)
    (tables : TablesApart stack gdtData idtData) (room : stack.HasRoom 256 (p.regs .rsp))
    (isHandler : IsHandler stack gdtData idtData handler) :
    ∃ p', leaveInterrupt entered interruptExit (handler atCall) = some p' ∧
      Unnoticed stack p p' ∧ TablesInstalled gdtData idtData stub p' := by
  have near : (p.regs .rsp).toNat ≤ (atCall.regs .rsp).toNat + 230 := taken.grew.near
  have lower : (atCall.regs .rsp).toNat ≤ (p.regs .rsp).toNat := taken.grew.lower
  obtain ⟨enough, inside⟩ := id room
  have keeps := isHandler atCall ⟨by omega, by omega⟩
  have frame : FrameKept (8 * (17 + (pushedBy p errorCode).returnWords.length)) atCall
      (handler atCall) := by
    refine ⟨keeps.rsp, ?_⟩
    intro a above bound
    have rdi := taken.rdi
    have count : (pushedBy p errorCode).returnWords.length = 5 := rfl
    exact keeps.onStack a above (by omega)
  obtain ⟨last, exit, restored, onStack, _⟩ := interruptExit_run taken.call frame
  obtain ⟨_, exit', memory⟩ := interruptExit_memory (handler atCall)
  cases exit.symm.trans exit'
  let q : Processor := { entered with toMachine := last }
  have handled : TablesInstalled gdtData idtData stub q :=
    (taken.tables installed tables room keeps).congr rfl rfl rfl
      (by rw [installed.ss]; exact taken.ss.trans installed.ss)
      (fun k _ => .inl (congrFun memory _)) fun k _ => congrFun memory _
  have code : p.cs.toNat < 40 := by rw [installed.cs]; decide
  have data : p.ss.toNat < 40 := by rw [installed.ss]; decide
  have marked := handled.marked tables code
  have level : level 0x08#16 = 0 := by decide
  obtain ⟨p', back, resumed⟩ := Processor.interruptReturn_ok (p := p) (q := q) onStack
    taken.nested (by rw [Processor.cpl, handled.cs, level])
    (by rw [Processor.cpl, installed.cs, level])
    (by rw [installed.cs]; exact handled.kcode) (by rw [installed.ss]; exact handled.kstack)
    canonical
  have same : leaveInterrupt entered interruptExit (handler atCall) = some p' := by
    rw [leaveInterrupt, exit]
    exact back
  refine ⟨p', same, ⟨?_, resumed.rip, resumed.flags, resumed.cs, resumed.ss, ?_, ?_⟩, ?_⟩
  · funext r
    by_cases isRsp : r = .rsp
    · rw [isRsp, resumed.rsp]
    · rw [resumed.regs r isRsp]
      exact restored r isRsp
  · exact resumed.segments.trans taken.segments
  · intro a above bound
    have mem : stack.Mem a := ⟨by bv_omega, bound⟩
    calc p'.memory a
      _ = ((q.markAccessed p.cs).markAccessed p.ss).memory a := congrFun resumed.memory a
      _ = (q.markAccessed p.cs).memory a := markAccessed_onStack marked tables data mem
      _ = q.memory a := markAccessed_onStack handled tables code mem
      _ = (handler atCall).memory a := congrFun memory a
      _ = atCall.memory a := keeps.onStack a (by bv_omega) bound
      _ = (p.markAccessed 0x08#16).memory a := taken.grew.memory a (.inr above)
      _ = p.memory a := markAccessed_onStack installed tables (by decide) mem
  · exact (marked.marked tables data).congr (resumed.gdtr) (resumed.idtr)
      (resumed.cs.trans (installed.cs.trans handled.cs.symm))
      (resumed.ss.trans (installed.ss.trans handled.ss.symm))
      (fun k _ => .inl (congrFun resumed.memory _)) fun k _ => congrFun resumed.memory _

def serveInterrupts (longJump : Nat → Bool) (textEnd : Nat) (handler : Machine → Machine)
    (interrupts : List (Nat × U64)) (p : Processor) : Option Processor :=
  interrupts.foldlM (fun p interrupt =>
    serveInterrupt longJump textEnd handler p interrupt.1 interrupt.2) p

def sampleGdtData : Nat → U8 :=
  match systemGdtSetup systemGdt with
  | .ok gdt => gdt.data
  | .error _ => fun _ => 0

def sampleProcessor : Processor where
  regs r := if r = .rsp then 0x8FF8 else 7
  memory := placeArray (placeArray (fun _ => 0) 0x1000 systemGdtDataSize sampleGdtData)
    0x2000 systemIdtDataSize (systemIdtSetup (fun _ => 0) (systemIdtIsrStub0 0x100001))
  directionFlag := true
  rip := 0xFFFFFFFF80000123
  rflags := 0x202
  cs := 0x08
  ss := 0x10
  segments s := if s = .ds ∨ s = .es then 0x10 else 0
  gdtr := ⟨39, 0x1000⟩
  idtr := ⟨4095, 0x2000⟩

theorem sampleProcessor_installed :
    TablesInstalled 0x1000 0x2000 (systemIdtIsrStub0 0x100001) sampleProcessor := by
  have size : systemGdtDataSize = 40 := rfl
  have size' : systemIdtDataSize = 4096 := rfl
  obtain ⟨gdt, setup⟩ : ∃ gdt, systemGdtSetup systemGdt = .ok gdt := ⟨_, rfl⟩
  have data : sampleGdtData = gdt.data := by rw [sampleGdtData, setup]
  refine ⟨⟨rfl, systemGdt.data, gdt, setup, ?_⟩, rfl, ⟨fun _ => 0, ?_⟩, rfl, rfl⟩
  · intro k inside
    rw [← data]
    refine .inl ((placeArray_outside _ _ (by bv_omega)).trans ?_)
    exact placeArray_inside _ _ _ (by decide) inside
  · intro k inside
    exact placeArray_inside _ _ _ (by omega) inside

theorem samplePlaced : StubsPlaced 0x100001 := by
  refine ⟨by decide, ?_⟩
  intro vector isVector
  have first : systemIdtIsrStub0 0x100001 = 0x100010 := rfl
  refine .inl ?_
  rw [first]
  bv_omega

theorem sampleApart : TablesApart ⟨0x8000, 0x9000⟩ 0x1000 0x2000 := by
  have size : systemGdtDataSize = 40 := rfl
  have size' : systemIdtDataSize = 4096 := rfl
  constructor
  · intro a inside
    rw [InTables, size, size'] at inside
    rw [StackRange.Mem]
    bv_omega
  · intro k inside
    bv_omega

/-- A handler that counts in a word of the kernel behind the stack. -/
def countingHandler (m : Machine) : Machine :=
  { m.set .rax 0 with memory := Function.update m.memory 0xA000#64 (m.memory 0xA000#64 + 1) }

theorem countingHandler_isHandler : IsHandler ⟨0x8000, 0x9000⟩ 0x1000 0x2000 countingHandler := by
  have size : systemGdtDataSize = 40 := rfl
  have size' : systemIdtDataSize = 4096 := rfl
  intro atCall _
  have other : Reg.rsp ≠ .rax := by decide
  refine ⟨Machine.set_other atCall other 0, ?_, ?_, ?_⟩
  · intro a _ inside
    exact Function.update_of_ne (by bv_omega) ..
  · intro k inside
    exact .inl (Function.update_of_ne (by bv_omega) ..)
  · intro k inside
    exact Function.update_of_ne (by bv_omega) ..

end Drastic
