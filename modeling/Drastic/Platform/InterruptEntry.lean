import Drastic.Base
import Drastic.Library.X86

namespace Drastic

open Library.X86
open Library.WordMemory Library.WordStack

/-! The code before and after an interrupt handler, `system_idt.S`. -/

inductive Symbol where
  | systemIdtInterruptStub
  | systemIdtInterruptHandler
  deriving DecidableEq, Repr

def systemIdtInterruptStub : List (Instr Symbol) :=
  [.push .rax,
   .push .rbx,
   .push .rcx,
   .push .rdx,
   .push .rsi,
   .push .rdi,
   .push .rbp,
   .push .r8,
   .push .r9,
   .push .r10,
   .push .r11,
   .push .r12,
   .push .r13,
   .push .r14,
   .push .r15,
   .cld,
   .mov .rsp .rdi,
   .mov .rsp .rax,
   .and (-16#64) .rsp,
   .sub 8 .rsp,
   .push .rax,
   .call .systemIdtInterruptHandler,
   .pop .rsp,
   .pop .r15,
   .pop .r14,
   .pop .r13,
   .pop .r12,
   .pop .r11,
   .pop .r10,
   .pop .r9,
   .pop .r8,
   .pop .rbp,
   .pop .rdi,
   .pop .rsi,
   .pop .rdx,
   .pop .rcx,
   .pop .rbx,
   .pop .rax,
   .add 16 .rsp,
   .iretq]

def isrNoErr (vector : Nat) : List (Instr Symbol) :=
  [.pushImm 0, .pushImm (BitVec.ofNat 64 vector), .jmp .systemIdtInterruptStub]

def isrErr (vector : Nat) : List (Instr Symbol) :=
  [.pushImm (BitVec.ofNat 64 vector), .jmp .systemIdtInterruptStub]

def systemIdtIsrStubs : List (List (Instr Symbol)) :=
  [isrNoErr 0, isrNoErr 1, isrNoErr 2, isrNoErr 3, isrNoErr 4, isrNoErr 5, isrNoErr 6,
   isrNoErr 7,
   isrErr 8,
   isrNoErr 9,
   isrErr 10, isrErr 11, isrErr 12, isrErr 13, isrErr 14,
   isrNoErr 15, isrNoErr 16,
   isrErr 17,
   isrNoErr 18, isrNoErr 19, isrNoErr 20,
   isrErr 21,
   isrNoErr 22, isrNoErr 23, isrNoErr 24, isrNoErr 25, isrNoErr 26, isrNoErr 27, isrNoErr 28,
   isrErr 29, isrErr 30,
   isrNoErr 31] ++
  (List.range 224).map (fun i => isrNoErr (32 + i))

def interruptEntry (vector : Nat) (m : Machine) : Exit Symbol :=
  match run (systemIdtIsrStubs.getD vector []) m with
  | .jmp .systemIdtInterruptStub m => run systemIdtInterruptStub m
  | other => other

structure SystemIdtInterruptStackFrame where
  r15 : U64
  r14 : U64
  r13 : U64
  r12 : U64
  r11 : U64
  r10 : U64
  r9 : U64
  r8 : U64
  rbp : U64
  rdi : U64
  rsi : U64
  rdx : U64
  rcx : U64
  rbx : U64
  rax : U64
  vector : U64
  errorCode : U64
  rip : U64
  cs : U64
  rflags : U64
  rsp : U64
  ss : U64
  deriving DecidableEq, Repr

/-- The struct at an address: its fields follow each other without padding. -/
def stackFrameAt (memory : ByteMemory) (address : Uintptr) : SystemIdtInterruptStackFrame :=
  let field (k : Nat) : U64 := readWord memory (address + BitVec.ofNat 64 (8 * k))
  { r15 := field 0, r14 := field 1, r13 := field 2, r12 := field 3, r11 := field 4,
    r10 := field 5, r9 := field 6, r8 := field 7, rbp := field 8, rdi := field 9,
    rsi := field 10, rdx := field 11, rcx := field 12, rbx := field 13, rax := field 14,
    vector := field 15, errorCode := field 16, rip := field 17, cs := field 18,
    rflags := field 19, rsp := field 20, ss := field 21 }

def errorCodeVectors : List Nat := [8, 10, 11, 12, 13, 14, 17, 21, 29, 30]

structure Pushed where
  errorCode : U64
  rip : U64
  cs : U64
  rflags : U64
  rsp : U64
  ss : U64

variable {vector : Nat} {m : Machine} {pushed : Pushed}

def Pushed.returnWords (pushed : Pushed) : List U64 :=
  [pushed.rip, pushed.cs, pushed.rflags, pushed.rsp, pushed.ss]

def Pushed.words (pushed : Pushed) (vector : Nat) : List U64 :=
  if vector ∈ errorCodeVectors then pushed.errorCode :: pushed.returnWords
  else pushed.returnWords

def interruptedFrame (vector : Nat) (m : Machine) (pushed : Pushed) :
    SystemIdtInterruptStackFrame where
  r15 := m.regs .r15
  r14 := m.regs .r14
  r13 := m.regs .r13
  r12 := m.regs .r12
  r11 := m.regs .r11
  r10 := m.regs .r10
  r9 := m.regs .r9
  r8 := m.regs .r8
  rbp := m.regs .rbp
  rdi := m.regs .rdi
  rsi := m.regs .rsi
  rdx := m.regs .rdx
  rcx := m.regs .rcx
  rbx := m.regs .rbx
  rax := m.regs .rax
  vector := BitVec.ofNat 64 vector
  errorCode := if vector ∈ errorCodeVectors then pushed.errorCode else 0
  rip := pushed.rip
  cs := pushed.cs
  rflags := pushed.rflags
  rsp := pushed.rsp
  ss := pushed.ss

def entryBytes (vector : Nat) : Nat := if vector ∈ errorCodeVectors then 128 else 136

theorem stub_shape (isVector : vector < 256) :
    systemIdtIsrStubs.getD vector [] =
      if vector ∈ errorCodeVectors then isrErr vector else isrNoErr vector := by
  by_cases exception : vector < 32
  · have exceptions : ∀ v < 32, systemIdtIsrStubs.getD v [] =
        if v ∈ errorCodeVectors then isrErr v else isrNoErr v := by decide
    exact exceptions vector exception
  · have usual : vector ∉ errorCodeVectors := by
      have small : ∀ v ∈ errorCodeVectors, v < 32 := by decide
      exact fun member => exception (small vector member)
    have from32 : 32 ≤ vector := Nat.le_of_not_lt exception
    rw [if_neg usual, systemIdtIsrStubs, List.getD_eq_getElem?_getD,
      List.getElem?_append_right from32, List.getElem?_map]
    change Option.getD (Option.map _ (List.range 224)[vector - 32]?) [] = _
    rw [List.getElem?_range (by omega), Option.map_some, Option.getD_some,
      Nat.add_sub_cancel' from32]

theorem stub_run (isVector : vector < 256) (onStack : m.Holds (pushed.words vector))
    (room : 16 ≤ (m.regs .rsp).toNat) :
    ∃ m', run (systemIdtIsrStubs.getD vector []) m = .jmp .systemIdtInterruptStub m' ∧
      m'.Holds (BitVec.ofNat 64 vector ::
        (if vector ∈ errorCodeVectors then pushed.errorCode else 0) :: pushed.returnWords) ∧
      (m'.regs .rsp).toNat + entryBytes vector = (m.regs .rsp).toNat + 120 ∧
      ∀ r, r ≠ .rsp → m'.regs r = m.regs r := by
  rw [stub_shape isVector]
  by_cases withCode : vector ∈ errorCodeVectors
  · rw [Pushed.words, if_pos withCode] at onStack
    rw [if_pos withCode, if_pos withCode, entryBytes, if_pos withCode]
    refine ⟨m.push (BitVec.ofNat 64 vector), rfl, onStack.push (by omega) _, ?_, ?_⟩
    · rw [Machine.push_rsp]
      bv_omega
    · intro r other
      exact m.push_other other _
  · rw [Pushed.words, if_neg withCode] at onStack
    rw [if_neg withCode, if_neg withCode, entryBytes, if_neg withCode]
    have afterZero : ((m.push 0).regs .rsp).toNat + 8 = (m.regs .rsp).toNat := by
      rw [Machine.push_rsp]
      bv_omega
    refine ⟨(m.push 0).push (BitVec.ofNat 64 vector), rfl,
      (onStack.push (by omega) 0).push (by omega) _, ?_, ?_⟩
    · rw [Machine.push_rsp]
      bv_omega
    · intro r other
      rw [Machine.push_other _ other, Machine.push_other _ other]

def savedRegisters : List Reg :=
  [.rax, .rbx, .rcx, .rdx, .rsi, .rdi, .rbp, .r8, .r9, .r10, .r11, .r12, .r13, .r14, .r15]

theorem savedRegisters_all {r : Reg} (other : r ≠ .rsp) : r ∈ savedRegisters := by
  cases r <;> first | decide | exact absurd rfl other

def interruptExit : List (Instr Symbol) :=
  .pop .rsp :: (savedRegisters.reverse.map Instr.pop ++ [.add 16 .rsp, .iretq])

def interruptCall : List (Instr Symbol) :=
  .cld :: .mov .rsp .rdi :: .mov .rsp .rax :: .and (-16#64) .rsp :: .sub 8 .rsp :: .push .rax ::
    .call .systemIdtInterruptHandler :: interruptExit

theorem systemIdtInterruptStub_shape :
    systemIdtInterruptStub = savedRegisters.map Instr.push ++ interruptCall := rfl

theorem interruptCall_run (m : Machine) :
    ∃ atCall, run interruptCall m = .call .systemIdtInterruptHandler atCall interruptExit ∧
      atCall.regs .rdi = m.regs .rsp ∧
      atCall.regs .rsp = (m.regs .rsp &&& -16#64) - 8 - 8 ∧
      atCall.memory = writeWord m.memory ((m.regs .rsp &&& -16#64) - 8 - 8) (m.regs .rsp) ∧
      atCall.directionFlag = false :=
  ⟨_, rfl, rfl, rfl, rfl, rfl⟩

theorem and_sixteen (x : U64) : (x &&& -16#64).toNat = x.toNat / 16 * 16 := by
  have mask : ∀ i < 64, (-16#64).getLsbD i = decide (4 ≤ i) := by decide
  have shifted : x &&& -16#64 = (x >>> 4) <<< 4 := by
    apply BitVec.eq_of_getLsbD_eq
    intro i inside
    rw [BitVec.getLsbD_and, mask i inside, BitVec.getLsbD_shiftLeft, BitVec.getLsbD_ushiftRight]
    by_cases high : 4 ≤ i
    · simp [high, inside]
    · simp [high]
  have bound := x.isLt
  rw [shifted, BitVec.toNat_shiftLeft, BitVec.toNat_ushiftRight, Nat.shiftRight_eq_div_pow,
    Nat.shiftLeft_eq]
  omega

/-- At the call the frame is on the stack, `rdi` points to it, and so does the word that the
exit loads into `rsp`. -/
structure AtCall (frame : List U64) (atCall : Machine) : Prop where
  onStack : Stack atCall.memory (atCall.regs .rdi) frame
  aligned : (atCall.regs .rsp).toNat % 16 = 0
  below : (atCall.regs .rsp).toNat + 16 ≤ (atCall.regs .rdi).toNat
  loaded : readWord atCall.memory (atCall.regs .rsp) = atCall.regs .rdi
  directionFlag : atCall.directionFlag = false

theorem systemIdtInterruptStub_run {words : List U64} (holds : m.Holds words)
    (room : 120 + 16 ≤ (m.regs .rsp).toNat) :
    ∃ atCall, run systemIdtInterruptStub m =
        .call .systemIdtInterruptHandler atCall interruptExit ∧
      AtCall ((savedRegisters.map m.regs).reverse ++ words) atCall ∧
      (atCall.regs .rdi).toNat + 120 = (m.regs .rsp).toNat := by
  have count : 8 * savedRegisters.length = 120 := rfl
  obtain ⟨saved, frame, _⟩ := pushAll_spec savedRegisters (by decide) m holds (by omega)
  obtain ⟨atCall, run, rdi, rsp, memory, directionFlag⟩ :=
    interruptCall_run (pushAll savedRegisters m)
  have mask := and_sixteen ((pushAll savedRegisters m).regs .rsp)
  rw [← rdi] at frame rsp memory mask
  have callRsp : (atCall.regs .rsp).toNat + 16 = (atCall.regs .rdi).toNat / 16 * 16 := by
    rw [rsp]
    bv_omega
  refine ⟨atCall, ?_, ⟨?_, by omega, by omega, ?_, directionFlag⟩, by omega⟩
  · rw [systemIdtInterruptStub_shape, run_pushAll]
    exact run
  · rw [rdi, memory, ← rsp]
    apply saved.congr
    intro a above _
    have apart : ¬ (a - atCall.regs .rsp).toNat < 8 := by
      rw [← rdi] at above
      bv_omega
    rw [writeWord, if_neg apart]
  · rw [memory, ← rsp]
    exact readWord_writeWord _ _ _

/-- The handler may use every register and all memory below `rsp`. -/
structure HandlerReturned (atCall returned : Machine) : Prop where
  rsp : returned.regs .rsp = atCall.regs .rsp
  memory : ∀ a, atCall.regs .rsp ≤ a → returned.memory a = atCall.memory a

/-- What the exit reads is as it was at the call: the words from `rsp` to the end of the frame. -/
structure FrameKept (size : Nat) (atCall returned : Machine) : Prop where
  rsp : returned.regs .rsp = atCall.regs .rsp
  memory : ∀ a, atCall.regs .rsp ≤ a → a.toNat < (atCall.regs .rdi).toNat + size →
    returned.memory a = atCall.memory a

theorem HandlerReturned.frameKept {atCall returned : Machine}
    (back : HandlerReturned atCall returned) (size : Nat) : FrameKept size atCall returned :=
  ⟨back.rsp, fun a above _ => back.memory a above⟩

theorem interruptExit_run {atCall returned : Machine} {values : Reg → U64}
    {vectorWord codeWord : U64} {words : List U64}
    (call : AtCall ((savedRegisters.map values).reverse ++ vectorWord :: codeWord :: words) atCall)
    (back : FrameKept (8 * (17 + words.length)) atCall returned) :
    ∃ last, run interruptExit returned = .iretq last ∧
      (∀ r, r ≠ .rsp → last.regs r = values r) ∧ last.Holds words ∧
      last.regs .rsp = atCall.regs .rdi + 136 := by
  have below := call.below
  have loaded : (returned.pop .rsp).regs .rsp = atCall.regs .rdi := by
    rw [returned.pop_target, back.rsp, ← call.loaded]
    apply readWord_congr
    intro a near
    exact back.memory a (by bv_omega) (by bv_omega)
  have onStack : (returned.pop .rsp).Holds
      (savedRegisters.reverse.map values ++ vectorWord :: codeWord :: words) := by
    rw [Machine.Holds, loaded, List.map_reverse]
    apply call.onStack.congr
    intro a above inside
    have count : savedRegisters.length = 15 := rfl
    simp only [List.length_append, List.length_reverse, List.length_map, List.length_cons, count]
      at inside
    exact back.memory a (by bv_omega) (by omega)
  obtain ⟨rest, rsp, restored, _⟩ :=
    popAll_spec savedRegisters.reverse (by decide) values (returned.pop .rsp) onStack
  generalize popped : popAll savedRegisters.reverse (returned.pop .rsp) = m at rest rsp restored
  refine ⟨m.set .rsp (m.regs .rsp + 16), ?_, ?_, ?_, ?_⟩
  · rw [interruptExit, run, run_popAll, popped]
    rfl
  · intro r other
    rw [m.set_other other]
    exact restored r (List.mem_reverse.mpr (savedRegisters_all other))
  · have after := Stack.pop (Stack.pop rest)
    rw [BitVec.add_assoc] at after
    rw [Machine.Holds, m.set_self]
    exact after
  · rw [m.set_self, rsp, loaded, BitVec.add_assoc]
    rfl

theorem stackFrameAt_stack {memory : ByteMemory} {address : Uintptr}
    (stack : Stack memory address ((savedRegisters.map m.regs).reverse ++
      BitVec.ofNat 64 vector :: (if vector ∈ errorCodeVectors then pushed.errorCode else 0) ::
      pushed.returnWords)) :
    stackFrameAt memory address = interruptedFrame vector m pushed := by
  have word := stack.word
  have field (k : Nat) (inside : k < 22) := word k inside
  simp only [stackFrameAt, interruptedFrame, SystemIdtInterruptStackFrame.mk.injEq]
  exact ⟨field 0 (by decide), field 1 (by decide), field 2 (by decide), field 3 (by decide),
    field 4 (by decide), field 5 (by decide), field 6 (by decide), field 7 (by decide),
    field 8 (by decide), field 9 (by decide), field 10 (by decide), field 11 (by decide),
    field 12 (by decide), field 13 (by decide), field 14 (by decide), field 15 (by decide),
    field 16 (by decide), field 17 (by decide), field 18 (by decide), field 19 (by decide),
    field 20 (by decide), field 21 (by decide)⟩

/-- The handler sees the interrupted machine in its frame, and its return undoes the entry. -/
theorem interrupt_entry_and_exit (isVector : vector < 256)
    (onStack : m.Holds (pushed.words vector))
    (room : entryBytes vector + 16 ≤ (m.regs .rsp).toNat) :
    ∃ atCall code,
      interruptEntry vector m = .call .systemIdtInterruptHandler atCall code ∧
      stackFrameAt atCall.memory (atCall.regs .rdi) = interruptedFrame vector m pushed ∧
      (atCall.regs .rdi).toNat + entryBytes vector = (m.regs .rsp).toNat ∧
      (atCall.regs .rsp).toNat % 16 = 0 ∧
      atCall.directionFlag = false ∧
      ∀ returned, HandlerReturned atCall returned → ∃ last,
        run code returned = .iretq last ∧
        (∀ r, r ≠ .rsp → last.regs r = m.regs r) ∧
        last.Holds pushed.returnWords ∧
        last.regs .rsp = m.regs .rsp + if vector ∈ errorCodeVectors then 8 else 0 := by
  have small : 128 ≤ entryBytes vector := by
    unfold entryBytes
    split <;> decide
  obtain ⟨jumped, stub, holds, lower, general⟩ := stub_run isVector onStack (by omega)
  obtain ⟨atCall, entry, call, rdi⟩ := systemIdtInterruptStub_run holds (by omega)
  have same : savedRegisters.map jumped.regs = savedRegisters.map m.regs := by
    apply List.map_congr_left
    intro r member
    apply general
    rintro rfl
    revert member
    decide
  rw [same] at call
  refine ⟨atCall, interruptExit, ?_, stackFrameAt_stack call.onStack, by omega, call.aligned,
    call.directionFlag, ?_⟩
  · rw [interruptEntry, stub]
    exact entry
  · intro returned back
    obtain ⟨last, run, restored, returnWords, rsp⟩ := interruptExit_run call (back.frameKept _)
    refine ⟨last, run, restored, returnWords, ?_⟩
    rw [rsp]
    unfold entryBytes at lower
    split at lower
    case isTrue withCode =>
      rw [if_pos withCode]
      bv_omega
    case isFalse without =>
      rw [if_neg without]
      bv_omega

def Pushed.push (pushed : Pushed) (vector : Nat) (m : Machine) : Machine :=
  (pushed.words vector).reverse.foldl Machine.push m

theorem interrupt_entry_and_exit_sample :
    ∃ atCall code,
      interruptEntry 14 (Pushed.push ⟨5, 0x400000, 0x23, 0x246, 0x7000, 0x1b⟩ 14
        ⟨fun _ => 0x8000, fun _ => 0, true⟩) =
          .call .systemIdtInterruptHandler atCall code ∧
      (stackFrameAt atCall.memory (atCall.regs .rdi)).errorCode = 5 ∧
      (atCall.regs .rsp).toNat % 16 = 0 := by
  have start : Machine.Holds ⟨fun _ => 0x8000, fun _ => 0, true⟩ [] := ⟨by decide, by simp⟩
  have onStack : Machine.Holds (Pushed.push ⟨5, 0x400000, 0x23, 0x246, 0x7000, 0x1b⟩ 14
      ⟨fun _ => 0x8000, fun _ => 0, true⟩)
      (Pushed.words ⟨5, 0x400000, 0x23, 0x246, 0x7000, 0x1b⟩ 14) :=
    (((((start.push (by decide) 0x1b).push (by decide) 0x7000).push (by decide) 0x246).push
      (by decide) 0x23).push (by decide) 0x400000).push (by decide) 5
  obtain ⟨atCall, code, entry, frame, _, aligned, _⟩ :=
    @interrupt_entry_and_exit 14 _ _ (by decide) onStack (by decide)
  refine ⟨atCall, code, entry, ?_, aligned⟩
  rw [frame]
  rfl

end Drastic
