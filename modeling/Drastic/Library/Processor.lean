import Drastic.Library.X86

namespace Library.X86

open Library.WordMemory Library.WordStack
open Library.LittleEndian (ofBytes)

/-! Segments, interrupt gates and the transfers of control through them in 64-bit mode, as long
as the privilege level and the stack stay what they are. Where a transfer would end in another
exception, or in a change of stack, the result is `none`. -/

abbrev Byte := BitVec 8
abbrev Selector := BitVec 16

def level (selector : Selector) : Nat := selector.toNat % 4

structure TableRegister where
  limit : BitVec 16
  base : Word
  deriving DecidableEq, Repr

inductive DataSegment where
  | ds | es | fs | gs
  deriving DecidableEq, Repr

/-- The direction flag is kept with the machine and not in `rflags`. -/
structure Processor extends Machine where
  rip : Word
  rflags : Word
  cs : Selector
  ss : Selector
  segments : DataSegment → Selector
  gdtr : TableRegister
  idtr : TableRegister

/-- What 64-bit mode looks at in a descriptor; base and limit do not count there. -/
structure Descriptor where
  access : Byte
  flags : Byte
  deriving DecidableEq, Repr

namespace Descriptor

def present (d : Descriptor) : Bool := d.access.getLsbD 7

def privilege (d : Descriptor) : Nat := (d.access >>> 5 &&& 0b11#8).toNat

def ordinary (d : Descriptor) : Bool := d.access.getLsbD 4

def executable (d : Descriptor) : Bool := d.access.getLsbD 3

def conforming (d : Descriptor) : Bool := d.access.getLsbD 2

def accessible (d : Descriptor) : Bool := d.access.getLsbD 1

def long (d : Descriptor) : Bool := d.flags.getLsbD 1

def big (d : Descriptor) : Bool := d.flags.getLsbD 2

def isCode (d : Descriptor) (privilege : Nat) : Bool :=
  d.present && d.ordinary && d.executable && !d.conforming && d.long && !d.big &&
    d.privilege == privilege

def isStack (d : Descriptor) (privilege : Nat) : Bool :=
  d.present && d.ordinary && !d.executable && d.accessible && d.privilege == privilege

def isData (d : Descriptor) (privilege : Nat) : Bool :=
  d.present && d.ordinary && (!d.executable || d.accessible) && decide (privilege ≤ d.privilege)

end Descriptor

structure InterruptGate where
  handler : Word
  selector : Selector
  ist : Byte
  gateType : Byte
  dpl : Byte
  present : Bool
  deriving DecidableEq, Repr

def interruptGate (byte : Nat → Byte) : InterruptGate where
  handler := BitVec.ofNat 64
    (ofBytes [byte 0, byte 1, byte 6, byte 7, byte 8, byte 9, byte 10, byte 11])
  selector := BitVec.ofNat 16 (ofBytes [byte 2, byte 3])
  ist := byte 4 &&& 0b111#8
  gateType := byte 5 &&& 0b1111#8
  dpl := byte 5 >>> 5 &&& 0b11#8
  present := (byte 5).getLsbD 7

/-- Addresses whose upper 17 bits are alike. -/
def IsCanonical (address : Word) : Prop :=
  address.toNat < 2 ^ 47 ∨ 2 ^ 64 - 2 ^ 47 ≤ address.toNat

instance (address : Word) : Decidable (IsCanonical address) :=
  inferInstanceAs (Decidable (_ ∨ _))

def directionBit : Word := 1#64 <<< 10
def interruptBit : Word := 1#64 <<< 9
def nestedBit : Word := 1#64 <<< 14

def parityBit : Word := 1#64 <<< 2
def adjustBit : Word := 1#64 <<< 4
def zeroBit : Word := 1#64 <<< 6

def arithmeticBits : Word :=
  1#64 ||| parityBit ||| adjustBit ||| zeroBit ||| 1#64 <<< 7 ||| 1#64 <<< 11

/-- What an interrupt gate clears besides: TF, NT, RF and VM. -/
def traceBits : Word := 1#64 <<< 8 ||| nestedBit ||| 1#64 <<< 16 ||| 1#64 <<< 17

namespace Processor

def cpl (p : Processor) : Nat := level p.cs

def flagsWord (p : Processor) : Word :=
  p.rflags &&& ~~~directionBit ||| if p.directionFlag then directionBit else 0

def setFlags (p : Processor) (value : Word) : Processor :=
  { p with rflags := value, directionFlag := value.getLsbD 10 }

def descriptor (p : Processor) (selector : Selector) : Option Descriptor :=
  let offset := selector.toNat / 8 * 8
  let byte (k : Nat) : Byte := p.memory (p.gdtr.base + BitVec.ofNat 64 (offset + k))
  if selector.getLsbD 2 = false ∧ offset + 7 ≤ p.gdtr.limit.toNat then
    some ⟨byte 5, byte 6 >>> 4⟩
  else none

def Selects (p : Processor) (selector : Selector) (property : Descriptor → Bool) : Prop :=
  4 ≤ selector.toNat ∧ ∃ d ∈ p.descriptor selector, property d = true

instance (p : Processor) (selector : Selector) (property : Descriptor → Bool) :
    Decidable (p.Selects selector property) :=
  inferInstanceAs (Decidable (_ ∧ _))

/-- `ss` may be null in 64-bit code below level 3. -/
def StackAllowed (p : Processor) (selector : Selector) (privilege : Nat) : Prop :=
  level selector = privilege ∧
    (selector.toNat < 4 ∧ privilege ≠ 3 ∨ p.Selects selector fun d => d.isStack privilege)

instance (p : Processor) (selector : Selector) (privilege : Nat) :
    Decidable (p.StackAllowed selector privilege) :=
  inferInstanceAs (Decidable (_ ∧ _))

def accessByte (p : Processor) (selector : Selector) : Word :=
  p.gdtr.base + BitVec.ofNat 64 (selector.toNat / 8 * 8 + 5)

/-- A descriptor that is loaded gets its accessed bit; a null selector has none. -/
def markAccessed (p : Processor) (selector : Selector) : Processor :=
  let byte := p.accessByte selector
  let marked := Function.update p.memory byte (p.memory byte ||| 1#8)
  { p with memory := if selector.toNat < 4 then p.memory else marked }

def loadStackSegment (p : Processor) (selector : Selector) : Option Processor :=
  if p.StackAllowed selector p.cpl then some { p.markAccessed selector with ss := selector }
  else none

def loadSegment (p : Processor) (target : DataSegment) (selector : Selector) : Option Processor :=
  if selector.toNat < 4 ∨ p.Selects selector fun d => d.isData (max p.cpl (level selector)) then
    some { p.markAccessed selector with
      segments := Function.update p.segments target selector }
  else none

def lgdt (p : Processor) (limit : BitVec 16) (base : Word) : Option Processor :=
  if IsCanonical base then some { p with gdtr := ⟨limit, base⟩ } else none

def lidt (p : Processor) (limit : BitVec 16) (base : Word) : Option Processor :=
  if IsCanonical base then some { p with idtr := ⟨limit, base⟩ } else none

def push (p : Processor) (value : Word) : Processor :=
  { p with toMachine := p.toMachine.push value }

def set (p : Processor) (target : Reg) (value : Word) : Processor :=
  { p with toMachine := p.toMachine.set target value }

/-- `xor` of a register with itself. What becomes of AF is undefined: it is `adjust`. -/
def xorSelf (p : Processor) (target : Reg) (adjust : Bool) : Processor :=
  { p.set target (p.regs target ^^^ p.regs target) with
    rflags := p.rflags &&& ~~~arithmeticBits |||
      (parityBit ||| zeroBit ||| if adjust then adjustBit else 0) }

def farReturn (p : Processor) : Option Processor :=
  let rip := readWord p.memory (p.regs .rsp)
  let cs := (readWord p.memory (p.regs .rsp + 8#64)).setWidth 16
  if level cs = p.cpl ∧ (p.Selects cs fun d => d.isCode p.cpl) ∧ IsCanonical rip then
    some { (p.markAccessed cs).set .rsp (p.regs .rsp + 16#64) with rip := rip, cs := cs }
  else none

def gate (p : Processor) (vector : Nat) : Option InterruptGate :=
  if vector * 16 + 15 ≤ p.idtr.limit.toNat then
    some (interruptGate fun k => p.memory (p.idtr.base + BitVec.ofNat 64 (vector * 16 + k)))
  else none

def interruptWords (p : Processor) (errorCode : Option Word) : List Word :=
  errorCode.toList ++
    [p.rip, p.cs.setWidth 64, p.flagsWord, p.regs .rsp, p.ss.setWidth 64]

/-- A stack switch takes place for another `ist` only: the privilege level stays. -/
def GateAllowed (p : Processor) (gate : InterruptGate) : Prop :=
  gate.present = true ∧ (gate.gateType = 0xE#8 ∨ gate.gateType = 0xF#8) ∧ gate.ist = 0#8 ∧
    (p.Selects gate.selector fun d => d.isCode p.cpl) ∧ IsCanonical gate.handler

instance (p : Processor) (gate : InterruptGate) : Decidable (p.GateAllowed gate) :=
  inferInstanceAs (Decidable (_ ∧ _))

def clearedFlags (gate : InterruptGate) : Word :=
  if gate.gateType = 0xE#8 then interruptBit ||| traceBits else traceBits

def deliver (p : Processor) (vector : Nat) (errorCode : Option Word) : Option Processor := do
  let gate ← p.gate vector
  if p.GateAllowed gate then
    let onStack := (p.interruptWords errorCode).reverse.foldl Machine.push
      ((p.markAccessed gate.selector).toMachine.set .rsp (p.regs .rsp &&& -16#64))
    return { p with
      toMachine := onStack
      rip := gate.handler
      cs := gate.selector.extractLsb' 2 14 ++ BitVec.ofNat 2 p.cpl
      rflags := p.rflags &&& ~~~clearedFlags gate }
  else none

def interruptReturn (p : Processor) : Option Processor :=
  let word (k : Nat) : Word := readWord p.memory (p.regs .rsp + BitVec.ofNat 64 (8 * k))
  let cs := (word 1).setWidth 16
  let ss := (word 4).setWidth 16
  if p.rflags &&& nestedBit = 0#64 ∧ p.cpl = 0 ∧ level cs = 0 ∧
      (p.Selects cs fun d => d.isCode 0) ∧ p.StackAllowed ss 0 ∧ IsCanonical (word 0) then
    some { (((p.markAccessed cs).markAccessed ss).setFlags (word 2)).set .rsp (word 3) with
      rip := word 0, cs := cs, ss := ss }
  else none

theorem directionBit_getLsbD (i : Nat) : directionBit.getLsbD i = decide (i = 10) := by
  have bits : ∀ k < 64, directionBit.getLsbD k = decide (k = 10) := by decide
  by_cases inside : i < 64
  · exact bits i inside
  · rw [BitVec.getLsbD_of_ge _ _ (Nat.le_of_not_lt inside), eq_comm, decide_eq_false_iff_not]
    omega

theorem directionBit_split (value : Word) :
    (value &&& ~~~directionBit ||| if value.getLsbD 10 then directionBit else 0) = value := by
  apply BitVec.eq_of_getLsbD_eq
  intro i inside
  rw [BitVec.getLsbD_or, BitVec.getLsbD_and, BitVec.getLsbD_not, directionBit_getLsbD]
  by_cases isDirection : i = 10
  · rw [isDirection]
    cases bit : value.getLsbD 10
    · simp
    · rw [if_pos rfl, directionBit_getLsbD]
      rfl
  · cases bit : value.getLsbD 10
    · simp [isDirection, inside]
    · rw [if_pos rfl, directionBit_getLsbD]
      simp [isDirection, inside]

@[simp] theorem flagsWord_setFlags (p : Processor) (value : Word) :
    (p.setFlags value).flagsWord = value :=
  directionBit_split value

theorem masked_or {value mask set : Word} (inside : set &&& ~~~mask = 0#64) :
    (value &&& ~~~mask ||| set) &&& ~~~mask = value &&& ~~~mask := by
  apply BitVec.eq_of_getLsbD_eq
  intro i bound
  have bits := congrArg (·.getLsbD i) inside
  simp only [BitVec.getLsbD_and, BitVec.getLsbD_not, bound, decide_true, Bool.true_and,
    BitVec.getLsbD_zero, BitVec.getLsbD_or] at bits ⊢
  revert bits
  cases mask.getLsbD i <;> cases set.getLsbD i <;> simp

theorem xorSelf_flags (p : Processor) (target : Reg) (adjust : Bool) :
    (p.xorSelf target adjust).rflags &&& ~~~arithmeticBits = p.rflags &&& ~~~arithmeticBits :=
  masked_or (by cases adjust <;> decide)

theorem clearedFlags_nested (gate : InterruptGate) (flags : Word) :
    flags &&& ~~~clearedFlags gate &&& nestedBit = 0#64 := by
  have covered : ~~~clearedFlags gate &&& nestedBit = 0#64 := by
    unfold clearedFlags
    split <;> decide
  rw [BitVec.and_assoc, covered, BitVec.and_zero]

theorem markAccessed_memory (p : Processor) {selector : Selector} {a : Word}
    (other : 4 ≤ selector.toNat → a ≠ p.accessByte selector) :
    (p.markAccessed selector).memory a = p.memory a := by
  simp only [markAccessed]
  split
  · rfl
  case isFalse notNull =>
    exact Function.update_of_ne (other (Nat.le_of_not_lt notNull)) ..

end Processor

theorem Machine.push_outside (m : Machine) (room : 8 ≤ (m.regs .rsp).toNat) (value : Word)
    {a : Word} (outside : a < m.regs .rsp - 8 ∨ m.regs .rsp ≤ a) :
    (m.push value).memory a = m.memory a := by
  have far : ¬ (a - (m.regs .rsp - 8)).toNat < 8 := by bv_omega
  exact if_neg far

structure Machine.Pushed (m : Machine) (words rest : List Word) (m' : Machine) : Prop where
  onStack : m'.Holds (words ++ rest)
  rsp : (m'.regs .rsp).toNat + 8 * words.length = (m.regs .rsp).toNat
  regs : ∀ r, r ≠ .rsp → m'.regs r = m.regs r
  directionFlag : m'.directionFlag = m.directionFlag
  memory : ∀ a, a < m'.regs .rsp ∨ m.regs .rsp ≤ a → m'.memory a = m.memory a

theorem Machine.pushed (words : List Word) (m : Machine) {rest : List Word}
    (holds : m.Holds rest) (room : 8 * words.length ≤ (m.regs .rsp).toNat) :
    m.Pushed words rest (words.reverse.foldl Machine.push m) := by
  induction words with
  | nil => exact ⟨holds, rfl, fun _ _ => rfl, rfl, fun _ _ => rfl⟩
  | cons first words ih =>
      rw [List.length_cons] at room
      have before := ih (by omega)
      rw [List.reverse_cons, List.foldl_append, List.foldl_cons, List.foldl_nil]
      generalize words.reverse.foldl Machine.push m = m₁ at before ⊢
      have rsp := before.rsp
      have space : 8 ≤ (m₁.regs .rsp).toNat := by omega
      have lower := m₁.push_rsp first
      constructor
      · exact before.onStack.push space first
      · rw [lower, List.length_cons]
        bv_omega
      · intro r other
        exact (m₁.push_other other first).trans (before.regs r other)
      · exact before.directionFlag
      · intro a outside
        rw [lower] at outside
        rw [m₁.push_outside space first (by bv_omega)]
        exact before.memory a (by bv_omega)

namespace Processor

variable {p q : Processor} {vector : Nat} {gate : InterruptGate} {errorCode : Option Word}

structure Delivered (p : Processor) (gate : InterruptGate) (errorCode : Option Word)
    (q : Processor) : Prop where
  pushed : ((p.markAccessed gate.selector).toMachine.set .rsp (p.regs .rsp &&& -16#64)).Pushed
    (p.interruptWords errorCode) [] q.toMachine
  rip : q.rip = gate.handler
  cs : q.cs = gate.selector.extractLsb' 2 14 ++ BitVec.ofNat 2 p.cpl
  rflags : q.rflags = p.rflags &&& ~~~clearedFlags gate
  ss : q.ss = p.ss
  segments : q.segments = p.segments
  gdtr : q.gdtr = p.gdtr
  idtr : q.idtr = p.idtr

theorem deliver_ok (found : p.gate vector = some gate) (allowed : p.GateAllowed gate)
    (room : 8 * (p.interruptWords errorCode).length ≤ (p.regs .rsp &&& -16#64).toNat) :
    ∃ q, p.deliver vector errorCode = some q ∧ p.Delivered gate errorCode q := by
  let aligned := (p.markAccessed gate.selector).toMachine.set .rsp (p.regs .rsp &&& -16#64)
  have rsp : aligned.regs .rsp = p.regs .rsp &&& -16#64 := Machine.set_self ..
  have empty : aligned.Holds [] := ⟨Nat.le_of_lt (BitVec.isLt _), by simp⟩
  have pushed := Machine.pushed (p.interruptWords errorCode) _ empty (by rw [rsp]; exact room)
  have delivered : p.deliver vector errorCode = some { p with
      toMachine := (p.interruptWords errorCode).reverse.foldl Machine.push aligned
      rip := gate.handler
      cs := gate.selector.extractLsb' 2 14 ++ BitVec.ofNat 2 p.cpl
      rflags := p.rflags &&& ~~~clearedFlags gate } := by
    rw [deliver, found, Option.bind_eq_bind, Option.bind_some, if_pos allowed]
    rfl
  exact ⟨_, delivered, pushed, rfl, rfl, rfl, rfl, rfl, rfl, rfl⟩

theorem Delivered.nested {q : Processor} (delivered : p.Delivered gate errorCode q) :
    q.rflags &&& nestedBit = 0#64 := by
  rw [delivered.rflags]
  exact clearedFlags_nested gate p.rflags

structure Resumed (p q p' : Processor) : Prop where
  regs : ∀ r, r ≠ .rsp → p'.regs r = q.regs r
  rsp : p'.regs .rsp = p.regs .rsp
  rip : p'.rip = p.rip
  flags : p'.flagsWord = p.flagsWord
  cs : p'.cs = p.cs
  ss : p'.ss = p.ss
  segments : p'.segments = q.segments
  memory : p'.memory = ((q.markAccessed p.cs).markAccessed p.ss).memory
  gdtr : p'.gdtr = q.gdtr
  idtr : p'.idtr = q.idtr

theorem interruptReturn_ok (onStack : q.Holds (p.interruptWords none))
    (nested : q.rflags &&& nestedBit = 0#64) (inner : q.cpl = 0) (outer : p.cpl = 0)
    (code : q.Selects p.cs fun d => d.isCode 0) (stack : q.StackAllowed p.ss 0)
    (canonical : IsCanonical p.rip) :
    ∃ p', q.interruptReturn = some p' ∧ Resumed p q p' := by
  have word (k : Nat) (inside : k < 5) := onStack.word k inside
  have rip := word 0 (by decide)
  have cs := word 1 (by decide)
  have flags := word 2 (by decide)
  have rsp := word 3 (by decide)
  have ss := word 4 (by decide)
  simp only [interruptWords, Option.toList_none, List.nil_append, List.getElem_cons_zero,
    List.getElem_cons_succ] at rip cs flags rsp ss
  have narrow (selector : Selector) : (selector.setWidth 64).setWidth 16 = selector := by
    rw [BitVec.setWidth_setWidth_of_le _ (by decide), BitVec.setWidth_eq]
  refine ⟨{ (((q.markAccessed p.cs).markAccessed p.ss).setFlags p.flagsWord).set .rsp
    (p.regs .rsp) with rip := p.rip, cs := p.cs, ss := p.ss }, ?_, ?_⟩
  · simp only [interruptReturn, rip, cs, flags, rsp, ss, narrow]
    exact if_pos ⟨nested, inner, outer, code, stack, canonical⟩
  · constructor
    · intro r other
      exact Machine.set_other _ other _
    · exact Machine.set_self ..
    · rfl
    · exact flagsWord_setFlags ((q.markAccessed p.cs).markAccessed p.ss) p.flagsWord
    all_goals rfl

end Processor

end Library.X86
