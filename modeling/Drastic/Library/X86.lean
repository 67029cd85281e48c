import Drastic.Library.WordStack

namespace Library.X86

open Library.WordMemory Library.WordStack

/-! Straight-line 64-bit code that saves and restores registers on the stack. -/

inductive Reg where
  | rax | rbx | rcx | rdx | rsi | rdi | rbp | rsp
  | r8 | r9 | r10 | r11 | r12 | r13 | r14 | r15
  deriving DecidableEq, Repr

structure Machine where
  regs : Reg → Word
  memory : Memory
  directionFlag : Bool

namespace Machine

def set (m : Machine) (target : Reg) (value : Word) : Machine :=
  { m with regs := Function.update m.regs target value }

def push (m : Machine) (value : Word) : Machine :=
  { m.set .rsp (m.regs .rsp - 8) with memory := writeWord m.memory (m.regs .rsp - 8) value }

/-- The popped word is written last, so popping into `rsp` leaves that word there. -/
def pop (m : Machine) (target : Reg) : Machine :=
  (m.set .rsp (m.regs .rsp + 8)).set target (readWord m.memory (m.regs .rsp))

abbrev Holds (m : Machine) (words : List Word) : Prop := Stack m.memory (m.regs .rsp) words

@[simp] theorem set_self (m : Machine) (target : Reg) (value : Word) :
    (m.set target value).regs target = value :=
  Function.update_self ..

@[simp] theorem set_other (m : Machine) {target r : Reg} (other : r ≠ target) (value : Word) :
    (m.set target value).regs r = m.regs r :=
  Function.update_of_ne other ..

@[simp] theorem push_rsp (m : Machine) (value : Word) :
    (m.push value).regs .rsp = m.regs .rsp - 8 :=
  set_self m .rsp _

@[simp] theorem push_other (m : Machine) {r : Reg} (other : r ≠ .rsp) (value : Word) :
    (m.push value).regs r = m.regs r :=
  set_other m other _

theorem Holds.push {m : Machine} {words : List Word} (holds : m.Holds words)
    (room : 8 ≤ (m.regs .rsp).toNat) (value : Word) : (m.push value).Holds (value :: words) := by
  rw [Holds, push_rsp]
  exact Stack.push holds room value

theorem pop_target (m : Machine) (target : Reg) :
    (m.pop target).regs target = readWord m.memory (m.regs .rsp) :=
  set_self ..

theorem pop_rsp (m : Machine) {target : Reg} (other : target ≠ .rsp) :
    (m.pop target).regs .rsp = m.regs .rsp + 8 := by
  rw [pop, set_other _ other.symm, set_self]

theorem pop_other (m : Machine) {target r : Reg} (apart : r ≠ target) (other : r ≠ .rsp) :
    (m.pop target).regs r = m.regs r := by
  rw [pop, set_other _ apart, set_other _ other]

theorem Holds.pop {m : Machine} {first : Word} {words : List Word}
    (holds : m.Holds (first :: words)) {target : Reg} (other : target ≠ .rsp) :
    (m.pop target).Holds words := by
  rw [Holds, pop_rsp m other]
  exact Stack.pop holds

end Machine

/-- Operands stand in the order of the source, the target last. -/
inductive Instr (Symbol : Type) where
  | push (source : Reg)
  | pushImm (value : Word)
  | pop (target : Reg)
  | cld
  | mov (source target : Reg)
  | and (value : Word) (target : Reg)
  | sub (value : Word) (target : Reg)
  | add (value : Word) (target : Reg)
  | jmp (label : Symbol)
  | call (symbol : Symbol)
  | iretq
  deriving DecidableEq, Repr

/-- Where a run of straight-line code leaves it. A call comes with the machine before the
return address is pushed and with the code that is returned to. -/
inductive Exit (Symbol : Type) where
  | jmp (label : Symbol) (m : Machine)
  | call (symbol : Symbol) (m : Machine) (code : List (Instr Symbol))
  | iretq (m : Machine)
  | fallsThrough (m : Machine)

section

variable {Symbol : Type}

def run : List (Instr Symbol) → Machine → Exit Symbol
  | [], m => .fallsThrough m
  | .push source :: code, m => run code (m.push (m.regs source))
  | .pushImm value :: code, m => run code (m.push value)
  | .pop target :: code, m => run code (m.pop target)
  | .cld :: code, m => run code { m with directionFlag := false }
  | .mov source target :: code, m => run code (m.set target (m.regs source))
  | .and value target :: code, m => run code (m.set target (m.regs target &&& value))
  | .sub value target :: code, m => run code (m.set target (m.regs target - value))
  | .add value target :: code, m => run code (m.set target (m.regs target + value))
  | .jmp label :: _, m => .jmp label m
  | .call symbol :: code, m => .call symbol m code
  | .iretq :: _, m => .iretq m

def pushAll (list : List Reg) (m : Machine) : Machine :=
  list.foldl (fun m r => m.push (m.regs r)) m

def popAll (list : List Reg) (m : Machine) : Machine := list.foldl Machine.pop m

theorem run_pushAll (list : List Reg) (code : List (Instr Symbol)) (m : Machine) :
    run (list.map Instr.push ++ code) m = run code (pushAll list m) := by
  induction list generalizing m with
  | nil => rfl
  | cons r rest ih => exact ih _

theorem run_popAll (list : List Reg) (code : List (Instr Symbol)) (m : Machine) :
    run (list.map Instr.pop ++ code) m = run code (popAll list m) := by
  induction list generalizing m with
  | nil => rfl
  | cons r rest ih => exact ih _

end

theorem pushAll_spec (list : List Reg) (general : Reg.rsp ∉ list) (m : Machine)
    {words : List Word} (holds : m.Holds words)
    (room : 8 * list.length ≤ (m.regs .rsp).toNat) :
    (pushAll list m).Holds ((list.map m.regs).reverse ++ words) ∧
      ((pushAll list m).regs .rsp).toNat + 8 * list.length = (m.regs .rsp).toNat ∧
      ∀ r, r ≠ .rsp → (pushAll list m).regs r = m.regs r := by
  induction list generalizing m words with
  | nil => exact ⟨holds, rfl, fun _ _ => rfl⟩
  | cons first rest ih =>
      rw [List.mem_cons, not_or] at general
      rw [List.length_cons] at room ⊢
      have lower : (m.push (m.regs first)).regs .rsp = m.regs .rsp - 8 := m.push_rsp _
      have down : (m.regs .rsp - 8).toNat + 8 = (m.regs .rsp).toNat := by bv_omega
      obtain ⟨onStack, rsp, others⟩ := ih general.2 (m.push (m.regs first))
        (holds.push (by omega) (m.regs first)) (by rw [lower]; omega)
      have same : rest.map (m.push (m.regs first)).regs = rest.map m.regs := by
        apply List.map_congr_left
        intro r member
        apply m.push_other
        rintro rfl
        exact general.2 member
      rw [same] at onStack
      refine ⟨?_, ?_, ?_⟩
      · rw [List.map_cons, List.reverse_cons, List.append_assoc]
        exact onStack
      · rw [lower] at rsp
        change ((pushAll rest (m.push (m.regs first))).regs .rsp).toNat + _ = _
        omega
      · intro r other
        exact (others r other).trans (m.push_other other _)

theorem popAll_spec (list : List Reg) (general : Reg.rsp ∉ list) (saved : Reg → Word)
    (m : Machine) {words : List Word} (holds : m.Holds (list.map saved ++ words)) :
    (popAll list m).Holds words ∧
      (popAll list m).regs .rsp = m.regs .rsp + BitVec.ofNat 64 (8 * list.length) ∧
      (∀ r ∈ list, (popAll list m).regs r = saved r) ∧
      ∀ r, r ∉ list → r ≠ .rsp → (popAll list m).regs r = m.regs r := by
  induction list generalizing m with
  | nil => exact ⟨holds, (BitVec.add_zero _).symm, by simp, fun _ _ _ => rfl⟩
  | cons first rest ih =>
      rw [List.mem_cons, not_or] at general
      have other : first ≠ .rsp := Ne.symm general.1
      obtain ⟨onStack, rsp, restored, others⟩ :=
        ih general.2 (m.pop first) (Machine.Holds.pop holds other)
      refine ⟨onStack, ?_, ?_, ?_⟩
      · rw [m.pop_rsp other] at rsp
        apply rsp.trans
        rw [List.length_cons]
        bv_omega
      · intro r member
        by_cases later : r ∈ rest
        · exact restored r later
        · have isFirst : r = first := (List.mem_cons.mp member).resolve_right later
          rw [isFirst] at later ⊢
          apply (others first later other).trans
          rw [m.pop_target]
          exact Stack.head holds
      · intro r outside notRsp
        rw [List.mem_cons, not_or] at outside
        exact (others r outside.2 notRsp).trans (m.pop_other outside.1 notRsp)

end Library.X86
