import Mathlib.Data.List.GetD
import Drastic.Platform.InterruptEntry

namespace Drastic

open Library.X86

/-! Where the assembler puts the stubs of `system_idt.S`: behind `.align 16` each. -/

def instrBytes (longJump : Bool) : Instr Symbol → Nat
  | .push r | .pop r => if r ∈ [.r8, .r9, .r10, .r11, .r12, .r13, .r14, .r15] then 2 else 1
  | .pushImm value => if -128 ≤ value.toInt ∧ value.toInt < 128 then 2 else 5
  | .cld => 1
  | .mov .. => 3
  | .and .. | .sub .. | .add .. => 4
  | .jmp _ => if longJump then 5 else 2
  | .call _ => 5
  | .iretq => 2

def codeBytes (longJump : Bool) (code : List (Instr Symbol)) : Nat :=
  (code.map (instrBytes longJump)).sum

def alignUp (address alignment : Nat) : Nat := (address + (alignment - 1)) / alignment * alignment

/-- The labels of stubs that follow code up to `address`; `longJump` tells the form of the jump in
the stub at a label. -/
def stubLabels (longJump : Nat → Bool) : Nat → List (List (Instr Symbol)) → List Nat
  | _, [] => []
  | address, stub :: rest =>
    let label := alignUp address 16
    label :: stubLabels longJump (label + codeBytes (longJump label) stub) rest

def stubAt (longJump : Nat → Bool) (address : Nat) (rip : Uintptr) :
    Option (List (Instr Symbol)) :=
  (((stubLabels longJump address systemIdtIsrStubs).zip systemIdtIsrStubs).find? fun stub =>
    BitVec.ofNat 64 stub.1 = rip).map Prod.snd

theorem alignUp_next {label size : Nat} (aligned : label % 16 = 0) (positive : 0 < size)
    (small : size ≤ 16) : alignUp (label + size) 16 = label + 16 := by
  unfold alignUp
  omega

theorem alignUp_aligned (address : Nat) : alignUp address 16 % 16 = 0 := by
  unfold alignUp
  omega

theorem stubLabels_spaced (longJump : Nat → Bool) (stubs : List (List (Instr Symbol)))
    (sizes : ∀ stub ∈ stubs, ∀ long, 0 < codeBytes long stub ∧ codeBytes long stub ≤ 16)
    (address : Nat) :
    stubLabels longJump address stubs =
      (List.range stubs.length).map fun i => alignUp address 16 + i * 16 := by
  induction stubs generalizing address with
  | nil => rfl
  | cons stub rest ih =>
      obtain ⟨positive, small⟩ := sizes stub List.mem_cons_self (longJump (alignUp address 16))
      have next := alignUp_next (alignUp_aligned address) positive small
      have later := ih (fun other member => sizes other (List.mem_cons_of_mem stub member))
        (alignUp address 16 + codeBytes (longJump (alignUp address 16)) stub)
      rw [stubLabels, later, next, List.length_cons, List.range_succ_eq_map, List.map_cons,
        List.map_map]
      simp only [Nat.zero_mul, Nat.add_zero, List.cons.injEq, true_and]
      apply List.map_congr_left
      intro i _
      simp only [Function.comp]
      omega

theorem pushImm_bytes (long : Bool) (value : U64) : 2 ≤ instrBytes long (.pushImm value) ∧
    instrBytes long (.pushImm value) ≤ 5 := by
  simp only [instrBytes]
  split <;> omega

theorem isr_sizes (vector : Nat) (long : Bool) :
    (0 < codeBytes long (isrErr vector) ∧ codeBytes long (isrErr vector) ≤ 16) ∧
      0 < codeBytes long (isrNoErr vector) ∧ codeBytes long (isrNoErr vector) ≤ 16 := by
  have pushed := pushImm_bytes long (BitVec.ofNat 64 vector)
  have zero : instrBytes long (.pushImm 0) = 2 := by
    cases long <;> decide
  have jump : 2 ≤ instrBytes long (.jmp .systemIdtInterruptStub) ∧
      instrBytes long (.jmp .systemIdtInterruptStub) ≤ 5 := by
    cases long <;> decide
  simp only [codeBytes, isrErr, isrNoErr, List.map_cons, List.map_nil, List.sum_cons,
    List.sum_nil]
  omega

theorem stubs_length : systemIdtIsrStubs.length = 256 := by
  simp [systemIdtIsrStubs]

theorem stub_sizes (stub : List (Instr Symbol)) (member : stub ∈ systemIdtIsrStubs)
    (long : Bool) : 0 < codeBytes long stub ∧ codeBytes long stub ≤ 16 := by
  obtain ⟨vector, inside, rfl⟩ := List.getElem_of_mem member
  have isVector : vector < 256 := stubs_length ▸ inside
  have shape := stub_shape isVector
  rw [List.getD_eq_getElem _ _ inside] at shape
  rw [shape]
  obtain ⟨withCode, without⟩ := isr_sizes vector long
  split
  · exact withCode
  · exact without

/-- The stub of a vector is 16 bytes behind the one before it, as `system_idt_setup` has it. -/
theorem stubAt_vector (longJump : Nat → Bool) {address vector : Nat} (isVector : vector < 256)
    (fits : alignUp address 16 + 4096 ≤ 2 ^ 64) :
    stubAt longJump address (BitVec.ofNat 64 (alignUp address 16) + BitVec.ofNat 64 (vector * 16)) =
      some (systemIdtIsrStubs.getD vector []) := by
  have labels := stubLabels_spaced longJump systemIdtIsrStubs stub_sizes address
  rw [stubs_length] at labels
  have stubs : systemIdtIsrStubs =
      (List.range 256).map fun i => systemIdtIsrStubs.getD i [] := by
    apply List.ext_getElem
    · rw [stubs_length, List.length_map, List.length_range]
    · intro i inside _
      rw [List.getElem_map, List.getElem_range, List.getD_eq_getElem _ _ inside]
  have placed : (stubLabels longJump address systemIdtIsrStubs).zip systemIdtIsrStubs =
      (List.range 256).map fun i => (alignUp address 16 + i * 16, systemIdtIsrStubs.getD i []) := by
    rw [labels]
    nth_rewrite 1 [stubs]
    rw [List.zip_map']
  rw [stubAt, placed, List.find?_map, Option.map_map]
  have found : (List.range 256).find? ((fun stub : Nat × List (Instr Symbol) =>
      decide (BitVec.ofNat 64 stub.1 =
        BitVec.ofNat 64 (alignUp address 16) + BitVec.ofNat 64 (vector * 16))) ∘
      fun i => (alignUp address 16 + i * 16, systemIdtIsrStubs.getD i [])) = some vector := by
    rw [List.find?_range_eq_some]
    refine ⟨?_, List.mem_range.mpr isVector, ?_⟩
    · simp only [Function.comp, decide_eq_true_eq, BitVec.ofNat_add]
    · intro i before
      simp only [Function.comp, Bool.not_eq_true', decide_eq_false_iff_not]
      bv_omega
  rw [found]
  rfl

end Drastic
