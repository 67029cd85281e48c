import Mathlib.Tactic.IntervalCases
import Drastic.Platform.Gdt

namespace Drastic

open Library.LittleEndian (ofBytes)

/-! The interrupt gates of `system_idt.c`. -/

abbrev systemIdtEntries : Nat := 256
abbrev systemIdtEntrySize : Nat := 16

def systemGdtSegmentSelector (index rpl : Nat) : U64 := BitVec.ofNat 64 (index <<< 3 ||| rpl)

def systemGdtKcodeSelector : U64 := systemGdtSegmentSelector systemGdtKcodeSegment 0

structure SystemIdtEntry where
  offset : U64
  segmentSelector : U16
  ist : U8
  flags : U8
  deriving DecidableEq, Repr

abbrev SystemIdt := Nat → U8

/-- `((U16 *)target)[index] = value`. -/
def writeU16 (data : SystemIdt) (target index : Nat) (value : U16) : SystemIdt :=
  let data := Function.update data (target + 2 * index) (value.setWidth 8)
  Function.update data (target + (2 * index + 1)) ((value >>> 8).setWidth 8)

def systemIdtEntryEncode (data : SystemIdt) (target : Nat) (entry : SystemIdtEntry) : SystemIdt :=
  let data := writeU16 data target 0 (entry.offset.setWidth 16 &&& 0xFFFF#16)
  let data := writeU16 data target 3 ((entry.offset >>> 16).setWidth 16 &&& 0xFFFF#16)
  let data := writeU16 data target 4 ((entry.offset >>> 32).setWidth 16 &&& 0xFFFF#16)
  let data := writeU16 data target 5 ((entry.offset >>> 48).setWidth 16 &&& 0xFFFF#16)
  let data := writeU16 data target 1 entry.segmentSelector
  let data := Function.update data (target + 4) (entry.ist &&& 0x7#8)
  let data := Function.update data (target + 5) entry.flags
  let data := writeU16 data target 6 0#16
  writeU16 data target 7 0#16

def systemIdtInterruptEntry (data : SystemIdt) (vector : U8) (handler : Uintptr) (dpl ist : U8) :
    SystemIdt :=
  systemIdtEntryEncode data (vector.toNat * systemIdtEntrySize) {
    offset := handler
    segmentSelector := systemGdtKcodeSelector.setWidth 16
    ist := ist
    flags := 0b1110#8 ||| ((dpl &&& 0b11#8) <<< 5) ||| 1#8 <<< 7 }

/-- The loop of `system_idt_setup`; loading the register does not change the table. -/
def systemIdtSetup (data : SystemIdt) (systemIdtIsrStub0 : Uintptr) : SystemIdt :=
  (List.range systemIdtEntries).foldl (fun data i =>
    systemIdtInterruptEntry data (BitVec.ofNat 8 i)
      (systemIdtIsrStub0 + BitVec.ofNat 64 (i * 16)) 0#8 0#8) data

structure Gate where
  handler : U64
  selector : U16
  ist : U8
  gateType : U8
  dpl : U8
  present : Bool
  reserved : List U8
  deriving DecidableEq, Repr

/-- Reserved are the upper five bits of byte 4, bit 4 of byte 5 and the last four bytes. -/
def gateOf (byte : Nat → U8) : Gate where
  handler := BitVec.ofNat 64
    (ofBytes [byte 0, byte 1, byte 6, byte 7, byte 8, byte 9, byte 10, byte 11])
  selector := BitVec.ofNat 16 (ofBytes [byte 2, byte 3])
  ist := byte 4 &&& 0b111#8
  gateType := byte 5 &&& 0b1111#8
  dpl := byte 5 >>> 5 &&& 0b11#8
  present := (byte 5).getLsbD 7
  reserved := [byte 4 >>> 3, byte 5 >>> 4 &&& 0b1#8, byte 12, byte 13, byte 14, byte 15]

def gateAt (data : SystemIdt) (vector : U8) : Gate :=
  gateOf fun k => data (vector.toNat * 16 + k)

/-- The bytes of a gate in their order, the two halves of each 16-bit piece together. -/
def encodedByte (entry : SystemIdtEntry) : Nat → U8
  | 0 => entry.offset.setWidth 8
  | 1 => (entry.offset >>> 8).setWidth 8
  | 2 => entry.segmentSelector.setWidth 8
  | 3 => (entry.segmentSelector >>> 8).setWidth 8
  | 4 => entry.ist &&& 0b111#8
  | 5 => entry.flags
  | 6 => (entry.offset >>> 16).setWidth 8
  | 7 => (entry.offset >>> 24).setWidth 8
  | 8 => (entry.offset >>> 32).setWidth 8
  | 9 => (entry.offset >>> 40).setWidth 8
  | 10 => (entry.offset >>> 48).setWidth 8
  | 11 => (entry.offset >>> 56).setWidth 8
  | _ => 0#8

theorem piece_low (offset : U64) (shift : Nat) :
    (((offset >>> shift).setWidth 16 &&& 0xFFFF#16).setWidth 8 : U8) =
      (offset >>> shift).setWidth 8 := by
  have mask : 0xFFFF#16 = BitVec.allOnes 16 := rfl
  rw [mask, BitVec.and_allOnes, BitVec.setWidth_setWidth_of_le _ (by decide)]

theorem piece_high (offset : U64) (shift : Nat) :
    (((offset >>> shift).setWidth 16 &&& 0xFFFF#16) >>> 8).setWidth 8 =
      ((offset >>> (shift + 8)).setWidth 8 : U8) := by
  have mask : 0xFFFF#16 = BitVec.allOnes 16 := rfl
  rw [mask, BitVec.and_allOnes]
  apply BitVec.eq_of_toNat_eq
  simp only [BitVec.toNat_setWidth, BitVec.toNat_ushiftRight, Nat.shiftRight_eq_div_pow,
    Nat.pow_add, ← Nat.div_div_eq_div_mul]
  omega

theorem systemIdtEntryEncode_byte (data : SystemIdt) (target : Nat) (entry : SystemIdtEntry)
    (k : Nat) (inside : k < 16) :
    systemIdtEntryEncode data target entry (target + k) = encodedByte entry k := by
  have low := piece_low entry.offset
  have high := piece_high entry.offset
  have low0 := low 0
  have high0 := high 0
  rw [BitVec.ushiftRight_zero] at low0 high0
  interval_cases k <;>
    simp [systemIdtEntryEncode, writeU16, encodedByte, low, high, low0, high0]

theorem writeU16_other {data : SystemIdt} {target index i : Nat} (value : U16)
    (inGate : index < 8) (outside : i < target ∨ target + 16 ≤ i) :
    writeU16 data target index value i = data i := by
  rw [writeU16, Function.update_of_ne (by omega), Function.update_of_ne (by omega)]

theorem systemIdtEntryEncode_other (data : SystemIdt) (target : Nat) (entry : SystemIdtEntry)
    (i : Nat) (outside : i < target ∨ target + 16 ≤ i) :
    systemIdtEntryEncode data target entry i = data i := by
  rw [systemIdtEntryEncode, writeU16_other _ (by decide) outside,
    writeU16_other _ (by decide) outside, Function.update_of_ne (by omega),
    Function.update_of_ne (by omega), writeU16_other _ (by decide) outside,
    writeU16_other _ (by decide) outside, writeU16_other _ (by decide) outside,
    writeU16_other _ (by decide) outside, writeU16_other _ (by decide) outside]

structure InterruptEntryCall where
  vector : U8
  handler : Uintptr
  dpl : U8
  ist : U8

structure InterruptEntryCall.Fits (call : InterruptEntryCall) : Prop where
  dpl : call.dpl < 4
  ist : call.ist < 8

def InterruptEntryCall.run (data : SystemIdt) (call : InterruptEntryCall) : SystemIdt :=
  systemIdtInterruptEntry data call.vector call.handler call.dpl call.ist

def InterruptEntryCall.gate (call : InterruptEntryCall) : Gate where
  handler := call.handler
  selector := systemGdtKcodeSelector.setWidth 16
  ist := call.ist
  gateType := 0xE#8
  dpl := call.dpl
  present := true
  reserved := List.replicate 6 0#8

theorem flags_decode (dpl : U8) (fits : dpl < 4) :
    let flags := 0b1110#8 ||| ((dpl &&& 0b11#8) <<< 5) ||| 1#8 <<< 7
    flags &&& 0b1111#8 = 0xE#8 ∧ flags >>> 5 &&& 0b11#8 = dpl ∧ flags.getLsbD 7 = true ∧
      flags >>> 4 &&& 0b1#8 = 0#8 := by
  have all : ∀ k < 4,
      let flags := 0b1110#8 ||| ((BitVec.ofNat 8 k &&& 0b11#8) <<< 5) ||| 1#8 <<< 7
      flags &&& 0b1111#8 = 0xE#8 ∧ flags >>> 5 &&& 0b11#8 = BitVec.ofNat 8 k ∧
        flags.getLsbD 7 = true ∧ flags >>> 4 &&& 0b1#8 = 0#8 := by decide
  have small := all dpl.toNat fits
  rwa [BitVec.ofNat_toNat, BitVec.setWidth_eq] at small

theorem ist_decode (ist : U8) (fits : ist < 8) :
    ist &&& 0b111#8 = ist ∧ ist >>> 3 = 0#8 := by
  have all : ∀ k < 8, BitVec.ofNat 8 k &&& 0b111#8 = BitVec.ofNat 8 k ∧
      BitVec.ofNat 8 k >>> 3 = 0#8 := by decide
  have small := all ist.toNat fits
  rwa [BitVec.ofNat_toNat, BitVec.setWidth_eq] at small

theorem handler_decode (offset : U64) :
    BitVec.ofNat 64 (ofBytes [offset.setWidth 8, (offset >>> 8).setWidth 8,
      (offset >>> 16).setWidth 8, (offset >>> 24).setWidth 8, (offset >>> 32).setWidth 8,
      (offset >>> 40).setWidth 8, (offset >>> 48).setWidth 8, (offset >>> 56).setWidth 8]) =
        offset := by
  have bound := offset.isLt
  apply BitVec.eq_of_toNat_eq
  simp only [ofBytes, BitVec.toNat_ofNat, BitVec.toNat_setWidth, BitVec.toNat_ushiftRight,
    Nat.shiftRight_eq_div_pow]
  omega

theorem InterruptEntryCall.run_gate (data : SystemIdt) {call : InterruptEntryCall}
    (fits : call.Fits) : gateAt (call.run data) call.vector = call.gate := by
  obtain ⟨gateType, dpl, present, zero⟩ := flags_decode call.dpl fits.dpl
  obtain ⟨ist, istZero⟩ := ist_decode call.ist fits.ist
  have byte (k : Nat) (inside : k < 16) :
      call.run data (call.vector.toNat * 16 + k) = encodedByte _ k :=
    systemIdtEntryEncode_byte data (call.vector.toNat * systemIdtEntrySize) _ k inside
  simp only [gateAt, gateOf, byte 0 (by decide), byte 1 (by decide), byte 2 (by decide),
    byte 3 (by decide), byte 4 (by decide), byte 5 (by decide), byte 6 (by decide),
    byte 7 (by decide), byte 8 (by decide), byte 9 (by decide), byte 10 (by decide),
    byte 11 (by decide), byte 12 (by decide), byte 13 (by decide), byte 14 (by decide),
    byte 15 (by decide), encodedByte, handler_decode, gateType, dpl, present, zero, istZero, ist]
  rfl

theorem InterruptEntryCall.run_other (data : SystemIdt) (call : InterruptEntryCall) {i : Nat}
    (outside : i < call.vector.toNat * 16 ∨ call.vector.toNat * 16 + 16 ≤ i) :
    call.run data i = data i :=
  systemIdtEntryEncode_other data _ _ i outside

theorem InterruptEntryCall.run_apart (data : SystemIdt) (call : InterruptEntryCall) {vector : U8}
    (other : call.vector ≠ vector) {k : Nat} (inside : k < 16) :
    call.run data (vector.toNat * 16 + k) = data (vector.toNat * 16 + k) := by
  apply call.run_other
  have different : call.vector.toNat ≠ vector.toNat := fun same =>
    other (BitVec.eq_of_toNat_eq same)
  omega

def lastFor (vector : U8) (calls : List InterruptEntryCall) : Option InterruptEntryCall :=
  calls.reverse.find? fun call => call.vector = vector

theorem lastFor_concat (vector : U8) (calls : List InterruptEntryCall)
    (call : InterruptEntryCall) :
    lastFor vector (calls ++ [call]) =
      if call.vector = vector then some call else lastFor vector calls := by
  rw [lastFor, List.reverse_append, List.reverse_singleton, List.singleton_append, List.find?_cons]
  by_cases same : call.vector = vector <;> simp [same, lastFor]

theorem gateAt_congr {data data' : SystemIdt} {vector : U8}
    (same : ∀ k < 16, data' (vector.toNat * 16 + k) = data (vector.toNat * 16 + k)) :
    gateAt data' vector = gateAt data vector := by
  simp only [gateAt, gateOf, same 0 (by decide), same 1 (by decide), same 2 (by decide),
    same 3 (by decide), same 4 (by decide), same 5 (by decide), same 6 (by decide),
    same 7 (by decide), same 8 (by decide), same 9 (by decide), same 10 (by decide),
    same 11 (by decide), same 12 (by decide), same 13 (by decide), same 14 (by decide),
    same 15 (by decide)]

def Installed (data : SystemIdt) (calls : List InterruptEntryCall) (data' : SystemIdt)
    (vector : U8) : Prop :=
  match lastFor vector calls with
  | some call => gateAt data' vector = call.gate
  | none => ∀ k < 16, data' (vector.toNat * 16 + k) = data (vector.toNat * 16 + k)

theorem Installed.run {data data' : SystemIdt} {calls : List InterruptEntryCall} {vector : U8}
    (installed : Installed data calls data' vector) {call : InterruptEntryCall}
    (fits : call.Fits) : Installed data (calls ++ [call]) (call.run data') vector := by
  rw [Installed, lastFor_concat]
  by_cases same : call.vector = vector
  · rw [if_pos same, ← same]
    exact call.run_gate data' fits
  · rw [if_neg same]
    have kept (k : Nat) (inside : k < 16) := call.run_apart data' same inside
    unfold Installed at installed
    cases last : lastFor vector calls with
    | none =>
        rw [last] at installed
        exact fun k inside => (kept k inside).trans (installed k inside)
    | some earlier =>
        rw [last] at installed
        exact (gateAt_congr kept).trans installed

theorem installed_runs (data : SystemIdt) (calls : List InterruptEntryCall)
    (fits : ∀ call ∈ calls, call.Fits) (vector : U8) :
    Installed data calls (calls.foldl InterruptEntryCall.run data) vector := by
  induction calls using List.reverseRecOn with
  | nil => exact fun _ _ => rfl
  | append_singleton calls call ih =>
      rw [List.foldl_append]
      exact (ih (fun earlier member => fits earlier (List.mem_append_left _ member))).run
        (fits call (by simp))

theorem outside_runs (data : SystemIdt) (calls : List InterruptEntryCall) {i : Nat}
    (outside : systemIdtEntries * systemIdtEntrySize ≤ i) :
    calls.foldl InterruptEntryCall.run data i = data i := by
  induction calls generalizing data with
  | nil => rfl
  | cons call rest ih =>
      have bound := call.vector.isLt
      have size : systemIdtEntries * systemIdtEntrySize = 4096 := rfl
      rw [List.foldl_cons, ih]
      exact call.run_other data (.inr (by omega))

def setupCall (systemIdtIsrStub0 : Uintptr) (i : Nat) : InterruptEntryCall :=
  ⟨BitVec.ofNat 8 i, systemIdtIsrStub0 + BitVec.ofNat 64 (i * 16), 0, 0⟩

def setupCalls (systemIdtIsrStub0 : Uintptr) : List InterruptEntryCall :=
  (List.range systemIdtEntries).map (setupCall systemIdtIsrStub0)

theorem systemIdtSetup_calls (data : SystemIdt) (systemIdtIsrStub0 : Uintptr) :
    systemIdtSetup data systemIdtIsrStub0 =
      (setupCalls systemIdtIsrStub0).foldl InterruptEntryCall.run data := by
  rw [setupCalls, List.foldl_map]
  rfl

theorem setupCalls_fits (systemIdtIsrStub0 : Uintptr) :
    ∀ call ∈ setupCalls systemIdtIsrStub0, call.Fits := by
  intro call member
  obtain ⟨i, _, rfl⟩ := List.mem_map.mp member
  exact ⟨(by decide : (0 : U8) < 4), (by decide : (0 : U8) < 8)⟩

theorem lastFor_range (systemIdtIsrStub0 : Uintptr) (vector : U8) (n : Nat) (small : n ≤ 256) :
    lastFor vector ((List.range n).map (setupCall systemIdtIsrStub0)) =
      if vector.toNat < n then some (setupCall systemIdtIsrStub0 vector.toNat) else none := by
  induction n with
  | zero => rfl
  | succ n ih =>
      have isVector : BitVec.ofNat 8 n = vector ↔ n = vector.toNat := by
        rw [← BitVec.toNat_inj, BitVec.toNat_ofNat, Nat.mod_eq_of_lt (by omega)]
      rw [List.range_succ, List.map_append, List.map_singleton, lastFor_concat, ih (by omega)]
      change (if BitVec.ofNat 8 n = vector then _ else _) = _
      by_cases last : n = vector.toNat
      · rw [if_pos (isVector.mpr last), if_pos (by omega), last]
      · rw [if_neg (mt isVector.mp last)]
        by_cases before : vector.toNat < n
        · rw [if_pos before, if_pos (by omega)]
        · rw [if_neg before, if_neg (by omega)]

theorem lastFor_setupCalls (systemIdtIsrStub0 : Uintptr) (vector : U8) :
    lastFor vector (setupCalls systemIdtIsrStub0) =
      some (setupCall systemIdtIsrStub0 vector.toNat) := by
  rw [setupCalls, lastFor_range _ _ _ (Nat.le_refl 256), if_pos vector.isLt]

/-- A vector has the gate of its last call, and its bytes of before where there is none. -/
theorem interrupt_gates_decode (data : SystemIdt) :
    (∀ calls : List InterruptEntryCall, (∀ call ∈ calls, call.Fits) →
      (∀ vector, Installed data calls (calls.foldl InterruptEntryCall.run data) vector) ∧
      ∀ i, systemIdtEntries * systemIdtEntrySize ≤ i →
        calls.foldl InterruptEntryCall.run data i = data i) ∧
    ∀ systemIdtIsrStub0 vector,
      gateAt (systemIdtSetup data systemIdtIsrStub0) vector = {
        handler := systemIdtIsrStub0 + BitVec.ofNat 64 (vector.toNat * 16)
        selector := systemGdtKcodeSelector.setWidth 16
        ist := 0
        gateType := 0xE
        dpl := 0
        present := true
        reserved := List.replicate 6 0 } := by
  constructor
  · intro calls fits
    exact ⟨installed_runs data calls fits, fun i => outside_runs data calls⟩
  · intro systemIdtIsrStub0 vector
    have installed :=
      installed_runs data (setupCalls systemIdtIsrStub0) (setupCalls_fits _) vector
    rw [Installed, lastFor_setupCalls, ← systemIdtSetup_calls] at installed
    exact installed

theorem interrupt_gates_decode_sample :
    gateAt ([⟨3, 0x1000, 0, 0⟩, ⟨4, 0x1010, 0, 0⟩, ⟨3, 0xFFFF800012345670, 3, 1⟩].foldl
      InterruptEntryCall.run fun _ => 0xAA) 3 =
        InterruptEntryCall.gate ⟨3, 0xFFFF800012345670, 3, 1⟩ :=
  ((interrupt_gates_decode fun _ => 0xAA).1
    [⟨3, 0x1000, 0, 0⟩, ⟨4, 0x1010, 0, 0⟩, ⟨3, 0xFFFF800012345670, 3, 1⟩]
    (by
      intro call member
      simp only [List.mem_cons, List.not_mem_nil, or_false] at member
      rcases member with rfl | rfl | rfl <;> constructor <;> decide)).1 3

end Drastic
