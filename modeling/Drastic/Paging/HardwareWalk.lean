import Drastic.Library.RadixTable
import Drastic.Paging.Tables

namespace Drastic

open Library.RadixTable (Format lookup tableAt)
open Library.WordMemory (readWord writeWord readWord_shift)

/-! What the processor makes of the tables. Physical addresses are 48 bits wide. -/

/-- A page-aligned physical address below 2^48. -/
abbrev Frame := BitVec 36

abbrev Slot := BitVec 9

def Frame.address (frame : Frame) : Uintptr := frame.setWidth 64 <<< 12

def entryFrame (entry : U64) : Frame := entry.extractLsb' 12 36

def slotPointer (hhdmOffset : U64) (frame : Frame) (slot : Slot) : Uintptr :=
  frame.address + hhdmOffset + 8#64 * slot.setWidth 64

def wordAt (hhdmOffset : U64) (memory : Memory) (frame : Frame) (slot : Slot) : U64 :=
  readWord memory (slotPointer hhdmOffset frame slot)

def present (entry : U64) : Bool := entry &&& systemPagingAmd64FlagP ≠ 0#64

def large (entry : U64) : Bool := entry &&& systemPagingAmd64FlagPs ≠ 0#64

/-- The bits of an address below a page of a level: 12, 21 or 30. -/
def offsetMask (level : Nat) : U64 := bit (12 + 9 * (level - 1)) - 1#64

structure Leaf where
  level : Nat
  entry : U64
  upper : List U64
  deriving DecidableEq, Repr

/-- The tables of the processor, the PML4 at level 4: PS makes an entry of the PDPT or
of a PD a leaf. -/
def amd64 : Format Frame U64 Leaf where
  child level entry :=
    if present entry ∧ level ≠ 1 ∧ (level = 4 ∨ ¬ large entry) then some (entryFrame entry)
    else none
  leaf level entry := if present entry then some ⟨level, entry, []⟩ else none
  under entry leaf :=
    { leaf with upper := (entry &&& ~~~systemPagingAmd64FlagAddress) :: leaf.upper }

structure Translation where
  physical : Uintptr
  level : Nat
  leafBits : U64
  upper : List U64
  deriving DecidableEq, Repr

def Leaf.translate (leaf : Leaf) (virtual : Uintptr) : Translation :=
  let mask := systemPagingAmd64FlagAddress &&& ~~~offsetMask leaf.level
  { physical := (leaf.entry &&& mask) ||| (virtual &&& offsetMask leaf.level)
    level := leaf.level
    leafBits := leaf.entry &&& ~~~mask
    upper := leaf.upper }

/-- The positions a virtual address selects, the one in the PML4 first. -/
def slots (virtual : Uintptr) : List Slot :=
  [virtual.extractLsb' 39 9, virtual.extractLsb' 30 9, virtual.extractLsb' 21 9,
    virtual.extractLsb' 12 9]

/-- The walk of a virtual address from a PML4; nothing if it is not present. -/
def hardwareWalk (hhdmOffset : U64) (memory : Memory) (pml4 : Frame) (virtual : Uintptr) :
    Option Translation :=
  (lookup amd64 (wordAt hhdmOffset memory) 4 pml4 (slots virtual)).map (·.translate virtual)

theorem flagAddress_getLsbD (i : Nat) :
    systemPagingAmd64FlagAddress.getLsbD i = decide (12 ≤ i ∧ i < 48) := by
  by_cases bound : i < 64
  · have all : ∀ i : Fin 64, systemPagingAmd64FlagAddress.getLsbD i =
        decide (12 ≤ i.val ∧ i.val < 48) := by decide
    exact all ⟨i, bound⟩
  · rw [BitVec.getLsbD_of_ge _ _ (by omega)]
    exact (decide_eq_false (by omega)).symm

theorem address_getLsbD (frame : Frame) (i : Nat) :
    frame.address.getLsbD i = (decide (12 ≤ i) && frame.getLsbD (i - 12)) := by
  rw [Frame.address, BitVec.getLsbD_shiftLeft, BitVec.getLsbD_setWidth]
  by_cases low : i < 12
  · simp [low]
  · by_cases bound : i < 64
    · simp [low, bound, show 12 ≤ i by omega, show i - 12 < 64 by omega]
    · rw [BitVec.getLsbD_of_ge frame (i - 12) (by omega)]
      simp [bound]

theorem and_flagAddress (entry : U64) :
    entry &&& systemPagingAmd64FlagAddress = (entryFrame entry).address := by
  apply BitVec.eq_of_getLsbD_eq
  intro i bound
  rw [BitVec.getLsbD_and, flagAddress_getLsbD, address_getLsbD, entryFrame,
    BitVec.getLsbD_extractLsb']
  by_cases low : 12 ≤ i
  · have shift : 12 + (i - 12) = i := by omega
    by_cases high : i < 48
    · simp [low, high, shift, show i - 12 < 36 by omega]
    · simp [low, high, show ¬ i - 12 < 36 by omega]
  · simp [low]

theorem entryFrame_address (frame : Frame) : entryFrame frame.address = frame := by
  apply BitVec.eq_of_getLsbD_eq
  intro i bound
  rw [entryFrame, BitVec.getLsbD_extractLsb', address_getLsbD]
  simp [bound]

theorem address_and_flagAddress (frame : Frame) :
    frame.address &&& systemPagingAmd64FlagAddress = frame.address := by
  rw [and_flagAddress, entryFrame_address]

theorem address_toNat (frame : Frame) : frame.address.toNat = frame.toNat * 4096 := by
  have bound := frame.isLt
  rw [Frame.address, BitVec.toNat_shiftLeft, BitVec.toNat_setWidth, Nat.shiftLeft_eq]
  omega

theorem exists_frame {address : Uintptr} (aligned : address.toNat % systemPageSize = 0)
    (low : address.toNat < 2 ^ 48) : ∃ frame : Frame, address = frame.address := by
  rw [systemPageSize] at aligned
  refine ⟨BitVec.ofNat 36 (address.toNat / 4096), BitVec.eq_of_toNat_eq ?_⟩
  rw [address_toNat, BitVec.toNat_ofNat]
  omega

theorem slot_offset (slot : Slot) : (8#64 * slot.setWidth 64).toNat = 8 * slot.toNat := by
  have bound := slot.isLt
  rw [BitVec.toNat_mul, BitVec.toNat_setWidth, BitVec.toNat_ofNat]
  omega

theorem slotPointer_split (hhdmOffset : U64) (frame : Frame) (slot : Slot) :
    slotPointer hhdmOffset frame slot = frame.address + 8#64 * slot.setWidth 64 + hhdmOffset := by
  rw [slotPointer, add_right_comm]

theorem slotPointer_sub (hhdmOffset : U64) (frame : Frame) (slot : Slot) :
    slotPointer hhdmOffset frame slot - (frame.address + hhdmOffset) = 8#64 * slot.setWidth 64 := by
  rw [slotPointer, add_sub_cancel_left]

theorem inPage_byte (hhdmOffset : U64) (frame : Frame) (slot : Slot) {k : Nat} (inside : k < 8) :
    InPage (frame.address + hhdmOffset)
      (slotPointer hhdmOffset frame slot + BitVec.ofNat 64 k) := by
  have slotBound := slot.isLt
  rw [InPage, add_sub_right_comm, slotPointer_sub, BitVec.toNat_add, slot_offset,
    BitVec.toNat_ofNat, systemPageSize]
  omega

theorem inPage_unique {hhdmOffset : U64} {frame frame' : Frame} {address : Uintptr}
    (inside : InPage (frame.address + hhdmOffset) address)
    (inside' : InPage (frame'.address + hhdmOffset) address) : frame = frame' := by
  have bound := frame.isLt
  have bound' := frame'.isLt
  rw [InPage, BitVec.toNat_sub, BitVec.toNat_add, address_toNat, systemPageSize] at inside inside'
  exact BitVec.eq_of_toNat_eq (by omega)

theorem not_inPage_byte {hhdmOffset : U64} {frame frame' : Frame} (other : frame' ≠ frame)
    (slot : Slot) {k : Nat} (inside : k < 8) : ¬ InPage (frame'.address + hhdmOffset)
      (slotPointer hhdmOffset frame slot + BitVec.ofNat 64 k) :=
  fun shared => other (inPage_unique shared (inPage_byte hhdmOffset frame slot inside))

variable {hhdmOffset : U64} {memory memory' : Memory}

theorem wordAt_congr {frame : Frame}
    (same : ∀ address, InPage (frame.address + hhdmOffset) address →
      memory' address = memory address) (slot : Slot) :
    wordAt hhdmOffset memory' frame slot = wordAt hhdmOffset memory frame slot :=
  readWord_shift fun _ inside => same _ (inPage_byte hhdmOffset frame slot inside)

theorem exists_changed {frame : Frame} {slot : Slot}
    (changed : wordAt hhdmOffset memory' frame slot ≠ wordAt hhdmOffset memory frame slot) :
    ∃ address, InPage (frame.address + hhdmOffset) address ∧
      memory' address ≠ memory address := by
  by_contra none
  push Not at none
  exact changed (wordAt_congr none slot)

theorem writeWord_inPage {frame : Frame} {slot : Slot} {value : U64} {address : Uintptr}
    (changed : writeWord memory (slotPointer hhdmOffset frame slot) value address ≠ memory address) :
    InPage (frame.address + hhdmOffset) address := by
  have inside : (address - slotPointer hhdmOffset frame slot).toNat < 8 := by
    by_contra outside
    exact changed (Library.WordMemory.writeWord_outside outside)
  have byte : slotPointer hhdmOffset frame slot +
      BitVec.ofNat 64 (address - slotPointer hhdmOffset frame slot).toNat = address := by
    rw [BitVec.ofNat_toNat, BitVec.setWidth_eq, add_sub_cancel]
  rw [← byte]
  exact inPage_byte hhdmOffset frame slot inside

theorem slotPointer_apart {frame frame' : Frame} {slot slot' : Slot}
    (different : ¬ (frame' = frame ∧ slot' = slot)) :
    8 ≤ (slotPointer hhdmOffset frame' slot' - slotPointer hhdmOffset frame slot).toNat := by
  rw [slotPointer_split, slotPointer_split, add_sub_add_right_eq_sub]
  have bound := frame.isLt
  have bound' := frame'.isLt
  have slotBound := slot.isLt
  have slotBound' := slot'.isLt
  rw [← BitVec.toNat_inj, ← BitVec.toNat_inj] at different
  rw [BitVec.toNat_sub, BitVec.toNat_add, BitVec.toNat_add, slot_offset, slot_offset,
    address_toNat, address_toNat]
  omega

theorem wordAt_writeWord (frame frame' : Frame) (slot slot' : Slot) (value : U64) :
    wordAt hhdmOffset (writeWord memory (slotPointer hhdmOffset frame slot) value) frame' slot' =
      if frame' = frame ∧ slot' = slot then value else wordAt hhdmOffset memory frame' slot' := by
  by_cases same : frame' = frame ∧ slot' = slot
  · rw [if_pos same, same.1, same.2, wordAt, Library.WordMemory.readWord_writeWord _ _ _]
  · rw [if_neg same, wordAt, wordAt]
    apply Library.WordMemory.readWord_writeWord_apart (slotPointer_apart same)
    exact slotPointer_apart fun equal => same ⟨equal.1.symm, equal.2.symm⟩

theorem wordAt_blank (frame : Frame) (slot : Slot) :
    wordAt hhdmOffset (fun _ => 0#8) frame slot = 0#64 :=
  Library.WordMemory.readWord_zero fun _ _ => rfl

theorem wordAt_zeroPageAt (frame frame' : Frame) (slot : Slot) :
    wordAt hhdmOffset (zeroPageAt memory (frame.address + hhdmOffset)) frame' slot =
      if frame' = frame then 0#64 else wordAt hhdmOffset memory frame' slot := by
  by_cases same : frame' = frame
  · subst same
    rw [if_pos rfl]
    apply Library.WordMemory.readWord_zero
    intro k inside
    exact if_pos (inPage_byte hhdmOffset frame' slot inside)
  · rw [if_neg same]
    apply readWord_shift
    intro k inside
    exact if_neg (not_inPage_byte (Ne.symm same) slot inside)

theorem wordAt_copyPageAt (frame source frame' : Frame) (slot : Slot) :
    wordAt hhdmOffset
        (copyPageAt memory (frame.address + hhdmOffset) (source.address + hhdmOffset)) frame' slot =
      if frame' = frame then wordAt hhdmOffset memory source slot
      else wordAt hhdmOffset memory frame' slot := by
  by_cases same : frame' = frame
  · subst same
    rw [if_pos rfl]
    apply readWord_shift
    intro k inside
    have place : source.address + hhdmOffset +
        (slotPointer hhdmOffset frame' slot + BitVec.ofNat 64 k - (frame'.address + hhdmOffset)) =
          slotPointer hhdmOffset source slot + BitVec.ofNat 64 k := by
      rw [add_sub_right_comm, slotPointer_sub, ← add_assoc, slotPointer]
    rw [copyPageAt, if_pos (inPage_byte hhdmOffset frame' slot inside), place]
  · rw [if_neg same]
    apply readWord_shift
    intro k inside
    exact if_neg (not_inPage_byte (Ne.symm same) slot inside)

theorem entryPointer_eq (frame : Frame) (virtual : Uintptr) (shift : Nat) :
    entryPointer (frame.address + hhdmOffset) virtual shift =
      slotPointer hhdmOffset frame (virtual.extractLsb' shift 9) := by
  have index : (virtual >>> shift) &&& 511#64 = (virtual.extractLsb' shift 9).setWidth 64 := by
    apply BitVec.eq_of_toNat_eq
    have mask : (511#64).toNat = 2 ^ 9 - 1 := rfl
    rw [BitVec.toNat_and, BitVec.toNat_setWidth, mask, Nat.and_two_pow_sub_one_eq_mod,
      BitVec.toNat_ushiftRight, BitVec.extractLsb'_toNat]
    omega
  rw [entryPointer, slotPointer, index]

end Drastic
