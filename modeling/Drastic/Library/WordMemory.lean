import Mathlib.Tactic.Common
import Drastic.Library.LittleEndian

namespace Library.WordMemory

open Library.LittleEndian (ofBytes)

/-! Words of eight bytes in a byte memory, the lowest byte first. -/

abbrev Word := BitVec 64
abbrev Memory := Word → BitVec 8

def readWord (memory : Memory) (address : Word) : Word :=
  BitVec.ofNat 64 (ofBytes [memory address, memory (address + 1#64), memory (address + 2#64),
    memory (address + 3#64), memory (address + 4#64), memory (address + 5#64),
    memory (address + 6#64), memory (address + 7#64)])

def writeWord (memory : Memory) (address value : Word) : Memory := fun a =>
  if (a - address).toNat < 8 then (value >>> (8 * (a - address).toNat)).setWidth 8 else memory a

variable {memory memory' : Memory} {address other value : Word}

theorem readWord_shift (same : ∀ k < 8,
      memory (address + BitVec.ofNat 64 k) = memory' (other + BitVec.ofNat 64 k)) :
    readWord memory address = readWord memory' other := by
  have first := same 0 (by decide)
  rw [BitVec.add_zero, BitVec.add_zero] at first
  unfold readWord
  rw [first, same 1 (by decide), same 2 (by decide), same 3 (by decide), same 4 (by decide),
    same 5 (by decide), same 6 (by decide), same 7 (by decide)]

theorem readWord_congr (same : ∀ a, (a - address).toNat < 8 → memory' a = memory a) :
    readWord memory' address = readWord memory address :=
  readWord_shift fun _ inside => same _ (by bv_omega)

theorem readWord_zero (zero : ∀ k < 8, memory (address + BitVec.ofNat 64 k) = 0#8) :
    readWord memory address = 0#64 := by
  calc readWord memory address
    _ = readWord (fun _ => 0#8) 0#64 := readWord_shift zero
    _ = 0#64 := rfl

theorem writeWord_byte (memory : Memory) (address value : Word) (k : Nat) (inside : k < 8) :
    (writeWord memory address value (address + BitVec.ofNat 64 k)).toNat =
      value.toNat / 2 ^ (8 * k) % 256 := by
  have offset : (address + BitVec.ofNat 64 k - address).toNat = k := by bv_omega
  rw [writeWord, offset, if_pos inside, BitVec.toNat_setWidth, BitVec.toNat_ushiftRight,
    Nat.shiftRight_eq_div_pow]

theorem readWord_writeWord (memory : Memory) (address value : Word) :
    readWord (writeWord memory address value) address = value := by
  have byte (k : Nat) (inside : k < 8) := writeWord_byte memory address value k inside
  have first := byte 0 (by decide)
  rw [BitVec.add_zero] at first
  have bound := value.isLt
  apply BitVec.eq_of_toNat_eq
  simp only [readWord, BitVec.toNat_ofNat, ofBytes, first, byte 1 (by decide),
    byte 2 (by decide), byte 3 (by decide), byte 4 (by decide), byte 5 (by decide),
    byte 6 (by decide), byte 7 (by decide)]
  omega

theorem writeWord_outside {a : Word} (outside : ¬ (a - address).toNat < 8) :
    writeWord memory address value a = memory a := if_neg outside

theorem readWord_writeWord_apart (before : 8 ≤ (other - address).toNat)
    (behind : 8 ≤ (address - other).toNat) :
    readWord (writeWord memory address value) other = readWord memory other := by
  apply readWord_congr
  intro a inside
  apply writeWord_outside
  bv_omega

end Library.WordMemory
