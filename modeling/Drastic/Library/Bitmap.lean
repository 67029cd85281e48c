import Mathlib.Data.BitVec
import Mathlib.Logic.Function.Basic
import Mathlib.Tactic.Common

namespace Library.Bitmap

/-! A set of numbers as the bits of an array of 64-bit words. -/

def mask (index : Nat) : BitVec 64 := 1#64 <<< (index % 64)

def testBit (words : Nat → BitVec 64) (index : Nat) : Bool :=
  (words (index / 64)).getLsbD (index % 64)

def setBit (words : Nat → BitVec 64) (index : Nat) : Nat → BitVec 64 :=
  Function.update words (index / 64) (words (index / 64) ||| mask index)

def clearBit (words : Nat → BitVec 64) (index : Nat) : Nat → BitVec 64 :=
  Function.update words (index / 64) (words (index / 64) &&& ~~~mask index)

variable (words : Nat → BitVec 64)

theorem getLsbD_mask (index bit : Nat) (bound : bit < 64) :
    (mask index).getLsbD bit = decide (bit = index % 64) := by
  have small : index % 64 < 64 := Nat.mod_lt _ (by decide)
  simp only [mask, BitVec.getLsbD_shiftLeft, BitVec.getLsbD_one]
  grind

theorem same_bit_iff (index other : Nat) (word : other / 64 = index / 64) :
    other % 64 = index % 64 ↔ other = index := by omega

theorem testBit_setBit (index other : Nat) :
    testBit (setBit words index) other = (decide (other = index) || testBit words other) := by
  have bound : other % 64 < 64 := Nat.mod_lt _ (by decide)
  by_cases word : other / 64 = index / 64
  · simp only [testBit, setBit, word, Function.update_self, BitVec.getLsbD_or,
      getLsbD_mask index _ bound, same_bit_iff index other word]
    rw [Bool.or_comm]
  · have different : other ≠ index := fun same => word (same ▸ rfl)
    simp [testBit, setBit, word, different]

theorem testBit_clearBit (index other : Nat) :
    testBit (clearBit words index) other = (decide (other ≠ index) && testBit words other) := by
  have bound : other % 64 < 64 := Nat.mod_lt _ (by decide)
  by_cases word : other / 64 = index / 64
  · simp only [testBit, clearBit, word, Function.update_self, BitVec.getLsbD_and,
      BitVec.getLsbD_not, getLsbD_mask index _ bound, same_bit_iff index other word, bound,
      decide_true, Bool.true_and, decide_not]
    rw [Bool.and_comm]
  · have different : other ≠ index := fun same => word (same ▸ rfl)
    simp [testBit, clearBit, word, different]

theorem and_mask_eq_zero_iff (index : Nat) :
    words (index / 64) &&& mask index = 0#64 ↔ testBit words index = false := by
  have bound : index % 64 < 64 := Nat.mod_lt _ (by decide)
  constructor
  · intro zero
    have bit := congrArg (fun word : BitVec 64 => word.getLsbD (index % 64)) zero
    simpa [getLsbD_mask index _ bound, testBit] using bit
  · intro clear
    apply BitVec.eq_of_getLsbD_eq
    intro bit small
    rw [BitVec.getLsbD_and, getLsbD_mask index bit small]
    by_cases same : bit = index % 64
    · subst same
      simpa [testBit] using clear
    · simp [same]

theorem clearBit_setBit (index : Nat) (clear : testBit words index = false) :
    clearBit (setBit words index) index = words := by
  funext word
  by_cases here : word = index / 64
  · subst here
    rw [clearBit, setBit, Function.update_self, Function.update_self]
    apply BitVec.eq_of_getLsbD_eq
    intro bit small
    rw [BitVec.getLsbD_and, BitVec.getLsbD_or, BitVec.getLsbD_not, getLsbD_mask index bit small]
    by_cases same : bit = index % 64
    · subst same
      simpa [testBit] using clear.symm
    · simp [same, small]
  · rw [clearBit, Function.update_of_ne here, setBit, Function.update_of_ne here]

theorem setBit_clearBit (index : Nat) (set : testBit words index = true) :
    setBit (clearBit words index) index = words := by
  funext word
  by_cases here : word = index / 64
  · subst here
    rw [setBit, clearBit, Function.update_self, Function.update_self]
    apply BitVec.eq_of_getLsbD_eq
    intro bit small
    rw [BitVec.getLsbD_or, BitVec.getLsbD_and, BitVec.getLsbD_not, getLsbD_mask index bit small]
    by_cases same : bit = index % 64
    · subst same
      simpa [testBit] using set.symm
    · simp [same, small]
  · rw [setBit, Function.update_of_ne here, clearBit, Function.update_of_ne here]

end Library.Bitmap
