import Mathlib.Data.List.Basic
import Drastic.Library.WordMemory

namespace Library.WordStack

open Library.WordMemory

/-- The words from `top` up, the first one at `top`. They end at the end of the address
space at the latest. -/
structure Stack (memory : Memory) (top : Word) (words : List Word) : Prop where
  fits : top.toNat + 8 * words.length ≤ 2 ^ 64
  word : ∀ k (inside : k < words.length),
    readWord memory (top + BitVec.ofNat 64 (8 * k)) = words[k]

variable {memory memory' : Memory} {top : Word} {words : List Word}

theorem Stack.congr (stack : Stack memory top words)
    (same : ∀ a, top ≤ a → a.toNat < top.toNat + 8 * words.length → memory' a = memory a) :
    Stack memory' top words := by
  refine ⟨stack.fits, ?_⟩
  intro k inside
  rw [← stack.word k inside]
  apply readWord_congr
  intro a near
  have fits := stack.fits
  exact same a (by bv_omega) (by bv_omega)

theorem writeWord_above {value : Word} (room : 8 ≤ top.toNat) (a : Word) (above : top ≤ a) :
    writeWord memory (top - 8) value a = memory a := by
  rw [writeWord, if_neg]
  bv_omega

theorem Stack.push (stack : Stack memory top words) (room : 8 ≤ top.toNat) (value : Word) :
    Stack (writeWord memory (top - 8) value) (top - 8) (value :: words) := by
  have fits := stack.fits
  refine ⟨by rw [List.length_cons]; bv_omega, ?_⟩
  intro k inside
  cases k with
  | zero =>
      rw [Nat.mul_zero, BitVec.add_zero]
      exact readWord_writeWord memory (top - 8) value
  | succ k =>
      have after : Stack (writeWord memory (top - 8) value) top words :=
        stack.congr fun a above _ => writeWord_above room a above
      rw [List.getElem_cons_succ, ← after.word k (Nat.lt_of_succ_lt_succ inside)]
      apply congrArg
      bv_omega

theorem Stack.head {first : Word} (stack : Stack memory top (first :: words)) :
    readWord memory top = first := by
  have word := stack.word 0 (Nat.succ_pos _)
  rw [Nat.mul_zero, BitVec.add_zero] at word
  exact word

theorem Stack.pop {first : Word} (stack : Stack memory top (first :: words)) :
    Stack memory (top + 8) words := by
  have fits := stack.fits
  rw [List.length_cons] at fits
  refine ⟨by bv_omega, ?_⟩
  intro k inside
  have word := stack.word (k + 1) (Nat.succ_lt_succ inside)
  rw [List.getElem_cons_succ] at word
  rw [← word]
  apply congrArg
  bv_omega

end Library.WordStack
