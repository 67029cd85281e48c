import Mathlib.Data.BitVec
import Mathlib.Tactic.Common

namespace Library.LittleEndian

/-- The number a list of bytes stands for, the lowest byte first. -/
def ofBytes : List (BitVec 8) → Nat
  | [] => 0
  | byte :: rest => byte.toNat + 256 * ofBytes rest

theorem ofBytes_lt (bytes : List (BitVec 8)) : ofBytes bytes < 256 ^ bytes.length := by
  induction bytes with
  | nil => exact Nat.zero_lt_one
  | cons byte rest ih =>
      have bound := byte.isLt
      rw [ofBytes, List.length_cons, Nat.pow_succ]
      omega

theorem ofBytes_inj {bytes bytes' : List (BitVec 8)} (length : bytes.length = bytes'.length) :
    ofBytes bytes = ofBytes bytes' ↔ bytes = bytes' := by
  refine ⟨?_, congrArg ofBytes⟩
  intro same
  induction bytes generalizing bytes' with
  | nil => exact (List.length_eq_zero_iff.mp length.symm).symm
  | cons byte rest ih =>
      cases bytes' with
      | nil => cases length
      | cons byte' rest' =>
          have bound := byte.isLt
          have bound' := byte'.isLt
          rw [ofBytes, ofBytes] at same
          have first : byte = byte' := BitVec.eq_of_toNat_eq (by omega)
          have others := ih (Nat.succ.inj length) (by omega)
          rw [first, others]

end Library.LittleEndian
