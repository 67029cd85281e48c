import Mathlib.Data.Nat.Digits.Lemmas

namespace Library.Positional

def lowDigits (base n : Nat) : List Nat := if n = 0 then [0] else Nat.digits base n

variable {base n : Nat}

theorem lowDigits_step (large : 1 < base) (n : Nat) :
    lowDigits base n = n % base :: if n / base = 0 then [] else lowDigits base (n / base) := by
  by_cases zero : n = 0
  · simp [lowDigits, zero]
  · rw [lowDigits, if_neg zero, Nat.digits_def' large (Nat.pos_of_ne_zero zero)]
    by_cases last : n / base = 0
    · rw [if_pos last, last, Nat.digits_zero]
    · rw [if_neg last, lowDigits, if_neg last]

theorem lowDigits_ne_nil (base n : Nat) : lowDigits base n ≠ [] := by
  unfold lowDigits
  split
  case isTrue => simp
  case isFalse nonzero => exact Nat.digits_ne_nil_iff_ne_zero.mpr nonzero

theorem ofDigits_lowDigits (base n : Nat) : Nat.ofDigits base (lowDigits base n) = n := by
  unfold lowDigits
  split
  case isTrue zero => simp [zero]
  case isFalse => exact Nat.ofDigits_digits base n

theorem lt_of_mem_lowDigits (large : 1 < base) {digit : Nat}
    (member : digit ∈ lowDigits base n) : digit < base := by
  unfold lowDigits at member
  split at member
  case isTrue =>
    rw [List.mem_singleton] at member
    omega
  case isFalse => exact Nat.digits_lt_base large member

theorem lowDigits_length_le (large : 1 < base) {count : Nat} (positive : 0 < count)
    (small : n < base ^ count) : (lowDigits base n).length ≤ count := by
  unfold lowDigits
  split
  case isTrue => exact positive
  case isFalse => exact (Nat.digits_length_le_iff large n).mpr small

theorem lowDigits_leading (base n : Nat) (zero : (lowDigits base n).getLast? = some 0) :
    lowDigits base n = [0] := by
  unfold lowDigits at zero ⊢
  split at zero
  case isTrue isZero => rw [if_pos isZero]
  case isFalse nonzero =>
    have present : Nat.digits base n ≠ [] := Nat.digits_ne_nil_iff_ne_zero.mpr nonzero
    rw [List.getLast?_eq_getLast_of_ne_nil present, Option.some.injEq] at zero
    exact absurd zero (Nat.getLast_digit_ne_zero base nonzero)

theorem ofDigits_padded (base n count : Nat) :
    Nat.ofDigits base (lowDigits base n ++ List.replicate count 0) = n := by
  rw [Nat.ofDigits_append_replicate_zero, ofDigits_lowDigits]

end Library.Positional
