import Drastic.Library.RedBlack.Balance

namespace Library.RedBlack.ColorTree

variable {α : Type} {t : ColorTree α} {c : Color} {n : Nat}

/-- At most every second node on a path is red. -/
theorem Balanced.height_le (balanced : Balanced t c n) :
    t.height ≤ 2 * n + if c = .red then 1 else 0 := by
  induction balanced with
  | nil => exact Nat.zero_le _
  | red a hl hr ihl ihr =>
      rw [if_neg (by decide)] at ihl ihr
      rw [height, if_pos rfl]
      omega
  | @black _ _ cl cr _ a hl hr ihl ihr =>
      rw [height]
      have atMostOne (color : Color) : (if color = .red then 1 else 0) ≤ 1 := by
        split <;> decide
      have left := atMostOne cl
      have right := atMostOne cr
      omega

theorem Balanced.two_pow_le_size (balanced : Balanced t c n) : 2 ^ n ≤ t.size + 1 := by
  induction balanced with
  | nil => exact Nat.le_refl 1
  | red a hl hr ihl ihr =>
      rw [size]
      omega
  | black a hl hr ihl ihr =>
      rw [size, Nat.pow_succ]
      omega

theorem Balanced.two_pow_height_le (balanced : Balanced t .black n) :
    2 ^ t.height ≤ (t.size + 1) ^ 2 := by
  have high := balanced.height_le
  rw [if_neg (by decide), Nat.add_zero] at high
  calc 2 ^ t.height
      _ ≤ 2 ^ (n * 2) := Nat.pow_le_pow_right (by decide) (by omega)
      _ = (2 ^ n) ^ 2 := Nat.pow_mul ..
      _ ≤ (t.size + 1) ^ 2 := Nat.pow_le_pow_left balanced.two_pow_le_size 2

end Library.RedBlack.ColorTree
