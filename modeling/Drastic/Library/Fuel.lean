import Mathlib.Tactic.Common

namespace Library.Fuel

/-! Runs that stop with the error `empty` when their fuel is used up. -/

variable {ε α β : Type} {empty : ε}

/-- `y` agrees with `x`, except that it may go on where `x` has no fuel left. -/
def Extends (empty : ε) (x y : Except ε α) : Prop := x = .error empty ∨ x = y

theorem Extends.refl (x : Except ε α) : Extends empty x x := .inr rfl

theorem Extends.of_empty (y : Except ε α) : Extends empty (.error empty) y := .inl rfl

theorem Extends.bind {x y : Except ε α} {f g : α → Except ε β} (first : Extends empty x y)
    (next : ∀ a, Extends empty (f a) (g a)) : Extends empty (x >>= f) (y >>= g) := by
  cases first with
  | inl stopped =>
      rw [stopped]
      exact .inl rfl
  | inr same =>
      rw [← same]
      cases x with
      | error stop => exact .refl _
      | ok a => exact next a

theorem Extends.after (x : Except ε α) {f g : α → Except ε β}
    (next : ∀ a, Extends empty (f a) (g a)) : Extends empty (x >>= f) (x >>= g) :=
  .bind (.refl x) next

theorem Extends.ite {x y x' y' : Except ε α} (condition : Prop) [Decidable condition]
    (yes : Extends empty x y) (no : Extends empty x' y') :
    Extends empty (if condition then x else x') (if condition then y else y') := by
  split
  · exact yes
  · exact no

theorem Extends.ok {a : α} {y : Except ε α} (goesOn : Extends empty (.ok a) y) : y = .ok a := by
  cases goesOn with
  | inl stopped => cases stopped
  | inr same => exact same.symm

/-- With `depth` as its fuel the run completes, and more fuel changes nothing. -/
def NestsWithin (depth : Nat) (run : Nat → Except ε α) : Prop :=
  ∃ result, ∀ fuel, depth ≤ fuel → run fuel = .ok result

theorem nestsWithin_of_ok {run : Nat → Except ε α} {depth : Nat} {result : α}
    (more : ∀ fuel, Extends empty (run fuel) (run (fuel + 1))) (done : run depth = .ok result) :
    NestsWithin depth run := by
  refine ⟨result, ?_⟩
  intro fuel enough
  induction enough with
  | refl => exact done
  | @step fuel _ ih =>
      have next := more fuel
      rw [ih] at next
      exact next.ok

end Library.Fuel
