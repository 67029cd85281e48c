import Mathlib.Tactic.Common

namespace Library

/-! What holds of the result whenever a fallible run has one. -/

variable {ε α β : Type} {post : α → Prop} {goal : β → Prop}

def Ensures (post : α → Prop) (run : Except ε α) : Prop := ∀ result, run = .ok result → post result

theorem Ensures.pure {result : α} (holds : post result) :
    Ensures post (.ok result : Except ε α) := by
  intro _ same
  cases same
  exact holds

theorem Ensures.error (stop : ε) : Ensures post (.error stop : Except ε α) := by
  intro _ same
  cases same

theorem Ensures.bind {run : Except ε α} {next : α → Except ε β} (first : Ensures post run)
    (later : ∀ a, post a → Ensures goal (next a)) : Ensures goal (run >>= next) := by
  cases run with
  | error stop => exact .error stop
  | ok a => exact later a (first a rfl)

theorem Ensures.after (run : Except ε α) {next : α → Except ε β}
    (later : ∀ a, Ensures goal (next a)) : Ensures goal (run >>= next) :=
  (show Ensures (fun _ => True) run from fun _ _ => trivial).bind fun a _ => later a

theorem Ensures.ite {yes no : Except ε α} (condition : Prop) [Decidable condition]
    (ifTrue : condition → Ensures post yes) (ifFalse : ¬ condition → Ensures post no) :
    Ensures post (if condition then yes else no) := by
  split
  case isTrue holds => exact ifTrue holds
  case isFalse fails => exact ifFalse fails

end Library
