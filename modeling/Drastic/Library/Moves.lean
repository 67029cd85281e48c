import Mathlib.Data.List.Basic
import Mathlib.Logic.Function.Basic

namespace Library.Moves

/-! Single moves of values between the cells of a memory, one after the other. -/

variable {Cell Value : Type*} [DecidableEq Cell]

structure Move (Cell : Type*) where
  target : Cell
  source : Cell

def Move.run (memory : Cell → Value) (move : Move Cell) : Cell → Value :=
  Function.update memory move.target (memory move.source)

def runMoves (moves : List (Move Cell)) (memory : Cell → Value) : Cell → Value :=
  moves.foldl Move.run memory

/-- No move reads or writes the target of an earlier one. -/
def Apart (moves : List (Move Cell)) : Prop :=
  moves.Pairwise fun earlier later =>
    later.source ≠ earlier.target ∧ later.target ≠ earlier.target

variable {moves : List (Move Cell)} {memory : Cell → Value}

theorem runMoves_other {cell : Cell} (outside : ∀ move ∈ moves, cell ≠ move.target) :
    runMoves moves memory cell = memory cell := by
  induction moves generalizing memory with
  | nil => rfl
  | cons move rest ih =>
      have later : ∀ move ∈ rest, cell ≠ move.target :=
        fun other member => outside other (List.mem_cons_of_mem _ member)
      calc runMoves rest (move.run memory) cell
          _ = move.run memory cell := ih later
          _ = memory cell := Function.update_of_ne (outside move List.mem_cons_self) _ _

/-- Moves that are apart act as if all of them read first. -/
theorem runMoves_target (apart : Apart moves) {move : Move Cell} (member : move ∈ moves) :
    runMoves moves memory move.target = memory move.source := by
  induction moves generalizing memory with
  | nil => exact absurd member List.not_mem_nil
  | cons first rest ih =>
      have fromFirst := (List.pairwise_cons.mp apart).1
      cases List.mem_cons.mp member with
      | inl here =>
          rw [here]
          calc runMoves rest (first.run memory) first.target
              _ = first.run memory first.target :=
                runMoves_other fun other inRest => (fromFirst other inRest).2.symm
              _ = memory first.source := Function.update_self ..
      | inr inRest =>
          calc runMoves rest (first.run memory) move.target
              _ = first.run memory move.source := ih (List.Pairwise.of_cons apart) inRest
              _ = memory move.source := Function.update_of_ne (fromFirst move inRest).1 _ _

end Library.Moves
