import Mathlib.Data.List.Infix
import Mathlib.Tactic.Common

namespace Library

/-! Paths by their components, kept in the form to which they are cleaned up. -/

inductive PathPart (α : Type) where
  | here
  | up
  | name (name : α)
  deriving DecidableEq, Repr

/-- The root directory, or one so many levels above the working directory. -/
inductive PathBase where
  | root
  | above (levels : Nat)
  deriving DecidableEq, Repr

/-- A clean path goes up first, if at all, and then down. -/
structure CleanPath (α : Type) where
  base : PathBase
  names : List α
  deriving DecidableEq, Repr

namespace CleanPath

variable {α : Type}

def ofBase (base : PathBase) : CleanPath α := ⟨base, []⟩

/-- Nothing lies above the root. -/
def up (p : CleanPath α) : CleanPath α :=
  match p.names, p.base with
  | [], .root => p
  | [], .above levels => ofBase (.above (levels + 1))
  | _ :: _, _ => { p with names := p.names.dropLast }

def down (p : CleanPath α) (name : α) : CleanPath α := { p with names := p.names ++ [name] }

def step (p : CleanPath α) : PathPart α → CleanPath α
  | .here => p
  | .up => p.up
  | .name name => p.down name

def follow (p : CleanPath α) (parts : List (PathPart α)) : CleanPath α := parts.foldl step p

def parent (p : CleanPath α) : Option (CleanPath α) :=
  if p.names = [] then none else some { p with names := p.names.dropLast }

def ancestors (p : CleanPath α) : List (CleanPath α) :=
  (List.range (p.names.length - 1)).map fun level => { p with names := p.names.take (level + 1) }

def Within (directory p : CleanPath α) : Prop :=
  directory.base = p.base ∧ directory.names <+: p.names

instance [DecidableEq α] (directory p : CleanPath α) : Decidable (Within directory p) :=
  inferInstanceAs (Decidable (_ ∧ _))

/-- The parts never lead out of the directory that they are followed from, so many names deep. -/
def Inner : Nat → List (PathPart α) → Prop
  | _, [] => True
  | depth, .here :: rest => Inner depth rest
  | depth, .up :: rest => 0 < depth ∧ Inner (depth - 1) rest
  | depth, .name _ :: rest => Inner (depth + 1) rest

instance decidableInner : (depth : Nat) → (parts : List (PathPart α)) →
    Decidable (Inner depth parts)
  | _, [] => inferInstanceAs (Decidable True)
  | depth, .here :: rest => decidableInner depth rest
  | depth, .up :: rest =>
    have := decidableInner (depth - 1) rest
    inferInstanceAs (Decidable (_ ∧ _))
  | depth, .name _ :: rest => decidableInner (depth + 1) rest

variable {p directory other : CleanPath α}

theorem follow_cons (part : PathPart α) (rest : List (PathPart α)) :
    p.follow (part :: rest) = (p.step part).follow rest := rfl

theorem follow_append (parts rest : List (PathPart α)) :
    p.follow (parts ++ rest) = (p.follow parts).follow rest := List.foldl_append

theorem up_names (names : List α) (some : names ≠ []) (base : PathBase) :
    up (⟨base, names⟩ : CleanPath α) = ⟨base, names.dropLast⟩ := by
  cases names with
  | nil => exact absurd rfl some
  | cons first rest => rfl

theorem follow_within (directory : CleanPath α) (parts : List (PathPart α)) (deeper : List α)
    (inner : Inner deeper.length parts) :
    Within directory (follow { directory with names := directory.names ++ deeper } parts) := by
  induction parts generalizing deeper with
  | nil => exact ⟨rfl, List.prefix_append _ _⟩
  | cons part rest ih =>
      rw [follow_cons]
      cases part with
      | here => exact ih deeper inner
      | up =>
          cases deeper with
          | nil => exact absurd inner.1 (Nat.lt_irrefl 0)
          | cons first others =>
              have some : directory.names ++ first :: others ≠ [] := by simp
              have left : (first :: others).dropLast.length = others.length := by simp
              rw [step, up_names _ some, List.dropLast_append_of_ne_nil (by simp)]
              exact ih _ (left ▸ inner.2)
      | name name =>
          rw [step, down, List.append_assoc]
          apply ih
          rw [List.length_append]
          exact inner

theorem parent_eq (parent : p.parent = some directory) :
    p.names ≠ [] ∧ directory = { p with names := p.names.dropLast } := by
  unfold CleanPath.parent at parent
  split_ifs at parent with base
  exact ⟨base, (Option.some.inj parent).symm⟩

theorem ancestors_eq (parent : p.parent = some directory) :
    p.ancestors = directory.ancestors ++ if directory.names = [] then [] else [directory] := by
  obtain ⟨some, rfl⟩ := parent_eq parent
  have length : p.names.dropLast.length = p.names.length - 1 := List.length_dropLast
  by_cases top : p.names.dropLast = []
  · have one : p.names.length - 1 = 0 := by rw [← length, top, List.length_nil]
    simp only [ancestors, one, top, if_true, List.length_nil, Nat.zero_sub, List.range_zero,
      List.map_nil, List.append_nil]
  · have positive : 0 < p.names.dropLast.length := List.length_pos_iff.mpr top
    have levels : p.names.length - 1 = p.names.dropLast.length - 1 + 1 := by omega
    have last : p.names.take (p.names.dropLast.length - 1 + 1) = p.names.dropLast := by
      rw [← levels, List.dropLast_eq_take]
    rw [if_neg top, ancestors, levels, List.range_succ, List.map_append, ancestors]
    refine congrArg₂ (· ++ ·) (List.map_congr_left ?_) ?_
    · intro level member
      have below := List.mem_range.mp member
      dsimp only
      rw [List.dropLast_eq_take, List.take_take, min_eq_left (by omega)]
    · rw [List.map_singleton, last]

def Apart (directory other : CleanPath α) : Prop :=
  ¬ Within directory other ∧ ¬ Within other directory

instance [DecidableEq α] (directory other : CleanPath α) : Decidable (Apart directory other) :=
  inferInstanceAs (Decidable (_ ∧ _))

theorem Apart.disjoint (apart : Apart directory other) (inside : Within directory p) :
    ¬ Within other p := by
  rintro ⟨base, leads⟩
  cases List.prefix_or_prefix_of_prefix inside.2 leads with
  | inl first => exact apart.1 ⟨inside.1.trans base.symm, first⟩
  | inr second => exact apart.2 ⟨base.trans inside.1.symm, second⟩

end CleanPath

end Library
