import Mathlib.Data.List.Nodup
import Mathlib.Tactic.Common

namespace Library.Chain

variable {β : Type}

def ChainFrom (step : β → β) (stop : β) : β → List β → Prop
  | start, [] => start = stop
  | start, cell :: rest => start = cell ∧ cell ≠ stop ∧ ChainFrom step stop (step cell) rest

variable {step step' : β → β} {stop : β}

theorem chain_congr (start : β) (cells : List β) (same : ∀ cell ∈ cells, step' cell = step cell)
    (chain : ChainFrom step stop start cells) : ChainFrom step' stop start cells := by
  induction cells generalizing start with
  | nil => exact chain
  | cons cell rest ih =>
      obtain ⟨here, present, tail⟩ := chain
      refine ⟨here, present, ?_⟩
      rw [same cell (by simp)]
      exact ih _ (fun other member => same other (List.mem_cons_of_mem _ member)) tail

theorem chain_unique (start : β) (cells others : List β) (first : ChainFrom step stop start cells)
    (second : ChainFrom step stop start others) : cells = others := by
  induction cells generalizing start others with
  | nil =>
      cases others with
      | nil => rfl
      | cons other rest => exact absurd (second.1.symm.trans first) second.2.1
  | cons cell rest ih =>
      cases others with
      | nil => exact absurd (first.1.symm.trans second) first.2.1
      | cons other tail =>
          obtain rfl : cell = other := first.1.symm.trans second.1
          rw [ih _ tail first.2.2 second.2.2]

theorem chain_suffix (front back : List β) (start cell : β)
    (chain : ChainFrom step stop start (front ++ cell :: back)) :
    ChainFrom step stop cell (cell :: back) := by
  induction front generalizing start with
  | nil => exact ⟨rfl, chain.2⟩
  | cons head tail ih => exact ih _ chain.2.2

theorem chain_nodup (start : β) (cells : List β) (chain : ChainFrom step stop start cells) :
    cells.Nodup := by
  -- the rest of a chain is determined by its first cell, so a repetition would
  -- make a list equal to a proper part of itself
  induction cells generalizing start with
  | nil => simp
  | cons cell rest ih =>
      refine List.nodup_cons.mpr ⟨?_, ih _ chain.2.2⟩
      intro again
      obtain ⟨front, back, rfl⟩ := List.append_of_mem again
      have later := chain_suffix (cell :: front) back start cell chain
      have whole : ChainFrom step stop cell (cell :: (front ++ cell :: back)) := ⟨rfl, chain.2⟩
      have same := congrArg List.length (chain_unique cell _ _ later whole)
      simp at same
      omega

theorem chain_step_ne (start cell : β) (cells : List β) (chain : ChainFrom step stop start cells)
    (member : cell ∈ cells) : step cell ≠ cell := by
  obtain ⟨front, back, rfl⟩ := List.append_of_mem member
  have entered := chain_suffix front back start cell chain
  have distinct := chain_nodup cell _ entered
  intro same
  cases back with
  | nil => exact entered.2.1 (same.symm.trans entered.2.2)
  | cons next rest =>
      have linked : step cell = next := entered.2.2.1
      rw [List.nodup_cons] at distinct
      exact distinct.1 (by simp [← linked, same])

theorem chain_concat (start last fresh : β) (front : List β)
    (chain : ChainFrom step stop start (front ++ [last])) (outside : fresh ∉ front ++ [last])
    (present : fresh ≠ stop) (linked : step' last = fresh) (ends : step' fresh = stop)
    (same : ∀ cell, cell ≠ last → cell ≠ fresh → step' cell = step cell) :
    ChainFrom step' stop start (front ++ [last, fresh]) := by
  have distinct := chain_nodup start _ chain
  induction front generalizing start with
  | nil =>
      refine ⟨chain.1, chain.2.1, ?_⟩
      rw [linked]
      exact ⟨rfl, present, ends⟩
  | cons cell rest ih =>
      simp only [List.cons_append, List.nodup_cons, List.mem_append, List.mem_cons,
        List.not_mem_nil, or_false, not_or] at distinct outside
      refine ⟨chain.1, chain.2.1, ?_⟩
      rw [same cell distinct.1.2 (Ne.symm outside.1)]
      refine ih _ chain.2.2 ?_ distinct.2
      simpa using outside.2

end Library.Chain
