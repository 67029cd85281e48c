import Mathlib.Data.List.Nodup
import Mathlib.Data.List.Perm.Subperm
import Mathlib.Tactic.Common

namespace Library

/-- A stack of distinct numbers below a bound, the top last. -/
structure FreeStack (count : Nat) where
  items : List Nat
  distinct : items.Nodup
  bounded : ∀ item ∈ items, item < count

namespace FreeStack

variable {count : Nat} (stack : FreeStack count)

def dropTop : FreeStack count where
  items := stack.items.dropLast
  distinct := stack.distinct.sublist (List.dropLast_sublist _)
  bounded item member := stack.bounded item ((List.dropLast_sublist _).subset member)

def push (item : Nat) (bound : item < count) (fresh : item ∉ stack.items) : FreeStack count where
  items := stack.items ++ [item]
  distinct := by
    rw [List.nodup_append']
    exact ⟨stack.distinct, by simp, by simpa using fresh⟩
  bounded other member := by
    rcases List.mem_append.mp member with inside | last
    · exact stack.bounded other inside
    · rwa [List.mem_singleton.mp last]

/-- As long as a number is missing there is room for it. -/
theorem length_lt_of_missing {item : Nat} (bound : item < count) (fresh : item ∉ stack.items) :
    stack.items.length < count := by
  have distinct : (item :: stack.items).Nodup := List.nodup_cons.mpr ⟨fresh, stack.distinct⟩
  have within : (item :: stack.items).Subperm (List.range count) := by
    apply distinct.subperm
    intro other member
    rw [List.mem_range]
    rcases List.mem_cons.mp member with rfl | inside
    · exact bound
    · exact stack.bounded other inside
  have short := within.length_le
  rw [List.length_cons, List.length_range] at short
  omega

theorem length_le : stack.items.length ≤ count := by
  have within : stack.items.Subperm (List.range count) := by
    apply stack.distinct.subperm
    intro other member
    exact List.mem_range.mpr (stack.bounded other member)
  simpa using within.length_le

theorem countP_members :
    (List.range count).countP (fun item => decide (item ∈ stack.items)) = stack.items.length := by
  rw [List.countP_eq_length_filter]
  refine (List.Perm.length_eq ?_).trans rfl
  apply (List.perm_ext_iff_of_nodup (List.nodup_range.filter _) stack.distinct).mpr
  intro item
  rw [List.mem_filter, List.mem_range, decide_eq_true_eq]
  exact ⟨fun member => member.2, fun member => ⟨stack.bounded item member, member⟩⟩

theorem nonempty_iff : stack.items ≠ [] ↔ ∃ item < count, item ∈ stack.items := by
  constructor
  · intro some
    obtain ⟨item, member⟩ := List.exists_mem_of_ne_nil _ some
    exact ⟨item, stack.bounded item member, member⟩
  · rintro ⟨item, _, member⟩ empty
    rw [empty] at member
    exact absurd member List.not_mem_nil

end FreeStack

end Library
