import Mathlib.Data.List.Nodup
import Mathlib.Logic.Function.Basic

namespace Library

variable {κ ν : Type}

theorem keys_some (list : List (κ × ν)) :
    (list.map fun pair => (pair.1, some pair.2)).map Prod.fst = list.map Prod.fst := by
  rw [List.map_map]
  rfl

variable [DecidableEq κ]

def writes (m : κ → ν) (list : List (κ × ν)) : κ → ν :=
  list.foldl (fun m pair => Function.update m pair.1 pair.2) m

theorem writes_append (m : κ → ν) (list more : List (κ × ν)) :
    writes m (list ++ more) = writes (writes m list) more := List.foldl_append

theorem writes_absent (m : κ → ν) (list : List (κ × ν)) {key : κ}
    (absent : key ∉ list.map Prod.fst) : writes m list key = m key := by
  induction list generalizing m with
  | nil => rfl
  | cons pair rest ih =>
      rw [List.map_cons, List.mem_cons, not_or] at absent
      exact (ih _ absent.2).trans (Function.update_of_ne absent.1 _ m)

theorem writes_agree (m : κ → ν) (list : List (κ × ν))
    (agree : ∀ pair ∈ list, ∀ other ∈ list, pair.1 = other.1 → pair.2 = other.2)
    {pair : κ × ν} (member : pair ∈ list) : writes m list pair.1 = pair.2 := by
  induction list generalizing m pair with
  | nil => exact absurd member List.not_mem_nil
  | cons first rest ih =>
      by_cases later : pair.1 ∈ rest.map Prod.fst
      · obtain ⟨other, inRest, same⟩ := List.mem_map.mp later
        have value := ih (Function.update m first.1 first.2)
          (fun p inside q inside' => agree p (List.mem_cons_of_mem _ inside) q
            (List.mem_cons_of_mem _ inside')) inRest
        rw [same] at value
        exact value.trans (agree other (List.mem_cons_of_mem _ inRest) pair member same)
      · have here : pair = first :=
          (List.mem_cons.mp member).resolve_right fun inRest =>
            later (List.mem_map_of_mem inRest)
        subst here
        exact (writes_absent _ rest later).trans (Function.update_self ..)

theorem writes_present (m : κ → ν) (list : List (κ × ν)) (distinct : (list.map Prod.fst).Nodup)
    {pair : κ × ν} (member : pair ∈ list) : writes m list pair.1 = pair.2 := by
  refine writes_agree m list ?_ member
  intro p inside q inside' same
  exact congrArg Prod.snd (List.inj_on_of_nodup_map distinct inside inside' same)

theorem writes_flatMap {α : Type} (turns : List α) (turn : α → List (κ × ν)) (m : κ → ν) :
    turns.foldl (fun m a => writes m (turn a)) m = writes m (turns.flatMap turn) := by
  induction turns generalizing m with
  | nil => rfl
  | cons a rest ih => rw [List.flatMap_cons, writes_append, List.foldl_cons, ih]

def assign (m : κ → Option ν) (list : List (κ × ν)) : κ → Option ν :=
  writes m (list.map fun pair => (pair.1, some pair.2))

theorem assign_nil (m : κ → Option ν) : assign m [] = m := rfl

theorem assign_cons (m : κ → Option ν) (pair : κ × ν) (rest : List (κ × ν)) :
    assign m (pair :: rest) = assign (Function.update m pair.1 (some pair.2)) rest := rfl

theorem assign_append (m : κ → Option ν) (list more : List (κ × ν)) :
    assign m (list ++ more) = assign (assign m list) more := by
  rw [assign, List.map_append, writes_append]
  rfl

theorem assign_absent (m : κ → Option ν) (list : List (κ × ν)) {key : κ}
    (absent : key ∉ list.map Prod.fst) : assign m list key = m key := by
  apply writes_absent
  rw [keys_some]
  exact absent

theorem assign_present (m : κ → Option ν) (list : List (κ × ν))
    (distinct : (list.map Prod.fst).Nodup) {pair : κ × ν} (member : pair ∈ list) :
    assign m list pair.1 = some pair.2 := by
  rw [← keys_some] at distinct
  exact writes_present m _ distinct (List.mem_map_of_mem member)

end Library
