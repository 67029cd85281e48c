import Drastic.RangeTree.Assertions

namespace Drastic

open Library.Ring (Links before after)

/-! What `rb_list_validate` accepts, in any heap. -/

/-- The list is a ring of proper nodes, and their ranges ascend as `test_range_compare` orders
them. -/
structure ListWellFormed (L : Layout) (heap : Heap) (nodes : List U64) : Prop where
  ring : ListRing L heap nodes
  proper : ∀ node ∈ nodes, IsNode L node ∧ node ≠ L.list
  ascending : nodes.Pairwise fun a b =>
    testRangeCompare (heap a).range (heap b).range < 0

variable {L : Layout} {s : RBState} {heap : Heap} {fuel : Nat} {node previous last : U64}

theorem testRangeCompare_trans {a b c : TestRange} (first : testRangeCompare a b < 0)
    (second : testRangeCompare b c < 0) : testRangeCompare a c < 0 := by
  rw [testRangeCompare_neg_iff] at first second ⊢
  grind

structure Checked (L : Layout) (heap : Heap) (node previous : U64) : Prop where
  isNode : IsNode L node
  left : prevOf heap node = previous
  right : nextOf heap node ≠ 0#64
  below : previous ≠ L.list → testRangeCompare (heap previous).range (heap node).range < 0

theorem validateFrom_turn
    (run : validateFrom L (fuel + 1) heap node previous = .ok last) (other : node ≠ L.list) :
    Checked L heap node previous ∧
      validateFrom L fuel heap (nextOf heap node) node = .ok last := by
  rw [validateFrom, if_neg other, kassert_bind_eq_ok] at run
  obtain ⟨valid, run⟩ := run
  rw [assertNotNil, nodeIsNil_eq valid, exec_bind_ok, kassert_bind_eq_ok, kassert_bind_eq_ok,
    kassert_bind_eq_ok, decide_eq_true_eq, decide_eq_true_eq] at run
  obtain ⟨notNil, left, right, run⟩ := run
  have isNode : IsNode L node := ⟨valid, by simpa using notNil⟩
  by_cases first : previous = L.list
  · rw [if_neg (not_not.mpr first)] at run
    exact ⟨⟨isNode, left, right, fun notFirst => absurd first notFirst⟩, run⟩
  · rw [if_pos first, kassert_bind_eq_ok, decide_eq_true_eq] at run
    exact ⟨⟨isNode, left, right, fun _ => run.1⟩, run.2⟩

structure Passed (L : Layout) (heap : Heap) (previous : U64) (nodes : List U64) (last : U64) :
    Prop where
  ends : last = before previous nodes
  linked : prevOf heap L.list = last → Links (nextOf heap) (prevOf heap) previous nodes L.list
  proper : ∀ node ∈ nodes, IsNode L node ∧ node ≠ L.list
  below : previous ≠ L.list → ∀ node ∈ nodes,
    testRangeCompare (heap previous).range (heap node).range < 0
  ascending : nodes.Pairwise fun a b =>
    testRangeCompare (heap a).range (heap b).range < 0

theorem validateFrom_sound (fuel : Nat) (previous : U64)
    (run : validateFrom L fuel heap (nextOf heap previous) previous = .ok last) :
    ∃ nodes, nodes.length < fuel ∧ Passed L heap previous nodes last := by
  induction fuel generalizing previous with
  | zero => cases run
  | succ fuel ih =>
      by_cases atEnd : nextOf heap previous = L.list
      · rw [validateFrom, if_pos atEnd] at run
        cases run
        exact ⟨[], Nat.succ_pos fuel, rfl, fun back => ⟨atEnd, back⟩, by simp, by simp, .nil⟩
      · obtain ⟨checked, later⟩ := validateFrom_turn run atEnd
        obtain ⟨nodes, short, passed⟩ := ih (nextOf heap previous) later
        have belowNext := passed.below atEnd
        refine ⟨nextOf heap previous :: nodes, Nat.succ_lt_succ short, ?_, ?_, ?_, ?_, ?_⟩
        · rw [Library.Ring.before_cons]
          exact passed.ends
        · exact fun back => ⟨rfl, checked.left, passed.linked back⟩
        · intro node member
          cases List.mem_cons.mp member with
          | inl isNext => exact isNext ▸ ⟨checked.isNode, atEnd⟩
          | inr inRest => exact passed.proper node inRest
        · intro notFirst node member
          have next := checked.below notFirst
          cases List.mem_cons.mp member with
          | inl isNext => exact isNext ▸ next
          | inr inRest => exact testRangeCompare_trans next (belowNext node inRest)
        · exact List.pairwise_cons.mpr ⟨belowNext, passed.ascending⟩

theorem rbListValidateWithin_eq_ok : rbListValidateWithin L fuel s = .ok () ↔
    rbTreeValid s = true ∧ prevOf s.heap L.list ≠ 0#64 ∧ nextOf s.heap L.list ≠ 0#64 ∧
      nextOf s.heap (prevOf s.heap L.list) = L.list ∧
      prevOf s.heap (nextOf s.heap L.list) = L.list ∧
      validateFrom L fuel s.heap (nextOf s.heap L.list) L.list =
        .ok (prevOf s.heap L.list) := by
  simp only [rbListValidateWithin, kassert_bind_eq_ok, decide_eq_true_eq, L.list_valid, true_and]
  rw [exec_bind_eq_ok]
  simp only [kassert_eq_ok, decide_eq_true_eq]
  constructor
  · rintro ⟨valid, left, right, there, here, last, walked, ends⟩
    exact ⟨valid, left, right, there, here, walked.trans (congrArg Except.ok ends)⟩
  · rintro ⟨valid, left, right, there, here, walked⟩
    exact ⟨valid, left, right, there, here, _, walked, rfl⟩

theorem ListWellFormed.accepted {nodes : List U64} (formed : ListWellFormed L s.heap nodes)
    (valid : rbTreeValid s = true) (short : nodes.length < fuel) :
    rbListValidateWithin L fuel s = .ok () := by
  let cells : List Cell := nodes.map fun node => ⟨node, (s.heap node).range⟩
  have addresses : cells.map Cell.address = nodes := by
    rw [List.map_map]
    exact List.map_id nodes
  have ring := formed.ring
  have closed : Links (nextOf s.heap) (prevOf s.heap) L.list (nodes ++ []) L.list := by
    rw [List.append_nil]
    exact ring
  have last : prevOf s.heap L.list = before L.list nodes :=
    (Library.Ring.links_gap L.list L.list nodes [] closed).2
  have first : nextOf s.heap L.list = after nodes L.list :=
    (Library.Ring.links_gap L.list L.list [] nodes ring).1
  obtain ⟨there, here⟩ := Library.Ring.links_inverse L.list _ ring L.list (List.mem_cons_self ..)
  have nonzero (node : U64) (member : node ∈ L.list :: nodes) : node ≠ 0#64 := by
    cases List.mem_cons.mp member with
    | inl isList => exact isList ▸ ((nodeValid_iff _).mp L.list_valid).1
    | inr inside => exact ((nodeValid_iff _).mp (formed.proper node inside).1.1).1
  rw [← addresses] at ring
  have walked := validateFrom_links cells L.list fuel
    (by rw [List.length_map]; exact short) ring (by
      intro cell member
      obtain ⟨node, inside, rfl⟩ := List.mem_map.mp member
      obtain ⟨isNode, other⟩ := formed.proper node inside
      exact ⟨isNode, other, rfl⟩)
    (fun notFirst => absurd rfl notFirst)
    (List.pairwise_map.mpr formed.ascending)
  rw [addresses, ← last] at walked
  exact rbListValidateWithin_eq_ok.mpr ⟨valid,
    nonzero _ (last ▸ Library.Ring.before_mem L.list nodes),
    nonzero _ (first ▸ Library.Ring.after_mem nodes L.list), there, here, walked⟩

/-- `rb_list_validate` ends without a failed assertion exactly on the well-formed lists. -/
theorem list_validate_decides (L : Layout) (s : RBState) :
    (∃ turns, rbListValidateWithin L turns s = .ok ()) ↔
      rbTreeValid s = true ∧ ∃ nodes, ListWellFormed L s.heap nodes := by
  constructor
  · rintro ⟨turns, accepted⟩
    obtain ⟨valid, _, _, _, _, walked⟩ := rbListValidateWithin_eq_ok.mp accepted
    obtain ⟨nodes, _, passed⟩ := validateFrom_sound _ _ walked
    exact ⟨valid, nodes, passed.linked rfl, passed.proper, passed.ascending⟩
  · rintro ⟨valid, nodes, formed⟩
    exact ⟨nodes.length + 1, formed.accepted valid (Nat.lt_succ_self _)⟩

end Drastic
