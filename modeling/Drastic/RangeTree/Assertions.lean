import Drastic.RangeTree.Search

namespace Drastic

open Library.RedBlack (ColorTree)
open Library.Ring (Links before after)

def validateFrom (L : Layout) : Nat → Heap → U64 → U64 → Exec U64
  | 0, _, _, _ => .error .recursionDepth
  | fuel + 1, heap, node, previous => do
    if node = L.list then return previous
    kassert (nodeValid node) "node_valid(node)"
    assertNotNil L node
    kassert ((heap node).list .left = previous) "node->list[RB_LEFT] == previous"
    kassert ((heap node).list .right ≠ 0#64) "node->list[RB_RIGHT] != NULL"
    if previous ≠ L.list then
      kassert (testRangeCompare (heap previous).range (heap node).range < 0)
        "test_range_compare(previous->range, node->range) < 0"
    validateFrom L fuel heap ((heap node).list .right) node

/-- With a bound on the turns of its loop, which has none. -/
def rbListValidateWithin (L : Layout) (turns : Nat) (s : RBState) : Exec Unit := do
  kassert (rbTreeValid s) "rb_tree_valid(tree)"
  let sentinel := s.heap L.list
  kassert (nodeValid L.list) "node_valid(sentinel)"
  kassert (sentinel.list .left ≠ 0#64) "sentinel->list[RB_LEFT] != NULL"
  kassert (sentinel.list .right ≠ 0#64) "sentinel->list[RB_RIGHT] != NULL"
  kassert ((s.heap (sentinel.list .left)).list .right = L.list)
    "sentinel->list[RB_LEFT]->list[RB_RIGHT] == sentinel"
  kassert ((s.heap (sentinel.list .right)).list .left = L.list)
    "sentinel->list[RB_RIGHT]->list[RB_LEFT] == sentinel"
  let previous ← validateFrom L turns s.heap (sentinel.list .right) L.list
  kassert (previous = sentinel.list .left) "previous == sentinel->list[RB_LEFT]"

def rbListValidate (L : Layout) (s : RBState) : Exec Unit :=
  rbListValidateWithin L (recursionBudget s) s

variable {L : Layout} {s : RBState} {heap : Heap} {t : ColorTree Cell} {free : List U64}

theorem next_present {address : U64} {cells : List Cell}
    (linked : Links (nextOf heap) (prevOf heap) address (cells.map Cell.address) L.list)
    (stored : ∀ cell ∈ cells, IsNode L cell.address) :
    (heap address).list .right ≠ 0#64 := by
  have gap := (Library.Ring.links_gap address L.list [] _ linked).1
  have target := Library.Ring.after_mem (cells.map Cell.address) L.list
  rw [← gap, List.mem_cons] at target
  cases target with
  | inl isList => exact fun zero => ((nodeValid_iff _).mp L.list_valid).1 (isList ▸ zero)
  | inr inRest =>
      obtain ⟨other, member, same⟩ := List.mem_map.mp inRest
      have valid := (stored other member).1
      exact fun zero => ((nodeValid_iff _).mp valid).1 (same.trans zero)

theorem validateFrom_links (cells : List Cell) :
    ∀ (previous : U64) (fuel : Nat), cells.length < fuel →
      Links (nextOf heap) (prevOf heap) previous (cells.map Cell.address) L.list →
      (∀ cell ∈ cells, IsNode L cell.address ∧ cell.address ≠ L.list ∧
        (heap cell.address).range = cell.range) →
      (previous ≠ L.list → ∀ cell ∈ cells,
        testRangeCompare (heap previous).range cell.range < 0) →
      cells.Pairwise (fun a b => testRangeCompare a.range b.range < 0) →
      validateFrom L fuel heap (nextOf heap previous) previous =
        .ok (before previous (cells.map Cell.address)) := by
  induction cells with
  | nil =>
      intro previous fuel bound linked stored least ascending
      cases fuel with
      | zero => exact absurd bound (Nat.not_lt_zero _)
      | succ fuel =>
          have last : nextOf heap previous = L.list := linked.1
          rw [validateFrom, last, if_pos rfl]
          rfl
  | cons cell rest ih =>
      intro previous fuel bound linked stored least ascending
      cases fuel with
      | zero => exact absurd bound (Nat.not_lt_zero _)
      | succ fuel =>
          obtain ⟨next, prev, linked⟩ := linked
          obtain ⟨isNode, notList, held⟩ := stored cell (by simp)
          obtain ⟨leastCell, ascending⟩ := List.pairwise_cons.mp ascending
          have below := ih cell.address fuel (by simpa using bound) linked
            (fun other member => stored other (List.mem_cons_of_mem _ member))
            (fun _ other member => by
              rw [held]
              exact leastCell other member)
            ascending
          have right : (heap cell.address).list .right ≠ 0#64 :=
            next_present linked fun other member =>
              (stored other (List.mem_cons_of_mem _ member)).1
          have left : (heap cell.address).list .left = previous := prev
          rw [next, validateFrom, if_neg notList]
          simp only [isNode.1, isNode.assertNotNil, left, right, kassert_true, exec_bind_ok,
            decide_true, ne_eq, not_false_eq_true]
          rw [List.map_cons, Library.Ring.before_cons]
          by_cases first : previous = L.list
          · rw [if_neg (not_not.mpr first)]
            exact below
          · have less := least first cell (by simp)
            rw [if_pos first, held, decide_eq_true less, kassert_true, exec_bind_ok]
            exact below

theorem rbListValidate_ok (inv : TreeInv L s t free) : rbListValidate L s = .ok () := by
  have distinct := inv.pool.list_distinct
  obtain ⟨backAndForth, forthAndBack⟩ := Library.Ring.links_inverse L.list _ inv.ring L.list
    (List.mem_cons_self ..)
  have closed : Links (nextOf s.heap) (prevOf s.heap) L.list (addresses t ++ []) L.list := by
    rw [List.append_nil]
    exact inv.ring
  have last : (s.heap L.list).list .left = before L.list (addresses t) :=
    (Library.Ring.links_gap L.list L.list (addresses t) [] closed).2
  have first : (s.heap L.list).list .right = after (addresses t) L.list :=
    (Library.Ring.links_gap L.list L.list [] (addresses t) inv.ring).1
  have nonzero (node : U64) (member : node ∈ L.list :: addresses t) : node ≠ 0#64 := by
    rcases List.mem_cons.mp member with rfl | inside
    · exact ((nodeValid_iff _).mp L.list_valid).1
    · exact ((nodeValid_iff _).mp (represents_isNode t inv.represents node inside).1).1
  have left : (s.heap L.list).list .left ≠ 0#64 :=
    nonzero _ (last ▸ Library.Ring.before_mem L.list (addresses t))
  have right : (s.heap L.list).list .right ≠ 0#64 :=
    nonzero _ (first ▸ Library.Ring.after_mem (addresses t) L.list)
  have walked := validateFrom_links t.inorder L.list (recursionBudget s) ?_ inv.ring ?_
    (fun notList => absurd rfl notList) ?_
  · change validateFrom L (recursionBudget s) s.heap ((s.heap L.list).list .right) L.list =
      .ok (before L.list (addresses t)) at walked
    have there : (s.heap ((s.heap L.list).list .left)).list .right = L.list := backAndForth
    have here : (s.heap ((s.heap L.list).list .right)).list .left = L.list := forthAndBack
    rw [← last] at walked
    simp only [rbListValidate, rbListValidateWithin, inv.tree_valid, L.list_valid, left, right,
      there, here, walked, kassert_true, exec_bind_ok, decide_true, ne_eq, not_false_eq_true]
  · have count : (addresses t).length = t.inorder.length := List.length_map ..
    have bound := inv.pool.budget
    omega
  · intro cell member
    have inside : cell.address ∈ addresses t := List.mem_map_of_mem member
    refine ⟨represents_isNode t inv.represents _ inside, ?_,
      represents_range t inv.represents cell member⟩
    intro same
    exact (List.nodup_cons.mp distinct).1 (same ▸ inside)
  · exact List.pairwise_map.mp inv.ascending.compare

inductive RBCall where
  | operation (request : RBOperation)
  | findPrevByStart (start : U64)
  | findNextByStart (start : U64)
  | listValidate
  deriving DecidableEq, Repr

def RBCall.Valid : RBCall → Prop
  | .operation request => request.Valid
  | _ => True

def makeCall (L : Layout) (s : RBState) : RBCall → Exec RBState
  | .operation request => perform L s request
  | .findPrevByStart start => do
      let _ ← rbFindPrevByStart L s start
      return s
  | .findNextByStart start => do
      let _ ← rbFindNextByStart L s start
      return s
  | .listValidate => do
      rbListValidate L s
      return s

def makeCalls (L : Layout) : RBState → List RBCall → Exec RBState
  | s, [] => .ok s
  | s, call :: rest => do makeCalls L (← makeCall L s call) rest

theorem makeCall_step (inv : TreeInv L s t free) (call : RBCall) (valid : call.Valid) :
    ∃ last next free', makeCall L s call = .ok last ∧ TreeInv L last next free' := by
  cases call with
  | operation request =>
      obtain ⟨last, next, free', done, inv', _⟩ := perform_step inv request valid
      exact ⟨last, next, free', done, inv'⟩
  | findPrevByStart start =>
      refine ⟨s, t, free, ?_, inv⟩
      rw [makeCall, rbFindPrevByStart_eq inv start]
      rfl
  | findNextByStart start =>
      refine ⟨s, t, free, ?_, inv⟩
      rw [makeCall, rbFindNextByStart_eq inv start]
      rfl
  | listValidate =>
      refine ⟨s, t, free, ?_, inv⟩
      rw [makeCall, rbListValidate_ok inv]
      rfl

theorem makeCalls_eq (L : Layout) (s : RBState) (calls : List RBCall) :
    makeCalls L s calls = calls.foldlM (makeCall L) s := by
  induction calls generalizing s with
  | nil => rfl
  | cons call rest ih =>
      rw [makeCalls, List.foldlM_cons]
      simp only [ih]

/-- No assertion of the range tree fires: every sequence of calls runs to its end. -/
theorem no_assertion_fires {fresh : RBState} (start : Start L fresh)
    (initialised : rbTreeInit L fresh = (true, s)) (calls : List RBCall)
    (valid : ∀ call ∈ calls, call.Valid) : ∃ last, makeCalls L s calls = .ok last := by
  have keeps (s : RBState) (call : RBCall) (held : ∃ t free, TreeInv L s t free)
      (isValid : call.Valid) :
      ∃ next, makeCall L s call = .ok next ∧ ∃ t free, TreeInv L next t free := by
    obtain ⟨t, free, inv⟩ := held
    obtain ⟨next, t', free', done, inv'⟩ := makeCall_step inv call isValid
    exact ⟨next, done, t', free', inv'⟩
  obtain ⟨last, completed, _⟩ :=
    exec_foldlM_inv keeps calls ⟨.nil, [], rbTreeInit_inv start initialised⟩ valid
  exact ⟨last, (makeCalls_eq L s calls).trans completed⟩

/-- Five ascending insertions rotate twice; the last deletion removes a node with two
children. -/
theorem no_assertion_fires_sample :
    ∃ last, makeCalls sampleLayout sampleInitialised
      [.operation (.insert ⟨1#64, 1#64⟩), .operation (.insert ⟨2#64, 1#64⟩),
        .operation (.insert ⟨3#64, 1#64⟩), .operation (.insert ⟨4#64, 1#64⟩),
        .operation (.insert ⟨5#64, 1#64⟩), .findPrevByStart 4#64, .listValidate,
        .operation (.delete ⟨2#64, 1#64⟩), .listValidate, .findNextByStart 1#64] = .ok last :=
  no_assertion_fires sample_start sample_initialised _ (by
    simp only [List.mem_cons, List.not_mem_nil, or_false, forall_eq_or_imp, forall_eq,
      RBCall.Valid, RBOperation.Valid, true_and, and_true]
    decide)

end Drastic
