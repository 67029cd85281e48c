import Mathlib.Data.List.Nodup
import Mathlib.Tactic.Common

namespace Library.Ring

variable {β : Type}

def Visits (step : β → β) : β → List β → β → Prop
  | start, [], stop => step start = stop
  | start, cell :: rest, stop => step start = cell ∧ Visits step cell rest stop

/-- A doubly linked path: `next` leads from `start` through the list to `stop`,
and `prev` undoes every one of these steps. A ring is a path from a cell to itself. -/
def Links (next prev : β → β) : β → List β → β → Prop
  | start, [], stop => next start = stop ∧ prev stop = start
  | start, cell :: rest, stop =>
      next start = cell ∧ prev cell = start ∧ Links next prev cell rest stop

variable {next prev next' prev' : β → β}

theorem links_append (start stop cell : β) (front back : List β) :
    Links next prev start (front ++ cell :: back) stop ↔
      Links next prev start front cell ∧ Links next prev cell back stop := by
  induction front generalizing start with
  | nil => simp [Links, and_assoc]
  | cons head tail ih => simp [Links, ih, and_assoc]

theorem links_rotate (start cell : β) (front back : List β) :
    Links next prev start (front ++ cell :: back) start ↔
      Links next prev cell (back ++ start :: front) cell := by
  rw [links_append, links_append]
  exact and_comm

theorem links_congr (start stop : β) (cells : List β)
    (sameNext : ∀ cell ∈ start :: cells, next' cell = next cell)
    (samePrev : ∀ cell ∈ cells ++ [stop], prev' cell = prev cell)
    (linked : Links next prev start cells stop) : Links next' prev' start cells stop := by
  induction cells generalizing start with
  | nil =>
      simp only [Links] at linked ⊢
      rw [sameNext start (by simp), samePrev stop (by simp)]
      exact linked
  | cons head tail ih =>
      simp only [Links] at linked ⊢
      refine ⟨?_, ?_, ih head ?_ ?_ linked.2.2⟩
      · rw [sameNext start (by simp)]
        exact linked.1
      · rw [samePrev head (by simp)]
        exact linked.2.1
      · intro cell member
        exact sameNext cell (List.mem_cons_of_mem _ member)
      · intro cell member
        exact samePrev cell (by simp at member ⊢; tauto)

def before (start : β) (front : List β) : β := (start :: front).getLast (by simp)
def after (back : List β) (stop : β) : β := (back ++ [stop]).head (by simp)

@[simp] theorem before_nil (start : β) : before start [] = start := rfl
@[simp] theorem before_concat (start cell : β) (front : List β) :
    before start (front ++ [cell]) = cell := by simp [before]
theorem before_cons (start cell : β) (front : List β) :
    before start (cell :: front) = before cell front := by simp [before]
@[simp] theorem after_nil (stop : β) : after [] stop = stop := rfl
@[simp] theorem after_cons (stop cell : β) (back : List β) :
    after (cell :: back) stop = cell := rfl

theorem before_eq_getLast? (start : β) (front : List β) :
    before start front = front.getLast?.getD start := by
  rcases List.eq_nil_or_concat front with rfl | ⟨front, cell, rfl⟩
  · rfl
  · simp

theorem after_eq_head? (back : List β) (stop : β) : after back stop = back.head?.getD stop := by
  cases back <;> rfl

theorem before_mem (start : β) (front : List β) : before start front ∈ start :: front :=
  List.getLast_mem _

theorem after_mem (back : List β) (stop : β) : after back stop ∈ stop :: back := by
  cases back <;> simp

theorem ne_neighbours {entry cell : β} {front back : List β}
    (distinct : (entry :: (front ++ cell :: back)).Nodup) :
    cell ≠ before entry front ∧ cell ≠ after back entry := by
  obtain ⟨outside, apart⟩ := List.nodup_cons.mp distinct
  obtain ⟨_, inBack, disjoint⟩ := List.nodup_append'.mp apart
  rw [List.mem_append, List.mem_cons, not_or, not_or] at outside
  constructor
  · intro same
    have member := before_mem entry front
    rw [← same, List.mem_cons] at member
    rcases member with isEntry | inFront
    · exact outside.2.1 isEntry.symm
    · exact disjoint inFront (by simp)
  · intro same
    have member := after_mem back entry
    rw [← same, List.mem_cons] at member
    rcases member with isEntry | inside
    · exact outside.2.1 isEntry.symm
    · exact (List.nodup_cons.mp inBack).1 inside

theorem links_gap (start stop : β) (front back : List β)
    (linked : Links next prev start (front ++ back) stop) :
    next (before start front) = after back stop ∧ prev (after back stop) = before start front := by
  rcases List.eq_nil_or_concat front with rfl | ⟨front, cell, rfl⟩
  · cases back with
    | nil => exact linked
    | cons head tail => exact ⟨linked.1, linked.2.1⟩
  · rw [List.concat_eq_append, List.append_assoc, List.singleton_append, links_append] at linked
    rw [List.concat_eq_append, before_concat]
    cases back with
    | nil => exact linked.2
    | cons head tail => exact ⟨linked.2.1, linked.2.2.1⟩

structure Spliced (next prev next' prev' : β → β) (a cell b : β) : Prop where
  next_left : next' a = cell
  next_cell : next' cell = b
  next_other : ∀ other, other ≠ a → other ≠ cell → next' other = next other
  prev_right : prev' b = cell
  prev_cell : prev' cell = a
  prev_other : ∀ other, other ≠ b → other ≠ cell → prev' other = prev other

structure Bypassed (next prev next' prev' : β → β) (a cell b : β) : Prop where
  next_left : next' a = b
  next_other : ∀ other, other ≠ a → other ≠ cell → next' other = next other
  prev_right : prev' b = a
  prev_other : ∀ other, other ≠ b → other ≠ cell → prev' other = prev other

private theorem splice_at_entry (a cell : β) (cells : List β) (distinct : (a :: cells).Nodup)
    (fresh : cell ∉ a :: cells) (linked : Links next prev a cells a)
    (spliced : Spliced next prev next' prev' a cell (after cells a)) :
    Links next' prev' a (cell :: cells) a := by
  refine ⟨spliced.next_left, spliced.prev_cell, ?_⟩
  cases cells with
  | nil => exact ⟨spliced.next_cell, spliced.prev_right⟩
  | cons b rest =>
      refine ⟨spliced.next_cell, spliced.prev_right, ?_⟩
      simp only [List.nodup_cons, List.mem_cons, not_or] at distinct fresh
      refine links_congr b a rest ?_ ?_ linked.2.2
      · intro other member
        refine spliced.next_other other ?_ ?_
        · rintro rfl
          rcases List.mem_cons.mp member with same | member
          · exact distinct.1.1 same
          · exact distinct.1.2 member
        · rintro rfl
          rcases List.mem_cons.mp member with same | member
          · exact fresh.2.1 same
          · exact fresh.2.2 member
      · intro other member
        simp only [List.mem_append, List.mem_singleton] at member
        refine spliced.prev_other other ?_ ?_
        · rintro rfl
          rcases member with member | same
          · exact distinct.2.1 member
          · exact distinct.1.1 same.symm
        · rintro rfl
          rcases member with member | same
          · exact fresh.2.2 member
          · exact fresh.1 same

private theorem bypass_at_entry (a cell : β) (cells : List β)
    (distinct : (a :: cell :: cells).Nodup) (linked : Links next prev a (cell :: cells) a)
    (bypassed : Bypassed next prev next' prev' a cell (after cells a)) :
    Links next' prev' a cells a := by
  cases cells with
  | nil => exact ⟨bypassed.next_left, bypassed.prev_right⟩
  | cons b rest =>
      refine ⟨bypassed.next_left, bypassed.prev_right, ?_⟩
      simp only [List.nodup_cons, List.mem_cons, not_or] at distinct
      refine links_congr b a rest ?_ ?_ linked.2.2.2.2
      · intro other member
        refine bypassed.next_other other ?_ ?_
        · rintro rfl
          rcases List.mem_cons.mp member with same | member
          · exact distinct.1.2.1 same
          · exact distinct.1.2.2 member
        · rintro rfl
          rcases List.mem_cons.mp member with same | member
          · exact distinct.2.1.1 same
          · exact distinct.2.1.2 member
      · intro other member
        simp only [List.mem_append, List.mem_singleton] at member
        refine bypassed.prev_other other ?_ ?_
        · rintro rfl
          rcases member with member | same
          · exact distinct.2.2.1 member
          · exact distinct.1.2.1 same.symm
        · rintro rfl
          rcases member with member | same
          · exact distinct.2.1.2 member
          · exact distinct.1.1 same.symm

theorem after_append_cons (front back : List β) (cell stop : β) :
    after (front ++ cell :: back) stop = after front cell := by
  cases front <;> rfl

theorem links_splice (start cell : β) (front back : List β)
    (distinct : (start :: (front ++ back)).Nodup) (fresh : cell ∉ start :: (front ++ back))
    (linked : Links next prev start (front ++ back) start)
    (spliced : Spliced next prev next' prev' (before start front) cell (after back start)) :
    Links next' prev' start (front ++ cell :: back) start := by
  rcases List.eq_nil_or_concat front with rfl | ⟨front, a, rfl⟩
  · exact splice_at_entry start cell back distinct fresh linked spliced
  · simp only [List.concat_eq_append, List.append_assoc, List.singleton_append,
      before_concat] at *
    rw [links_rotate] at linked ⊢
    rw [List.cons_append]
    have moved : (start :: (front ++ a :: back)).Perm (a :: (back ++ start :: front)) := by
      have swap : (start :: front ++ a :: back).Perm (a :: back ++ start :: front) :=
        List.perm_append_comm
      simpa using swap
    refine splice_at_entry a cell _ (moved.nodup_iff.mp distinct) ?_ linked ?_
    · exact fun member => fresh (moved.mem_iff.mpr member)
    · rw [after_append_cons]
      exact spliced

theorem links_bypass (start cell : β) (front back : List β)
    (distinct : (start :: (front ++ cell :: back)).Nodup)
    (linked : Links next prev start (front ++ cell :: back) start)
    (bypassed : Bypassed next prev next' prev' (before start front) cell (after back start)) :
    Links next' prev' start (front ++ back) start := by
  rcases List.eq_nil_or_concat front with rfl | ⟨front, a, rfl⟩
  · exact bypass_at_entry start cell back distinct linked bypassed
  · simp only [List.concat_eq_append, List.append_assoc, List.singleton_append,
      before_concat] at *
    rw [links_rotate] at linked ⊢
    rw [List.cons_append] at linked
    have moved : (start :: (front ++ a :: cell :: back)).Perm
        (a :: cell :: (back ++ start :: front)) := by
      have swap : (start :: front ++ a :: cell :: back).Perm
          (a :: cell :: back ++ start :: front) := List.perm_append_comm
      simpa using swap
    apply bypass_at_entry a cell _ (moved.nodup_iff.mp distinct) linked
    rw [after_append_cons]
    exact bypassed

theorem links_visits (start stop : β) (cells : List β)
    (linked : Links next prev start cells stop) :
    Visits next start cells stop ∧ Visits prev stop cells.reverse start := by
  have visits_concat (from_ to_ cell : β) (front : List β) :
      Visits prev from_ (front ++ [cell]) to_ ↔
        Visits prev from_ front cell ∧ prev cell = to_ := by
    induction front generalizing from_ with
    | nil => simp [Visits]
    | cons head tail ih => simp [Visits, ih, and_assoc]
  induction cells generalizing start with
  | nil => exact linked
  | cons head tail ih =>
      obtain ⟨forward, backward⟩ := ih head linked.2.2
      refine ⟨⟨linked.1, forward⟩, ?_⟩
      rw [List.reverse_cons, visits_concat]
      exact ⟨backward, linked.2.1⟩

theorem links_inverse (start : β) (cells : List β)
    (linked : Links next prev start cells start) :
    ∀ cell ∈ start :: cells, next (prev cell) = cell ∧ prev (next cell) = cell := by
  intro cell member
  have entered : ∃ rest, Links next prev cell rest cell := by
    rcases List.mem_cons.mp member with rfl | member
    · exact ⟨cells, linked⟩
    · obtain ⟨front, back, rfl⟩ := List.append_of_mem member
      exact ⟨_, (links_rotate start cell front back).mp linked⟩
  obtain ⟨rest, ring⟩ := entered
  have outgoing := links_gap cell cell [] rest ring
  have incoming := links_gap cell cell rest [] (by simpa using ring)
  simp only [before_nil, after_nil] at outgoing incoming
  constructor
  · rw [incoming.2, incoming.1]
  · rw [outgoing.1, outgoing.2]

end Library.Ring
