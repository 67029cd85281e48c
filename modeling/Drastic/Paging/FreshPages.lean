import Drastic.Paging.HardwareWalk

namespace Drastic

variable {σ α β : Type}

/-- Allocations that succeed give page-aligned addresses below 2^48 that were
available until then. -/
structure FreshAllocator (alloc : PhysicalAlloc σ) (valid : σ → Prop)
    (available : σ → Frame → Prop) : Prop where
  returns : ∀ pages, valid pages → ∃ answer, alloc .normal pages = .ok answer
  keeps : ∀ pages result pages', valid pages → alloc .normal pages = .ok (result, pages') →
    valid pages'
  fresh : ∀ pages address pages', valid pages → alloc .normal pages = .ok (some address, pages') →
    ∃ frame : Frame, address = frame.address ∧ available pages frame
  rest : ∀ pages result pages', valid pages → alloc .normal pages = .ok (result, pages') →
    ∀ frame : Frame, available pages' frame ↔
      available pages frame ∧ result ≠ some frame.address

/-- The pages up to 2^20 in order: the simplest allocator there is. -/
def consecutivePages : PhysicalAlloc Nat := fun _ next =>
  if next < 2 ^ 20 then .ok (some (BitVec.ofNat 64 (next * systemPageSize)), next + 1)
  else .ok (none, next)

theorem consecutivePages_fresh : FreshAllocator consecutivePages (fun _ => True)
    (fun next frame => next ≤ frame.toNat ∧ frame.toNat < 2 ^ 20) := by
  have frameOf (next : Nat) (low : next < 2 ^ 20) :
      BitVec.ofNat 64 (next * systemPageSize) = Frame.address (BitVec.ofNat 36 next) := by
    apply BitVec.eq_of_toNat_eq
    rw [address_toNat, BitVec.toNat_ofNat, BitVec.toNat_ofNat, systemPageSize]
    omega
  refine ⟨?_, fun _ _ _ _ _ => trivial, ?_, ?_⟩
  · intro next _
    by_cases low : next < 2 ^ 20
    · exact ⟨_, if_pos low⟩
    · exact ⟨_, if_neg low⟩
  · intro next address next' _ call
    unfold consecutivePages at call
    split at call
    case isTrue low =>
      cases call
      refine ⟨BitVec.ofNat 36 next, frameOf next low, ?_⟩
      rw [BitVec.toNat_ofNat]
      omega
    case isFalse => cases call
  · intro next result next' _ call frame
    unfold consecutivePages at call
    split at call
    case isTrue low =>
      cases call
      have same : some (BitVec.ofNat 64 (next * systemPageSize)) ≠ some frame.address ↔
          next ≠ frame.toNat := by
        rw [frameOf next low, ne_eq, Option.some.injEq, not_iff_not]
        constructor
        · intro equal
          have numbers := congrArg BitVec.toNat equal
          rw [address_toNat, address_toNat, BitVec.toNat_ofNat] at numbers
          omega
        · rintro rfl
          rw [BitVec.ofNat_toNat, BitVec.setWidth_eq]
      rw [same]
      omega
    case isFalse =>
      cases call
      simp

def Supplies (alloc : PhysicalAlloc σ) : Nat → σ → Prop
  | 0, _ => True
  | n + 1, pages => ∃ address pages', alloc .normal pages = .ok (some address, pages') ∧
      Supplies alloc n pages'

variable {alloc : PhysicalAlloc σ} {pages pages' : σ} {n k : Nat} {left : α → σ} {run : Exec α}
  {post : α → Prop}

theorem supplies_succ {address : Uintptr}
    (call : alloc .normal pages = .ok (some address, pages')) :
    Supplies alloc (n + 1) pages ↔ Supplies alloc n pages' := by
  constructor
  · rintro ⟨other, pages'', same, supplied⟩
    rw [call] at same
    cases same
    exact supplied
  · exact fun supplied => ⟨address, pages', call, supplied⟩

theorem not_supplies (call : alloc .normal pages = .ok (none, pages')) :
    ¬ Supplies alloc (n + 1) pages := by
  rintro ⟨_, _, same, _⟩
  rw [call] at same
  cases same

theorem Supplies.mono (supplied : Supplies alloc n pages) (fewer : k ≤ n) :
    Supplies alloc k pages := by
  induction k generalizing n pages with
  | zero => trivial
  | succ k ih =>
      obtain ⟨n, rfl⟩ := Nat.exists_eq_succ_of_ne_zero (show n ≠ 0 by omega)
      obtain ⟨address, pages', call, rest⟩ := supplied
      exact ⟨address, pages', call, ih rest (by omega)⟩

/-- The run makes `n` allocations: it returns if that many in a row succeed and stops with the
`kpanic` of `allocPage` if they do not; `left` of its result are the pages left by them. -/
structure Outcome (alloc : PhysicalAlloc σ) (pages : σ) (n : Nat) (left : α → σ) (run : Exec α)
    (post : α → Prop) : Prop where
  returns : Supplies alloc n pages → ∃ result, run = .ok result ∧ post result ∧
    ∀ m, Supplies alloc m (left result) ↔ Supplies alloc (n + m) pages
  fails : ¬ Supplies alloc n pages → run = .error (.kpanic noPhysicalPageText)

theorem Outcome.ok {result : α} (same : left result = pages) (holds : post result) :
    Outcome alloc pages 0 left (.ok result) post where
  returns _ := ⟨result, rfl, holds, fun m => by rw [same, Nat.zero_add]⟩
  fails short := absurd trivial short

theorem Outcome.of_ok (outcome : Outcome alloc pages n left run post) {result : α}
    (returned : run = .ok result) : post result := by
  by_cases supplied : Supplies alloc n pages
  · obtain ⟨other, same, holds, _⟩ := outcome.returns supplied
    rw [same, Except.ok.injEq] at returned
    rwa [← returned]
  · rw [outcome.fails supplied] at returned
    cases returned

theorem Outcome.bind {left' : β → σ} {next : α → Exec β} {post' : β → Prop}
    (first : Outcome alloc pages n left run post)
    (second : ∀ result, post result → Outcome alloc (left result) k left' (next result) post') :
    Outcome alloc pages (n + k) left' (run >>= next) post' := by
  constructor
  · intro supplied
    obtain ⟨result, returned, holds, rest⟩ := first.returns (supplied.mono (Nat.le_add_right n k))
    obtain ⟨last, returned', holds', rest'⟩ :=
      (second result holds).returns ((rest k).mpr supplied)
    refine ⟨last, by rw [returned]; exact returned', holds', fun m => ?_⟩
    rw [rest', rest, Nat.add_assoc]
  · intro short
    by_cases supplied : Supplies alloc n pages
    · obtain ⟨result, returned, holds, rest⟩ := first.returns supplied
      rw [returned]
      exact (second result holds).fails fun enough => short ((rest k).mp enough)
    · rw [first.fails supplied]
      rfl

theorem Outcome.bind_done {left' : β → σ} {next : α → Exec β} {post' : β → Prop}
    (first : Outcome alloc pages n left run post)
    (second : ∀ result, post result → Outcome alloc (left result) 0 left' (next result) post') :
    Outcome alloc pages n left' (run >>= next) post' := first.bind second

theorem Outcome.mono {post' : α → Prop} (outcome : Outcome alloc pages n left run post)
    (weaker : ∀ result, post result → post' result) : Outcome alloc pages n left run post' where
  returns supplied := by
    obtain ⟨result, returned, holds, rest⟩ := outcome.returns supplied
    exact ⟨result, returned, weaker result holds, rest⟩
  fails := outcome.fails

variable {valid : σ → Prop} {available : σ → Frame → Prop} {frame : Frame}

structure Allocated (valid : σ → Prop) (available : σ → Frame → Prop) (pages pages' : σ) :
    Prop where
  valid : valid pages'
  shrinks : ∀ frame, available pages' frame → available pages frame

theorem Allocated.refl (isValid : valid pages) : Allocated valid available pages pages :=
  ⟨isValid, fun _ free => free⟩

theorem Allocated.trans {pages'' : σ} (first : Allocated valid available pages pages')
    (second : Allocated valid available pages' pages'') :
    Allocated valid available pages pages'' :=
  ⟨second.valid, fun frame free => first.shrinks frame (second.shrinks frame free)⟩

structure PageTaken (valid : σ → Prop) (available : σ → Frame → Prop) (pages pages' : σ)
    (frame : Frame) : Prop where
  valid : valid pages'
  free : available pages frame
  rest : ∀ other, available pages' other ↔ available pages other ∧ other ≠ frame

theorem PageTaken.allocated (taken : PageTaken valid available pages pages' frame) :
    Allocated valid available pages pages' :=
  ⟨taken.valid, fun other still => ((taken.rest other).mp still).1⟩

theorem PageTaken.used (taken : PageTaken valid available pages pages' frame) :
    ¬ available pages' frame :=
  fun still => ((taken.rest frame).mp still).2 rfl

theorem address_inj {frame frame' : Frame} (same : frame.address = frame'.address) :
    frame = frame' := by
  rw [← entryFrame_address frame, same, entryFrame_address]

theorem allocPage_outcome (fresh : FreshAllocator alloc valid available) (s : PagingState σ)
    (isValid : valid s.pages) :
    Outcome alloc s.pages 1 (·.2.pages) (allocPage alloc s) fun result => ∃ frame : Frame,
      result.1 = frame.address ∧ result.2.memory = s.memory ∧
        PageTaken valid available s.pages result.2.pages frame := by
  obtain ⟨⟨result, pages⟩, call⟩ := fresh.returns s.pages isValid
  have isValid' := fresh.keeps _ _ _ isValid call
  have rest := fresh.rest _ _ _ isValid call
  cases result with
  | none =>
      refine ⟨fun supplied => absurd supplied (not_supplies call), fun _ => ?_⟩
      rw [allocPage, call]
      rfl
  | some address =>
      obtain ⟨frame, rfl, before⟩ := fresh.fresh _ _ _ isValid call
      have one : Supplies alloc 1 s.pages := ⟨_, _, call, trivial⟩
      refine ⟨fun _ => ?_, fun short => absurd one short⟩
      refine ⟨(frame.address, { s with pages := pages }), ?_, ⟨frame, rfl, rfl, isValid', before,
        fun other => ?_⟩, fun m => ?_⟩
      · rw [allocPage, call]
        rfl
      · rw [rest other, ne_eq, Option.some.injEq, not_iff_not.mpr ⟨address_inj, congrArg _⟩,
          ne_comm]
      · rw [Nat.add_comm, supplies_succ call]

end Drastic
