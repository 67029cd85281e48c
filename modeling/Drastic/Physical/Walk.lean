import Drastic.Physical.ListsWellFormed

namespace Drastic

open Library.Chain (ChainFrom)

variable {paging : SystemPaging} {link : Link} {cell : AllocatorPointer}

theorem load_of_proceeds {value : Bool}
    (tested : systemPagingPaIsSentinel paging cell = .ok value) :
    loadAllocator paging cell = .ok (paging.allocators cell) := by
  rw [systemPagingPaIsSentinel, exec_bind_eq_ok] at tested
  obtain ⟨pa, loaded, _⟩ := tested
  unfold loadAllocator at loaded ⊢
  split at loaded
  case isTrue => cases loaded
  case isFalse present => rw [if_neg present]

theorem storeAllocator_self (paging : SystemPaging) (cell : AllocatorPointer) :
    storeAllocator paging cell (paging.allocators cell) = paging := by
  rw [storeAllocator, Function.update_eq_self]

theorem allocAlong_turn (fuel : Nat) (proceeds : systemPagingPaIsSentinel paging cell = .ok false)
    (exhausted : systemPaAlloc (paging.allocators cell) = .ok (none, paging.allocators cell)) :
    allocAlong link (fuel + 1) cell paging =
      allocAlong link fuel (paging.follow link cell) paging := by
  have loaded := load_of_proceeds proceeds
  rw [allocAlong, proceeds, exec_bind_ok, if_neg (by simp), loaded, exec_bind_ok, exhausted,
    exec_bind_ok]
  simp only [storeAllocator_self, loaded, exec_bind_ok]
  rfl

theorem allocAlong_served (front back : List AllocatorPointer) (address : Uintptr)
    (pa : SystemPhysicalAllocator)
    (served : systemPaAlloc (paging.allocators cell) = .ok (some address, pa)) :
    ∀ (start : AllocatorPointer) (fuel : Nat),
      ChainFrom (paging.follow link) .sentinel start (front ++ cell :: back) →
      (∀ other ∈ front ++ [cell], systemPagingPaIsSentinel paging other = .ok false) →
      (∀ other ∈ front, systemPaAlloc (paging.allocators other) =
        .ok (none, paging.allocators other)) →
      front.length < fuel →
      allocAlong link fuel start paging = .ok (some address, storeAllocator paging cell pa) := by
  induction front with
  | nil =>
      intro start fuel chain proceeds _ enough
      obtain ⟨turns, rfl⟩ : ∃ turns, fuel = turns + 1 := ⟨fuel - 1, by simp at enough; omega⟩
      obtain rfl : start = cell := chain.1
      have test := proceeds start (by simp)
      rw [allocAlong, test, exec_bind_ok, if_neg (by simp), load_of_proceeds test, exec_bind_ok,
        served]
      rfl
  | cons head front ih =>
      intro start fuel chain proceeds exhausted enough
      obtain ⟨turns, rfl⟩ : ∃ turns, fuel = turns + 1 := ⟨fuel - 1, by simp at enough; omega⟩
      obtain rfl : start = head := chain.1
      rw [allocAlong_turn turns (proceeds start (by simp)) (exhausted start (by simp))]
      exact ih _ turns chain.2.2 (fun other member => proceeds other (by simp_all))
        (fun other member => exhausted other (by simp [member])) (by simpa using enough)

theorem allocAlong_exhausted (cells : List AllocatorPointer)
    (ends : systemPagingPaIsSentinel paging .sentinel = .ok true) :
    ∀ (start : AllocatorPointer) (fuel : Nat),
      ChainFrom (paging.follow link) .sentinel start cells →
      (∀ other ∈ cells, systemPagingPaIsSentinel paging other = .ok false) →
      (∀ other ∈ cells, systemPaAlloc (paging.allocators other) =
        .ok (none, paging.allocators other)) →
      cells.length < fuel →
      allocAlong link fuel start paging = .ok (none, paging) := by
  induction cells with
  | nil =>
      intro start fuel chain _ _ enough
      obtain ⟨turns, rfl⟩ : ∃ turns, fuel = turns + 1 := ⟨fuel - 1, by simp at enough; omega⟩
      obtain rfl : start = .sentinel := chain
      rw [allocAlong, ends, exec_bind_ok, if_pos rfl]
      rfl
  | cons head rest ih =>
      intro start fuel chain proceeds exhausted enough
      obtain ⟨turns, rfl⟩ : ∃ turns, fuel = turns + 1 := ⟨fuel - 1, by simp at enough; omega⟩
      obtain rfl : start = head := chain.1
      rw [allocAlong_turn turns (proceeds start (by simp)) (exhausted start (by simp))]
      exact ih _ turns chain.2.2 (fun other member => proceeds other (by simp [member]))
        (fun other member => exhausted other (by simp [member])) (by simpa using enough)

theorem freeAlong_found (front back : List AllocatorPointer) (address : Uintptr)
    (inside : inRange (paging.allocators cell) address = true) :
    ∀ (start : AllocatorPointer) (fuel : Nat),
      ChainFrom (paging.follow .next) .sentinel start (front ++ cell :: back) →
      (∀ other ∈ front ++ [cell], systemPagingPaIsSentinel paging other = .ok false) →
      (∀ other ∈ front, ¬ inRange (paging.allocators other) address = true) →
      front.length < fuel →
      freeAlong fuel start paging address = (do
        return storeAllocator paging cell (← systemPaFree (paging.allocators cell) address)) := by
  induction front with
  | nil =>
      intro start fuel chain proceeds _ enough
      obtain ⟨turns, rfl⟩ : ∃ turns, fuel = turns + 1 := ⟨fuel - 1, by simp at enough; omega⟩
      obtain rfl : start = cell := chain.1
      have test := proceeds start (by simp)
      rw [freeAlong, test, exec_bind_ok, if_neg (by simp), load_of_proceeds test, exec_bind_ok]
      simp only [inside, if_true]
  | cons head front ih =>
      intro start fuel chain proceeds outside enough
      obtain ⟨turns, rfl⟩ : ∃ turns, fuel = turns + 1 := ⟨fuel - 1, by simp at enough; omega⟩
      obtain rfl : start = head := chain.1
      have test := proceeds start (by simp)
      have skipped := outside start (by simp)
      rw [freeAlong, test, exec_bind_ok, if_neg (by simp), load_of_proceeds test, exec_bind_ok]
      simp only [skipped]
      exact ih _ turns chain.2.2 (fun other member => proceeds other (by simp_all))
        (fun other member => outside other (by simp [member])) (by simpa using enough)

theorem freeAlong_ok (cells : List AllocatorPointer) (address : Uintptr) {freed : SystemPaging}
    (ends : systemPagingPaIsSentinel paging .sentinel = .ok true) :
    ∀ (start : AllocatorPointer) (fuel : Nat),
      ChainFrom (paging.follow .next) .sentinel start cells →
      (∀ other ∈ cells, systemPagingPaIsSentinel paging other = .ok false) →
      freeAlong fuel start paging address = .ok freed →
      ∃ cell ∈ cells, ∃ pa, systemPaFree (paging.allocators cell) address = .ok pa ∧
        freed = storeAllocator paging cell pa := by
  induction cells with
  | nil =>
      intro start fuel chain _ call
      obtain rfl : start = .sentinel := chain
      cases fuel with
      | zero => cases call
      | succ fuel =>
          rw [freeAlong, ends, exec_bind_ok, if_pos rfl] at call
          cases call
  | cons head rest ih =>
      intro start fuel chain proceeds call
      obtain rfl : start = head := chain.1
      cases fuel with
      | zero => cases call
      | succ fuel =>
          have test := proceeds start (by simp)
          rw [freeAlong, test, exec_bind_ok, if_neg (by simp), load_of_proceeds test,
            exec_bind_ok] at call
          split at call
          case isTrue =>
            rw [exec_bind_eq_ok] at call
            obtain ⟨pa, done, stored⟩ := call
            exact ⟨start, by simp, pa, done, (Except.ok.inj stored).symm⟩
          case isFalse =>
            obtain ⟨cell, member, found⟩ := ih _ fuel chain.2.2
              (fun other member => proceeds other (by simp [member])) call
            exact ⟨cell, by simp [member], found⟩

end Drastic
