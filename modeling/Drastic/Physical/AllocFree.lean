import Drastic.Physical.Frees

namespace Drastic

open Library.Bitmap (testBit testBit_setBit testBit_clearBit clearBit_setBit setBit_clearBit)

variable {pa last : SystemPhysicalAllocator} {count : Nat}

structure Restored (pa last : SystemPhysicalAllocator) : Prop where
  links : ∀ link, last.link link = pa.link link
  size : last.size = pa.size
  base : last.addressBase = pa.addressBase
  stackTop : last.stackTop = pa.stackTop
  stack : liveStack last = liveStack pa
  bitmap : last.pagesBitmap = pa.pagesBitmap

inductive PaHandouts (start : SystemPhysicalAllocator) :
    SystemPhysicalAllocator → List Uintptr → Prop where
  | start : PaHandouts start start []
  | alloc {pa last : SystemPhysicalAllocator} {outstanding : List Uintptr}
      {result : Option Uintptr} (run : PaHandouts start pa outstanding)
      (call : systemPaAlloc pa = .ok (result, last)) :
      PaHandouts start last (result.toList ++ outstanding)
  | free {pa last : SystemPhysicalAllocator} {outstanding : List Uintptr} {address : Uintptr}
      (run : PaHandouts start pa outstanding) (given : address ∈ outstanding)
      (call : systemPaFree pa address = .ok last) :
      PaHandouts start last (outstanding.erase address)

/-- The stack holds page indices, whatever the bitmap says. -/
structure Stacked (count : Nat) (pa : SystemPhysicalAllocator) : Prop where
  size : pa.size = count
  small : count < 2 ^ 32
  top : -1 ≤ pa.stackTop ∧ pa.stackTop < count
  bounded : ∀ k : Nat, (k : Int) ≤ pa.stackTop → (pa.pagesStack k).toNat < count

theorem Stacked.topPage_lt (stacked : Stacked count pa) (available : 0 ≤ pa.stackTop) :
    topPage pa < count :=
  stacked.bounded _ (by omega)

theorem Stacked.take (stacked : Stacked count pa) (available : 0 ≤ pa.stackTop) (page : Nat) :
    Stacked count (takePage pa page) := by
  have top := stacked.top
  refine ⟨stacked.size, stacked.small, ?_, ?_⟩
  · simp only [takePage]
    omega
  · intro k below
    simp only [takePage] at below
    exact stacked.bounded k (by omega)

theorem Stacked.give (stacked : Stacked count pa) {page : Nat} (bound : page < count)
    (room : pa.stackTop + 1 < pa.size) : Stacked count (givePage pa page) := by
  have top := stacked.top
  have size := stacked.size
  have small := stacked.small
  refine ⟨size, small, ?_, ?_⟩
  · simp only [givePage]
    omega
  · intro k below
    simp only [givePage] at below ⊢
    by_cases isTop : k = (pa.stackTop + 1).toNat
    · rw [isTop, Function.update_self, BitVec.toNat_ofNat, Nat.mod_eq_of_lt (by omega)]
      exact bound
    · rw [Function.update_of_ne isTop]
      exact stacked.bounded k (by omega)

structure Returned (count : Nat) (pa : SystemPhysicalAllocator) (address : Uintptr) : Prop where
  inside : inRange pa address = true
  low : pageOf pa address < 2 ^ 20
  address_eq : address = allocatedAddress pa (pageOf pa address)

theorem allocatedAddress_mod (pa : SystemPhysicalAllocator) (page : Nat) :
    allocatedAddress pa (page % 2 ^ 20) = allocatedAddress pa page := by
  have product : BitVec.ofNat 32 (page % 2 ^ 20) * BitVec.ofNat 32 systemPageSize =
      BitVec.ofNat 32 page * BitVec.ofNat 32 systemPageSize := by
    apply BitVec.eq_of_toNat_eq
    rw [BitVec.toNat_mul, BitVec.toNat_mul, BitVec.toNat_ofNat, BitVec.toNat_ofNat,
      BitVec.toNat_ofNat, systemPageSize]
    omega
  rw [allocatedAddress, allocatedAddress, product]

theorem Stacked.returned (stacked : Stacked count pa) {page : Nat}
    (inside : inRange pa (allocatedAddress pa page) = true) :
    Returned count pa (allocatedAddress pa page) := by
  have located := pageOf_allocatedAddress stacked.small stacked.size inside
  refine ⟨inside, ?_, ?_⟩
  · rw [located]
    exact Nat.mod_lt _ (Nat.two_pow_pos 20)
  · rw [located, allocatedAddress_mod]

theorem Returned.congr {address : Uintptr} (returned : Returned count pa address)
    (base : last.addressBase = pa.addressBase) (size : last.size = pa.size) :
    Returned count last address := by
  obtain ⟨inside, low, same⟩ := returned
  have page : pageOf last address = pageOf pa address := by rw [pageOf, pageOf, base]
  refine ⟨?_, by rwa [page], ?_⟩
  · rwa [inRange, base, size]
  · rw [page, allocatedAddress, base]
    exact same

structure HandoutsInv (count : Nat) (pa : SystemPhysicalAllocator) (outstanding : List Uintptr) :
    Prop where
  stacked : Stacked count pa
  returned : ∀ address ∈ outstanding, Returned count pa address

theorem systemPaAlloc_none (short : pa.stackTop < 0) : systemPaAlloc pa = .ok (none, pa) := by
  have exhausted : (decide (pa.stackTop < 0) || decide (pa.size ≤ 0)) = true := by
    simp [short]
  rw [systemPaAlloc, if_pos exhausted]
  rfl

theorem PaHandouts.inv {start : SystemPhysicalAllocator} {outstanding : List Uintptr}
    (stacked : Stacked count start) (run : PaHandouts start pa outstanding) :
    HandoutsInv count pa outstanding := by
  induction run with
  | start => exact ⟨stacked, by simp⟩
  | alloc run call ih =>
      rename_i pa last outstanding result
      obtain ⟨stacked, returned⟩ := ih
      by_cases available : 0 ≤ pa.stackTop
      · have bound := stacked.topPage_lt available
        obtain ⟨inside, rfl, rfl⟩ :=
          systemPaAlloc_ok available (by rw [stacked.size]; omega) call
        refine ⟨stacked.take available _, ?_⟩
        intro address member
        rcases List.mem_cons.mp member with rfl | earlier
        · exact (stacked.returned inside).congr rfl rfl
        · exact (returned address earlier).congr rfl rfl
      · rw [systemPaAlloc_none (by omega)] at call
        cases call
        exact ⟨stacked, returned⟩
  | free run given call ih =>
      obtain ⟨stacked, returned⟩ := ih
      obtain ⟨inside, _, room, _, rfl⟩ :=
        (systemPaFree_iff stacked.small stacked.size _ _).mp call
      have bound := pageOf_lt stacked.small stacked.size inside
      refine ⟨stacked.give bound room, ?_⟩
      intro address member
      exact (returned address (List.mem_of_mem_erase member)).congr rfl rfl

theorem systemPaInit_stacked (before : RegionContents) (addressBase : Uintptr)
    (metadataPages pageCount : Nat) (positive : 0 < metadataPages)
    (within : metadataPages ≤ pageCount) (small : pageCount < 2 ^ 32) :
    ∃ start, systemPaInit before addressBase metadataPages pageCount = .ok start ∧
      Stacked pageCount start := by
  obtain ⟨start, initialised, size, _, top, live, _⟩ :=
    systemPaInit_eq before addressBase metadataPages pageCount positive within small
  have length : (freshStack metadataPages pageCount).items.length = pageCount - metadataPages :=
    List.length_range'
  refine ⟨start, initialised, size, small, by omega, ?_⟩
  intro k below
  have member : (start.pagesStack k).toNat ∈ (freshStack metadataPages pageCount).items := by
    rw [← live, liveStack]
    apply List.mem_map_of_mem
    rw [List.mem_range]
    omega
  exact (freshStack metadataPages pageCount).bounded _ member

theorem liveStack_congr (stackTop : last.stackTop = pa.stackTop)
    (same : ∀ k : Nat, (k : Int) ≤ pa.stackTop → last.pagesStack k = pa.pagesStack k) :
    liveStack last = liveStack pa := by
  rw [liveStack, liveStack, stackTop]
  apply List.map_congr_left
  intro k inside
  rw [List.mem_range] at inside
  rw [same k (by omega)]

theorem liveStack_give_take (available : 0 ≤ pa.stackTop) (page : Nat) :
    liveStack (givePage (takePage pa (topPage pa)) page) =
        liveStack pa ↔ page % 2 ^ 32 = topPage pa := by
  have position : (pa.stackTop - 1 + 1).toNat = pa.stackTop.toNat := by omega
  have stackTop : pa.stackTop - 1 + 1 = pa.stackTop := by omega
  constructor
  · intro same
    have word := congrArg (fun items : List Nat => items[pa.stackTop.toNat]?) same
    have inside : pa.stackTop.toNat < (pa.stackTop + 1).toNat := by omega
    simpa [liveStack, givePage, takePage, stackTop, inside, topPage] using word
  · intro same
    apply liveStack_congr stackTop
    intro k below
    simp only [givePage, takePage, position]
    by_cases isTop : k = pa.stackTop.toNat
    · rw [isTop, Function.update_self]
      apply BitVec.eq_of_toNat_eq
      rw [BitVec.toNat_ofNat, same, topPage]
    · rw [Function.update_of_ne isTop]

theorem Restored.of_give_take (available : 0 ≤ pa.stackTop)
    (clear : testBit pa.pagesBitmap (topPage pa) = false) :
    Restored pa (givePage (takePage pa (topPage pa)) (topPage pa)) where
  links link := by cases link <;> rfl
  size := rfl
  base := rfl
  stackTop := by
    simp only [givePage, takePage]
    omega
  stack := by
    rw [liveStack_give_take available]
    exact Nat.mod_eq_of_lt (BitVec.isLt _)
  bitmap := clearBit_setBit _ _ clear

/-- The address of the popped page is taken back, and the state before the pop is
restored, just when the 32 bits of the product were enough and the page was marked free. -/
theorem Stacked.free_after_alloc_iff (stacked : Stacked count pa) {address : Uintptr}
    (call : systemPaAlloc pa = .ok (some address, last)) :
    (∃ restored, systemPaFree last address = .ok restored ∧ Restored pa restored) ↔
      topPage pa < 2 ^ 20 ∧ testBit pa.pagesBitmap (topPage pa) = false := by
  have available : 0 ≤ pa.stackTop := by
    by_contra short
    rw [systemPaAlloc_none (by omega)] at call
    cases call
  have bound := stacked.topPage_lt available
  have top := stacked.top
  have size := stacked.size
  obtain ⟨inside, same, rfl⟩ := systemPaAlloc_ok available (by omega) call
  cases same
  have located := pageOf_allocatedAddress stacked.small size inside
  have takenSize : (takePage pa (topPage pa)).size = count := size
  have gives := systemPaFree_iff stacked.small takenSize (allocatedAddress pa (topPage pa))
  have page : pageOf (takePage pa (topPage pa)) (allocatedAddress pa (topPage pa)) =
      topPage pa % 2 ^ 20 := located
  rw [page] at gives
  constructor
  · rintro ⟨restored, accepted, unchanged⟩
    obtain ⟨_, _, _, _, rfl⟩ := (gives _).mp accepted
    have sameTop := (liveStack_give_take available _).mp unchanged.stack
    have low : topPage pa < 2 ^ 20 := by omega
    rw [Nat.mod_eq_of_lt low] at unchanged
    refine ⟨low, ?_⟩
    rw [← unchanged.bitmap]
    simp [givePage, testBit_clearBit]
  · rintro ⟨low, clear⟩
    rw [Nat.mod_eq_of_lt low] at gives
    refine ⟨_, (gives _).mpr ⟨inside, ?_, ?_, ?_, rfl⟩, Restored.of_give_take available clear⟩
    · simp [takePage, testBit_setBit]
    · simp only [takePage]
      omega
    · simp only [takePage]
      omega

theorem Stacked.alloc_after_free (stacked : Stacked count pa) {address : Uintptr}
    (returned : Returned count pa address) (call : systemPaFree pa address = .ok last) :
    ∃ restored, systemPaAlloc last = .ok (some address, restored) ∧ Restored pa restored := by
  obtain ⟨inside, used, room, lower, rfl⟩ :=
    (systemPaFree_iff stacked.small stacked.size address last).mp call
  have low := returned.low
  have address_eq := returned.address_eq
  have bound := pageOf_lt stacked.small stacked.size inside
  generalize pageOf pa address = page at *
  have top : topPage (givePage pa page) = page := by
    simp only [topPage, givePage, Function.update_self, BitVec.toNat_ofNat]
    exact Nat.mod_eq_of_lt (by omega)
  have size := stacked.size
  have available : 0 ≤ (givePage pa page).stackTop := by
    simp only [givePage]
    omega
  have alloc := systemPaAlloc_top available (by
    rw [top]
    simp only [givePage]
    omega)
  have sameAddress : allocatedAddress (givePage pa page) page = address := address_eq.symm
  have sameInside : inRange (givePage pa page) address = true := inside
  rw [top, sameAddress, sameInside, kassert_true, exec_bind_ok] at alloc
  refine ⟨_, alloc, ?_⟩
  refine {
    links := fun link => by cases link <;> rfl
    size := rfl
    base := rfl
    stackTop := by simp [takePage, givePage]
    stack := ?_
    bitmap := setBit_clearBit _ _ used }
  apply liveStack_congr (by simp [takePage, givePage])
  intro k below
  simp only [takePage, givePage]
  rw [Function.update_of_ne (by omega)]

/-- A free of what was allocated last is undone in full when the page index needs no more
than twenty bits and its bit was clear; an allocation after a free always undoes it. -/
theorem alloc_free_inverse_iff (before : RegionContents) (addressBase : Uintptr)
    (metadataPages pageCount : Nat) (positive : 0 < metadataPages)
    (within : metadataPages < pageCount) (small : pageCount < 2 ^ 32) :
    ∃ start, systemPaInit before addressBase metadataPages pageCount = .ok start ∧
      ∀ pa outstanding, PaHandouts start pa outstanding →
        (∀ address last, systemPaAlloc pa = .ok (some address, last) →
          ((∃ restored, systemPaFree last address = .ok restored ∧ Restored pa restored) ↔
            topPage pa < 2 ^ 20 ∧ testBit pa.pagesBitmap (topPage pa) = false)) ∧
        ∀ address ∈ outstanding, ∀ last, systemPaFree pa address = .ok last →
          ∃ restored, systemPaAlloc last = .ok (some address, restored) ∧
            Restored pa restored := by
  obtain ⟨start, initialised, stacked⟩ :=
    systemPaInit_stacked before addressBase metadataPages pageCount positive within.le small
  refine ⟨start, initialised, ?_⟩
  intro pa outstanding run
  have inv := run.inv stacked
  constructor
  · intro address last call
    exact inv.stacked.free_after_alloc_iff call
  · intro address member last call
    exact inv.stacked.alloc_after_free (inv.returned address member) call

theorem alloc_free_inverse_iff_sample :
    ∃ start, systemPaInit .zero 0x100000#64 (1 : Nat) (4 : Nat) = .ok start ∧
      ∀ pa outstanding, PaHandouts start pa outstanding →
        (∀ address last, systemPaAlloc pa = .ok (some address, last) →
          ((∃ restored, systemPaFree last address = .ok restored ∧ Restored pa restored) ↔
            topPage pa < 2 ^ 20 ∧ testBit pa.pagesBitmap (topPage pa) = false)) ∧
        ∀ address ∈ outstanding, ∀ last, systemPaFree pa address = .ok last →
          ∃ restored, systemPaAlloc last = .ok (some address, restored) ∧
            Restored pa restored :=
  alloc_free_inverse_iff .zero 0x100000#64 1 4 (by decide) (by decide) (by decide)

/-- In a region of more than 4 GiB the first page is returned under the address of
another one, which is still free. -/
theorem first_page_cannot_be_freed :
    ∃ start address last,
      systemPaInit .zero 0x100000000#64 (1062 : Nat) (1053576 : Nat) = .ok start ∧
      systemPaAlloc start = .ok (some address, last) ∧
      ∀ restored, systemPaFree last address ≠ .ok restored := by
  let large : LimineMemmapEntry := ⟨0x100000000#64, 0x101388000#64, limineMemmapUsable⟩
  have metadata : large.metadataPages = 1062 := by decide
  have pages : large.pageCount = 1053576 := by decide
  obtain ⟨start, initialised, base, describes⟩ := systemPaInit_describes .zero 0x100000000#64
    large.metadataPages large.pageCount (by decide) (by decide) (by decide)
    (BlankBeyondZeroed.bits fun _ _ _ => rfl)
  have ready : Ready start large := ⟨base, describes⟩
  obtain ⟨hasPage, top⟩ := ready.top (by decide)
  have allocator : RegionAllocator start large := ⟨base, _, describes⟩
  obtain ⟨_, served, _⟩ := allocator.serves (by decide) hasPage
  have isTop : topPage start = 1053575 := by rw [top, pages]
  rw [metadata, pages] at initialised
  rw [isTop] at served
  refine ⟨start, _, _, initialised, served, ?_⟩
  intro restored accepted
  -- the free looks at the bit of page 4999, which was not popped
  have size : (takePage start 1053575).size = large.pageCount := describes.size
  obtain ⟨_, used, _⟩ := (systemPaFree_iff describes.small size _ restored).mp accepted
  have page : pageOf (takePage start 1053575) (large.pageAddress (1053575 % 2 ^ 20)) = 4999 := by
    rw [pageOf, takePage, base]
    decide
  have clear : testBit start.pagesBitmap 4999 = false := by
    rw [describes.bitmap 4999 (by decide), decide_eq_false_iff_not, not_not, mem_freshStack,
      metadata, pages]
    decide
  rw [page, takePage, testBit_setBit, clear] at used
  exact absurd used (by decide)

end Drastic
