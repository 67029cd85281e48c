import Drastic.Paging.Tables

namespace Drastic

open Library.WordMemory (readWord writeWord)

variable {σ : Type}

/-! `system_paging_table_clone`. -/

structure SystemPagingAddress where
  physical : Uintptr
  virtual : Uintptr
  deriving DecidableEq, Repr

def systemPagingPageClone (alloc : PhysicalAlloc σ) (hhdmOffset : U64) (page : Uintptr)
    (s : PagingState σ) : Exec (SystemPagingAddress × PagingState σ) := do
  let (physical, s) ← allocPage alloc s
  let address : SystemPagingAddress := { physical := physical, virtual := physical + hhdmOffset }
  return (address, { s with memory := copyPageAt s.memory address.virtual page })

def systemPagingTableEntryUpdateAddress (entry newAddress : U64) : Exec U64 := do
  systemPagingAssertAddressAligned "new_address" newAddress
  let zeroed := ~~~systemPagingAmd64FlagAddress
  let entry := entry &&& zeroed
  return entry ||| (newAddress &&& systemPagingAmd64FlagAddress)

def systemPagingTablePageEntryClone (alloc : PhysicalAlloc σ) (hhdmOffset : U64)
    (entry : Uintptr) (s : PagingState σ) : Exec (Uintptr × PagingState σ) := do
  let oldPhysicalAddress := readWord s.memory entry &&& systemPagingAmd64FlagAddress
  let old := oldPhysicalAddress + hhdmOffset
  let (newAddress, s) ← systemPagingPageClone alloc hhdmOffset old s
  let value ← systemPagingTableEntryUpdateAddress (readWord s.memory entry) newAddress.physical
  return (newAddress.virtual, { s with memory := writeWord s.memory entry value })

def entriesPerPage : Nat := systemPageSize / 8

/-- One turn of a loop of `system_paging_table_clone`: `skipLarge` where PS is tested,
and `inner` is the loop over the page that was just cloned. -/
def cloneEntry (alloc : PhysicalAlloc σ) (hhdmOffset : U64) (skipLarge : Bool)
    (inner : Uintptr → PagingState σ → Exec (PagingState σ)) (table : Uintptr)
    (s : PagingState σ) (i : Nat) : Exec (PagingState σ) :=
  let entry := table + 8#64 * BitVec.ofNat 64 i
  if readWord s.memory entry &&& systemPagingAmd64FlagP = 0#64 then .ok s
  else if skipLarge ∧ readWord s.memory entry &&& systemPagingAmd64FlagPs ≠ 0#64 then .ok s
  else do
    let (new, s) ← systemPagingTablePageEntryClone alloc hhdmOffset entry s
    inner new s

def cloneEntries (alloc : PhysicalAlloc σ) (hhdmOffset : U64) (skipLarge : Bool)
    (inner : Uintptr → PagingState σ → Exec (PagingState σ)) (table : Uintptr)
    (s : PagingState σ) : Exec (PagingState σ) :=
  (List.range entriesPerPage).foldlM (cloneEntry alloc hhdmOffset skipLarge inner table) s

/-- The loop over `new_pd`; the pages it clones are not looked at. -/
def clonePd (alloc : PhysicalAlloc σ) (hhdmOffset : U64) :
    Uintptr → PagingState σ → Exec (PagingState σ) :=
  cloneEntries alloc hhdmOffset true fun _ s => .ok s

def clonePdpt (alloc : PhysicalAlloc σ) (hhdmOffset : U64) :
    Uintptr → PagingState σ → Exec (PagingState σ) :=
  cloneEntries alloc hhdmOffset true (clonePd alloc hhdmOffset)

def clonePml4 (alloc : PhysicalAlloc σ) (hhdmOffset : U64) :
    Uintptr → PagingState σ → Exec (PagingState σ) :=
  cloneEntries alloc hhdmOffset false (clonePdpt alloc hhdmOffset)

def systemPagingTableClone (alloc : PhysicalAlloc σ) (hhdmOffset : U64) (table : Uintptr)
    (s : PagingState σ) : Exec (SystemPagingAddress × PagingState σ) := do
  let (clonedTableAddress, s) ← systemPagingPageClone alloc hhdmOffset table s
  let s ← clonePml4 alloc hhdmOffset clonedTableAddress.virtual s
  return (clonedTableAddress, s)

end Drastic
