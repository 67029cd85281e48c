import Drastic.Library.WordMemory
import Drastic.Physical.SystemPaging

namespace Drastic

open Library.WordMemory (readWord writeWord)

/-! The page tables of `system_paging.c`. `asm_invlpg` has no effect on memory and is
left out. -/

def bit (n : Nat) : U64 := 1#64 <<< n

def systemPagingAmd64FlagP : U64 := bit 0
def systemPagingAmd64FlagRw : U64 := bit 1
def systemPagingAmd64FlagUs : U64 := bit 2
def systemPagingAmd64FlagPs : U64 := bit 7
def systemPagingAmd64FlagXd : U64 := bit 63
def systemPagingAmd64FlagAddress : U64 := (bit 48 - 1#64) &&& ~~~(bit 12 - 1#64)

/-- What the allocators keep in their regions is no part of it (`SystemPaging`). -/
abbrev Memory := ByteMemory

/-- `*target = (target_address & ADDRESS) | flags`. -/
def writeEntry (memory : Memory) (target targetAddress : Uintptr) (flags : U64) : Memory :=
  writeWord memory target ((targetAddress &&& systemPagingAmd64FlagAddress) ||| flags)

def systemPagingPml4Entry (memory : Memory) (target targetAddress : Uintptr) (flags : U64) :
    Exec Memory := do
  kassert (flags &&& systemPagingAmd64FlagPs = 0#64) "!(flags & SYSTEM_PAGING_AMD64_FLAG_PS)"
  return writeEntry memory target targetAddress flags

def systemPagingPdptEntry (memory : Memory) (target targetAddress : Uintptr) (flags : U64) :
    Exec Memory :=
  .ok (writeEntry memory target targetAddress flags)

def systemPagingPdEntry (memory : Memory) (target targetAddress : Uintptr) (flags : U64) :
    Exec Memory :=
  .ok (writeEntry memory target targetAddress flags)

def systemPagingPtEntry (memory : Memory) (target targetAddress : Uintptr) (flags : U64) :
    Exec Memory :=
  .ok (writeEntry memory target targetAddress flags)

def systemPagingFlagWrite : U64 := bit 0
def systemPagingFlagExec : U64 := bit 1
def systemPagingFlagUser : U64 := bit 2

def systemPagingAmd64FlagConvert (flags : U64) : U64 :=
  let value := 0#64
  let value := if flags &&& systemPagingFlagWrite ≠ 0#64
    then value ||| systemPagingAmd64FlagRw else value
  let value := if flags &&& systemPagingFlagUser ≠ 0#64
    then value ||| systemPagingAmd64FlagUs else value
  if ¬ flags &&& systemPagingFlagExec ≠ 0#64 then value ||| systemPagingAmd64FlagXd else value

def InPage (pointer address : Uintptr) : Prop := (address - pointer).toNat < systemPageSize

instance (pointer address : Uintptr) : Decidable (InPage pointer address) :=
  inferInstanceAs (Decidable (_ < _))

/-- `zero(pointer, SYSTEM_PAGE_SIZE)`. -/
def zeroPageAt (memory : Memory) (pointer : Uintptr) : Memory :=
  fun address => if InPage pointer address then 0#8 else memory address

/-- `memcpy(destination, source, SYSTEM_PAGE_SIZE)`. -/
def copyPageAt (memory : Memory) (destination source : Uintptr) : Memory :=
  fun address =>
    if InPage destination address then memory (source + (address - destination))
    else memory address

variable {σ : Type}

/-- The state of the physical allocator is kept apart from the memory the tables
are in. -/
structure PagingState (σ : Type) where
  memory : Memory
  pages : σ

abbrev PhysicalAlloc (σ : Type) := SystemPhysicalPageKind → σ → Exec (Option Uintptr × σ)

def noPhysicalPageText : String := "PAGING: could not allocate physical page for page mapping"

/-- The allocation that `system_paging_entry__new_physical` and
`system_paging_page_clone` both start with. -/
def allocPage (alloc : PhysicalAlloc σ) (s : PagingState σ) :
    Exec (Uintptr × PagingState σ) := do
  let (result, pages) ← alloc .normal s.pages
  match result with
  | some address => return (address, { s with pages := pages })
  | none => .error (.kpanic noPhysicalPageText)

def systemPagingEntryNewPhysical (alloc : PhysicalAlloc σ) (hhdmOffset : U64)
    (s : PagingState σ) : Exec (Uintptr × PagingState σ) := do
  let (newAddress, s) ← allocPage alloc s
  return (newAddress, { s with memory := zeroPageAt s.memory (newAddress + hhdmOffset) })

def systemPagingAssertAddressAligned (name : String) (address : U64) : Exec Unit :=
  kassert (address &&& (BitVec.ofNat 64 systemPageSize - 1#64) = 0#64)
    ("((" ++ name ++ ") & (SYSTEM_PAGE_SIZE - 1)) == 0")

/-- `&table[(virtual >> shift) & ((1 << 9) - 1)]`. -/
def entryPointer (table virtual : Uintptr) (shift : Nat) : Uintptr :=
  table + 8#64 * ((virtual >>> shift) &&& 511#64)

def parentFlags : U64 := systemPagingAmd64FlagP ||| systemPagingAmd64FlagRw

def makeTable (alloc : PhysicalAlloc σ) (hhdmOffset : U64)
    (setEntry : Memory → Uintptr → Uintptr → U64 → Exec Memory) (entry : Uintptr)
    (s : PagingState σ) : Exec (PagingState σ) := do
  let (newAddress, s) ← systemPagingEntryNewPhysical alloc hhdmOffset s
  return { s with memory := ← setEntry s.memory entry newAddress parentFlags }

/-- One level of `system_paging_entry`: the pointer of the table `entry` refers to. -/
def descend (alloc : PhysicalAlloc σ) (hhdmOffset : U64)
    (setEntry : Memory → Uintptr → Uintptr → U64 → Exec Memory) (entry : Uintptr)
    (s : PagingState σ) : Exec (Uintptr × PagingState σ) := do
  let s ← if readWord s.memory entry &&& systemPagingAmd64FlagP = 0#64
    then makeTable alloc hhdmOffset setEntry entry s else .ok s
  return ((readWord s.memory entry &&& systemPagingAmd64FlagAddress) + hhdmOffset, s)

def systemPagingEntry (alloc : PhysicalAlloc σ) (hhdmOffset : U64) (table virtual : Uintptr)
    (s : PagingState σ) : Exec (Uintptr × PagingState σ) := do
  systemPagingAssertAddressAligned "virtual" virtual
  kassert (table ≠ 0#64) "table"
  let pml4 := table
  let (pdpt, s) ← descend alloc hhdmOffset systemPagingPml4Entry (entryPointer pml4 virtual 39) s
  let (pd, s) ← descend alloc hhdmOffset systemPagingPdptEntry (entryPointer pdpt virtual 30) s
  let (pt, s) ← descend alloc hhdmOffset systemPagingPdEntry (entryPointer pd virtual 21) s
  return (entryPointer pt virtual 12, s)

def systemPagingMap (alloc : PhysicalAlloc σ) (hhdmOffset : U64)
    (table physical virtual : Uintptr) (flags : U64) (s : PagingState σ) :
    Exec (PagingState σ) := do
  systemPagingAssertAddressAligned "virtual" virtual
  systemPagingAssertAddressAligned "physical" physical
  let convertedFlags := systemPagingAmd64FlagConvert flags
  let (ptEntry, s) ← systemPagingEntry alloc hhdmOffset table virtual s
  let memory ← systemPagingPtEntry s.memory ptEntry physical
    (convertedFlags ||| systemPagingAmd64FlagP)
  return { s with memory := memory }

def systemPagingUnmap (alloc : PhysicalAlloc σ) (hhdmOffset : U64) (table virtual : Uintptr)
    (s : PagingState σ) : Exec (PagingState σ) := do
  systemPagingAssertAddressAligned "virtual" virtual
  let (ptEntry, s) ← systemPagingEntry alloc hhdmOffset table virtual s
  return { s with memory := writeWord s.memory ptEntry 0#64 }

end Drastic
