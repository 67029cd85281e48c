import Mathlib.Data.Finset.Insert
import Drastic.Physical.Handouts

namespace Drastic

open Library (FreeStack)

variable {pa : SystemPhysicalAllocator} {count : Nat}

inductive PaRequest where
  | alloc
  | free (address : Uintptr)
  deriving DecidableEq, Repr

/-- An allocator with the pages it returned and did not get back. -/
structure PaLedger where
  pa : SystemPhysicalAllocator
  outstanding : Finset Nat

namespace PaLedger

def step (ledger : PaLedger) : PaRequest → Exec PaLedger
  | .alloc => do
      let (result, pa) ← systemPaAlloc ledger.pa
      match result with
      | some address => return ⟨pa, insert (pageOf ledger.pa address) ledger.outstanding⟩
      | none => return ⟨pa, ledger.outstanding⟩
  | .free address => do
      let pa ← systemPaFree ledger.pa address
      return ⟨pa, ledger.outstanding.erase (pageOf ledger.pa address)⟩

def Sound (metadataPages : Nat) (ledger : PaLedger) : PaRequest → Prop
  | .alloc => hasFreePage ledger.pa = true → topPage ledger.pa < 2 ^ 20
  | .free address => metadataPages ≤ pageOf ledger.pa address

end PaLedger

inductive PaRun (metadataPages : Nat) (start : SystemPhysicalAllocator) : PaLedger → Prop where
  | start : PaRun metadataPages start ⟨start, ∅⟩
  | step {ledger next : PaLedger} (request : PaRequest) (run : PaRun metadataPages start ledger)
      (sound : ledger.Sound metadataPages request) (call : ledger.step request = .ok next) :
      PaRun metadataPages start next

structure LedgerInv (metadataPages count : Nat) (ledger : PaLedger) : Prop where
  describes : ∃ free : FreeStack count, Describes ledger.pa free ∧
    ∀ page < count, page ∈ free.items ↔ metadataPages ≤ page ∧ page ∉ ledger.outstanding
  behind : ∀ page ∈ ledger.outstanding, metadataPages ≤ page

theorem pageOf_allocatedAddress (small : count < 2 ^ 32) (size : pa.size = count) {page : Nat}
    (inside : inRange pa (allocatedAddress pa page) = true) :
    pageOf pa (allocatedAddress pa page) = page % 2 ^ 20 := by
  obtain ⟨lower, upper⟩ := inRange_bounds small size inside
  have product : (BitVec.ofNat 32 page * BitVec.ofNat 32 systemPageSize).toNat =
      page % 2 ^ 20 * 4096 := by
    rw [BitVec.toNat_mul, BitVec.toNat_ofNat, BitVec.toNat_ofNat, systemPageSize]
    omega
  have start := pa.addressBase.isLt
  have value : (allocatedAddress pa page).toNat =
      (page % 2 ^ 20 * 4096 + pa.addressBase.toNat) % 2 ^ 64 := by
    rw [allocatedAddress, BitVec.toNat_add, BitVec.toNat_setWidth, product]
    omega
  rw [pageOf, systemPageSize]
  rw [systemPageSize] at upper
  omega

variable {metadataPages : Nat} {ledger next : PaLedger}

theorem LedgerInv.start (describes : Describes pa (freshStack metadataPages count)) :
    LedgerInv metadataPages count ⟨pa, ∅⟩ := by
  refine ⟨⟨_, describes, ?_⟩, by simp⟩
  intro page bound
  rw [mem_freshStack]
  simp [bound]

theorem LedgerInv.allocated (inv : LedgerInv metadataPages count ledger)
    (sound : ledger.Sound metadataPages .alloc) (call : ledger.step .alloc = .ok next) :
    LedgerInv metadataPages count next := by
  obtain ⟨⟨free, describes, members⟩, behind⟩ := inv
  rw [PaLedger.step, exec_bind_eq_ok] at call
  obtain ⟨⟨result, pa⟩, call, returned⟩ := call
  cases hasPage : hasFreePage ledger.pa with
  | false =>
      have top := describes.top
      have short : ledger.pa.stackTop < 0 := by simpa [hasFreePage] using hasPage
      rw [systemPaAlloc_empty describes (List.eq_nil_of_length_eq_zero (by omega))] at call
      cases call
      cases returned
      exact ⟨⟨free, describes, members⟩, behind⟩
  | true =>
      obtain ⟨front, shape⟩ := describes.shape hasPage
      have bound := free.bounded (topPage ledger.pa) (by simp [shape])
      have size := describes.size
      have available : 0 ≤ ledger.pa.stackTop := by simpa [hasFreePage] using hasPage
      obtain ⟨inside, rfl, rfl⟩ := systemPaAlloc_ok available (by omega) call
      cases returned
      rw [pageOf_allocatedAddress describes.small size inside, Nat.mod_eq_of_lt (sound hasPage)]
      obtain ⟨isBehind, fresh⟩ := (members _ bound).mp (by simp [shape])
      have distinct := free.distinct
      rw [shape, List.nodup_append'] at distinct
      refine ⟨⟨free.dropTop, describes.take shape, ?_⟩, ?_⟩
      · intro page pageBound
        have before := members page pageBound
        have dropped : free.dropTop.items = front := by simp [FreeStack.dropTop, shape]
        rw [shape, List.mem_append, List.mem_singleton] at before
        rw [dropped, Finset.mem_insert, not_or]
        by_cases same : page = topPage ledger.pa
        · have outside : page ∉ front := fun member => distinct.2.2 member (by simp [same])
          simp [same ▸ outside, same]
        · simpa [same] using before
      · intro page member
        rcases Finset.mem_insert.mp member with rfl | earlier
        · exact isBehind
        · exact behind page earlier

theorem LedgerInv.freed (inv : LedgerInv metadataPages count ledger) {address : Uintptr}
    (sound : ledger.Sound metadataPages (.free address))
    (call : ledger.step (.free address) = .ok next) : LedgerInv metadataPages count next := by
  obtain ⟨⟨free, describes, members⟩, behind⟩ := inv
  rw [PaLedger.step, exec_bind_eq_ok] at call
  obtain ⟨pa, call, returned⟩ := call
  cases returned
  obtain ⟨inside, used, rfl⟩ := systemPaFree_ok describes call
  have bound := pageOf_lt describes.small describes.size inside
  refine ⟨⟨_, describes.give bound used, ?_⟩,
    fun page member => behind page (Finset.mem_of_mem_erase member)⟩
  intro page pageBound
  rw [FreeStack.push, List.mem_append, List.mem_singleton, members page pageBound,
    Finset.mem_erase, not_and]
  by_cases same : page = pageOf ledger.pa address
  · subst same
    have isBehind : metadataPages ≤ pageOf ledger.pa address := sound
    simp [isBehind]
  · simp [same]

theorem PaRun.inv {start : SystemPhysicalAllocator}
    (describes : Describes start (freshStack metadataPages count))
    (run : PaRun metadataPages start ledger) : LedgerInv metadataPages count ledger := by
  induction run with
  | start => exact .start describes
  | step request _ sound call ih =>
      cases request with
      | alloc => exact ih.allocated sound call
      | free address => exact ih.freed sound call

/-- A free is accepted for the pages that are not on the stack: the outstanding ones and
the metadata. -/
theorem LedgerInv.accepts_iff (inv : LedgerInv metadataPages count ledger) {address : Uintptr}
    (inside : inRange ledger.pa address = true) :
    (∃ last, systemPaFree ledger.pa address = .ok last) ↔
      pageOf ledger.pa address < metadataPages ∨
        pageOf ledger.pa address ∈ ledger.outstanding := by
  obtain ⟨⟨free, describes, members⟩, _⟩ := inv
  have onStack := members _ (pageOf_lt describes.small describes.size inside)
  constructor
  · rintro ⟨last, call⟩
    have missing := (systemPaFree_ok describes call).2.1
    rw [onStack, not_and, not_not] at missing
    by_cases metadata : pageOf ledger.pa address < metadataPages
    · exact Or.inl metadata
    · exact Or.inr (missing (Nat.le_of_not_lt metadata))
  · intro either
    refine ⟨_, systemPaFree_eq describes inside ?_⟩
    rw [onStack]
    rintro ⟨isBehind, missing⟩
    rcases either with metadata | outstanding
    · exact absurd metadata (Nat.not_lt.mpr isBehind)
    · exact missing outstanding

/-- As long as no metadata page was freed and no page had to be returned under another
one's address, only outstanding pages can be freed, and the metadata pages. -/
theorem invalid_free_rejected_iff (before : RegionContents) (addressBase : Uintptr)
    (metadataPages pageCount : Nat) (positive : 0 < metadataPages)
    (within : metadataPages ≤ pageCount) (small : pageCount < 2 ^ 32)
    (blank : BitsBlank before metadataPages pageCount) :
    ∃ start, systemPaInit before addressBase metadataPages pageCount = .ok start ∧
      ∀ ledger, PaRun metadataPages start ledger →
        (∀ page ∈ ledger.outstanding, metadataPages ≤ page) ∧
        ∀ address, inRange ledger.pa address = true →
          (((∃ last, systemPaFree ledger.pa address = .ok last) →
              pageOf ledger.pa address ∈ ledger.outstanding) ↔
            metadataPages ≤ pageOf ledger.pa address) := by
  obtain ⟨start, initialised, _, describes⟩ :=
    systemPaInit_describes before addressBase metadataPages pageCount positive within small blank
  refine ⟨start, initialised, fun ledger run => ?_⟩
  have inv := run.inv describes
  refine ⟨inv.behind, fun address inside => ?_⟩
  rw [inv.accepts_iff inside]
  constructor
  · intro claim
    by_contra metadata
    have outstanding := claim (Or.inl (Nat.lt_of_not_le metadata))
    exact metadata (inv.behind _ outstanding)
  · rintro isBehind (metadata | outstanding)
    · exact absurd metadata (Nat.not_lt.mpr isBehind)
    · exact outstanding

theorem invalid_free_rejected_iff_sample :
    ∃ start, systemPaInit .zero 0x100000#64 (1 : Nat) (4 : Nat) = .ok start ∧
      ∀ ledger, PaRun 1 start ledger →
        (∀ page ∈ ledger.outstanding, 1 ≤ page) ∧
        ∀ address, inRange ledger.pa address = true →
          (((∃ last, systemPaFree ledger.pa address = .ok last) →
              pageOf ledger.pa address ∈ ledger.outstanding) ↔
            1 ≤ pageOf ledger.pa address) :=
  invalid_free_rejected_iff .zero 0x100000#64 1 4 (by decide) (by decide) (by decide)
    (BlankBeyondZeroed.bits fun _ _ _ => rfl)

/-- The page of the allocator's own header can be freed, and is then handed out. -/
theorem metadata_page_freed_and_returned :
    ∃ start freed last, systemPaInit .zero 0x100000#64 (1 : Nat) (4 : Nat) = .ok start ∧
      systemPaFree start 0x100000#64 = .ok freed ∧
      systemPaAlloc freed = .ok (some 0x100000#64, last) :=
  ⟨_, _, _, rfl, rfl, rfl⟩

end Drastic
