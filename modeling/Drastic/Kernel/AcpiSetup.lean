import Mathlib.Algebra.BigOperators.Intervals
import Drastic.Platform.Acpi
import Drastic.Text.Printf

namespace Drastic

open Library.LittleEndian (ofBytes)

/-! `system_acpi_setup`. -/

def fieldsSize (fields : List (String × Nat)) : Nat := (fields.map Prod.snd).sum

def fieldOffset (fields : List (String × Nat)) (field : String) : Nat :=
  fieldsSize (fields.takeWhile fun entry => entry.1 ≠ field)

def systemAcpiRsdpDescriptor : List (String × Nat) := [
  ("signature", 8),
  ("checksum", 1),
  ("oem_id", 6),
  ("revision", 1),
  ("rsdt_address", 4)]

def systemAcpiXsdpDescriptor : List (String × Nat) := [
  ("signature", 8),
  ("checksum", 1),
  ("oem_id", 6),
  ("revision", 1),
  ("rsdt_address", 4),
  ("length", 4),
  ("xsdt_address", 8),
  ("extended_checksum", 1),
  ("reserved", 3)]

/-- The bootloader's answer to a request: an address or an offset. -/
structure LimineResponse where
  revision : U64
  value : U64

structure LimineRequest where
  revision : U64
  response : Option LimineResponse

def LimineRequest.answer (request : LimineRequest) (text : String) : Exec LimineResponse :=
  match request.response with
  | some response => .ok response
  | none => .error (.assertion text)

section

variable {σ : Type} (output : Stream σ)

/-- The part behind the assertions. No table is left when it ends in `kpanic`. -/
def systemAcpiFind (memory : ByteMemory) (rsdp hhdmOffset : Uintptr) (data : σ) :
    FormatExec (Option SystemAcpi × σ) := do
  let data ← printf output "ACPI: got rsdp address %p\n" [.pointer rsdp] data
  if !systemAcpiValidate memory rsdp (fieldsSize systemAcpiRsdpDescriptor) then
    return (none, kpanic output (str "ACPI: rsdp checksum failed") data)
  let field (name : String) := rsdp + BitVec.ofNat 64 (fieldOffset systemAcpiXsdpDescriptor name)
  let xsdp := memory (field "revision") = 2#8
  if xsdp && !systemAcpiValidate memory rsdp (fieldsSize systemAcpiXsdpDescriptor) then
    return (none, kpanic output (str "ACPI: xsdp checksum failed") data)
  let sdtAddress :=
    if xsdp then readU64 memory (field "xsdt_address") + hhdmOffset
    else (readU32 memory (field "rsdt_address")).setWidth 64 + hhdmOffset
  let data ←
    (if xsdp then printf output "ACPI: found xsdt at %p\n" [.pointer sdtAddress] data
    else printf output "ACPI: found rsdt at %p\n" [.pointer sdtAddress] data)
  let acpi : SystemAcpi := ⟨xsdp, rsdp, sdtAddress⟩
  if !systemAcpiSdtValidate memory acpi then
    return (none, kpanic output (str "ACPI: rsdt checksum failed") data)
  return (some acpi, data)

/-- The assertions on the bootloader's answers, with what is used of these. -/
def systemAcpiAnswers (rsdpRequest hhdmRequest : LimineRequest) : Exec (Uintptr × Uintptr) := do
  kassert (rsdpRequest.revision = 0#64) "system_acpi_rsdp_request.revision == 0"
  let rsdpResponse ← rsdpRequest.answer "system_acpi_rsdp_request.response != NULL"
  kassert (rsdpResponse.revision = 0#64) "system_acpi_rsdp_request.response->revision == 0"
  let hhdmResponse ← hhdmRequest.answer "system_hhdm_request.response != NULL"
  kassert (hhdmResponse.revision = 0#64) "system_hhdm_request.response->revision == 0"
  return (rsdpResponse.value, hhdmResponse.value)

def systemAcpiSetup (rsdpRequest hhdmRequest : LimineRequest) (memory : ByteMemory) (data : σ) :
    FormatExec (Option SystemAcpi × σ) := do
  let (rsdp, hhdmOffset) ← inFormat (systemAcpiAnswers rsdpRequest hhdmRequest)
  systemAcpiFind output memory rsdp hhdmOffset data

end

def Covers (pointer : Uintptr) (count : Nat) (address : Uintptr) : Prop :=
  (address - pointer).toNat < count

variable {memory memory' : ByteMemory} {pointer : Uintptr} {count : Nat}

theorem covers_offset {k : Nat} (inside : k < count) (small : k < 2 ^ 64) :
    Covers pointer count (pointer + BitVec.ofNat 64 k) := by
  have offset : pointer + BitVec.ofNat 64 k - pointer = BitVec.ofNat 64 k := by
    rw [BitVec.add_comm, BitVec.add_sub_cancel]
  rw [Covers, offset, BitVec.toNat_ofNat, Nat.mod_eq_of_lt small]
  exact inside

theorem bytesFrom_congr (small : count ≤ 2 ^ 64)
    (same : ∀ address, Covers pointer count address → memory' address = memory address) :
    bytesFrom memory' pointer count = bytesFrom memory pointer count := by
  apply List.map_congr_left
  intro k member
  have inside := List.mem_range.mp member
  exact same _ (covers_offset inside (inside.trans_le small))

def byteSum (memory : ByteMemory) (pointer : Uintptr) (count : Nat) : Nat :=
  ((bytesFrom memory pointer count).map BitVec.toNat).sum

theorem foldl_checksum (bytes : List U8) (start : U32) :
    (bytes.foldl (fun result byte => result + byte.setWidth 32) start).toNat % 256 =
      (start.toNat + (bytes.map BitVec.toNat).sum) % 256 := by
  induction bytes generalizing start with
  | nil => rfl
  | cons byte rest ih =>
      have bound := byte.isLt
      rw [List.foldl_cons, ih, BitVec.toNat_add, BitVec.toNat_setWidth, List.map_cons,
        List.sum_cons]
      omega

theorem systemAcpiValidate_iff (memory : ByteMemory) (pointer : Uintptr) (count : Nat) :
    systemAcpiValidate memory pointer count = true ↔ byteSum memory pointer count % 256 = 0 := by
  have sum := foldl_checksum (bytesFrom memory pointer count) 0#32
  rw [BitVec.toNat_ofNat, Nat.zero_mod, Nat.zero_add] at sum
  rw [byteSum, ← sum, systemAcpiValidate, decide_eq_true_eq, ← BitVec.toNat_inj,
    BitVec.toNat_and]
  exact (Nat.and_two_pow_sub_one_eq_mod _ 8).congr_left

theorem byteSum_eq_sum (memory : ByteMemory) (pointer : Uintptr) (count : Nat) :
    byteSum memory pointer count =
      ∑ k ∈ Finset.range count, (memory (pointer + BitVec.ofNat 64 k)).toNat := by
  rw [byteSum, bytesFrom, List.map_map]
  rfl

theorem byteSum_update (memory : ByteMemory) (small : count ≤ 2 ^ 64) {address : Uintptr}
    (covered : Covers pointer count address) (byte : U8) :
    (memory address).toNat + byteSum (Function.update memory address byte) pointer count =
      byte.toNat + byteSum memory pointer count := by
  have place : pointer + BitVec.ofNat 64 (address - pointer).toNat = address := by
    rw [BitVec.ofNat_toNat, BitVec.setWidth_eq, BitVec.add_comm, BitVec.sub_add_cancel]
  have inside : (address - pointer).toNat ∈ Finset.range count := Finset.mem_range.mpr covered
  have others : ∀ k ∈ (Finset.range count).erase (address - pointer).toNat,
      Function.update memory address byte (pointer + BitVec.ofNat 64 k) =
        memory (pointer + BitVec.ofNat 64 k) := by
    intro k member
    have different := Finset.ne_of_mem_erase member
    have bound := (Finset.mem_range.mp (Finset.mem_of_mem_erase member)).trans_le small
    apply Function.update_of_ne
    rintro rfl
    apply different
    rw [BitVec.add_comm, BitVec.add_sub_cancel, BitVec.toNat_ofNat, Nat.mod_eq_of_lt bound]
  rw [byteSum_eq_sum, byteSum_eq_sum, ← Finset.add_sum_erase _ _ inside,
    ← Finset.add_sum_erase (Finset.range count) (fun k =>
      (memory (pointer + BitVec.ofNat 64 k)).toNat) inside, place, Function.update_self,
    Finset.sum_congr rfl fun k member => congrArg BitVec.toNat (others k member)]
  omega

theorem systemAcpiValidate_update (small : count ≤ 2 ^ 64) {address : Uintptr}
    (covered : Covers pointer count address) {byte : U8} (changed : byte ≠ memory address)
    (valid : systemAcpiValidate memory pointer count = true) :
    systemAcpiValidate (Function.update memory address byte) pointer count = false := by
  rw [systemAcpiValidate_iff] at valid
  have sums := byteSum_update memory small covered byte
  rw [← Bool.not_eq_true, systemAcpiValidate_iff]
  have different : byte.toNat ≠ (memory address).toNat := mt BitVec.toNat_inj.mp changed
  have bounds := byte.isLt
  have bounds' := (memory address).isLt
  omega

theorem descriptor_offsets : fieldsSize systemAcpiRsdpDescriptor = 20 ∧
    fieldsSize systemAcpiXsdpDescriptor = 36 ∧
    fieldOffset systemAcpiXsdpDescriptor "revision" = 15 ∧
    fieldOffset systemAcpiXsdpDescriptor "rsdt_address" = 16 ∧
    fieldOffset systemAcpiXsdpDescriptor "xsdt_address" = 24 := by
  decide

def rootTable (memory : ByteMemory) (rsdp hhdmOffset : Uintptr) (extended : Bool) : Uintptr :=
  if extended then readU64 memory (rsdp + 24#64) + hhdmOffset
  else (readU32 memory (rsdp + 16#64)).setWidth 64 + hhdmOffset

structure Found (memory : ByteMemory) (hhdmOffset : Uintptr) (acpi : SystemAcpi) : Prop where
  descriptor : systemAcpiValidate memory acpi.rsdp 20 = true
  extended : acpi.useExtended = decide (memory (acpi.rsdp + 15#64) = 2#8)
  extension : acpi.useExtended = true → systemAcpiValidate memory acpi.rsdp 36 = true
  sdt : acpi.sdt = rootTable memory acpi.rsdp hhdmOffset acpi.useExtended
  table : systemAcpiSdtValidate memory acpi = true

variable {σ : Type} {output : Stream σ} {hhdmOffset rsdp : Uintptr} {acpi : SystemAcpi}

def printRoot (output : Stream σ) (extended : Bool) (sdt : Uintptr) (data : σ) : FormatExec σ :=
  if extended then printf output "ACPI: found xsdt at %p\n" [.pointer sdt] data
  else printf output "ACPI: found rsdt at %p\n" [.pointer sdt] data

theorem systemAcpiFind_eq (memory : ByteMemory) (rsdp hhdmOffset : Uintptr) (data : σ) :
    systemAcpiFind output memory rsdp hhdmOffset data = (do
      let data ← printf output "ACPI: got rsdp address %p\n" [.pointer rsdp] data
      if !systemAcpiValidate memory rsdp 20 then
        return (none, kpanic output (str "ACPI: rsdp checksum failed") data)
      let extended := decide (memory (rsdp + 15#64) = 2#8)
      if extended && !systemAcpiValidate memory rsdp 36 then
        return (none, kpanic output (str "ACPI: xsdp checksum failed") data)
      let acpi : SystemAcpi := ⟨extended, rsdp, rootTable memory rsdp hhdmOffset extended⟩
      let data ← printRoot output extended acpi.sdt data
      if !systemAcpiSdtValidate memory acpi then
        return (none, kpanic output (str "ACPI: rsdt checksum failed") data)
      return (some acpi, data)) := by
  obtain ⟨size, size', revision, rsdt, xsdt⟩ := descriptor_offsets
  simp only [systemAcpiFind, size, size', revision, rsdt, xsdt, rootTable, printRoot,
    decide_eq_true_eq]

structure Printed (output : Stream σ) (acpi : SystemAcpi) (data between after : σ) : Prop where
  got : printf output "ACPI: got rsdp address %p\n" [.pointer acpi.rsdp] data = .ok between
  root : printRoot output acpi.useExtended acpi.sdt between = .ok after

variable {data between after : σ}

theorem systemAcpiFind_found
    (run : systemAcpiFind output memory rsdp hhdmOffset data = .ok (some acpi, after)) :
    acpi.rsdp = rsdp ∧ Found memory hhdmOffset acpi ∧
      ∃ between, Printed output acpi data between after := by
  rw [systemAcpiFind_eq] at run
  cases got : printf output "ACPI: got rsdp address %p\n" [.pointer rsdp] data with
  | error stop =>
      rw [got] at run
      cases run
  | ok between =>
      rw [got, format_bind_ok] at run
      split at run
      case isTrue => cases run
      case isFalse descriptor =>
        dsimp only at run
        split at run
        case isTrue => cases run
        case isFalse extension =>
          cases root : printRoot output (decide (memory (rsdp + 15#64) = 2#8))
              (rootTable memory rsdp hhdmOffset (decide (memory (rsdp + 15#64) = 2#8)))
              between with
          | error stop =>
              rw [root] at run
              cases run
          | ok last =>
              rw [root, format_bind_ok] at run
              split at run
              case isTrue => cases run
              case isFalse table =>
                cases run
                refine ⟨rfl, ⟨by simpa using descriptor, rfl, ?_, rfl, by simpa using table⟩,
                  between, got, root⟩
                intro extended
                have revision : memory (rsdp + 15#64) = 2#8 := of_decide_eq_true extended
                simpa [revision] using extension

theorem systemAcpiFind_accepts (found : Found memory hhdmOffset acpi)
    (printed : Printed output acpi data between after) :
    systemAcpiFind output memory acpi.rsdp hhdmOffset data = .ok (some acpi, after) := by
  obtain ⟨useExtended, rsdp, sdt⟩ := acpi
  obtain ⟨descriptor, extended, extension, root, table⟩ := found
  simp only at descriptor extended extension root table
  have passed : (useExtended && !systemAcpiValidate memory rsdp 36) = false := by
    cases useExtended with
    | true => simp [extension rfl]
    | false => rfl
  rw [systemAcpiFind_eq, printed.got, format_bind_ok]
  simp only [descriptor, Bool.not_true, Bool.false_eq_true, if_false, ← extended, passed, ← root]
  have shown := printed.root
  simp only at shown
  rw [shown, format_bind_ok]
  simp only [table, Bool.not_true, Bool.false_eq_true, if_false]
  rfl

theorem systemAcpiFind_bad_descriptor
    (got : printf output "ACPI: got rsdp address %p\n" [.pointer rsdp] data = .ok between)
    (bad : systemAcpiValidate memory rsdp 20 = false) :
    ∃ last, systemAcpiFind output memory rsdp hhdmOffset data = .ok (none, last) := by
  rw [systemAcpiFind_eq, got, format_bind_ok, bad]
  exact ⟨_, rfl⟩

theorem systemAcpiFind_bad_extension
    (got : printf output "ACPI: got rsdp address %p\n" [.pointer rsdp] data = .ok between)
    (extended : memory (rsdp + 15#64) = 2#8) (bad : systemAcpiValidate memory rsdp 36 = false) :
    ∃ last, systemAcpiFind output memory rsdp hhdmOffset data = .ok (none, last) := by
  cases descriptor : systemAcpiValidate memory rsdp 20 with
  | false => exact systemAcpiFind_bad_descriptor got descriptor
  | true =>
      rw [systemAcpiFind_eq, got, format_bind_ok, descriptor, extended, bad]
      exact ⟨_, rfl⟩

theorem systemAcpiFind_bad_table (printed : Printed output acpi data between after)
    (extended : acpi.useExtended = decide (memory (acpi.rsdp + 15#64) = 2#8))
    (sdt : acpi.sdt = rootTable memory acpi.rsdp hhdmOffset acpi.useExtended)
    (bad : systemAcpiSdtValidate memory acpi = false) :
    ∃ last, systemAcpiFind output memory acpi.rsdp hhdmOffset data = .ok (none, last) := by
  obtain ⟨useExtended, rsdp, root⟩ := acpi
  simp only at extended sdt
  cases descriptor : systemAcpiValidate memory rsdp 20 with
  | false => exact systemAcpiFind_bad_descriptor printed.got descriptor
  | true =>
      rw [systemAcpiFind_eq, printed.got, format_bind_ok, descriptor]
      dsimp only
      rw [← extended, ← sdt]
      cases (useExtended && !systemAcpiValidate memory rsdp 36) with
      | true => exact ⟨_, rfl⟩
      | false =>
          have shown := printed.root
          dsimp only at shown ⊢
          rw [shown, format_bind_ok, bad]
          exact ⟨_, rfl⟩

theorem systemAcpiSetup_find {rsdpRequest hhdmRequest : LimineRequest}
    {result : Option SystemAcpi × σ}
    (run : systemAcpiSetup output rsdpRequest hhdmRequest memory data = .ok result) :
    ∃ rsdp hhdmOffset, ∀ memory data, systemAcpiSetup output rsdpRequest hhdmRequest memory data =
      systemAcpiFind output memory rsdp hhdmOffset data := by
  unfold systemAcpiSetup at run ⊢
  cases answers : systemAcpiAnswers rsdpRequest hhdmRequest with
  | error stop =>
      rw [answers] at run
      cases run
  | ok values => exact ⟨values.1, values.2, fun _ _ => rfl⟩

def InDescriptor (acpi : SystemAcpi) (address : Uintptr) : Prop :=
  Covers acpi.rsdp (if acpi.useExtended then 36 else 20) address

theorem Covers.within {k n : Nat} {address : Uintptr}
    (inside : Covers (pointer + BitVec.ofNat 64 k) n address) (fits : k + n ≤ count)
    (small : count ≤ 2 ^ 64) : Covers pointer count address := by
  have shift : address - pointer =
      (address - (pointer + BitVec.ofNat 64 k)) + BitVec.ofNat 64 k := by
    bv_omega
  rw [Covers] at inside ⊢
  rw [shift, BitVec.toNat_add, BitVec.toNat_ofNat, Nat.mod_eq_of_lt (show k < 2 ^ 64 by omega),
    Nat.mod_eq_of_lt (by omega)]
  omega

theorem inDescriptor_of_short {address : Uintptr} (covered : Covers acpi.rsdp 20 address) :
    InDescriptor acpi address := by
  unfold InDescriptor
  split
  · exact covered.trans (by decide)
  · exact covered

theorem revision_congr (acpi : SystemAcpi) (memory : ByteMemory)
    (same : ∀ address, Covers acpi.rsdp 20 address → memory' address = memory address) :
    memory' (acpi.rsdp + 15#64) = memory (acpi.rsdp + 15#64) :=
  same _ (covers_offset (show 15 < 20 by decide) (by decide))

theorem rootTable_congr
    (same : ∀ address, InDescriptor acpi address → memory' address = memory address) :
    rootTable memory' acpi.rsdp hhdmOffset acpi.useExtended =
      rootTable memory acpi.rsdp hhdmOffset acpi.useExtended := by
  unfold rootTable
  unfold InDescriptor at same
  cases extended : acpi.useExtended with
  | true =>
      simp only [extended, if_true] at same ⊢
      rw [readU64, readU64, bytesFrom_congr (by decide) fun address inside =>
        same address (Covers.within inside (show 24 + 8 ≤ 36 by decide) (by decide))]
  | false =>
      simp only [extended, Bool.false_eq_true, if_false] at same ⊢
      rw [readU32, readU32, bytesFrom_congr (by decide) fun address inside =>
        same address (Covers.within inside (show 16 + 4 ≤ 20 by decide) (by decide))]

theorem length_congr (acpi : SystemAcpi) (memory : ByteMemory)
    (same : ∀ address, Covers (acpi.sdt + 4#64) 4 address → memory' address = memory address) :
    systemAcpiSdtLength memory' acpi = systemAcpiSdtLength memory acpi := by
  have offset : systemAcpiSdtHeaderOffset "length" = 4 := by decide
  rw [systemAcpiSdtLength, systemAcpiSdtLength, offset, readU32, readU32,
    bytesFrom_congr (by decide) same]

/-- The byte is summed up by one of the checksums, and is not of the length of the table. -/
def Checksummed (memory : ByteMemory) (acpi : SystemAcpi) (address : Uintptr) : Prop :=
  InDescriptor acpi address ∨ Covers acpi.sdt (systemAcpiSdtLength memory acpi).toNat address ∧
    ¬ Covers (acpi.sdt + 4#64) 4 address

/-- No single changed byte under the checksums gets past `system_acpi_setup`. -/
theorem acpi_detects_change {rsdpRequest hhdmRequest : LimineRequest}
    (run : systemAcpiSetup output rsdpRequest hhdmRequest memory data = .ok (some acpi, after))
    {address : Uintptr} (checked : Checksummed memory acpi address) {byte : U8}
    (changed : byte ≠ memory address) :
    ∃ last, systemAcpiSetup output rsdpRequest hhdmRequest
      (Function.update memory address byte) data = .ok (none, last) := by
  obtain ⟨rsdp, hhdmOffset, setup⟩ := systemAcpiSetup_find run
  rw [setup] at run ⊢
  obtain ⟨rfl, found, between, printed⟩ := systemAcpiFind_found run
  have kept {other : Uintptr} (different : other ≠ address) :
      Function.update memory address byte other = memory other :=
    Function.update_of_ne different byte memory
  by_cases short : Covers acpi.rsdp 20 address
  · exact systemAcpiFind_bad_descriptor printed.got
      (systemAcpiValidate_update (by decide) short changed found.descriptor)
  · have revision := revision_congr acpi memory fun other inside =>
      kept fun same => short (same ▸ inside)
    by_cases inDescriptor : InDescriptor acpi address
    · have extended : acpi.useExtended = true := by
        by_contra plain
        rw [InDescriptor, if_neg plain] at inDescriptor
        exact short inDescriptor
      rw [InDescriptor, if_pos extended] at inDescriptor
      have isTwo := found.extended
      rw [extended] at isTwo
      exact systemAcpiFind_bad_extension printed.got
        (revision.trans (of_decide_eq_true isTwo.symm))
        (systemAcpiValidate_update (by decide) inDescriptor changed (found.extension extended))
    · obtain ⟨inTable, notLength⟩ := checked.resolve_left inDescriptor
      have length := length_congr acpi memory fun other inside =>
        kept fun same => notLength (same ▸ inside)
      apply systemAcpiFind_bad_table printed
      · rw [revision]
        exact found.extended
      · rw [rootTable_congr fun other inside => kept fun same => inDescriptor (same ▸ inside)]
        exact found.sdt
      · rw [systemAcpiSdtValidate, length]
        have small := (systemAcpiSdtLength memory acpi).isLt
        exact systemAcpiValidate_update (by omega) inTable changed found.table

/-- Everything that is read, by the search and from the tables it found. -/
def Read (memory : ByteMemory) (acpi : SystemAcpi) (address : Uintptr) : Prop :=
  InDescriptor acpi address ∨ Covers acpi.sdt (systemAcpiSdtLength memory acpi).toNat address ∨
    Covers (acpi.sdt + 4#64) 4 address

theorem entry_within {bytes item size : Int} (positive : 0 < size) (nonneg : 0 ≤ item)
    (below : item < bytes.tdiv size) : size * item + size ≤ bytes := by
  have some : 0 ≤ bytes := by
    by_contra negative
    have opposite : 0 ≤ (-bytes).tdiv size := Int.tdiv_nonneg (by omega) positive.le
    rw [Int.neg_tdiv] at opposite
    omega
  calc
    size * item + size = size * (item + 1) := by ring
    _ ≤ size * bytes.tdiv size := Int.mul_le_mul_of_nonneg_left (by omega) positive.le
    _ ≤ bytes := Int.mul_tdiv_self_le some

theorem readEntry_congr (size : Nat) (small : 29 + size ≤ 2 ^ 32) {item : Int} (nonneg : 0 ≤ item)
    (inside : (size : Int) * item + size ≤ (systemAcpiSdtLength memory acpi).toNat - 29)
    (same : ∀ address, Covers acpi.sdt (systemAcpiSdtLength memory acpi).toNat address →
      memory' address = memory address) :
    bytesFrom memory' (acpi.sdt + 29#64 + BitVec.ofInt 64 (size * item)) size =
      bytesFrom memory (acpi.sdt + 29#64 + BitVec.ofInt 64 (size * item)) size := by
  obtain ⟨index, rfl⟩ := Int.eq_ofNat_of_zero_le nonneg
  have bound := (systemAcpiSdtLength memory acpi).isLt
  have place : acpi.sdt + 29#64 + BitVec.ofInt 64 ((size : Int) * (index : Nat)) =
      acpi.sdt + BitVec.ofNat 64 (29 + size * index) := by
    have offset : BitVec.ofInt 64 ((size : Int) * (index : Nat)) =
        BitVec.ofNat 64 (size * index) := by
      exact_mod_cast BitVec.ofInt_natCast 64 (size * index)
    rw [offset, BitVec.ofNat_add, BitVec.add_assoc]
  rw [place]
  apply bytesFrom_congr (by omega)
  intro address covered
  refine same address (covered.within ?_ (by omega))
  have fits : ((29 + size * index + size : Nat) : Int) ≤
      (systemAcpiSdtLength memory acpi).toNat := by
    push_cast
    linarith
  exact_mod_cast fits

theorem systemAcpiSdtGet_congr
    (same : ∀ address, Read memory acpi address → memory' address = memory address) (item : Int) :
    systemAcpiSdtGet memory' acpi item = systemAcpiSdtGet memory acpi item := by
  have length := length_congr acpi memory fun address inside => same address (.inr (.inr inside))
  have count : systemAcpiSdtCount memory' acpi = systemAcpiSdtCount memory acpi := by
    rw [systemAcpiSdtCount, length, systemAcpiSdtCount]
  have header : systemAcpiSdtHeaderSize = 29 := by decide
  unfold systemAcpiSdtGet
  rw [count]
  by_cases inside : 0 ≤ item ∧ item < systemAcpiSdtCount memory acpi
  · have below := inside.2
    have table := fun address covered => same address (.inr (.inl covered))
    rw [systemAcpiSdtCount, header] at below
    cases extended : acpi.useExtended with
    | true =>
        rw [extended, if_pos rfl] at below
        have entry := readEntry_congr 8 (by decide) inside.1
          (entry_within (by decide) inside.1 below) table
        rw [Nat.cast_ofNat] at entry
        simp only [if_true, header, readU64, entry]
    | false =>
        rw [extended, if_neg (by decide)] at below
        have entry := readEntry_congr 4 (by decide) inside.1
          (entry_within (by decide) inside.1 below) table
        rw [Nat.cast_ofNat] at entry
        simp only [Bool.false_eq_true, if_false, header, readU32, entry]
  · have outside : (decide (0 ≤ item) && decide (item < systemAcpiSdtCount memory acpi)) =
        false := by
      simpa using inside
    simp only [outside, kassert, Bool.false_eq_true, if_false, exec_bind_error]

/-- What was accepted is read from checked bytes and the length only, by the search and by every
later look at an entry. -/
theorem acpi_reads_checked {rsdpRequest hhdmRequest : LimineRequest}
    (run : systemAcpiSetup output rsdpRequest hhdmRequest memory data = .ok (some acpi, after))
    (same : ∀ address, Read memory acpi address → memory' address = memory address) :
    systemAcpiSetup output rsdpRequest hhdmRequest memory' data = .ok (some acpi, after) ∧
      ∀ item, systemAcpiSdtGet memory' acpi item = systemAcpiSdtGet memory acpi item := by
  obtain ⟨rsdp, hhdmOffset, setup⟩ := systemAcpiSetup_find run
  rw [setup] at run ⊢
  obtain ⟨rfl, found, between, printed⟩ := systemAcpiFind_found run
  have descriptor : ∀ address, InDescriptor acpi address → memory' address = memory address :=
    fun address inside => same address (.inl inside)
  have length := length_congr acpi memory fun address inside => same address (.inr (.inr inside))
  refine ⟨systemAcpiFind_accepts ?_ printed, systemAcpiSdtGet_congr same⟩
  constructor
  · rw [systemAcpiValidate, bytesFrom_congr (by decide) fun address inside =>
      descriptor address (inDescriptor_of_short inside)]
    exact found.descriptor
  · rw [revision_congr acpi memory fun address inside =>
      descriptor address (inDescriptor_of_short inside)]
    exact found.extended
  · intro extended
    rw [systemAcpiValidate, bytesFrom_congr (by decide) fun address inside =>
      descriptor address (by rwa [InDescriptor, if_pos extended])]
    exact found.extension extended
  · rw [rootTable_congr descriptor]
    exact found.sdt
  · have small := (systemAcpiSdtLength memory acpi).isLt
    rw [systemAcpiSdtValidate, length, systemAcpiValidate, bytesFrom_congr (by omega)
      fun address inside => same address (.inr (.inl inside))]
    exact found.table

theorem printed_exists {shown : σ → List U8 → Prop} (tells : Tells output shown)
    (acpi : SystemAcpi) {text : List U8} (start : shown data text) :
    ∃ between after, Printed output acpi data between after := by
  obtain ⟨between, got, started⟩ := pointer_shows tells "ACPI: got rsdp address "
    "ACPI: got rsdp address %p\n" (by decide) (by decide) (by decide) acpi.rsdp start
  have root : ∃ after, printRoot output acpi.useExtended acpi.sdt between = .ok after := by
    unfold printRoot
    split
    · obtain ⟨after, found, _⟩ := pointer_shows tells "ACPI: found xsdt at "
        "ACPI: found xsdt at %p\n" (by decide) (by decide) (by decide) acpi.sdt started
      exact ⟨after, found⟩
    · obtain ⟨after, found, _⟩ := pointer_shows tells "ACPI: found rsdt at "
        "ACPI: found rsdt at %p\n" (by decide) (by decide) (by decide) acpi.sdt started
      exact ⟨after, found⟩
  obtain ⟨after, root⟩ := root
  exact ⟨between, after, got, root⟩

def sampleAcpi : ByteMemory := fun pointer =>
  if (pointer - 0x2000#64).toNat < 36 then
    [
      82, 83, 68, 32, 80, 84, 82, 32, 80, 66, 79, 67, 72, 83, 32, 2, 0, 0, 0, 0,
      36, 0, 0, 0, 0, 8, 0, 0, 0, 0, 0, 0, 212, 0, 0, 0].getD (pointer - 0x2000#64).toNat 0
  else sampleXsdt pointer

def sampleTables : SystemAcpi := ⟨true, 0x2000#64, 0x1000#64⟩

theorem sample_found : Found sampleAcpi 0x800#64 sampleTables where
  descriptor := by decide +kernel
  extended := by decide +kernel
  extension := by decide +kernel
  sdt := by decide +kernel
  table := by decide +kernel

theorem sample_accepted : ∃ after,
    systemAcpiSetup recorder ⟨0#64, some ⟨0#64, 0x2000#64⟩⟩ ⟨0#64, some ⟨0#64, 0x800#64⟩⟩
      sampleAcpi [] = .ok (some sampleTables, after) := by
  obtain ⟨between, after, printed⟩ := printed_exists recorder_shows sampleTables
    (show ([] : List U8) = [] from rfl)
  have answers : systemAcpiAnswers ⟨0#64, some ⟨0#64, 0x2000#64⟩⟩ ⟨0#64, some ⟨0#64, 0x800#64⟩⟩ =
      .ok (0x2000#64, 0x800#64) := rfl
  have accepted := systemAcpiFind_accepts sample_found printed
  refine ⟨after, ?_⟩
  rw [systemAcpiSetup, answers, inFormat, format_bind_ok]
  exact accepted

theorem acpi_detects_change_sample : ∃ last,
    systemAcpiSetup recorder ⟨0#64, some ⟨0#64, 0x2000#64⟩⟩ ⟨0#64, some ⟨0#64, 0x800#64⟩⟩
      (Function.update sampleAcpi 0x1028#64 1#8) [] = .ok (none, last) := by
  obtain ⟨after, run⟩ := sample_accepted
  have length : (systemAcpiSdtLength sampleAcpi sampleTables).toNat = 44 := by decide +kernel
  have checked : Checksummed sampleAcpi sampleTables 0x1028#64 := by
    refine .inr ⟨?_, by unfold Covers sampleTables; decide⟩
    rw [length]
    unfold Covers sampleTables
    decide
  exact acpi_detects_change run checked (by decide +kernel)

theorem acpi_reads_checked_sample : ∃ after,
    systemAcpiSetup recorder ⟨0#64, some ⟨0#64, 0x2000#64⟩⟩ ⟨0#64, some ⟨0#64, 0x800#64⟩⟩
      (Function.update sampleAcpi 0x3000#64 1#8) [] = .ok (some sampleTables, after) := by
  obtain ⟨after, run⟩ := sample_accepted
  have length : (systemAcpiSdtLength sampleAcpi sampleTables).toNat = 44 := by decide +kernel
  have same : ∀ address, Read sampleAcpi sampleTables address →
      Function.update sampleAcpi 0x3000#64 1#8 address = sampleAcpi address := by
    intro address read
    apply Function.update_of_ne
    rintro rfl
    unfold Read InDescriptor Covers at read
    rw [length] at read
    revert read
    unfold sampleTables
    decide
  exact ⟨after, (acpi_reads_checked run same).1⟩

end Drastic
