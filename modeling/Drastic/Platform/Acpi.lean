import Drastic.Base
import Drastic.Library.LittleEndian

namespace Drastic

open Library.LittleEndian (ofBytes ofBytes_lt ofBytes_inj)

/-! The root table of `system_acpi.c`. -/

/-- The fields of the packed `System_Acpi_Sdt_Header` with their sizes. -/
def systemAcpiSdtHeader : List (String × Nat) := [
  ("signature", 4),
  ("length", 4),
  ("revision", 1),
  ("checksum", 1),
  ("oem_id", 6),
  ("oem_table_id", 1),
  ("oem_revision", 4),
  ("creator_id", 4),
  ("creater_revision", 4)]

def systemAcpiSdtHeaderSize : Nat := (systemAcpiSdtHeader.map Prod.snd).sum

def systemAcpiSdtHeaderOffset (field : String) : Nat :=
  ((systemAcpiSdtHeader.takeWhile fun entry => entry.1 ≠ field).map Prod.snd).sum

/-- `system_acpi`; `rsdp` and `xsdp` are one pointer. -/
structure SystemAcpi where
  useExtended : Bool
  rsdp : Uintptr
  sdt : Uintptr

def bytesFrom (memory : ByteMemory) (pointer : Uintptr) (count : Nat) : List U8 :=
  (List.range count).map fun i => memory (pointer + BitVec.ofNat 64 i)

def readU32 (memory : ByteMemory) (pointer : Uintptr) : U32 :=
  BitVec.ofNat 32 (ofBytes (bytesFrom memory pointer 4))

def readU64 (memory : ByteMemory) (pointer : Uintptr) : U64 :=
  BitVec.ofNat 64 (ofBytes (bytesFrom memory pointer 8))

def systemAcpiValidate (memory : ByteMemory) (pointer : Uintptr) (len : Nat) : Bool :=
  let result := (bytesFrom memory pointer len).foldl (fun result byte => result + byte.setWidth 32)
    0#32
  result &&& 0xFF#32 = 0#32

def systemAcpiSdtLength (memory : ByteMemory) (acpi : SystemAcpi) : U32 :=
  readU32 memory (acpi.sdt + BitVec.ofNat 64 (systemAcpiSdtHeaderOffset "length"))

def systemAcpiSdtValidate (memory : ByteMemory) (acpi : SystemAcpi) : Bool :=
  systemAcpiValidate memory acpi.sdt (systemAcpiSdtLength memory acpi).toNat

def systemAcpiSdtCount (memory : ByteMemory) (acpi : SystemAcpi) : Int :=
  (((systemAcpiSdtLength memory acpi).toNat : Int) - systemAcpiSdtHeaderSize).tdiv
    (if acpi.useExtended then 8 else 4)

def systemAcpiSdtGet (memory : ByteMemory) (acpi : SystemAcpi) (item : Int) : Exec Uintptr := do
  kassert (acpi.rsdp ≠ 0#64) "system_acpi.rsdp != NULL"
  let itemCount := systemAcpiSdtCount memory acpi
  kassert (0 ≤ item && item < itemCount) "0 <= item && item < item_count"
  let entries := acpi.sdt + BitVec.ofNat 64 systemAcpiSdtHeaderSize
  if acpi.useExtended then
    return readU64 memory (entries + BitVec.ofInt 64 (8 * item))
  else
    return (readU32 memory (entries + BitVec.ofInt 64 (4 * item))).setWidth 64

/-! The table as ACPI lays it out: a description header of 36 bytes with the length of
the table at offset 4, then the entries. -/

def entrySize (acpi : SystemAcpi) : Nat := if acpi.useExtended then 8 else 4

def HasEntries (memory : ByteMemory) (acpi : SystemAcpi) (n : Nat) : Prop :=
  ofBytes (bytesFrom memory (acpi.sdt + 4#64) 4) = 36 + n * entrySize acpi

instance (memory : ByteMemory) (acpi : SystemAcpi) (n : Nat) :
    Decidable (HasEntries memory acpi n) := inferInstanceAs (Decidable (_ = _))

def rootEntry (memory : ByteMemory) (acpi : SystemAcpi) (i : Nat) : Uintptr :=
  BitVec.ofNat 64 (ofBytes (bytesFrom memory
    (acpi.sdt + BitVec.ofNat 64 (36 + i * entrySize acpi)) (entrySize acpi)))

def Decodes (memory : ByteMemory) (acpi : SystemAcpi) (n : Nat) : Prop :=
  systemAcpiSdtCount memory acpi = n ∧
    ∀ i < n, systemAcpiSdtGet memory acpi i = .ok (rootEntry memory acpi i)

variable {memory : ByteMemory} {acpi : SystemAcpi} {n : Nat}

theorem bytesFrom_length (memory : ByteMemory) (pointer : Uintptr) (count : Nat) :
    (bytesFrom memory pointer count).length = count := by
  rw [bytesFrom, List.length_map, List.length_range]

theorem HasEntries.length (table : HasEntries memory acpi n) :
    (systemAcpiSdtLength memory acpi).toNat = 36 + n * entrySize acpi := by
  have bound := ofBytes_lt (bytesFrom memory (acpi.sdt + 4#64) 4)
  rw [bytesFrom_length] at bound
  rw [systemAcpiSdtLength, readU32, BitVec.toNat_ofNat]
  change ofBytes (bytesFrom memory (acpi.sdt + 4#64) 4) % 2 ^ 32 = _
  rw [Nat.mod_eq_of_lt (by omega)]
  exact table

/-- The header of the code is seven bytes short; only the division hides it. -/
theorem HasEntries.count (table : HasEntries memory acpi n) :
    systemAcpiSdtCount memory acpi = if acpi.useExtended then (n : Int) else n + 1 := by
  have size : systemAcpiSdtHeaderSize = 29 := by decide
  rw [systemAcpiSdtCount, table.length, size, entrySize]
  cases acpi.useExtended with
  | true =>
      have bytes : ((36 + n * 8 : Nat) : Int) - (29 : Nat) = ((7 + n * 8 : Nat) : Int) := by omega
      simp only [if_true, bytes]
      rw [Int.tdiv_eq_ediv_of_nonneg (by omega)]
      omega
  | false =>
      have bytes : ((36 + n * 4 : Nat) : Int) - (29 : Nat) = ((7 + n * 4 : Nat) : Int) := by omega
      simp only [Bool.false_eq_true, if_false, bytes]
      rw [Int.tdiv_eq_ediv_of_nonneg (by omega)]
      omega

def tableByte (memory : ByteMemory) (acpi : SystemAcpi) (offset : Nat) : U8 :=
  memory (acpi.sdt + BitVec.ofNat 64 offset)

theorem bytesFrom_table (memory : ByteMemory) (acpi : SystemAcpi) (offset count : Nat) :
    bytesFrom memory (acpi.sdt + BitVec.ofNat 64 offset) count =
      (List.range count).map fun i => tableByte memory acpi (offset + i) := by
  apply List.map_congr_left
  intro i _
  rw [tableByte, BitVec.ofNat_add, BitVec.add_assoc]

theorem words_eq_iff (memory : ByteMemory) (acpi : SystemAcpi) (offset offset' : Nat) :
    BitVec.ofNat 64 (ofBytes (bytesFrom memory (acpi.sdt + BitVec.ofNat 64 offset) 8)) =
        BitVec.ofNat 64 (ofBytes (bytesFrom memory (acpi.sdt + BitVec.ofNat 64 offset') 8)) ↔
      ∀ i < 8, tableByte memory acpi (offset + i) = tableByte memory acpi (offset' + i) := by
  have bound (pointer : Uintptr) : ofBytes (bytesFrom memory pointer 8) < 2 ^ 64 := by
    have lt := ofBytes_lt (bytesFrom memory pointer 8)
    rwa [bytesFrom_length] at lt
  have numbers (pointer pointer' : Uintptr) :
      BitVec.ofNat 64 (ofBytes (bytesFrom memory pointer 8)) =
          BitVec.ofNat 64 (ofBytes (bytesFrom memory pointer' 8)) ↔
        bytesFrom memory pointer 8 = bytesFrom memory pointer' 8 := by
    rw [← ofBytes_inj (by rw [bytesFrom_length, bytesFrom_length])]
    refine ⟨?_, fun same => by rw [same]⟩
    intro same
    have equal := congrArg BitVec.toNat same
    rwa [BitVec.toNat_ofNat, BitVec.toNat_ofNat, Nat.mod_eq_of_lt (bound _),
      Nat.mod_eq_of_lt (bound _)] at equal
  rw [numbers, bytesFrom_table, bytesFrom_table, List.map_inj_left]
  simp only [List.mem_range]

/-- An entry of an extended table is read seven bytes before its place. -/
theorem HasEntries.get_extended (table : HasEntries memory acpi n) (loaded : acpi.rsdp ≠ 0#64)
    (extended : acpi.useExtended = true) {i : Nat} (inside : i < n) :
    systemAcpiSdtGet memory acpi i =
      .ok (BitVec.ofNat 64 (ofBytes (bytesFrom memory
        (acpi.sdt + BitVec.ofNat 64 (29 + 8 * i)) 8))) := by
  have size : systemAcpiSdtHeaderSize = 29 := by decide
  have checked : ((0 : Int) ≤ i && (i : Int) < n) = true := by simp [inside]
  have offset : BitVec.ofNat 64 29 + BitVec.ofInt 64 (8 * (i : Int)) =
      BitVec.ofNat 64 (29 + 8 * i) := by
    have index : BitVec.ofInt 64 (8 * (i : Int)) = BitVec.ofNat 64 (8 * i) := by
      exact_mod_cast BitVec.ofInt_natCast 64 (8 * i)
    rw [BitVec.ofNat_add, index]
  simp only [systemAcpiSdtGet, table.count, extended, if_true, decide_eq_true loaded, checked,
    kassert_true, exec_bind_ok, exec_pure, readU64, size, BitVec.add_assoc, offset]

/-- The code decodes the table exactly when the table is an extended one whose bytes
repeat every seven from offset 29 on. -/
theorem root_table_decoded_iff (table : HasEntries memory acpi n) (loaded : acpi.rsdp ≠ 0#64) :
    Decodes memory acpi n ↔ acpi.useExtended = true ∧
      ∀ k, 29 ≤ k → k < 29 + 8 * n → tableByte memory acpi k = tableByte memory acpi (k + 7) := by
  cases extended : acpi.useExtended with
  | false =>
      refine ⟨?_, fun both => by cases both.1⟩
      rintro ⟨count, _⟩
      rw [table.count, extended] at count
      simp at count
  | true =>
      have entry (i : Nat) : rootEntry memory acpi i = BitVec.ofNat 64 (ofBytes (bytesFrom memory
          (acpi.sdt + BitVec.ofNat 64 (36 + 8 * i)) 8)) := by
        rw [rootEntry, entrySize, extended, if_pos rfl, Nat.mul_comm]
      have read (i : Nat) (inside : i < n) :
          systemAcpiSdtGet memory acpi i = .ok (rootEntry memory acpi i) ↔
            ∀ j < 8, tableByte memory acpi (29 + 8 * i + j) =
              tableByte memory acpi (36 + 8 * i + j) := by
        rw [table.get_extended loaded extended inside, entry, Except.ok.injEq, words_eq_iff]
      have count : systemAcpiSdtCount memory acpi = n := by
        rw [table.count, extended, if_pos rfl]
      constructor
      · rintro ⟨_, entries⟩
        refine ⟨rfl, ?_⟩
        intro k first last
        have bytes := (read ((k - 29) / 8) (by omega)).mp (entries _ (by omega)) ((k - 29) % 8)
          (by omega)
        have here : 29 + 8 * ((k - 29) / 8) + (k - 29) % 8 = k := by omega
        have there : 36 + 8 * ((k - 29) / 8) + (k - 29) % 8 = k + 7 := by omega
        rwa [here, there] at bytes
      · rintro ⟨_, repeats⟩
        refine ⟨count, ?_⟩
        intro i inside
        apply (read i inside).mpr
        intro j inWord
        have there : 36 + 8 * i + j = 29 + 8 * i + j + 7 := by omega
        rw [there]
        exact repeats _ (by omega) (by omega)

/-- An XSDT at 0x1000 with the entry 0x7FE0000. -/
def sampleXsdt : ByteMemory := fun pointer =>
  [
    88, 83, 68, 84, 44, 0, 0, 0, 1, 93, 66, 79,
    67, 72, 83, 32, 66, 88, 80, 67, 88, 83, 68, 84,
    1, 0, 0, 0, 66, 88, 80, 67, 1, 0, 0, 0,
    0, 0, 254, 7, 0, 0, 0, 0].getD (pointer - 0x1000#64).toNat 0

theorem root_table_decoded_iff_sample :
    let acpi : SystemAcpi := ⟨true, 0x2000#64, 0x1000#64⟩
    Decodes sampleXsdt acpi 1 ↔ acpi.useExtended = true ∧
      ∀ k, 29 ≤ k → k < 29 + 8 * 1 →
        tableByte sampleXsdt acpi k = tableByte sampleXsdt acpi (k + 7) :=
  root_table_decoded_iff (by decide) (by decide)

/-- The table passes the checksum, but its entry is not what the code returns. -/
theorem xsdt_entry_is_misread :
    systemAcpiSdtValidate sampleXsdt ⟨true, 0x2000#64, 0x1000#64⟩ = true ∧
      HasEntries sampleXsdt ⟨true, 0x2000#64, 0x1000#64⟩ 1 ∧
      rootEntry sampleXsdt ⟨true, 0x2000#64, 0x1000#64⟩ 0 = 0x7FE0000#64 ∧
      systemAcpiSdtGet sampleXsdt ⟨true, 0x2000#64, 0x1000#64⟩ 0 = .ok 0x1435058#64 ∧
      ¬ Decodes sampleXsdt ⟨true, 0x2000#64, 0x1000#64⟩ 1 := by
  have actual : systemAcpiSdtGet sampleXsdt ⟨true, 0x2000#64, 0x1000#64⟩ 0 =
      .ok 0x1435058#64 := by decide
  refine ⟨by decide, by decide, by decide, actual, ?_⟩
  rintro ⟨_, entries⟩
  have claimed := entries 0 (by decide)
  rw [Nat.cast_zero, actual] at claimed
  revert claimed
  decide

end Drastic
