import Drastic.Base
import Drastic.Library.LittleEndian

namespace Drastic

open Library.LittleEndian (ofBytes)

/-! The segment descriptors of `system_gdt.c`. -/

structure SystemGdtEntry where
  base : U64
  limit : U32
  accessByte : U8
  flags : U8
  deriving DecidableEq, Repr

abbrev systemGdtSegmentCount : Nat := 5

structure SystemGdt where
  entries : Fin systemGdtSegmentCount → SystemGdtEntry
  data : Nat → U8

def systemGdtKcodeSegment : Nat := 1
def systemGdtKdataSegment : Nat := 2
def systemGdtUdataSegment : Nat := 3
def systemGdtUcodeSegment : Nat := 4

def systemGdtSegflagLongMode : U8 := 1#8 <<< 1
def systemGdtSegflagDb : U8 := 1#8 <<< 2
def systemGdtSegflagGranularity : U8 := 1#8 <<< 3

def systemGdt : SystemGdt where
  entries segment :=
    if segment.val = systemGdtKcodeSegment then
      ⟨0#64, 0xFFFFF#32, 0x9A#8, systemGdtSegflagLongMode ||| systemGdtSegflagGranularity⟩
    else if segment.val = systemGdtKdataSegment then
      ⟨0#64, 0xFFFFF#32, 0x92#8, systemGdtSegflagDb ||| systemGdtSegflagGranularity⟩
    else if segment.val = systemGdtUdataSegment then
      ⟨0#64, 0xFFFFF#32, 0xF2#8, systemGdtSegflagDb ||| systemGdtSegflagGranularity⟩
    else if segment.val = systemGdtUcodeSegment then
      ⟨0#64, 0xFFFFF#32, 0xFA#8, systemGdtSegflagLongMode ||| systemGdtSegflagGranularity⟩
    else ⟨0#64, 0#32, 0#8, 0#8⟩
  data _ := 0#8

/-- `target` is the offset of the descriptor in `data`. The flags are shifted as an `int`. -/
def systemGdtEntryEncode (data : Nat → U8) (target : Nat) (entry : SystemGdtEntry) :
    Exec (Nat → U8) :=
  if entry.limit > 0xFFFFF#32 then
    .error (.kpanic "GDT cannot encode limits larger than 0xFFFFF")
  else
    let data := Function.update data (target + 0) ((entry.limit &&& 0xFF#32).setWidth 8)
    let data := Function.update data (target + 1) (((entry.limit >>> 8) &&& 0xFF#32).setWidth 8)
    let data := Function.update data (target + 6) (((entry.limit >>> 16) &&& 0x0F#32).setWidth 8)
    let data := Function.update data (target + 2) ((entry.base &&& 0xFF#64).setWidth 8)
    let data := Function.update data (target + 3) (((entry.base >>> 8) &&& 0xFF#64).setWidth 8)
    let data := Function.update data (target + 4) (((entry.base >>> 16) &&& 0xFF#64).setWidth 8)
    let data := Function.update data (target + 7) (((entry.base >>> 24) &&& 0xFF#64).setWidth 8)
    let data := Function.update data (target + 5) entry.accessByte
    let data := Function.update data (target + 6) ((entry.flags.setWidth 32 <<< 4).setWidth 8)
    .ok data

/-- The loop of `system_gdt_setup`; loading the register does not change the table. -/
def systemGdtSetup (gdt : SystemGdt) : Exec SystemGdt :=
  (List.finRange systemGdtSegmentCount).foldlM (fun gdt i => do
    return { gdt with data := ← systemGdtEntryEncode gdt.data (i.val * 8) (gdt.entries i) }) gdt

def segmentDescriptor (data : Nat → U8) (target : Nat) : SystemGdtEntry where
  base := BitVec.ofNat 64
    (ofBytes [data (target + 2), data (target + 3), data (target + 4), data (target + 7)])
  limit := BitVec.ofNat 32
    (ofBytes [data target, data (target + 1), data (target + 6) &&& 0x0F#8])
  accessByte := data (target + 5)
  flags := data (target + 6) >>> 4

structure SystemGdtEntry.Fits (entry : SystemGdtEntry) : Prop where
  limit : entry.limit.toNat ≤ 0xFFFFF
  base : entry.base.toNat < 2 ^ 32
  flags : entry.flags.toNat < 16

variable {entry : SystemGdtEntry} {data data' : Nat → U8} {target : Nat}

/-- The bytes of a descriptor as they are in the end: the flags take the whole of byte 6. -/
structure Encoded (data : Nat → U8) (target : Nat) (entry : SystemGdtEntry)
    (data' : Nat → U8) : Prop where
  limit : (data' target).toNat = entry.limit.toNat % 256 ∧
    (data' (target + 1)).toNat = entry.limit.toNat / 256 % 256
  base : (data' (target + 2)).toNat = entry.base.toNat % 256 ∧
    (data' (target + 3)).toNat = entry.base.toNat / 2 ^ 8 % 256 ∧
    (data' (target + 4)).toNat = entry.base.toNat / 2 ^ 16 % 256 ∧
    (data' (target + 7)).toNat = entry.base.toNat / 2 ^ 24 % 256
  access : data' (target + 5) = entry.accessByte
  flags : (data' (target + 6)).toNat = entry.flags.toNat * 16 % 256
  others : ∀ i, i < target ∨ target + 8 ≤ i → data' i = data i

theorem lowByte_toNat {width : Nat} (value : BitVec width) (shift : Nat) (wide : 8 ≤ width) :
    (((value >>> shift) &&& BitVec.ofNat width 0xFF).setWidth 8).toNat =
      value.toNat / 2 ^ shift % 256 := by
  have fits : (0xFF : Nat) < 2 ^ width :=
    Nat.lt_of_lt_of_le (by decide) (Nat.pow_le_pow_right (by decide) wide)
  rw [BitVec.toNat_setWidth, BitVec.toNat_and, BitVec.toNat_ushiftRight, BitVec.toNat_ofNat,
    Nat.mod_eq_of_lt fits, Nat.shiftRight_eq_div_pow]
  have mask : value.toNat / 2 ^ shift &&& 0xFF = value.toNat / 2 ^ shift % 2 ^ 8 :=
    Nat.and_two_pow_sub_one_eq_mod _ 8
  rw [mask]
  exact Nat.mod_mod_of_dvd _ (by decide)

theorem systemGdtEntryEncode_ok (fits : entry.Fits) (data : Nat → U8) (target : Nat) :
    ∃ data', systemGdtEntryEncode data target entry = .ok data' ∧
      Encoded data target entry data' := by
  have small : ¬ entry.limit > 0xFFFFF#32 := by
    have limit := fits.limit
    rw [gt_iff_lt, BitVec.lt_def, BitVec.toNat_ofNat]
    omega
  have flags : ((entry.flags.setWidth 32 <<< 4).setWidth 8).toNat =
      entry.flags.toNat * 16 % 256 := by
    have bound := entry.flags.isLt
    rw [BitVec.toNat_setWidth, BitVec.toNat_shiftLeft, BitVec.toNat_setWidth, Nat.shiftLeft_eq]
    omega
  have limit0 := lowByte_toNat entry.limit 0 (by decide)
  have base0 := lowByte_toNat entry.base 0 (by decide)
  rw [BitVec.ushiftRight_zero, Nat.pow_zero, Nat.div_one] at limit0 base0
  refine ⟨_, if_neg small, ?_⟩
  refine ⟨⟨?_, ?_⟩, ⟨?_, ?_, ?_, ?_⟩, ?_, ?_, ?_⟩
  · simpa using limit0
  · simpa using lowByte_toNat entry.limit 8 (by decide)
  · simpa using base0
  · simpa using lowByte_toNat entry.base 8 (by decide)
  · simpa using lowByte_toNat entry.base 16 (by decide)
  · simpa using lowByte_toNat entry.base 24 (by decide)
  · simp
  · simpa using flags
  · intro i outside
    have apart (k : Nat) (inside : k < 8) : i ≠ target + k := by omega
    rw [Function.update_of_ne (apart 6 (by decide)), Function.update_of_ne (apart 5 (by decide)),
      Function.update_of_ne (apart 7 (by decide)), Function.update_of_ne (apart 4 (by decide)),
      Function.update_of_ne (apart 3 (by decide)), Function.update_of_ne (apart 2 (by decide)),
      Function.update_of_ne (apart 6 (by decide)), Function.update_of_ne (apart 1 (by decide)),
      Function.update_of_ne (apart 0 (by decide))]

/-- The limit loses its upper bits. -/
theorem Encoded.decoded (encoded : Encoded data target entry data') (fits : entry.Fits) :
    segmentDescriptor data' target =
      { entry with limit := BitVec.ofNat 32 (entry.limit.toNat % 2 ^ 16) } := by
  obtain ⟨⟨limit0, limit1⟩, ⟨base0, base1, base2, base3⟩, access, flags, _⟩ := encoded
  have low := fits.limit
  have baseLow := fits.base
  have flagsLow := fits.flags
  have nibble : (data' (target + 6) &&& 0x0F#8).toNat = 0 := by
    have mask : (0x0F#8).toNat = 2 ^ 4 - 1 := rfl
    rw [BitVec.toNat_and, mask, Nat.and_two_pow_sub_one_eq_mod, flags]
    omega
  rw [segmentDescriptor, SystemGdtEntry.mk.injEq]
  refine ⟨?_, ?_, access, ?_⟩
  · apply BitVec.eq_of_toNat_eq
    simp only [ofBytes, base0, base1, base2, base3, BitVec.toNat_ofNat]
    omega
  · apply congrArg (BitVec.ofNat 32)
    simp only [ofBytes, limit0, limit1, nibble]
    omega
  · apply BitVec.eq_of_toNat_eq
    rw [BitVec.toNat_ushiftRight, flags, Nat.shiftRight_eq_div_pow]
    omega

theorem Encoded.decoded_iff (encoded : Encoded data target entry data') (fits : entry.Fits) :
    segmentDescriptor data' target = entry ↔ entry.limit.toNat < 2 ^ 16 := by
  have low := fits.limit
  rw [encoded.decoded fits]
  constructor
  · intro same
    have limit := congrArg (fun decoded : SystemGdtEntry => decoded.limit.toNat) same
    simp only [BitVec.toNat_ofNat] at limit
    omega
  · intro small
    have limit : BitVec.ofNat 32 (entry.limit.toNat % 2 ^ 16) = entry.limit := by
      rw [Nat.mod_eq_of_lt small, BitVec.ofNat_toNat, BitVec.setWidth_eq]
    rw [limit]

def AllEncoded (gdt gdt' : SystemGdt) (segments : List (Fin systemGdtSegmentCount)) : Prop :=
  gdt'.entries = gdt.entries ∧
    (∀ i ∈ segments, ∃ data, Encoded data (i.val * 8) (gdt.entries i) gdt'.data) ∧
    ∀ k, (∀ i ∈ segments, k < i.val * 8 ∨ i.val * 8 + 8 ≤ k) → gdt'.data k = gdt.data k

theorem Encoded.congr {after : Nat → U8} (encoded : Encoded data target entry data')
    (same : ∀ k, target ≤ k → k < target + 8 → after k = data' k) :
    Encoded after target entry after := by
  obtain ⟨limit, base, access, flags, _⟩ := encoded
  have at_ (k : Nat) (inside : k < 8) : after (target + k) = data' (target + k) :=
    same (target + k) (by omega) (by omega)
  refine ⟨?_, ?_, ?_, ?_, fun _ _ => rfl⟩
  · rwa [← Nat.add_zero target, at_ 0 (by decide), at_ 1 (by decide)]
  · rwa [at_ 2 (by decide), at_ 3 (by decide), at_ 4 (by decide), at_ 7 (by decide)]
  · rwa [at_ 5 (by decide)]
  · rwa [at_ 6 (by decide)]

theorem encodeAll_ok (segments : List (Fin systemGdtSegmentCount)) (distinct : segments.Nodup)
    (gdt : SystemGdt) (fits : ∀ i, (gdt.entries i).Fits) :
    ∃ gdt', segments.foldlM (fun gdt i => do
      return { gdt with data := ← systemGdtEntryEncode gdt.data (i.val * 8) (gdt.entries i) }) gdt =
        (.ok gdt' : Exec SystemGdt) ∧ AllEncoded gdt gdt' segments := by
  induction segments generalizing gdt with
  | nil => exact ⟨gdt, rfl, rfl, by simp, fun _ _ => rfl⟩
  | cons i rest ih =>
      rw [List.nodup_cons] at distinct
      obtain ⟨data, run, encoded⟩ := systemGdtEntryEncode_ok (fits i) gdt.data (i.val * 8)
      obtain ⟨gdt', later, entries, descriptors, others⟩ :=
        ih distinct.2 { gdt with data := data } fits
      refine ⟨gdt', ?_, entries, ?_, ?_⟩
      · rw [List.foldlM_cons, run]
        exact later
      · intro j member
        rcases List.mem_cons.mp member with rfl | member
        · refine ⟨gdt'.data, encoded.congr ?_⟩
          intro k first last
          apply others k
          intro other inRest
          have different : other.val ≠ j.val :=
            fun same => distinct.1 (Fin.ext same ▸ inRest)
          omega
        · exact descriptors j member
      · intro k outside
        rw [others k (fun j member => outside j (List.mem_cons_of_mem i member))]
        exact encoded.others k (outside i List.mem_cons_self)

/-- A descriptor decodes to its entry exactly when the limit has no bits above the
lower 16. -/
theorem descriptors_decode_iff (data : Nat → U8) (target : Nat) (entry : SystemGdtEntry)
    (gdt : SystemGdt) :
    (entry.Fits → ∃ data', systemGdtEntryEncode data target entry = .ok data' ∧
      (segmentDescriptor data' target = entry ↔ entry.limit.toNat < 2 ^ 16)) ∧
    ((∀ i, (gdt.entries i).Fits) → ∃ gdt', systemGdtSetup gdt = .ok gdt' ∧ ∀ i,
      (segmentDescriptor gdt'.data (i.val * 8) = gdt.entries i ↔
        (gdt.entries i).limit.toNat < 2 ^ 16)) := by
  constructor
  · intro fits
    obtain ⟨data', run, encoded⟩ := systemGdtEntryEncode_ok fits data target
    exact ⟨data', run, encoded.decoded_iff fits⟩
  · intro fits
    obtain ⟨gdt', run, _, descriptors, _⟩ :=
      encodeAll_ok (List.finRange systemGdtSegmentCount) (List.nodup_finRange _) gdt fits
    refine ⟨gdt', run, ?_⟩
    intro i
    obtain ⟨_, encoded⟩ := descriptors i (List.mem_finRange i)
    exact encoded.decoded_iff (fits i)

theorem systemGdt_fits (i : Fin systemGdtSegmentCount) : (systemGdt.entries i).Fits := by
  refine ⟨?_, ?_, ?_⟩ <;> revert i <;> decide

theorem descriptors_decode_iff_sample : ∃ gdt', systemGdtSetup systemGdt = .ok gdt' ∧ ∀ i,
    (segmentDescriptor gdt'.data (i.val * 8) = systemGdt.entries i ↔
      (systemGdt.entries i).limit.toNat < 2 ^ 16) :=
  (descriptors_decode_iff systemGdt.data 0 (systemGdt.entries 0) systemGdt).2 systemGdt_fits

/-- The code segment of the kernel: its limit comes back as 0xFFFF. -/
theorem kcode_limit_is_lost : ∃ gdt', systemGdtSetup systemGdt = .ok gdt' ∧
    (systemGdt.entries 1).limit = 0xFFFFF#32 ∧
    (segmentDescriptor gdt'.data (1 * 8)).limit = 0xFFFF#32 ∧
    segmentDescriptor gdt'.data (1 * 8) ≠ systemGdt.entries 1 :=
  ⟨_, rfl, by decide, by decide, by decide⟩

end Drastic
