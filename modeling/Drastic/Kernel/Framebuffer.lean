import Drastic.Base
import Drastic.Library.Assign

namespace Drastic

open Library (writes)

/-! The pattern that `kmain` draws. -/

structure LimineFramebuffer where
  address : Uintptr
  width : U64
  height : U64
  pitch : U64

def wordBytes (address : Uintptr) (value : U32) : List (Uintptr × U8) :=
  (List.range 4).map fun k => (address + BitVec.ofNat 64 k, (value >>> (8 * k)).setWidth 8)

/-- `(nY << 8) | nX`. -/
def patternColour (framebuffer : LimineFramebuffer) (y x : U64) : U32 :=
  let nX : U32 := (x * 255#64 / framebuffer.width).setWidth 32
  let nY : U32 := (y * 255#64 / framebuffer.height).setWidth 32
  nY <<< 8 ||| nX

/-- `&fb_ptr[y * (framebuffer->pitch / 4) + x]`. -/
def pixelAddress (framebuffer : LimineFramebuffer) (y x : U64) : Uintptr :=
  framebuffer.address + 4#64 * (y * (framebuffer.pitch / 4#64) + x)

def pixelBytes (framebuffer : LimineFramebuffer) (y x : Nat) : List (Uintptr × U8) :=
  wordBytes (pixelAddress framebuffer (BitVec.ofNat 64 y) (BitVec.ofNat 64 x))
    (patternColour framebuffer (BitVec.ofNat 64 y) (BitVec.ofNat 64 x))

def drawPattern (framebuffer : LimineFramebuffer) (memory : ByteMemory) : ByteMemory :=
  (List.range framebuffer.height.toNat).foldl (fun memory y =>
    (List.range framebuffer.width.toNat).foldl (fun memory x =>
      writes memory (pixelBytes framebuffer y x)) memory) memory

/-- `kmain` behind `system_setup`; none for `hcf`. `response` is none for `NULL`, else it has the
`framebuffers`. -/
def kmainPattern (revisionSupported : Bool) (response : Option (List LimineFramebuffer))
    (memory : ByteMemory) : Option ByteMemory :=
  if revisionSupported = false then none
  else
    match response with
    | none => none
    | some [] => none
    | some (framebuffer :: _) => some (drawPattern framebuffer memory)

/-- The rows lie one after the other in memory, and the coordinates are not too large to be
scaled. -/
structure Drawable (framebuffer : LimineFramebuffer) : Prop where
  rows : 4 * framebuffer.width.toNat ≤ framebuffer.pitch.toNat
  whole : 4 ∣ framebuffer.pitch.toNat
  fits : framebuffer.address.toNat + framebuffer.height.toNat * framebuffer.pitch.toNat ≤ 2 ^ 64
  width : framebuffer.width.toNat * 255 < 2 ^ 64
  height : framebuffer.height.toNat * 255 < 2 ^ 64

def pixel (framebuffer : LimineFramebuffer) (y x : Nat) : Nat :=
  framebuffer.address.toNat + y * framebuffer.pitch.toNat + 4 * x

variable {framebuffer : LimineFramebuffer} {memory : ByteMemory} {x y k : Nat}

theorem Drawable.inside (drawable : Drawable framebuffer) (inRow : x < framebuffer.width.toNat)
    (inColumn : y < framebuffer.height.toNat) : pixel framebuffer y x + 4 ≤ 2 ^ 64 := by
  have rows := drawable.rows
  have next : (y + 1) * framebuffer.pitch.toNat =
      y * framebuffer.pitch.toNat + framebuffer.pitch.toNat := Nat.succ_mul y _
  calc pixel framebuffer y x + 4
      _ ≤ framebuffer.address.toNat + (y + 1) * framebuffer.pitch.toNat := by
        rw [pixel]
        omega
      _ ≤ framebuffer.address.toNat +
          framebuffer.height.toNat * framebuffer.pitch.toNat :=
        Nat.add_le_add_left (Nat.mul_le_mul_right _ inColumn) _
      _ ≤ 2 ^ 64 := drawable.fits

theorem pixelAddress_toNat (drawable : Drawable framebuffer) (inRow : x < framebuffer.width.toNat)
    (inColumn : y < framebuffer.height.toNat) :
    (pixelAddress framebuffer (BitVec.ofNat 64 y) (BitVec.ofNat 64 x)).toNat =
      pixel framebuffer y x := by
  have inside := drawable.inside inRow inColumn
  have apart : y * framebuffer.pitch.toNat = 4 * (y * (framebuffer.pitch.toNat / 4)) := by
    rw [Nat.mul_left_comm, Nat.mul_div_cancel' drawable.whole]
  have words : (framebuffer.pitch / 4#64).toNat = framebuffer.pitch.toNat / 4 := BitVec.toNat_udiv
  have isX : (BitVec.ofNat 64 x).toNat = x := by
    rw [BitVec.toNat_ofNat]
    exact Nat.mod_eq_of_lt (by have bound := framebuffer.width.isLt; omega)
  have isY : (BitVec.ofNat 64 y).toNat = y := by
    rw [BitVec.toNat_ofNat]
    exact Nat.mod_eq_of_lt (by have bound := framebuffer.height.isLt; omega)
  rw [pixel, apart] at inside ⊢
  have row : (BitVec.ofNat 64 y * (framebuffer.pitch / 4#64)).toNat =
      y * (framebuffer.pitch.toNat / 4) := by
    rw [BitVec.toNat_mul, isY, words]
    exact Nat.mod_eq_of_lt (by omega)
  rw [← row] at inside ⊢
  rw [pixelAddress]
  generalize BitVec.ofNat 64 y * (framebuffer.pitch / 4#64) = offset at inside ⊢
  bv_omega

theorem pixelByte_toNat (drawable : Drawable framebuffer) (inRow : x < framebuffer.width.toNat)
    (inColumn : y < framebuffer.height.toNat) (inWord : k < 4) :
    (pixelAddress framebuffer (BitVec.ofNat 64 y) (BitVec.ofNat 64 x) + BitVec.ofNat 64 k).toNat =
      pixel framebuffer y x + k := by
  have inside := drawable.inside inRow inColumn
  have address := pixelAddress_toNat drawable inRow inColumn
  bv_omega

theorem component_lt {size : Nat} (inside : x < size) : x * 255 / size < 255 := by
  apply Nat.div_lt_of_lt_mul
  calc x * 255 < size * 255 := Nat.mul_lt_mul_of_pos_right inside (by decide)
    _ = size * 255 := rfl

theorem scaled_toNat {size : U64} (inside : x < size.toNat) (small : size.toNat * 255 < 2 ^ 64) :
    ((BitVec.ofNat 64 x * 255#64 / size).setWidth 32).toNat = x * 255 / size.toNat := by
  have bound := component_lt inside
  have scaled : x * 255 < 2 ^ 64 :=
    (Nat.mul_lt_mul_of_pos_right inside (by decide)).trans small
  have isX : (BitVec.ofNat 64 x).toNat = x := by
    rw [BitVec.toNat_ofNat]
    exact Nat.mod_eq_of_lt (inside.trans size.isLt)
  have product : (BitVec.ofNat 64 x * 255#64).toNat = x * 255 := by
    rw [BitVec.toNat_mul, isX]
    exact Nat.mod_eq_of_lt scaled
  rw [BitVec.toNat_setWidth, BitVec.toNat_udiv, product]
  exact Nat.mod_eq_of_lt (bound.trans (by decide))

theorem packed_eq {nY nX : Nat} (smallY : nY < 255) (smallX : nX < 255) :
    nY <<< 8 % 2 ^ 32 ||| nX = 256 * nY + nX := by
  have shifted : nY <<< 8 % 2 ^ 32 = 2 ^ 8 * nY := by
    rw [Nat.shiftLeft_eq, Nat.mul_comm]
    exact Nat.mod_eq_of_lt (by omega)
  rw [shifted]
  exact (Nat.two_pow_add_eq_or_of_lt (by omega) nY).symm

theorem patternColour_toNat (drawable : Drawable framebuffer)
    (inRow : x < framebuffer.width.toNat) (inColumn : y < framebuffer.height.toNat) :
    (patternColour framebuffer (BitVec.ofNat 64 y) (BitVec.ofNat 64 x)).toNat =
      256 * (y * 255 / framebuffer.height.toNat) + x * 255 / framebuffer.width.toNat := by
  have horizontal := scaled_toNat inRow drawable.width
  have vertical := scaled_toNat inColumn drawable.height
  have smallX := component_lt inRow
  have smallY := component_lt inColumn
  rw [patternColour, BitVec.toNat_or, BitVec.toNat_shiftLeft, horizontal, vertical]
  exact packed_eq smallY smallX

def patternBytes (framebuffer : LimineFramebuffer) : List (Uintptr × U8) :=
  (List.range framebuffer.height.toNat).flatMap fun y =>
    (List.range framebuffer.width.toNat).flatMap fun x => pixelBytes framebuffer y x

theorem drawPattern_writes :
    drawPattern framebuffer memory = writes memory (patternBytes framebuffer) := by
  rw [drawPattern, patternBytes]
  simp only [Library.writes_flatMap]

theorem mem_patternBytes {pair : Uintptr × U8} :
    pair ∈ patternBytes framebuffer ↔
      ∃ y < framebuffer.height.toNat, ∃ x < framebuffer.width.toNat, ∃ k < 4,
        pair = (pixelAddress framebuffer (BitVec.ofNat 64 y) (BitVec.ofNat 64 x) +
            BitVec.ofNat 64 k,
          (patternColour framebuffer (BitVec.ofNat 64 y) (BitVec.ofNat 64 x) >>>
            (8 * k)).setWidth 8) := by
  simp only [patternBytes, pixelBytes, wordBytes, List.mem_flatMap, List.mem_map, List.mem_range,
    eq_comm (b := pair)]

theorem pixel_inj (drawable : Drawable framebuffer) {x' y' k' : Nat}
    (inRow : x < framebuffer.width.toNat) (inRow' : x' < framebuffer.width.toNat)
    (inWord : k < 4) (inWord' : k' < 4)
    (same : pixel framebuffer y x + k = pixel framebuffer y' x' + k') :
    y = y' ∧ x = x' ∧ k = k' := by
  have rows := drawable.rows
  rw [pixel, pixel] at same
  have sameRow : y = y' := by
    by_contra other
    rcases Nat.lt_or_gt_of_ne other with above | below
    · have next := Nat.mul_le_mul_right framebuffer.pitch.toNat above
      rw [Nat.succ_mul] at next
      omega
    · have next := Nat.mul_le_mul_right framebuffer.pitch.toNat below
      rw [Nat.succ_mul] at next
      omega
  subst sameRow
  exact ⟨rfl, by omega, by omega⟩

theorem patternBytes_agree (drawable : Drawable framebuffer) :
    ∀ pair ∈ patternBytes framebuffer, ∀ other ∈ patternBytes framebuffer,
      pair.1 = other.1 → pair.2 = other.2 := by
  intro pair member other member' same
  obtain ⟨y, inColumn, x, inRow, k, inWord, rfl⟩ := mem_patternBytes.mp member
  obtain ⟨y', inColumn', x', inRow', k', inWord', rfl⟩ := mem_patternBytes.mp member'
  have addresses := congrArg BitVec.toNat same
  rw [pixelByte_toNat drawable inRow inColumn inWord,
    pixelByte_toNat drawable inRow' inColumn' inWord'] at addresses
  obtain ⟨rfl, rfl, rfl⟩ := pixel_inj drawable inRow inRow' inWord inWord' addresses
  rfl

/-- Every pixel gets the colour of its place, and no other byte is written. -/
theorem pattern_drawn (drawable : Drawable framebuffer) (others : List LimineFramebuffer)
    (memory : ByteMemory) :
    ∃ memory', kmainPattern true (some (framebuffer :: others)) memory = some memory' ∧
      (∀ y < framebuffer.height.toNat, ∀ x < framebuffer.width.toNat, ∀ k < 4, ∀ a : Uintptr,
        a.toNat = pixel framebuffer y x + k →
          (memory' a).toNat =
            (256 * (y * 255 / framebuffer.height.toNat) + x * 255 / framebuffer.width.toNat) /
              256 ^ k % 256) ∧
      ∀ a : Uintptr, (∀ y < framebuffer.height.toNat, ∀ x < framebuffer.width.toNat,
        a.toNat < pixel framebuffer y x ∨ pixel framebuffer y x + 4 ≤ a.toNat) →
          memory' a = memory a := by
  refine ⟨drawPattern framebuffer memory, rfl, ?_, ?_⟩
  · intro y inColumn x inRow k inWord a isPixel
    have address : a = pixelAddress framebuffer (BitVec.ofNat 64 y) (BitVec.ofNat 64 x) +
        BitVec.ofNat 64 k :=
      BitVec.eq_of_toNat_eq (isPixel.trans (pixelByte_toNat drawable inRow inColumn inWord).symm)
    have drawn := Library.writes_agree memory _ (patternBytes_agree drawable)
      (mem_patternBytes.mpr ⟨y, inColumn, x, inRow, k, inWord, rfl⟩)
    rw [drawPattern_writes, address, drawn, BitVec.toNat_setWidth, BitVec.toNat_ushiftRight,
      patternColour_toNat drawable inRow inColumn, Nat.shiftRight_eq_div_pow, Nat.pow_mul]
  · intro a elsewhere
    rw [drawPattern_writes]
    apply Library.writes_absent
    intro shared
    obtain ⟨pair, member, rfl⟩ := List.mem_map.mp shared
    obtain ⟨y, inColumn, x, inRow, k, inWord, rfl⟩ := mem_patternBytes.mp member
    have apart := elsewhere y inColumn x inRow
    rw [pixelByte_toNat drawable inRow inColumn inWord] at apart
    omega

theorem pattern_drawn_sample : ∃ memory',
    kmainPattern true (some [⟨0xFD000000#64, 1280#64, 800#64, 5120#64⟩]) (fun _ => 0#8) =
      some memory' ∧
    (memory' 0xFD3E7FFC#64).toNat = 254 ∧ (memory' 0xFD3E7FFD#64).toNat = 254 := by
  have drawable : Drawable ⟨0xFD000000#64, 1280#64, 800#64, 5120#64⟩ :=
    ⟨by decide, by decide, by decide, by decide, by decide⟩
  obtain ⟨memory', drawn, pixels, _⟩ := pattern_drawn drawable [] (fun _ => 0#8)
  have last := pixels 799 (by decide) 1279 (by decide)
  exact ⟨memory', drawn, last 0 (by decide) _ (by decide), last 1 (by decide) _ (by decide)⟩

end Drastic
