import Drastic.Base
import Drastic.Library.Moves

namespace Drastic

open Library.Moves

/-! The byte copies of `memory.c`. -/

/-- `pdest[i] = psrc[i]`. -/
def copyByte (dest src : Uintptr) (memory : ByteMemory) (i : Nat) : ByteMemory :=
  Function.update memory (dest + BitVec.ofNat 64 i) (memory (src + BitVec.ofNat 64 i))

def memcpy (memory : ByteMemory) (dest src : Uintptr) (n : U64) : Uintptr × ByteMemory :=
  (dest, (List.range n.toNat).foldl (copyByte dest src) memory)

/-- The second loop copies at `i - 1` for `i` from `n` down to 1. -/
def memmove (memory : ByteMemory) (dest src : Uintptr) (n : U64) : Uintptr × ByteMemory :=
  if src > dest then
    (dest, (List.range n.toNat).foldl (copyByte dest src) memory)
  else if src < dest then
    (dest, (List.range n.toNat).reverse.foldl (copyByte dest src) memory)
  else (dest, memory)

def memset (memory : ByteMemory) (s : Uintptr) (c : BitVec 32) (n : U64) : Uintptr × ByteMemory :=
  (s, (List.range n.toNat).foldl
    (fun memory i => Function.update memory (s + BitVec.ofNat 64 i) (c.setWidth 8)) memory)

def memcmpFrom (memory : ByteMemory) (s1 s2 : Uintptr) : Nat → Nat → Int
  | 0, _ => 0
  | left + 1, i =>
    let first := memory (s1 + BitVec.ofNat 64 i)
    let second := memory (s2 + BitVec.ofNat 64 i)
    if first ≠ second then if first < second then -1 else 1
    else memcmpFrom memory s1 s2 left (i + 1)

def memcmp (memory : ByteMemory) (s1 s2 : Uintptr) (n : U64) : Int :=
  memcmpFrom memory s1 s2 n.toNat 0

variable {memory memory' : ByteMemory} {dest src : Uintptr} {n : U64}

def Fits (first : Uintptr) (n : U64) : Prop := first.toNat + n.toNat ≤ 2 ^ 64

structure Copied (memory : ByteMemory) (dest src : Uintptr) (n : U64) (memory' : ByteMemory) :
    Prop where
  inside : ∀ i < n.toNat,
    memory' (dest + BitVec.ofNat 64 i) = memory (src + BitVec.ofNat 64 i)
  outside : ∀ a : Uintptr, a.toNat < dest.toNat ∨ dest.toNat + n.toNat ≤ a.toNat →
    memory' a = memory a

theorem Copied.unique {other : ByteMemory} (copied : Copied memory dest src n memory')
    (copied' : Copied memory dest src n other) : memory' = other := by
  funext a
  by_cases outside : a.toNat < dest.toNat ∨ dest.toNat + n.toNat ≤ a.toNat
  · rw [copied.outside a outside, copied'.outside a outside]
  · have bounds := a.isLt
    have index : a = dest + BitVec.ofNat 64 (a.toNat - dest.toNat) := by bv_omega
    have small : a.toNat - dest.toNat < n.toNat := by omega
    rw [index, copied.inside _ small, copied'.inside _ small]

def byteMove (dest src : Uintptr) (i : Nat) : Move Uintptr :=
  ⟨dest + BitVec.ofNat 64 i, src + BitVec.ofNat 64 i⟩

theorem loop_moves (indices : List Nat) (memory : ByteMemory) (dest src : Uintptr) :
    indices.foldl (copyByte dest src) memory =
      runMoves (indices.map (byteMove dest src)) memory := by
  rw [runMoves, List.foldl_map]
  rfl

/-- Any order of the indices copies, as long as no byte is read after it is written. -/
theorem copied_of_apart {indices : List Nat} (all : ∀ i, i ∈ indices ↔ i < n.toNat)
    (apart : Apart (indices.map (byteMove dest src))) (fits : Fits dest n) :
    Copied memory dest src n (indices.foldl (copyByte dest src) memory) := by
  rw [loop_moves]
  constructor
  · intro i small
    have member : byteMove dest src i ∈ indices.map (byteMove dest src) :=
      List.mem_map_of_mem ((all i).mpr small)
    exact runMoves_target apart member
  · intro a outside
    apply runMoves_other
    intro move member
    obtain ⟨i, inIndices, rfl⟩ := List.mem_map.mp member
    have small := (all i).mp inIndices
    unfold Fits at fits
    rw [byteMove]
    bv_omega

/-- Upwards: a source above the destination is read before it is written. -/
theorem apart_up (dest : Uintptr) (fitsSrc : Fits src n)
    (unread : ∀ i j, i < j → j < n.toNat → src.toNat + j ≠ dest.toNat + i) :
    Apart ((List.range n.toNat).map (byteMove dest src)) := by
  apply List.pairwise_map.mpr
  apply List.Pairwise.imp_of_mem ?_ List.pairwise_lt_range
  intro i j _ inRange increasing
  have small := List.mem_range.mp inRange
  have notRead := unread i j increasing small
  unfold Fits at fitsSrc
  constructor
  · change src + BitVec.ofNat 64 j ≠ dest + BitVec.ofNat 64 i
    bv_omega
  · change dest + BitVec.ofNat 64 j ≠ dest + BitVec.ofNat 64 i
    bv_omega

theorem apart_down (fitsDest : Fits dest n) (below : src < dest) :
    Apart ((List.range n.toNat).reverse.map (byteMove dest src)) := by
  apply List.pairwise_map.mpr
  apply List.pairwise_reverse.mpr
  apply List.Pairwise.imp_of_mem ?_ List.pairwise_lt_range
  intro i j _ inRange increasing
  have small := List.mem_range.mp inRange
  unfold Fits at fitsDest
  constructor
  · change src + BitVec.ofNat 64 i ≠ dest + BitVec.ofNat 64 j
    bv_omega
  · change dest + BitVec.ofNat 64 i ≠ dest + BitVec.ofNat 64 j
    bv_omega

theorem memmove_copied (memory : ByteMemory) (fitsSrc : Fits src n) (fitsDest : Fits dest n) :
    (memmove memory dest src n).1 = dest ∧
      Copied memory dest src n (memmove memory dest src n).2 := by
  unfold memmove
  split
  case isTrue above =>
    have apart := apart_up dest fitsSrc (fun i j increasing _ => by bv_omega)
    exact ⟨rfl, copied_of_apart (fun _ => List.mem_range) apart fitsDest⟩
  case isFalse notAbove =>
    split
    case isTrue below =>
      have all (i : Nat) : i ∈ (List.range n.toNat).reverse ↔ i < n.toNat := by
        rw [List.mem_reverse, List.mem_range]
      exact ⟨rfl, copied_of_apart all (apart_down fitsDest below) fitsDest⟩
    case isFalse notBelow =>
      have same : dest = src := by bv_omega
      exact ⟨rfl, fun _ _ => by rw [same], fun _ _ => rfl⟩

theorem memcpy_copied (memory : ByteMemory) (fitsSrc : Fits src n) (fitsDest : Fits dest n)
    (disjoint : dest.toNat + n.toNat ≤ src.toNat ∨ src.toNat + n.toNat ≤ dest.toNat) :
    (memcpy memory dest src n).1 = dest ∧
      Copied memory dest src n (memcpy memory dest src n).2 := by
  have apart := apart_up dest fitsSrc (fun i j _ small => by omega)
  exact ⟨rfl, copied_of_apart (fun _ => List.mem_range) apart fitsDest⟩

/-- The source may overlap the destination in any way. -/
theorem memmove_copies (memory : ByteMemory) (dest src : Uintptr) (n : U64)
    (fitsSrc : Fits src n) (fitsDest : Fits dest n) :
    (memmove memory dest src n).1 = dest ∧
    (∀ i < n.toNat, (memmove memory dest src n).2 (dest + BitVec.ofNat 64 i) =
      memory (src + BitVec.ofNat 64 i)) ∧
    (∀ a : Uintptr, a.toNat < dest.toNat ∨ dest.toNat + n.toNat ≤ a.toNat →
      (memmove memory dest src n).2 a = memory a) ∧
    (dest.toNat + n.toNat ≤ src.toNat ∨ src.toNat + n.toNat ≤ dest.toNat →
      memmove memory dest src n = memcpy memory dest src n) := by
  obtain ⟨returned, copied⟩ := memmove_copied memory fitsSrc fitsDest
  refine ⟨returned, copied.inside, copied.outside, ?_⟩
  intro disjoint
  obtain ⟨returned', copied'⟩ := memcpy_copied memory fitsSrc fitsDest disjoint
  exact Prod.ext (returned.trans returned'.symm) (copied.unique copied')

theorem memmove_copies_sample :
    (memmove (fun a => a.setWidth 8) 0x1002 0x1000 8).2 (0x1002 + BitVec.ofNat 64 7) = 0x07 :=
  (memmove_copies (fun a => a.setWidth 8) 0x1002 0x1000 8 (by decide : 0x1000 + 8 ≤ 2 ^ 64)
    (by decide : 0x1002 + 8 ≤ 2 ^ 64)).2.1 7 (by decide)

def blockFrom (memory : ByteMemory) (s : Uintptr) (count i : Nat) : List U8 :=
  (List.range' i count).map fun j => memory (s + BitVec.ofNat 64 j)

theorem blockFrom_succ (memory : ByteMemory) (s : Uintptr) (count i : Nat) :
    blockFrom memory s (count + 1) i =
      memory (s + BitVec.ofNat 64 i) :: blockFrom memory s count (i + 1) := rfl

theorem memcmpFrom_compares (memory : ByteMemory) (s1 s2 : Uintptr) (left i : Nat) :
    memcmpFrom memory s1 s2 left i =
      if blockFrom memory s1 left i < blockFrom memory s2 left i then -1
      else if blockFrom memory s2 left i < blockFrom memory s1 left i then 1 else 0 := by
  induction left generalizing i with
  | zero => simp [memcmpFrom, blockFrom]
  | succ left ih =>
      rw [memcmpFrom, blockFrom_succ, blockFrom_succ]
      by_cases same : memory (s1 + BitVec.ofNat 64 i) = memory (s2 + BitVec.ofNat 64 i)
      · rw [if_neg (not_not.mpr same), ih]
        simp [same]
      · have same' := Ne.symm same
        rw [if_pos same]
        by_cases below : memory (s1 + BitVec.ofNat 64 i) < memory (s2 + BitVec.ofNat 64 i)
        · simp [List.cons_lt_cons_iff, below]
        · have above : memory (s2 + BitVec.ofNat 64 i) < memory (s1 + BitVec.ofNat 64 i) := by
            bv_omega
          simp [List.cons_lt_cons_iff, below, above, same]

theorem blockFrom_congr {s s' : Uintptr} {count : Nat}
    (same : ∀ i < count, memory (s + BitVec.ofNat 64 i) = memory' (s' + BitVec.ofNat 64 i)) :
    blockFrom memory s count 0 = blockFrom memory' s' count 0 := by
  apply List.map_congr_left
  intro i inRange
  exact same i (by simpa using inRange)

theorem blockFrom_inj {s s' : Uintptr} {count : Nat}
    (same : blockFrom memory s count 0 = blockFrom memory' s' count 0) :
    ∀ i < count, memory (s + BitVec.ofNat 64 i) = memory' (s' + BitVec.ofNat 64 i) := by
  intro i small
  exact List.map_inj_left.mp same i (by simpa using small)

theorem memset_sets (memory : ByteMemory) {s : Uintptr} (c : BitVec 32) (fits : Fits s n) :
    (∀ i < n.toNat, (memset memory s c n).2 (s + BitVec.ofNat 64 i) = c.setWidth 8) ∧
    ∀ a : Uintptr, a.toNat < s.toNat ∨ s.toNat + n.toNat ≤ a.toNat →
      (memset memory s c n).2 a = memory a := by
  unfold Fits at fits
  have upTo (count : Nat) (few : count ≤ n.toNat) (a : Uintptr) : (List.range count).foldl
      (fun memory i => Function.update memory (s + BitVec.ofNat 64 i) (c.setWidth 8)) memory a =
        if s.toNat ≤ a.toNat ∧ a.toNat < s.toNat + count then c.setWidth 8 else memory a := by
    induction count with
    | zero => simp
    | succ count ih =>
        rw [List.range_succ, List.foldl_append, List.foldl_cons, List.foldl_nil,
          Function.update_apply, ih (by omega)]
        by_cases here : a = s + BitVec.ofNat 64 count
        · have inside : s.toNat ≤ a.toNat ∧ a.toNat < s.toNat + (count + 1) := by bv_omega
          rw [if_pos here, if_pos inside]
        · have elsewhere : a.toNat ≠ s.toNat + count := by bv_omega
          rw [if_neg here]
          congr 1
          apply propext
          omega
  constructor
  · intro i small
    have inside : s.toNat ≤ (s + BitVec.ofNat 64 i).toNat ∧
        (s + BitVec.ofNat 64 i).toNat < s.toNat + n.toNat := by bv_omega
    exact (upTo n.toNat le_rfl _).trans (if_pos inside)
  · intro a outside
    exact (upTo n.toNat le_rfl a).trans (if_neg (by omega))

theorem memcmp_zero (memory : ByteMemory) (s1 s2 : Uintptr) (n : U64) :
    memcmp memory s1 s2 n = 0 ↔
      ∀ i < n.toNat, memory (s1 + BitVec.ofNat 64 i) = memory (s2 + BitVec.ofNat 64 i) := by
  rw [memcmp, memcmpFrom_compares]
  constructor
  · intro zero
    have below : ¬ blockFrom memory s1 n.toNat 0 < blockFrom memory s2 n.toNat 0 := by
      intro below
      rw [if_pos below] at zero
      exact absurd zero (by decide)
    have above : ¬ blockFrom memory s2 n.toNat 0 < blockFrom memory s1 n.toNat 0 := by
      intro above
      rw [if_neg below, if_pos above] at zero
      exact absurd zero (by decide)
    exact blockFrom_inj (List.le_antisymm (List.not_lt.mp above) (List.not_lt.mp below))
  · intro same
    rw [blockFrom_congr same, if_neg (List.lt_irrefl _), if_neg (List.lt_irrefl _)]

theorem memcmp_memmove (memory : ByteMemory) {s1 s2 : Uintptr} (fits1 : Fits s1 n)
    (fits2 : Fits s2 n) :
    memcmp memory s1 s2 n = 0 ↔ (memmove memory s1 s2 n).2 = memory := by
  obtain ⟨_, copied⟩ := memmove_copied memory fits2 fits1
  rw [memcmp_zero]
  constructor
  · intro same
    exact copied.unique ⟨same, fun _ _ => rfl⟩
  · intro unchanged i small
    have inside := copied.inside i small
    rwa [unchanged] at inside

theorem memcmp_memcpy (memory : ByteMemory) {s1 s2 : Uintptr} (fits1 : Fits s1 n)
    (fits2 : Fits s2 n)
    (disjoint : s1.toNat + n.toNat ≤ s2.toNat ∨ s2.toNat + n.toNat ≤ s1.toNat) :
    memcmp (memcpy memory s1 s2 n).2 s1 s2 n = 0 := by
  obtain ⟨_, copied⟩ := memcpy_copied memory fits2 fits1 disjoint
  unfold Fits at fits2
  rw [memcmp_zero]
  intro i small
  rw [copied.inside i small]
  exact (copied.outside _ (by bv_omega)).symm

theorem memcmp_memset (memory : ByteMemory) {s1 s2 : Uintptr} (c : BitVec 32) (fits1 : Fits s1 n)
    (fits2 : Fits s2 n) :
    memcmp (memset (memset memory s1 c n).2 s2 c n).2 s1 s2 n = 0 := by
  obtain ⟨inside1, _⟩ := memset_sets memory c fits1
  obtain ⟨inside2, outside2⟩ := memset_sets (memset memory s1 c n).2 c fits2
  rw [memcmp_zero]
  intro i small
  rw [inside2 i small]
  -- a byte of the first block may lie in the second one
  by_cases shared : ∃ j < n.toNat, s1 + BitVec.ofNat 64 i = s2 + BitVec.ofNat 64 j
  · obtain ⟨j, isSmall, address⟩ := shared
    rw [address]
    exact inside2 j isSmall
  · have outside : (s1 + BitVec.ofNat 64 i).toNat < s2.toNat ∨
        s2.toNat + n.toNat ≤ (s1 + BitVec.ofNat 64 i).toNat := by
      by_contra within
      apply shared
      refine ⟨(s1 + BitVec.ofNat 64 i).toNat - s2.toNat, by omega, ?_⟩
      bv_omega
    rw [outside2 _ outside]
    exact inside1 i small

/-- `memcmp` gives the sign of the lexicographic comparison of two blocks. It is 0 exactly when
`memmove` of one over the other would change nothing, and it is 0 after `memcpy` between blocks that
do not overlap and after `memset` of both. -/
theorem memcmp_compares (memory : ByteMemory) (s1 s2 : Uintptr) (n : U64) (fits1 : Fits s1 n)
    (fits2 : Fits s2 n) :
    (memcmp memory s1 s2 n =
      if blockFrom memory s1 n.toNat 0 < blockFrom memory s2 n.toNat 0 then -1
      else if blockFrom memory s2 n.toNat 0 < blockFrom memory s1 n.toNat 0 then 1 else 0) ∧
    (memcmp memory s1 s2 n = 0 ↔ (memmove memory s1 s2 n).2 = memory) ∧
    (s1.toNat + n.toNat ≤ s2.toNat ∨ s2.toNat + n.toNat ≤ s1.toNat →
      memcmp (memcpy memory s1 s2 n).2 s1 s2 n = 0) ∧
    ∀ c, memcmp (memset (memset memory s1 c n).2 s2 c n).2 s1 s2 n = 0 :=
  ⟨memcmpFrom_compares memory s1 s2 n.toNat 0, memcmp_memmove memory fits1 fits2,
    memcmp_memcpy memory fits1 fits2, fun c => memcmp_memset memory c fits1 fits2⟩

theorem memcmp_compares_sample :
    memcmp (fun a => a.setWidth 8) 0x1000 0x1010 4 = 0 ↔
      (memmove (fun a => a.setWidth 8) 0x1000 0x1010 4).2 = fun a => a.setWidth 8 :=
  (memcmp_compares (fun a => a.setWidth 8) 0x1000 0x1010 4 (by decide : 0x1000 + 4 ≤ 2 ^ 64)
    (by decide : 0x1010 + 4 ≤ 2 ^ 64)).2.1

end Drastic
