import Drastic.Base

namespace Drastic

structure TestRange where
  start : U64
  len : U64
  deriving DecidableEq, Repr

def testRangeCompare (a b : TestRange) : Int :=
  if a.start < b.start then -1
  else if a.start > b.start then 1
  else if a.len < b.len then -1
  else if a.len > b.len then 1
  else 0

def testRangeValid (range : TestRange) : Bool :=
  if range.len ≤ 0#64 then false
  else if range.len > BitVec.allOnes 64 - range.start then false
  else true

/-- The two comparisons of `testRangeOverlap`, after its assertion. -/
def rangesOverlap (a b : TestRange) : Bool :=
  a.start < b.start + b.len && b.start < a.start + a.len

def testRangeOverlap (a b : TestRange) : Exec Bool := do
  kassert (testRangeValid a && testRangeValid b) "test_range_valid(a) && test_range_valid(b)"
  return rangesOverlap a b

def TestRange.Covers (range : TestRange) (address : U64) : Prop :=
  range.start.toNat ≤ address.toNat ∧ address.toNat < range.start.toNat + range.len.toNat

def TestRange.Before (a b : TestRange) : Prop :=
  a.start.toNat + a.len.toNat ≤ b.start.toNat

theorem allOnes_sub_toNat (start : U64) :
    (BitVec.allOnes 64 - start).toNat = 2 ^ 64 - 1 - start.toNat := by
  have bound := start.isLt
  rw [BitVec.toNat_sub_of_le]
  · rw [BitVec.toNat_allOnes]
  · rw [BitVec.le_def, BitVec.toNat_allOnes]
    omega

theorem testRangeValid_iff (range : TestRange) : testRangeValid range = true ↔
    0 < range.len.toNat ∧ range.start.toNat + range.len.toNat < 2 ^ 64 := by
  have start := range.start.isLt
  have len := range.len.isLt
  simp only [testRangeValid, BitVec.le_def, gt_iff_lt, BitVec.lt_def, allOnes_sub_toNat,
    BitVec.toNat_ofNat, Nat.zero_mod]
  split_ifs <;> simp only [false_iff, true_iff] <;> omega

theorem TestRange.end_toNat {range : TestRange} (valid : testRangeValid range = true) :
    (range.start + range.len).toNat = range.start.toNat + range.len.toNat := by
  rw [BitVec.toNat_add, Nat.mod_eq_of_lt ((testRangeValid_iff range).mp valid).2]

theorem testRangeOverlap_eq {a b : TestRange} (ha : testRangeValid a = true)
    (hb : testRangeValid b = true) : testRangeOverlap a b = .ok (rangesOverlap a b) := by
  simp [testRangeOverlap, ha, hb]

theorem rangesOverlap_false_iff {a b : TestRange} (ha : testRangeValid a = true)
    (hb : testRangeValid b = true) :
    rangesOverlap a b = false ↔ a.Before b ∨ b.Before a := by
  simp only [rangesOverlap, TestRange.Before, Bool.and_eq_false_iff, decide_eq_false_iff_not,
    BitVec.lt_def, TestRange.end_toNat ha, TestRange.end_toNat hb, not_lt]
  exact or_comm

/-- On valid ranges the wrapping comparisons decide whether an address is shared. -/
theorem rangesOverlap_iff {a b : TestRange} (ha : testRangeValid a = true)
    (hb : testRangeValid b = true) :
    rangesOverlap a b = true ↔ ∃ address, a.Covers address ∧ b.Covers address := by
  have validA := (testRangeValid_iff a).mp ha
  have validB := (testRangeValid_iff b).mp hb
  simp only [rangesOverlap, Bool.and_eq_true, decide_eq_true_eq, BitVec.lt_def,
    TestRange.end_toNat ha, TestRange.end_toNat hb, TestRange.Covers]
  constructor
  · rintro ⟨first, second⟩
    rcases Nat.le_total a.start.toNat b.start.toNat with le | le
    · exact ⟨b.start, ⟨le, second⟩, Nat.le_refl _, by omega⟩
    · exact ⟨a.start, ⟨Nat.le_refl _, by omega⟩, le, first⟩
  · rintro ⟨address, inA, inB⟩
    omega

theorem testRangeCompare_neg_iff (a b : TestRange) : testRangeCompare a b < 0 ↔
    a.start.toNat < b.start.toNat ∨
      a.start.toNat = b.start.toNat ∧ a.len.toNat < b.len.toNat := by
  unfold testRangeCompare
  simp only [gt_iff_lt, BitVec.lt_def]
  split_ifs <;> omega

theorem testRangeCompare_pos_iff (a b : TestRange) : testRangeCompare a b > 0 ↔
    testRangeCompare b a < 0 := by
  rw [testRangeCompare_neg_iff]
  unfold testRangeCompare
  simp only [gt_iff_lt, BitVec.lt_def]
  split_ifs <;> omega

theorem testRangeCompare_eq_zero_iff (a b : TestRange) : testRangeCompare a b = 0 ↔ a = b := by
  constructor
  · intro zero
    have notLess := testRangeCompare_neg_iff a b
    have notMore := (testRangeCompare_pos_iff a b).trans (testRangeCompare_neg_iff b a)
    rw [zero] at notLess notMore
    simp only [lt_self_iff_false, false_iff] at notLess notMore
    obtain ⟨startA, lenA⟩ := a
    obtain ⟨startB, lenB⟩ := b
    simp only [TestRange.mk.injEq]
    constructor <;> apply BitVec.eq_of_toNat_eq <;> simp only at notLess notMore <;> omega
  · rintro rfl
    simp [testRangeCompare]

theorem TestRange.Before.compare_neg {a b : TestRange} (valid : testRangeValid a = true)
    (before : a.Before b) : testRangeCompare a b < 0 := by
  have nonempty := ((testRangeValid_iff a).mp valid).1
  rw [testRangeCompare_neg_iff]
  simp only [TestRange.Before] at before
  omega

theorem TestRange.Before.not_before {a b : TestRange} (valid : testRangeValid a = true)
    (before : a.Before b) : ¬ b.Before a := by
  have nonempty := ((testRangeValid_iff a).mp valid).1
  simp only [TestRange.Before] at before ⊢
  omega

theorem TestRange.Before.trans {a b c : TestRange} (first : a.Before b) (second : b.Before c) :
    a.Before c := by
  simp only [TestRange.Before] at first second ⊢
  omega

end Drastic
