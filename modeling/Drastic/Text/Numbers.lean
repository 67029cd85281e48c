import Drastic.Library.Positional
import Drastic.Text.Bytes

namespace Drastic

open Library.Positional

/-! The numbers of `base_format.c`. -/

def formatDigit (value : U64) : Exec U8 := do
  kassert (value < 16#64) "value < 16"
  if value < 10#64 then return 48#8 + value.setWidth 8
  return 65#8 + (value.setWidth 8 - 10#8)

/-- The first loop of `format_number`: the digits, least significant first. -/
def formatNumberDigits (buffer : Bytes) (base : U8) :
    Nat → List U8 → Int → U64 → Exec (List U8 × Int)
  | 0, _, _, _ => .error .recursionDepth
  | fuel + 1, data, i, value => do
    let data ← bytesSet data buffer i (← formatDigit (value % base.setWidth 64))
    let i := i + 1
    let value := value / base.setWidth 64
    if value > 0#64 then formatNumberDigits buffer base fuel data i value
    else return (data, i)

def formatNumberZeros (buffer : Bytes) : Nat → List U8 → Int → Exec (List U8 × Int)
  | 0, data, i => .ok (data, i)
  | count + 1, data, i => do
    let data ← bytesSet data buffer i 48#8
    formatNumberZeros buffer count data (i + 1)

def formatNumberSign (buffer : Bytes) (isSigned : Bool) (data : List U8) (i : Int) :
    Exec (List U8 × Int) := do
  if isSigned then return (← bytesSet data buffer i 45#8, i + 1)
  return (data, i)

def formatNumberPrefix (base : U8) : List U8 :=
  if base = 2#8 then str "0b"
  else if base = 8#8 then str "0o"
  else if base = 16#8 then str "0x"
  else []

abbrev bufferSize : Nat := 96

/-- `buffer_data` holds at most `bufferSize` digits, which bounds the first loop. -/
def formatNumber {σ : Type} (output : Stream σ) (value : U64) (isSigned : Bool) (base : U8)
    (written : σ) : Exec σ := do
  let data := List.replicate bufferSize 0#8
  let buffer : Bytes := ⟨0, bufferSize⟩
  let base := if base = 0#8 then 10#8 else base
  let (data, i) ← formatNumberDigits buffer base (bufferSize + 1) data 0 value
  let leftZeros : Int := if base = 16#8 then 16 - i else if base = 2#8 then 64 - i else 0
  let (data, i) ← formatNumberZeros buffer leftZeros.toNat data i
  let (data, i) ← formatNumberSign buffer isSigned data i
  let outputBuffer ← bytesSlice buffer 0 i
  let data ← bytesReverse data outputBuffer
  let written :=
    if formatNumberPrefix base = [] then written
    else streamWrite output (formatNumberPrefix base) written
  return streamWrite output (outputBuffer.read data) written

def formatNumberI64 {σ : Type} (output : Stream σ) (value : I64) (base : U8) (written : σ) :
    Exec σ :=
  if value.slt 0#64 then formatNumber output (-value) true base written
  else formatNumber output value false base written

def formatNumberU64 {σ : Type} (output : Stream σ) (value : U64) (base : U8) (written : σ) :
    Exec σ :=
  formatNumber output value false base written

def filled (written : List U8) : List U8 :=
  written ++ List.replicate (bufferSize - written.length) 0#8

theorem bytesSet_filled (written : List U8) (byte : U8) (room : written.length < bufferSize) :
    bytesSet (filled written) ⟨0, bufferSize⟩ written.length byte =
      .ok (filled (written ++ [byte])) := by
  have inside : (decide ((0 : Int) ≤ written.length) &&
      decide ((written.length : Int) < bufferSize)) = true := by
    simp only [Bool.and_eq_true, decide_eq_true_eq]
    omega
  have remaining : bufferSize - written.length = bufferSize - (written.length + 1) + 1 := by omega
  simp only [bytesSet, inside, kassert_true, exec_bind_ok, exec_pure, filled, remaining,
    List.length_append, List.length_cons, List.length_nil, List.replicate_succ]
  simp

def digitByte (digit : Nat) : U8 :=
  if digit < 10 then BitVec.ofNat 8 (48 + digit) else BitVec.ofNat 8 (55 + digit)

theorem formatDigit_ok (value : U64) (small : value.toNat < 16) :
    formatDigit value = .ok (digitByte value.toNat) := by
  have below : decide (value < 16#64) = true := by simpa [BitVec.lt_def] using small
  simp only [formatDigit, below, kassert_true, exec_bind_ok, exec_pure, digitByte]
  by_cases decimal : value.toNat < 10
  · have isDecimal : value < 10#64 := by simpa [BitVec.lt_def] using decimal
    rw [if_pos isDecimal, if_pos decimal]
    refine congrArg Except.ok (BitVec.eq_of_toNat_eq ?_)
    simp
  · have notDecimal : ¬ value < 10#64 := by simpa [BitVec.lt_def] using decimal
    rw [if_neg notDecimal, if_neg decimal]
    refine congrArg Except.ok (BitVec.eq_of_toNat_eq ?_)
    simp
    omega

theorem formatNumberDigits_eq (base : U8) (large : 1 < base.toNat) (small : base.toNat ≤ 16)
    (fuel : Nat) (written : List U8) (value : U64)
    (enough : (lowDigits base.toNat value.toNat).length ≤ fuel)
    (room : written.length + (lowDigits base.toNat value.toNat).length ≤ bufferSize) :
    formatNumberDigits ⟨0, bufferSize⟩ base fuel (filled written) written.length value =
      .ok (filled (written ++ (lowDigits base.toNat value.toNat).map digitByte),
        (written ++ (lowDigits base.toNat value.toNat).map digitByte).length) := by
  induction fuel generalizing written value with
  | zero =>
      have present := List.length_pos_of_ne_nil (lowDigits_ne_nil base.toNat value.toNat)
      omega
  | succ fuel ih =>
      have wide : (base.setWidth 64).toNat = base.toNat := by
        rw [BitVec.toNat_setWidth]
        omega
      have digit : (value % base.setWidth 64).toNat = value.toNat % base.toNat := by
        rw [BitVec.toNat_umod, wide]
      have quotient : (value / base.setWidth 64).toNat = value.toNat / base.toNat := by
        rw [BitVec.toNat_udiv, wide]
      have remainder := Nat.mod_lt value.toNat (Nat.lt_trans Nat.zero_lt_one large)
      have printed := formatDigit_ok (value % base.setWidth 64) (by omega)
      rw [digit] at printed
      rw [lowDigits_step large] at enough room ⊢
      rw [List.length_cons] at enough room
      have stored := bytesSet_filled written (digitByte (value.toNat % base.toNat)) (by omega)
      unfold formatNumberDigits
      simp only [printed, exec_bind_ok, stored, gt_iff_lt, BitVec.lt_def, quotient]
      by_cases last : value.toNat / base.toNat = 0
      · simp [last]
      · have more : (0#64).toNat < value.toNat / base.toNat := Nat.pos_of_ne_zero last
        rw [if_neg last] at enough room ⊢
        have later := ih (written ++ [digitByte (value.toNat % base.toNat)])
          (value / base.setWidth 64) (by rw [quotient]; omega)
          (by rw [quotient, List.length_append, List.length_singleton]; omega)
        rw [quotient, List.length_append, List.length_singleton, Nat.cast_add, Nat.cast_one]
          at later
        rw [if_pos more, later]
        simp

theorem formatNumberZeros_eq (count : Nat) (written : List U8)
    (room : written.length + count ≤ bufferSize) :
    formatNumberZeros ⟨0, bufferSize⟩ count (filled written) written.length =
      .ok (filled (written ++ List.replicate count 48#8),
        (written ++ List.replicate count 48#8).length) := by
  induction count generalizing written with
  | zero => simp [formatNumberZeros]
  | succ count ih =>
      have stored := bytesSet_filled written 48#8 (by omega)
      have later := ih (written ++ [48#8])
        (by rw [List.length_append, List.length_singleton]; omega)
      rw [List.length_append, List.length_singleton, Nat.cast_add, Nat.cast_one] at later
      simp only [formatNumberZeros, stored, exec_bind_ok, later, List.replicate_succ]
      simp

def signBytes (isSigned : Bool) : List U8 := if isSigned then [45#8] else []

theorem formatNumberSign_eq (isSigned : Bool) (written : List U8)
    (room : written.length < bufferSize) :
    formatNumberSign ⟨0, bufferSize⟩ isSigned (filled written) written.length =
      .ok (filled (written ++ signBytes isSigned), (written ++ signBytes isSigned).length) := by
  cases isSigned with
  | false => simp [formatNumberSign, signBytes]
  | true =>
      have stored := bytesSet_filled written 45#8 room
      simp only [formatNumberSign, if_true, stored, exec_bind_ok, exec_pure]
      simp [signBytes]

def radix (base : U8) : Nat := if base = 0#8 then 10 else base.toNat

def minimalDigits (base : U8) : Nat :=
  if base = 16#8 then 16 else if base = 2#8 then 64 else 0

def shownDigits (base : U8) (value : Nat) : List Nat :=
  (lowDigits (radix base) value ++
    List.replicate (minimalDigits base - (lowDigits (radix base) value).length) 0).reverse

theorem slice_reversed (written : List U8) (room : written.length ≤ bufferSize) :
    bytesSlice ⟨0, bufferSize⟩ 0 written.length = .ok ⟨0, written.length⟩ ∧
      ∃ data, bytesReverse (filled written) ⟨0, written.length⟩ = .ok data ∧
        Bytes.read data ⟨0, written.length⟩ = written.reverse := by
  have inside : (decide ((0 : Int) ≤ 0) && decide ((0 : Int) ≤ written.length) &&
      decide ((written.length : Int) ≤ bufferSize)) = true := by
    simp only [Bool.and_eq_true, decide_eq_true_eq]
    omega
  refine ⟨?_, _, bytesReverse_front written _, ?_⟩
  · simp only [bytesSlice, inside, kassert_true, exec_bind_ok, exec_pure]
    simp
  · simp [Bytes.read]

def supportedBases : List U8 := [0#8, 2#8, 8#8, 10#8, 16#8]

theorem radix_bounds {base : U8} (supported : base ∈ supportedBases) :
    1 < radix base ∧ radix base ≤ 16 := by
  revert base
  decide

theorem minimalDigits_le (base : U8) : minimalDigits base ≤ 64 := by
  unfold minimalDigits
  split
  · decide
  · split <;> decide

theorem shownDigits_length_le {base : U8} (supported : base ∈ supportedBases) (value : U64) :
    (shownDigits base value.toNat).length ≤ 64 := by
  obtain ⟨large, _⟩ := radix_bounds supported
  have fits : (lowDigits (radix base) value.toNat).length ≤ 64 := by
    apply lowDigits_length_le large (by decide)
    exact value.isLt.trans_le (Nat.pow_le_pow_left large 64)
  have filling := minimalDigits_le base
  rw [shownDigits, List.length_reverse, List.length_append, List.length_replicate]
  omega

theorem defaultBase_eq {base : U8} (supported : base ∈ supportedBases) :
    (if base = 0#8 then 10#8 else base).toNat = radix base ∧
      minimalDigits (if base = 0#8 then 10#8 else base) = minimalDigits base ∧
      formatNumberPrefix (if base = 0#8 then 10#8 else base) = formatNumberPrefix base := by
  revert base
  decide

theorem leftZeros_toNat (base : U8) (count : Nat) :
    (if base = 16#8 then (16 : Int) - count else if base = 2#8 then 64 - count else 0).toNat =
      minimalDigits base - count := by
  unfold minimalDigits
  split
  · omega
  · split
    · omega
    · simp

theorem formatNumber_eq {σ : Type} (output : Stream σ) (value : U64) (isSigned : Bool)
    {base : U8} (supported : base ∈ supportedBases) (data : σ) :
    formatNumber output value isSigned base data =
      .ok (streamWrite output
        (signBytes isSigned ++ (shownDigits base value.toNat).map digitByte)
        (if formatNumberPrefix base = [] then data
          else streamWrite output (formatNumberPrefix base) data)) := by
  obtain ⟨large, small⟩ := radix_bounds supported
  obtain ⟨sameRadix, sameFilling, samePrefix⟩ := defaultBase_eq supported
  have shown := shownDigits_length_le supported value
  rw [shownDigits, List.length_reverse, List.length_append, List.length_replicate] at shown
  unfold formatNumber
  simp only [samePrefix]
  generalize (if base = 0#8 then 10#8 else base) = actual at *
  rw [← sameRadix] at large small shown
  rw [← sameFilling] at shown
  -- the digits, the zeros and the sign one after the other
  have digits := formatNumberDigits_eq actual large small (bufferSize + 1) [] value
    (by rw [bufferSize]; omega) (by rw [List.length_nil, bufferSize]; omega)
  have start : filled [] = List.replicate bufferSize 0#8 := rfl
  rw [start, List.length_nil, Nat.cast_zero, List.nil_append] at digits
  simp only [digits, exec_bind_ok]
  rw [leftZeros_toNat, List.length_map, shownDigits, ← sameRadix, ← sameFilling]
  generalize lowDigits actual.toNat value.toNat = low at shown ⊢
  generalize minimalDigits actual - low.length = count at shown ⊢
  have zeros := formatNumberZeros_eq count (low.map digitByte)
    (by rw [List.length_map, bufferSize]; omega)
  rw [List.length_map] at zeros
  have unsigned : (low.map digitByte ++ List.replicate count 48#8).length = low.length + count := by
    rw [List.length_append, List.length_map, List.length_replicate]
  have sign := formatNumberSign_eq isSigned (low.map digitByte ++ List.replicate count 48#8)
    (by rw [unsigned, bufferSize]; omega)
  have signed : (signBytes isSigned).length ≤ 1 := by cases isSigned <;> decide
  obtain ⟨sliced, reversed, turned, shownText⟩ := slice_reversed
    (low.map digitByte ++ List.replicate count 48#8 ++ signBytes isSigned)
    (by rw [List.length_append, unsigned, bufferSize]; omega)
  simp only [zeros, exec_bind_ok, sign, sliced, turned, exec_pure, shownText]
  have signReversed : (signBytes isSigned).reverse = signBytes isSigned := by
    cases isSigned <;> rfl
  have zero : digitByte 0 = 48#8 := rfl
  simp only [List.reverse_append, signReversed, List.map_append, List.map_reverse,
    List.reverse_replicate, List.map_replicate, zero]

def basePrefix (base : Nat) : List U8 :=
  if base = 2 then str "0b" else if base = 8 then str "0o" else if base = 16 then str "0x" else []

/-- Digits, most significant first, of a given value: 64 of them in base 2, 16 in base
16, and no superfluous zero in front in bases 8 and 10. -/
structure DigitsOf (base magnitude : Nat) (digits : List Nat) : Prop where
  nonempty : digits ≠ []
  small : ∀ digit ∈ digits, digit < base
  value : Nat.ofDigits base digits.reverse = magnitude
  binary : base = 2 → digits.length = 64
  hexadecimal : base = 16 → digits.length = 16
  leading : base = 8 ∨ base = 10 → digits.head? = some 0 → digits = [0]

/-- The prefix of the base, a minus sign for a negative number, and the digits. -/
def Denotes (base : Nat) (negative : Bool) (magnitude : Nat) (text : List U8) : Prop :=
  ∃ digits, text = basePrefix base ++ signBytes negative ++ digits.map digitByte ∧
    DigitsOf base magnitude digits

theorem formatNumberPrefix_eq {base : U8} (supported : base ∈ supportedBases) :
    formatNumberPrefix base = basePrefix (radix base) := by
  revert base
  decide

theorem minimalDigits_eq {base : U8} (supported : base ∈ supportedBases) :
    minimalDigits base = if radix base = 16 then 16 else if radix base = 2 then 64 else 0 := by
  revert base
  decide

theorem shownDigits_digitsOf {base : U8} (supported : base ∈ supportedBases) (value : U64) :
    DigitsOf (radix base) value.toNat (shownDigits base value.toNat) := by
  obtain ⟨large, _⟩ := radix_bounds supported
  have least := minimalDigits_eq supported
  have padded (count : Nat) (positive : 0 < count) (small : value.toNat < radix base ^ count)
      (filling : minimalDigits base = count) : (shownDigits base value.toNat).length = count := by
    have fits := lowDigits_length_le large positive small
    rw [shownDigits, List.length_reverse, List.length_append, List.length_replicate, filling]
    omega
  refine ⟨?_, ?_, ?_, ?_, ?_, ?_⟩
  · simp [shownDigits, lowDigits_ne_nil]
  · intro digit member
    rw [shownDigits, List.mem_reverse, List.mem_append] at member
    rcases member with member | member
    · exact lt_of_mem_lowDigits large member
    · rw [List.eq_of_mem_replicate member]
      omega
  · rw [shownDigits, List.reverse_reverse]
    exact ofDigits_padded ..
  · intro binary
    rw [binary] at padded least
    exact padded 64 (by decide) value.isLt least
  · intro hexadecimal
    rw [hexadecimal] at padded least
    exact padded 16 (by decide) value.isLt least
  · intro plain zero
    have unfilled : minimalDigits base = 0 := by
      rcases plain with octal | decimal
      · rw [least, octal]
        rfl
      · rw [least, decimal]
        rfl
    rw [shownDigits, unfilled, Nat.zero_sub, List.replicate_zero, List.append_nil,
      List.head?_reverse] at zero
    rw [shownDigits, unfilled, Nat.zero_sub, List.replicate_zero, List.append_nil,
      lowDigits_leading _ _ zero, List.reverse_singleton]

theorem formatNumber_recorded {base : U8} (supported : base ∈ supportedBases) (value : U64)
    (isSigned : Bool) : ∃ text, Denotes (radix base) isSigned value.toNat text ∧
      ∀ written, formatNumber recorder value isSigned base written = .ok (written ++ text) := by
  refine ⟨_, ⟨_, rfl, shownDigits_digitsOf supported value⟩, ?_⟩
  intro written
  rw [formatNumber_eq recorder value isSigned supported, formatNumberPrefix_eq supported]
  by_cases none : basePrefix (radix base) = []
  · simp [none]
  · simp [none]

theorem digitByte_inj {digit digit' : Nat} (small : digit < 16) (small' : digit' < 16)
    (same : digitByte digit = digitByte digit') : digit = digit' := by
  have all : ∀ a < 16, ∀ b < 16, digitByte a = digitByte b → a = b := by decide
  exact all digit small digit' small' same

theorem digitByte_ne_sign {digit : Nat} (small : digit < 16) : digitByte digit ≠ 45#8 := by
  revert digit
  decide

theorem digits_inj {base : Nat} (small : base ≤ 16) {digits digits' : List Nat}
    (bound : ∀ digit ∈ digits, digit < base) (bound' : ∀ digit ∈ digits', digit < base)
    (same : digits.map digitByte = digits'.map digitByte) : digits = digits' := by
  induction digits generalizing digits' with
  | nil => simpa using same.symm
  | cons digit rest ih =>
      cases digits' with
      | nil => simp at same
      | cons digit' rest' =>
          simp only [List.map_cons, List.cons.injEq] at same
          rw [digitByte_inj ((bound digit (by simp)).trans_le small)
            ((bound' digit' (by simp)).trans_le small) same.1]
          rw [ih (fun d member => bound d (List.mem_cons_of_mem _ member))
            (fun d member => bound' d (List.mem_cons_of_mem _ member)) same.2]

theorem DigitsOf.head_ne_sign {base magnitude : Nat} {digits : List Nat} (small : base ≤ 16)
    (shown : DigitsOf base magnitude digits) (rest : List U8) :
    digits.map digitByte ≠ 45#8 :: rest := by
  intro same
  cases digits with
  | nil => exact shown.nonempty rfl
  | cons digit others =>
      rw [List.map_cons, List.cons.injEq] at same
      exact digitByte_ne_sign ((shown.small digit (by simp)).trans_le small) same.1

theorem Denotes.unique {base magnitude magnitude' : Nat} {negative negative' : Bool}
    {text : List U8} (small : base ≤ 16) (first : Denotes base negative magnitude text)
    (second : Denotes base negative' magnitude' text) :
    negative = negative' ∧ magnitude = magnitude' := by
  obtain ⟨digits, rfl, shown⟩ := first
  obtain ⟨digits', same, shown'⟩ := second
  rw [List.append_assoc, List.append_assoc, List.append_cancel_left_eq] at same
  have sameSign : negative = negative' := by
    cases negative <;> cases negative'
    · rfl
    · exact absurd same (shown.head_ne_sign small _)
    · exact absurd same.symm (shown'.head_ne_sign small _)
    · rfl
  subst sameSign
  rw [List.append_cancel_left_eq] at same
  have sameDigits := digits_inj small shown.small shown'.small same
  rw [← shown.value, ← shown'.value, sameDigits]
  exact ⟨rfl, rfl⟩

/-- The absolute value also comes out right for the most negative number. -/
theorem neg_toNat {value : I64} (negative : value.toInt < 0) :
    (-value).toNat = value.toInt.natAbs := by
  have bound := value.isLt
  rw [BitVec.toInt_eq_toNat_cond] at negative ⊢
  rw [BitVec.toNat_neg]
  split at negative
  case isTrue => omega
  case isFalse large =>
    rw [if_neg large]
    omega

theorem formatNumberU64_denotes {base : U8} (supported : base ∈ supportedBases) (value : U64) :
    ∃ text, Denotes (radix base) false value.toNat text ∧
      ∀ written, formatNumberU64 recorder value base written = .ok (written ++ text) :=
  formatNumber_recorded supported value false

theorem formatNumberI64_denotes {base : U8} (supported : base ∈ supportedBases) (value : I64) :
    ∃ text, Denotes (radix base) (value.toInt < 0) value.toInt.natAbs text ∧
      ∀ written, formatNumberI64 recorder value base written = .ok (written ++ text) := by
  unfold formatNumberI64
  by_cases negative : value.toInt < 0
  · have test : value.slt 0#64 = true := by simpa [BitVec.slt] using negative
    have shown := formatNumber_recorded supported (-value) true
    rw [neg_toNat negative] at shown
    simpa [test, negative] using shown
  · have test : value.slt 0#64 = false := by simpa [BitVec.slt] using negative
    have shown := formatNumber_recorded supported value false
    have natural : value.toNat = value.toInt.natAbs := by
      have bound := value.isLt
      rw [BitVec.toInt_eq_toNat_cond] at negative ⊢
      split
      case isTrue => rfl
      case isFalse large =>
        rw [if_neg large] at negative
        omega
    rw [natural] at shown
    simpa [test, negative] using shown

/-- Numbers are written as text of their value, so different ones as different text. -/
theorem formatted_numbers_denote_their_value (base : U8) (supported : base ∈ supportedBases) :
    (∀ value : U64, ∃ text, Denotes (radix base) false value.toNat text ∧
      ∀ written, formatNumberU64 recorder value base written = .ok (written ++ text)) ∧
    (∀ value : I64, ∃ text, Denotes (radix base) (value.toInt < 0) value.toInt.natAbs text ∧
      ∀ written, formatNumberI64 recorder value base written = .ok (written ++ text)) ∧
    (∀ value value' : U64,
      formatNumberU64 recorder value base [] = formatNumberU64 recorder value' base [] →
        value = value') ∧
    ∀ value value' : I64,
      formatNumberI64 recorder value base [] = formatNumberI64 recorder value' base [] →
        value = value' := by
  have small := (radix_bounds supported).2
  refine ⟨formatNumberU64_denotes supported, formatNumberI64_denotes supported, ?_, ?_⟩
  · intro value value' same
    obtain ⟨text, shown, run⟩ := formatNumberU64_denotes supported value
    obtain ⟨text', shown', run'⟩ := formatNumberU64_denotes supported value'
    rw [run, run', Except.ok.injEq, List.nil_append, List.nil_append] at same
    subst same
    exact BitVec.eq_of_toNat_eq (shown.unique small shown').2
  · intro value value' same
    obtain ⟨text, shown, run⟩ := formatNumberI64_denotes supported value
    obtain ⟨text', shown', run'⟩ := formatNumberI64_denotes supported value'
    rw [run, run', Except.ok.injEq, List.nil_append, List.nil_append] at same
    subst same
    obtain ⟨sign, magnitude⟩ := shown.unique small shown'
    rw [decide_eq_decide] at sign
    exact BitVec.eq_of_toInt_eq (by omega)

theorem formatted_numbers_denote_their_value_sample :
    (∀ value : U64, ∃ text, Denotes (radix 0#8) false value.toNat text ∧
      ∀ written, formatNumberU64 recorder value 0#8 written = .ok (written ++ text)) ∧
    (∀ value : I64, ∃ text, Denotes (radix 0#8) (value.toInt < 0) value.toInt.natAbs text ∧
      ∀ written, formatNumberI64 recorder value 0#8 written = .ok (written ++ text)) ∧
    (∀ value value' : U64,
      formatNumberU64 recorder value 0#8 [] = formatNumberU64 recorder value' 0#8 [] →
        value = value') ∧
    ∀ value value' : I64,
      formatNumberI64 recorder value 0#8 [] = formatNumberI64 recorder value' 0#8 [] →
        value = value' :=
  formatted_numbers_denote_their_value 0#8 (by decide)

example : formatNumberI64 recorder (BitVec.intMin 64) 10#8 [] =
    .ok (str "-9223372036854775808") := by decide

end Drastic
