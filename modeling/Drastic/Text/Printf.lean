import Drastic.Text.Shows

namespace Drastic

/-! `printf` and `kpanic`, and what they write. -/

section

variable {σ : Type} (output : Stream σ)

def literal (text : String) : CString := ⟨str text ++ [0#8], by simp⟩

def vprintf (format : Option CString) (args : List VaArg) (data : σ) : FormatExec σ :=
  vformat output (stringFromChar format) args data

def printf (format : String) (args : List VaArg) (data : σ) : FormatExec σ :=
  vprintf output (some (literal format)) args data

/-- What is written before `hcf` stops the processor; `output` is `_panic_output_stream`. -/
def kpanic (panicMessage : List U8) (data : σ) : σ :=
  let data := streamWrite output (str "KPANIC: ") data
  let data := streamWrite output panicMessage data
  streamWrite output (str "\n") data

end

theorem charsBeforeNul_append {text : List U8} (noNul : 0#8 ∉ text) (rest : List U8) :
    charsBeforeNul (text ++ 0#8 :: rest) = text.length := by
  induction text with
  | nil => rfl
  | cons first text ih =>
      rw [List.mem_cons, not_or] at noNul
      rw [List.cons_append, charsBeforeNul, if_neg (Ne.symm noNul.1), ih noNul.2, List.length_cons]

theorem stringFromChar_literal {text : String} (noNul : 0#8 ∉ str text) :
    stringFromChar (some (literal text)) = str text := by
  simp only [stringFromChar, literal, charsBeforeNul_append noNul, List.take_left']

theorem printf_eq {σ : Type} (output : Stream σ) {format : String} (noNul : 0#8 ∉ str format)
    (args : List VaArg) (data : σ) :
    printf output format args data = vformat output (str format) args data := by
  rw [printf, vprintf, stringFromChar_literal noNul]

theorem vformat_shown (front : List U8) (base ch : U8)
    (isDirective : directiveOf front = some (base, ch)) {arg : VaArg}
    (fits : conversionKind ch = some arg.kind) {text : List U8}
    (shown : ∀ written, showArgument recorder base written arg = .ok (written ++ text))
    (g : List U8) (B : List VaArg) :
    vformat recorder (front ++ g) (arg :: B) [] = (vformat recorder g B []).map (text ++ ·) := by
  have split := pieces_directiveOf isDirective (by simp [fits])
  have alone : pieces front = [.directive base ch] := by
    have here := split []
    rwa [List.append_nil, pieces] at here
  have matching : [arg].map VaArg.kind = argumentKinds front := by
    rw [argumentKinds, alone, List.filterMap_cons, Piece.kind?, fits]
    rfl
  obtain ⟨written, run, before⟩ := vformat_before matching
  have isText : written = text := by
    rw [vformat_eq, alone, runPieces, Piece.run, vformatConversion_supported recorder fits] at run
    simp only [if_true, shown, inFormat, format_bind_ok, format_pure, runPieces,
      List.nil_append] at run
    exact (Except.ok.inj run).symm
  rw [← isText]
  exact before g (by rw [split, alone, List.singleton_append]) B

def hexText (value : U64) : List U8 := str "0x" ++ (shownDigits 16#8 value.toNat).map digitByte

def decimalText (value : U64) : List U8 := (shownDigits 0#8 value.toNat).map digitByte

theorem hexText_denotes (value : U64) : Denotes 16 false value.toNat (hexText value) :=
  ⟨_, rfl, shownDigits_digitsOf (show 16#8 ∈ supportedBases by decide) value⟩

theorem decimalText_denotes (value : U64) : Denotes 10 false value.toNat (decimalText value) :=
  ⟨_, rfl, shownDigits_digitsOf (show 0#8 ∈ supportedBases by decide) value⟩

theorem hexText_inj {value value' : U64} (same : hexText value = hexText value') :
    value = value' := by
  have shown := hexText_denotes value
  rw [same] at shown
  exact BitVec.eq_of_toNat_eq (shown.unique (by decide) (hexText_denotes value')).2

theorem decimalText_inj {value value' : U64} (same : decimalText value = decimalText value') :
    value = value' := by
  have shown := decimalText_denotes value
  rw [same] at shown
  exact BitVec.eq_of_toNat_eq (shown.unique (by decide) (decimalText_denotes value')).2

theorem hexText_length (value : U64) : (hexText value).length = 18 := by
  have digits := shownDigits_digitsOf (show 16#8 ∈ supportedBases by decide) value
  have count := digits.hexadecimal (by decide)
  rw [hexText, List.length_append, List.length_map, count]
  rfl

def isDecimal (byte : U8) : Bool := 48#8 ≤ byte && byte ≤ 57#8

theorem decimalText_digits (value : U64) : ∀ byte ∈ decimalText value, isDecimal byte = true := by
  have digits := shownDigits_digitsOf (show 0#8 ∈ supportedBases by decide) value
  have all : ∀ digit < 10, isDecimal (digitByte digit) = true := by decide
  intro byte member
  obtain ⟨digit, inside, rfl⟩ := List.mem_map.mp member
  exact all digit (digits.small digit inside)

theorem decimalText_append_inj {value value' : U64} {stop stop' : U8} {rest rest' : List U8}
    (ends : isDecimal stop = false) (ends' : isDecimal stop' = false)
    (same : decimalText value ++ stop :: rest = decimalText value' ++ stop' :: rest') :
    value = value' ∧ stop :: rest = stop' :: rest' := by
  have front (v : U64) (byte : U8) (others : List U8) (isStop : isDecimal byte = false) :
      (decimalText v ++ byte :: others).takeWhile isDecimal = decimalText v := by
    rw [List.takeWhile_append_of_pos (decimalText_digits v), List.takeWhile_cons, isStop]
    exact List.append_nil _
  have texts := congrArg (List.takeWhile isDecimal) same
  rw [front value stop rest ends, front value' stop' rest' ends'] at texts
  have values := decimalText_inj texts
  rw [texts] at same
  exact ⟨values, List.append_cancel_left same⟩

theorem showArgument_hex (value : U64) (written : List U8) :
    showArgument recorder 16#8 written (.unsigned value) = .ok (written ++ hexText value) := by
  have lead : formatNumberPrefix 16#8 = str "0x" := by decide
  have some : str "0x" ≠ [] := by decide
  rw [showArgument, formatNumberU64, formatNumber_eq recorder value false (by decide), lead,
    if_neg some]
  simp [hexText, signBytes]

theorem showArgument_decimal (value : U64) (written : List U8) :
    showArgument recorder 0#8 written (.unsigned value) = .ok (written ++ decimalText value) := by
  rw [showArgument, formatNumberU64, formatNumber_eq recorder value false (by decide)]
  rfl

theorem vformat_hex (value : U64) (g : List U8) (B : List VaArg) :
    vformat recorder (str "%xU" ++ g) (.unsigned value :: B) [] =
      (vformat recorder g B []).map (hexText value ++ ·) :=
  vformat_shown (str "%xU") 16#8 (ascii 'U') (by decide) rfl (showArgument_hex value) g B

theorem vformat_decimal (value : U64) (g : List U8) (B : List VaArg) :
    vformat recorder (str "%U" ++ g) (.unsigned value :: B) [] =
      (vformat recorder g B []).map (decimalText value ++ ·) :=
  vformat_shown (str "%U") 0#8 (ascii 'U') (by decide) rfl (showArgument_decimal value) g B

theorem vformat_string (text g : List U8) (B : List VaArg) :
    vformat recorder (str "%s" ++ g) (.string text :: B) [] =
      (vformat recorder g B []).map (text ++ ·) :=
  vformat_shown (str "%s") 0#8 (ascii 's') (by decide) rfl (fun _ => rfl) g B

theorem vformat_chars (cstr : Option CString) (g : List U8) (B : List VaArg) :
    vformat recorder (str "%S" ++ g) (.chars cstr :: B) [] =
      (vformat recorder g B []).map (stringFromChar cstr ++ ·) :=
  vformat_shown (str "%S") 0#8 (ascii 'S') (by decide) rfl (fun _ => rfl) g B

theorem vformat_nil (B : List VaArg) : vformat recorder [] B [] = .ok [] := rfl

theorem showArgument_pointer (ptr : Uintptr) (written : List U8) :
    showArgument recorder 0#8 written (.pointer ptr) = .ok (written ++ hexText ptr) :=
  showArgument_hex ptr written

theorem vformat_pointer (ptr : Uintptr) (g : List U8) (B : List VaArg) :
    vformat recorder (str "%p" ++ g) (.pointer ptr :: B) [] =
      (vformat recorder g B []).map (hexText ptr ++ ·) :=
  vformat_shown (str "%p") 0#8 (ascii 'p') (by decide) rfl (showArgument_pointer ptr) g B

def labelOf (format : String) : List U8 := (str format).take ((str format).length - 4)

def IsLine (format : String) : Prop :=
  str format = labelOf format ++ (str "%xU" ++ str "\n") ∧ ascii '%' ∉ labelOf format ∧
    0#8 ∉ str format

instance (format : String) : Decidable (IsLine format) := inferInstanceAs (Decidable (_ ∧ _ ∧ _))

def panicText (message : String) : List U8 := str "KPANIC: " ++ (str message ++ str "\n")

section

variable {σ : Type} {output : Stream σ} {shown : σ → List U8 → Prop}

theorem printf_shows (shows : Tells output shown) {format : String} (noNul : 0#8 ∉ str format)
    {args : List VaArg} {text : List U8}
    (recorded : vformat recorder (str format) args [] = .ok text) {data : σ} {before : List U8}
    (start : shown data before) :
    ∃ after, printf output format args data = .ok after ∧ shown after (before ++ text) := by
  rw [printf_eq output noNul]
  exact vformat_shows shows start recorded

theorem line_recorded {format : String} (isLine : IsLine format) (value : U64) :
    vformat recorder (str format) [.unsigned value] [] =
      .ok (labelOf format ++ (hexText value ++ str "\n")) := by
  obtain ⟨split, plain, _⟩ := isLine
  rw [split, vformat_literals plain, vformat_hex, ← List.append_nil (str "\n"),
    vformat_literals (by decide), vformat_nil]
  rfl

theorem kpanic_shows (shows : Tells output shown) (message : String) {data : σ} {before : List U8}
    (start : shown data before) :
    shown (kpanic output (str message) data) (before ++ panicText message) := by
  rw [panicText, ← List.append_assoc, ← List.append_assoc]
  exact shows _ _ _ (shows _ _ _ (shows _ _ _ start))

theorem plain_shows (tells : Tells output shown) (text : String) (plain : ascii '%' ∉ str text)
    (noNul : 0#8 ∉ str text) {data : σ} {before : List U8} (start : shown data before) :
    ∃ after, printf output text [] data = .ok after ∧ shown after (before ++ str text) := by
  apply printf_shows tells noNul _ start
  rw [← List.append_nil (str text), vformat_literals plain, vformat_nil]
  rfl

theorem pointer_shows (tells : Tells output shown) (label format : String)
    (split : str format = str label ++ (str "%p" ++ str "\n")) (plain : ascii '%' ∉ str label)
    (noNul : 0#8 ∉ str format) (ptr : Uintptr) {data : σ} {before : List U8}
    (start : shown data before) :
    ∃ after, printf output format [.pointer ptr] data = .ok after ∧
      shown after (before ++ (str label ++ (hexText ptr ++ str "\n"))) := by
  apply printf_shows tells noNul _ start
  rw [split, vformat_literals plain, vformat_pointer, ← List.append_nil (str "\n"),
    vformat_literals (by decide), vformat_nil]
  rfl

end

end Drastic
