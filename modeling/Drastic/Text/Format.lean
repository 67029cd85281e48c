import Drastic.Text.Numbers

namespace Drastic

/-! `vformat` of `base_format.c`. -/

/-- An argument behind the `...`. `Int` and `I64` are one type of the compiler, and so
are `Uint` and `U64`. -/
inductive VaArg where
  | pointer (ptr : Uintptr)
  | signed (integer : I64)
  | unsigned (uinteger : U64)
  | string (s : List U8)
  | chars (cstr : Option CString)

inductive VaKind where
  | pointer
  | signed
  | unsigned
  | string
  | chars
  deriving DecidableEq, Repr

def VaArg.kind : VaArg → VaKind
  | .pointer _ => .pointer
  | .signed _ => .signed
  | .unsigned _ => .unsigned
  | .string _ => .string
  | .chars _ => .chars

/-- How formatting stops early. `vaArg` stands for a `va_arg` with no argument of its
type left, whose behaviour is undefined. -/
inductive FormatHalt where
  | halt (halt : Halt)
  | vaArg
  deriving DecidableEq, Repr

abbrev FormatExec := Except FormatHalt

def inFormat {α : Type} : Exec α → FormatExec α
  | .ok a => .ok a
  | .error halt => .error (.halt halt)

instance : MonadLift Exec FormatExec := ⟨inFormat⟩

/-- The cursor in the arguments and the data of the stream. -/
structure FormatState (σ : Type) where
  args : List VaArg
  data : σ

def vaArg {α : Type} (accept : VaArg → Option α) : List VaArg → FormatExec (α × List VaArg)
  | [] => .error .vaArg
  | arg :: args =>
      match accept arg with
      | some value => .ok (value, args)
      | none => .error .vaArg

def VaArg.pointer? : VaArg → Option Uintptr
  | .pointer ptr => some ptr
  | _ => none

def VaArg.signed? : VaArg → Option I64
  | .signed integer => some integer
  | _ => none

def VaArg.unsigned? : VaArg → Option U64
  | .unsigned uinteger => some uinteger
  | _ => none

def VaArg.string? : VaArg → Option (List U8)
  | .string s => some s
  | _ => none

def VaArg.chars? : VaArg → Option (Option CString)
  | .chars cstr => some cstr
  | _ => none

def ascii (c : Char) : U8 := BitVec.ofNat 8 c.toNat

def pointerBase (base : U8) : U8 := if base = 0#8 then 16#8 else base

section

variable {σ : Type} (output : Stream σ)

def FormatState.write (s : FormatState σ) (bytes : List U8) : FormatState σ :=
  { s with data := streamWrite output bytes s.data }

/-- The `switch` over the conversion. The flag tells whether formatting goes on. -/
def vformatConversion (ch : U8) (base : U8) (s : FormatState σ) :
    FormatExec (Bool × FormatState σ) := do
  if ch = ascii 'p' then
    let (ptr, args) ← vaArg VaArg.pointer? s.args
    return (true, ⟨args, ← formatNumber output ptr false (pointerBase base) s.data⟩)
  else if ch = ascii 'i' then
    let (integer, args) ← vaArg VaArg.signed? s.args
    return (true, ⟨args, ← formatNumberI64 output integer base s.data⟩)
  else if ch = ascii 'u' then
    let (uinteger, args) ← vaArg VaArg.unsigned? s.args
    return (true, ⟨args, ← formatNumberU64 output uinteger base s.data⟩)
  else if ch = ascii 'I' then
    let (i64, args) ← vaArg VaArg.signed? s.args
    return (true, ⟨args, ← formatNumberI64 output i64 base s.data⟩)
  else if ch = ascii 'U' then
    let (u64, args) ← vaArg VaArg.unsigned? s.args
    return (true, ⟨args, ← formatNumberU64 output u64 base s.data⟩)
  else if ch = ascii 's' then
    let (string, args) ← vaArg VaArg.string? s.args
    return (true, ⟨args, streamWrite output string s.data⟩)
  else if ch = ascii 'S' then
    let (cstr, args) ← vaArg VaArg.chars? s.args
    return (true, ⟨args, streamWrite output (stringFromChar cstr) s.data⟩)
  else return (false, s.write output (str "%(<unsupported format specifier>)"))

/-- The index after the `switch`, none after the early return. -/
def afterConversion (i : Int) (result : Bool × FormatState σ) : Option Int × FormatState σ :=
  (if result.1 then some i else none, result.2)

/-- What follows after `%x` and, with another base, after `%b`. -/
def vformatPrefixed (format : List U8) (i : Int) (base : U8) (s : FormatState σ) :
    FormatExec (Option Int × FormatState σ) := do
  let i := i + 1
  if i ≥ format.length then return (some i, s.write output (str "%x(<out of bounds>)"))
  let ch ← stringGet format i
  return afterConversion i (← vformatConversion output ch base s)

/-- The body of the loop of `vformat`: the index at its end, none after the early return. -/
def vformatTurn (format : List U8) (i : Int) (s : FormatState σ) :
    FormatExec (Option Int × FormatState σ) := do
  let ch ← stringGet format i
  if ch ≠ ascii '%' then return (some i, { s with data := streamWriteByte output ch s.data })
  let i := i + 1
  if i ≥ format.length then return (some i, s.write output (str "%(<out of bounds>)"))
  let ch ← stringGet format i
  if ch = ascii 'x' then vformatPrefixed output format i 16#8 s
  else if ch = ascii 'b' then vformatPrefixed output format i 2#8 s
  else return afterConversion i (← vformatConversion output ch 0#8 s)

def vformatLoop (format : List U8) : Nat → Int → FormatState σ → FormatExec (FormatState σ)
  | 0, _, _ => .error (.halt .recursionDepth)
  | fuel + 1, i, s =>
    if i < format.length then do
      match ← vformatTurn output format i s with
      | (some i, s) => vformatLoop format fuel (i + 1) s
      | (none, s) => return s
    else .ok s

/-- Every turn raises the index, so the length of the format bounds the loop. -/
def vformat (format : List U8) (args : List VaArg) (data : σ) : FormatExec σ := do
  return (← vformatLoop output format (format.length + 1) 0 ⟨args, data⟩).data

end

inductive Piece where
  | literal (byte : U8)
  | directive (base : U8) (ch : U8)
  | cutOff (text : List U8)
  deriving DecidableEq, Repr

def conversionKind (ch : U8) : Option VaKind :=
  if ch = ascii 'p' then some .pointer
  else if ch = ascii 'i' then some .signed
  else if ch = ascii 'u' then some .unsigned
  else if ch = ascii 'I' then some .signed
  else if ch = ascii 'U' then some .unsigned
  else if ch = ascii 's' then some .string
  else if ch = ascii 'S' then some .chars
  else none

def prefixBase (ch : U8) : Option U8 :=
  if ch = ascii 'x' then some 16#8 else if ch = ascii 'b' then some 2#8 else none

/-- The pieces of a format up to its end or its first unsupported directive. -/
def pieces : List U8 → List Piece
  | [] => []
  | first :: rest =>
    if first ≠ ascii '%' then .literal first :: pieces rest
    else match rest with
      | [] => [.cutOff (str "%(<out of bounds>)")]
      | second :: rest =>
        match prefixBase second with
        | none =>
          .directive 0#8 second :: if conversionKind second = none then [] else pieces rest
        | some base =>
          match rest with
          | [] => [.cutOff (str "%x(<out of bounds>)")]
          | third :: rest =>
            .directive base third :: if conversionKind third = none then [] else pieces rest

theorem pieces_literal {first : U8} (plain : first ≠ ascii '%') (rest : List U8) :
    pieces (first :: rest) = .literal first :: pieces rest :=
  (pieces.eq_def _).trans (if_pos plain)

theorem pieces_percent : pieces [ascii '%'] = [.cutOff (str "%(<out of bounds>)")] := rfl

theorem pieces_conversion {second : U8} (unprefixed : prefixBase second = none) (rest : List U8) :
    pieces (ascii '%' :: second :: rest) =
      .directive 0#8 second :: if conversionKind second = none then [] else pieces rest := by
  rw [pieces.eq_def]
  simp [unprefixed]

theorem pieces_prefixAlone {second base : U8} (isPrefix : prefixBase second = some base) :
    pieces [ascii '%', second] = [.cutOff (str "%x(<out of bounds>)")] := by
  rw [pieces.eq_def]
  simp [isPrefix]

theorem pieces_prefixed {second base : U8} (isPrefix : prefixBase second = some base) (third : U8)
    (rest : List U8) :
    pieces (ascii '%' :: second :: third :: rest) =
      .directive base third :: if conversionKind third = none then [] else pieces rest := by
  rw [pieces.eq_def]
  simp [isPrefix]

section

variable {σ : Type} (output : Stream σ)

def Piece.run (s : FormatState σ) : Piece → FormatExec (FormatState σ)
  | .literal byte => .ok (s.write output [byte])
  | .directive base ch => do return (← vformatConversion output ch base s).2
  | .cutOff text => .ok (s.write output text)

def runPieces : List Piece → FormatState σ → FormatExec (FormatState σ)
  | [], s => .ok s
  | piece :: rest, s => do runPieces rest (← piece.run output s)

end

@[simp] theorem format_bind_ok {α β : Type} (a : α) (f : α → FormatExec β) :
    (Except.ok a >>= f) = f a := rfl

@[simp] theorem format_bind_error {α β : Type} (halt : FormatHalt) (f : α → FormatExec β) :
    ((Except.error halt : FormatExec α) >>= f) = .error halt := rfl

@[simp] theorem format_pure {α : Type} (a : α) : (pure a : FormatExec α) = .ok a := rfl

@[simp] theorem inFormat_ok {α : Type} (a : α) :
    (liftM (Except.ok a : Exec α) : FormatExec α) = .ok a := rfl

section

variable {σ : Type} (output : Stream σ)

def showArgument (base : U8) (data : σ) : VaArg → Exec σ
  | .pointer ptr => formatNumber output ptr false (pointerBase base) data
  | .signed integer => formatNumberI64 output integer base data
  | .unsigned uinteger => formatNumberU64 output uinteger base data
  | .string s => .ok (streamWrite output s data)
  | .chars cstr => .ok (streamWrite output (stringFromChar cstr) data)

theorem vformatConversion_unsupported {ch : U8} (unsupported : conversionKind ch = none)
    (base : U8) (s : FormatState σ) : vformatConversion output ch base s =
      .ok (false, s.write output (str "%(<unsupported format specifier>)")) := by
  unfold conversionKind at unsupported
  unfold vformatConversion
  split_ifs at unsupported ⊢
  rfl

theorem vformatConversion_supported {ch : U8} {kind : VaKind}
    (supported : conversionKind ch = some kind) (base : U8) (s : FormatState σ) :
    vformatConversion output ch base s =
      match s.args with
      | [] => .error .vaArg
      | arg :: rest =>
        if arg.kind = kind then do
          return (true, ⟨rest, ← inFormat (showArgument output base s.data arg)⟩)
        else .error .vaArg := by
  obtain ⟨args, data⟩ := s
  unfold conversionKind at supported
  unfold vformatConversion
  split_ifs at supported ⊢ <;> cases supported <;> cases args with
  | nil => rfl
  | cons arg rest => cases arg <;> rfl

def directiveBases : List U8 := [0#8, 2#8, 16#8]

theorem supported_of_directive {base : U8} (member : base ∈ directiveBases) :
    base ∈ supportedBases ∧ pointerBase base ∈ supportedBases := by
  revert base
  decide

theorem prefixBase_mem {ch base : U8} (isPrefix : prefixBase ch = some base) :
    base ∈ directiveBases := by
  unfold prefixBase at isPrefix
  split_ifs at isPrefix <;> cases isPrefix <;> decide

theorem showArgument_ok {base : U8} (member : base ∈ directiveBases) (data : σ) (arg : VaArg) :
    ∃ after, showArgument output base data arg = .ok after := by
  obtain ⟨usual, forPointer⟩ := supported_of_directive member
  cases arg with
  | pointer ptr =>
      rw [showArgument, formatNumber_eq output ptr false forPointer data]
      exact ⟨_, rfl⟩
  | signed integer =>
      rw [showArgument, formatNumberI64]
      split
      · rw [formatNumber_eq output _ _ usual data]
        exact ⟨_, rfl⟩
      · rw [formatNumber_eq output _ _ usual data]
        exact ⟨_, rfl⟩
  | unsigned uinteger =>
      rw [showArgument, formatNumberU64, formatNumber_eq output uinteger false usual data]
      exact ⟨_, rfl⟩
  | string s => exact ⟨_, rfl⟩
  | chars cstr => exact ⟨_, rfl⟩

theorem showArgument_recorded {base : U8} (member : base ∈ directiveBases) (arg : VaArg) :
    ∃ text, ∀ written, showArgument recorder base written arg = .ok (written ++ text) := by
  obtain ⟨usual, forPointer⟩ := supported_of_directive member
  cases arg with
  | pointer ptr =>
      obtain ⟨text, _, run⟩ := formatNumber_recorded forPointer ptr false
      refine ⟨text, fun written => ?_⟩
      rw [showArgument, run]
  | signed integer =>
      obtain ⟨text, _, run⟩ := formatNumberI64_denotes usual integer
      refine ⟨text, fun written => ?_⟩
      rw [showArgument, run]
  | unsigned uinteger =>
      obtain ⟨text, _, run⟩ := formatNumberU64_denotes usual uinteger
      refine ⟨text, fun written => ?_⟩
      rw [showArgument, run]
  | string s => exact ⟨s, fun _ => rfl⟩
  | chars cstr => exact ⟨stringFromChar cstr, fun _ => rfl⟩

end

end Drastic
