import Drastic.Text.Format

namespace Drastic

section

variable {σ : Type} (output : Stream σ)

/-! `vformat` runs the pieces of its format one after the other. -/

theorem conversion_flag {ch base : U8} {s s' : FormatState σ} {flag : Bool}
    (done : vformatConversion output ch base s = .ok (flag, s')) :
    flag = (conversionKind ch).isSome := by
  cases kind : conversionKind ch with
  | none =>
      rw [vformatConversion_unsupported output kind] at done
      cases done
      rfl
  | some kind' =>
      rw [vformatConversion_supported output kind] at done
      cases args : s.args with
      | nil => simp [args] at done
      | cons arg rest =>
          simp only [args] at done
          split at done
          case isTrue =>
            cases shown : showArgument output base s.data arg with
            | error halt => simp [shown, inFormat] at done
            | ok data =>
                simp only [shown, inFormat, format_bind_ok, format_pure] at done
                cases done
                rfl
          case isFalse => cases done

def vformatRest (format : List U8) (fuel : Nat) :
    Option Int × FormatState σ → FormatExec (FormatState σ)
  | (some i, s) => vformatLoop output format fuel (i + 1) s
  | (none, s) => .ok s

theorem vformatLoop_succ (format : List U8) (fuel : Nat) (i : Int) (s : FormatState σ) :
    vformatLoop output format (fuel + 1) i s =
      if i < format.length then vformatTurn output format i s >>= vformatRest output format fuel
      else .ok s := rfl

theorem afterConversion_rest (format : List U8) (fuel : Nat) (i : Int) (ch base : U8)
    (rest : List U8) (s : FormatState σ)
    (later : ∀ s, vformatLoop output format fuel (i + 1) s = runPieces output (pieces rest) s) :
    (vformatConversion output ch base s >>= fun result =>
      vformatRest output format fuel (afterConversion i result)) =
    runPieces output (.directive base ch :: if conversionKind ch = none then [] else pieces rest)
      s := by
  simp only [runPieces, Piece.run]
  cases conversion : vformatConversion output ch base s with
  | error halt => rfl
  | ok result =>
      obtain ⟨flag, s'⟩ := result
      have goesOn := conversion_flag output conversion
      subst goesOn
      simp only [format_bind_ok, format_pure]
      cases kind : conversionKind ch with
      | none => rfl
      | some _ => exact later s'

variable {format : List U8} {i : Nat} {first : U8} {rest : List U8}

theorem stringGet_drop (shape : format.drop i = first :: rest) :
    stringGet format i = .ok first := by
  have here : format[i]? = some first := by
    rw [← List.head?_drop, shape]
    rfl
  obtain ⟨inside, same⟩ := List.getElem?_eq_some_iff.mp here
  rw [stringGet_ok format i inside, same]

theorem drop_next (shape : format.drop i = first :: rest) :
    format.drop (i + 1) = rest ∧ format.length = i + 1 + rest.length := by
  constructor
  · rw [← List.drop_drop, shape, List.drop_one, List.tail_cons]
  · have length := congrArg List.length shape
    rw [List.length_drop, List.length_cons] at length
    omega

theorem vformatPrefixed_rest (fuel : Nat) {ch base : U8} (isPrefix : prefixBase ch = some base)
    (i : Nat) (rest : List U8) (shape : format.drop (i + 1) = rest) (s : FormatState σ)
    (later : ∀ s, vformatLoop output format fuel (i + 1 + 1) s =
      runPieces output (pieces (rest.drop 1)) s) :
    (vformatPrefixed output format i base s >>= vformatRest output format fuel) =
      runPieces output (pieces (ascii '%' :: ch :: rest)) s := by
  unfold vformatPrefixed
  cases rest with
  | nil =>
      rw [List.drop_eq_nil_iff] at shape
      rw [pieces_prefixAlone isPrefix, if_pos (by omega)]
      exact later _
  | cons third rest =>
      have here := stringGet_drop shape
      rw [Nat.cast_add, Nat.cast_one] at here
      have length := (drop_next shape).2
      rw [pieces_prefixed isPrefix, if_neg (by omega)]
      simp only [here, inFormat_ok, format_bind_ok, bind_assoc, format_pure]
      exact afterConversion_rest output format fuel (i + 1) third base rest s later

theorem vformatPercent_rest (fuel : Nat) (shape : format.drop i = ascii '%' :: rest)
    (s : FormatState σ)
    (second : ∀ s, vformatLoop output format fuel (i + 1 + 1) s =
      runPieces output (pieces (rest.drop 1)) s)
    (third : ∀ s, vformatLoop output format fuel (i + 1 + 1 + 1) s =
      runPieces output (pieces (rest.drop 2)) s) :
    (vformatTurn output format i s >>= vformatRest output format fuel) =
      runPieces output (pieces (ascii '%' :: rest)) s := by
  obtain ⟨afterFirst, length⟩ := drop_next shape
  unfold vformatTurn
  simp only [stringGet_drop shape, inFormat_ok, format_bind_ok, ne_eq, not_true_eq_false,
    if_false, ge_iff_le]
  cases rest with
  | nil =>
      rw [List.length_nil] at length
      rw [if_pos (by omega), pieces_percent]
      exact second _
  | cons ch rest =>
      have here := stringGet_drop afterFirst
      have prefixed {base : U8} (isPrefix : prefixBase ch = some base) :=
        vformatPrefixed_rest output fuel isPrefix (i + 1) rest (drop_next afterFirst).1 s third
      rw [Nat.cast_add, Nat.cast_one] at here prefixed
      rw [List.length_cons] at length
      rw [if_neg (by omega)]
      simp only [here, inFormat_ok, format_bind_ok]
      by_cases hexadecimal : ch = ascii 'x'
      · rw [if_pos hexadecimal]
        exact prefixed (by rw [hexadecimal]; rfl)
      · by_cases binary : ch = ascii 'b'
        · rw [if_neg hexadecimal, if_pos binary]
          exact prefixed (by rw [binary]; rfl)
        · have unprefixed : prefixBase ch = none := by
            rw [prefixBase, if_neg hexadecimal, if_neg binary]
          rw [if_neg hexadecimal, if_neg binary, pieces_conversion unprefixed]
          simp only [bind_assoc, format_pure, format_bind_ok]
          exact afterConversion_rest output format fuel (i + 1) ch 0#8 rest s second

theorem vformatLoop_eq (fuel : Nat) (i : Nat) (s : FormatState σ)
    (enough : format.length - i < fuel) :
    vformatLoop output format fuel i s = runPieces output (pieces (format.drop i)) s := by
  induction fuel generalizing i s with
  | zero => exact absurd enough (Nat.not_lt_zero _)
  | succ fuel ih =>
      rw [vformatLoop_succ]
      cases shape : format.drop i with
      | nil =>
          rw [List.drop_eq_nil_iff] at shape
          rw [if_neg (by omega), pieces, runPieces]
      | cons first rest =>
          obtain ⟨afterFirst, length⟩ := drop_next shape
          have later (k : Nat) (s : FormatState σ) :
              vformatLoop output format fuel ((i + 1 + k : Nat) : Int) s =
                runPieces output (pieces (rest.drop k)) s := by
            rw [← afterFirst, List.drop_drop]
            exact ih (i + 1 + k) s (by omega)
          rw [if_pos (by omega)]
          by_cases percent : first = ascii '%'
          · subst percent
            exact vformatPercent_rest output fuel shape s (later 1) (later 2)
          · have literal : vformatTurn output format i s =
                .ok (some i, { s with data := streamWriteByte output first s.data }) := by
              rw [vformatTurn]
              simp only [stringGet_drop shape, inFormat_ok, format_bind_ok, ne_eq, percent,
                not_false_eq_true, if_true, format_pure]
            rw [literal, pieces_literal percent]
            exact later 0 _

theorem vformat_eq (format : List U8) (args : List VaArg) (data : σ) :
    vformat output format args data = do
      return (← runPieces output (pieces format) ⟨args, data⟩).data := by
  have run : vformatLoop output format (format.length + 1) (0 : Nat) ⟨args, data⟩ =
      runPieces output (pieces (format.drop 0)) ⟨args, data⟩ :=
    vformatLoop_eq output _ 0 _ (by omega)
  rw [List.drop_zero, Nat.cast_zero] at run
  rw [vformat, run]

end

def KnownBases (list : List Piece) : Prop :=
  ∀ piece ∈ list, ∀ base ch, piece = .directive base ch → base ∈ directiveBases

theorem KnownBases.directive {base : U8} (known : base ∈ directiveBases) (ch : U8)
    {list : List Piece} (later : KnownBases list) :
    KnownBases (.directive base ch :: if conversionKind ch = none then [] else list) := by
  intro piece member base' ch' isDirective
  cases List.mem_cons.mp member with
  | inl here =>
      rw [isDirective, Piece.directive.injEq] at here
      rw [here.1]
      exact known
  | inr inRest =>
      split at inRest
      · exact absurd inRest List.not_mem_nil
      · exact later piece inRest base' ch' isDirective

theorem pieces_bases (format : List U8) : KnownBases (pieces format) := by
  induction format using pieces.induct with
  | case1 => simp [KnownBases, pieces]
  | case2 first rest plain ih =>
      rw [pieces_literal plain]
      simpa [KnownBases] using ih
  | case3 first percent =>
      rw [not_not] at percent
      subst percent
      simp [KnownBases, pieces_percent]
  | case4 first percent second rest unprefixed ih =>
      rw [not_not] at percent
      subst percent
      rw [pieces_conversion unprefixed]
      exact KnownBases.directive (by decide) second ih
  | case5 first percent second base isPrefix =>
      rw [not_not] at percent
      subst percent
      simp [KnownBases, pieces_prefixAlone isPrefix]
  | case6 first percent second base isPrefix third rest ih =>
      rw [not_not] at percent
      subst percent
      rw [pieces_prefixed isPrefix]
      exact KnownBases.directive (prefixBase_mem isPrefix) third ih

section

variable {σ : Type} (output : Stream σ)

theorem Piece.run_not_halted (piece : Piece) (s : FormatState σ)
    (bases : ∀ base ch, piece = .directive base ch → base ∈ directiveBases) (halt : Halt) :
    piece.run output s ≠ .error (.halt halt) := by
  cases piece with
  | literal byte => simp [Piece.run]
  | cutOff text => simp [Piece.run]
  | directive base ch =>
      rw [Piece.run]
      cases kind : conversionKind ch with
      | none => simp [vformatConversion_unsupported output kind]
      | some kind' =>
          rw [vformatConversion_supported output kind]
          cases s.args with
          | nil => simp
          | cons arg rest =>
              obtain ⟨after, shown⟩ := showArgument_ok output (bases base ch rfl) s.data arg
              simp only [shown, inFormat]
              split <;> simp

theorem runPieces_not_halted (list : List Piece) (s : FormatState σ)
    (bases : KnownBases list) (halt : Halt) : runPieces output list s ≠ .error (.halt halt) := by
  induction list generalizing s with
  | nil => simp [runPieces]
  | cons piece rest ih =>
      have first := piece.run_not_halted output s (bases piece (by simp)) halt
      rw [runPieces]
      cases run : piece.run output s with
      | error stop =>
          rw [run] at first
          exact first
      | ok s' => exact ih s' (fun other member => bases other (List.mem_cons_of_mem _ member))

theorem vformat_not_halted (format : List U8) (args : List VaArg) (data : σ) (halt : Halt) :
    vformat output format args data ≠ .error (.halt halt) := by
  have run := runPieces_not_halted output _ ⟨args, data⟩ (pieces_bases format) halt
  rw [vformat_eq]
  cases done : runPieces output (pieces format) ⟨args, data⟩ with
  | error stop =>
      rw [format_bind_error]
      intro halted
      cases halted
      exact run done
  | ok s => simp

end

inductive Complete : List U8 → Prop where
  | nil : Complete []
  | literal {byte : U8} {rest : List U8} (plain : byte ≠ ascii '%') (complete : Complete rest) :
      Complete (byte :: rest)
  | directive {lead rest : List U8} {ch : U8} (isLead : lead ∈ [[], str "x", str "b"])
      (supported : ch ∈ str "piuIUsS") (complete : Complete rest) :
      Complete (ascii '%' :: (lead ++ ch :: rest))

theorem conversionKind_of_mem {ch : U8} (supported : ch ∈ str "piuIUsS") :
    conversionKind ch ≠ none ∧ prefixBase ch = none := by
  revert ch
  decide

def directiveOf : List U8 → Option (U8 × U8)
  | [first, ch] => if first = ascii '%' ∧ prefixBase ch = none then some (0#8, ch) else none
  | [first, second, ch] =>
      if first = ascii '%' then (prefixBase second).map fun base => (base, ch) else none
  | _ => none

theorem pieces_directiveOf {front : List U8} {base ch : U8}
    (isDirective : directiveOf front = some (base, ch)) (known : conversionKind ch ≠ none)
    (rest : List U8) : pieces (front ++ rest) = .directive base ch :: pieces rest := by
  unfold directiveOf at isDirective
  split at isDirective
  case h_1 first second =>
    obtain ⟨⟨rfl, unprefixed⟩, here⟩ := Option.ite_none_right_eq_some.mp isDirective
    cases here
    exact (pieces_conversion unprefixed rest).trans (by rw [if_neg known])
  case h_2 first second ch =>
    obtain ⟨rfl, here⟩ := Option.ite_none_right_eq_some.mp isDirective
    obtain ⟨_, isPrefix, same⟩ := Option.map_eq_some_iff.mp here
    cases same
    exact (pieces_prefixed isPrefix ch rest).trans (by rw [if_neg known])
  case h_3 => cases isDirective

theorem pieces_directive {lead : List U8} (isLead : lead ∈ [[], str "x", str "b"]) {ch : U8}
    (supported : ch ∈ str "piuIUsS") : ∃ base ∈ directiveBases,
      ∀ rest, pieces (ascii '%' :: (lead ++ ch :: rest)) = .directive base ch :: pieces rest := by
  obtain ⟨kind, unprefixed⟩ := conversionKind_of_mem supported
  simp only [List.mem_cons, List.not_mem_nil, or_false] at isLead
  rcases isLead with rfl | rfl | rfl
  · have isDirective : directiveOf [ascii '%', ch] = some (0#8, ch) := if_pos ⟨rfl, unprefixed⟩
    exact ⟨0#8, by decide, pieces_directiveOf isDirective kind⟩
  · have isDirective : directiveOf [ascii '%', ascii 'x', ch] = some (16#8, ch) := rfl
    exact ⟨16#8, by decide, pieces_directiveOf isDirective kind⟩
  · have isDirective : directiveOf [ascii '%', ascii 'b', ch] = some (2#8, ch) := rfl
    exact ⟨2#8, by decide, pieces_directiveOf isDirective kind⟩

theorem Complete.pieces_append {f : List U8} (complete : Complete f) (g : List U8) :
    pieces (f ++ g) = pieces f ++ pieces g := by
  induction complete with
  | nil => rfl
  | literal plain _ ih =>
      rw [List.cons_append, pieces_literal plain, pieces_literal plain, ih, List.cons_append]
  | directive isLead supported _ ih =>
      obtain ⟨base, _, split⟩ := pieces_directive isLead supported
      rw [List.cons_append, List.append_assoc, List.cons_append, split, split, ih,
        List.cons_append]

def Piece.kind? : Piece → Option VaKind
  | .literal _ => none
  | .directive _ ch => conversionKind ch
  | .cutOff _ => none

/-- The arguments a format takes, up to its end or its first unsupported directive. -/
def argumentKinds (format : List U8) : List VaKind := (pieces format).filterMap Piece.kind?

theorem runPieces_append {σ : Type} (output : Stream σ) (first second : List Piece)
    (s : FormatState σ) : runPieces output (first ++ second) s =
      runPieces output first s >>= runPieces output second := by
  induction first generalizing s with
  | nil => rfl
  | cons piece rest ih =>
      rw [List.cons_append, runPieces, runPieces, bind_assoc]
      exact congrArg _ (funext ih)

theorem Piece.run_recorded (piece : Piece)
    (bases : ∀ base ch, piece = .directive base ch → base ∈ directiveBases) (used : List VaArg)
    (fits : used.map VaArg.kind = piece.kind?.toList) : ∃ text, ∀ others written,
      piece.run recorder ⟨used ++ others, written⟩ = .ok ⟨others, written ++ text⟩ := by
  cases piece with
  | literal byte =>
      rw [List.map_eq_nil_iff.mp fits]
      exact ⟨[byte], fun _ _ => rfl⟩
  | cutOff text =>
      rw [List.map_eq_nil_iff.mp fits]
      exact ⟨text, fun _ _ => rfl⟩
  | directive base ch =>
      rw [Piece.kind?] at fits
      cases kind : conversionKind ch with
      | none =>
          rw [kind] at fits
          rw [List.map_eq_nil_iff.mp fits]
          refine ⟨str "%(<unsupported format specifier>)", fun others written => ?_⟩
          rw [Piece.run, vformatConversion_unsupported recorder kind]
          rfl
      | some kind' =>
          rw [kind, Option.toList_some, List.map_eq_singleton_iff] at fits
          obtain ⟨arg, rfl, isKind⟩ := fits
          obtain ⟨text, shown⟩ := showArgument_recorded (bases base ch rfl) arg
          refine ⟨text, fun others written => ?_⟩
          rw [Piece.run, vformatConversion_supported recorder kind]
          simp [shown, inFormat, isKind]

theorem runPieces_recorded (list : List Piece) (bases : KnownBases list) (used : List VaArg)
    (fits : used.map VaArg.kind = list.filterMap Piece.kind?) : ∃ text, ∀ others written,
      runPieces recorder list ⟨used ++ others, written⟩ = .ok ⟨others, written ++ text⟩ := by
  induction list generalizing used with
  | nil =>
      rw [List.map_eq_nil_iff.mp fits]
      exact ⟨[], fun others written => by rw [List.append_nil]; rfl⟩
  | cons piece rest ih =>
      have split : used.map VaArg.kind = piece.kind?.toList ++ rest.filterMap Piece.kind? := by
        rw [fits, List.filterMap_cons]
        cases piece.kind? <;> rfl
      obtain ⟨first, later, rfl, fitsFirst, fitsLater⟩ := List.map_eq_append_iff.mp split
      obtain ⟨text, here⟩ := piece.run_recorded (bases piece (by simp)) first fitsFirst
      obtain ⟨texts, after⟩ :=
        ih (fun other member => bases other (List.mem_cons_of_mem _ member)) later fitsLater
      refine ⟨text ++ texts, fun others written => ?_⟩
      rw [runPieces, List.append_assoc, here, format_bind_ok, after, List.append_assoc]

def FormatState.behind (text : List U8) (s : FormatState (List U8)) : FormatState (List U8) :=
  ⟨s.args, text ++ s.data⟩

theorem behind_write (text bytes : List U8) (s : FormatState (List U8)) :
    (s.behind text).write recorder bytes = (s.write recorder bytes).behind text :=
  congrArg (FormatState.mk s.args) (List.append_assoc _ _ _)

theorem Piece.run_behind (piece : Piece)
    (bases : ∀ base ch, piece = .directive base ch → base ∈ directiveBases) (text : List U8)
    (s : FormatState (List U8)) :
    piece.run recorder (s.behind text) = (piece.run recorder s).map (·.behind text) := by
  cases piece with
  | literal byte => exact congrArg Except.ok (behind_write text [byte] s)
  | cutOff bytes => exact congrArg Except.ok (behind_write text bytes s)
  | directive base ch =>
      rw [Piece.run, Piece.run]
      cases kind : conversionKind ch with
      | none =>
          rw [vformatConversion_unsupported recorder kind,
            vformatConversion_unsupported recorder kind]
          exact congrArg Except.ok (behind_write text _ s)
      | some kind' =>
          rw [vformatConversion_supported recorder kind,
            vformatConversion_supported recorder kind]
          simp only [FormatState.behind]
          cases s.args with
          | nil => rfl
          | cons arg rest =>
              obtain ⟨shown, show'⟩ := showArgument_recorded (bases base ch rfl) arg
              by_cases isKind : arg.kind = kind'
              · simp [isKind, show', inFormat, Except.map]
              · simp [isKind, Except.map]

theorem runPieces_behind (list : List Piece) (bases : KnownBases list) (text : List U8)
    (s : FormatState (List U8)) :
    runPieces recorder list (s.behind text) = (runPieces recorder list s).map (·.behind text) := by
  induction list generalizing s with
  | nil => rfl
  | cons piece rest ih =>
      rw [runPieces, runPieces, piece.run_behind (bases piece (by simp))]
      cases piece.run recorder s with
      | error stop => rfl
      | ok s' => exact ih (fun other member => bases other (List.mem_cons_of_mem _ member)) s'

theorem vformat_before {f : List U8} {A : List VaArg}
    (matching : A.map VaArg.kind = argumentKinds f) :
    ∃ text, vformat recorder f A [] = .ok text ∧
      ∀ g, pieces (f ++ g) = pieces f ++ pieces g → ∀ B,
        vformat recorder (f ++ g) (A ++ B) [] = (vformat recorder g B []).map (text ++ ·) := by
  obtain ⟨text, run⟩ := runPieces_recorded _ (pieces_bases f) A matching
  refine ⟨text, ?_, fun g splits B => ?_⟩
  · have alone := run [] []
    rw [List.append_nil] at alone
    rw [vformat_eq, alone]
    rfl
  · have behind := runPieces_behind _ (pieces_bases g) text ⟨B, []⟩
    rw [FormatState.behind, List.append_nil] at behind
    rw [vformat_eq, vformat_eq, splits, runPieces_append, run, format_bind_ok, List.nil_append,
      behind]
    cases runPieces recorder (pieces g) ⟨B, []⟩ <;> rfl

theorem vformat_ok {g : List U8} {B : List VaArg}
    (matching : argumentKinds g <+: B.map VaArg.kind) :
    ∃ text, vformat recorder g B [] = .ok text := by
  obtain ⟨others, split⟩ := matching
  obtain ⟨used, rest, rfl, isUsed, _⟩ := List.map_eq_append_iff.mp split.symm
  obtain ⟨text, run⟩ := runPieces_recorded _ (pieces_bases g) used isUsed
  rw [vformat_eq, run]
  exact ⟨text, rfl⟩

theorem pieces_plain_append {text : List U8} (plain : ascii '%' ∉ text) (g : List U8) :
    pieces (text ++ g) = text.map Piece.literal ++ pieces g := by
  induction text with
  | nil => rfl
  | cons first rest ih =>
      rw [List.mem_cons, not_or] at plain
      rw [List.cons_append, pieces_literal (Ne.symm plain.1), ih plain.2]
      rfl

theorem pieces_plain {text : List U8} (plain : ascii '%' ∉ text) :
    pieces text = text.map Piece.literal := by
  have split := pieces_plain_append plain []
  rw [List.append_nil, pieces, List.append_nil] at split
  exact split

theorem runPieces_literals (text : List U8) (s : FormatState (List U8)) :
    runPieces recorder (text.map Piece.literal) s = .ok ⟨s.args, s.data ++ text⟩ := by
  induction text generalizing s with
  | nil => simp [runPieces]
  | cons first rest ih =>
      rw [List.map_cons, runPieces, Piece.run, format_bind_ok, ih]
      rw [FormatState.write, streamWrite, recorder, List.append_assoc]
      rfl

theorem vformat_literals {text : List U8} (plain : ascii '%' ∉ text) (g : List U8)
    (B : List VaArg) :
    vformat recorder (text ++ g) B [] = (vformat recorder g B []).map (text ++ ·) := by
  have noArguments : argumentKinds text = [] := by
    rw [argumentKinds, pieces_plain plain, List.filterMap_map]
    exact List.filterMap_eq_nil_iff.mpr (fun _ _ => rfl)
  obtain ⟨written, run, before⟩ := vformat_before (A := []) noArguments.symm
  rw [vformat_eq, pieces_plain plain, runPieces_literals] at run
  cases run
  exact before g (by rw [pieces_plain_append plain, pieces_plain plain]) B

theorem vformat_directive {lead : List U8} (isLead : lead ∈ [[], str "x", str "b"]) {ch : U8}
    (supported : ch ∈ str "piuIUsS") {arg : VaArg} (fits : conversionKind ch = some arg.kind) :
    ∃ text, ∀ g B, vformat recorder (ascii '%' :: (lead ++ ch :: g)) (arg :: B) [] =
      (vformat recorder g B []).map (text ++ ·) := by
  obtain ⟨base, _, split⟩ := pieces_directive isLead supported
  have alone := split []
  rw [pieces] at alone
  have matching : [arg].map VaArg.kind = argumentKinds (ascii '%' :: (lead ++ [ch])) := by
    rw [argumentKinds, alone, List.filterMap_cons, Piece.kind?, fits]
    rfl
  obtain ⟨text, _, before⟩ := vformat_before matching
  refine ⟨text, fun g B => ?_⟩
  have here := before g (by rw [alone, List.cons_append, List.append_assoc]; exact split g) B
  rw [List.cons_append, List.append_assoc] at here
  exact here

/-- What a complete format writes comes before what the rest of the format writes, and no
index leaves the format. -/
theorem formatting_composes :
    (∀ f A, Complete f → A.map VaArg.kind = argumentKinds f →
      ∀ g B, argumentKinds g <+: B.map VaArg.kind →
        ∃ textF textG, vformat recorder f A [] = .ok textF ∧
          vformat recorder g B [] = .ok textG ∧
          vformat recorder (f ++ g) (A ++ B) [] = .ok (textF ++ textG)) ∧
    (∀ text, ascii '%' ∉ text → ∀ g B,
      vformat recorder (text ++ g) B [] = (vformat recorder g B []).map (text ++ ·)) ∧
    (∀ lead ∈ [[], str "x", str "b"], ∀ ch ∈ str "piuIUsS", ∀ arg : VaArg,
      conversionKind ch = some arg.kind →
        ∃ text, ∀ g B, vformat recorder (ascii '%' :: (lead ++ ch :: g)) (arg :: B) [] =
          (vformat recorder g B []).map (text ++ ·)) ∧
    ∀ (σ : Type) (output : Stream σ) (format : List U8) (args : List VaArg) (data : σ)
      (halt : Halt), vformat output format args data ≠ .error (.halt halt) := by
  refine ⟨fun f A complete matching g B matchingG => ?_, fun text plain => vformat_literals plain,
    fun lead isLead ch supported arg fits => vformat_directive isLead supported fits,
    fun σ output => vformat_not_halted output⟩
  obtain ⟨textF, run, before⟩ := vformat_before matching
  obtain ⟨textG, runG⟩ := vformat_ok matchingG
  refine ⟨textF, textG, run, runG, ?_⟩
  rw [before g (complete.pieces_append g) B, runG]
  rfl

theorem formatting_composes_sample :
    ∃ textF textG,
      vformat recorder (str "a%xu") [.unsigned 255] [] = .ok textF ∧
      vformat recorder (str "%i%") [.signed (-5)] [] = .ok textG ∧
      vformat recorder (str "a%xu%i%") [.unsigned 255, .signed (-5)] [] =
        .ok (textF ++ textG) :=
  formatting_composes.1 (str "a%xu") [.unsigned 255]
    (.literal (by decide)
      (@Complete.directive (str "x") [] (ascii 'u') (by decide) (by decide) .nil))
    (by decide) (str "%i%") [.signed (-5)] (by decide)

end Drastic
