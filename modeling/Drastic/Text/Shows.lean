import Drastic.Text.Compose

namespace Drastic

variable {σ : Type}

def Tells (output : Stream σ) (shown : σ → List U8 → Prop) : Prop :=
  ∀ bytes data text, shown data text → shown (streamWrite output bytes data) (text ++ bytes)

theorem recorder_shows : Tells recorder (fun data text => data = text) := by
  rintro bytes data text rfl
  rfl

variable {output : Stream σ} {shown : σ → List U8 → Prop}

theorem Tells.behind (shows : Tells output shown) (before : List U8) :
    Tells output (fun data text => shown data (before ++ text)) := by
  intro bytes data text start
  rw [← List.append_assoc]
  exact shows bytes data _ start

def TellsState (shown : σ → List U8 → Prop) (s : FormatState σ) (r : FormatState (List U8)) :
    Prop :=
  s.args = r.args ∧ shown s.data r.data

theorem formatNumber_shows (shows : Tells output shown) {base : U8}
    (supported : base ∈ supportedBases) (value : U64) (isSigned : Bool) {data : σ}
    {text written : List U8} (start : shown data text)
    (recorded : formatNumber recorder value isSigned base text = .ok written) :
    ∃ after, formatNumber output value isSigned base data = .ok after ∧ shown after written := by
  rw [formatNumber_eq recorder value isSigned supported, Except.ok.injEq] at recorded
  subst recorded
  refine ⟨_, formatNumber_eq output value isSigned supported data, ?_⟩
  apply shows
  split
  · exact start
  · exact shows _ _ _ start

theorem showArgument_shows (shows : Tells output shown) {base : U8}
    (member : base ∈ directiveBases) (arg : VaArg) {data : σ} {text written : List U8}
    (start : shown data text) (recorded : showArgument recorder base text arg = .ok written) :
    ∃ after, showArgument output base data arg = .ok after ∧ shown after written := by
  obtain ⟨usual, forPointer⟩ := supported_of_directive member
  cases arg with
  | pointer ptr => exact formatNumber_shows shows forPointer ptr false start recorded
  | signed integer =>
      rw [showArgument, formatNumberI64] at recorded ⊢
      split at recorded
      case isTrue negative =>
        rw [if_pos negative]
        exact formatNumber_shows shows usual _ _ start recorded
      case isFalse positive =>
        rw [if_neg positive]
        exact formatNumber_shows shows usual _ _ start recorded
  | unsigned uinteger => exact formatNumber_shows shows usual uinteger false start recorded
  | string s =>
      cases recorded
      exact ⟨_, rfl, shows _ _ _ start⟩
  | chars cstr =>
      cases recorded
      exact ⟨_, rfl, shows _ _ _ start⟩

theorem Piece.run_shows (shows : Tells output shown) (piece : Piece)
    (bases : ∀ base ch, piece = .directive base ch → base ∈ directiveBases) {s : FormatState σ}
    {r r' : FormatState (List U8)} (start : TellsState shown s r)
    (recorded : piece.run recorder r = .ok r') :
    ∃ s', piece.run output s = .ok s' ∧ TellsState shown s' r' := by
  obtain ⟨args, data⟩ := s
  obtain ⟨args', text⟩ := r
  obtain ⟨rfl, isShown⟩ := start
  cases piece with
  | literal byte =>
      cases recorded
      exact ⟨_, rfl, rfl, shows _ _ _ isShown⟩
  | cutOff bytes =>
      cases recorded
      exact ⟨_, rfl, rfl, shows _ _ _ isShown⟩
  | directive base ch =>
      rw [Piece.run] at recorded ⊢
      cases kind : conversionKind ch with
      | none =>
          rw [vformatConversion_unsupported recorder kind] at recorded
          rw [vformatConversion_unsupported output kind]
          cases recorded
          exact ⟨_, rfl, rfl, shows _ _ _ isShown⟩
      | some expected =>
          rw [vformatConversion_supported recorder kind] at recorded
          rw [vformatConversion_supported output kind]
          simp only at recorded isShown ⊢
          cases args with
          | nil => cases recorded
          | cons arg rest =>
              simp only at recorded ⊢
              split at recorded
              case isFalse => cases recorded
              case isTrue fits =>
                rw [if_pos fits]
                cases written : showArgument recorder base text arg with
                | error halt =>
                    rw [written] at recorded
                    cases recorded
                | ok after =>
                    rw [written] at recorded
                    cases recorded
                    obtain ⟨data', wrote, isShown'⟩ :=
                      showArgument_shows shows (bases base ch rfl) arg isShown written
                    rw [wrote]
                    exact ⟨_, rfl, rfl, isShown'⟩

theorem runPieces_shows (shows : Tells output shown) (list : List Piece) (bases : KnownBases list)
    {s : FormatState σ} {r r' : FormatState (List U8)} (start : TellsState shown s r)
    (recorded : runPieces recorder list r = .ok r') :
    ∃ s', runPieces output list s = .ok s' ∧ TellsState shown s' r' := by
  induction list generalizing s r with
  | nil =>
      cases recorded
      exact ⟨s, rfl, start⟩
  | cons piece rest ih =>
      rw [runPieces] at recorded ⊢
      cases first : piece.run recorder r with
      | error stop =>
          rw [first] at recorded
          cases recorded
      | ok between =>
          rw [first, format_bind_ok] at recorded
          obtain ⟨s', run, shown'⟩ := piece.run_shows shows (bases piece (by simp)) start first
          rw [run, format_bind_ok]
          exact ih (fun other member => bases other (List.mem_cons_of_mem _ member)) shown' recorded

theorem vformat_shows (shows : Tells output shown) {format : List U8} {args : List VaArg}
    {data : σ} {before text : List U8} (start : shown data before)
    (recorded : vformat recorder format args [] = .ok text) :
    ∃ after, vformat output format args data = .ok after ∧ shown after (before ++ text) := by
  rw [vformat_eq] at recorded ⊢
  cases run : runPieces recorder (pieces format) ⟨args, []⟩ with
  | error stop =>
      rw [run] at recorded
      cases recorded
  | ok r =>
      rw [run] at recorded
      cases recorded
      have initial : TellsState (fun data text => shown data (before ++ text))
          ⟨args, data⟩ ⟨args, []⟩ := by
        refine ⟨rfl, ?_⟩
        simp only [List.append_nil]
        exact start
      obtain ⟨s', ran, _, isShown⟩ :=
        runPieces_shows (shows.behind before) _ (pieces_bases format) initial run
      rw [ran]
      exact ⟨_, rfl, isShown⟩

end Drastic
