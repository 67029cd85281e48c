import Drastic.Console.Session
import Drastic.Text.Printf

namespace Drastic

open Library (Uart)
open Library.Uart (Schedule Lively)

/-! `base_logging.c`. -/

inductive LogLevel where
  | trace
  | debug
  | info
  | warn
  | error
  | fatal
  deriving DecidableEq, Repr

inductive LogSubsystem where
  | none
  | gdt
  | idt
  | acpi
  | apic
  | paging
  deriving DecidableEq, Repr

def logLevelStrings : LogLevel → Option CString
  | .trace => some (literal "TRACE")
  | .debug => some (literal "DEBUG")
  | .info => some (literal "INFO")
  | .warn => some (literal "WARN")
  | .error => some (literal "ERROR")
  | .fatal => some (literal "FATAL")

def logSubsystemStrings : LogSubsystem → Option CString
  | .none => none
  | .gdt => some (literal "GDT")
  | .idt => some (literal "IDT")
  | .acpi => some (literal "ACPI")
  | .apic => some (literal "APIC")
  | .paging => some (literal "PAGING")

structure LogPosition where
  line : I64
  file : Option CString

abbrev LoggerFunc (σ : Type) :=
  Uintptr → LogLevel → LogSubsystem → LogPosition → Option CString → List VaArg → σ → FormatExec σ

structure Logger (σ : Type) where
  func : LoggerFunc σ
  data : Uintptr

section

variable {σ : Type} (output : Stream σ)

def loggerLog (logger : Logger σ) (level : LogLevel) (subsystem : LogSubsystem)
    (pos : LogPosition) (format : Option CString) (list : List VaArg) (data : σ) : FormatExec σ :=
  logger.func logger.data level subsystem pos format list data

def loggerPrintf : LoggerFunc σ := fun _ level subsystem pos format list data => do
  let data ← printf output "%S: %S - %S:%i - "
    [.chars (logSubsystemStrings subsystem), .chars (logLevelStrings level), .chars pos.file,
      .signed pos.line] data
  let data ← vprintf output format list data
  printf output "\n" [] data

def loggerDefault : Logger σ := ⟨loggerPrintf output, 0#64⟩

structure LogCall where
  level : LogLevel
  subsystem : LogSubsystem
  pos : LogPosition
  format : Option CString
  list : List VaArg

def logAll (calls : List LogCall) (data : σ) : FormatExec σ :=
  calls.foldlM (fun data call => loggerLog (loggerDefault output) call.level call.subsystem
    call.pos call.format call.list data) data

end

def signedText (value : I64) : List U8 :=
  if value.slt 0#64 then signBytes true ++ decimalText (-value) else decimalText value

theorem showArgument_signed (value : I64) (written : List U8) :
    showArgument recorder 0#8 written (.signed value) = .ok (written ++ signedText value) := by
  have supported : 0#8 ∈ supportedBases := by decide
  rw [showArgument, formatNumberI64, signedText]
  split
  · rw [formatNumber_eq recorder _ _ supported]
    rfl
  · rw [formatNumber_eq recorder _ _ supported]
    rfl

theorem vformat_signed (value : I64) (g : List U8) (B : List VaArg) :
    vformat recorder (str "%i" ++ g) (.signed value :: B) [] =
      (vformat recorder g B []).map (signedText value ++ ·) :=
  vformat_shown (str "%i") 0#8 (ascii 'i') (by decide) rfl (showArgument_signed value) g B

theorem signedText_inj {value value' : I64} (same : signedText value = signedText value') :
    value = value' := by
  have denotes (v : I64) : Denotes 10 (v.toInt < 0) v.toInt.natAbs (signedText v) := by
    obtain ⟨text, shown, run⟩ := formatNumberI64_denotes (show 0#8 ∈ supportedBases by decide) v
    have isText : text = signedText v := by
      have here := showArgument_signed v []
      rw [showArgument, run] at here
      exact Except.ok.inj here
    exact isText ▸ shown
  have first := denotes value
  rw [same] at first
  obtain ⟨signs, magnitudes⟩ := first.unique (by decide) (denotes value')
  rw [decide_eq_decide] at signs
  apply BitVec.eq_of_toInt_eq
  omega

theorem space_notMem_signedText (value : I64) : ascii ' ' ∉ signedText value := by
  have digits (v : U64) : ascii ' ' ∉ decimalText v := by
    intro member
    exact absurd (decimalText_digits v _ member) (by decide)
  unfold signedText
  split
  · rw [List.mem_append, not_or]
    exact ⟨by decide, digits _⟩
  · exact digits value

structure LogRecord where
  level : LogLevel
  subsystem : LogSubsystem
  line : I64
  file : List U8
  message : List U8
  deriving DecidableEq, Repr

structure Logged (call : LogCall) (r : LogRecord) : Prop where
  level : r.level = call.level
  subsystem : r.subsystem = call.subsystem
  line : r.line = call.pos.line
  file : r.file = stringFromChar call.pos.file
  message : vformat recorder (stringFromChar call.format) call.list [] = .ok r.message

def levelText (level : LogLevel) : List U8 := stringFromChar (logLevelStrings level)

def subsystemText (subsystem : LogSubsystem) : List U8 :=
  stringFromChar (logSubsystemStrings subsystem)

def recordHead (r : LogRecord) : List U8 :=
  subsystemText r.subsystem ++ (str ": " ++ (levelText r.level ++ (str " - " ++
    (r.file ++ (str ":" ++ (signedText r.line ++ str " - "))))))

def recordText (r : LogRecord) : List U8 := recordHead r ++ (r.message ++ str "\n")

theorem head_recorded (r : LogRecord) (file : Option CString)
    (isFile : r.file = stringFromChar file) :
    vformat recorder (str "%S: %S - %S:%i - ")
      [.chars (logSubsystemStrings r.subsystem), .chars (logLevelStrings r.level), .chars file,
        .signed r.line] [] = .ok (recordHead r) := by
  have split : str "%S: %S - %S:%i - " = str "%S" ++ (str ": " ++ (str "%S" ++ (str " - " ++
      (str "%S" ++ (str ":" ++ (str "%i" ++ (str " - " ++ []))))))) := by decide
  rw [split, vformat_chars, vformat_literals (by decide), vformat_chars,
    vformat_literals (by decide), vformat_chars, vformat_literals (by decide), vformat_signed,
    vformat_literals (by decide), vformat_nil, recordHead, isFile]
  rfl

variable {σ : Type} {output : Stream σ} {shown : σ → List U8 → Prop}

theorem loggerLog_shows (tells : Tells output shown) {call : LogCall} {r : LogRecord}
    (logged : Logged call r) {data : σ} {before : List U8} (start : shown data before) :
    ∃ after, loggerLog (loggerDefault output) call.level call.subsystem call.pos call.format
      call.list data = .ok after ∧ shown after (before ++ recordText r) := by
  have head := head_recorded r call.pos.file logged.file
  rw [logged.subsystem, logged.level, logged.line] at head
  obtain ⟨headed, ranHead, isHead⟩ := printf_shows tells (by decide) head start
  obtain ⟨told, ranMessage, isMessage⟩ := vformat_shows tells isHead logged.message
  obtain ⟨after, ranEnd, isEnd⟩ := plain_shows tells "\n" (by decide) (by decide) isMessage
  refine ⟨after, ?_, ?_⟩
  · simp only [loggerLog, loggerDefault, loggerPrintf, ranHead, format_bind_ok, vprintf, ranMessage,
      ranEnd]
  · rw [recordText, ← List.append_assoc, ← List.append_assoc]
    exact isEnd

theorem logAll_shows (tells : Tells output shown) {calls : List LogCall}
    {records : List LogRecord} (logged : List.Forall₂ Logged calls records) {data : σ}
    {before : List U8} (start : shown data before) :
    ∃ after, logAll output calls data = .ok after ∧
      shown after (before ++ records.flatMap recordText) := by
  induction logged generalizing data before with
  | nil => exact ⟨data, rfl, by simpa using start⟩
  | cons here _ ih =>
      obtain ⟨between, ran, isShown⟩ := loggerLog_shows tells here start
      obtain ⟨after, rest, isShown'⟩ := ih isShown
      refine ⟨after, ?_, ?_⟩
      · rw [logAll, List.foldlM_cons, ran]
        exact rest
      · rw [List.flatMap_cons, ← List.append_assoc]
        exact isShown'

/-- No file name has a colon in it, and no message a line end. -/
structure Clean (r : LogRecord) : Prop where
  file : ascii ':' ∉ r.file
  message : ascii '\n' ∉ r.message

theorem levelText_inj {level level' : LogLevel} (same : levelText level = levelText level') :
    level = level' := by
  cases level <;> cases level' <;> first | rfl | exact absurd same (by decide)

theorem subsystemText_inj {subsystem subsystem' : LogSubsystem}
    (same : subsystemText subsystem = subsystemText subsystem') : subsystem = subsystem' := by
  cases subsystem <;> cases subsystem' <;> first | rfl | exact absurd same (by decide)

theorem field_inj {stop : U8} {field field' rest rest' : List U8} (ends : stop ∉ field)
    (ends' : stop ∉ field') (same : field ++ stop :: rest = field' ++ stop :: rest') :
    field = field' ∧ rest = rest' := by
  have front (text others : List U8) (isField : stop ∉ text) :
      (text ++ stop :: others).takeWhile (· ≠ stop) = text := by
    have inside : ∀ byte ∈ text, decide (byte ≠ stop) = true := by
      intro byte member
      rw [decide_eq_true_iff]
      rintro rfl
      exact isField member
    rw [List.takeWhile_append_of_pos inside, List.takeWhile_cons_of_neg (by simp), List.append_nil]
  have fields := congrArg (List.takeWhile (· ≠ stop)) same
  rw [front field rest ends, front field' rest' ends'] at fields
  rw [fields] at same
  exact ⟨fields, List.tail_eq_of_cons_eq (List.append_cancel_left same)⟩

theorem recordText_inj {r r' : LogRecord} (clean : Clean r) (clean' : Clean r')
    {rest rest' : List U8} (same : recordText r ++ rest = recordText r' ++ rest') :
    r = r' ∧ rest = rest' := by
  have fields (r : LogRecord) (rest : List U8) : recordText r ++ rest =
      subsystemText r.subsystem ++ ascii ':' :: ([ascii ' '] ++ (levelText r.level ++ ascii ' ' ::
        ([ascii '-', ascii ' '] ++ (r.file ++ ascii ':' :: (signedText r.line ++ ascii ' ' ::
          ([ascii '-', ascii ' '] ++ (r.message ++ ascii '\n' :: rest))))))) := by
    have colonSpace : str ": " = [ascii ':', ascii ' '] := by decide
    have dash : str " - " = [ascii ' ', ascii '-', ascii ' '] := by decide
    have colon : str ":" = [ascii ':'] := by decide
    have lineEnd : str "\n" = [ascii '\n'] := by decide
    simp [recordText, recordHead, colonSpace, dash, colon, lineEnd]
  have noColon (subsystem : LogSubsystem) : ascii ':' ∉ subsystemText subsystem := by
    cases subsystem <;> decide
  have noSpace (level : LogLevel) : ascii ' ' ∉ levelText level := by
    cases level <;> decide
  rw [fields, fields] at same
  obtain ⟨subsystems, same⟩ := field_inj (noColon _) (noColon _) same
  obtain ⟨levels, same⟩ := field_inj (noSpace _) (noSpace _) (List.append_cancel_left same)
  obtain ⟨files, same⟩ := field_inj clean.file clean'.file (List.append_cancel_left same)
  obtain ⟨lines, same⟩ :=
    field_inj (space_notMem_signedText _) (space_notMem_signedText _) same
  obtain ⟨messages, rests⟩ :=
    field_inj clean.message clean'.message (List.append_cancel_left same)
  refine ⟨?_, rests⟩
  cases r
  cases r'
  rw [LogRecord.mk.injEq]
  exact ⟨levelText_inj levels, subsystemText_inj subsystems, signedText_inj lines, files, messages⟩

theorem records_inj {records records' : List LogRecord} (clean : ∀ r ∈ records, Clean r)
    (clean' : ∀ r ∈ records', Clean r)
    (same : records.flatMap recordText = records'.flatMap recordText) : records = records' := by
  have some (r : LogRecord) (rest : List U8) : recordText r ++ rest ≠ [] := by
    have lineEnd : str "\n" ≠ [] := by decide
    simp [recordText, lineEnd]
  induction records generalizing records' with
  | nil =>
      cases records' with
      | nil => rfl
      | cons r' rest' => exact absurd same.symm (some r' _)
  | cons r rest ih =>
      cases records' with
      | nil => exact absurd same (some r _)
      | cons r' rest' =>
          rw [List.flatMap_cons, List.flatMap_cons] at same
          obtain ⟨rfl, rests⟩ := recordText_inj (clean r List.mem_cons_self)
            (clean' r' List.mem_cons_self) same
          rw [ih (fun other member => clean other (List.mem_cons_of_mem _ member))
            (fun other member => clean' other (List.mem_cons_of_mem _ member)) rests]

/-- Any sequence of log calls is written out whole, and what it writes tells all of them: the
subsystem, the level, the file, the line number and the message of each, in their order. -/
theorem log_reads_back {schedule : Schedule} {patience fuel : Nat}
    (lively : Lively patience schedule)
    (enough : (Library.Uart.capacity + 1) * patience ≤ fuel) (port : U16) (u u₀ : Uart)
    (works : serialInit (uartPorts schedule port) port u = (true, u₀)) (calls : List LogCall)
    (records : List LogRecord) (logged : List.Forall₂ Logged calls records) :
    ∃ u' text, logAll recorder calls [] = .ok text ∧
      logAll (serialStreamMake (uartPorts schedule port) fuel port) calls (.ok u₀) =
        .ok (.ok u') ∧
      u'.output = u₀.output ++ text ∧
      ((∀ r ∈ records, Clean r) → ∀ calls' records', List.Forall₂ Logged calls' records' →
        (∀ r ∈ records', Clean r) → logAll recorder calls' [] = .ok text →
          records' = records) := by
  have start := serialInit_shows_nothing lively enough works
  obtain ⟨_, ran, u', rfl, _, transferred⟩ :=
    logAll_shows (serialStreamMake_shows schedule patience fuel port u₀) logged start
  obtain ⟨_, told, rfl⟩ := logAll_shows recorder_shows logged (rfl : ([] : List U8) = [])
  refine ⟨u', _, told, ran, transferred.output, ?_⟩
  intro clean calls' records' logged' clean' same
  obtain ⟨after, recorded, isText⟩ :=
    logAll_shows recorder_shows logged' (rfl : ([] : List U8) = [])
  rw [same, Except.ok.injEq] at recorded
  rw [← recorded, List.nil_append, List.nil_append] at isText
  exact (records_inj clean clean' isText).symm

def sampleCalls : List LogCall :=
  [⟨.info, .none, ⟨62#64, some (literal "src/main.c")⟩, some (literal "hi"), []⟩,
    ⟨.warn, .acpi, ⟨7#64, some (literal "src/a.c")⟩, some (literal "%i left"), [.signed (-3)]⟩]

def sampleRecords : List LogRecord :=
  [⟨.info, .none, 62#64, str "src/main.c", str "hi"⟩,
    ⟨.warn, .acpi, 7#64, str "src/a.c", str "-3 left"⟩]

theorem log_reads_back_sample : ∃ u₀ u' text,
    serialInit (uartPorts takingLine serialCom1) serialCom1 resetUart = (true, u₀) ∧
    logAll recorder sampleCalls [] = .ok text ∧
    logAll (serialStreamMake (uartPorts takingLine serialCom1) 17 serialCom1) sampleCalls
      (.ok u₀) = .ok (.ok u') ∧
    u'.output = u₀.output ++ text ∧
    ∀ calls' records', List.Forall₂ Logged calls' records' → (∀ r ∈ records', Clean r) →
      logAll recorder calls' [] = .ok text → records' = sampleRecords := by
  have logged : List.Forall₂ Logged sampleCalls sampleRecords :=
    .cons ⟨rfl, rfl, rfl, by decide, by decide⟩ (.cons ⟨rfl, rfl, rfl, by decide, by decide⟩ .nil)
  have clean : ∀ r ∈ sampleRecords, Clean r := by
    intro r member
    have colons : ∀ r ∈ sampleRecords, ascii ':' ∉ r.file := by decide
    have lineEnds : ∀ r ∈ sampleRecords, ascii '\n' ∉ r.message := by decide
    exact ⟨colons r member, lineEnds r member⟩
  obtain ⟨u', text, told, ran, output, reads⟩ := log_reads_back takingLine_lively
    (show (Library.Uart.capacity + 1) * 1 ≤ 17 by decide) serialCom1 resetUart _ takingLine_works
    sampleCalls sampleRecords logged
  exact ⟨_, u', text, takingLine_works, told, ran, output, reads clean⟩

end Drastic
