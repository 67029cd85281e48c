import Drastic.Console.Session
import Drastic.Platform.InterruptDelivery
import Drastic.Text.Printf

namespace Drastic

open Library (Uart)
open Library.Uart (Schedule Lively)
open Library.X86 (Processor)

/-! `system_idt_interrupt_handler`: what it prints before the kernel stops. -/

def systemIdtInterruptVectorNames : Nat := 22

def systemIdtInterruptVectorShortName : List String :=
  ["#DE", "#DB", "NMI", "#BP", "#OF", "#BR", "#UD", "#NM", "#DF", "N/A", "#TS", "#NP", "#SS",
    "#GP", "#PF", "N/A", "#MF", "#AC", "#MC", "#XM", "#VE", "#CP"]

def systemIdtInterruptVectorName : List String :=
  ["Divide Error", "Debug Exception", "NMI Interrupt", "Breakpoint", "Overflow",
    "BOUND Range Exceeded", "Invalid Opcode (Undefined Opcode)",
    "Device Not Available (No Math Coprocessor)", "Double Fault",
    "Coprocessor Segment Overrun (reserved)", "Invalid TSS", "Segment Not Present",
    "Stack-Segment Fault", "General Protection", "Page Fault", "Intel reserved. Do not use.",
    "x87 FPU Floating-Point Error (Math Fault)", "Alignment Check", "Machine Check",
    "SIMD Floating-Point Exception", "Virtualization Exception", "Control Protection Exception"]

def shortNameOf (vector : Nat) : List U8 := str (systemIdtInterruptVectorShortName.getD vector "")

def nameOf (vector : Nat) : List U8 := str (systemIdtInterruptVectorName.getD vector "")

/-- `cr2` is only read for a page fault. -/
def faultLines (frame : SystemIdtInterruptStackFrame) (cr2 : U64) : List (String × U64) :=
  if frame.vector = 14#64 then [("cr2: %xU\n", cr2)] else []

def generalLines (frame : SystemIdtInterruptStackFrame) : List (String × U64) :=
  [("r15: %xU\n", frame.r15), ("r14: %xU\n", frame.r14), ("r13: %xU\n", frame.r13),
    ("r12: %xU\n", frame.r12), ("r11: %xU\n", frame.r11), ("r10: %xU\n", frame.r10),
    ("r9:  %xU\n", frame.r9), ("r8:  %xU\n", frame.r8), ("rbp: %xU\n", frame.rbp),
    ("rdi: %xU\n", frame.rdi), ("rsi: %xU\n", frame.rsi), ("rdx: %xU\n", frame.rdx),
    ("rcx: %xU\n", frame.rcx), ("rbx: %xU\n", frame.rbx), ("rax: %xU\n", frame.rax)]

def returnLines (frame : SystemIdtInterruptStackFrame) : List (String × U64) :=
  [("rip:    %xU\n", frame.rip), ("cs:     %xU\n", frame.cs), ("rflags: %xU\n", frame.rflags)]

/-- Only an interrupt from another ring comes with a stack of its own. -/
def stackLines (frame : SystemIdtInterruptStackFrame) : List (String × U64) :=
  if frame.cs &&& 0x3#64 ≠ 0#64 then
    [("rsp:    %xU\n", frame.rsp), ("ss:     %xU\n", frame.ss)]
  else []

section

variable {σ : Type} (output : Stream σ)

def printLines : List (String × U64) → σ → FormatExec σ
  | [], data => .ok data
  | (format, value) :: rest, data => do
    printLines rest (← printf output format [.unsigned value] data)

def printHead (frame : SystemIdtInterruptStackFrame) (data : σ) : FormatExec σ :=
  if frame.vector.toNat < systemIdtInterruptVectorNames then
    printf output "interrupt %s(%s) (error: %U):\n"
      [.string (shortNameOf frame.vector.toNat), .string (nameOf frame.vector.toNat),
        .unsigned frame.errorCode] data
  else
    printf output "interrupt (vector %U, error: %U):\n"
      [.unsigned frame.vector, .unsigned frame.errorCode] data

def systemIdtInterruptHandler (frame : SystemIdtInterruptStackFrame) (cr2 : U64) (data : σ) :
    FormatExec σ := do
  let data ← printHead output frame data
  let data ← printLines output (faultLines frame cr2) data
  let data ← printLines output (generalLines frame) data
  let data ← printf output "\n" [] data
  let data ← printLines output (returnLines frame) data
  let data ← printLines output (stackLines frame) data
  return kpanic output (str "interrupt handler called") data

end

def linesText (lines : List (String × U64)) : List U8 :=
  lines.flatMap fun line => labelOf line.1 ++ (hexText line.2 ++ str "\n")

def namedText (vector : Nat) : List U8 :=
  str "interrupt " ++ (shortNameOf vector ++ (str "(" ++ (nameOf vector ++ str ") (error: ")))

def headText (frame : SystemIdtInterruptStackFrame) : List U8 :=
  (if frame.vector.toNat < systemIdtInterruptVectorNames then namedText frame.vector.toNat
  else str "interrupt (vector " ++ (decimalText frame.vector ++ str ", error: ")) ++
    (decimalText frame.errorCode ++ str "):\n")

def reportText (frame : SystemIdtInterruptStackFrame) (cr2 : U64) : List U8 :=
  headText frame ++ (linesText (faultLines frame cr2) ++ (linesText (generalLines frame) ++
    (str "\n" ++ (linesText (returnLines frame) ++ (linesText (stackLines frame) ++
      panicText "interrupt handler called")))))

section

variable {σ : Type} {output : Stream σ} {shown : σ → List U8 → Prop}

theorem printLines_shows (shows : Tells output shown) {lines : List (String × U64)}
    (areLines : ∀ line ∈ lines, IsLine line.1) {data : σ} {before : List U8}
    (start : shown data before) :
    ∃ after, printLines output lines data = .ok after ∧
      shown after (before ++ linesText lines) := by
  induction lines generalizing data before with
  | nil => exact ⟨data, rfl, by rwa [linesText, List.flatMap_nil, List.append_nil]⟩
  | cons line rest ih =>
      obtain ⟨format, value⟩ := line
      have isLine := areLines (format, value) (by simp)
      obtain ⟨between, printed, isShown⟩ :=
        printf_shows shows isLine.2.2 (line_recorded isLine value) start
      obtain ⟨after, rests, isShown'⟩ :=
        ih (fun other member => areLines other (List.mem_cons_of_mem _ member)) isShown
      refine ⟨after, ?_, ?_⟩
      · rw [printLines, printed]
        exact rests
      · rw [linesText, List.flatMap_cons, ← List.append_assoc]
        exact isShown'

theorem head_recorded_named (frame : SystemIdtInterruptStackFrame)
    (named : frame.vector.toNat < systemIdtInterruptVectorNames) :
    vformat recorder (str "interrupt %s(%s) (error: %U):\n")
      [.string (shortNameOf frame.vector.toNat), .string (nameOf frame.vector.toNat),
        .unsigned frame.errorCode] [] = .ok (headText frame) := by
  have split : str "interrupt %s(%s) (error: %U):\n" = str "interrupt " ++ (str "%s" ++
      (str "(" ++ (str "%s" ++ (str ") (error: " ++ (str "%U" ++ (str "):\n" ++ [])))))) := by
    decide
  rw [split, vformat_literals (by decide), vformat_string, vformat_literals (by decide),
    vformat_string, vformat_literals (by decide), vformat_decimal, vformat_literals (by decide),
    vformat_nil, headText, if_pos named, namedText]
  simp [Except.map]

theorem head_recorded_unnamed (frame : SystemIdtInterruptStackFrame)
    (unnamed : ¬ frame.vector.toNat < systemIdtInterruptVectorNames) :
    vformat recorder (str "interrupt (vector %U, error: %U):\n")
      [.unsigned frame.vector, .unsigned frame.errorCode] [] = .ok (headText frame) := by
  have split : str "interrupt (vector %U, error: %U):\n" = str "interrupt (vector " ++
      (str "%U" ++ (str ", error: " ++ (str "%U" ++ (str "):\n" ++ [])))) := by
    decide
  rw [split, vformat_literals (by decide), vformat_decimal, vformat_literals (by decide),
    vformat_decimal, vformat_literals (by decide), vformat_nil, headText, if_neg unnamed]
  simp [Except.map]

theorem reportLines_areLines (frame : SystemIdtInterruptStackFrame) (cr2 : U64) :
    (∀ line ∈ faultLines frame cr2, IsLine line.1) ∧ (∀ line ∈ generalLines frame, IsLine line.1) ∧
      (∀ line ∈ returnLines frame, IsLine line.1) ∧
      ∀ line ∈ stackLines frame, IsLine line.1 := by
  have all : ∀ format ∈ ["cr2: %xU\n", "r15: %xU\n", "r14: %xU\n", "r13: %xU\n", "r12: %xU\n",
      "r11: %xU\n", "r10: %xU\n", "r9:  %xU\n", "r8:  %xU\n", "rbp: %xU\n", "rdi: %xU\n",
      "rsi: %xU\n", "rdx: %xU\n", "rcx: %xU\n", "rbx: %xU\n", "rax: %xU\n", "rip:    %xU\n",
      "cs:     %xU\n", "rflags: %xU\n", "rsp:    %xU\n", "ss:     %xU\n"], IsLine format := by
    decide
  refine ⟨?_, ?_, ?_, ?_⟩
  · intro line member
    unfold faultLines at member
    split at member
    · exact all line.1 (by simp_all)
    · exact absurd member List.not_mem_nil
  · intro line member
    apply all
    simp only [generalLines, List.mem_cons, List.not_mem_nil, or_false] at member
    rcases member with rfl | rfl | rfl | rfl | rfl | rfl | rfl | rfl | rfl | rfl | rfl | rfl |
      rfl | rfl | rfl <;> simp
  · intro line member
    apply all
    simp only [returnLines, List.mem_cons, List.not_mem_nil, or_false] at member
    rcases member with rfl | rfl | rfl <;> simp
  · intro line member
    unfold stackLines at member
    split at member
    · simp only [List.mem_cons, List.not_mem_nil, or_false] at member
      apply all
      rcases member with rfl | rfl <;> simp
    · exact absurd member List.not_mem_nil

theorem systemIdtInterruptHandler_shows (shows : Tells output shown)
    (frame : SystemIdtInterruptStackFrame) (cr2 : U64) {data : σ} {before : List U8}
    (start : shown data before) :
    ∃ after, systemIdtInterruptHandler output frame cr2 data = .ok after ∧
      shown after (before ++ reportText frame cr2) := by
  obtain ⟨fault, general, return', stack⟩ := reportLines_areLines frame cr2
  have head : ∃ after, printHead output frame data = .ok after ∧
      shown after (before ++ headText frame) := by
    unfold printHead
    split
    case isTrue named =>
      exact printf_shows shows (by decide) (head_recorded_named frame named) start
    case isFalse unnamed =>
      exact printf_shows shows (by decide) (head_recorded_unnamed frame unnamed) start
  obtain ⟨d₁, run₁, shown₁⟩ := head
  obtain ⟨d₂, run₂, shown₂⟩ := printLines_shows shows fault shown₁
  obtain ⟨d₃, run₃, shown₃⟩ := printLines_shows shows general shown₂
  have newline : vformat recorder (str "\n") [] [] = .ok (str "\n") := by decide
  obtain ⟨d₄, run₄, shown₄⟩ := printf_shows shows (by decide) newline shown₃
  obtain ⟨d₅, run₅, shown₅⟩ := printLines_shows shows return' shown₄
  obtain ⟨d₆, run₆, shown₆⟩ := printLines_shows shows stack shown₅
  refine ⟨kpanic output (str "interrupt handler called") d₆, ?_, ?_⟩
  · rw [systemIdtInterruptHandler, run₁]
    simp only [format_bind_ok, run₂, run₃, run₄, run₅, run₆, format_pure]
  · have all := kpanic_shows shows "interrupt handler called" shown₆
    simp only [reportText, List.append_assoc] at all ⊢
    exact all

end

theorem linesText_inj {lines lines' : List (String × U64)} {rest rest' : List U8}
    (formats : lines.map Prod.fst = lines'.map Prod.fst)
    (same : linesText lines ++ rest = linesText lines' ++ rest') :
    lines = lines' ∧ rest = rest' := by
  induction lines generalizing lines' with
  | nil =>
      rw [List.map_nil, eq_comm, List.map_eq_nil_iff] at formats
      subst formats
      exact ⟨rfl, same⟩
  | cons line others ih =>
      cases lines' with
      | nil => simp at formats
      | cons line' others' =>
          obtain ⟨format, value⟩ := line
          obtain ⟨format', value'⟩ := line'
          simp only [List.map_cons, List.cons.injEq] at formats
          obtain ⟨rfl, formats⟩ := formats
          simp only [linesText, List.flatMap_cons, List.append_assoc,
            List.append_cancel_left_eq] at same
          obtain ⟨texts, later⟩ := List.append_inj same
            ((hexText_length value).trans (hexText_length value').symm)
          rw [List.append_cancel_left_eq] at later
          obtain ⟨sameOthers, sameRest⟩ := ih formats later
          rw [hexText_inj texts, sameOthers]
          exact ⟨rfl, sameRest⟩

theorem namedText_inj {vector vector' : Nat} (named : vector < 22) (named' : vector' < 22)
    (isPrefix : namedText vector <+: namedText vector') : vector = vector' := by
  have all : ∀ v < 22, ∀ w < 22, namedText v <+: namedText w → v = w := by decide +kernel
  exact all vector named vector' named' isPrefix

theorem namedText_apart {vector : Nat} (named : vector < 22) :
    ¬ namedText vector <+: str "interrupt (vector " ∧
      ¬ str "interrupt (vector " <+: namedText vector := by
  have all : ∀ v < 22, ¬ namedText v <+: str "interrupt (vector " ∧
      ¬ str "interrupt (vector " <+: namedText v := by decide +kernel
  exact all vector named

theorem errorText_inj {code code' : U64} {rest rest' : List U8}
    (same : decimalText code ++ (str "):\n" ++ rest) = decimalText code' ++ (str "):\n" ++ rest')) :
    code = code' ∧ rest = rest' := by
  have bytes : str "):\n" = 41#8 :: str ":\n" := by decide
  rw [bytes, List.cons_append, List.cons_append] at same
  obtain ⟨codes, rests⟩ := decimalText_append_inj (by decide) (by decide) same
  rw [List.cons.injEq, List.append_cancel_left_eq] at rests
  exact ⟨codes, rests.2⟩

theorem prefix_total {front front' rest rest' : List U8} (same : front ++ rest = front' ++ rest') :
    front <+: front' ∨ front' <+: front := by
  apply List.prefix_or_prefix_of_prefix (List.prefix_append front rest)
  rw [same]
  exact List.prefix_append front' rest'

theorem headText_inj {frame frame' : SystemIdtInterruptStackFrame} {rest rest' : List U8}
    (same : headText frame ++ rest = headText frame' ++ rest') :
    frame.vector = frame'.vector ∧ frame.errorCode = frame'.errorCode ∧ rest = rest' := by
  unfold headText at same
  split at same
  case isTrue named =>
    split at same
    case isTrue named' =>
      simp only [List.append_assoc] at same
      have vectors : frame.vector.toNat = frame'.vector.toNat := by
        rcases prefix_total same with isPrefix | isPrefix
        · exact namedText_inj named named' isPrefix
        · exact (namedText_inj named' named isPrefix).symm
      rw [vectors, List.append_cancel_left_eq] at same
      exact ⟨BitVec.eq_of_toNat_eq vectors, errorText_inj same⟩
    case isFalse =>
      simp only [List.append_assoc] at same
      obtain ⟨apart, apart'⟩ := namedText_apart named
      rcases prefix_total same with isPrefix | isPrefix
      · exact absurd isPrefix apart
      · exact absurd isPrefix apart'
  case isFalse =>
    split at same
    case isTrue named' =>
      simp only [List.append_assoc] at same
      obtain ⟨apart, apart'⟩ := namedText_apart named'
      rcases prefix_total same with isPrefix | isPrefix
      · exact absurd isPrefix apart'
      · exact absurd isPrefix apart
    case isFalse =>
      have bytes : str ", error: " = 44#8 :: str " error: " := by decide
      simp only [List.append_assoc, List.append_cancel_left_eq, bytes, List.cons_append] at same
      obtain ⟨vectors, codes⟩ := decimalText_append_inj (by decide) (by decide) same
      rw [List.cons.injEq, List.append_cancel_left_eq] at codes
      exact ⟨vectors, errorText_inj codes.2⟩

/-- Two states that a report does not tell apart: without a change of rings nothing is said of
the interrupted stack, and cr2 is for page faults. -/
structure ReportedAlike (frame : SystemIdtInterruptStackFrame) (cr2 : U64)
    (frame' : SystemIdtInterruptStackFrame) (cr2' : U64) : Prop where
  fields : { frame with rsp := 0, ss := 0 } = { frame' with rsp := 0, ss := 0 }
  stack : frame.cs &&& 0x3#64 ≠ 0#64 → frame.rsp = frame'.rsp ∧ frame.ss = frame'.ss
  fault : frame.vector = 14#64 → cr2 = cr2'

theorem reportText_inj {frame frame' : SystemIdtInterruptStackFrame} {cr2 cr2' : U64}
    (same : reportText frame cr2 = reportText frame' cr2') :
    ReportedAlike frame cr2 frame' cr2' := by
  unfold reportText at same
  obtain ⟨vectors, codes, rest⟩ := headText_inj same
  have faultFormats : (faultLines frame cr2).map Prod.fst =
      (faultLines frame' cr2').map Prod.fst := by
    rw [faultLines, faultLines, vectors]
    split <;> rfl
  obtain ⟨faults, rest⟩ := linesText_inj faultFormats rest
  obtain ⟨generals, rest⟩ := linesText_inj
    (show (generalLines frame).map Prod.fst = (generalLines frame').map Prod.fst from rfl) rest
  rw [List.append_cancel_left_eq] at rest
  obtain ⟨returns, rest⟩ := linesText_inj
    (show (returnLines frame).map Prod.fst = (returnLines frame').map Prod.fst from rfl) rest
  simp only [generalLines, List.cons.injEq, Prod.mk.injEq, true_and, and_true] at generals
  simp only [returnLines, List.cons.injEq, Prod.mk.injEq, true_and, and_true] at returns
  have stackFormats : (stackLines frame).map Prod.fst = (stackLines frame').map Prod.fst := by
    rw [stackLines, stackLines, returns.2.1]
    split <;> rfl
  obtain ⟨tails, _⟩ := linesText_inj stackFormats rest
  refine ⟨?_, ?_, ?_⟩
  · simp only [SystemIdtInterruptStackFrame.mk.injEq]
    simp only [vectors, codes, generals, returns, and_self]
  · intro other
    have other' := other
    rw [returns.2.1] at other'
    rw [stackLines, stackLines, if_pos other, if_pos other'] at tails
    simpa using tails
  · intro isFault
    have isFault' := isFault
    rw [vectors] at isFault'
    rw [faultLines, faultLines, if_pos isFault, if_pos isFault'] at faults
    simpa using faults

theorem systemIdtInterruptHandler_recorded (frame : SystemIdtInterruptStackFrame) (cr2 : U64) :
    systemIdtInterruptHandler recorder frame cr2 [] = .ok (reportText frame cr2) := by
  obtain ⟨_, ran, rfl⟩ :=
    systemIdtInterruptHandler_shows recorder_shows frame cr2 (rfl : [] = [])
  rw [ran, List.nil_append]

/-- Every interrupt ends in a report, and the report tells the interrupted state. -/
theorem crash_report_tells_state :
    (∀ frame cr2, ∃ text, systemIdtInterruptHandler recorder frame cr2 [] = .ok text) ∧
    ∀ frame cr2 frame' cr2', systemIdtInterruptHandler recorder frame cr2 [] =
      systemIdtInterruptHandler recorder frame' cr2' [] → ReportedAlike frame cr2 frame' cr2' := by
  refine ⟨fun frame cr2 => ⟨_, systemIdtInterruptHandler_recorded frame cr2⟩, ?_⟩
  intro frame cr2 frame' cr2' same
  rw [systemIdtInterruptHandler_recorded, systemIdtInterruptHandler_recorded,
    Except.ok.injEq] at same
  exact reportText_inj same

def sampleFrame (rsp : U64) : SystemIdtInterruptStackFrame where
  r15 := 15
  r14 := 14
  r13 := 13
  r12 := 12
  r11 := 11
  r10 := 10
  r9 := 9
  r8 := 8
  rbp := 7
  rdi := 6
  rsi := 5
  rdx := 4
  rcx := 3
  rbx := 2
  rax := 1
  vector := 14
  errorCode := 2
  rip := 0x401000
  cs := 8
  rflags := 0x246
  rsp := rsp
  ss := 0x10

theorem crash_report_tells_state_sample :
    ReportedAlike (sampleFrame 0x7000) 0x1234 (sampleFrame 0x8000) 0x1234 := by
  apply crash_report_tells_state.2
  rw [systemIdtInterruptHandler_recorded, systemIdtInterruptHandler_recorded]
  rfl

end Drastic
