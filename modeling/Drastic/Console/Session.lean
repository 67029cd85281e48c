import Drastic.Console.Serial
import Drastic.Text.Shows

namespace Drastic

open Library (Uart)
open Library.Uart (Schedule Lively Talkative Waits)

variable {schedule : Schedule} {port : U16} {fuel patience : Nat} {u : Uart}

theorem PortReady.settle (ready : PortReady schedule patience fuel u) :
    PortReady schedule patience fuel (u.settle schedule) ∧
      Transferred u [] [] (u.settle schedule) := by
  obtain ⟨output, shorter, _⟩ := Library.Uart.settle_output schedule ready.connected.loopback
  refine ⟨⟨ready.connected.settle schedule, shorter.trans ready.fits, ready.lively,
    ready.enough⟩, ?_, Library.Uart.settle_controls schedule u,
    Library.Uart.settle_receives schedule u⟩
  rw [output, List.append_nil]

theorem waitUntil_readable (port : U16) {turns : Nat} (ready : PortReady schedule patience fuel u)
    {next : Nat} (arrives : ∃ byte, .arrives byte ∈ schedule (u.clock + next))
    (enough : next < turns) :
    ∃ u', waitUntil (serialReadAvailable (uartPorts schedule port) port) turns u = .ok u' ∧
      u'.receiver ≠ [] ∧ PortReady schedule patience fuel u' ∧ Transferred u [] [] u' := by
  induction turns generalizing u next with
  | zero => exact absurd enough (Nat.not_lt_zero _)
  | succ turns ih =>
      obtain ⟨ready', settled⟩ := ready.settle
      rw [waitUntil, serialReadAvailable_uart]
      cases empty : (u.settle schedule).receiver.isEmpty with
      | false => exact ⟨_, rfl, by simpa [List.isEmpty_iff] using empty, ready', settled⟩
      | true =>
          cases next with
          | zero =>
              have some := Library.Uart.settle_receiver schedule ready.connected.loopback
                (Or.inr arrives)
              exact absurd (List.isEmpty_iff.mp empty) some
          | succ next =>
              have later : ∃ byte, .arrives byte ∈
                  schedule ((u.settle schedule).clock + next) := by
                rw [Library.Uart.settle_clock, Nat.add_right_comm]
                exact arrives
              obtain ⟨u', waited, some, ready'', transferred⟩ := ih ready' later (by omega)
              exact ⟨u', waited, some, ready'', settled.trans transferred⟩

theorem PortReady.waitByte (port : U16) (ready : PortReady schedule patience fuel u)
    (talkative : Talkative patience schedule) :
    ∃ u', waitUntil (serialReadAvailable (uartPorts schedule port) port) fuel u = .ok u' ∧
      u'.receiver ≠ [] ∧ PortReady schedule patience fuel u' ∧ Transferred u [] [] u' := by
  obtain ⟨next, soon, arrives⟩ := talkative u.clock
  have enough := ready.enough
  rw [Nat.succ_mul] at enough
  exact waitUntil_readable port ready arrives (by omega)

theorem inb_takes (port : U16) (ready : PortReady schedule patience fuel u)
    (some : u.receiver ≠ []) :
    ∃ byte u', (uartPorts schedule port).inb port u = (byte, u') ∧
      PortReady schedule patience fuel u' ∧ Transferred u [] [byte] u' := by
  obtain ⟨ready', settled⟩ := ready.settle
  have stays := Library.Uart.settle_receiver schedule ready.connected.loopback (Or.inl some)
  obtain ⟨byte, rest, waiting⟩ := List.exists_cons_of_ne_nil stays
  refine ⟨byte, { u.settle schedule with receiver := rest }, ?_, ?_, ?_⟩
  · rw [uartPorts_inb_base, Library.Uart.inb, Library.Uart.readRegister,
      ready'.connected.latch, if_neg (by simp), waiting]
  · exact ⟨⟨ready'.connected.latch, ready'.connected.loopback⟩, ready'.fits, ready'.lively,
      ready'.enough⟩
  · exact settled.trans ⟨(List.append_nil _).symm, rfl, Library.Uart.receives_head waiting⟩

theorem serialReadBlocking_takes (port : U16) (ready : PortReady schedule patience fuel u)
    (talkative : Talkative patience schedule) :
    ∃ byte u', serialReadBlocking (uartPorts schedule port) fuel port u = .ok (byte, u') ∧
      PortReady schedule patience fuel u' ∧ Transferred u [] [byte] u' := by
  obtain ⟨u₁, waited, some, ready₁, before⟩ := ready.waitByte port talkative
  obtain ⟨byte, u', read, ready', took⟩ := inb_takes port ready₁ some
  refine ⟨byte, u', ?_, ready', before.trans took⟩
  rw [serialReadBlocking, waited, exec_bind_ok, read]
  rfl

theorem bytesSet_next (got room : List U8) (old byte : U8) :
    bytesSet (got ++ old :: room) ⟨0, (got ++ old :: room).length⟩ got.length byte =
      .ok (got ++ byte :: room) := by
  have inside : (decide (0 ≤ (got.length : Int)) &&
      decide ((got.length : Int) < ((got ++ old :: room).length : Int))) = true := by
    rw [Bool.and_eq_true, decide_eq_true_eq, decide_eq_true_eq, List.length_append,
      List.length_cons]
    omega
  rw [bytesSet, inside, kassert_true, exec_bind_ok, exec_pure]
  simp

theorem serialReadTurns_reads (port : U16) (ready : PortReady schedule patience fuel u)
    (got room : List U8) {turns : Nat} (enough : room.length < turns) :
    ∃ taken u', serialReadTurns (uartPorts schedule port) port turns got.length (got ++ room) u =
        .ok ((got ++ taken).length, got ++ taken ++ room.drop taken.length, u') ∧
      taken.length ≤ room.length ∧ (u.receiver ≠ [] → room ≠ [] → taken ≠ []) ∧
      PortReady schedule patience fuel u' ∧ Transferred u [] taken u' := by
  induction turns generalizing u got room with
  | zero => exact absurd enough (Nat.not_lt_zero _)
  | succ turns ih =>
      obtain ⟨ready', settled⟩ := ready.settle
      rw [serialReadTurns, serialReadAvailable_uart]
      cases room with
      | nil =>
          refine ⟨[], u.settle schedule, ?_, by simp, by simp, ready', settled⟩
          have full : ¬ ((got.length : Int) < ((got ++ []).length : Int)) := by simp
          simp only [full, decide_false, Bool.and_false, Bool.false_eq_true, if_false]
          simp
      | cons old room =>
          have space : ((got.length : Int) < ((got ++ old :: room).length : Int)) := by
            rw [List.length_append, List.length_cons]
            omega
          cases empty : (u.settle schedule).receiver.isEmpty with
          | true =>
              refine ⟨[], u.settle schedule, ?_, by simp, ?_, ready', settled⟩
              · simp
              · intro some
                exact absurd (List.isEmpty_iff.mp empty)
                  (Library.Uart.settle_receiver schedule ready.connected.loopback (Or.inl some))
          | false =>
              have some : (u.settle schedule).receiver ≠ [] := by
                simpa [List.isEmpty_iff] using empty
              obtain ⟨byte, u₁, read, ready₁, took⟩ := inb_takes port ready' some
              obtain ⟨taken, u', rest, fits, _, ready'', transferred⟩ :=
                ih ready₁ (got ++ [byte]) room (by simpa using enough)
              refine ⟨byte :: taken, u', ?_, by simpa using fits, by simp, ready'',
                (settled.trans took).trans transferred⟩
              simp only [space, decide_true, Bool.not_false, Bool.and_self, if_true, read,
                bytesSet_next, exec_bind_ok]
              have position : ((got ++ [byte]).length : Int) = (got.length : Int) + 1 := by simp
              have shape : got ++ [byte] ++ room = got ++ byte :: room := by simp
              rw [position, shape] at rest
              rw [rest]
              simp

/-- The operations with their buffers; the result is what the reads put into theirs. -/
def serialSession {σ : Type} (ports : Ports σ) (fuel : Nat) (port : U16) :
    List (StreamOperation × List U8) → σ → Exec (List U8 × σ)
  | [], s => .ok ([], s)
  | (op, buffer) :: rest, s => do
    let (n, buffer, s) ← serialStreamFunc ports fuel port buffer s op
    let (later, s) ← serialSession ports fuel port rest s
    return ((if op = .read then buffer.take n.toNat else []) ++ later, s)

def writtenBytes (operations : List (StreamOperation × List U8)) : List U8 :=
  (operations.filter fun operation => operation.1 = .write).flatMap Prod.snd

theorem writtenBytes_cons (operation : StreamOperation × List U8)
    (rest : List (StreamOperation × List U8)) :
    writtenBytes (operation :: rest) = writtenBytes [operation] ++ writtenBytes rest := by
  rw [writtenBytes, writtenBytes, writtenBytes, ← List.flatMap_append, ← List.filter_append,
    List.singleton_append]

theorem serialStreamFunc_transfers (port : U16) (ready : PortReady schedule patience fuel u)
    (talkative : Talkative patience schedule) (op : StreamOperation) (buffer : List U8) :
    ∃ n after u', serialStreamFunc (uartPorts schedule port) fuel port buffer u op =
        .ok (n, after, u') ∧ PortReady schedule patience fuel u' ∧
      Transferred u (writtenBytes [(op, buffer)])
        (if op = .read then after.take n.toNat else []) u' ∧
      (op = .read → buffer ≠ [] → 0 < n) := by
  cases op with
  | query => exact ⟨_, _, u, rfl, ready, .refl u, by simp⟩
  | write =>
      obtain ⟨u', wrote, ready', transferred⟩ :=
        serialWriteBytes_sends port ready buffer
      refine ⟨_, _, u', by rw [serialStreamFunc, wrote]; rfl, ready', ?_, by simp⟩
      simpa [writtenBytes] using transferred
  | read =>
      obtain ⟨u₁, waited, some, ready₁, before⟩ := ready.waitByte port talkative
      obtain ⟨taken, u', read, _, positive, ready', transferred⟩ :=
        serialReadTurns_reads port ready₁ [] buffer (Nat.lt_succ_self _)
      refine ⟨([] ++ taken).length, [] ++ taken ++ buffer.drop taken.length, u', ?_, ready', ?_,
        ?_⟩
      · rw [serialStreamFunc, waited, exec_bind_ok]
        exact read
      · have both := before.trans transferred
        simpa [writtenBytes] using both
      · intro _ room
        have some' := List.length_pos_of_ne_nil (positive some room)
        simp only [List.nil_append]
        omega

/-- However the accesses of the operations interleave with what the line does, the line gets
what was written and the reads get what the receiver took in, in order: nothing of it is lost or
doubled. A byte that finds the receiver full is dropped when it arrives. -/
theorem serial_session_transfers (ready : PortReady schedule patience fuel u)
    (talkative : Talkative patience schedule) (port : U16)
    (operations : List (StreamOperation × List U8)) :
    ∃ taken u', serialSession (uartPorts schedule port) fuel port operations u = .ok (taken, u') ∧
      PortReady schedule patience fuel u' ∧
      Transferred u (writtenBytes operations) taken u' := by
  induction operations generalizing u with
  | nil => exact ⟨[], u, rfl, ready, .refl u⟩
  | cons operation rest ih =>
      obtain ⟨op, buffer⟩ := operation
      obtain ⟨n, after, u₁, run, ready₁, first, _⟩ :=
        serialStreamFunc_transfers port ready talkative op buffer
      obtain ⟨taken, u', later, ready', second⟩ := ih ready₁
      refine ⟨(if op = .read then after.take n.toNat else []) ++ taken, u', ?_, ready', ?_⟩
      · simp only [serialSession, run, exec_bind_ok, later, exec_pure]
      · rw [writtenBytes_cons]
        exact first.trans second

def echoingLine : Schedule := fun _ => [.shifts, .arrives 0x2A#8]

theorem serial_session_transfers_sample : ∃ taken u',
    serialSession (uartPorts echoingLine serialCom1) 17 serialCom1
      [(.write, str "hi"), (.read, [0#8, 0#8]), (.query, []), (.write, str "!")] resetUart =
        .ok (taken, u') ∧
      Transferred resetUart (str "hi!") taken u' := by
  have ready : PortReady echoingLine 1 17 resetUart :=
    ⟨⟨rfl, rfl⟩, by decide, fun _ => ⟨0, by decide, by simp [echoingLine]⟩, by decide⟩
  obtain ⟨taken, u', ran, _, transferred⟩ := serial_session_transfers ready
    (fun _ => ⟨0, by decide, 0x2A#8, by simp [echoingLine]⟩) serialCom1
    [(.write, str "hi"), (.read, [0#8, 0#8]), (.query, []), (.write, str "!")]
  exact ⟨taken, u', ran, transferred⟩

def ShownSince (schedule : Schedule) (patience fuel : Nat) (start : Uart) (state : Exec Uart)
    (text : List U8) : Prop :=
  ∃ u, state = .ok u ∧ PortReady schedule patience fuel u ∧ Transferred start text [] u

theorem serialStreamMake_shows (schedule : Schedule) (patience fuel : Nat) (port : U16)
    (start : Uart) :
    Tells (serialStreamMake (uartPorts schedule port) fuel port)
      (ShownSince schedule patience fuel start) := by
  rintro bytes _ text ⟨u, rfl, ready, transferred⟩
  obtain ⟨u', wrote, ready', more⟩ := serialWriteBytes_sends port ready bytes
  refine ⟨u', ?_, ready', transferred.trans more⟩
  simp only [streamWrite, serialStreamMake, exec_bind_ok, serialStreamFunc, wrote, exec_pure]

theorem serialInit_shows_nothing {u₀ : Uart} (lively : Lively patience schedule)
    (enough : (Library.Uart.capacity + 1) * patience ≤ fuel)
    (works : serialInit (uartPorts schedule port) port u = (true, u₀)) :
    ShownSince schedule patience fuel u₀ (.ok u₀) [] := by
  have initialised := (serialInit_spec schedule port u).2
  rw [works] at initialised
  exact ⟨u₀, rfl, initialised.ready lively enough, .refl u₀⟩

/-- After `serial_init` answered that the port works, every text that `vformat` writes leaves
the port behind what left it before, byte for byte, however slow the line is. -/
theorem console_shows_formatted_text (lively : Lively patience schedule)
    (enough : (Library.Uart.capacity + 1) * patience ≤ fuel) (port : U16) (u u₀ : Uart)
    (works : serialInit (uartPorts schedule port) port u = (true, u₀)) (format : List U8)
    (args : List VaArg) (text : List U8)
    (formatted : vformat recorder format args [] = .ok text) :
    ∃ u', vformat (serialStreamMake (uartPorts schedule port) fuel port) format args (.ok u₀) =
        .ok (.ok u') ∧
      u'.output = u₀.output ++ text ∧ u'.toUartControls = u₀.toUartControls := by
  have start := serialInit_shows_nothing lively enough works
  obtain ⟨_, wrote, u', rfl, _, transferred⟩ :=
    vformat_shows (serialStreamMake_shows schedule patience fuel port u₀) start formatted
  exact ⟨u', wrote, transferred.output, transferred.controls⟩

theorem console_shows_formatted_text_sample : ∃ u₀ u',
    serialInit (uartPorts takingLine serialCom1) serialCom1 resetUart = (true, u₀) ∧
    vformat (serialStreamMake (uartPorts takingLine serialCom1) 17 serialCom1) (str "Hi %i")
      [.signed (-44)] (.ok u₀) = .ok (.ok u') ∧
    u'.output = u₀.output ++ str "Hi -44" := by
  obtain ⟨u', wrote, output, _⟩ := console_shows_formatted_text
    takingLine_lively (show (Library.Uart.capacity + 1) * 1 ≤ 17 by decide) serialCom1 resetUart _
    takingLine_works (str "Hi %i") [.signed (-44)] (str "Hi -44") (by decide)
  exact ⟨_, u', takingLine_works, wrote, output⟩

end Drastic
