import Mathlib.Data.BitVec
import Mathlib.Data.List.Basic
import Mathlib.Tactic.Common

namespace Library

/-! A serial port of the 16550 kind, between a processor that reads and writes its registers
and a line that takes its bytes and brings others at times of its own. -/

abbrev Byte := BitVec 8

/-- What the line does between two accesses of the processor. -/
inductive LineEvent where
  | arrives (byte : Byte)
  | shifts
  deriving DecidableEq, Repr

/-- The registers that keep what the processor wrote to them. -/
structure UartControls where
  interruptEnable : Byte
  lineControl : Byte
  modemControl : Byte
  fifoControl : Byte
  divisorLow : Byte
  divisorHigh : Byte
  deriving DecidableEq, Repr

/-- `line` are the bytes that left, `arrived` those that reached the receiver, `clock` counts the
accesses. -/
structure Uart extends UartControls where
  receiver : List Byte
  transmitter : List Byte
  line : List Byte
  arrived : List Byte
  clock : Nat
  deriving DecidableEq, Repr

namespace Uart

def capacity : Nat := 16

def latch (u : Uart) : Bool := u.lineControl.getLsbD 7

def loopback (u : Uart) : Bool := u.modemControl.getLsbD 4

/-- A byte that finds the receiver full is lost. -/
def receive (u : Uart) (byte : Byte) : Uart :=
  if u.receiver.length < capacity then
    { u with receiver := u.receiver ++ [byte], arrived := u.arrived ++ [byte] }
  else u

def send (u : Uart) (byte : Byte) : Uart :=
  if u.transmitter.length < capacity then { u with transmitter := u.transmitter ++ [byte] } else u

/-- In loopback the line is cut off, and the transmitter feeds the receiver. -/
def event (u : Uart) : LineEvent → Uart
  | .arrives byte => if u.loopback then u else u.receive byte
  | .shifts =>
    match u.transmitter with
    | [] => u
    | byte :: rest =>
      let u := { u with transmitter := rest }
      if u.loopback then u.receive byte else { u with line := u.line ++ [byte] }

abbrev Schedule := Nat → List LineEvent

def settle (schedule : Schedule) (u : Uart) : Uart :=
  { (schedule u.clock).foldl event u with clock := u.clock + 1 }

/-- Bit 0: a byte can be read. Bits 5 and 6: the transmitter is empty. -/
def lineStatus (u : Uart) : Byte :=
  (if u.receiver.isEmpty then 0#8 else 0x01#8) ||| if u.transmitter.isEmpty then 0x60#8 else 0#8

/-- Registers that are not described here read as zero. -/
def readRegister (u : Uart) : Nat → Byte × Uart
  | 0 =>
    if u.latch then (u.divisorLow, u)
    else match u.receiver with
      | [] => (0#8, u)
      | byte :: rest => (byte, { u with receiver := rest })
  | 1 => (if u.latch then u.divisorHigh else u.interruptEnable, u)
  | 3 => (u.lineControl, u)
  | 4 => (u.modemControl, u)
  | 5 => (u.lineStatus, u)
  | _ => (0#8, u)

/-- Bits 1 and 2 of the FIFO control clear the receiver and the transmitter. -/
def writeRegister (u : Uart) : Nat → Byte → Uart
  | 0, data => if u.latch then { u with divisorLow := data } else u.send data
  | 1, data =>
    if u.latch then { u with divisorHigh := data } else { u with interruptEnable := data }
  | 2, data =>
    { u with
      fifoControl := data
      receiver := if data.getLsbD 1 then [] else u.receiver
      transmitter := if data.getLsbD 2 then [] else u.transmitter }
  | 3, data => { u with lineControl := data }
  | 4, data => { u with modemControl := data }
  | _, _ => u

def inb (schedule : Schedule) (register : Nat) (u : Uart) : Byte × Uart :=
  (u.settle schedule).readRegister register

def outb (schedule : Schedule) (register : Nat) (data : Byte) (u : Uart) : Uart :=
  (u.settle schedule).writeRegister register data

/-- The line takes a byte at least once in `patience` accesses. -/
def Lively (patience : Nat) (schedule : Schedule) : Prop :=
  ∀ n, ∃ k < patience, LineEvent.shifts ∈ schedule (n + k)

/-- The line brings a byte at least once in `patience` accesses. -/
def Talkative (patience : Nat) (schedule : Schedule) : Prop :=
  ∀ n, ∃ k < patience, ∃ byte, LineEvent.arrives byte ∈ schedule (n + k)

@[simp] theorem receive_controls (u : Uart) (byte : Byte) :
    (u.receive byte).toUartControls = u.toUartControls := by
  unfold receive
  split <;> rfl

theorem event_controls (u : Uart) (e : LineEvent) :
    (u.event e).toUartControls = u.toUartControls := by
  cases e with
  | arrives byte =>
      rw [event]
      split
      · rfl
      · exact receive_controls u byte
  | shifts =>
      rw [event]
      cases u.transmitter with
      | nil => rfl
      | cons byte rest =>
          simp only
          split
          · exact receive_controls _ byte
          · rfl

theorem events_controls (events : List LineEvent) (u : Uart) :
    (events.foldl event u).toUartControls = u.toUartControls := by
  induction events generalizing u with
  | nil => rfl
  | cons e rest ih => exact (ih _).trans (event_controls u e)

@[simp] theorem settle_controls (schedule : Schedule) (u : Uart) :
    (u.settle schedule).toUartControls = u.toUartControls :=
  events_controls (schedule u.clock) u

theorem latch_of_controls {u u' : Uart} (same : u'.toUartControls = u.toUartControls) :
    u'.latch = u.latch := by
  rw [latch, latch, same]

theorem loopback_of_controls {u u' : Uart} (same : u'.toUartControls = u.toUartControls) :
    u'.loopback = u.loopback := by
  rw [loopback, loopback, same]

@[simp] theorem settle_latch (schedule : Schedule) (u : Uart) :
    (u.settle schedule).latch = u.latch :=
  latch_of_controls (settle_controls schedule u)

@[simp] theorem settle_loopback (schedule : Schedule) (u : Uart) :
    (u.settle schedule).loopback = u.loopback :=
  loopback_of_controls (settle_controls schedule u)

@[simp] theorem settle_clock (schedule : Schedule) (u : Uart) :
    (u.settle schedule).clock = u.clock + 1 := rfl

@[simp] theorem outb_clock (schedule : Schedule) (register : Nat) (data : Byte) (u : Uart) :
    (u.outb schedule register data).clock = u.clock + 1 := by
  rw [outb, ← settle_clock schedule u]
  generalize u.settle schedule = u'
  unfold writeRegister send
  split
  · split
    · rfl
    · split <;> rfl
  · split <;> rfl
  · rfl
  · rfl
  · rfl
  · rfl

theorem outb_lineControl (schedule : Schedule) (u : Uart) (data : Byte) :
    (u.outb schedule 3 data).toUartControls = { u.toUartControls with lineControl := data } := by
  rw [← settle_controls schedule u]
  rfl

theorem outb_modemControl (schedule : Schedule) (u : Uart) (data : Byte) :
    (u.outb schedule 4 data).toUartControls = { u.toUartControls with modemControl := data } := by
  rw [← settle_controls schedule u]
  rfl

theorem outb_fifoControl (schedule : Schedule) (u : Uart) (data : Byte) :
    (u.outb schedule 2 data).toUartControls = { u.toUartControls with fifoControl := data } := by
  rw [← settle_controls schedule u]
  rfl

theorem outb_divisorLow (schedule : Schedule) {u : Uart} (latched : u.latch = true)
    (data : Byte) :
    (u.outb schedule 0 data).toUartControls = { u.toUartControls with divisorLow := data } := by
  rw [← settle_controls schedule u, outb, writeRegister, settle_latch, latched, if_pos rfl]

theorem outb_interruptEnable (schedule : Schedule) (u : Uart) (data : Byte) :
    (u.outb schedule 1 data).toUartControls =
      if u.latch then { u.toUartControls with divisorHigh := data }
      else { u.toUartControls with interruptEnable := data } := by
  rw [← settle_controls schedule u, outb, writeRegister, settle_latch]
  split <;> rfl

/-- What has left, and what will. -/
def output (u : Uart) : List Byte := u.line ++ u.transmitter

theorem receive_output (u : Uart) (byte : Byte) : (u.receive byte).output = u.output ∧
    (u.receive byte).transmitter = u.transmitter := by
  unfold receive
  split
  · exact ⟨rfl, rfl⟩
  · exact ⟨rfl, rfl⟩

theorem event_output {u : Uart} (connected : u.loopback = false) (e : LineEvent) :
    (u.event e).output = u.output ∧
      (u.event e).transmitter = if e = .shifts then u.transmitter.tail else u.transmitter := by
  cases e with
  | arrives byte =>
      rw [event, connected, if_neg (by simp), if_neg (by simp)]
      exact receive_output u byte
  | shifts =>
      rw [event, if_pos rfl]
      cases sent : u.transmitter with
      | nil => exact ⟨rfl, by rw [sent]; rfl⟩
      | cons byte rest =>
          have cut : ({ u with transmitter := rest } : Uart).loopback = false := connected
          simp only [cut, Bool.false_eq_true, if_false, output, sent, List.tail_cons,
            List.append_assoc, List.singleton_append, and_self]

theorem events_output (events : List LineEvent) {u : Uart} (connected : u.loopback = false) :
    (events.foldl event u).output = u.output ∧
      (events.foldl event u).transmitter.length ≤ u.transmitter.length ∧
      (.shifts ∈ events →
        (events.foldl event u).transmitter.length ≤ u.transmitter.length - 1) := by
  induction events generalizing u with
  | nil => simp
  | cons e rest ih =>
      have still : (u.event e).loopback = false :=
        (loopback_of_controls (event_controls u e)).trans connected
      obtain ⟨same, shorter⟩ := event_output connected e
      obtain ⟨sameRest, notLonger, shifted⟩ := ih still
      rw [List.foldl_cons]
      refine ⟨sameRest.trans same, ?_, ?_⟩
      · rw [shorter] at notLonger
        split at notLonger
        · rw [List.length_tail] at notLonger
          omega
        · exact notLonger
      · intro member
        rcases List.mem_cons.mp member with rfl | later
        · rw [if_pos rfl] at shorter
          rw [shorter, List.length_tail] at notLonger
          exact notLonger
        · have fewer := shifted later
          rw [shorter] at fewer
          split at fewer
          · rw [List.length_tail] at fewer
            omega
          · exact fewer

theorem settle_output (schedule : Schedule) {u : Uart} (connected : u.loopback = false) :
    (u.settle schedule).output = u.output ∧
      (u.settle schedule).transmitter.length ≤ u.transmitter.length ∧
      (.shifts ∈ schedule u.clock →
        (u.settle schedule).transmitter.length ≤ u.transmitter.length - 1) :=
  events_output (schedule u.clock) connected

def Waits (read : List Byte) (u : Uart) : Prop := u.arrived = read ++ u.receiver

/-- Between the two states bytes may arrive, and `taken` are read. -/
def Receives (u : Uart) (taken : List Byte) (u' : Uart) : Prop :=
  ∀ read, u.Waits read → u'.Waits (read ++ taken) ∧ u.arrived <+: u'.arrived

theorem Receives.refl (u : Uart) : Receives u [] u := by
  intro read waits
  rw [List.append_nil]
  exact ⟨waits, List.prefix_rfl⟩

theorem Receives.trans {u u' u'' : Uart} {taken taken' : List Byte} (first : Receives u taken u')
    (second : Receives u' taken' u'') : Receives u (taken ++ taken') u'' := by
  intro read waits
  obtain ⟨between, grown⟩ := first read waits
  obtain ⟨after, grownLater⟩ := second _ between
  rw [← List.append_assoc]
  exact ⟨after, grown.trans grownLater⟩

theorem Waits.received {read : List Byte} {u : Uart} (waits : u.Waits read) (byte : Byte) :
    (u.receive byte).Waits read ∧ u.arrived <+: (u.receive byte).arrived := by
  unfold receive
  split
  · refine ⟨?_, List.prefix_append ..⟩
    rw [Waits] at waits ⊢
    simp only [waits, List.append_assoc]
  · exact ⟨waits, List.prefix_rfl⟩

theorem Waits.event {read : List Byte} {u : Uart} (waits : u.Waits read) (e : LineEvent) :
    (u.event e).Waits read ∧ u.arrived <+: (u.event e).arrived := by
  cases e with
  | arrives byte =>
      rw [Uart.event]
      split
      · exact ⟨waits, List.prefix_rfl⟩
      · exact waits.received byte
  | shifts =>
      rw [Uart.event]
      cases u.transmitter with
      | nil => exact ⟨waits, List.prefix_rfl⟩
      | cons byte rest =>
          simp only
          split
          · exact Waits.received (u := { u with transmitter := rest }) waits byte
          · exact ⟨waits, List.prefix_rfl⟩

theorem Waits.events {read : List Byte} (events : List LineEvent) {u : Uart}
    (waits : u.Waits read) : (events.foldl Uart.event u).Waits read ∧
      u.arrived <+: (events.foldl Uart.event u).arrived := by
  induction events generalizing u with
  | nil => exact ⟨waits, List.prefix_rfl⟩
  | cons e rest ih =>
      obtain ⟨now, grown⟩ := waits.event e
      obtain ⟨later, grownLater⟩ := ih now
      exact ⟨later, grown.trans grownLater⟩

theorem settle_receives (schedule : Schedule) (u : Uart) : Receives u [] (u.settle schedule) := by
  intro read waits
  rw [List.append_nil]
  exact waits.events (schedule u.clock)

theorem receives_head {u : Uart} {byte : Byte} {rest : List Byte}
    (waiting : u.receiver = byte :: rest) :
    Receives u [byte] { u with receiver := rest } := by
  intro read waits
  rw [Waits, waiting] at waits
  refine ⟨?_, List.prefix_rfl⟩
  rw [Waits, waits, List.append_assoc, List.singleton_append]

theorem event_receiver {u : Uart} (connected : u.loopback = false) (e : LineEvent) :
    (u.receiver ≠ [] ∨ ∃ byte, e = .arrives byte) → (u.event e).receiver ≠ [] := by
  cases e with
  | shifts =>
      rw [event]
      cases u.transmitter with
      | nil => simp
      | cons byte rest =>
          have cut : ({ u with transmitter := rest } : Uart).loopback = false := connected
          simp [cut]
  | arrives byte =>
      intro _
      rw [event, connected, if_neg (by simp), receive]
      split
      case isTrue => simp
      case isFalse full =>
        intro none
        simp [none, capacity] at full

theorem settle_receiver (schedule : Schedule) {u : Uart} (connected : u.loopback = false)
    (some : u.receiver ≠ [] ∨ ∃ byte, .arrives byte ∈ schedule u.clock) :
    (u.settle schedule).receiver ≠ [] := by
  have events (list : List LineEvent) (u : Uart) (connected : u.loopback = false)
      (some : u.receiver ≠ [] ∨ ∃ byte, .arrives byte ∈ list) :
      (list.foldl event u).receiver ≠ [] := by
    induction list generalizing u with
    | nil => simpa using some
    | cons e rest ih =>
        apply ih _ ((loopback_of_controls (event_controls u e)).trans connected)
        rcases some with waiting | ⟨byte, member⟩
        · exact Or.inl (event_receiver connected e (Or.inl waiting))
        · rcases List.mem_cons.mp member with rfl | later
          · exact Or.inl (event_receiver connected _ (Or.inr ⟨byte, rfl⟩))
          · exact Or.inr ⟨byte, later⟩
  exact events (schedule u.clock) u connected some

def arrivals (events : List LineEvent) : List Byte :=
  events.filterMap fun
    | .arrives byte => some byte
    | .shifts => none

/-- How far the transmitter was emptied; in loopback its bytes do not get to the line. -/
def Drained (u u' : Uart) : Prop :=
  ∃ n, u'.transmitter = u.transmitter.drop n ∧
    u'.line = u.line ++ if u.loopback then [] else u.transmitter.take n

theorem Drained.trans {u u' u'' : Uart} (first : Drained u u') (second : Drained u' u'')
    (same : u'.loopback = u.loopback) : Drained u u'' := by
  obtain ⟨n, kept, left⟩ := first
  obtain ⟨m, kept', left'⟩ := second
  refine ⟨n + m, by rw [kept', kept, List.drop_drop], ?_⟩
  rw [left', left, same, kept]
  cases u.loopback with
  | true => simp
  | false => simp [List.take_add]

theorem receive_drained (u : Uart) (byte : Byte) : Drained u (u.receive byte) := by
  refine ⟨0, ?_⟩
  unfold receive
  split <;> simp

theorem event_drained (u : Uart) (e : LineEvent) : Drained u (u.event e) := by
  cases e with
  | arrives byte =>
      rw [event]
      split
      · exact ⟨0, by simp⟩
      · exact receive_drained u byte
  | shifts =>
      rw [event]
      cases sent : u.transmitter with
      | nil => exact ⟨0, by simp [sent]⟩
      | cons byte rest =>
          have connection : ({ u with transmitter := rest } : Uart).loopback = u.loopback := rfl
          simp only [connection]
          refine ⟨1, ?_⟩
          cases u.loopback with
          | false => simp [sent]
          | true =>
              simp only [if_true, receive]
              split <;> simp [sent]

theorem settle_drained (schedule : Schedule) (u : Uart) : Drained u (u.settle schedule) := by
  have events (list : List LineEvent) (u : Uart) : Drained u (list.foldl event u) := by
    induction list generalizing u with
    | nil => exact ⟨0, by simp⟩
    | cons e rest ih =>
        exact (event_drained u e).trans (ih _) (loopback_of_controls (event_controls u e))
  exact events (schedule u.clock) u

theorem writeRegister_control {u : Uart} {register : Nat} (notData : register ≠ 0 ∨ u.latch = true)
    (notFifo : register ≠ 2) (data : Byte) :
    (u.writeRegister register data).transmitter = u.transmitter ∧
      (u.writeRegister register data).line = u.line := by
  unfold writeRegister
  split
  · simp only [ne_eq, not_true_eq_false, false_or] at notData
    simp [notData]
  · split <;> exact ⟨rfl, rfl⟩
  · exact absurd rfl notFifo
  · exact ⟨rfl, rfl⟩
  · exact ⟨rfl, rfl⟩
  · exact ⟨rfl, rfl⟩

theorem outb_drained (schedule : Schedule) (u : Uart) (register : Nat)
    (notData : register ≠ 0 ∨ u.latch = true) (notFifo : register ≠ 2) (data : Byte) :
    Drained u (u.outb schedule register data) := by
  rw [← settle_latch schedule u] at notData
  obtain ⟨kept, line⟩ := writeRegister_control notData notFifo data
  obtain ⟨n, kept', line'⟩ := settle_drained schedule u
  exact ⟨n, kept.trans kept', line.trans line'⟩

theorem Drained.outb {u u' : Uart} (drained : Drained u u')
    (modem : u'.modemControl = u.modemControl) (schedule : Schedule) (register : Nat)
    (notData : register ≠ 0 ∨ u'.latch = true) (notFifo : register ≠ 2) (data : Byte) :
    Drained u (u'.outb schedule register data) :=
  drained.trans (outb_drained schedule u' register notData notFifo data)
    (by rw [loopback, loopback, modem])

theorem receive_head (u : Uart) (byte : Byte) :
    (u.receive byte).receiver.head? = (u.receiver ++ [byte]).head? := by
  unfold receive
  split
  · rfl
  case isFalse full =>
    cases waiting : u.receiver with
    | nil => simp [waiting, capacity] at full
    | cons first rest => rfl

theorem settle_idle (schedule : Schedule) {u : Uart} (idle : u.transmitter = []) :
    (u.settle schedule).transmitter = [] ∧ (u.settle schedule).line = u.line ∧
      (u.settle schedule).receiver.head? =
        (u.receiver ++ if u.loopback then [] else arrivals (schedule u.clock)).head? := by
  have events (list : List LineEvent) (u : Uart) (idle : u.transmitter = []) :
      (list.foldl event u).transmitter = [] ∧ (list.foldl event u).line = u.line ∧
        (list.foldl event u).receiver.head? =
          (u.receiver ++ if u.loopback then [] else arrivals list).head? := by
    induction list generalizing u with
    | nil => cases u.loopback <;> simp [idle, arrivals]
    | cons e rest ih =>
        have same := loopback_of_controls (event_controls u e)
        rw [List.foldl_cons]
        cases e with
        | shifts =>
            have nothing : u.event .shifts = u := by rw [event, idle]
            rw [nothing]
            exact ih u idle
        | arrives byte =>
            cases connected : u.loopback with
            | true =>
                have nothing : u.event (.arrives byte) = u := by rw [event, connected, if_pos rfl]
                have later := ih u idle
                rw [connected, if_pos rfl] at later
                rw [nothing, if_pos rfl]
                exact later
            | false =>
                have taken : u.event (.arrives byte) = u.receive byte := by
                  rw [event, connected, if_neg (by simp)]
                rw [taken, connected] at same
                rw [taken]
                have unsent : (u.receive byte).transmitter = [] :=
                  (receive_output u byte).2.trans idle
                have line : (u.receive byte).line = u.line := by
                  unfold receive
                  split <;> rfl
                obtain ⟨noByte, sameLine, head⟩ := ih _ unsent
                refine ⟨noByte, sameLine.trans line, ?_⟩
                rw [head, same, if_neg (by simp), if_neg (by simp), List.head?_append,
                  receive_head, ← List.head?_append, List.append_assoc]
                rfl
  exact events (schedule u.clock) u idle

/-- A byte sent in loopback: it is received at the next shift, and the line does not see it. -/
theorem settle_loop (schedule : Schedule) {u : Uart} {byte : Byte} (sent : u.transmitter = [byte])
    (loops : u.loopback = true) :
    (u.settle schedule).line = u.line ∧ (u.settle schedule).receiver.head? =
      (u.receiver ++ if .shifts ∈ schedule u.clock then [byte] else []).head? := by
  have events (list : List LineEvent) :
      (list.foldl event u).line = u.line ∧ (list.foldl event u).receiver.head? =
        (u.receiver ++ if .shifts ∈ list then [byte] else []).head? := by
    induction list with
    | nil => simp
    | cons e rest ih =>
        rw [List.foldl_cons]
        cases e with
        | arrives other =>
            have nothing : u.event (.arrives other) = u := by rw [event, loops, if_pos rfl]
            simpa [nothing] using ih
        | shifts =>
            have looped : u.event .shifts = ({ u with transmitter := [] } : Uart).receive byte := by
              have connection : ({ u with transmitter := [] } : Uart).loopback = true := loops
              rw [event, sent]
              simp only [connection, if_true]
            have idle : (({ u with transmitter := [] } : Uart).receive byte).transmitter = [] :=
              (receive_output _ byte).2
            have still : (({ u with transmitter := [] } : Uart).receive byte).loopback = true :=
              (loopback_of_controls (receive_controls _ byte)).trans loops
            have line : (({ u with transmitter := [] } : Uart).receive byte).line = u.line := by
              unfold receive
              split <;> rfl
            have later := settle_idle (fun _ => rest) idle
            rw [still, if_pos rfl, List.append_nil, receive_head] at later
            rw [looped, if_pos (by simp)]
            exact ⟨later.2.1.trans line, later.2.2⟩
  exact events (schedule u.clock)

end Uart

end Library
