import Drastic.Library.Uart
import Drastic.Text.Bytes

namespace Drastic

open Library (Uart)
open Library.Uart (Schedule Lively Receives Drained arrivals settle_receives)

/-! `serial.c`. -/

def serialCom1 : U16 := 0x3F8#16

def serialPoReceiveBuffer : U16 := 0#16
def serialPoTransmitBuffer : U16 := 0#16
def serialPoInterruptEnableRegister : U16 := 1#16
def serialPoLeastDivisor : U16 := 0#16
def serialPoMostDivisor : U16 := 1#16
def serialPoFifoControlRegister : U16 := 2#16
def serialPoLineControlRegister : U16 := 3#16
def serialPoModemControlRegister : U16 := 4#16
def serialPoLineStatusRegister : U16 := 5#16

section

variable {σ : Type} (ports : Ports σ) (fuel : Nat) (port : U16)

def serialInit (s : σ) : Bool × σ :=
  let s := ports.outb (port + serialPoInterruptEnableRegister) 0x00#8 s
  let s := ports.outb (port + serialPoLineControlRegister) 0x80#8 s
  let s := ports.outb (port + serialPoLeastDivisor) 0x03#8 s
  let s := ports.outb (port + serialPoMostDivisor) 0x00#8 s
  let s := ports.outb (port + serialPoLineControlRegister) 0x03#8 s
  let s := ports.outb (port + serialPoFifoControlRegister) 0xC7#8 s
  let s := ports.outb (port + serialPoModemControlRegister) 0x0B#8 s
  let s := ports.outb (port + serialPoModemControlRegister) 0x1E#8 s
  let s := ports.outb (port + serialPoTransmitBuffer) 0xAE#8 s
  let (byte, s) := ports.inb (port + serialPoReceiveBuffer) s
  if byte ≠ 0xAE#8 then (false, s)
  else (true, ports.outb (port + serialPoModemControlRegister) 0x0F#8 s)

def serialReadAvailable (s : σ) : Bool × σ :=
  let (status, s) := ports.inb (port + serialPoLineStatusRegister) s
  (status &&& 0x01#8 ≠ 0#8, s)

def serialWriteAvailable (s : σ) : Bool × σ :=
  let (status, s) := ports.inb (port + serialPoLineStatusRegister) s
  (status &&& 0x20#8 ≠ 0#8, s)

/-- `while (!available(port));`. -/
def waitUntil (available : σ → Bool × σ) : Nat → σ → Exec σ
  | 0, _ => .error .recursionDepth
  | fuel + 1, s =>
    let (ready, s) := available s
    if ready then .ok s else waitUntil available fuel s

def serialReadBlocking (s : σ) : Exec (U8 × σ) := do
  let s ← waitUntil (serialReadAvailable ports port) fuel s
  return ports.inb port s

def serialWriteBlocking (data : U8) (s : σ) : Exec σ := do
  let s ← waitUntil (serialWriteAvailable ports port) fuel s
  return ports.outb port data s

/-- The turns left of the loop that both `serial_write_string` and `serial_write_bytes` are. -/
def serialWriteFrom (get : Int → Exec U8) : Nat → Int → σ → Exec σ
  | 0, _, s => .ok s
  | turns + 1, i, s => do
    let s ← serialWriteBlocking ports fuel port (← get i) s
    serialWriteFrom get turns (i + 1) s

def serialWriteString (string : List U8) (s : σ) : Exec σ :=
  serialWriteFrom ports fuel port (stringGet string) string.length 0 s

def serialWriteBytes (buffer : List U8) (s : σ) : Exec σ :=
  serialWriteFrom ports fuel port (bytesGet buffer) buffer.length 0 s

/-- The second loop of the read operation. At most as many turns are taken as the buffer has
room for. -/
def serialReadTurns : Nat → Int → List U8 → σ → Exec (Int × List U8 × σ)
  | 0, _, _, _ => .error .recursionDepth
  | turns + 1, n, buffer, s => do
    let (available, s) := serialReadAvailable ports port s
    if available && n < buffer.length then
      let (byte, s) := ports.inb port s
      let buffer ← bytesSet buffer ⟨0, buffer.length⟩ n byte
      serialReadTurns turns (n + 1) buffer s
    else return (n, buffer, s)

def streamCapWrite : Int := 1
def streamCapRead : Int := 2

def serialStreamFunc (buffer : List U8) (s : σ) : StreamOperation → Exec (Int × List U8 × σ)
  | .query => .ok (streamCapWrite + streamCapRead, buffer, s)
  | .write => do
    let s ← serialWriteBytes ports fuel port buffer s
    return (buffer.length, buffer, s)
  | .read => do
    let s ← waitUntil (serialReadAvailable ports port) fuel s
    serialReadTurns ports port (buffer.length + 1) 0 buffer s

/-- A stream on a port; after a loop that outlived its bound there is no state left. -/
def serialStreamMake : Stream (Exec σ) where
  func op bytes state :=
    match (do serialStreamFunc ports fuel port bytes (← state) op) with
    | .ok (n, _, s) => (n, .ok s)
    | .error halt => (0, .error halt)

end

def uartPorts (schedule : Schedule) (base : U16) : Ports Uart where
  inb port u := u.inb schedule (port - base).toNat
  outb port data u := u.outb schedule (port - base).toNat data

variable {schedule : Schedule} {port : U16} {fuel patience : Nat} {u : Uart}

theorem port_offset (port register : U16) : port + register - port = register := by
  rw [BitVec.add_comm, BitVec.add_sub_cancel]

@[simp] theorem uartPorts_outb (register : U16) (data : U8) (u : Uart) :
    (uartPorts schedule port).outb (port + register) data u =
      u.outb schedule register.toNat data := by
  simp only [uartPorts, port_offset]

@[simp] theorem uartPorts_inb (register : U16) (u : Uart) :
    (uartPorts schedule port).inb (port + register) u = u.inb schedule register.toNat := by
  simp only [uartPorts, port_offset]

@[simp] theorem uartPorts_outb_base (data : U8) (u : Uart) :
    (uartPorts schedule port).outb port data u = u.outb schedule 0 data := by
  simp only [uartPorts, BitVec.sub_self, BitVec.toNat_ofNat, Nat.zero_mod]

@[simp] theorem uartPorts_inb_base (u : Uart) :
    (uartPorts schedule port).inb port u = u.inb schedule 0 := by
  simp only [uartPorts, BitVec.sub_self, BitVec.toNat_ofNat, Nat.zero_mod]

theorem serialWriteAvailable_uart (u : Uart) :
    serialWriteAvailable (uartPorts schedule port) port u =
      ((u.settle schedule).transmitter.isEmpty, u.settle schedule) := by
  have status (receiver transmitter : Bool) :
      decide (((if receiver then 0#8 else 0x01#8) ||| if transmitter then 0x60#8 else 0#8) &&&
        0x20#8 ≠ 0#8) = transmitter := by
    cases receiver <;> cases transmitter <;> rfl
  rw [serialWriteAvailable, uartPorts_inb]
  exact Prod.ext (status _ _) rfl

theorem serialReadAvailable_uart (u : Uart) :
    serialReadAvailable (uartPorts schedule port) port u =
      (!(u.settle schedule).receiver.isEmpty, u.settle schedule) := by
  have status (receiver transmitter : Bool) :
      decide (((if receiver then 0#8 else 0x01#8) ||| if transmitter then 0x60#8 else 0#8) &&&
        0x01#8 ≠ 0#8) = !receiver := by
    cases receiver <;> cases transmitter <;> rfl
  rw [serialReadAvailable, uartPorts_inb]
  exact Prod.ext (status _ _) rfl

structure Connected (u : Uart) : Prop where
  latch : u.latch = false
  loopback : u.loopback = false

theorem Connected.settle (connected : Connected u) (schedule : Schedule) :
    Connected (u.settle schedule) :=
  ⟨(Library.Uart.settle_latch schedule u).trans connected.latch,
    (Library.Uart.settle_loopback schedule u).trans connected.loopback⟩

structure Emptied (u u' : Uart) : Prop where
  connected : Connected u'
  empty : u'.transmitter = []
  output : u'.output = u.output
  controls : u'.toUartControls = u.toUartControls
  receives : Receives u [] u'

/-- The loop ends: `next` is the time to the next byte the line takes, and every byte before
the last one costs `patience` accesses at most. -/
theorem waitUntil_writable (lively : Lively patience schedule) (connected : Connected u)
    {count next : Nat} (few : u.transmitter.length ≤ count)
    (shifts : .shifts ∈ schedule (u.clock + next)) (enough : next + count * patience < fuel) :
    ∃ u', waitUntil (serialWriteAvailable (uartPorts schedule port) port) fuel u = .ok u' ∧
      Emptied u u' := by
  induction fuel generalizing u count next with
  | zero => exact absurd enough (Nat.not_lt_zero _)
  | succ fuel ih =>
      obtain ⟨same, notLonger, shorter⟩ := Library.Uart.settle_output schedule connected.loopback
      rw [waitUntil, serialWriteAvailable_uart]
      cases empty : (u.settle schedule).transmitter.isEmpty with
      | true =>
          exact ⟨_, rfl, connected.settle schedule, List.isEmpty_iff.mp empty, same,
            Library.Uart.settle_controls schedule u, settle_receives schedule u⟩
      | false =>
          have waiting : (u.settle schedule).transmitter ≠ [] := by
            simpa [List.isEmpty_iff] using empty
          have positive := List.length_pos_of_ne_nil waiting
          have later : ∃ count next, (u.settle schedule).transmitter.length ≤ count ∧
              .shifts ∈ schedule ((u.settle schedule).clock + next) ∧
              next + count * patience < fuel := by
            cases next with
            | succ next =>
                refine ⟨count, next, notLonger.trans few, ?_, by omega⟩
                rw [Library.Uart.settle_clock, Nat.add_right_comm]
                exact shifts
            | zero =>
                obtain ⟨next, soon, shiftsNext⟩ := lively (u.clock + 1)
                have fewer := shorter shifts
                refine ⟨count - 1, next, by omega, shiftsNext, ?_⟩
                obtain ⟨rest, rfl⟩ : ∃ rest, count = rest + 1 := ⟨count - 1, by omega⟩
                rw [Nat.succ_mul] at enough
                rw [Nat.add_sub_cancel]
                omega
          obtain ⟨_, _, few', shifts', enough'⟩ := later
          obtain ⟨u', waited, emptied⟩ := ih (connected.settle schedule) few' shifts' enough'
          refine ⟨u', waited, emptied.connected, emptied.empty, emptied.output.trans same, ?_,
            (settle_receives schedule u).trans emptied.receives⟩
          exact emptied.controls.trans (Library.Uart.settle_controls schedule u)

/-- A port on a line that takes bytes at least every `patience` accesses. -/
structure PortReady (schedule : Schedule) (patience fuel : Nat) (u : Uart) : Prop where
  connected : Connected u
  fits : u.transmitter.length ≤ Library.Uart.capacity
  lively : Lively patience schedule
  enough : (Library.Uart.capacity + 1) * patience ≤ fuel

/-- `sent` was added to what leaves the port and `taken` was read from what arrived; the
controls are as before. -/
structure Transferred (u : Uart) (sent taken : List U8) (u' : Uart) : Prop where
  output : u'.output = u.output ++ sent
  controls : u'.toUartControls = u.toUartControls
  receives : Receives u taken u'

theorem Transferred.refl (u : Uart) : Transferred u [] [] u :=
  ⟨(List.append_nil _).symm, rfl, .refl u⟩

theorem Transferred.trans {u' u'' : Uart} {sent sent' taken taken' : List U8}
    (first : Transferred u sent taken u') (second : Transferred u' sent' taken' u'') :
    Transferred u (sent ++ sent') (taken ++ taken') u'' := by
  refine ⟨?_, second.controls.trans first.controls, first.receives.trans second.receives⟩
  rw [second.output, first.output, List.append_assoc]

theorem PortReady.wait (port : U16) (ready : PortReady schedule patience fuel u) :
    ∃ u', waitUntil (serialWriteAvailable (uartPorts schedule port) port) fuel u = .ok u' ∧
      Emptied u u' := by
  obtain ⟨next, soon, shifts⟩ := ready.lively u.clock
  have enough := ready.enough
  rw [Nat.succ_mul] at enough
  exact waitUntil_writable ready.lively ready.connected ready.fits shifts (by omega)

theorem serialWriteBlocking_sends (port : U16) (ready : PortReady schedule patience fuel u)
    (byte : U8) :
    ∃ u', serialWriteBlocking (uartPorts schedule port) fuel port byte u = .ok u' ∧
      PortReady schedule patience fuel u' ∧ Transferred u [byte] [] u' := by
  obtain ⟨emptied, waited, isEmptied⟩ := ready.wait port
  obtain ⟨connected, empty, output, controls, receives⟩ := isEmptied
  obtain ⟨same, notLonger, _⟩ := Library.Uart.settle_output schedule connected.loopback
  have stillEmpty : (emptied.settle schedule).transmitter = [] := by
    rw [empty, List.length_nil, Nat.le_zero, List.length_eq_zero_iff] at notLonger
    exact notLonger
  have written : emptied.outb schedule 0 byte =
      { emptied.settle schedule with transmitter := [byte] } := by
    have latch := (connected.settle schedule).latch
    rw [Library.Uart.outb, Library.Uart.writeRegister, latch, if_neg (by simp),
      Library.Uart.send, stillEmpty, if_pos (by decide), List.nil_append]
  refine ⟨_, by rw [serialWriteBlocking, waited]; rfl, ?_⟩
  rw [uartPorts_outb_base, written]
  refine ⟨⟨?_, by simp [Library.Uart.capacity], ready.lively, ready.enough⟩, ?_, ?_, ?_⟩
  · exact ⟨(connected.settle schedule).latch, (connected.settle schedule).loopback⟩
  · rw [← output, ← same]
    simp only [Library.Uart.output, stillEmpty, List.append_nil]
  · exact (Library.Uart.settle_controls schedule emptied).trans controls
  · exact receives.trans (settle_receives schedule emptied)

theorem serialWriteFrom_sends (port : U16) (get : Int → Exec U8) (front bytes : List U8)
    (gets : ∀ i (inside : i < (front ++ bytes).length), get i = .ok (front ++ bytes)[i])
    (ready : PortReady schedule patience fuel u) :
    ∃ u', serialWriteFrom (uartPorts schedule port) fuel port get bytes.length front.length u =
        .ok u' ∧
      PortReady schedule patience fuel u' ∧ Transferred u bytes [] u' := by
  induction bytes generalizing front u with
  | nil => exact ⟨u, rfl, ready, .refl u⟩
  | cons byte rest ih =>
      have here := gets front.length (by simp)
      rw [List.getElem_append_right (Nat.le_refl _)] at here
      simp only [Nat.sub_self, List.getElem_cons_zero] at here
      obtain ⟨next, written, ready', sent⟩ := serialWriteBlocking_sends port ready byte
      obtain ⟨u', wrote, ready'', sentRest⟩ := ih (front ++ [byte]) (by simpa using gets) ready'
      refine ⟨u', ?_, ready'', sent.trans sentRest⟩
      rw [List.length_cons, serialWriteFrom, here, exec_bind_ok, written, exec_bind_ok]
      simpa using wrote

theorem serialWriteBytes_sends (port : U16) (ready : PortReady schedule patience fuel u)
    (bytes : List U8) :
    ∃ u', serialWriteBytes (uartPorts schedule port) fuel port bytes u = .ok u' ∧
      PortReady schedule patience fuel u' ∧ Transferred u bytes [] u' :=
  serialWriteFrom_sends port (bytesGet bytes) [] bytes (bytesGet_ok bytes) ready

theorem serialWriteString_sends (port : U16) (ready : PortReady schedule patience fuel u)
    (string : List U8) :
    ∃ u', serialWriteString (uartPorts schedule port) fuel port string u = .ok u' ∧
      PortReady schedule patience fuel u' ∧ Transferred u string [] u' :=
  serialWriteFrom_sends port (stringGet string) [] string (stringGet_ok string) ready

/-- What `serial_init` leaves. Interrupts stay as they were if the divisor latch was open
before, and the loopback if the test failed. -/
structure Initialised (u : Uart) (answer : Bool) (u' : Uart) : Prop where
  interruptEnable : u'.interruptEnable = if u.latch then u.interruptEnable else 0#8
  lineControl : u'.lineControl = 0x03#8
  modemControl : u'.modemControl = if answer then 0x0F#8 else 0x1E#8
  fifoControl : u'.fifoControl = 0xC7#8
  divisor : u'.divisorLow = 3#8 ∧ u'.divisorHigh = 0#8
  line : ∃ n, u'.line = u.line ++ if u.loopback then [] else u.transmitter.take n
  transmitter : u'.transmitter = [] ∨ u'.transmitter = [0xAE#8]

/-- The bytes that reach the receiver between the clearing of the FIFO and the end of the test,
in order; the last is the test's own. -/
def testBytes (schedule : Schedule) (u : Uart) : List U8 :=
  (if u.loopback then [] else arrivals (schedule (u.clock + 6))) ++
    arrivals (schedule (u.clock + 7)) ++
    if .shifts ∈ schedule (u.clock + 9) then [0xAE#8] else []

theorem Initialised.of_controls {u u' : Uart} {answer : Bool}
    (controls : u'.toUartControls = {
      interruptEnable := if u.latch then u.interruptEnable else 0#8
      lineControl := 0x03#8
      modemControl := if answer then 0x0F#8 else 0x1E#8
      fifoControl := 0xC7#8
      divisorLow := 3#8
      divisorHigh := 0#8 })
    (line : ∃ n, u'.line = u.line ++ if u.loopback then [] else u.transmitter.take n)
    (transmitter : u'.transmitter = [] ∨ u'.transmitter = [0xAE#8]) :
    Initialised u answer u' := by
  refine ⟨?_, ?_, ?_, ?_, ?_, line, transmitter⟩ <;> simp [controls]

theorem drained_unsent {u' : Uart} (drained : Drained u u')
    (test : u.transmitter = [] ∨ u.transmitter = [0xAE#8]) :
    u'.transmitter = [] ∨ u'.transmitter = [0xAE#8] := by
  obtain ⟨n, kept, _⟩ := drained
  rw [kept]
  rcases test with none | byte
  · exact Or.inl (by rw [none, List.drop_nil])
  · rw [byte]
    cases n with
    | zero => exact Or.inr rfl
    | succ n => exact Or.inl (by rw [List.drop_succ_cons, List.drop_nil])

theorem serialInit_divisor (schedule : Schedule) (u : Uart) :
    let u' := ((((u.outb schedule 1 0x00#8).outb schedule 3 0x80#8).outb schedule 0 0x03#8).outb
      schedule 1 0x00#8).outb schedule 3 0x03#8
    Drained u u' ∧ u'.toUartControls = { u.toUartControls with
      interruptEnable := if u.latch then u.interruptEnable else 0#8
      lineControl := 0x03#8
      divisorLow := 0x03#8
      divisorHigh := 0x00#8 } := by
  have first := Library.Uart.outb_interruptEnable schedule u 0x00#8
  have drained := Library.Uart.outb_drained schedule u 1 (.inl (by decide)) (by decide) 0x00#8
  have modem : (u.outb schedule 1 0x00#8).modemControl = u.modemControl := by
    rw [first]
    split <;> rfl
  have second := Library.Uart.outb_lineControl schedule (u.outb schedule 1 0x00#8) 0x80#8
  have drained₂ := drained.outb modem schedule 3 (.inl (by decide)) (by decide) 0x80#8
  generalize u.outb schedule 1 0x00#8 = u₁ at first modem second drained₂ ⊢
  generalize u₁.outb schedule 3 0x80#8 = u₂ at second drained₂ ⊢
  have latched : u₂.latch = true := by
    rw [Library.Uart.latch, second]
    exact (by decide : BitVec.getLsbD 0x80#8 7 = true)
  have third := Library.Uart.outb_divisorLow schedule latched 0x03#8
  have drained₃ := drained₂.outb (by rw [second]; exact modem) schedule 0
    (.inr latched) (by decide) 0x03#8
  generalize u₂.outb schedule 0 0x03#8 = u₃ at third drained₃ ⊢
  have latched' : u₃.latch = true := by
    rw [Library.Uart.latch, third]
    exact latched
  have fourth := Library.Uart.outb_interruptEnable schedule u₃ 0x00#8
  have drained₄ := drained₃.outb (by rw [third, second]; exact modem) schedule 1
    (.inl (by decide)) (by decide) 0x00#8
  generalize u₃.outb schedule 1 0x00#8 = u₄ at fourth drained₄ ⊢
  rw [latched', if_pos rfl] at fourth
  have fifth := Library.Uart.outb_lineControl schedule u₄ 0x03#8
  have drained₅ := drained₄.outb (by rw [fourth, third, second]; exact modem) schedule 3
    (.inl (by decide)) (by decide) 0x03#8
  refine ⟨drained₅, ?_⟩
  rw [fifth, fourth, third, second, first]
  cases u.latch <;> rfl

theorem serialInit_test (schedule : Schedule) {u : Uart} (idle : u.transmitter = [])
    (empty : u.receiver = []) (unlatched : u.latch = false) :
    let u' := ((u.outb schedule 4 0x0B#8).outb schedule 4 0x1E#8).outb schedule 0 0xAE#8
    u'.toUartControls = { u.toUartControls with modemControl := 0x1E#8 } ∧
      u'.transmitter = [0xAE#8] ∧ (u'.settle schedule).line = u.line ∧
      (u'.settle schedule).receiver.head? = ((if u.loopback then [] else
        arrivals (schedule u.clock)) ++ arrivals (schedule (u.clock + 1)) ++
        if .shifts ∈ schedule (u.clock + 3) then [0xAE#8] else []).head? := by
  obtain ⟨idle₁, line₁, head₁⟩ := Library.Uart.settle_idle schedule idle
  have first := Library.Uart.outb_modemControl schedule u 0x0B#8
  have clock₁ : (u.outb schedule 4 0x0B#8).clock = u.clock + 1 := rfl
  change (u.outb schedule 4 0x0B#8).transmitter = [] at idle₁
  change (u.outb schedule 4 0x0B#8).line = u.line at line₁
  change (u.outb schedule 4 0x0B#8).receiver.head? = _ at head₁
  generalize u.outb schedule 4 0x0B#8 = u₁ at first clock₁ idle₁ line₁ head₁ ⊢
  have connected : u₁.loopback = false := by
    rw [Library.Uart.loopback, first]
    exact (by decide : BitVec.getLsbD 0x0B#8 4 = false)
  obtain ⟨idle₂, line₂, head₂⟩ := Library.Uart.settle_idle schedule idle₁
  have second := Library.Uart.outb_modemControl schedule u₁ 0x1E#8
  have clock₂ : (u₁.outb schedule 4 0x1E#8).clock = u₁.clock + 1 := rfl
  change (u₁.outb schedule 4 0x1E#8).transmitter = [] at idle₂
  change (u₁.outb schedule 4 0x1E#8).line = u₁.line at line₂
  change (u₁.outb schedule 4 0x1E#8).receiver.head? = _ at head₂
  generalize u₁.outb schedule 4 0x1E#8 = u₂ at second clock₂ idle₂ line₂ head₂ ⊢
  have loops : u₂.loopback = true := by
    rw [Library.Uart.loopback, second]
    exact (by decide : BitVec.getLsbD 0x1E#8 4 = true)
  have unlatched₂ : u₂.latch = false := by
    rw [Library.Uart.latch, second, first]
    exact unlatched
  obtain ⟨idle₃, line₃, head₃⟩ := Library.Uart.settle_idle schedule idle₂
  have sent : u₂.outb schedule 0 0xAE#8 =
      { u₂.settle schedule with transmitter := [0xAE#8] } := by
    rw [Library.Uart.outb, Library.Uart.writeRegister, Library.Uart.settle_latch, unlatched₂,
      if_neg (by simp), Library.Uart.send, idle₃, if_pos (by decide), List.nil_append]
  have third : (u₂.outb schedule 0 0xAE#8).toUartControls = u₂.toUartControls := by
    rw [sent]
    exact Library.Uart.settle_controls schedule u₂
  have transmits : (u₂.outb schedule 0 0xAE#8).transmitter = [0xAE#8] := by rw [sent]
  have still : (u₂.outb schedule 0 0xAE#8).loopback = true :=
    (Library.Uart.loopback_of_controls third).trans loops
  obtain ⟨line₄, head₄⟩ := Library.Uart.settle_loop schedule transmits still
  have clock₃ : (u₂.outb schedule 0 0xAE#8).clock = u₂.clock + 1 := by rw [sent]; rfl
  have line : (u₂.outb schedule 0 0xAE#8).line = u.line := by
    rw [sent]
    exact line₃.trans (line₂.trans line₁)
  have receiver : (u₂.outb schedule 0 0xAE#8).receiver = (u₂.settle schedule).receiver := by
    rw [sent]
  refine ⟨by rw [third, second, first], transmits, line₄.trans line, ?_⟩
  rw [loops, if_pos rfl, List.append_nil] at head₃
  rw [connected, if_neg (by simp)] at head₂
  rw [head₄, receiver, List.head?_append, head₃, head₂, List.head?_append, head₁, empty,
    List.nil_append, clock₃, clock₂, clock₁, List.head?_append, List.head?_append]

theorem inb_head (schedule : Schedule) {u : Uart} (unlatched : u.latch = false) :
    (u.inb schedule 0).1 = (u.settle schedule).receiver.head?.getD 0#8 ∧
      (u.inb schedule 0).2.toUartControls = u.toUartControls ∧
      (u.inb schedule 0).2.line = (u.settle schedule).line ∧
      (u.inb schedule 0).2.transmitter = (u.settle schedule).transmitter := by
  have controls := Library.Uart.settle_controls schedule u
  rw [Library.Uart.inb, Library.Uart.readRegister, Library.Uart.settle_latch, unlatched,
    if_neg (by simp)]
  cases (u.settle schedule).receiver with
  | nil => exact ⟨rfl, controls, rfl, rfl⟩
  | cons byte rest => exact ⟨rfl, controls, rfl, rfl⟩

/-- The FIFO is cleared: what was in the transmitter and did not leave yet never will. -/
theorem serialInit_cleared (schedule : Schedule) (u : Uart) :
    let u' := (((((u.outb schedule 1 0x00#8).outb schedule 3 0x80#8).outb schedule 0 0x03#8).outb
      schedule 1 0x00#8).outb schedule 3 0x03#8).outb schedule 2 0xC7#8
    u'.transmitter = [] ∧ u'.receiver = [] ∧ u'.clock = u.clock + 6 ∧
      (∃ n, u'.line = u.line ++ if u.loopback then [] else u.transmitter.take n) ∧
      u'.toUartControls = {
        interruptEnable := if u.latch then u.interruptEnable else 0#8
        lineControl := 0x03#8
        modemControl := u.modemControl
        fifoControl := 0xC7#8
        divisorLow := 0x03#8
        divisorHigh := 0x00#8 } := by
  obtain ⟨drained, controls⟩ := serialInit_divisor schedule u
  have clock : (((((u.outb schedule 1 0x00#8).outb schedule 3 0x80#8).outb schedule 0 0x03#8).outb
      schedule 1 0x00#8).outb schedule 3 0x03#8).clock = u.clock + 5 := by
    simp only [Library.Uart.outb_clock]
  generalize ((((u.outb schedule 1 0x00#8).outb schedule 3 0x80#8).outb schedule 0 0x03#8).outb
    schedule 1 0x00#8).outb schedule 3 0x03#8 = d at drained controls clock ⊢
  have same : d.loopback = u.loopback := by rw [Library.Uart.loopback, controls]; rfl
  obtain ⟨n, _, line⟩ := drained.trans (Library.Uart.settle_drained schedule d) same
  refine ⟨rfl, rfl, ?_, ⟨n, line⟩, ?_⟩
  · rw [Library.Uart.outb_clock, clock]
  · rw [Library.Uart.outb_fifoControl, controls]

theorem getD_echo {first : Option U8} :
    first.getD 0#8 = 0xAE#8 ↔ first = some 0xAE#8 := by
  cases first with
  | none => decide
  | some byte => rw [Option.getD_some, Option.some.injEq]

theorem serialInit_spec (schedule : Schedule) (port : U16) (u : Uart) :
    ((serialInit (uartPorts schedule port) port u).1 = true ↔
      (testBytes schedule u).head? = some 0xAE#8) ∧
    Initialised u (serialInit (uartPorts schedule port) port u).1
      (serialInit (uartPorts schedule port) port u).2 := by
  obtain ⟨idle, empty, clock, line, controls⟩ := serialInit_cleared schedule u
  simp only [serialInit, uartPorts_outb, uartPorts_inb, serialPoInterruptEnableRegister,
    serialPoLineControlRegister, serialPoLeastDivisor, serialPoMostDivisor,
    serialPoFifoControlRegister, serialPoModemControlRegister, serialPoTransmitBuffer,
    serialPoReceiveBuffer, BitVec.toNat_ofNat, Nat.reduceMod, Nat.reducePow]
  generalize (((((u.outb schedule 1 0x00#8).outb schedule 3 0x80#8).outb schedule 0 0x03#8).outb
    schedule 1 0x00#8).outb schedule 3 0x03#8).outb schedule 2 0xC7#8 = f at *
  have unlatched : f.latch = false := by
    rw [Library.Uart.latch, controls]
    exact (by decide : BitVec.getLsbD 0x03#8 7 = false)
  have same : f.loopback = u.loopback := by rw [Library.Uart.loopback, controls]; rfl
  obtain ⟨controls', transmits, settled, head⟩ := serialInit_test schedule idle empty unlatched
  rw [same, clock] at head
  generalize ((f.outb schedule 4 0x0B#8).outb schedule 4 0x1E#8).outb schedule 0 0xAE#8 = g at *
  have unlatched' : g.latch = false := by
    rw [Library.Uart.latch, controls']
    exact unlatched
  obtain ⟨byte, kept, line', unread⟩ := inb_head schedule unlatched'
  have test := drained_unsent (Library.Uart.settle_drained schedule g) (Or.inr transmits)
  rw [← unread] at test
  rw [head] at byte
  change _ = (testBytes schedule u).head?.getD 0#8 at byte
  rw [settled] at line'
  have isTest : (g.inb schedule 0).1 = 0xAE#8 ↔
      (testBytes schedule u).head? = some 0xAE#8 := by
    rw [byte, getD_echo]
  by_cases echoed : (g.inb schedule 0).1 = 0xAE#8
  · rw [if_neg (by simpa using echoed)]
    refine ⟨by simp [isTest.mp echoed], .of_controls ?_ ?_ ?_⟩
    · rw [Library.Uart.outb_modemControl, kept, controls', controls]
      rfl
    · obtain ⟨n, left⟩ := line
      have loops : (g.inb schedule 0).2.loopback = true := by
        rw [Library.Uart.loopback, kept, controls']
        exact (by decide : BitVec.getLsbD 0x1E#8 4 = true)
      obtain ⟨_, _, still⟩ := Library.Uart.settle_drained schedule (g.inb schedule 0).2
      rw [loops, if_pos rfl, List.append_nil] at still
      exact ⟨n, still.trans (line'.trans left)⟩
    · exact drained_unsent (Library.Uart.settle_drained schedule (g.inb schedule 0).2) test
  · have notTest := mt isTest.mpr echoed
    rw [if_pos (by simpa using echoed)]
    refine ⟨by simp [notTest], .of_controls ?_ ?_ test⟩
    · rw [kept, controls', controls]
      rfl
    · obtain ⟨n, left⟩ := line
      exact ⟨n, line'.trans left⟩

theorem Initialised.ready {u' : Uart} (initialised : Initialised u true u')
    (lively : Lively patience schedule) (enough : (Library.Uart.capacity + 1) * patience ≤ fuel) :
    PortReady schedule patience fuel u' := by
  refine ⟨⟨?_, ?_⟩, ?_, lively, enough⟩
  · rw [Library.Uart.latch, initialised.lineControl]
    decide
  · rw [Library.Uart.loopback, initialised.modemControl]
    decide
  · rcases initialised.transmitter with none | byte
    · simp [none]
    · simp [byte, Library.Uart.capacity]

def takingLine : Schedule := fun _ => [.shifts]

def resetUart : Uart where
  interruptEnable := 0#8
  lineControl := 0#8
  modemControl := 0#8
  fifoControl := 0#8
  divisorLow := 0#8
  divisorHigh := 0#8
  receiver := []
  transmitter := []
  line := []
  arrived := []
  clock := 0

theorem takingLine_lively : Lively 1 takingLine :=
  fun _ => ⟨0, by decide, by simp [takingLine]⟩

theorem takingLine_works : serialInit (uartPorts takingLine serialCom1) serialCom1 resetUart =
    (true, (serialInit (uartPorts takingLine serialCom1) serialCom1 resetUart).2) := by decide

/-- A line that does not take the test byte at once: the port stays in loopback. -/
example : (serialInit (uartPorts (fun _ => []) serialCom1) serialCom1 resetUart).1 = false ∧
    (serialInit (uartPorts (fun _ => []) serialCom1) serialCom1 resetUart).2.loopback = true := by
  decide

end Drastic
