import Mathlib.Data.BitVec
import Mathlib.Data.List.Basic
import Mathlib.Tactic.Common

namespace Library

/-! Two interrupt controllers of the 8259A kind, the second behind line 2 of the first, between
sixteen request lines and a processor that takes interrupts at times of its own. -/

inductive PicPhase where
  | expectsVector
  | expectsCascade
  | expectsMode
  | ready
  deriving DecidableEq, Repr

structure PicControls where
  phase : PicPhase
  single : Bool
  needsMode : Bool
  mask : BitVec 8
  vectorBase : BitVec 8
  cascade : BitVec 8
  mode : BitVec 8
  deriving DecidableEq, Repr

namespace PicControls

/-- Bit 4 starts the initialization, which clears the mask. Nothing here has a use for the other
words of the command port. -/
def writeCommand (c : PicControls) (data : BitVec 8) : PicControls :=
  if data.getLsbD 4 then
    { c with
      phase := .expectsVector
      single := data.getLsbD 1
      needsMode := data.getLsbD 0
      mask := 0#8
      mode := 0#8 }
  else c

def afterCascade (c : PicControls) : PicPhase := if c.needsMode then .expectsMode else .ready

def writeData (c : PicControls) (data : BitVec 8) : PicControls :=
  match c.phase with
  | .expectsVector =>
    { c with
      vectorBase := data &&& 0xF8#8
      phase := if c.single then c.afterCascade else .expectsCascade }
  | .expectsCascade => { c with cascade := data, phase := c.afterCascade }
  | .expectsMode => { c with mode := data, phase := .ready }
  | .ready => { c with mask := data }

def vector (c : PicControls) (line : Nat) : BitVec 8 := c.vectorBase ||| BitVec.ofNat 8 line

end PicControls

structure Pic extends PicControls where
  requests : BitVec 8
  inService : BitVec 8
  deriving DecidableEq, Repr

namespace Pic

/-- The initialization forgets the requests so far. -/
def writeCommand (p : Pic) (data : BitVec 8) : Pic where
  toPicControls := p.toPicControls.writeCommand data
  requests := if data.getLsbD 4 then 0#8 else p.requests
  inService := if data.getLsbD 4 then 0#8 else p.inService

def writeData (p : Pic) (data : BitVec 8) : Pic :=
  { p with toPicControls := p.toPicControls.writeData data }

/-- The line that interrupts: the first one that is requested and not masked, none of whose
betters is in service. -/
def pendingLine (p : Pic) : Option Nat :=
  if p.phase = .ready then
    ((List.range 8).takeWhile fun line => !p.inService.getLsbD line).find?
      fun line => p.requests.getLsbD line && !p.mask.getLsbD line
  else none

def lineBit (line : Nat) : BitVec 8 := 1#8 <<< line

def setRequest (p : Pic) (line : Nat) (level : Bool) : Pic :=
  { p with
    requests := if level then p.requests ||| lineBit line else p.requests &&& ~~~lineBit line }

/-- Bit 1 of the mode ends the service at once. -/
def accept (p : Pic) (line : Nat) : Pic :=
  { p.setRequest line false with
    inService := if p.mode.getLsbD 1 then p.inService else p.inService ||| lineBit line }

theorem pendingLine_unmasked {p : Pic} {line : Nat} (pending : p.pendingLine = some line) :
    p.phase = .ready ∧ p.mask ≠ 0xFF#8 ∧ line < 8 := by
  unfold pendingLine at pending
  split at pending
  case isFalse => cases pending
  case isTrue ready =>
    have inside : line < 8 := by
      have member := List.mem_of_find?_eq_some pending
      exact List.mem_range.mp ((List.takeWhile_sublist _).subset member)
    refine ⟨ready, ?_, inside⟩
    intro masked
    have all : ∀ line < 8, (0xFF#8).getLsbD line = true := by decide
    have found := List.find?_some pending
    rw [masked, all line inside] at found
    simp at found

end Pic

inductive PicEvent where
  | line (line : Nat) (level : Bool)
  | acknowledged
  deriving DecidableEq, Repr

inductive PicPort where
  | masterCommand
  | masterData
  | slaveCommand
  | slaveData
  deriving DecidableEq, Repr

/-- A vector given to the processor, with the number of accesses made before. It is spurious if
no request was served. -/
structure PicDelivery where
  time : Nat
  served : Bool
  vector : BitVec 8
  deriving DecidableEq, Repr

/-- `clock` counts the accesses. -/
structure PicPair where
  master : Pic
  slave : Pic
  clock : Nat
  delivered : List PicDelivery
  deriving DecidableEq, Repr

namespace PicPair

def cascaded (p : PicPair) : Bool := !p.master.single && p.master.cascade.getLsbD 2

def seenByMaster (p : PicPair) : Pic :=
  if p.cascaded then p.master.setRequest 2 p.slave.pendingLine.isSome else p.master

def below (p : PicPair) (line : Nat) : Option Nat :=
  if p.cascaded && line = 2 then p.slave.pendingLine else none

/-- A slave that goes by another number leaves the bus alone. -/
def vectorFor (p : PicPair) (line : Nat) : BitVec 8 :=
  match p.below line with
  | some below => if p.slave.cascade &&& 7#8 = 2#8 then p.slave.vector below else 0xFF#8
  | none => p.master.vector line

def acceptSlave (p : PicPair) (line : Nat) : Pic :=
  match p.below line with
  | some below => p.slave.accept below
  | none => p.slave

/-- The master answers an acknowledgement without a request with the vector of its line 7. -/
def acknowledge (p : PicPair) : PicPair :=
  match p.seenByMaster.pendingLine with
  | none => { p with delivered := p.delivered ++ [⟨p.clock, false, p.master.vector 7⟩] }
  | some line =>
    { p with
      master := p.master.accept line
      slave := p.acceptSlave line
      delivered := p.delivered ++ [⟨p.clock, true, p.vectorFor line⟩] }

def event (p : PicPair) : PicEvent → PicPair
  | .line line level =>
    if line < 8 then { p with master := p.master.setRequest line level }
    else { p with slave := p.slave.setRequest (line - 8) level }
  | .acknowledged => p.acknowledge

abbrev Schedule := Nat → List PicEvent

def settle (schedule : Schedule) (p : PicPair) : PicPair :=
  { (schedule p.clock).foldl event p with clock := p.clock + 1 }

def writeRegister (p : PicPair) (data : BitVec 8) : PicPort → PicPair
  | .masterCommand => { p with master := p.master.writeCommand data }
  | .masterData => { p with master := p.master.writeData data }
  | .slaveCommand => { p with slave := p.slave.writeCommand data }
  | .slaveData => { p with slave := p.slave.writeData data }

def write (schedule : Schedule) (p : PicPair) (access : PicPort × BitVec 8) : PicPair :=
  (p.settle schedule).writeRegister access.2 access.1

abbrev Controls := PicControls × PicControls

def controls (p : PicPair) : Controls := (p.master.toPicControls, p.slave.toPicControls)

def controlsAfter (c : Controls) (access : PicPort × BitVec 8) : Controls :=
  match access.1 with
  | .masterCommand => (c.1.writeCommand access.2, c.2)
  | .masterData => (c.1.writeData access.2, c.2)
  | .slaveCommand => (c.1, c.2.writeCommand access.2)
  | .slaveData => (c.1, c.2.writeData access.2)

/-- A request is served by a controller that is set up and does not mask every line; a spurious
vector may come at any time. -/
inductive MayDeliver (c : Controls) : Bool → BitVec 8 → Prop where
  | master (ready : c.1.phase = .ready) (unmasked : c.1.mask ≠ 0xFF#8) (line : Nat)
      (inside : line < 8) : MayDeliver c true (c.1.vector line)
  | slave (ready : c.1.phase = .ready) (unmasked : c.1.mask ≠ 0xFF#8)
      (readyToo : c.2.phase = .ready) (line : Nat) (inside : line < 8)
      (named : c.2.cascade &&& 7#8 = 2#8) : MayDeliver c true (c.2.vector line)
  | nobody (ready : c.1.phase = .ready) (unmasked : c.1.mask ≠ 0xFF#8)
      (unnamed : c.2.cascade &&& 7#8 ≠ 2#8) : MayDeliver c true 0xFF#8
  | spurious : MayDeliver c false (c.1.vector 7)

variable {p : PicPair}

theorem seenByMaster_controls (p : PicPair) :
    p.seenByMaster.toPicControls = p.master.toPicControls := by
  unfold seenByMaster
  split
  · rfl
  · rfl

theorem acknowledge_controls (p : PicPair) : p.acknowledge.controls = p.controls := by
  unfold acknowledge
  split
  · rfl
  · have slave (line : Nat) : (p.acceptSlave line).toPicControls = p.slave.toPicControls := by
      unfold acceptSlave
      split
      · rfl
      · rfl
    exact congrArg (Prod.mk _) (slave _)

theorem event_controls (p : PicPair) (e : PicEvent) : (p.event e).controls = p.controls := by
  cases e with
  | line line level =>
      rw [event]
      split
      · rfl
      · rfl
  | acknowledged => exact acknowledge_controls p

theorem vectorFor_mayDeliver {line : Nat} (pending : p.seenByMaster.pendingLine = some line) :
    MayDeliver p.controls true (p.vectorFor line) := by
  obtain ⟨ready, unmasked, inside⟩ := Pic.pendingLine_unmasked pending
  have phase : p.controls.1.phase = .ready := by
    rw [← ready, seenByMaster_controls]
    rfl
  have mask : p.controls.1.mask ≠ 0xFF#8 := by
    rw [seenByMaster_controls] at unmasked
    exact unmasked
  unfold vectorFor
  split
  case h_1 below found =>
    have slavePending : p.slave.pendingLine = some below := by
      unfold PicPair.below at found
      split at found
      case isTrue => exact found
      case isFalse => cases found
    obtain ⟨readyToo, _, insideToo⟩ := Pic.pendingLine_unmasked slavePending
    split
    case isTrue named => exact .slave phase mask readyToo below insideToo named
    case isFalse unnamed => exact .nobody phase mask unnamed
  case h_2 => exact .master phase mask line inside

theorem events_delivered (events : List PicEvent) (p : PicPair) :
    (events.foldl event p).controls = p.controls ∧ (events.foldl event p).clock = p.clock ∧
      ∃ more, (events.foldl event p).delivered = p.delivered ++ more ∧
        ∀ entry ∈ more, entry.time = p.clock ∧ MayDeliver p.controls entry.served entry.vector := by
  induction events generalizing p with
  | nil => exact ⟨rfl, rfl, [], (List.append_nil _).symm, by simp⟩
  | cons e rest ih =>
      have one : (p.event e).clock = p.clock ∧ ∃ more,
          (p.event e).delivered = p.delivered ++ more ∧
            ∀ entry ∈ more,
              entry.time = p.clock ∧ MayDeliver p.controls entry.served entry.vector := by
        cases e with
        | line line level =>
            rw [event]
            split
            · exact ⟨rfl, [], (List.append_nil _).symm, by simp⟩
            · exact ⟨rfl, [], (List.append_nil _).symm, by simp⟩
        | acknowledged =>
            rw [event, acknowledge]
            split
            case h_1 =>
              refine ⟨rfl, [⟨p.clock, false, p.master.vector 7⟩], rfl, ?_⟩
              intro entry member
              rw [List.mem_singleton.mp member]
              exact ⟨rfl, .spurious⟩
            case h_2 line pending =>
              refine ⟨rfl, [⟨p.clock, true, p.vectorFor line⟩], rfl, ?_⟩
              intro entry member
              rw [List.mem_singleton.mp member]
              exact ⟨rfl, vectorFor_mayDeliver pending⟩
      obtain ⟨clock, first, delivered, possible⟩ := one
      obtain ⟨controls, clocks, later, deliveredLater, possibleLater⟩ := ih (p.event e)
      rw [event_controls] at controls possibleLater
      rw [clock] at clocks possibleLater
      refine ⟨controls, clocks, first ++ later, ?_, ?_⟩
      · rw [List.foldl_cons, deliveredLater, delivered, List.append_assoc]
      · intro entry member
        cases List.mem_append.mp member with
        | inl early => exact possible entry early
        | inr late => exact possibleLater entry late

theorem settle_controls (schedule : Schedule) (p : PicPair) :
    (p.settle schedule).controls = p.controls := (events_delivered (schedule p.clock) p).1

theorem write_controls (schedule : Schedule) (p : PicPair) (access : PicPort × BitVec 8) :
    (p.write schedule access).controls = controlsAfter p.controls access := by
  obtain ⟨port, data⟩ := access
  rw [write, ← settle_controls schedule p]
  cases port with
  | masterCommand => rfl
  | masterData => rfl
  | slaveCommand => rfl
  | slaveData => rfl

theorem write_clock (schedule : Schedule) (p : PicPair) (access : PicPort × BitVec 8) :
    (p.write schedule access).clock = p.clock + 1 := by
  obtain ⟨port, data⟩ := access
  cases port <;> rfl

theorem write_delivered (schedule : Schedule) (p : PicPair) (access : PicPort × BitVec 8) :
    ∃ more, (p.write schedule access).delivered = p.delivered ++ more ∧
      ∀ entry ∈ more, entry.time = p.clock ∧ MayDeliver p.controls entry.served entry.vector := by
  obtain ⟨port, data⟩ := access
  obtain ⟨_, _, more, delivered, possible⟩ := events_delivered (schedule p.clock) p
  refine ⟨more, ?_, possible⟩
  rw [← delivered]
  cases port <;> rfl

/-- Whenever an interrupt comes during a series of writes, it has a vector that the writes made
before it allow. -/
theorem writes_delivered (schedule : Schedule) (writes : List (PicPort × BitVec 8)) (p : PicPair) :
    (writes.foldl (write schedule) p).controls = writes.foldl controlsAfter p.controls ∧
      (writes.foldl (write schedule) p).clock = p.clock + writes.length ∧
      ∃ more, (writes.foldl (write schedule) p).delivered = p.delivered ++ more ∧
        ∀ entry ∈ more, ∃ done < writes.length, entry.time = p.clock + done ∧
          MayDeliver ((writes.take done).foldl controlsAfter p.controls) entry.served
            entry.vector := by
  induction writes generalizing p with
  | nil => exact ⟨rfl, rfl, [], (List.append_nil _).symm, by simp⟩
  | cons access rest ih =>
      obtain ⟨first, delivered, possible⟩ := write_delivered schedule p access
      obtain ⟨controls, clock, later, deliveredLater, possibleLater⟩ := ih (p.write schedule access)
      rw [write_controls] at controls possibleLater
      rw [write_clock] at clock possibleLater
      refine ⟨controls, ?_, first ++ later, ?_, ?_⟩
      · rw [List.foldl_cons, clock, List.length_cons]
        omega
      · rw [List.foldl_cons, deliveredLater, delivered, List.append_assoc]
      · intro entry member
        cases List.mem_append.mp member with
        | inl early => exact ⟨0, Nat.succ_pos _, possible entry early⟩
        | inr late =>
            obtain ⟨done, within, when, may⟩ := possibleLater entry late
            refine ⟨done + 1, Nat.succ_lt_succ within, ?_, may⟩
            rw [when]
            omega

theorem masked_mayDeliver {c : Controls} (masked : c.1.mask = 0xFF#8) {served : Bool}
    {vector : BitVec 8} (may : MayDeliver c served vector) :
    served = false ∧ vector = c.1.vector 7 := by
  cases may with
  | master _ unmasked => exact absurd masked unmasked
  | slave _ unmasked => exact absurd masked unmasked
  | nobody _ unmasked => exact absurd masked unmasked
  | spurious => exact ⟨rfl, rfl⟩

theorem events_masked (events : List PicEvent) (masked : p.master.mask = 0xFF#8) :
    ∃ more, (events.foldl event p).delivered = p.delivered ++ more ∧
      ∀ entry ∈ more, entry.served = false ∧ entry.vector = p.master.vector 7 := by
  obtain ⟨_, _, more, delivered, possible⟩ := events_delivered events p
  exact ⟨more, delivered,
    fun entry member => masked_mayDeliver masked (possible entry member).2⟩

end PicPair

end Library
