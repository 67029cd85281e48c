import Drastic.Library.Pic
import Drastic.Text.Printf

namespace Drastic

open Library (PicPair PicPort PicEvent PicDelivery)
open Library.PicPair (Schedule MayDeliver Controls)

/-! `system_apic.c`. -/

def systemApicPicCommandMaster : U16 := 0x20#16
def systemApicPicDataMaster : U16 := 0x21#16

def systemApicPicCommandSlave : U16 := 0xA0#16
def systemApicPicDataSlave : U16 := 0xA1#16

def systemApicPicIcw1 : U8 := 0x11#8
def systemApicPicIcw2M : U8 := 0x20#8
def systemApicPicIcw2S : U8 := 0x28#8
def systemApicPicIcw3M : U8 := 0x4#8
def systemApicPicIcw3S : U8 := 0x2#8
def systemApicPicIcw4 : U8 := 0x1#8

def asmMsrApicBase : U32 := 0x1B#32

/-- `rdmsr` leaves the high half in `edx` and the low half in `eax`. -/
def asmReadMsr (registers : U32 → U64) (msr : U32) : U64 :=
  let highEdx := (registers msr >>> 32).setWidth 32
  let lowEax := (registers msr).setWidth 32
  lowEax.setWidth 64 ||| highEdx.setWidth 64 <<< 32

section

variable {ρ σ : Type} (ports : Ports ρ) (output : Stream σ)

def systemApicPicDisable (pics : ρ) (data : σ) : FormatExec (ρ × σ) := do
  let pics := ports.outb systemApicPicCommandMaster systemApicPicIcw1 pics
  let pics := ports.outb systemApicPicCommandSlave systemApicPicIcw1 pics
  let pics := ports.outb systemApicPicDataMaster systemApicPicIcw2M pics
  let pics := ports.outb systemApicPicDataSlave systemApicPicIcw2S pics
  let pics := ports.outb systemApicPicDataMaster systemApicPicIcw3M pics
  let pics := ports.outb systemApicPicDataSlave systemApicPicIcw3S pics
  let pics := ports.outb systemApicPicDataMaster systemApicPicIcw4 pics
  let pics := ports.outb systemApicPicDataSlave systemApicPicIcw4 pics
  let pics := ports.outb systemApicPicDataMaster 0xFF#8 pics
  let pics := ports.outb systemApicPicDataSlave 0xFF#8 pics
  return (pics, ← printf output "APIC: disabled pic\n" [] data)

def baseAddressMask : U64 := (1#64 <<< 36 - 1#64) &&& ~~~(1#64 <<< 12 - 1#64)

def systemApicSetup (registers : U32 → U64) (hhdmOffset : U64) (pics : ρ) (data : σ) :
    FormatExec (Bool × ρ × σ) := do
  let (pics, data) ← systemApicPicDisable ports output pics data
  let apicBase := asmReadMsr registers asmMsrApicBase
  let data ←
    (if 1#64 <<< 8 &&& apicBase ≠ 0#64 then
      printf output "APIC: this is the bootstrap processor\n" [] data
    else pure data)
  if 1#64 <<< 11 &&& apicBase ≠ 0#64 then
    let data ← printf output "APIC: apic is enabled\n" [] data
    let baseAddress := apicBase &&& baseAddressMask
    let address := baseAddress + hhdmOffset
    let data ← printf output "APIC: base address = %xU\n" [.unsigned baseAddress] data
    let data ← printf output "APIC: virtual address = %p\n" [.pointer address] data
    return (true, pics, data)
  else return (false, pics, kpanic output (str "APIC: apic is disabled") data)

end

def picPort (port : U16) : Option PicPort :=
  if port = 0x20#16 then some .masterCommand
  else if port = 0x21#16 then some .masterData
  else if port = 0xA0#16 then some .slaveCommand
  else if port = 0xA1#16 then some .slaveData
  else none

/-- The pair of controllers at its four ports; the data ports read as the masks. -/
def picPorts (schedule : Schedule) : Ports PicPair where
  inb port p :=
    let p := p.settle schedule
    match picPort port with
    | some .masterData => (p.master.mask, p)
    | some .slaveData => (p.slave.mask, p)
    | _ => (0#8, p)
  outb port data p :=
    match picPort port with
    | some place => p.write schedule (place, data)
    | none => p.settle schedule

def disableWrites : List (PicPort × U8) := [
  (.masterCommand, 0x11#8), (.slaveCommand, 0x11#8), (.masterData, 0x20#8), (.slaveData, 0x28#8),
  (.masterData, 0x4#8), (.slaveData, 0x2#8), (.masterData, 0x1#8), (.slaveData, 0x1#8),
  (.masterData, 0xFF#8), (.slaveData, 0xFF#8)]

/-- The words behind each of the ten writes: until the seventh the master is not set up, and from
the ninth on it masks every line. -/
theorem disable_controls (c : Controls) {done : Nat} (some : 0 < done) (within : done < 10) :
    let after := (disableWrites.take done).foldl PicPair.controlsAfter c
    after.1.phase ≠ .ready ∨ after.1.mask = 0xFF#8 ∨
      (done = 7 ∨ done = 8) ∧ after.1.vectorBase = 0x20#8 ∧ after.2.vectorBase = 0x28#8 ∧
        after.2.cascade = 0x2#8 := by
  interval_cases done
  case «7» => exact .inr (.inr ⟨.inl rfl, rfl, rfl, rfl⟩)
  case «8» => exact .inr (.inr ⟨.inr rfl, rfl, rfl, rfl⟩)
  case «9» => exact .inr (.inl rfl)
  all_goals exact .inl nofun

theorem disable_base (c : Controls) {done : Nat} (some : 0 < done) (within : done < 10) :
    ((disableWrites.take done).foldl PicPair.controlsAfter c).1.vectorBase =
      if done < 3 then c.1.vectorBase else 0x20#8 := by
  interval_cases done <;> rfl

theorem vector_range {base : U8} (known : base = 0x20#8 ∨ base = 0x28#8) {line : Nat}
    (inside : line < 8) :
    0x20 ≤ (base ||| BitVec.ofNat 8 line).toNat ∧ (base ||| BitVec.ofNat 8 line).toNat < 0x30 := by
  rcases known with rfl | rfl
  · revert line
    decide
  · revert line
    decide

theorem disable_mayDeliver (c : Controls) {done : Nat} {vector : U8} (some : 0 < done)
    (within : done < 10)
    (may : MayDeliver ((disableWrites.take done).foldl PicPair.controlsAfter c) true vector) :
    (done = 7 ∨ done = 8) ∧ 0x20 ≤ vector.toNat ∧ vector.toNat < 0x30 := by
  rcases disable_controls c some within with initialising | masked | ⟨window, base, base', cascade⟩
  · cases may with
    | master ready => exact absurd ready initialising
    | slave ready => exact absurd ready initialising
    | nobody ready => exact absurd ready initialising
  · exact absurd (Library.PicPair.masked_mayDeliver masked may).1 nofun
  · refine ⟨window, ?_⟩
    cases may with
    | master _ _ line inside => exact vector_range (.inl base) inside
    | slave _ _ _ line inside => exact vector_range (.inr base') inside
    | nobody _ _ unnamed =>
        rw [cascade] at unnamed
        exact absurd (by decide) unnamed

/-- The pair serves no request again, whatever its lines do: an acknowledgement gets the spurious
vector. -/
def Quiet (p : PicPair) : Prop :=
  ∀ events : List PicEvent, ∃ more,
    (events.foldl PicPair.event p).delivered = p.delivered ++ more ∧
      ∀ entry ∈ more, entry.served = false ∧ entry.vector = 0x27#8

/-- What the processor was given while the ten words were written. Before the first of them it is
anything. Afterwards requests are served only with vectors from 0x20 to 0x2F, and only between
the last word of the master's set-up and its mask; a spurious vector has the base the master had
until its third word, or 0x20. -/
def GivenWhileDisabled (p : PicPair) (entry : PicDelivery) : Prop :=
  entry.time = p.clock ∨
    if entry.served then
      (entry.time = p.clock + 7 ∨ entry.time = p.clock + 8) ∧
        0x20 ≤ entry.vector.toNat ∧ entry.vector.toNat < 0x30
    else entry.vector = if entry.time < p.clock + 3 then p.master.vector 7 else 0x27#8

theorem disableWrites_quiet (schedule : Schedule) (p : PicPair) :
    Quiet (disableWrites.foldl (PicPair.write schedule) p) ∧
      ∃ more, (disableWrites.foldl (PicPair.write schedule) p).delivered = p.delivered ++ more ∧
        ∀ entry ∈ more, GivenWhileDisabled p entry := by
  obtain ⟨controls, _, more, delivered, possible⟩ :=
    Library.PicPair.writes_delivered schedule disableWrites p
  refine ⟨?_, more, delivered, ?_⟩
  · intro events
    have masked := congrArg (fun c => c.1.mask) controls
    have base := congrArg (fun c => c.1.vectorBase) controls
    obtain ⟨more, delivered, spurious⟩ := Library.PicPair.events_masked events masked
    refine ⟨more, delivered, ?_⟩
    intro entry member
    obtain ⟨notServed, vector⟩ := spurious entry member
    refine ⟨notServed, vector.trans ?_⟩
    rw [Library.PicControls.vector,
      show (disableWrites.foldl (PicPair.write schedule) p).master.vectorBase = 0x20#8 from base]
    decide
  · rintro ⟨time, served, vector⟩ member
    obtain ⟨done, within, isTime, may⟩ := possible _ member
    simp only at isTime may
    cases done with
    | zero => exact .inl isTime
    | succ done =>
        refine .inr ?_
        have base := disable_base p.controls (Nat.succ_pos done) within
        generalize after : (disableWrites.take (done + 1)).foldl PicPair.controlsAfter
          p.controls = c at may base
        cases served with
        | true =>
            rw [← after] at may
            obtain ⟨window, range⟩ := disable_mayDeliver p.controls (Nat.succ_pos done) within may
            exact ⟨by simp only; omega, range⟩
        | false =>
            cases may with
            | spurious =>
                simp only [Bool.false_eq_true, if_false, isTime]
                rw [Library.PicControls.vector, base]
                by_cases early : done + 1 < 3
                · rw [if_pos early, if_pos (by omega)]
                  rfl
                · rw [if_neg early, if_neg (by omega)]
                  decide

theorem systemApicPicDisable_eq {σ : Type} (output : Stream σ) (schedule : Schedule) (p : PicPair)
    (data : σ) : systemApicPicDisable (picPorts schedule) output p data = do
      return (disableWrites.foldl (PicPair.write schedule) p,
        ← printf output "APIC: disabled pic\n" [] data) := rfl

theorem asmReadMsr_eq (registers : U32 → U64) (msr : U32) :
    asmReadMsr registers msr = registers msr := by
  apply BitVec.eq_of_getLsbD_eq
  intro i bound
  simp only [asmReadMsr, BitVec.getLsbD_or, BitVec.getLsbD_setWidth, BitVec.getLsbD_shiftLeft,
    BitVec.getLsbD_ushiftRight]
  by_cases low : i < 32
  · simp [low, bound]
  · have high : i - 32 < 32 := by omega
    have place : 32 + (i - 32) = i := by omega
    have there : i - 32 < 64 := by omega
    simp [low, high, bound, place, there]

def apicReport (apicBase hhdmOffset : U64) : List U8 :=
  str "APIC: disabled pic\n" ++
    ((if apicBase.getLsbD 8 then str "APIC: this is the bootstrap processor\n" else []) ++
      if apicBase.getLsbD 11 then
        str "APIC: apic is enabled\n" ++
          (str "APIC: base address = " ++ (hexText (apicBase &&& 0xFFFFFF000#64) ++ str "\n") ++
            (str "APIC: virtual address = " ++
              (hexText ((apicBase &&& 0xFFFFFF000#64) + hhdmOffset) ++ str "\n")))
      else panicText "APIC: apic is disabled")

theorem bit_test (value : U64) {bit : Nat} (inside : bit < 64) :
    1#64 <<< bit &&& value ≠ 0#64 ↔ value.getLsbD bit = true := by
  have power : 1#64 <<< bit = BitVec.twoPow 64 bit := rfl
  have nonzero : BitVec.twoPow 64 bit ≠ 0#64 := by
    intro zero
    have here := congrArg (fun word => word.getLsbD bit) zero
    simp [inside] at here
  rw [power, BitVec.twoPow_and]
  cases value.getLsbD bit with
  | true => simp [nonzero]
  | false => simp

variable {σ : Type} {output : Stream σ} {shown : σ → List U8 → Prop}

theorem base_recorded (value : U64) :
    vformat recorder (str "APIC: base address = %xU\n") [.unsigned value] [] =
      .ok (str "APIC: base address = " ++ (hexText value ++ str "\n")) :=
  line_recorded (by decide) value

theorem bootstrap_shows (tells : Tells output shown) (apicBase : U64) {data : σ}
    {before : List U8} (start : shown data before) :
    ∃ after, (if 1#64 <<< 8 &&& apicBase ≠ 0#64 then
        printf output "APIC: this is the bootstrap processor\n" [] data
      else pure data) = .ok after ∧
      shown after (before ++
        if apicBase.getLsbD 8 then str "APIC: this is the bootstrap processor\n" else []) := by
  by_cases bit : apicBase.getLsbD 8 = true
  · rw [if_pos ((bit_test apicBase (by decide)).mpr bit), if_pos bit]
    exact plain_shows tells _ (by decide) (by decide) start
  · rw [if_neg (mt (bit_test apicBase (by decide)).mp bit), if_neg bit, List.append_nil]
    exact ⟨data, rfl, start⟩

def tickingTimer : Schedule := fun _ => [.line 0 true, .acknowledged]

def biosPair : PicPair where
  master := ⟨⟨.ready, false, true, 0xB8#8, 0x08#8, 0x4#8, 0x1#8⟩, 0#8, 0#8⟩
  slave := ⟨⟨.ready, false, true, 0x8F#8, 0x70#8, 0x2#8, 0x1#8⟩, 0#8, 0#8⟩
  clock := 0
  delivered := []

/-- The tick between the set-up and the mask comes through. -/
example : ((disableWrites.foldl (PicPair.write tickingTimer) biosPair).delivered.filter
    (·.served)) = [⟨0, true, 0x08#8⟩, ⟨7, true, 0x20#8⟩] := by
  decide +kernel

end Drastic
