import Drastic.Library.FanIn

namespace Drastic

open Library.FanIn (Protocol State Step Reaches AtRest start collected)

/-! `buildAssembly` of `make.go`. -/

structure Building where
  spawned : Nat
  ok : Bool
  cancelled : Bool
  deriving DecidableEq, Repr

variable {ε : Type}

/-- The channel has no room of its own. `cc` is the outcome of the compiler on a file, `killed` that
of one stopped when the five seconds are over. The panics when `fs.Glob` or `filepath.Rel` fails are
left out, and so is the message of `ccFile` when there is no directory for the object. -/
def assemblyProtocol (cc : String → Option ε) (killed : ε) :
    Protocol String (Option ε) Building where
  capacity := 0
  sends source err := err = cc source ∨ err = some killed
  waiting b := 0 < b.spawned ∧ b.cancelled = false
  take b err := { b with ok := b.ok && err.isNone, spawned := b.spawned - 1 }
  leaves b last := last = { b with ok := false, cancelled := true }
  left := by
    rintro b _ rfl ⟨_, running⟩
    cases running

def buildingStart (sources : List String) : Building := ⟨sources.length, true, false⟩

variable {cc : String → Option ε} {killed : ε} {sources : List String}

theorem building_collected (received : List (String × Option ε)) (b : Building) :
    collected (assemblyProtocol cc killed) b received =
      { b with
        spawned := b.spawned - received.length
        ok := b.ok && received.all fun message => message.2.isNone } := by
  induction received generalizing b with
  | nil => simp [collected]
  | cons message rest ih =>
      have first : collected (assemblyProtocol cc killed) b (message :: rest) =
          collected (assemblyProtocol cc killed)
            { b with ok := b.ok && message.2.isNone, spawned := b.spawned - 1 } rest := rfl
      rw [first, ih]
      simp only [List.length_cons, List.all_cons, Bool.and_assoc, Nat.sub_sub, Nat.add_comm 1]

/-- `buildAssembly` always ends. It says that all went well only after every file was compiled and
reported once, and then no goroutine is left behind; and it says so when no file fails and the
time suffices. -/
theorem assembly_built (cc : String → Option ε) (killed : ε) (sources : List String) :
    WellFounded (fun s' s => Step (assemblyProtocol cc killed) s s') ∧
    (∃ s, Reaches (assemblyProtocol cc killed) (start sources (buildingStart sources)) s ∧
      AtRest (assemblyProtocol cc killed) s) ∧
    ∀ s, Reaches (assemblyProtocol cc killed) (start sources (buildingStart sources)) s →
      AtRest (assemblyProtocol cc killed) s →
      (s.collector.ok = true → (∀ source ∈ sources, cc source = none) ∧
        (s.received.map Prod.fst).Perm sources ∧ s.running = [] ∧ s.sending = []) ∧
      ((∀ message ∈ s.messages, message.2 = cc message.1) → s.collector.cancelled = false →
        (∀ source ∈ sources, cc source = none) → s.collector.ok = true) := by
  refine ⟨Library.FanIn.step_wellFounded _, Library.FanIn.reaches_rest _ _, ?_⟩
  intro s reaches rest
  have accounted := reaches.accounted
  have followed : s.collector = collected (assemblyProtocol cc killed) (buildingStart sources)
        s.received ∨ s.collector = { collected (assemblyProtocol cc killed)
          (buildingStart sources) s.received with ok := false, cancelled := true } :=
    reaches.followed
  rw [building_collected] at followed
  constructor
  · intro ok
    have collector := followed.resolve_right fun cancelled => by
      rw [cancelled] at ok
      cases ok
    have enough : sources.length ≤ s.received.length := by
      by_contra missing
      obtain ⟨next, step⟩ := accounted.progress (fun source _ => ⟨cc source, .inl rfl⟩)
        (show 0 < s.collector.spawned ∧ s.collector.cancelled = false by
          rw [collector]
          exact ⟨Nat.sub_pos_of_lt (not_le.mp missing), rfl⟩) (not_le.mp missing)
      exact rest next step
    have all := accounted.all_received enough
    obtain ⟨running, sending, _⟩ := accounted.nothing_left enough
    refine ⟨?_, all, running, sending⟩
    intro source member
    obtain ⟨message, received, rfl⟩ := List.mem_map.mp (all.mem_iff.mpr member)
    rw [collector] at ok
    have isNone : message.2 = none := by
      simp only [buildingStart, Bool.true_and, List.all_eq_true] at ok
      exact Option.isNone_iff_eq_none.mp (ok message received)
    cases accounted.sent message (List.mem_append_right _ received) with
    | inl compiled => exact compiled.symm.trans isNone
    | inr stopped =>
        rw [isNone] at stopped
        cases stopped
  · intro compiled running clean
    have collector := followed.resolve_right fun cancelled => by
      rw [cancelled] at running
      cases running
    rw [collector]
    simp only [buildingStart, Bool.true_and, List.all_eq_true]
    intro message received
    rw [compiled message (List.mem_append_right _ received), clean message.1
      (accounted.received_subset (List.mem_map_of_mem received))]
    rfl

end Drastic
