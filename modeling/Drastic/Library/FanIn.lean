import Mathlib.Data.List.Perm.Basic
import Mathlib.Logic.Relation
import Mathlib.Order.WellFounded
import Mathlib.Tactic.Common

namespace Library.FanIn

/-! Workers that send one message each over one channel to a collector, at any speed and in any
order. -/

/-- `waiting` are the states in which the collector waits at the channel; `leaves` says where it
goes when something other than a message comes first. -/
structure Protocol (ι μ σ : Type) where
  capacity : Nat
  sends : ι → μ → Prop
  waiting : σ → Prop
  take : σ → μ → σ
  leaves : σ → σ → Prop
  left : ∀ c c', leaves c c' → ¬ waiting c'

/-- Every message carries the worker that it is from. -/
structure State (ι μ σ : Type) where
  running : List ι
  sending : List (ι × μ)
  buffer : List (ι × μ)
  received : List (ι × μ)
  collector : σ

variable {ι μ σ : Type}

def start (workers : List ι) (collector : σ) : State ι μ σ := ⟨workers, [], [], [], collector⟩

/-- A message goes through the buffer, or past it when the buffer is empty. -/
inductive Step (P : Protocol ι μ σ) (s : State ι μ σ) : State ι μ σ → Prop where
  | finish (front back : List ι) (worker : ι) (message : μ)
      (running : s.running = front ++ worker :: back) (sends : P.sends worker message) :
      Step P s { s with
        running := front ++ back, sending := s.sending ++ [(worker, message)] }
  | send (front back : List (ι × μ)) (sent : ι × μ) (sending : s.sending = front ++ sent :: back)
      (room : s.buffer.length < P.capacity) :
      Step P s { s with sending := front ++ back, buffer := s.buffer ++ [sent] }
  | receive (first : ι × μ) (rest : List (ι × μ)) (waiting : P.waiting s.collector)
      (buffer : s.buffer = first :: rest) :
      Step P s { s with
        buffer := rest
        received := s.received ++ [first]
        collector := P.take s.collector first.2 }
  | handOver (front back : List (ι × μ)) (sent : ι × μ) (waiting : P.waiting s.collector)
      (empty : s.buffer = []) (sending : s.sending = front ++ sent :: back) :
      Step P s { s with
        sending := front ++ back
        received := s.received ++ [sent]
        collector := P.take s.collector sent.2 }
  | leave (collector : σ) (waiting : P.waiting s.collector)
      (leaves : P.leaves s.collector collector) : Step P s { s with collector := collector }

abbrev Reaches (P : Protocol ι μ σ) : State ι μ σ → State ι μ σ → Prop :=
  Relation.ReflTransGen (Step P)

variable {P : Protocol ι μ σ} {workers : List ι} {initial : σ} {s s' : State ι μ σ}

def State.messages (s : State ι μ σ) : List (ι × μ) := s.sending ++ s.buffer ++ s.received

structure Accounted (P : Protocol ι μ σ) (workers : List ι) (s : State ι μ σ) : Prop where
  workers : (s.running ++ s.messages.map Prod.fst).Perm workers
  sent : ∀ message ∈ s.messages, P.sends message.1 message.2

theorem Accounted.moved (accounted : Accounted P workers s)
    (moved : s'.messages.Perm s.messages) (running : s'.running = s.running) :
    Accounted P workers s' where
  workers := running ▸ ((moved.map Prod.fst).append_left s.running).trans accounted.workers
  sent message member := accounted.sent message (moved.mem_iff.mp member)

theorem Accounted.step (accounted : Accounted P workers s) (step : Step P s s') :
    Accounted P workers s' := by
  classical
  cases step with
  | finish front back worker message running sends =>
      constructor
      · refine List.Perm.trans ?_ accounted.workers
        rw [List.perm_iff_count]
        intro other
        simp only [State.messages, running, List.map_append, List.count_append, List.count_cons,
          List.map_cons, List.map_nil, List.count_nil]
        omega
      · intro other member
        have cases : other = (worker, message) ∨ other ∈ s.messages := by
          simp only [State.messages, List.mem_append, List.mem_singleton] at member ⊢
          tauto
        cases cases with
        | inl new => exact new ▸ sends
        | inr old => exact accounted.sent other old
  | send front back sent sending room =>
      refine accounted.moved ?_ (by rfl)
      rw [List.perm_iff_count]
      intro other
      simp only [State.messages, sending, List.count_append, List.count_cons, List.count_nil]
      omega
  | receive first rest waiting buffer =>
      refine accounted.moved ?_ (by rfl)
      rw [List.perm_iff_count]
      intro other
      simp only [State.messages, buffer, List.count_append, List.count_cons, List.count_nil]
      omega
  | handOver front back sent waiting empty sending =>
      refine accounted.moved ?_ (by rfl)
      rw [List.perm_iff_count]
      intro other
      simp only [State.messages, sending, List.count_append, List.count_cons, List.count_nil]
      omega
  | leave => exact accounted.moved (.refl _) rfl

theorem accounted_start (P : Protocol ι μ σ) (workers : List ι) (initial : σ) :
    Accounted P workers (start workers initial) where
  workers := by simp [start, State.messages]
  sent message member := absurd member List.not_mem_nil

theorem Reaches.accounted (reaches : Reaches P (start workers initial) s) :
    Accounted P workers s := by
  induction reaches with
  | refl => exact accounted_start P workers initial
  | tail _ step ih => exact ih.step step

theorem Accounted.received_subset (accounted : Accounted P workers s) {worker : ι}
    (member : worker ∈ s.received.map Prod.fst) : worker ∈ workers := by
  apply accounted.workers.subset
  rw [State.messages, List.map_append]
  exact List.mem_append_right _ (List.mem_append_right _ member)

theorem Accounted.nothing_left (accounted : Accounted P workers s)
    (enough : workers.length ≤ s.received.length) :
    s.running = [] ∧ s.sending = [] ∧ s.buffer = [] := by
  have count := accounted.workers.length_eq
  simp only [State.messages, List.length_append, List.length_map] at count
  exact ⟨List.eq_nil_of_length_eq_zero (by omega), List.eq_nil_of_length_eq_zero (by omega),
    List.eq_nil_of_length_eq_zero (by omega)⟩

/-- As many messages received as there are workers come from each of them once. -/
theorem Accounted.all_received (accounted : Accounted P workers s)
    (enough : workers.length ≤ s.received.length) : (s.received.map Prod.fst).Perm workers := by
  obtain ⟨running, sending, buffer⟩ := accounted.nothing_left enough
  have workersKept := accounted.workers
  rw [running, State.messages, sending, buffer] at workersKept
  exact workersKept

def collected (P : Protocol ι μ σ) (initial : σ) (received : List (ι × μ)) : σ :=
  (received.map Prod.snd).foldl P.take initial

theorem collected_append (received : List (ι × μ)) (message : ι × μ) :
    collected P initial (received ++ [message]) =
      P.take (collected P initial received) message.2 := by
  simp only [collected, List.map_append, List.map_cons, List.map_nil, List.foldl_append,
    List.foldl_cons, List.foldl_nil]

/-- Up to the step with which it left. -/
def Followed (P : Protocol ι μ σ) (initial : σ) (s : State ι μ σ) : Prop :=
  s.collector = collected P initial s.received ∨
    P.leaves (collected P initial s.received) s.collector

theorem Followed.waiting (followed : Followed P initial s) (waiting : P.waiting s.collector) :
    s.collector = collected P initial s.received :=
  followed.resolve_right fun leaves => P.left _ _ leaves waiting

theorem Followed.step (followed : Followed P initial s) (step : Step P s s') :
    Followed P initial s' := by
  cases step with
  | finish => exact followed
  | send => exact followed
  | receive first rest waiting =>
      refine .inl ?_
      rw [followed.waiting waiting]
      exact (collected_append s.received first).symm
  | handOver front back sent waiting =>
      refine .inl ?_
      rw [followed.waiting waiting]
      exact (collected_append s.received sent).symm
  | leave collector waiting leaves =>
      rw [followed.waiting waiting] at leaves
      exact .inr leaves

theorem Reaches.followed (reaches : Reaches P (start workers initial) s) :
    Followed P initial s := by
  induction reaches with
  | refl => exact .inl rfl
  | tail _ step ih => exact ih.step step

theorem Accounted.progress (accounted : Accounted P workers s)
    (total : ∀ worker ∈ workers, ∃ message, P.sends worker message)
    (waiting : P.waiting s.collector) (missing : s.received.length < workers.length) :
    ∃ s', Step P s s' := by
  cases running : s.running with
  | cons worker back =>
      have member : worker ∈ workers := accounted.workers.subset (by simp [running])
      obtain ⟨message, sends⟩ := total worker member
      exact ⟨_, .finish [] back worker message running sends⟩
  | nil =>
      cases buffer : s.buffer with
      | cons first rest => exact ⟨_, .receive first rest waiting buffer⟩
      | nil =>
          cases sending : s.sending with
          | cons sent back => exact ⟨_, .handOver [] back sent waiting buffer sending⟩
          | nil =>
              have count := accounted.workers.length_eq
              simp [State.messages, running, buffer, sending] at count
              omega

/-- What is still to be done, at most. -/
noncomputable def remaining (P : Protocol ι μ σ) (s : State ι μ σ) : Nat :=
  open Classical in
  3 * s.running.length + 2 * s.sending.length + s.buffer.length +
    if P.waiting s.collector then 1 else 0

theorem Step.remaining_lt (step : Step P s s') : remaining P s' < remaining P s := by
  classical
  have atMost (c : σ) : (if P.waiting c then 1 else 0) ≤ 1 := by
    split
    · exact le_rfl
    · exact Nat.zero_le 1
  cases step with
  | finish front back worker message running sends =>
      simp only [remaining, running, List.length_append, List.length_cons, List.length_nil]
      omega
  | send front back sent sending room =>
      simp only [remaining, sending, List.length_append, List.length_cons, List.length_nil]
      omega
  | receive first rest waiting buffer =>
      have later := atMost (P.take s.collector first.2)
      simp only [remaining, buffer, if_pos waiting, List.length_cons]
      omega
  | handOver front back sent waiting empty sending =>
      have later := atMost (P.take s.collector sent.2)
      simp only [remaining, sending, if_pos waiting, List.length_append, List.length_cons]
      omega
  | leave collector waiting leaves =>
      simp only [remaining, if_pos waiting, if_neg (P.left _ _ leaves)]
      omega

theorem step_wellFounded (P : Protocol ι μ σ) :
    WellFounded (fun s' s : State ι μ σ => Step P s s') :=
  Subrelation.wf (fun step => step.remaining_lt) (measure (remaining P)).wf

def AtRest (P : Protocol ι μ σ) (s : State ι μ σ) : Prop := ∀ s', ¬ Step P s s'

theorem reaches_rest (P : Protocol ι μ σ) (s : State ι μ σ) :
    ∃ s', Reaches P s s' ∧ AtRest P s' := by
  induction s using (step_wellFounded P).induction with
  | _ s ih =>
      by_cases rest : AtRest P s
      · exact ⟨s, .refl, rest⟩
      · obtain ⟨next, step⟩ := not_forall_not.mp rest
        obtain ⟨last, reaches, atRest⟩ := ih next step
        exact ⟨last, .head step reaches, atRest⟩

end Library.FanIn
