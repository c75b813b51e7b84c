import Mathlib.Algebra.Order.BigOperators.Group.List
import Mathlib.Data.Prod.Lex
import RDMAPatterns.Benchmark.Responses
import RDMAPatterns.Transition.Refinement

/-! The benchmark can always be completed: no message gets lost or stuck, and nobody
waits for something that cannot come. This does not change if the senders of a process
wait for each other between `benchmarkPhase` and `finalizePhase`, as `benchmarkDriver`
makes them. -/
namespace Benchmark

open BenchmarkReceiver BenchmarkSender Channels Transition

/-- A sender whose next step leaves `benchmarkPhase`. -/
def Leaving (x : Experiment) (self : Nat) : BenchmarkSender.Control → Prop
  | .loop i => x.requests self ≤ i
  | .await _ _ | .finalizePhase _ => False

/-- A sender that has come to the barrier behind its requests. -/
def AtBarrier (x : Experiment) (self : Nat) : BenchmarkSender.Control → Prop
  | .loop i => x.requests self ≤ i
  | .await _ _ => False
  | .finalizePhase _ => True

instance (x : Experiment) (self : Nat) (control : BenchmarkSender.Control) :
    Decidable (Leaving x self control) :=
  match control with
  | .loop i => inferInstanceAs (Decidable (_ ≤ i))
  | .await _ _ | .finalizePhase _ => .isFalse id

instance (x : Experiment) (self : Nat) (control : BenchmarkSender.Control) :
    Decidable (AtBarrier x self control) :=
  match control with
  | .loop i => inferInstanceAs (Decidable (_ ≤ i))
  | .await _ _ => .isFalse id
  | .finalizePhase _ => .isTrue trivial

/-- A sender passes the barrier when all senders of its process have come to it. -/
def Passes (x : Experiment) (senderProcess : Nat → Nat) (s : System) : Operation → Prop
  | .sender self => Leaving x self (s.sender self).control →
      ∀ other ∈ x.senderIds, senderProcess other = senderProcess self →
        AtBarrier x other (s.sender other).control
  | .arrive _ _ _ | .receiver _ | .answer _ _ => True

instance (x : Experiment) (senderProcess : Nat → Nat) (s : System) (a : Operation) :
    Decidable (Passes x senderProcess s a) :=
  match a with
  | .sender _ => inferInstanceAs (Decidable (_ → _))
  | .arrive _ _ _ | .receiver _ | .answer _ _ => .isTrue trivial

/-- The benchmark with the barriers of the processes. -/
def barrierMachine (x : Experiment) (senderProcess : Nat → Nat) : Machine System Operation :=
  (benchmarkMachine x).guarded (Passes x senderProcess)

/-- Messages and receivers do not wait at a barrier. -/
theorem free_next {x : Experiment} {senderProcess : Nat → Nat} {s t : System} {a : Operation}
    (hFree : ∀ self, a ≠ .sender self) (hNext : (benchmarkMachine x).next s a = some t) :
    (barrierMachine x senderProcess).next s a = some t := by
  apply Machine.guarded_next _ hNext
  cases a with
  | sender self => exact absurd rfl (hFree self)
  | arrive _ _ _ | receiver _ | answer _ _ => trivial

/-- All senders are through with `finalizePhase`, all receivers have returned with
the number of requests addressed to them, and nothing is on its way. -/
structure Complete (x : Experiment) (s : System) : Prop where
  senders : ∀ sender ∈ x.senderIds, ∃ next,
    (s.sender sender).control = .finalizePhase next ∧ x.recvIds.length ≤ next
  receivers : ∀ receiver ∈ x.recvIds, ∃ memIdx,
    (s.receiver receiver).control = .returned memIdx (addressed x receiver)
  empty : ∀ sender ∈ x.senderIds, ∀ receiver ∈ x.recvIds,
    s.backlog x sender receiver = [] ∧ s.answers (receiver, sender) = []

section Measure

/-- The steps that a sender still has to take. -/
def stepsLeft (x : Experiment) (self : Nat) : BenchmarkSender.Control → Nat
  | .loop i => 2 * (x.requests self - i) + x.recvIds.length + 1
  | .await i _ => 2 * (x.requests self - i) + x.recvIds.length
  | .finalizePhase next => x.recvIds.length - next

/-- How far a receiver is from its next look for a message. -/
def stage : BenchmarkReceiver.Control → Nat
  | .finalizeSRQ _ _ | .finalizeFinished _ => 5
  | .poll _ => 4
  | .handle _ _ => 3
  | .finalizeBuf _ _ => 2
  | .transfer _ _ => 1
  | .returned _ _ => 0

variable (x : Experiment)

def workLeft (rcv : Receiver) : Nat :=
  6 * (x.senderIds.map fun sender => (rcv.unanswered x.verbs.receiverP sender).length).sum +
    stage rcv.control

/-- A number for each connection, added up. -/
def overConnections (f : Nat → Nat → Nat) : Nat :=
  (x.senderIds.map fun sender => (x.recvIds.map fun receiver => f sender receiver).sum).sum

/-- What is left to do, the causes in front of what they cause. -/
def System.left (s : System) : Nat ×ₗ Nat ×ₗ Nat ×ₗ Nat :=
  toLex ((x.senderIds.map fun sender => stepsLeft x sender (s.sender sender).control).sum,
    toLex (overConnections x fun sender receiver => (s.wire (sender, receiver)).length,
      toLex ((x.recvIds.map fun receiver => workLeft x (s.receiver receiver)).sum,
        overConnections x fun sender receiver => (s.answers (receiver, sender)).length)))

variable {x} {s t : System}

/-- A sum over the connections shrinks if one of its terms does. -/
theorem overConnections_lt {f g : Nat → Nat → Nat} (hLe : ∀ sender receiver,
    f sender receiver ≤ g sender receiver) {sender receiver : Nat} (hSender : sender ∈ x.senderIds)
    (hReceiver : receiver ∈ x.recvIds) (hLt : f sender receiver < g sender receiver) :
    overConnections x f < overConnections x g := by
  apply List.sum_lt_sum
  · exact fun source _ => List.sum_le_sum fun destination _ => hLe source destination
  · refine ⟨sender, hSender, List.sum_lt_sum _ _ ?_ ⟨receiver, hReceiver, hLt⟩⟩
    exact fun destination _ => hLe sender destination

/-- A sender that gets further outweighs what it sends. -/
theorem left_lt_of_sender {self : Nat} (hSelf : self ∈ x.senderIds)
    (hOther : ∀ sender, sender ≠ self → t.sender sender = s.sender sender)
    (hLess : stepsLeft x self (t.sender self).control <
      stepsLeft x self (s.sender self).control) : t.left x < s.left x := by
  refine Prod.Lex.toLex_lt_toLex.mpr (.inl (List.sum_lt_sum _ _ ?_ ⟨self, hSelf, hLess⟩))
  intro sender _
  by_cases hSame : sender = self
  · rw [hSame]
    exact hLess.le
  · rw [hOther sender hSame]

/-- A message that arrives outweighs the work it makes. -/
theorem left_lt_of_wire {sender receiver : Nat} {m : MessageBase} {rest : List MessageBase}
    (hSender : sender ∈ x.senderIds) (hReceiver : receiver ∈ x.recvIds)
    (hSenders : t.sender = s.sender) (hWire : s.wire (sender, receiver) = m :: rest)
    (hAfter : t.wire = Function.update s.wire (sender, receiver) rest) : t.left x < s.left x := by
  refine Prod.Lex.toLex_lt_toLex.mpr (.inr ⟨by simp only [hSenders], ?_⟩)
  refine Prod.Lex.toLex_lt_toLex.mpr (.inl (overConnections_lt ?_ hSender hReceiver ?_))
  · intro source destination
    rw [hAfter]
    by_cases hPair : (source, destination) = (sender, receiver)
    · rw [hPair, Function.update_self, hWire]
      exact Nat.le_succ _
    · rw [Function.update_of_ne hPair]
  · rw [hAfter, Function.update_self, hWire]
    exact Nat.lt_succ_self _

/-- A receiver that gets further outweighs the response it sends. -/
theorem left_lt_of_receiver {self : Nat} (hSelf : self ∈ x.recvIds) (hSenders : t.sender = s.sender)
    (hWire : t.wire = s.wire)
    (hOther : ∀ receiver, receiver ≠ self → t.receiver receiver = s.receiver receiver)
    (hLess : workLeft x (t.receiver self) < workLeft x (s.receiver self)) :
    t.left x < s.left x := by
  refine Prod.Lex.toLex_lt_toLex.mpr (.inr ⟨by simp only [hSenders], ?_⟩)
  refine Prod.Lex.toLex_lt_toLex.mpr (.inr ⟨by simp only [hWire], ?_⟩)
  refine Prod.Lex.toLex_lt_toLex.mpr (.inl (List.sum_lt_sum _ _ ?_ ⟨self, hSelf, hLess⟩))
  intro receiver _
  by_cases hSame : receiver = self
  · rw [hSame]
    exact hLess.le
  · rw [hOther receiver hSame]

theorem left_lt_of_answer {sender receiver : Nat} {answer : Answer} {rest : List Answer}
    (hSender : sender ∈ x.senderIds) (hReceiver : receiver ∈ x.recvIds)
    (hControls : ∀ other, (t.sender other).control = (s.sender other).control)
    (hWire : t.wire = s.wire) (hReceivers : t.receiver = s.receiver)
    (hAnswers : s.answers (receiver, sender) = answer :: rest)
    (hAfter : t.answers = Function.update s.answers (receiver, sender) rest) :
    t.left x < s.left x := by
  refine Prod.Lex.toLex_lt_toLex.mpr (.inr ⟨by simp only [hControls], ?_⟩)
  refine Prod.Lex.toLex_lt_toLex.mpr (.inr ⟨by simp only [hWire], ?_⟩)
  refine Prod.Lex.toLex_lt_toLex.mpr (.inr ⟨by simp only [hReceivers], ?_⟩)
  refine overConnections_lt ?_ hSender hReceiver ?_
  · intro source destination
    rw [hAfter]
    by_cases hPair : (destination, source) = (receiver, sender)
    · rw [hPair, Function.update_self, hAnswers]
      exact Nat.le_succ _
    · rw [Function.update_of_ne hPair]
  · rw [hAfter, Function.update_self, hAnswers]
    exact Nat.lt_succ_self _

end Measure

section Receivers

variable {x : Experiment} {senderProcess : Nat → Nat} {s : System}

/-- A message is logged or stays, and one that is logged is taken off the others. -/
theorem progress_sum {rcv next : Receiver} {out : Option (Nat × Answer)} {POLL : RdmaPoll}
    (hProgress : Progress POLL rcv next out)
    (hSenders : ∀ conn, rcv.unanswered POLL conn ≠ [] → conn ∈ x.senderIds) :
    (next.log = rcv.log ∧
        (x.senderIds.map fun sender => (next.unanswered POLL sender).length).sum =
          (x.senderIds.map fun sender => (rcv.unanswered POLL sender).length).sum) ∨
      (x.senderIds.map fun sender => (next.unanswered POLL sender).length).sum <
        (x.senderIds.map fun sender => (rcv.unanswered POLL sender).length).sum := by
  have hTaken : ∀ conn m, Takes POLL rcv next conn m →
      (x.senderIds.map fun sender => (next.unanswered POLL sender).length).sum <
        (x.senderIds.map fun sender => (rcv.unanswered POLL sender).length).sum := by
    intro conn m hTakes
    have hOwn : (next.unanswered POLL conn).length < (rcv.unanswered POLL conn).length := by
      rw [hTakes.own]
      exact Nat.lt_succ_self _
    have hConn : conn ∈ x.senderIds := by
      apply hSenders
      rw [hTakes.own]
      simp
    apply List.sum_lt_sum _ _ _ ⟨conn, hConn, hOwn⟩
    intro sender _
    by_cases hSame : sender = conn
    · rw [hSame]
      exact hOwn.le
    · rw [hTakes.others sender hSame]
  cases hProgress with
  | idle hUnanswered hLog => exact .inl ⟨hLog, by simp only [hUnanswered]⟩
  | finished hTakes => exact .inr (hTaken _ _ hTakes)
  | answered hTakes => exact .inr (hTaken _ _ hTakes)

/-- The number of places in the loop of a receiver. -/
theorem stage_le (control : BenchmarkReceiver.Control) : stage control ≤ 5 := by
  cases control <;> simp [stage]

/-- Behind its look for a message a receiver gets closer to the next one. -/
theorem stage_lt {POLL : RdmaPoll} {expectedClients : Nat} {rcv next : Receiver}
    {out : Option (Nat × Answer)}
    (hStep : BenchmarkReceiver.step POLL expectedClients rcv = some (next, out))
    (hBusy : ∀ pos, rcv.control ≠ .poll pos)
    (hTyped : WellTyped POLL rcv) (hLog : next.log = rcv.log) :
    stage next.control < stage rcv.control := by
  have hGrown : ∀ {entry : Nat × MessageBase}, rcv.log ++ [entry] ≠ rcv.log := by
    intro entry hSame
    have hLength := congrArg List.length hSame
    rw [List.length_append, List.length_singleton] at hLength
    omega
  cases BenchmarkReceiver.step_cases hStep with
  | poll hControl => exact absurd hControl (hBusy _)
  | @handle conn memIdx hControl =>
      rcases type_in_hand hTyped hControl with hType | hType
      · simp only [handle, hType, hControl]
        cases POLL with
        | buf | srq | rq => simp [stage]
      · simp only [handle, hType] at hLog
        exact absurd hLog hGrown
  | finalizeBuf hControl | finalizeSRQ hControl | finalizeFinished hControl =>
      rw [hControl]
      simp [stage]
  | transfer hControl =>
      cases POLL with
      | buf | srq | rq => exact absurd hLog hGrown

/-- A receiver gets further with each message it logs, and in between with each step
towards it. -/
theorem workLeft_lt {rcv next : Receiver} {out : Option (Nat × Answer)}
    (hProgress : Progress x.verbs.receiverP rcv next out)
    (hSenders : ∀ conn, rcv.unanswered x.verbs.receiverP conn ≠ [] → conn ∈ x.senderIds)
    (hStage : next.log = rcv.log → stage next.control < stage rcv.control) :
    workLeft x next < workLeft x rcv := by
  have hLe := stage_le next.control
  rw [workLeft, workLeft]
  rcases progress_sum hProgress hSenders with ⟨hLog, hSum⟩ | hSum
  · have hLess := hStage hLog
    omega
  · omega

/-- Messages come from the senders of the experiment. -/
theorem Orderly.unanswered_sender (h : Orderly x s) {receiver conn : Nat}
    (hUnanswered : (s.receiver receiver).unanswered x.verbs.receiverP conn ≠ []) :
    conn ∈ x.senderIds := by
  apply @Orderly.sends x s h conn receiver
  intro hNil
  exact hUnanswered (List.append_eq_nil_iff.mp hNil).1

/-- A receiver in the middle of its loop can go on. -/
theorem exists_worked (h : Orderly x s) {receiver : Nat} (hReceiver : receiver ∈ x.recvIds)
    (hBusy : ∀ pos, (s.receiver receiver).control ≠ .poll pos)
    (hRunning : ∀ memIdx requests, (s.receiver receiver).control ≠ .returned memIdx requests) :
    ∃ t, (barrierMachine x senderProcess).Leads s t ∧ t.left x < s.left x := by
  obtain ⟨⟨rcv, out⟩, hStep⟩ : ∃ result,
      BenchmarkReceiver.step x.verbs.receiverP x.expectedClients (s.receiver receiver) =
        some result := by
    rw [BenchmarkReceiver.step]
    cases hControl : (s.receiver receiver).control with
    | poll pos => exact absurd hControl (hBusy pos)
    | returned memIdx requests => exact absurd hControl (hRunning memIdx requests)
    | _ => exact ⟨_, rfl⟩
  obtain ⟨t, hNext, hSender, hReceivers, hWire, _⟩ := exists_receiverStep receiver hStep
  obtain ⟨hProgress, _⟩ := step_progress (h.tidy receiver) (h.wellTyped receiver) hStep
  refine ⟨t, .single (free_next (by simp) hNext), left_lt_of_receiver hReceiver hSender hWire ?_ ?_⟩
  · intro other hOther
    rw [hReceivers, Function.update_of_ne hOther]
  · rw [hReceivers, Function.update_self]
    exact workLeft_lt hProgress (fun conn => h.unanswered_sender)
      (stage_lt hStep hBusy (h.wellTyped receiver))

/-- The messages of a receiver that looks for one are those that have landed. -/
theorem unanswered_of_poll {POLL : RdmaPoll} {rcv : Receiver} {pos : Nat}
    (hControl : rcv.control = .poll pos) (conn : Nat) :
    rcv.unanswered POLL conn = rcv.landed POLL conn := by
  simp [Receiver.unanswered, Receiver.inHand, hControl]

/-- The number of slots in front of a full one, in the order of the search. -/
def slotsBefore (length pos slot : Nat) : Nat :=
  if pos ≤ slot then slot - pos else (length - pos) + slot + 1

theorem slotsBefore_succ {length pos slot : Nat} (hSlot : slot < length) (hPos : pos ≠ slot) :
    slotsBefore length (if pos + 1 < length then pos + 1 else 0) slot <
      slotsBefore length pos slot := by
  unfold slotsBefore
  split_ifs
  all_goals omega

/-- A receiver that goes through its slots comes to a full one. -/
theorem exists_found (hBuf : x.verbs.receiverP = .buf) {receiver slot pos : Nat}
    (hControl : (s.receiver receiver).control = .poll pos)
    (hFull : ((s.receiver receiver).reqBuffer slot).type ≠ .empty)
    (hSlot : slot < (s.receiver receiver).reqBufferLength) :
    ∃ t found, (barrierMachine x senderProcess).Leads s t ∧ t.sender = s.sender ∧ t.wire = s.wire ∧
      t.receiver = Function.update s.receiver receiver
        { s.receiver receiver with control := .handle found found } ∧
      ((s.receiver receiver).reqBuffer found).type ≠ .empty := by
  induction hBefore : slotsBefore (s.receiver receiver).reqBufferLength pos slot using
      Nat.strong_induction_on generalizing s pos with
  | h n ih =>
      by_cases hHere : ((s.receiver receiver).reqBuffer pos).type = .empty
      · have hStep : BenchmarkReceiver.step x.verbs.receiverP x.expectedClients
            (s.receiver receiver) = some ({ s.receiver receiver with
              control := .poll
                (if pos + 1 < (s.receiver receiver).reqBufferLength then pos + 1 else 0) }, none) := by
          rw [BenchmarkReceiver.step, hControl, hBuf]
          simp only [poll, if_pos hHere, Option.map_some]
        obtain ⟨middle, hNext, hSender, hReceiver, hWire, _⟩ := exists_receiverStep receiver hStep
        have hPos : pos ≠ slot := fun hSame => hFull (hSame ▸ hHere)
        have hLess := slotsBefore_succ hSlot hPos
        rw [hBefore] at hLess
        obtain ⟨t, found, hLeads, hSender', hWire', hReceiver', hFound⟩ :=
          @ih _ hLess middle _ (by rw [hReceiver, Function.update_self])
            (by rw [hReceiver, Function.update_self]; exact hFull)
            (by rw [hReceiver, Function.update_self]; exact hSlot)
            (by rw [hReceiver, Function.update_self])
        rw [hReceiver, Function.update_self] at hFound
        refine ⟨t, found, .head (free_next (by simp) hNext) hLeads, hSender'.trans hSender,
          hWire'.trans hWire, ?_, hFound⟩
        rw [hReceiver', hReceiver, Function.update_self, Function.update_idem]
      · have hStep : BenchmarkReceiver.step x.verbs.receiverP x.expectedClients
            (s.receiver receiver) =
              some ({ s.receiver receiver with control := .handle pos pos }, none) := by
          rw [BenchmarkReceiver.step, hControl, hBuf]
          simp only [poll, if_neg hHere, Option.map_some]
        obtain ⟨t, hNext, hSender, hReceiver, hWire, _⟩ := exists_receiverStep receiver hStep
        exact ⟨t, pos, .single (free_next (by simp) hNext), hSender, hWire, hReceiver, hHere⟩

/-- A receiver takes up a message that has landed. -/
theorem exists_taken (h : Orderly x s) {receiver sender pos : Nat}
    (hReceiver : receiver ∈ x.recvIds) (hControl : (s.receiver receiver).control = .poll pos)
    (hUnanswered : (s.receiver receiver).unanswered x.verbs.receiverP sender ≠ []) :
    ∃ t, (barrierMachine x senderProcess).Leads s t ∧ t.left x < s.left x := by
  have hSender := h.unanswered_sender hUnanswered
  have hStage : ∀ {rcv : Receiver} {conn memIdx : Nat}, rcv.control = .handle conn memIdx →
      stage rcv.control < stage (s.receiver receiver).control := by
    intro rcv conn memIdx hHandle
    rw [hHandle, hControl]
    simp [stage]
  rcases x.verbs.senderT_eq with ⟨_, hP⟩ | ⟨_, hP⟩
  · have hFull : ((s.receiver receiver).reqBuffer sender).type ≠ .empty := by
      intro hEmpty
      apply hUnanswered
      rw [unanswered_of_poll hControl, hP]
      simp [Receiver.landed, hEmpty]
    have hSlot : sender < (s.receiver receiver).reqBufferLength := by
      rw [h.length receiver]
      exact sender_lt_length x receiver hSender
    obtain ⟨t, found, hLeads, hSenders, hWire, hReceivers, hFound⟩ :=
      exists_found hP hControl hFull hSlot
    refine ⟨t, hLeads, left_lt_of_receiver hReceiver hSenders hWire ?_ ?_⟩
    · intro other hOther
      rw [hReceivers, Function.update_of_ne hOther]
    · have hProgress : Progress x.verbs.receiverP (s.receiver receiver)
          { s.receiver receiver with control := .handle found found } none := by
        refine .idle (fun conn => ?_) rfl
        rw [unanswered_of_poll hControl, hP]
        by_cases hConn : found = conn
        · subst hConn
          simp [Receiver.unanswered, Receiver.inHand, Receiver.landed, Control.slot, hControl, hFound]
        · simp [Receiver.unanswered, Receiver.inHand, Receiver.landed, Control.slot, hControl, hConn]
      rw [hReceivers, Function.update_self]
      exact workLeft_lt hProgress (fun conn => h.unanswered_sender) fun _ => hStage rfl
  · obtain ⟨entry, rest, hCompleted⟩ : ∃ entry rest,
        (s.receiver receiver).srq.completed = entry :: rest := by
      apply List.exists_cons_of_ne_nil
      intro hNil
      apply hUnanswered
      rw [unanswered_of_poll hControl, hP]
      simp [Receiver.landed, hNil]
    have hStep : BenchmarkReceiver.step x.verbs.receiverP x.expectedClients
        (s.receiver receiver) = some ({ s.receiver receiver with
          srq := { (s.receiver receiver).srq with completed := rest }
          control := .handle entry.1 entry.2 }, none) := by
      rw [BenchmarkReceiver.step, hControl, hP]
      simp only [poll, Verbs.SharedReceiveQueue.poll, hCompleted, Option.map_some]
    obtain ⟨t, hNext, hSenders, hReceivers, hWire, _⟩ := exists_receiverStep receiver hStep
    obtain ⟨hProgress, _⟩ := step_progress (h.tidy receiver) (h.wellTyped receiver) hStep
    refine ⟨t, .single (free_next (by simp) hNext), left_lt_of_receiver hReceiver hSenders hWire ?_ ?_⟩
    · intro other hOther
      rw [hReceivers, Function.update_of_ne hOther]
    · rw [hReceivers, Function.update_self]
      exact workLeft_lt hProgress (fun conn => h.unanswered_sender) fun _ => hStage rfl

end Receivers

section Transfers

variable {x : Experiment} {senderProcess : Nat → Nat} {s : System}

/-- Everything sent to a receiver that has returned was logged. -/
theorem Orderly.backlog_of_returned (h : Orderly x s) {receiver memIdx requests : Nat}
    (hReturned : (s.receiver receiver).control = .returned memIdx requests) {sender : Nat}
    (hSender : sender ∈ x.senderIds) : s.backlog x sender receiver = [] := by
  obtain ⟨_, hAll⟩ := (h.counted receiver).returned memIdx requests hReturned
  exact h.backlog_finished (h.all_finished hAll hSender) rfl

/-- A message finds a slot at a receiver that looks for one. -/
theorem exists_arrived (h : Orderly x s) {sender receiver pos : Nat} (hSender : sender ∈ x.senderIds)
    (hReceiver : receiver ∈ x.recvIds) (hControl : (s.receiver receiver).control = .poll pos)
    (hWire : s.wire (sender, receiver) ≠ []) :
    ∃ t, (barrierMachine x senderProcess).Leads s t ∧ t.left x < s.left x := by
  obtain ⟨m, rest, hCons⟩ := List.exists_cons_of_ne_nil hWire
  obtain ⟨memIdx, rcv, hArrive⟩ : ∃ memIdx rcv,
      arrive x sender receiver memIdx m (s.receiver receiver) = some rcv := by
    rcases x.verbs.senderT_eq with ⟨hT, _⟩ | ⟨hT, hP⟩
    · exact ⟨0, _, by rw [arrive, hT]⟩
    · have hTidy : TidySRQ (s.receiver receiver) := by
        have hEach := h.tidy receiver
        rwa [hP] at hEach
      have hOccupied := h.occupied_lt hP hWire
      have hTaken := taken_length (s.receiver receiver) hTidy
      have hReceives := hTidy.receives
      have hLength := h.length receiver
      have hEnough := expectedClients_le x receiver
      rw [hControl] at hTaken
      simp only [Control.uncounted] at hTaken
      rw [Verbs.SharedReceiveQueue.held, List.length_append, List.length_map] at hReceives
      -- as many receives are posted as senders have not finished and do not occupy one
      have hPosted : 0 < (s.receiver receiver).srq.posted.length := by omega
      obtain ⟨memIdx, hMem⟩ := List.exists_mem_of_length_pos hPosted
      obtain ⟨q, hTaken⟩ : ∃ q, (s.receiver receiver).srq.arrive sender memIdx = some q :=
        ⟨_, if_pos hMem⟩
      refine ⟨memIdx, { writeArrives (s.receiver receiver) memIdx m with srq := q }, ?_⟩
      rw [arrive, hT]
      simp only [sendArrives, hTaken, Option.map_some]
  obtain ⟨t, hNext, hSenders, _, _, hAfter⟩ := exists_arrival hCons hArrive
  exact ⟨t, .single (free_next (by simp) hNext), left_lt_of_wire hSender hReceiver hSenders hCons hAfter⟩

/-- A response finds the receive that was posted for it. -/
theorem exists_answered (h : Responsive x s) {sender receiver : Nat} (hSender : sender ∈ x.senderIds)
    (hReceiver : receiver ∈ x.recvIds) (hAnswers : s.answers (receiver, sender) ≠ []) :
    ∃ t, (barrierMachine x senderProcess).Leads s t ∧ t.left x < s.left x := by
  obtain ⟨answer, rest, hCons⟩ := List.exists_cons_of_ne_nil hAnswers
  obtain ⟨i, hAwait, rfl⟩ := h.answer sender receiver answer (by rw [hCons]; simp)
  obtain ⟨hPtr, hResponds⟩ := responds_delivered
    (h.written sender receiver (answerTo x sender i) (by rw [hCons]; simp))
  obtain ⟨snd, hArrives⟩ : ∃ snd, responseArrives x sender receiver (s.sender sender)
      (delivered x (answerTo x sender i) (s.receiver receiver)) = some snd := by
    rw [responseArrives]
    cases hVerbs : x.verbs with
    | writeWrite | sendWrite => exact ⟨_, if_pos hPtr⟩
    | sendSend | writeSend =>
        have hRq : x.verbs.senderP = .rq := by
          rw [hVerbs]
          rfl
        have hOne := h.orderly.outstanding_le sender receiver
        have hReady : (s.sender sender).ready x receiver = (s.sender sender).completed receiver := by
          rw [Sender.ready, hRq]
        rw [System.outstanding, hCons, List.length_cons, hReady] at hOne
        have hPosted := h.posted hRq sender i receiver hAwait (by omega)
        exact ⟨_, if_pos hPosted⟩
  obtain ⟨hControl, _⟩ := responseArrives_responds hAwait hPtr hResponds.written.2 hArrives
  obtain ⟨t, hNext, hSenders, hReceivers, hWire, hAfter⟩ := exists_answerArrival hCons hArrives
  refine ⟨t, .single (free_next (by simp) hNext),
    left_lt_of_answer hSender hReceiver ?_ hWire hReceivers hCons hAfter⟩
  intro other
  rw [hSenders]
  by_cases hSame : other = sender
  · rw [hSame, Function.update_self, hControl]
  · rw [Function.update_of_ne hSame]

end Transfers

section Senders

variable {x : Experiment} {senderProcess : Nat → Nat} {s : System}

/-- A step of a sender that gets it further, provided that the barrier lets it pass. -/
theorem exists_stepped {self : Nat} (hSelf : self ∈ x.senderIds) {next : Sender}
    {out : Option (Nat × MessageBase)} (hPasses : Passes x senderProcess s (.sender self))
    (hStep : BenchmarkSender.step x self (s.sender self) = some (next, out))
    (hLess : stepsLeft x self next.control < stepsLeft x self (s.sender self).control) :
    ∃ t, (barrierMachine x senderProcess).Leads s t ∧ t.left x < s.left x := by
  obtain ⟨t, hNext, hSenders, _⟩ := exists_senderStep hSelf hStep
  refine ⟨t, .single (Machine.guarded_next hPasses hNext), left_lt_of_sender hSelf ?_ ?_⟩
  · intro sender hSender
    rw [hSenders, Function.update_of_ne hSender]
  · rw [hSenders, Function.update_self]
    exact hLess

/-- Only a sender that leaves its loop has to pass the barrier. -/
theorem passes_of_stays {self : Nat} (hStays : ¬ Leaving x self (s.sender self).control) :
    Passes x senderProcess s (.sender self) :=
  fun hLeaving => absurd hLeaving hStays

/-- A sender that has a request left can go on. -/
theorem exists_requested (hReceivers : x.recvIds ≠ []) {sender i : Nat}
    (hSender : sender ∈ x.senderIds) (hControl : (s.sender sender).control = .loop i)
    (hMore : i < x.requests sender) :
    ∃ t, (barrierMachine x senderProcess).Leads s t ∧ t.left x < s.left x := by
  obtain ⟨receiver, rest, hCons⟩ := List.exists_cons_of_ne_nil hReceivers
  obtain ⟨picked, hPicked⟩ :=
    @exists_picked x receiver (by rw [hCons]; exact List.mem_cons_self) sender i
  obtain ⟨next, hStep, hAwait, _⟩ := exists_asked hControl hMore hPicked
  have hStays : ¬ Leaving x sender (s.sender sender).control := by
    rw [hControl]
    exact Nat.not_le_of_lt hMore
  apply exists_stepped hSender (passes_of_stays hStays) hStep
  rw [hAwait, hControl]
  exact Nat.lt_succ_self _

/-- If all senders have come to the barrier, each can pass it. -/
theorem exists_passed (hAll : ∀ other ∈ x.senderIds, AtBarrier x other (s.sender other).control)
    {sender i : Nat} (hSender : sender ∈ x.senderIds)
    (hControl : (s.sender sender).control = .loop i) :
    ∃ t, (barrierMachine x senderProcess).Leads s t ∧ t.left x < s.left x := by
  have hDone := hAll sender hSender
  rw [hControl] at hDone
  have hStep : BenchmarkSender.step x sender (s.sender sender) =
      some ({ s.sender sender with control := .finalizePhase 0 }, none) := by
    rw [BenchmarkSender.step, hControl]
    exact if_neg (Nat.not_lt_of_le hDone)
  apply exists_stepped hSender (fun _ other hOther _ => hAll other hOther) hStep
  rw [hControl]
  simp only [stepsLeft]
  omega

/-- A sender whose response has arrived can go on. -/
theorem exists_resumed (h : Orderly x s) {sender i receiver : Nat} (hSender : sender ∈ x.senderIds)
    (hControl : (s.sender sender).control = .await i receiver)
    (hReady : 0 < (s.sender sender).ready x receiver) :
    ∃ t, (barrierMachine x senderProcess).Leads s t ∧ t.left x < s.left x := by
  have hWithin := h.within sender
  rw [hControl] at hWithin
  obtain ⟨next, hNext⟩ : ∃ next, awaitResponse x i receiver (s.sender sender) = some next := by
    rw [awaitResponse]
    cases hP : x.verbs.senderP with
    | rq =>
        rw [Sender.ready, hP] at hReady
        exact ⟨_, if_pos hReady⟩
    | buf =>
        rw [Sender.ready, hP] at hReady
        simp only at hReady
        split at hReady
        case isTrue hFlag => exact ⟨_, if_pos hFlag.2⟩
        case isFalse => cases hReady
    | srq => exact ⟨_, rfl⟩
  obtain ⟨hLoop, _⟩ := awaitResponse_ready hControl hNext
  have hStep : BenchmarkSender.step x sender (s.sender sender) = some (next, none) := by
    rw [BenchmarkSender.step, hControl]
    simp only [hNext, Option.map_some]
  apply exists_stepped hSender (passes_of_stays (by rw [hControl]; exact id)) hStep
  rw [hLoop, hControl]
  simp only [stepsLeft, BenchmarkSender.Control.Within] at hWithin ⊢
  omega

/-- A sender in `finalizePhase` waits for nobody. -/
theorem exists_finalized {sender next : Nat} (hSender : sender ∈ x.senderIds)
    (hControl : (s.sender sender).control = .finalizePhase next)
    (hMore : next < x.recvIds.length) :
    ∃ t, (barrierMachine x senderProcess).Leads s t ∧ t.left x < s.left x := by
  have hStep : BenchmarkSender.step x sender (s.sender sender) =
      some ({ s.sender sender with control := .finalizePhase (next + 1) },
        some (x.recvIds[next], Experiment.finishedExperimentMsg)) := by
    rw [BenchmarkSender.step, hControl]
    simp only [List.getElem?_eq_getElem hMore, Option.map_some]
  apply exists_stepped hSender (passes_of_stays (by rw [hControl]; exact id)) hStep
  rw [hControl]
  simp only [stepsLeft]
  omega

end Senders

section Returns

variable {x : Experiment} {s t : System}

/-- A receiver that has not returned waits for the last message of some sender. -/
def Running (expectedClients : Nat) (rcv : Receiver) : Prop :=
  (∀ memIdx requests, rcv.control ≠ .returned memIdx requests) →
    rcv.clientsFinished < expectedClients

theorem Running.same {expectedClients : Nat} {rcv next : Receiver} (h : Running expectedClients rcv)
    (hRunning : ∀ memIdx requests, rcv.control ≠ .returned memIdx requests)
    (hFinished : next.clientsFinished = rcv.clientsFinished) : Running expectedClients next := by
  intro _
  rw [hFinished]
  exact h hRunning

/-- The receiver returns exactly when the last client is counted. -/
theorem step_running {POLL : RdmaPoll} {expectedClients : Nat} {rcv next : Receiver}
    {out : Option (Nat × Answer)} (h : Running expectedClients rcv)
    (hStep : BenchmarkReceiver.step POLL expectedClients rcv = some (next, out)) :
    Running expectedClients next := by
  cases BenchmarkReceiver.step_cases hStep with
  | @poll pos found hControl hPoll =>
      apply h.same (by simp [hControl])
      cases POLL with
      | buf =>
          rw [poll] at hPoll
          split at hPoll
          all_goals
            obtain rfl := Option.some.inj hPoll
            rfl
      | srq =>
          obtain ⟨_, _, rfl⟩ := Option.map_eq_some_iff.mp hPoll
          rfl
      | rq =>
          obtain rfl := Option.some.inj hPoll
          rfl
  | @handle conn memIdx hControl =>
      have hBefore := h (by simp [hControl])
      cases hType : (rcv.reqBuffer memIdx).type with
      | expMsg | empty | initExp =>
          apply h.same (by simp [hControl])
          simp only [handle, hType]
      | finishedExp =>
          intro hRunning
          simp only [handle, hType] at hRunning ⊢
          split at hRunning
          · exact absurd rfl (hRunning memIdx rcv.handledRequests)
          · omega
  | transfer hControl =>
      apply h.same (by simp [hControl])
      cases POLL with
      | buf | srq | rq => rfl
  | finalizeBuf hControl | finalizeSRQ hControl | finalizeFinished hControl =>
      exact h.same (by simp [hControl]) rfl

/-- As long as there is a sender, the last message of some sender is to come. -/
theorem reachable_running (hSenders : x.senderIds ≠ [])
    (hReachable : (benchmarkMachine x).Reachable s) (receiver : Nat) :
    Running x.expectedClients (s.receiver receiver) := by
  have hBoth : Orderly x s ∧ ∀ receiver, Running x.expectedClients (s.receiver receiver) := by
    apply @Machine.Reachable.invariant _ _ (benchmarkMachine x) (fun s =>
      Orderly x s ∧ ∀ receiver, Running x.expectedClients (s.receiver receiver)) s hReachable
    · refine ⟨init_orderly x, fun receiver _ => ?_⟩
      have hNone : ((System.init x).receiver receiver).clientsFinished = 0 := by
        cases hP : x.verbs.receiverP with
        | buf | srq | rq => simp [System.init, initPhase, initReqBuffer, hP, receiveBatchSRQ]
      show ((System.init x).receiver receiver).clientsFinished < _
      rw [hNone]
      exact List.length_pos_of_ne_nil hSenders
    · rintro s op t ⟨h, hRunning⟩ hNext
      have hAfter := next_orderly h hNext
      refine ⟨hAfter, fun other => ?_⟩
      cases op with
      | sender self =>
          obtain ⟨_, _, _, _, _, hReceiver, _⟩ := senderStep_eq_some hNext
          rw [hReceiver]
          exact hRunning other
      | answer destination self =>
          obtain ⟨_, _, _, _, _, _, hReceiver, _⟩ := answerArrival_eq_some hNext
          rw [hReceiver]
          exact hRunning other
      | receiver self =>
          obtain ⟨rcv, out, hStep, _, hReceiver, _⟩ := receiverStep_eq_some hNext
          rw [hReceiver]
          by_cases hSame : other = self
          · rw [hSame, Function.update_self]
            exact step_running (hRunning self) hStep
          · rw [Function.update_of_ne hSame]
            exact hRunning other
      | arrive sender self memIdx =>
          obtain ⟨_, _, rcv, _, hArrive, _, hReceiver, _⟩ := arrival_eq_some hNext
          by_cases hSame : other = self
          · obtain ⟨hLog, hControl, _⟩ := arrive_elsewhere hArrive
            have hRcv : t.receiver other = rcv := by rw [hReceiver, hSame, Function.update_self]
            have hFinished : rcv.clientsFinished = (s.receiver self).clientsFinished := by
              rw [← hRcv, ← (hAfter.counted other).finished, ← (h.counted self).finished, hRcv, hLog]
            intro hGoesOn
            rw [hRcv, hControl] at hGoesOn
            rw [hRcv, hFinished]
            exact hRunning self hGoesOn
          · rw [hReceiver, Function.update_of_ne hSame]
            exact hRunning other
  exact hBoth.2 receiver

/-- If all senders are through and nothing is on its way, a receiver has logged the
last messages of all. -/
theorem Orderly.finished_of_through (h : Orderly x s) {receiver : Nat}
    (hReceiver : receiver ∈ x.recvIds)
    (hThrough : ∀ sender ∈ x.senderIds, ∃ next,
      (s.sender sender).control = .finalizePhase next ∧ x.recvIds.length ≤ next)
    (hEmpty : ∀ sender ∈ x.senderIds, s.backlog x sender receiver = []) :
    x.expectedClients ≤ (s.receiver receiver).clientsFinished := by
  have hSubset : x.senderIds ⊆ finishedSenders (s.receiver receiver).log := by
    intro sender hSender
    obtain ⟨next, hControl, hAll⟩ := hThrough sender hSender
    have hLedger := h.ledger sender receiver
    rw [hEmpty sender hSender, List.append_nil, hControl, sentTo, List.take_of_length_le hAll,
      if_pos hReceiver] at hLedger
    refine mem_finishedSenders.mpr ⟨Experiment.finishedExperimentMsg, mem_logOf.mp ?_, rfl⟩
    rw [hLedger]
    simp
  have hLength := (List.subperm_of_subset
    (NodeIDSequencer.idsWhere_nodup x.registrations _) hSubset).length_le
  rw [finishedSenders, List.length_map, (h.counted receiver).finished] at hLength
  exact hLength

/-- A receiver that has returned counted what was addressed to it. -/
theorem Orderly.addressed_of_returned (h : Orderly x s) {receiver memIdx requests : Nat}
    (hReturned : (s.receiver receiver).control = .returned memIdx requests) :
    requests = addressed x receiver := by
  have hCounted := h.counted receiver
  obtain ⟨rfl, hAll⟩ := hCounted.returned memIdx requests hReturned
  have hHandled := hCounted.handled
  rw [h.requests_logged hAll, hReturned] at hHandled
  exact hHandled.symm

end Returns

section Completion

variable {x : Experiment} {senderProcess : Nat → Nat} {s : System}

/-- A state in which nothing is left to be done is complete. -/
theorem Responsive.complete (h : Responsive x s) (hReceivers : x.recvIds ≠ [])
    (hRunning : ∀ receiver, Running x.expectedClients (s.receiver receiver))
    (hStuck : ¬ ∃ t, (barrierMachine x senderProcess).Leads s t ∧ t.left x < s.left x) :
    Complete x s := by
  have hIdle : ∀ receiver ∈ x.recvIds, (∃ pos, (s.receiver receiver).control = .poll pos) ∨
      ∃ memIdx requests, (s.receiver receiver).control = .returned memIdx requests := by
    intro receiver hReceiver
    by_contra hBusy
    rw [not_or, not_exists, not_exists] at hBusy
    exact hStuck (exists_worked h.orderly hReceiver hBusy.1
      fun memIdx requests hReturned => hBusy.2 memIdx ⟨requests, hReturned⟩)
  have hEmpty : ∀ sender ∈ x.senderIds, ∀ receiver ∈ x.recvIds,
      s.backlog x sender receiver = [] := by
    intro sender hSender receiver hReceiver
    rcases hIdle receiver hReceiver with ⟨pos, hControl⟩ | ⟨memIdx, requests, hReturned⟩
    · have hUnanswered : (s.receiver receiver).unanswered x.verbs.receiverP sender = [] := by
        by_contra hSome
        exact hStuck (exists_taken h.orderly hReceiver hControl hSome)
      have hWire : s.wire (sender, receiver) = [] := by
        by_contra hSome
        exact hStuck (exists_arrived h.orderly hSender hReceiver hControl hSome)
      rw [System.backlog, hUnanswered, hWire]
      rfl
    · exact h.orderly.backlog_of_returned hReturned hSender
  have hSilent : ∀ sender ∈ x.senderIds, ∀ receiver ∈ x.recvIds,
      s.answers (receiver, sender) = [] := by
    intro sender hSender receiver hReceiver
    by_contra hSome
    exact hStuck (exists_answered h hSender hReceiver hSome)
  -- nobody is kept from the barrier, and so nobody is kept at it
  have hBarrier : ∀ sender ∈ x.senderIds, AtBarrier x sender (s.sender sender).control := by
    intro sender hSender
    cases hControl : (s.sender sender).control with
    | loop i =>
        by_contra hMore
        exact hStuck (exists_requested hReceivers hSender hControl (Nat.lt_of_not_le hMore))
    | await i receiver =>
        have hReceiver : receiver ∈ x.recvIds :=
          List.mem_of_getElem? (h.picked sender i receiver hControl)
        have hOwed := h.owed sender i receiver hControl
        rw [System.outstanding, hEmpty sender hSender receiver hReceiver,
          hSilent sender hSender receiver hReceiver, List.filter_nil, List.length_nil,
          List.length_nil, Nat.zero_add] at hOwed
        exact absurd (exists_resumed h.orderly hSender hControl hOwed) hStuck
    | finalizePhase next => trivial
  have hThrough : ∀ sender ∈ x.senderIds, ∃ next,
      (s.sender sender).control = .finalizePhase next ∧ x.recvIds.length ≤ next := by
    intro sender hSender
    cases hControl : (s.sender sender).control with
    | loop i => exact absurd (exists_passed hBarrier hSender hControl) hStuck
    | await i receiver =>
        have hAt := hBarrier sender hSender
        rw [hControl] at hAt
        exact hAt.elim
    | finalizePhase next =>
        refine ⟨next, rfl, ?_⟩
        by_contra hMore
        exact hStuck (exists_finalized hSender hControl (Nat.lt_of_not_le hMore))
  refine ⟨hThrough, ?_, fun sender hSender receiver hReceiver =>
    ⟨hEmpty sender hSender receiver hReceiver, hSilent sender hSender receiver hReceiver⟩⟩
  intro receiver hReceiver
  rcases hIdle receiver hReceiver with ⟨pos, hControl⟩ | ⟨memIdx, requests, hReturned⟩
  · have hLess := hRunning receiver (by simp [hControl])
    have hAll := h.orderly.finished_of_through hReceiver hThrough
      fun sender hSender => hEmpty sender hSender receiver hReceiver
    omega
  · rw [hReturned, h.orderly.addressed_of_returned hReturned]
    exact ⟨memIdx, rfl⟩

/-- A benchmark that is not complete can get closer to its end. -/
theorem exists_fewer_left (hSenders : x.senderIds ≠ []) (hReceivers : x.recvIds ≠ [])
    (hReachable : (benchmarkMachine x).Reachable s) (hOpen : ¬Complete x s) :
    ∃ t, (barrierMachine x senderProcess).Leads s t ∧ t.left x < s.left x := by
  by_contra hStuck
  exact hOpen ((reachable_responsive hReachable).complete hReceivers
    (reachable_running hSenders hReachable) hStuck)

/-- However the senders are distributed over processes, their barriers let everyone
through. -/
theorem leads_to_complete (hSenders : x.senderIds ≠ []) (hReceivers : x.recvIds ≠ [])
    (hReachable : (benchmarkMachine x).Reachable s) :
    ∃ t, (barrierMachine x senderProcess).Leads s t ∧ Complete x t := by
  refine Machine.leads_to_goal_within (System.left x) (fun s hReachable hOpen => ?_) hReachable
  obtain ⟨t, hLeads, hLess⟩ := exists_fewer_left hSenders hReceivers hReachable hOpen
  exact ⟨t, hLeads, hLeads.of_guarded.reachable hReachable, hLess⟩

end Completion

end Benchmark
