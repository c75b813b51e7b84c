import RDMAPatterns.Benchmark.Inbox
import RDMAPatterns.Benchmark.Sender
import RDMAPatterns.Transition.Runs

/-! All senders and receivers of an experiment, after `initPhase`. Each of them
takes its steps at its own pace, and so do the messages in between. -/
namespace Benchmark

open BenchmarkReceiver BenchmarkSender Channels Transition

/-- `wire` holds the messages on their way from a sender to a receiver, `answers`
the responses on their way from a receiver to a sender. -/
structure System where
  sender : Nat → Sender
  receiver : Nat → Receiver
  wire : Nat × Nat → List MessageBase
  answers : Nat × Nat → List Answer

/-- `memIdx` is the posted receive that a `SEND` takes. A `WRITE` goes to the
slot its offset names. -/
inductive Operation where
  | sender (self : Nat)
  | arrive (sender receiver memIdx : Nat)
  | receiver (self : Nat)
  | answer (receiver sender : Nat)
deriving DecidableEq, Repr

section Machine

variable (x : Experiment)

/-- The first message on a connection reaches the receiver. If it needs a posted
receive, it waits for one. -/
def arrive (sender receiver memIdx : Nat) (m : MessageBase) (rcv : Receiver) : Option Receiver :=
  match x.verbs.senderT with
  | .write => some (writeArrives rcv (x.slotOf receiver (x.msgOffset sender receiver)) m)
  | .send => sendArrives rcv sender memIdx m

def System.init : System where
  sender _ := {}
  receiver receiver := initPhase x.verbs.receiverP (x.connectedSenderIds receiver)
  wire _ := []
  answers _ := []

def System.senderStep (s : System) (self : Nat) : Option System :=
  if self ∈ x.senderIds then
    (BenchmarkSender.step x self (s.sender self)).map fun (snd, out) =>
      { s with
        sender := Function.update s.sender self snd
        wire := enqueue s.wire self out }
  else none

def System.arrival (s : System) (sender receiver memIdx : Nat) : Option System :=
  match s.wire (sender, receiver) with
  | m :: rest => (arrive x sender receiver memIdx m (s.receiver receiver)).map fun rcv =>
      { s with
        receiver := Function.update s.receiver receiver rcv
        wire := Function.update s.wire (sender, receiver) rest }
  | [] => none

def System.receiverStep (s : System) (self : Nat) : Option System :=
  (BenchmarkReceiver.step x.verbs.receiverP x.expectedClients (s.receiver self)).map
    fun (rcv, out) =>
      { s with
        receiver := Function.update s.receiver self rcv
        answers := enqueue s.answers self out }

/-- What arrives of a response. One that is not posted inline is read from its slot
of the response buffer only now. -/
def delivered (answer : Answer) (rcv : Receiver) : Answer :=
  if x.RespondsInline then answer else { answer with response := rcv.respBuffer answer.respId }

def System.answerArrival (s : System) (receiver sender : Nat) : Option System :=
  match s.answers (receiver, sender) with
  | answer :: rest =>
      (responseArrives x sender receiver (s.sender sender)
        (delivered x answer (s.receiver receiver))).map fun snd =>
          { s with
            sender := Function.update s.sender sender snd
            answers := Function.update s.answers (receiver, sender) rest }
  | [] => none

def benchmarkMachine : Machine System Operation where
  init := System.init x
  next s
    | .sender self => s.senderStep x self
    | .arrive sender receiver memIdx => s.arrival x sender receiver memIdx
    | .receiver self => s.receiverStep x self
    | .answer receiver sender => s.answerArrival x receiver sender

end Machine

/-- The messages of a sender that a receiver has neither answered nor logged. -/
def System.backlog (x : Experiment) (s : System) (sender receiver : Nat) : List MessageBase :=
  (s.receiver receiver).unanswered x.verbs.receiverP sender ++ s.wire (sender, receiver)

/-- The requests of a sender to a receiver that it has not noticed the response
to, wherever they or their responses are. -/
def System.outstanding (x : Experiment) (s : System) (sender receiver : Nat) : Nat :=
  ((s.backlog x sender receiver).filter fun m => m.type = .expMsg).length +
    (s.answers (receiver, sender)).length + (s.sender sender).ready x receiver

/-- Everything sent has been logged or is still to come, in the order of sending,
and a request is outstanding only while its sender waits for the response. -/
structure Orderly (x : Experiment) (s : System) : Prop where
  tidy : ∀ receiver, Tidy x.verbs.receiverP (s.receiver receiver)
  length : ∀ receiver, (s.receiver receiver).reqBufferLength =
    (x.connectedSenderIds receiver).foldr max 0 + 1
  counted : ∀ receiver, Counted x.expectedClients (s.receiver receiver)
  within : ∀ sender, (s.sender sender).control.Within x sender
  ledger : ∀ sender receiver,
    logOf (s.receiver receiver).log sender ++ s.backlog x sender receiver =
      sentTo x sender receiver (s.sender sender).control
  closed : ∀ sender receiver, s.outstanding x sender receiver ≤
    if (s.sender sender).control.awaits receiver then 1 else 0
  outsider : ∀ sender, sender ∉ x.senderIds → (s.sender sender).control = .loop 0

section Consequences

variable {x : Experiment} {s : System}

theorem Orderly.mem_backlog (h : Orderly x s) {sender receiver : Nat} {m : MessageBase}
    (hMem : m ∈ s.backlog x sender receiver) :
    m.type = .expMsg ∧ m.destinationNodeID = sender ∨
      m.type = .finishedExp ∧ ∃ next, (s.sender sender).control = .finalizePhase next := by
  apply @mem_sentTo _ _ receiver
  rw [← h.ledger]
  exact List.mem_append_right _ hMem

theorem Orderly.wellTyped (h : Orderly x s) (receiver : Nat) :
    WellTyped x.verbs.receiverP (s.receiver receiver) := by
  intro sender m hMem
  rcases h.mem_backlog (List.mem_append_left _ hMem) with ⟨hType, _⟩ | ⟨hType, _⟩
  · exact .inl hType
  · exact .inr hType

/-- If the last message was sent, everything before the last place is a request. -/
theorem Orderly.before_last (h : Orderly x s) {sender receiver : Nat} {m last : MessageBase}
    {before : List MessageBase} (hSent : m ∈ sentTo x sender receiver (s.sender sender).control)
    (hType : m.type = .finishedExp)
    (hBacklog : s.backlog x sender receiver = before ++ [last]) :
    ∀ other, other ∈ logOf (s.receiver receiver).log sender ∨ other ∈ before →
      other.type = .expMsg := by
  have hLedger := h.ledger sender receiver
  rw [sentTo_finished hSent hType, hBacklog, ← List.append_assoc] at hLedger
  obtain ⟨hRequests, _⟩ := List.append_inj' hLedger rfl
  intro other hOther
  have hMem : other ∈ requestsTo x sender receiver (x.requests sender) := by
    rw [← hRequests]
    exact List.mem_append.mpr hOther
  exact (mem_requestsTo hMem).1

/-- Nothing comes after the last message of a sender. -/
theorem Orderly.backlog_finished (h : Orderly x s) {sender receiver : Nat} {m : MessageBase}
    (hLogged : (sender, m) ∈ (s.receiver receiver).log) (hType : m.type = .finishedExp) :
    s.backlog x sender receiver = [] := by
  have hMem : m ∈ logOf (s.receiver receiver).log sender := mem_logOf.mpr hLogged
  have hSent : m ∈ sentTo x sender receiver (s.sender sender).control := by
    rw [← h.ledger]
    exact List.mem_append_left _ hMem
  rcases List.eq_nil_or_concat' (s.backlog x sender receiver) with hNil | ⟨before, last, hConcat⟩
  · exact hNil
  · have hRequest := h.before_last hSent hType hConcat m (.inl hMem)
    rw [hType] at hRequest
    cases hRequest

/-- At most one message of a sender is on its way to a receiver or waits there. -/
theorem Orderly.backlog_length (h : Orderly x s) (sender receiver : Nat) :
    (s.backlog x sender receiver).length ≤ 1 := by
  have hClosed := h.closed sender receiver
  rw [System.outstanding] at hClosed
  by_cases hLast : ∃ m ∈ s.backlog x sender receiver, m.type = .finishedExp
  · obtain ⟨m, hMem, hType⟩ := hLast
    have hSent : m ∈ sentTo x sender receiver (s.sender sender).control := by
      rw [← h.ledger]
      exact List.mem_append_right _ hMem
    obtain ⟨before, last, hConcat⟩ :=
      (List.eq_nil_or_concat' (s.backlog x sender receiver)).resolve_left
        (List.ne_nil_of_mem hMem)
    rcases mem_sentTo hSent with ⟨hRequest, _⟩ | ⟨_, next, hControl⟩
    · rw [hType] at hRequest
      cases hRequest
    · -- the sender waits for nothing, so no request is left in front
      rw [hControl, Control.awaits_finalizePhase, if_neg Bool.false_ne_true] at hClosed
      have hNone : ((s.backlog x sender receiver).filter fun m => m.type = .expMsg) = [] := by
        apply List.eq_nil_of_length_eq_zero
        omega
      rw [hConcat, List.filter_append, List.append_eq_nil_iff] at hNone
      have hBefore : before = [] := by
        apply List.eq_nil_iff_forall_not_mem.mpr
        intro other hOther
        have hRequest := h.before_last hSent hType hConcat other (.inr hOther)
        have hGone := List.filter_eq_nil_iff.mp hNone.1 other hOther
        exact hGone (decide_eq_true hRequest)
      simp [hConcat, hBefore]
  · have hRequests : ((s.backlog x sender receiver).filter fun m => m.type = .expMsg) =
        s.backlog x sender receiver := by
      apply List.filter_eq_self.mpr
      intro m hMem
      rcases h.mem_backlog hMem with ⟨hType, _⟩ | ⟨hType, _⟩
      · exact decide_eq_true hType
      · exact absurd ⟨m, hMem, hType⟩ hLast
    rw [hRequests] at hClosed
    split at hClosed
    all_goals omega

/-- What an arriving message finds: nothing else of its sender. -/
theorem Orderly.arrival_alone (h : Orderly x s) {sender receiver : Nat} {m : MessageBase}
    {rest : List MessageBase} (hWire : s.wire (sender, receiver) = m :: rest) :
    (s.receiver receiver).unanswered x.verbs.receiverP sender = [] ∧ rest = [] ∧
      ∀ last, (sender, last) ∈ (s.receiver receiver).log → last.type ≠ .finishedExp := by
  have hLength := h.backlog_length sender receiver
  have hBacklog : s.backlog x sender receiver =
      (s.receiver receiver).unanswered x.verbs.receiverP sender ++ m :: rest := by
    rw [System.backlog, hWire]
  rw [hBacklog, List.length_append, List.length_cons] at hLength
  refine ⟨List.eq_nil_of_length_eq_zero (by omega), List.eq_nil_of_length_eq_zero (by omega), ?_⟩
  intro last hLogged hType
  have hNil := h.backlog_finished hLogged hType
  rw [hBacklog] at hNil
  simp at hNil

end Consequences

end Benchmark
