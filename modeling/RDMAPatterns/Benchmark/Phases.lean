import RDMAPatterns.Benchmark.Completion
import RDMAPatterns.Benchmark.HandshakeSteps

/-! The phases of an experiment, as `benchmarkDriver` runs them. Nobody waits for the
other nodes between `initPhase` and `benchmarkPhase`: a sender begins with its requests
while a receiver still replies to others. In front of `finalizePhase` there is a barrier,
but only for the senders of one process. -/
namespace InitPhase

open Benchmark Channels Transition Verbs

section Handed

variable {x : Setup} {s : State} {self : Nat} {rcv : Receiver}

/-- Behind the loop over the reports. -/
def ReceiverControl.collected : ReceiverControl → Bool
  | .reply _ | .replied _ | .returned => true
  | _ => false

/-- The loop over the reports is over, in terms of where the handshake proofs look. -/
theorem ReceiverControl.collected_iff {control : ReceiverControl} :
    control.collected = true ↔ control.starting = false ∧ control ≠ .pollReceiveSRQ := by
  cases control with
  | _ => simp [collected, starting]

/-- Nobody is replied to before all have reported. -/
theorem ReceiverControl.replies_eq_zero {control : ReceiverControl}
    (h : control.collected = false) (total : Nat) : control.replies total = 0 := by
  cases control with
  | reply i | replied i | returned => cases h
  | _ => simp [replies]

/-- Behind its loop a receiver has the shared receive queue that `initReqBuffer` fills,
and nothing is left in it of the reports. -/
def Receiver.Handed (x : Setup) (rcv : Receiver) : Prop :=
  rcv.control.collected = true →
    rcv.srq = (initReqBuffer x { reqBufferLength := x.maxNodeID + 1 }).srq

/-- What is posted for the requests depends on the queue before, which has to be empty. -/
theorem srq_initReqBuffer (x : Setup) {rcv : Receiver} (hEmpty : rcv.srq = {}) :
    (initReqBuffer x rcv).srq =
      (initReqBuffer x { reqBufferLength := rcv.reqBufferLength }).srq := by
  unfold initReqBuffer
  split
  · rw [hEmpty]
  · exact hEmpty
  · exact hEmpty

theorem reqBufferLength_initReqBuffer (x : Setup) (rcv : Receiver) :
    (initReqBuffer x rcv).reqBufferLength = rcv.reqBufferLength := by
  obtain ⟨posted, -, hBuffer⟩ := initReqBuffer_eq x rcv
  rw [hBuffer]

/-- The last report takes the last receive that was posted for one. -/
theorem srq_of_last (h : Reported x s) {entry : Nat × Nat} {srq : SharedReceiveQueue}
    (hControl : (s.receiver self).control = .pollReceiveSRQ)
    (hPoll : (s.receiver self).srq.poll = some (entry, srq))
    (hLast : (s.receiver self).connectedSenderIds.length + 1 = x.expectedClients) :
    srq = {} := by
  obtain ⟨hCompleted, hPosted⟩ := SharedReceiveQueue.poll_eq_some hPoll
  have hStage := h.stage self
  rw [Stage, hControl] at hStage
  have hCount := hStage.1
  rw [Receiver.reporters, hCompleted, List.length_append, List.length_map,
    List.length_cons] at hCount
  have hNone : srq.posted = [] := List.eq_nil_of_length_eq_zero (by rw [hPosted]; omega)
  have hOver : srq.completed = [] := List.eq_nil_of_length_eq_zero (by omega)
  obtain ⟨posted, completed⟩ := srq
  obtain rfl : posted = [] := hNone
  obtain rfl : completed = [] := hOver
  rfl

/-- The poll that finds the last report also posts the receives for the requests. -/
theorem handed_of_poll (h : Reported x s) {out : Option (Nat × MessageBase)}
    (hStep : receiverStep x s self = some (rcv, out))
    (hControl : (s.receiver self).control = .pollReceiveSRQ)
    (hLength : rcv.control.collected = true → rcv.reqBufferLength = x.maxNodeID + 1) :
    rcv.Handed x := by
  simp only [receiverStep, hControl] at hStep
  obtain ⟨⟨⟨nodeId, memoryIdx⟩, srq⟩, hPoll, hPair⟩ := Option.map_eq_some_iff.mp hStep
  obtain ⟨rfl, rfl⟩ := Prod.mk.inj hPair
  have hMessage := h.typed self (nodeId, memoryIdx) (by
    rw [(SharedReceiveQueue.poll_eq_some hPoll).1]
    exact List.mem_cons_self)
  intro hCollected
  have hFull := hLength hCollected
  simp only [handleReport, if_pos hMessage] at hCollected hFull ⊢
  by_cases hLast : ((s.receiver self).connectedSenderIds ++ [nodeId]).length = x.expectedClients
  · rw [if_pos hLast] at hFull ⊢
    rw [List.length_append, List.length_singleton] at hLast
    rw [reqBufferLength_initReqBuffer] at hFull
    rw [srq_initReqBuffer x (srq_of_last h hControl hPoll hLast), hFull]
  · rw [if_neg hLast] at hCollected
    cases hCollected

/-- No report is on its way to a receiver that has them all. -/
theorem Reported.wire_of_collected (h : Reported x s) {sender receiver : Nat}
    (hCollected : (s.receiver receiver).control.collected = true) :
    s.wire (sender, receiver) = [] := by
  by_contra hWire
  obtain ⟨hStarting, hPoll⟩ := ReceiverControl.collected_iff.mp hCollected
  have hSender := h.mem_senderIds (Or.inl hWire)
  have hConnected := (h.connected_perm hStarting hPoll).2.mem_iff.mpr hSender
  have hReporter : 0 < (s.receiver receiver).reporters.count sender :=
    List.count_pos_iff.mpr (List.mem_append_right _ hConnected)
  have hOnWire := List.length_pos_iff.mpr hWire
  have hOne := h.count_le sender receiver
  omega

/-- A step of the receiver hands over the right queue, or has done so already. -/
theorem receiver_handed {t : State} (h : Replied x s) (hHanded : (s.receiver self).Handed x)
    (hNext : next x s (.receiver self) = some t) : (t.receiver self).Handed x := by
  have hServing := (next_replied h hNext).serving self
  obtain ⟨-, rcv, out, hMoves, hReceiver, -⟩ := next_receiver h.reported hNext
  have hRcv : t.receiver self = rcv := by rw [hReceiver, Function.update_self]
  rw [hRcv] at hServing ⊢
  have hLength : rcv.control.collected = true → rcv.reqBufferLength = x.maxNodeID + 1 := by
    intro hCollected
    obtain ⟨hStarting, hPoll⟩ := ReceiverControl.collected_iff.mp hCollected
    exact (hServing.buffer hStarting hPoll).1
  have hPolls : (s.receiver self).control = .pollReceiveSRQ → rcv.Handed x := by
    intro hControl
    simp only [next, Option.ite_none_right_eq_some, Option.map_eq_some_iff] at hNext
    obtain ⟨-, ⟨found, sent⟩, hStep, rfl⟩ := hNext
    obtain rfl : found = rcv := (Function.update_self self found s.receiver).symm.trans hRcv
    exact handed_of_poll h.reported hStep hControl hLength
  cases hMoves with
  | constructing hControl hNext =>
      rw [(h.serving self).constructed] at hControl
      cases hControl
  | receiveBatch hControl => exact fun hCollected => by cases hCollected
  | collect hControl hPoll hMore | last hControl hPoll hLast hPosted => exact hPolls hControl
  | reply hControl hId | replied hControl hId hReplies =>
      exact fun _ => hHanded (by rw [hControl]; rfl)

/-- After the last report nothing touches the queue: no report is left that could
arrive. -/
theorem next_handed {t : State} {a : Operation} (h : Replied x s)
    (hHanded : ∀ receiver, (s.receiver receiver).Handed x) (hNext : next x s a = some t) :
    ∀ receiver, (t.receiver receiver).Handed x := by
  intro receiver
  cases a with
  | sender self =>
      obtain ⟨-, snd, out, -, -, hReceiver, -⟩ := next_sender hNext
      rw [hReceiver]
      exact hHanded receiver
  | receiver self =>
      by_cases hSame : receiver = self
      · subst hSame
        exact receiver_handed h (hHanded receiver) hNext
      · obtain ⟨-, rcv, out, -, hReceiver, -⟩ := next_receiver h.reported hNext
        rw [hReceiver, Function.update_of_ne hSame]
        exact hHanded receiver
  | arrive sender destination memIdx =>
      obtain ⟨m, rest, srq, hOn, -, hReceiver, -⟩ := next_arrive hNext
      rw [hReceiver]
      by_cases hSame : receiver = destination
      · subst hSame
        rw [Function.update_self]
        intro hCollected
        have hNone := @Reported.wire_of_collected _ _ h.reported sender receiver hCollected
        rw [hNone] at hOn
        cases hOn
      · rw [Function.update_of_ne hSame]
        exact hHanded receiver
  | answer source sender =>
      obtain ⟨m, rest, -, -, -, hReceiver, -⟩ := next_answer hNext
      rw [hReceiver]
      exact hHanded receiver

/-- In every run of the handshake the benchmark gets the queue that it expects. -/
theorem reachable_handed (h : (initMachine x).Reachable s) (receiver : Nat) :
    (s.receiver receiver).Handed x := by
  have hBoth : Replied x s ∧ ∀ receiver, (s.receiver receiver).Handed x := by
    apply h.invariant ⟨replied_init x, fun _ hCollected => by cases hCollected⟩
    exact fun _ _ _ hInv hNext => ⟨next_replied hInv.1 hNext, next_handed hInv.1 hInv.2 hNext⟩
  exact hBoth.2 receiver

/-- A sender that has come through has been replied to by every receiver. -/
theorem Replied.collected (h : Replied x s) {sender receiver : Nat}
    (hReturned : (s.sender sender).control = .returned) (hReceiver : receiver ∈ x.recvIds) :
    (s.receiver receiver).control.collected = true := by
  have hLedger := h.ledger sender receiver
  have hOne : 0 < x.recvIds.count receiver := List.count_pos_iff.mpr hReceiver
  rw [Sender.finished, hReturned, SenderControl.finishes, List.take_length] at hLedger
  by_contra hNot
  rw [Receiver.repliedTo, ReceiverControl.replies_eq_zero (Bool.eq_false_of_not_eq_true hNot),
    List.take_zero, List.count_nil] at hLedger
  omega

/-- A sender that has returned from `initPhase` has done so for good. -/
theorem returned_kept {t : State} {a : Operation} (h : Reported x s) (hNext : next x s a = some t)
    {sender : Nat} (hReturned : (s.sender sender).control = .returned) :
    (t.sender sender).control = .returned := by
  cases a with
  | sender self =>
      obtain ⟨-, snd, out, hMoves, hSender, -⟩ := next_sender hNext
      have hOther : sender ≠ self := by
        rintro rfl
        cases hMoves with
        | starting hControl hNext =>
            rw [hReturned] at hControl
            cases hControl
        | receive hControl hNext | through hControl hNext | send hControl hNext
        | sent hControl hNext hWire | pollReceive hControl hNext hReceived
        | lastReceive hControl =>
            rw [hReturned] at hControl
            cases hControl
      rw [hSender, Function.update_of_ne hOther]
      exact hReturned
  | receiver self =>
      obtain ⟨-, rcv, out, -, -, hSender, -⟩ := next_receiver h hNext
      rw [hSender]
      exact hReturned
  | arrive source receiver memIdx =>
      obtain ⟨m, rest, srq, -, -, -, hSender, -⟩ := next_arrive hNext
      rw [hSender]
      exact hReturned
  | answer receiver other =>
      obtain ⟨m, rest, -, -, hSender, -⟩ := next_answer hNext
      rw [hSender]
      by_cases hSame : sender = other
      · rw [hSame] at hReturned ⊢
        rw [Function.update_self]
        exact hReturned
      · rw [Function.update_of_ne hSame]
        exact hReturned

end Handed

end InitPhase

namespace BenchmarkDriver

open Benchmark Transition
open BenchmarkSender (Experiment)

/-- An experiment and where it runs: the processes of the nodes, and the memory that the
receivers get. The request buffers of the experiment are those that `initPhase` allocates. -/
structure Deployment where
  experiment : Experiment
  senderProcess : Nat → Nat
  receiverProcess : Nat → Nat
  localAlloc : Nat → Nat → Nat
  reqBufferOffset_eq : ∀ receiver, experiment.reqBufferOffset receiver =
    localAlloc receiver (sizeofMessageBase * (experiment.senderIds.foldr max 0 + 1))

def Deployment.setup (d : Deployment) : InitPhase.Setup where
  POLL := d.experiment.verbs.receiverP
  numberPreparedResponses := d.experiment.respBufferSize
  senderIds := d.experiment.senderIds
  recvIds := d.experiment.recvIds
  senderProcess := d.senderProcess
  receiverProcess := d.receiverProcess
  localAlloc := d.localAlloc
  senderIds_nodup := NodeIDSequencer.idsWhere_nodup d.experiment.registrations _
  recvIds_nodup := NodeIDSequencer.idsWhere_nodup d.experiment.registrations _

/-- What belongs to `initPhase`, and what to the phases behind it. The shared receive queue
and the request buffer of a receiver are those of `init` up to `initReqBuffer`, and those of
`bench` from there on. -/
structure State where
  init : InitPhase.State
  bench : System

inductive Operation where
  | init (a : InitPhase.Operation)
  | bench (a : Benchmark.Operation)
deriving DecidableEq, Repr

section Program

variable (d : Deployment)

/-- A request, or a last message, that reaches a receiver in front of `initReqBuffer`. A
`SEND` takes a receive that was posted for a report, and a `WRITE` does not reach the
buffer. -/
def earlyArrival (s : State) (sender receiver memIdx : Nat) : Option State :=
  match s.bench.wire (sender, receiver) with
  | m :: rest =>
      let bench := { s.bench with wire := Function.update s.bench.wire (sender, receiver) rest }
      match d.experiment.verbs.senderT with
      | .write => some { s with bench := bench }
      | .send => ((s.init.receiver receiver).srq.arrive sender memIdx).map fun srq =>
          { init := { s.init with
              receiver := Function.update s.init.receiver receiver { s.init.receiver receiver with
                srq := srq
                initBuffer := Function.update (s.init.receiver receiver).initBuffer memIdx m } }
            bench := bench }
  | [] => none

/-- A step of a node or a message behind `initPhase`. -/
def benchStep (s : State) (a : Benchmark.Operation) : Option State :=
  ((barrierMachine d.experiment d.senderProcess).next s.bench a).map fun bench =>
    { s with bench := bench }

def next (s : State) : Operation → Option State
  | .init a => (InitPhase.next d.setup s.init a).map fun init => { s with init := init }
  | .bench (.sender self) =>
      if (s.init.sender self).control = .returned then benchStep d s (.sender self) else none
  | .bench (.receiver self) =>
      if self ∈ d.experiment.recvIds → (s.init.receiver self).control = .returned then
        benchStep d s (.receiver self)
      else none
  | .bench (.arrive sender receiver memIdx) =>
      if (s.init.receiver receiver).control.collected then
        benchStep d s (.arrive sender receiver memIdx)
      else earlyArrival d s sender receiver memIdx
  | .bench (.answer receiver sender) => benchStep d s (.answer receiver sender)

/-- From the point where all senders are connected to all receivers. -/
def driverMachine : Machine State Operation where
  init := ⟨(InitPhase.initMachine d.setup).init, System.init d.experiment⟩
  next := next d

end Program

/-- The phases as they are kept apart: what has happened in each is a run of its own, and
a sender in `initPhase` has asked for nothing. -/
structure Apart (d : Deployment) (s : State) : Prop where
  init : (InitPhase.initMachine d.setup).Reachable s.init
  bench : (benchmarkMachine d.experiment).Reachable s.bench
  silent : ∀ sender, (s.init.sender sender).control ≠ .returned → s.bench.sender sender = {}

/-- A sender behind `initPhase` knows the slots that the benchmark takes for granted, and no
receive is left on its connections. -/
structure HandedSender (d : Deployment) (self : Nat) (snd : InitPhase.Sender) : Prop where
  offsets : (snd.recvIds.map fun ri => (ri.nodeId, ri.msgOffset)) =
    d.experiment.recvIds.map fun receiver => (receiver, d.experiment.msgOffset self receiver)
  receives : ∀ receiver, snd.receives receiver = 0 ∧ snd.received receiver = []

/-- A receiver that has all reports is the one that the benchmark starts with. -/
structure HandedReceiver (d : Deployment) (self : Nat) (rcv : InitPhase.Receiver) : Prop where
  srq : rcv.srq = ((System.init d.experiment).receiver self).srq
  length : rcv.reqBufferLength = ((System.init d.experiment).receiver self).reqBufferLength
  buffer : rcv.reqBuffer = d.experiment.reqBufferOffset self

section Facts

variable {d : Deployment} {s t : State}

/-- A step behind `initPhase` is one of the benchmark alone. -/
theorem benchStep_eq_some {a : Benchmark.Operation} (hNext : benchStep d s a = some t) :
    t.init = s.init ∧ (benchmarkMachine d.experiment).next s.bench a = some t.bench := by
  obtain ⟨bench, hBench, rfl⟩ := Option.map_eq_some_iff.mp hNext
  exact ⟨rfl, Machine.next_of_guarded hBench⟩

/-- A receiver that is sent something is one of the experiment. -/
theorem mem_recvIds_of_wire {x : Experiment} {b : System} (h : Orderly x b)
    {sender receiver : Nat} (hWire : b.wire (sender, receiver) ≠ []) : receiver ∈ x.recvIds := by
  obtain ⟨m, hMem⟩ := List.exists_mem_of_ne_nil _ hWire
  have hSent : m ∈ BenchmarkSender.sentTo x sender receiver (b.sender sender).control := by
    rw [← h.ledger]
    exact List.mem_append_right _ (List.mem_append_right _ hMem)
  have hRequest : ∀ n, m ∈ BenchmarkSender.requestsTo x sender receiver n →
      receiver ∈ x.recvIds := by
    intro n hTo
    obtain ⟨i, hFiltered, -⟩ := List.mem_map.mp hTo
    exact List.mem_of_getElem? (of_decide_eq_true (List.mem_filter.mp hFiltered).2)
  cases hControl : (b.sender sender).control with
  | loop i =>
      rw [hControl] at hSent
      exact hRequest i hSent
  | await i other =>
      rw [hControl] at hSent
      exact hRequest (i + 1) hSent
  | finalizePhase next =>
      rw [hControl, BenchmarkSender.sentTo, List.mem_append] at hSent
      rcases hSent with hTo | hLast
      · exact hRequest _ hTo
      · split at hLast
        case isTrue hTaken => exact (List.take_sublist _ _).subset hTaken
        case isFalse => cases hLast

/-- Only its own steps and the responses to it change a sender. -/
theorem sender_unchanged {x : Experiment} {b c : System} {a : Benchmark.Operation} {sender : Nat}
    (hNext : (benchmarkMachine x).next b a = some c) (hOther : a ≠ .sender sender)
    (hNone : ∀ receiver, b.answers (receiver, sender) = []) : c.sender sender = b.sender sender := by
  cases a with
  | sender self =>
      obtain ⟨snd, out, _, _, hSender, _⟩ := senderStep_eq_some hNext
      have hSame : sender ≠ self := by
        rintro rfl
        exact hOther rfl
      rw [hSender, Function.update_of_ne hSame]
  | arrive source receiver memIdx =>
      obtain ⟨_, _, _, _, _, hSender, _⟩ := arrival_eq_some hNext
      rw [hSender]
  | receiver self =>
      obtain ⟨_, _, _, hSender, _⟩ := receiverStep_eq_some hNext
      rw [hSender]
  | answer receiver other =>
      obtain ⟨answer, rest, snd, hAnswers, _, hSender, _⟩ := answerArrival_eq_some hNext
      have hSame : sender ≠ other := by
        rintro rfl
        rw [hNone] at hAnswers
        cases hAnswers
      rw [hSender, Function.update_of_ne hSame]

variable (h : Apart d s)

include h

/-- Only a sender that is through with `initPhase` has something on its way. -/
theorem Apart.returned_of_wire {sender receiver : Nat}
    (hWire : s.bench.wire (sender, receiver) ≠ []) :
    (s.init.sender sender).control = .returned := by
  by_contra hOn
  have hLedger := (reachable_orderly h.bench).ledger sender receiver
  rw [h.silent sender hOn, BenchmarkSender.sentTo, BenchmarkSender.requestsTo] at hLedger
  exact hWire (List.append_eq_nil_iff.mp (List.append_eq_nil_iff.mp hLedger).2).2

/-- Nobody responds to a sender that has not asked. -/
theorem Apart.answers_eq_nil {sender : Nat} (hOn : (s.init.sender sender).control ≠ .returned)
    (receiver : Nat) : s.bench.answers (receiver, sender) = [] := by
  have hClosed := (reachable_orderly h.bench).closed sender receiver
  rw [System.outstanding, h.silent sender hOn, BenchmarkSender.Control.awaits_loop,
    if_neg Bool.false_ne_true] at hClosed
  exact List.eq_nil_of_length_eq_zero (by omega)

/-- A message never comes too early: its receiver has replied to the sender, and so has
all reports. -/
theorem Apart.collected_of_wire {sender receiver : Nat}
    (hWire : s.bench.wire (sender, receiver) ≠ []) :
    (s.init.receiver receiver).control.collected = true :=
  (InitPhase.reachable_replied h.init).collected (h.returned_of_wire hWire)
    (mem_recvIds_of_wire (reachable_orderly h.bench) hWire)

/-- The case of a message that comes too early never arises. -/
theorem Apart.not_early {sender receiver memIdx : Nat}
    (hOn : (s.init.receiver receiver).control.collected ≠ true) :
    earlyArrival d s sender receiver memIdx = none := by
  unfold earlyArrival
  split
  case h_1 m rest hWire =>
    exact absurd (h.collected_of_wire (by rw [hWire]; exact List.cons_ne_nil m rest)) hOn
  case h_2 => rfl

/-- The benchmark only moves senders that have returned from `initPhase`. -/
theorem Apart.benchStep {a : Benchmark.Operation}
    (hReturned : ∀ self, a = .sender self → (s.init.sender self).control = .returned)
    (hNext : benchStep d s a = some t) : Apart d t := by
  obtain ⟨hInit, hBench⟩ := benchStep_eq_some hNext
  refine ⟨hInit ▸ h.init, h.bench.step hBench, fun sender hOn => ?_⟩
  rw [hInit] at hOn
  rw [sender_unchanged hBench (fun hSelf => hOn (hReturned sender hSelf)) (h.answers_eq_nil hOn),
    h.silent sender hOn]

/-- Each step belongs to one of the phases, and leaves the other one alone. -/
theorem next_apart {a : Operation} (hNext : next d s a = some t) : Apart d t := by
  cases a with
  | init a =>
      obtain ⟨init, hInit, rfl⟩ := Option.map_eq_some_iff.mp hNext
      refine ⟨h.init.step hInit, h.bench, fun sender hOn => h.silent sender fun hReturned => ?_⟩
      exact hOn (InitPhase.returned_kept (InitPhase.reachable_replied h.init).reported hInit
        hReturned)
  | bench a =>
      cases a with
      | sender self =>
          obtain ⟨hReturned, hStep⟩ := Option.ite_none_right_eq_some.mp hNext
          exact h.benchStep (by rintro _ ⟨⟩; exact hReturned) hStep
      | receiver self =>
          obtain ⟨-, hStep⟩ := Option.ite_none_right_eq_some.mp hNext
          exact h.benchStep (by simp) hStep
      | arrive sender receiver memIdx =>
          by_cases hCollected : (s.init.receiver receiver).control.collected = true
          · exact h.benchStep (by simp) ((if_pos hCollected).symm.trans hNext)
          · have hEarly := (if_neg hCollected).symm.trans hNext
            rw [h.not_early hCollected] at hEarly
            cases hEarly
      | answer receiver sender => exact h.benchStep (by simp) hNext

omit h in
/-- However the phases overlap, they can be told apart. -/
theorem reachable_apart (hReachable : (driverMachine d).Reachable s) : Apart d s := by
  apply hReachable.invariant
  · exact ⟨⟨[], .zero⟩, ⟨[], .zero⟩, fun _ _ => rfl⟩
  · exact fun _ _ _ hApart hNext => next_apart hApart hNext

/-- The replies have filled in the offsets, and each took the one receive that was
posted for it. -/
theorem Apart.handedSender {self : Nat} (hReturned : (s.init.sender self).control = .returned) :
    HandedSender d self (s.init.sender self) := by
  have hWaiting := (InitPhase.reachable_replied h.init).waiting self
  have hAll : (s.init.sender self).finished d.setup = d.experiment.recvIds := by
    rw [InitPhase.Sender.finished, hReturned]
    exact List.take_length
  refine ⟨?_, fun receiver => ?_⟩
  · rw [hWaiting.recvIds, hAll, List.map_map]
    apply List.map_congr_left
    intro receiver _
    rw [Experiment.msgOffset, d.reqBufferOffset_eq receiver]
    rfl
  · have hLedger := hWaiting.ledger receiver
    have hPosted : (s.init.sender self).posted d.setup = d.experiment.recvIds := by
      rw [InitPhase.Sender.posted, hReturned]
      exact List.take_length
    rw [hAll, hPosted] at hLedger
    exact ⟨by omega, List.eq_nil_of_length_eq_zero (by omega)⟩

/-- The order of the reports does not matter: only the largest id decides on the length. -/
theorem Apart.handedReceiver {self : Nat}
    (hCollected : (s.init.receiver self).control.collected = true) :
    HandedReceiver d self (s.init.receiver self) := by
  obtain ⟨hStarting, hPoll⟩ := InitPhase.ReceiverControl.collected_iff.mp hCollected
  obtain ⟨hLength, hBuffer⟩ :=
    ((InitPhase.reachable_replied h.init).serving self).buffer hStarting hPoll
  have hMax : (d.experiment.connectedSenderIds self).foldr max 0 = d.setup.maxNodeID :=
    (d.experiment.allConnected self).foldr_eq 0
  refine ⟨?_, ?_, ?_⟩
  · rw [InitPhase.reachable_handed h.init self hCollected, ← hMax]
    show _ = (BenchmarkReceiver.initPhase d.setup.POLL _).srq
    unfold InitPhase.initReqBuffer BenchmarkReceiver.initPhase BenchmarkReceiver.initReqBuffer
    cases d.setup.POLL with
    | buf | srq | rq => rfl
  · rw [hLength, ← hMax]
    show _ = (BenchmarkReceiver.initPhase d.setup.POLL _).reqBufferLength
    unfold BenchmarkReceiver.initPhase BenchmarkReceiver.initReqBuffer
    cases d.setup.POLL with
    | buf | srq | rq => rfl
  · rw [hBuffer, d.reqBufferOffset_eq self]
    rfl

end Facts

section Progress

variable {d : Deployment} {s : State}

/-- `initPhase` can be completed while the benchmark has begun elsewhere. -/
theorem leads_to_returned (hSenders : d.experiment.senderIds ≠ [])
    (h : (driverMachine d).Reachable s) :
    ∃ t, (driverMachine d).Leads s t ∧ InitPhase.AllReturned d.setup t.init := by
  obtain ⟨init, hLeads, hReturned⟩ := InitPhase.leads_to_returned hSenders (reachable_apart h).init
  obtain ⟨t, hThere, hInit, -⟩ := @Machine.Leads.lift _ _ _ _ (driverMachine d) _ State.init
    (fun _ => True) (fun s b init _ hNext => ⟨.init b, { s with init := init },
      Option.map_eq_some_iff.mpr ⟨init, hNext, rfl⟩, rfl, trivial⟩) s init hLeads trivial
  exact ⟨t, hThere, hInit ▸ hReturned⟩

/-- Once all have returned from `initPhase` the benchmark is not held up by it. -/
theorem next_of_returned (h : Apart d s) (hReturned : InitPhase.AllReturned d.setup s.init)
    {a : Benchmark.Operation} {bench : System}
    (hNext : (barrierMachine d.experiment d.senderProcess).next s.bench a = some bench) :
    (driverMachine d).next s (.bench a) = some { s with bench := bench } := by
  have hStep : benchStep d s a = some { s with bench := bench } := by
    rw [benchStep, hNext, Option.map_some]
  cases a with
  | sender self =>
      obtain ⟨snd, out, hSelf, -⟩ := senderStep_eq_some (Machine.next_of_guarded hNext)
      exact (if_pos (hReturned.1 self hSelf)).trans hStep
  | receiver self => exact (if_pos (hReturned.2 self)).trans hStep
  | arrive sender receiver memIdx =>
      obtain ⟨m, rest, rcv, hWire, -⟩ := arrival_eq_some (Machine.next_of_guarded hNext)
      have hCollected := @Apart.collected_of_wire d s h sender receiver
        (by rw [hWire]; exact List.cons_ne_nil m rest)
      exact (if_pos hCollected).trans hStep
  | answer receiver sender => exact hStep

/-- Then the rest of the benchmark can be run, barriers included. -/
theorem leads_to_complete (hSenders : d.experiment.senderIds ≠ [])
    (hReceivers : d.experiment.recvIds ≠ []) (h : (driverMachine d).Reachable s)
    (hReturned : InitPhase.AllReturned d.setup s.init) :
    ∃ t, (driverMachine d).Leads s t ∧ InitPhase.AllReturned d.setup t.init ∧
      Complete d.experiment t.bench := by
  obtain ⟨bench, hLeads, hComplete⟩ :=
    @Benchmark.leads_to_complete _ d.senderProcess _ hSenders hReceivers (reachable_apart h).bench
  obtain ⟨t, hThere, rfl, -, hEnd⟩ := @Machine.Leads.lift _ _ _ _ (driverMachine d) _ State.bench
    (fun s => (driverMachine d).Reachable s ∧ InitPhase.AllReturned d.setup s.init)
    (fun s a bench hFollows hNext => by
      have hDriver := next_of_returned (reachable_apart hFollows.1) hFollows.2 hNext
      exact ⟨.bench a, _, hDriver, rfl, hFollows.1.step hDriver, hFollows.2⟩)
    s bench hLeads ⟨h, hReturned⟩
  exact ⟨t, hThere, hEnd, hComplete⟩

end Progress

/-- Two senders in processes of their own, and a receiver. -/
def overlapping : Deployment where
  experiment := sharedSlot
  senderProcess := id
  receiverProcess _ := 0
  localAlloc _ _ := 0
  reqBufferOffset_eq _ := rfl

/-- Sender 1 gets its reply and sends its request before the receiver replies to sender 2. -/
def overlappingRun : List Operation :=
  [.init (.sender 1), .init (.sender 1), .init (.receiver 0), .init (.arrive 1 0 0),
    .init (.sender 1), .init (.receiver 0), .init (.sender 2), .init (.sender 2),
    .init (.arrive 2 0 1), .init (.receiver 0), .init (.sender 2), .init (.receiver 0),
    .init (.answer 0 1), .init (.sender 1), .init (.sender 1), .init (.sender 1),
    .bench (.sender 1)]

end BenchmarkDriver
