import RDMAPatterns.Benchmark.StartUp

/-! Every report is taken once. What a sender has reported to is a beginning of
the list of receivers; each of those reports is on its way, or its receiver
holds it. -/
namespace InitPhase

open Benchmark Channels Transition Verbs
open BenchmarkDispatcher (RecvInfo)

/-- How many receivers a sender has reported to. -/
def SenderControl.reports (total : Nat) : SenderControl → Nat
  | .start | .query | .connect _ | .connected | .failed => 0
  | .receive next | .send next => next
  | .sent next | .pollReceive next => next + 1
  | .lastReceive | .returned => total

def Sender.reported (x : Setup) (snd : Sender) : List Nat :=
  x.recvIds.take (snd.control.reports x.recvIds.length)

/-- The senders whose reports a receiver has got. -/
def Receiver.reporters (rcv : Receiver) : List Nat :=
  rcv.srq.completed.map Prod.fst ++ rcv.connectedSenderIds

/-- In the constructor, or at the barrier behind it. -/
def ReceiverControl.constructing : ReceiverControl → Bool
  | .createSRQ | .requestNodeID | .startServer | .barrier => true
  | _ => false

/-- In front of `receiveBatchSRQ`. -/
def ReceiverControl.starting : ReceiverControl → Bool
  | .createSRQ | .requestNodeID | .startServer | .barrier | .receiveBatch => true
  | _ => false

/-- A receiver without a posted receive, one that collects reports, and one that
has got them all. -/
def Stage (x : Setup) (rcv : Receiver) : Prop :=
  match rcv.control with
  | .createSRQ | .requestNodeID | .startServer | .barrier | .receiveBatch =>
      rcv.srq = {} ∧ rcv.connectedSenderIds = []
  | .pollReceiveSRQ =>
      rcv.srq.posted.length + rcv.reporters.length = x.expectedClients ∧
        (rcv.connectedSenderIds.length < x.expectedClients ∨ x.expectedClients = 0)
  | .reply _ | .replied _ | .returned =>
      rcv.srq.completed = [] ∧ rcv.connectedSenderIds.length = x.expectedClients

structure Reported (x : Setup) (s : State) : Prop where
  ledger : ∀ sender receiver,
    (s.wire (sender, receiver)).length + (s.receiver receiver).reporters.count sender =
      ((s.sender sender).reported x).count receiver
  outsider : ∀ sender, sender ∉ x.senderIds → (s.sender sender).reported x = []
  onWire : ∀ connection, ∀ m ∈ s.wire connection, m = initMsg
  typed : ∀ receiver, ∀ entry ∈ (s.receiver receiver).srq.completed,
    ((s.receiver receiver).initBuffer entry.2).type = .initExp
  stage : ∀ receiver, Stage x (s.receiver receiver)

theorem take_succ_of_getElem? {l : List Nat} {next receiver : Nat}
    (hNext : l[next]? = some receiver) : l.take (next + 1) = l.take next ++ [receiver] := by
  rw [List.take_add_one, hNext]
  rfl

section Consequences

variable {x : Setup} {s : State}

/-- A receiver gets one report of each sender. -/
theorem Reported.count_le (h : Reported x s) (sender receiver : Nat) :
    (s.wire (sender, receiver)).length + (s.receiver receiver).reporters.count sender ≤ 1 := by
  rw [h.ledger]
  exact List.nodup_iff_count_le_one.mp
    (x.recvIds_nodup.sublist (List.take_sublist _ _)) receiver

/-- No sender is entered twice, as it reports only once. -/
theorem Reported.nodup (h : Reported x s) (receiver : Nat) :
    (s.receiver receiver).reporters.Nodup := by
  rw [List.nodup_iff_count_le_one]
  intro sender
  have hCount := h.count_le sender receiver
  omega

theorem Reported.mem_senderIds (h : Reported x s) {sender receiver : Nat}
    (hSender : s.wire (sender, receiver) ≠ [] ∨ sender ∈ (s.receiver receiver).reporters) :
    sender ∈ x.senderIds := by
  by_contra hOutside
  have hLedger := h.ledger sender receiver
  rw [h.outsider sender hOutside, List.count_nil] at hLedger
  rcases hSender with hWire | hReporter
  · have hLength := List.length_pos_iff.mpr hWire
    omega
  · have hCount := List.count_pos_iff.mpr hReporter
    omega

/-- As long as a report is on its way, another one can come. -/
theorem Reported.length_reporters (h : Reported x s) {sender receiver : Nat}
    (hWire : s.wire (sender, receiver) ≠ []) :
    (s.receiver receiver).reporters.length < x.expectedClients := by
  have hLength := List.length_pos_iff.mpr hWire
  have hCount := h.count_le sender receiver
  have hAbsent : sender ∉ (s.receiver receiver).reporters := by
    rw [← List.count_eq_zero]
    omega
  have hNodup : (sender :: (s.receiver receiver).reporters).Nodup :=
    List.nodup_cons.mpr ⟨hAbsent, h.nodup receiver⟩
  have hSubset : sender :: (s.receiver receiver).reporters ⊆ x.senderIds := by
    intro other hOther
    rcases List.mem_cons.mp hOther with rfl | hReporter
    · exact h.mem_senderIds (Or.inl hWire)
    · exact h.mem_senderIds (Or.inr hReporter)
  exact (List.subperm_of_subset hNodup hSubset).length_le

end Consequences

/-- In front of the first report. -/
def SenderControl.starting : SenderControl → Bool
  | .start | .query | .connect _ | .connected | .failed => true
  | _ => false

/-- The steps of a sender. -/
inductive SenderMoves (x : Setup) (s : State) (self : Nat) :
    Sender → Option (Nat × MessageBase) → Prop where
  | starting {control : SenderControl} (hControl : (s.sender self).control.starting = true)
      (hNext : control.starting = true ∨ control = .receive 0) :
      SenderMoves x s self { s.sender self with control := control } none
  | receive {next receiver : Nat} (hControl : (s.sender self).control = .receive next)
      (hNext : x.recvIds[next]? = some receiver) :
      SenderMoves x s self { s.sender self with
        control := .send next
        receives := Function.update (s.sender self).receives receiver
          ((s.sender self).receives receiver + 1) } none
  | through {next : Nat} (hControl : (s.sender self).control = .receive next)
      (hNext : x.recvIds[next]? = none) :
      SenderMoves x s self { s.sender self with control := .lastReceive } none
  | send {next receiver : Nat} (hControl : (s.sender self).control = .send next)
      (hNext : x.recvIds[next]? = some receiver) :
      SenderMoves x s self { s.sender self with control := .sent next } (some (receiver, initMsg))
  | sent {next receiver : Nat} (hControl : (s.sender self).control = .sent next)
      (hNext : x.recvIds[next]? = some receiver) (hWire : s.wire (self, receiver) = []) :
      SenderMoves x s self { s.sender self with control := .pollReceive next } none
  | pollReceive {next receiver : Nat} {recvMsg : MessageBase} {rest : List MessageBase}
      (hControl : (s.sender self).control = .pollReceive next)
      (hNext : x.recvIds[next]? = some receiver)
      (hReceived : (s.sender self).received receiver = recvMsg :: rest) :
      SenderMoves x s self { s.sender self with
        control := .receive (next + 1)
        received := Function.update (s.sender self).received receiver rest
        recvIds := (s.sender self).recvIds ++ [RecvInfo.ofReply receiver recvMsg] } none
  | lastReceive (hControl : (s.sender self).control = .lastReceive) :
      SenderMoves x s self { s.sender self with control := .returned } none

/-- What `senderStep` does is one of these moves. -/
theorem senderMoves_of_step {x : Setup} {s : State} {self : Nat} {snd : Sender}
    {out : Option (Nat × MessageBase)} (hStep : senderStep x s self = some (snd, out)) :
    SenderMoves x s self snd out := by
  simp only [senderStep] at hStep
  split at hStep
  case h_1 hControl | h_2 hControl =>
    obtain ⟨_, hStep⟩ := Option.ite_none_right_eq_some.mp hStep
    obtain ⟨rfl, rfl⟩ := Prod.mk.inj (Option.some.inj hStep)
    exact .starting (by rw [hControl]; rfl) (Or.inl rfl)
  case h_3 next hControl =>
    split at hStep
    · split_ifs at hStep
      all_goals
        obtain ⟨rfl, rfl⟩ := Prod.mk.inj (Option.some.inj hStep)
        exact .starting (by rw [hControl]; rfl) (Or.inl rfl)
    · obtain ⟨rfl, rfl⟩ := Prod.mk.inj (Option.some.inj hStep)
      exact .starting (by rw [hControl]; rfl) (Or.inl rfl)
  case h_4 hControl =>
    obtain ⟨_, hStep⟩ := Option.ite_none_right_eq_some.mp hStep
    obtain ⟨rfl, rfl⟩ := Prod.mk.inj (Option.some.inj hStep)
    exact .starting (by rw [hControl]; rfl) (Or.inr rfl)
  case h_5 next hControl =>
    split at hStep
    · case h_1 receiver hNext =>
      obtain ⟨rfl, rfl⟩ := Prod.mk.inj (Option.some.inj hStep)
      exact .receive hControl hNext
    · case h_2 hNext =>
      obtain ⟨rfl, rfl⟩ := Prod.mk.inj (Option.some.inj hStep)
      exact .through hControl hNext
  case h_6 next hControl =>
    obtain ⟨receiver, hNext, hPair⟩ := Option.map_eq_some_iff.mp hStep
    obtain ⟨rfl, rfl⟩ := Prod.mk.inj hPair
    exact .send hControl hNext
  case h_7 next hControl =>
    obtain ⟨receiver, hNext, hStep⟩ := Option.bind_eq_some_iff.mp hStep
    obtain ⟨hWire, hStep⟩ := Option.ite_none_right_eq_some.mp hStep
    obtain ⟨rfl, rfl⟩ := Prod.mk.inj (Option.some.inj hStep)
    exact .sent hControl hNext hWire
  case h_8 next hControl =>
    obtain ⟨receiver, hNext, hStep⟩ := Option.bind_eq_some_iff.mp hStep
    split at hStep
    · case h_1 recvMsg rest hReceived =>
      obtain ⟨rfl, rfl⟩ := Prod.mk.inj (Option.some.inj hStep)
      exact .pollReceive hControl hNext hReceived
    · cases hStep
  case h_9 hControl =>
    obtain ⟨_, hStep⟩ := Option.ite_none_right_eq_some.mp hStep
    obtain ⟨rfl, rfl⟩ := Prod.mk.inj (Option.some.inj hStep)
    exact .lastReceive hControl
  case h_10 => cases hStep
  case h_11 => cases hStep

theorem reports_starting {control : SenderControl} (h : control.starting = true) (total : Nat) :
    control.reports total = 0 := by
  cases control with
  | start | query | connect next | connected | failed => rfl
  | _ => cases h

theorem take_of_getElem?_none {l : List Nat} {next : Nat} (hNext : l[next]? = none) :
    l.take next = l.take l.length := by
  rw [List.take_length, List.take_of_length_le (List.getElem?_eq_none_iff.mp hNext)]

/-- What a sender puts on the wire is its report to the next receiver. -/
theorem SenderMoves.reported {x : Setup} {s : State} {self : Nat} {snd : Sender}
    {out : Option (Nat × MessageBase)} (h : SenderMoves x s self snd out) (receiver : Nat) :
    (snd.reported x).count receiver =
      ((s.sender self).reported x).count receiver + (outgoing receiver out).length ∧
      ∀ m ∈ outgoing receiver out, m = initMsg := by
  cases h with
  | @starting control hControl hNext =>
      have hOld := reports_starting hControl x.recvIds.length
      have hNew : control.reports x.recvIds.length = 0 := by
        rcases hNext with hStarting | rfl
        · exact reports_starting hStarting x.recvIds.length
        · rfl
      simp [Sender.reported, hOld, hNew, outgoing]
  | receive hControl hNext => simp [Sender.reported, hControl, SenderControl.reports, outgoing]
  | through hControl hNext =>
      simp only [Sender.reported, hControl, SenderControl.reports, take_of_getElem?_none hNext]
      simp [outgoing]
  | @send next destination hControl hNext =>
      simp only [Sender.reported, hControl, SenderControl.reports, take_succ_of_getElem? hNext]
      by_cases hSame : destination = receiver
      · simp [outgoing, hSame]
      · simp [outgoing, hSame]
  | sent hControl hNext hWire =>
      simp [Sender.reported, hControl, SenderControl.reports, outgoing]
  | pollReceive hControl hNext hReceived =>
      simp [Sender.reported, hControl, SenderControl.reports, outgoing]
  | lastReceive hControl => simp [Sender.reported, hControl, SenderControl.reports, outgoing]

/-- The steps of a receiver that only gets reports. -/
inductive ReceiverMoves (x : Setup) (s : State) (self : Nat) :
    Receiver → Option (Nat × MessageBase) → Prop where
  | constructing {control : ReceiverControl} {reqBufferLength : Nat}
      (hControl : (s.receiver self).control.constructing = true)
      (hNext : control.starting = true) :
      ReceiverMoves x s self { s.receiver self with
        control := control, reqBufferLength := reqBufferLength } none
  | receiveBatch (hControl : (s.receiver self).control = .receiveBatch) :
      ReceiverMoves x s self { s.receiver self with
        control := .pollReceiveSRQ
        srq := receiveBatchSRQ (s.receiver self).srq x.expectedClients } none
  | collect {nodeId memoryIdx : Nat} {srq : SharedReceiveQueue}
      (hControl : (s.receiver self).control = .pollReceiveSRQ)
      (hPoll : (s.receiver self).srq.poll = some ((nodeId, memoryIdx), srq))
      (hMore : (s.receiver self).connectedSenderIds.length + 1 ≠ x.expectedClients) :
      ReceiverMoves x s self { s.receiver self with
        srq := srq
        connectedSenderIds := (s.receiver self).connectedSenderIds ++ [nodeId] } none
  | last {nodeId memoryIdx : Nat} {srq posted : SharedReceiveQueue}
      (hControl : (s.receiver self).control = .pollReceiveSRQ)
      (hPoll : (s.receiver self).srq.poll = some ((nodeId, memoryIdx), srq))
      (hLast : (s.receiver self).connectedSenderIds.length + 1 = x.expectedClients)
      (hPosted : posted.completed = srq.completed) :
      ReceiverMoves x s self { s.receiver self with
        control := .reply 0
        srq := posted
        connectedSenderIds := (s.receiver self).connectedSenderIds ++ [nodeId]
        reqBufferLength := ((s.receiver self).connectedSenderIds ++ [nodeId]).foldr max 0 + 1
        reqBuffer := x.localAlloc self (sizeofMessageBase *
          (((s.receiver self).connectedSenderIds ++ [nodeId]).foldr max 0 + 1)) } none
  | reply {i id : Nat} (hControl : (s.receiver self).control = .reply i)
      (hId : (s.receiver self).connectedSenderIds[i]? = some id) :
      ReceiverMoves x s self { s.receiver self with control := .replied i }
        (some (id, (s.receiver self).replyTo x id))
  | replied {i id : Nat} (hControl : (s.receiver self).control = .replied i)
      (hId : (s.receiver self).connectedSenderIds[i]? = some id)
      (hReplies : s.replies (self, id) = []) :
      ReceiverMoves x s self { s.receiver self with
        control :=
          if i + 1 < (s.receiver self).connectedSenderIds.length then .reply (i + 1)
          else .returned } none

theorem completed_receiveBatchSRQ (srq : SharedReceiveQueue) (numberReceives : Nat) :
    (receiveBatchSRQ srq numberReceives).completed = srq.completed := by
  rw [receiveBatchSRQ, SharedReceiveQueue.foldl_post]

theorem posted_receiveBatchSRQ (srq : SharedReceiveQueue) (numberReceives : Nat) :
    (receiveBatchSRQ srq numberReceives).posted = srq.posted ++ List.range numberReceives := by
  rw [receiveBatchSRQ, SharedReceiveQueue.foldl_post]

/-- The buffer for the requests only adds posted receives. -/
theorem initReqBuffer_eq (x : Setup) (rcv : Receiver) :
    ∃ posted : SharedReceiveQueue, posted.completed = rcv.srq.completed ∧
      initReqBuffer x rcv = { rcv with srq := posted } := by
  rw [initReqBuffer]
  split
  · exact ⟨_, completed_receiveBatchSRQ rcv.srq rcv.reqBufferLength, rfl⟩
  · exact ⟨rcv.srq, rfl, rfl⟩
  · exact ⟨rcv.srq, rfl, rfl⟩

/-- What `receiverStep` does is one of these moves, if only reports have arrived. -/
theorem receiverMoves_of_step {x : Setup} {s : State} {self : Nat} {rcv : Receiver}
    {out : Option (Nat × MessageBase)} (hTyped : ∀ entry ∈ (s.receiver self).srq.completed,
      ((s.receiver self).initBuffer entry.2).type = .initExp)
    (hStep : receiverStep x s self = some (rcv, out)) : ReceiverMoves x s self rcv out := by
  simp only [receiverStep] at hStep
  split at hStep
  case h_1 hControl | h_2 hControl | h_3 hControl =>
    obtain ⟨rfl, rfl⟩ := Prod.mk.inj (Option.some.inj hStep)
    exact .constructing (by rw [hControl]; rfl) rfl
  case h_4 hControl =>
    obtain ⟨_, hStep⟩ := Option.ite_none_right_eq_some.mp hStep
    obtain ⟨rfl, rfl⟩ := Prod.mk.inj (Option.some.inj hStep)
    exact .constructing (by rw [hControl]; rfl) rfl
  case h_5 hControl =>
    obtain ⟨rfl, rfl⟩ := Prod.mk.inj (Option.some.inj hStep)
    exact .receiveBatch hControl
  case h_6 hControl =>
    obtain ⟨⟨⟨nodeId, memoryIdx⟩, srq⟩, hPoll, hPair⟩ := Option.map_eq_some_iff.mp hStep
    obtain ⟨rfl, rfl⟩ := Prod.mk.inj hPair
    have hMessage := hTyped (nodeId, memoryIdx) (by
      rw [(SharedReceiveQueue.poll_eq_some hPoll).1]
      exact List.mem_cons_self)
    simp only [handleReport, if_pos hMessage]
    split
    case isTrue hLast =>
      rw [List.length_append, List.length_singleton] at hLast
      obtain ⟨posted, hPosted, hBuffer⟩ := initReqBuffer_eq x { s.receiver self with
        control := .reply 0
        srq := srq
        connectedSenderIds := (s.receiver self).connectedSenderIds ++ [nodeId]
        reqBufferLength := ((s.receiver self).connectedSenderIds ++ [nodeId]).foldr max 0 + 1
        reqBuffer := x.localAlloc self (sizeofMessageBase *
          (((s.receiver self).connectedSenderIds ++ [nodeId]).foldr max 0 + 1)) }
      rw [hBuffer]
      exact .last hControl hPoll hLast hPosted
    case isFalse hMore =>
      rw [List.length_append, List.length_singleton] at hMore
      exact .collect hControl hPoll hMore
  case h_7 i hControl =>
    obtain ⟨id, hId, hPair⟩ := Option.map_eq_some_iff.mp hStep
    obtain ⟨rfl, rfl⟩ := Prod.mk.inj hPair
    exact .reply hControl hId
  case h_8 i hControl =>
    obtain ⟨id, hId, hStep⟩ := Option.bind_eq_some_iff.mp hStep
    obtain ⟨hReplies, hStep⟩ := Option.ite_none_right_eq_some.mp hStep
    obtain ⟨rfl, rfl⟩ := Prod.mk.inj (Option.some.inj hStep)
    exact .replied hControl hId hReplies
  case h_9 => cases hStep

theorem starting_of_constructing {control : ReceiverControl} (h : control.constructing = true) :
    control.starting = true := by
  cases control with
  | createSRQ | requestNodeID | startServer | barrier => rfl
  | _ => cases h

/-- In front of its loop a receiver has an empty queue and knows nobody. -/
theorem stage_starting {x : Setup} {rcv : Receiver} (h : rcv.control.starting = true) :
    Stage x rcv ↔ rcv.srq = {} ∧ rcv.connectedSenderIds = [] := by
  cases hControl : rcv.control with
  | createSRQ | requestNodeID | startServer | barrier | receiveBatch => simp [Stage, hControl]
  | pollReceiveSRQ | reply i | replied i | returned =>
      rw [hControl] at h
      cases h

section ReceiverSteps

variable {x : Setup} {s : State} {self : Nat} {rcv : Receiver}
  {out : Option (Nat × MessageBase)} (h : ReceiverMoves x s self rcv out)

include h

/-- A receiver moves reports from the completion queue to its list. -/
theorem ReceiverMoves.count_reporters (sender : Nat) :
    rcv.reporters.count sender = (s.receiver self).reporters.count sender := by
  cases h with
  | constructing hControl hNext | reply hControl hId | replied hControl hId hReplies => rfl
  | receiveBatch hControl => simp only [Receiver.reporters, completed_receiveBatchSRQ]
  | collect hControl hPoll hMore =>
      obtain ⟨hCompleted, _⟩ := SharedReceiveQueue.poll_eq_some hPoll
      simp only [Receiver.reporters, hCompleted, List.map_cons, List.count_append,
        List.count_cons, List.count_nil]
      omega
  | last hControl hPoll hLast hPosted =>
      obtain ⟨hCompleted, _⟩ := SharedReceiveQueue.poll_eq_some hPoll
      simp only [Receiver.reporters, hPosted, hCompleted, List.map_cons, List.count_append,
        List.count_cons, List.count_nil]
      omega

/-- A receiver writes to no slot, and adds no completion. -/
theorem ReceiverMoves.completed :
    rcv.initBuffer = (s.receiver self).initBuffer ∧
      rcv.srq.completed ⊆ (s.receiver self).srq.completed := by
  cases h with
  | constructing hControl hNext | reply hControl hId | replied hControl hId hReplies =>
      exact ⟨rfl, List.Subset.refl _⟩
  | receiveBatch hControl =>
      rw [completed_receiveBatchSRQ]
      exact ⟨rfl, List.Subset.refl _⟩
  | collect hControl hPoll hMore =>
      rw [(SharedReceiveQueue.poll_eq_some hPoll).1]
      exact ⟨rfl, List.subset_cons_self _ _⟩
  | last hControl hPoll hLast hPosted =>
      rw [(SharedReceiveQueue.poll_eq_some hPoll).1, hPosted]
      exact ⟨rfl, List.subset_cons_self _ _⟩

/-- Every move leads to what the next place of the receiver asks for. -/
theorem ReceiverMoves.stage (hStage : Stage x (s.receiver self)) : Stage x rcv := by
  cases h with
  | constructing hControl hNext =>
      rw [stage_starting (starting_of_constructing hControl)] at hStage
      exact (stage_starting hNext).mpr hStage
  | receiveBatch hControl =>
      rw [Stage, hControl] at hStage
      obtain ⟨hSrq, hNone⟩ := hStage
      refine ⟨?_, ?_⟩
      · simp [Receiver.reporters, completed_receiveBatchSRQ, posted_receiveBatchSRQ, hSrq, hNone]
      · show (s.receiver self).connectedSenderIds.length < x.expectedClients ∨ _
        rw [hNone, List.length_nil]
        omega
  | collect hControl hPoll hMore =>
      rw [Stage, hControl] at hStage
      obtain ⟨hRoom, hFewer⟩ := hStage
      obtain ⟨hCompleted, hPosted⟩ := SharedReceiveQueue.poll_eq_some hPoll
      rw [Receiver.reporters, hCompleted, ← hPosted] at hRoom
      simp only [Stage, hControl, Receiver.reporters]
      simp only [List.length_append, List.length_map, List.length_cons, List.length_nil] at hRoom ⊢
      omega
  | last hControl hPoll hLast hPosted =>
      rw [Stage, hControl] at hStage
      obtain ⟨hRoom, _⟩ := hStage
      rw [Receiver.reporters, (SharedReceiveQueue.poll_eq_some hPoll).1] at hRoom
      simp only [List.length_append, List.length_map, List.length_cons] at hRoom
      refine ⟨?_, ?_⟩
      · rw [hPosted, ← List.length_eq_zero_iff]
        omega
      · rw [List.length_append, List.length_singleton]
        exact hLast
  | reply hControl hId =>
      rw [Stage, hControl] at hStage
      exact hStage
  | replied hControl hId hReplies =>
      rw [Stage, hControl] at hStage
      rw [Stage]
      split_ifs
      · exact hStage
      · exact hStage

end ReceiverSteps

section Steps

variable {x : Setup} {s t : State} {self sender receiver memIdx : Nat}

/-- A step of a sender moves it, and puts what it sends on the wire. -/
theorem next_sender (hNext : next x s (.sender self) = some t) :
    self ∈ x.senderIds ∧ ∃ snd out, SenderMoves x s self snd out ∧
      t.sender = Function.update s.sender self snd ∧ t.receiver = s.receiver ∧
      t.wire = enqueue s.wire self out ∧ t.replies = s.replies := by
  simp only [next, Option.ite_none_right_eq_some, Option.map_eq_some_iff] at hNext
  obtain ⟨hSelf, ⟨snd, out⟩, hStep, rfl⟩ := hNext
  exact ⟨hSelf, snd, out, senderMoves_of_step hStep, rfl, rfl, rfl, rfl⟩

/-- A step of a receiver moves it, and puts what it sends among the replies. -/
theorem next_receiver (h : Reported x s) (hNext : next x s (.receiver self) = some t) :
    self ∈ x.recvIds ∧ ∃ rcv out, ReceiverMoves x s self rcv out ∧
      t.receiver = Function.update s.receiver self rcv ∧ t.sender = s.sender ∧
      t.wire = s.wire ∧ t.replies = enqueue s.replies self out := by
  simp only [next, Option.ite_none_right_eq_some, Option.map_eq_some_iff] at hNext
  obtain ⟨hSelf, ⟨rcv, out⟩, hStep, rfl⟩ := hNext
  exact ⟨hSelf, rcv, out, receiverMoves_of_step (h.typed self) hStep, rfl, rfl, rfl, rfl⟩

/-- A report takes a posted receive and is written into its slot. -/
theorem next_arrive (hNext : next x s (.arrive sender receiver memIdx) = some t) :
    ∃ m rest srq, s.wire (sender, receiver) = m :: rest ∧
      (s.receiver receiver).srq.arrive sender memIdx = some srq ∧
      t.receiver = Function.update s.receiver receiver { s.receiver receiver with
        srq := srq
        initBuffer := Function.update (s.receiver receiver).initBuffer memIdx m } ∧
      t.sender = s.sender ∧ t.wire = Function.update s.wire (sender, receiver) rest ∧
      t.replies = s.replies := by
  simp only [next, State.arrival] at hNext
  split at hNext
  · case h_1 m rest hWire =>
    obtain ⟨srq, hArrive, rfl⟩ := Option.map_eq_some_iff.mp hNext
    exact ⟨m, rest, srq, hWire, hArrive, rfl, rfl, rfl, rfl⟩
  · cases hNext

/-- A reply takes the receive that its sender has posted on the connection. -/
theorem next_answer (hNext : next x s (.answer receiver sender) = some t) :
    ∃ m rest, s.replies (receiver, sender) = m :: rest ∧
      0 < (s.sender sender).receives receiver ∧
      t.sender = Function.update s.sender sender { s.sender sender with
        receives := Function.update (s.sender sender).receives receiver
          ((s.sender sender).receives receiver - 1)
        received := Function.update (s.sender sender).received receiver
          ((s.sender sender).received receiver ++ [m]) } ∧
      t.receiver = s.receiver ∧ t.wire = s.wire ∧
      t.replies = Function.update s.replies (receiver, sender) rest := by
  simp only [next, State.answerArrival] at hNext
  split at hNext
  · case h_1 m rest hReplies =>
    obtain ⟨hPosted, hNext⟩ := Option.ite_none_right_eq_some.mp hNext
    obtain rfl := Option.some.inj hNext
    exact ⟨m, rest, hReplies, hPosted, rfl, rfl, rfl, rfl⟩
  · cases hNext

/-- A report that is sent is on the wire, and nowhere else yet. -/
theorem sender_reported (h : Reported x s) (hNext : next x s (.sender self) = some t) :
    Reported x t := by
  obtain ⟨hSelf, snd, out, hMoves, hSender, hReceiver, hWire, _⟩ := next_sender hNext
  refine ⟨?_, ?_, ?_, ?_, ?_⟩
  · intro sender receiver
    have hLedger := h.ledger sender receiver
    rw [hSender, hReceiver, hWire, enqueue_apply, List.length_append]
    by_cases hSame : sender = self
    · have hReported := (hMoves.reported receiver).1
      rw [hSame] at hLedger ⊢
      rw [Function.update_self, if_pos rfl]
      omega
    · rw [Function.update_of_ne hSame, if_neg hSame]
      exact hLedger
  · intro sender hOutside
    have hOther : sender ≠ self := fun hEq => hOutside (hEq ▸ hSelf)
    rw [hSender, Function.update_of_ne hOther]
    exact h.outsider sender hOutside
  · rintro ⟨sender, receiver⟩ m hMem
    rw [hWire, enqueue_apply, List.mem_append] at hMem
    rcases hMem with hOld | hNew
    · exact h.onWire (sender, receiver) m hOld
    · split at hNew
      · exact (hMoves.reported receiver).2 m hNew
      · cases hNew
  · rw [hReceiver]
    exact h.typed
  · rw [hReceiver]
    exact h.stage

/-- A report that is taken up turns from a completion into an entry. -/
theorem receiver_reported (h : Reported x s) (hNext : next x s (.receiver self) = some t) :
    Reported x t := by
  obtain ⟨_, rcv, out, hMoves, hReceiver, hSender, hWire, _⟩ := next_receiver h hNext
  refine ⟨?_, ?_, ?_, ?_, ?_⟩
  · intro sender receiver
    rw [hSender, hWire, hReceiver, ← h.ledger]
    by_cases hSame : receiver = self
    · rw [hSame, Function.update_self, hMoves.count_reporters]
    · rw [Function.update_of_ne hSame]
  · rw [hSender]
    exact h.outsider
  · rw [hWire]
    exact h.onWire
  · intro receiver
    rw [hReceiver]
    by_cases hSame : receiver = self
    · rw [hSame, Function.update_self, hMoves.completed.1]
      exact fun entry hEntry => h.typed self entry (hMoves.completed.2 hEntry)
    · rw [Function.update_of_ne hSame]
      exact h.typed receiver
  · rw [hReceiver]
    exact (Function.forall_update_iff s.receiver fun _ => Stage x).mpr
      ⟨hMoves.stage (h.stage self), fun receiver _ => h.stage receiver⟩

/-- A receiver that a report is on its way to has a posted receive as soon as it
has posted any. -/
theorem Reported.posted_iff (h : Reported x s) (hWire : s.wire (sender, receiver) ≠ []) :
    (s.receiver receiver).srq.posted ≠ [] ↔ (s.receiver receiver).control.starting = false := by
  have hStage := h.stage receiver
  have hFewer := h.length_reporters hWire
  cases hControl : (s.receiver receiver).control with
  | createSRQ | requestNodeID | startServer | barrier | receiveBatch =>
      rw [Stage, hControl] at hStage
      simp [hStage.1, ReceiverControl.starting]
  | pollReceiveSRQ =>
      rw [Stage, hControl] at hStage
      have hPosted : (s.receiver receiver).srq.posted ≠ [] :=
        List.length_pos_iff.mp (by omega)
      simp [hPosted, ReceiverControl.starting]
  | reply i | replied i | returned =>
      rw [Stage, hControl] at hStage
      rw [Receiver.reporters, List.length_append] at hFewer
      omega

/-- A report that arrives finds a receiver that collects reports. -/
theorem Reported.collecting (h : Reported x s) {srq : SharedReceiveQueue}
    (hWire : s.wire (sender, receiver) ≠ [])
    (hArrive : (s.receiver receiver).srq.arrive sender memIdx = some srq) :
    (s.receiver receiver).control = .pollReceiveSRQ := by
  have hStage := h.stage receiver
  have hFewer := h.length_reporters hWire
  obtain ⟨hPosted, _⟩ := SharedReceiveQueue.arrive_eq_some hArrive
  cases hControl : (s.receiver receiver).control with
  | pollReceiveSRQ => rfl
  | createSRQ | requestNodeID | startServer | barrier | receiveBatch =>
      rw [Stage, hControl] at hStage
      rw [hStage.1] at hPosted
      cases hPosted
  | reply i | replied i | returned =>
      rw [Stage, hControl] at hStage
      rw [Receiver.reporters, List.length_append] at hFewer
      omega

/-- A report that arrives turns from a message into a completion. -/
theorem arrive_reported (h : Reported x s)
    (hNext : next x s (.arrive sender receiver memIdx) = some t) : Reported x t := by
  obtain ⟨m, rest, srq, hOn, hArrive, hReceiver, hSender, hWire, _⟩ := next_arrive hNext
  have hCollecting := h.collecting (by rw [hOn]; exact List.cons_ne_nil m rest) hArrive
  obtain ⟨hPosted, hRest, hCompleted⟩ := SharedReceiveQueue.arrive_eq_some hArrive
  have hMessage : m = initMsg :=
    h.onWire (sender, receiver) m (by rw [hOn]; exact List.mem_cons_self)
  refine ⟨?_, ?_, ?_, ?_, ?_⟩
  · intro other destination
    rw [hSender, hReceiver, hWire, ← h.ledger]
    by_cases hSame : destination = receiver
    · subst hSame
      rw [Function.update_self]
      simp only [Receiver.reporters, hCompleted, List.map_append, List.count_append]
      by_cases hOther : other = sender
      · subst hOther
        rw [Function.update_self, hOn]
        simp
        omega
      · have hPair : (other, destination) ≠ (sender, destination) := fun hEq =>
          hOther (congrArg Prod.fst hEq)
        rw [Function.update_of_ne hPair]
        have hNone : List.count other (List.map Prod.fst [(sender, memIdx)]) = 0 := by
          simp [Ne.symm hOther]
        omega
    · have hPair : (other, destination) ≠ (sender, receiver) := fun hEq =>
        hSame (congrArg Prod.snd hEq)
      rw [Function.update_of_ne hSame, Function.update_of_ne hPair]
  · rw [hSender]
    exact h.outsider
  · intro connection message hMem
    rw [hWire] at hMem
    by_cases hSame : connection = (sender, receiver)
    · rw [hSame, Function.update_self] at hMem
      exact h.onWire (sender, receiver) message (by rw [hOn]; exact List.mem_cons_of_mem m hMem)
    · rw [Function.update_of_ne hSame] at hMem
      exact h.onWire connection message hMem
  · intro destination
    rw [hReceiver]
    by_cases hSame : destination = receiver
    · subst hSame
      rw [Function.update_self]
      intro entry hEntry
      simp only [hCompleted, List.mem_append, List.mem_singleton] at hEntry
      show (Function.update (s.receiver destination).initBuffer memIdx m entry.2).type = .initExp
      by_cases hSlot : entry.2 = memIdx
      · rw [hSlot, Function.update_self, hMessage]
        rfl
      · rw [Function.update_of_ne hSlot]
        rcases hEntry with hOld | rfl
        · exact h.typed destination entry hOld
        · exact absurd rfl hSlot
    · rw [Function.update_of_ne hSame]
      exact h.typed destination
  · rw [hReceiver]
    refine (Function.forall_update_iff s.receiver fun _ => Stage x).mpr
      ⟨?_, fun destination _ => h.stage destination⟩
    have hStage := h.stage receiver
    rw [Stage, hCollecting] at hStage
    obtain ⟨hRoom, hFewer⟩ := hStage
    simp only [Stage, hCollecting]
    refine ⟨?_, hFewer⟩
    have hPos := List.length_pos_of_mem hPosted
    simp only [Receiver.reporters, hRest, hCompleted, List.length_erase_of_mem hPosted,
      List.length_append, List.length_map, List.length_singleton] at hRoom ⊢
    omega

/-- The replies have no part in the count of the reports. -/
theorem answer_reported (h : Reported x s) (hNext : next x s (.answer receiver sender) = some t) :
    Reported x t := by
  obtain ⟨m, rest, _, _, hSender, hReceiver, hWire, _⟩ := next_answer hNext
  have hSame : ∀ other, (t.sender other).reported x = (s.sender other).reported x := by
    intro other
    rw [hSender]
    by_cases hOther : other = sender
    · rw [hOther, Function.update_self]
      rfl
    · rw [Function.update_of_ne hOther]
  refine ⟨?_, ?_, ?_, ?_, ?_⟩
  · intro other destination
    rw [hSame, hReceiver, hWire]
    exact h.ledger other destination
  · intro other hOutside
    rw [hSame]
    exact h.outsider other hOutside
  · rw [hWire]
    exact h.onWire
  · rw [hReceiver]
    exact h.typed
  · rw [hReceiver]
    exact h.stage

/-- The count of the reports is kept by every step. -/
theorem next_reported (h : Reported x s) {a : Operation} (hNext : next x s a = some t) :
    Reported x t := by
  cases a with
  | sender self => exact sender_reported h hNext
  | receiver self => exact receiver_reported h hNext
  | arrive sender receiver memIdx => exact arrive_reported h hNext
  | answer receiver sender => exact answer_reported h hNext

end Steps

/-- Nobody has reported at the start of the processes. -/
theorem reported_start (x : Setup) : Reported x (startUpMachine x).init where
  ledger _ _ := rfl
  outsider _ _ := rfl
  onWire _ _ hMem := by cases hMem
  typed _ _ hEntry := by cases hEntry
  stage _ := ⟨rfl, rfl⟩

theorem reported_init (x : Setup) : Reported x (initMachine x).init where
  ledger _ _ := rfl
  outsider _ _ := rfl
  onWire _ _ hMem := by cases hMem
  typed _ _ hEntry := by cases hEntry
  stage _ := ⟨rfl, rfl⟩

end InitPhase
