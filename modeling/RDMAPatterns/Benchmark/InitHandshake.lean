import Mathlib.Data.List.MinMax
import RDMAPatterns.Benchmark.Replies
import RDMAPatterns.Extents.Recut

/-! The handshake of `initPhase` runs to its end, and every sender has a slot of
its own at every receiver. A receiver replies to nobody before it has all
reports, but the sender that is furthest behind waits for nobody. -/
namespace InitPhase

open Benchmark Channels Extents Transition Verbs
open BenchmarkDispatcher (RecvInfo)
open BenchmarkReceiver (partition)

/-- Some party can go on, or some message can arrive. -/
def Enabled (x : Setup) (s : State) : Prop := ∃ a, (next x s a).isSome = true

section Progress

variable {x : Setup} {s : State} {self sender receiver : Nat}

theorem enabled_sender (hSelf : self ∈ x.senderIds)
    (hStep : (senderStep x s self).isSome = true) : Enabled x s := by
  refine ⟨.sender self, ?_⟩
  rwa [next, if_pos hSelf, Option.isSome_map]

theorem enabled_receiver (hSelf : self ∈ x.recvIds)
    (hStep : (receiverStep x s self).isSome = true) : Enabled x s := by
  refine ⟨.receiver self, ?_⟩
  rwa [next, if_pos hSelf, Option.isSome_map]

/-- A report that is under way can arrive, or its receiver can post for it. -/
theorem enabled_of_wire (h : Replied x s) (hWire : s.wire (sender, receiver) ≠ []) :
    Enabled x s := by
  have hPosted := h.reported.posted_iff hWire
  cases hStarting : (s.receiver receiver).control.starting with
  | true =>
      have hReceiver : receiver ∈ x.recvIds := by
        have hLedger := h.reported.ledger sender receiver
        have hLength := List.length_pos_iff.mpr hWire
        have hCount : 0 < ((s.sender sender).reported x).count receiver := by omega
        exact (List.take_sublist _ _).subset (List.count_pos_iff.mp hCount)
      have hConstructed := (h.serving receiver).constructed
      cases hControl : (s.receiver receiver).control with
      | receiveBatch =>
          exact enabled_receiver hReceiver (by simp [receiverStep, hControl])
      | createSRQ | requestNodeID | startServer | barrier =>
          rw [hControl] at hConstructed
          cases hConstructed
      | pollReceiveSRQ | reply i | replied i | returned =>
          rw [hControl] at hStarting
          cases hStarting
  | false =>
      obtain ⟨memIdx, hMem⟩ := List.exists_mem_of_ne_nil _ (hPosted.mpr hStarting)
      obtain ⟨m, rest, hOn⟩ := List.exists_cons_of_ne_nil hWire
      refine ⟨.arrive sender receiver memIdx, ?_⟩
      simp only [next, State.arrival, hOn, SharedReceiveQueue.arrive, if_pos hMem]
      rfl

/-- The receive for a reply is posted in front of the report. -/
theorem reports_le_posts (control : SenderControl) (total : Nat) :
    control.reports total ≤ control.posts total := by
  cases control with
  | _ => simp [SenderControl.reports, SenderControl.posts]

/-- A sender has posted a receive for every reply to come. -/
theorem enabled_of_replies (h : Replied x s) (hReplies : s.replies (receiver, sender) ≠ []) :
    Enabled x s := by
  have hPending := List.length_pos_iff.mpr hReplies
  have hPosted := (h.waiting sender).ledger receiver
  have hReported := h.reported.ledger sender receiver
  have hReplied := h.ledger sender receiver
  have hMore : ((s.sender sender).reported x).count receiver ≤
      ((s.sender sender).posted x).count receiver :=
    (List.take_sublist_take_left (reports_le_posts _ _)).count_le receiver
  have hConnected : (s.receiver receiver).repliedTo.count sender ≤
      (s.receiver receiver).reporters.count sender := by
    rw [Receiver.reporters, List.count_append]
    exact Nat.le_trans ((List.take_sublist _ _).count_le sender) (Nat.le_add_left _ _)
  have hReceive : 0 < (s.sender sender).receives receiver := by omega
  obtain ⟨m, rest, hOn⟩ := List.exists_cons_of_ne_nil hReplies
  refine ⟨.answer receiver sender, ?_⟩
  simp only [next, State.answerArrival, hOn, if_pos hReceive]
  rfl

/-- A sender that has come to the end has reported to everyone. -/
theorem reported_atLastReceive (hLast : (s.sender sender).control.atLastReceive = true) :
    (s.sender sender).reported x = x.recvIds := by
  rw [Sender.reported]
  cases hControl : (s.sender sender).control with
  | lastReceive | returned => exact List.take_length
  | _ =>
      rw [hControl] at hLast
      cases hLast

end Progress

section Stuck

variable {x : Setup} {s : State} {sender receiver : Nat} (h : Replied x s)
  (hStuck : ¬Enabled x s)

include h hStuck

/-- If nothing can go on, no report is under way. -/
theorem wire_eq_nil (sender receiver : Nat) : s.wire (sender, receiver) = [] := by
  by_contra hWire
  exact hStuck (enabled_of_wire h hWire)

theorem replies_eq_nil (receiver sender : Nat) : s.replies (receiver, sender) = [] := by
  by_contra hReplies
  exact hStuck (enabled_of_replies h hReplies)

/-- A receiver that does not go on waits for reports, or has returned. -/
theorem receiver_stuck (hReceiver : receiver ∈ x.recvIds) :
    (s.receiver receiver).srq.completed = [] ∧
      ((s.receiver receiver).control = .pollReceiveSRQ ∨
        (s.receiver receiver).control = .returned) := by
  have hServing := h.serving receiver
  have hNone : ¬(receiverStep x s receiver).isSome = true :=
    fun hStep => hStuck (enabled_receiver hReceiver hStep)
  cases hControl : (s.receiver receiver).control with
  | createSRQ | requestNodeID | startServer | barrier =>
      have hConstructed := hServing.constructed
      rw [hControl] at hConstructed
      cases hConstructed
  | receiveBatch => exact absurd (by simp [receiverStep, hControl]) hNone
  | reply i =>
      have hBound := hServing.bound i (Or.inl hControl)
      exact absurd (by simp [receiverStep, hControl, hBound]) hNone
  | replied i =>
      have hBound := hServing.bound i (Or.inr hControl)
      have hDelivered := replies_eq_nil h hStuck receiver
      exact absurd (by simp [receiverStep, hControl, hBound, hDelivered]) hNone
  | pollReceiveSRQ =>
      refine ⟨?_, Or.inl rfl⟩
      cases hCompleted : (s.receiver receiver).srq.completed with
      | nil => rfl
      | cons entry rest =>
          exact absurd (by simp [receiverStep, hControl, SharedReceiveQueue.poll, hCompleted]) hNone
  | returned =>
      have hStarting : (s.receiver receiver).control.starting = false := by rw [hControl]; rfl
      have hPoll : (s.receiver receiver).control ≠ .pollReceiveSRQ := by rw [hControl]; simp
      exact ⟨(h.reported.connected_perm hStarting hPoll).1, Or.inr rfl⟩

/-- A sender that does not go on waits for a reply, or has come to the end. -/
theorem sender_stuck (hSender : sender ∈ x.senderIds) :
    (s.sender sender).control.atLastReceive = true ∨
      ∃ next receiver, (s.sender sender).control = .pollReceive next ∧
        x.recvIds[next]? = some receiver ∧ (s.sender sender).received receiver = [] := by
  have hWaiting := h.waiting sender
  have hNone : ¬(senderStep x s sender).isSome = true :=
    fun hStep => hStuck (enabled_sender hSender hStep)
  cases hControl : (s.sender sender).control with
  | start | query | connect next | connected | failed =>
      have hStarted := hWaiting.started
      rw [hControl] at hStarted
      cases hStarted
  | receive next =>
      cases hNext : x.recvIds[next]? with
      | none => exact absurd (by simp [senderStep, hControl, hNext]) hNone
      | some receiver => exact absurd (by simp [senderStep, hControl, hNext]) hNone
  | send next =>
      have hBound := hWaiting.bound next (Or.inl hControl)
      exact absurd (by simp [senderStep, hControl, hBound]) hNone
  | sent next =>
      have hBound := hWaiting.bound next (Or.inr (Or.inl hControl))
      have hDelivered := wire_eq_nil h hStuck sender
      exact absurd (by simp [senderStep, hControl, hBound, hDelivered]) hNone
  | pollReceive next =>
      have hBound := hWaiting.bound next (Or.inr (Or.inr hControl))
      have hNext := List.getElem?_eq_getElem hBound
      refine Or.inr ⟨next, x.recvIds[next], rfl, hNext, ?_⟩
      cases hReceived : (s.sender sender).received x.recvIds[next] with
      | nil => rfl
      | cons m rest => exact absurd (by simp [senderStep, hControl, hNext, hReceived]) hNone
  | lastReceive | returned => exact Or.inl rfl

/-- What a receiver that does not go on has got is all it was sent. -/
theorem count_connected (hReceiver : receiver ∈ x.recvIds) (sender : Nat) :
    (s.receiver receiver).connectedSenderIds.count sender =
      ((s.sender sender).reported x).count receiver := by
  rw [← h.reported.ledger, wire_eq_nil h hStuck, Receiver.reporters,
    (receiver_stuck h hStuck hReceiver).1]
  simp

/-- A receiver still waits for the report of some sender. -/
theorem exists_unreported (hReceiver : receiver ∈ x.recvIds) (hSome : x.senderIds ≠ [])
    (hPoll : (s.receiver receiver).control = .pollReceiveSRQ) :
    ∃ other ∈ x.senderIds, ((s.sender other).reported x).count receiver = 0 := by
  have hStage := h.reported.stage receiver
  rw [Stage, hPoll] at hStage
  by_contra hAll
  have hSubset : x.senderIds ⊆ (s.receiver receiver).connectedSenderIds := by
    intro other hOther
    by_contra hAbsent
    refine hAll ⟨other, hOther, ?_⟩
    rw [← count_connected h hStuck hReceiver]
    exact List.count_eq_zero.mpr hAbsent
  have hLength := (List.subperm_of_subset x.senderIds_nodup hSubset).length_le
  have hPos := List.length_pos_iff.mpr hSome
  have hFewer := hStage.2
  rw [Setup.expectedClients] at hFewer
  omega

/-- Nobody waits for a reply. The receiver that a waiting sender is at has either
replied to it, or waits for a sender that is further behind. -/
theorem no_sender_waits (next : Nat) :
    ∀ sender ∈ x.senderIds, (s.sender sender).control ≠ .pollReceive next := by
  induction next using Nat.strong_induction_on with
  | _ next ih =>
    intro sender hSender hControl
    rcases sender_stuck h hStuck hSender with hLast | ⟨next', receiver, hWaits, hNext, hNone⟩
    · rw [hControl] at hLast
      cases hLast
    · obtain rfl := SenderControl.pollReceive.inj (hControl.symm.trans hWaits)
      have hReceiver : receiver ∈ x.recvIds := List.mem_of_getElem? hNext
      rcases (receiver_stuck h hStuck hReceiver).2 with hPoll | hReturned
      · obtain ⟨other, hOther, hUnreported⟩ :=
          exists_unreported h hStuck hReceiver (List.ne_nil_of_mem hSender) hPoll
        rcases sender_stuck h hStuck hOther with hLast | ⟨behind, _, hBehind, _, _⟩
        · rw [reported_atLastReceive hLast] at hUnreported
          exact List.count_eq_zero.mp hUnreported hReceiver
        · refine ih behind ?_ other hOther hBehind
          by_contra hAhead
          rw [Sender.reported, hBehind, SenderControl.reports] at hUnreported
          obtain ⟨hBound, hGet⟩ := List.getElem?_eq_some_iff.mp hNext
          apply List.count_eq_zero.mp hUnreported
          exact List.mem_take_iff_getElem.mpr ⟨next, by omega, hGet⟩
      · have hReply := h.ledger sender receiver
        have hReport := count_connected h hStuck hReceiver sender
        have hOnce : (x.recvIds.take (next + 1)).count receiver ≤ 1 :=
          List.nodup_iff_count_le_one.mp (x.recvIds_nodup.sublist (List.take_sublist _ _)) receiver
        rw [Sender.reported, hControl, SenderControl.reports] at hReport
        rw [replies_eq_nil h hStuck, hNone, Sender.finished, hControl, SenderControl.finishes,
          Receiver.repliedTo, hReturned, ReceiverControl.replies, List.take_length] at hReply
        rw [take_succ_of_getElem? hNext, List.count_append,
          List.count_singleton_self] at hReport hOnce
        simp only [List.length_nil] at hReply
        omega

/-- If nothing can go on, all senders have returned. -/
theorem senders_returned : ∀ sender ∈ x.senderIds, (s.sender sender).control = .returned := by
  have hLast : ∀ sender ∈ x.senderIds, (s.sender sender).control.atLastReceive = true := by
    intro sender hSender
    rcases sender_stuck h hStuck hSender with hLast | ⟨next, _, hWaits, _, _⟩
    · exact hLast
    · exact absurd hWaits (no_sender_waits h hStuck next sender hSender)
  intro sender hSender
  have hAtLast := hLast sender hSender
  cases hControl : (s.sender sender).control with
  | returned => rfl
  | lastReceive =>
      have hStep : (senderStep x s sender).isSome = true := by
        simp only [senderStep, hControl]
        rw [if_pos fun other hOther _ => hLast other hOther]
        rfl
      exact absurd (enabled_sender hSender hStep) hStuck
  | _ =>
      rw [hControl] at hAtLast
      cases hAtLast

/-- If nothing can go on, all receivers have returned, provided that there is a sender
to report. -/
theorem receivers_returned (hSome : x.senderIds ≠ []) :
    ∀ receiver ∈ x.recvIds, (s.receiver receiver).control = .returned := by
  intro receiver hReceiver
  rcases (receiver_stuck h hStuck hReceiver).2 with hPoll | hReturned
  · obtain ⟨other, hOther, hUnreported⟩ := exists_unreported h hStuck hReceiver hSome hPoll
    have hLast : (s.sender other).control.atLastReceive = true := by
      rw [senders_returned h hStuck other hOther]
      rfl
    rw [reported_atLastReceive hLast] at hUnreported
    exact absurd hReceiver (List.count_eq_zero.mp hUnreported)
  · exact hReturned

end Stuck

/-- All senders and receivers are through with `initPhase`. -/
def AllReturned (x : Setup) (s : State) : Prop :=
  (∀ sender ∈ x.senderIds, (s.sender sender).control = .returned) ∧
    ∀ receiver ∈ x.recvIds, (s.receiver receiver).control = .returned

/-- The slot `reqBuffer_[id]` of a receiver, and its whole request buffer. -/
def Receiver.slot (rcv : Receiver) (id : Nat) : Extent :=
  ⟨rcv.reqBuffer + id * sizeofMessageBase, sizeofMessageBase⟩

def Receiver.requests (rcv : Receiver) : Extent :=
  ⟨rcv.reqBuffer, sizeofMessageBase * rcv.reqBufferLength⟩

/-- What a sender with some node id holds of a receiver: the offset of its slot,
and its part of the responses. -/
def Receiver.infoFor (x : Setup) (rcv : Receiver) (receiver id : Nat) : RecvInfo where
  nodeId := receiver
  msgOffset := (rcv.slot id).start
  first := sizeT (partition x.numberPreparedResponses id (x.maxNodeID + 1)).1
  last := sizeT (partition x.numberPreparedResponses id (x.maxNodeID + 1)).2

/-- The slots of the senders are inside the buffer, and apart from each other. -/
structure PrivateSlots (x : Setup) (rcv : Receiver) (receiver : Nat) : Prop where
  length : rcv.reqBufferLength = x.maxNodeID + 1
  allocated : rcv.reqBuffer = x.localAlloc receiver rcv.requests.length
  inside : ∀ id ∈ x.senderIds, (rcv.slot id).bytes ⊆ rcv.requests.bytes
  apart : ∀ id ∈ x.senderIds, ∀ other ∈ x.senderIds, id ≠ other →
    Disjoint (rcv.slot id).bytes (rcv.slot other).bytes

section Contents

variable {x : Setup} {s : State}

/-- The slots of different ids are apart, and the buffer has one for the largest. -/
theorem privateSlots {rcv : Receiver} {receiver : Nat}
    (hLength : rcv.reqBufferLength = x.maxNodeID + 1)
    (hBuffer : rcv.reqBuffer = x.reqBuffer receiver) : PrivateSlots x rcv receiver where
  length := hLength
  allocated := by
    rw [Receiver.requests, hBuffer, hLength]
    rfl
  inside := by
    intro id hId byte hByte
    have hLe : id ≤ x.maxNodeID := List.le_max_of_le' 0 hId (Nat.le_refl id)
    simp only [Receiver.slot, Receiver.requests, Extent.mem_bytes, hLength,
      sizeofMessageBase] at hByte ⊢
    omega
  apart := by
    intro id _ other _ hNe
    rw [Finset.disjoint_left]
    intro byte hByte hOther
    simp only [Receiver.slot, Extent.mem_bytes, sizeofMessageBase] at hByte hOther
    omega

theorem contents (h : Replied x s) (hReturned : AllReturned x s) :
    (∀ sender ∈ x.senderIds, (s.sender sender).recvIds =
      x.recvIds.map fun receiver => (s.receiver receiver).infoFor x receiver sender) ∧
    ∀ receiver ∈ x.recvIds, PrivateSlots x (s.receiver receiver) receiver := by
  have hBuffer : ∀ receiver ∈ x.recvIds,
      (s.receiver receiver).reqBufferLength = x.maxNodeID + 1 ∧
        (s.receiver receiver).reqBuffer = x.reqBuffer receiver := by
    intro receiver hReceiver
    have hControl := hReturned.2 receiver hReceiver
    exact (h.serving receiver).buffer (by rw [hControl]; rfl) (by rw [hControl]; simp)
  constructor
  · intro sender hSender
    rw [(h.waiting sender).recvIds, Sender.finished, hReturned.1 sender hSender,
      SenderControl.finishes, List.take_length]
    apply List.map_congr_left
    intro receiver hReceiver
    simp only [Receiver.infoFor, Receiver.slot, (hBuffer receiver hReceiver).2]
    rfl
  · intro receiver hReceiver
    obtain ⟨hLength, hOffset⟩ := hBuffer receiver hReceiver
    exact privateSlots hLength hOffset

end Contents

/-- With at least one sender the handshake never gets stuck, and at its end every
sender holds its slot and its range at every receiver. -/
theorem init_handshake {x : Setup} (hSome : x.senderIds ≠ []) {s : State}
    (h : (initMachine x).Reachable s) :
    ((∃ sender ∈ x.senderIds, (s.sender sender).control ≠ .returned) ∨
      (∃ receiver ∈ x.recvIds, (s.receiver receiver).control ≠ .returned) → Enabled x s) ∧
    (AllReturned x s →
      (∀ sender ∈ x.senderIds, (s.sender sender).recvIds =
        x.recvIds.map fun receiver => (s.receiver receiver).infoFor x receiver sender) ∧
      ∀ receiver ∈ x.recvIds, PrivateSlots x (s.receiver receiver) receiver) := by
  have hReplied := reachable_replied h
  refine ⟨fun hUnfinished => ?_, contents hReplied⟩
  by_contra hStuck
  rcases hUnfinished with ⟨sender, hSender, hOn⟩ | ⟨receiver, hReceiver, hOn⟩
  · exact hOn (senders_returned hReplied hStuck sender hSender)
  · exact hOn (receivers_returned hReplied hStuck hSome receiver hReceiver)

/-- Two senders and a receiver. -/
def trio : Setup where
  POLL := .srq
  numberPreparedResponses := 8
  senderIds := [1, 3]
  recvIds := [2]
  senderProcess _ := 1
  receiverProcess _ := 0
  localAlloc _ _ := 256
  senderIds_nodup := by decide
  recvIds_nodup := by decide

/-- Sender 3 reports first. -/
def trioActions : List Operation :=
  [.sender 3, .sender 3, .receiver 2, .arrive 3 2 0, .sender 3, .receiver 2, .sender 1, .sender 1,
    .arrive 1 2 1, .receiver 2, .sender 1, .receiver 2, .answer 2 3, .sender 3, .receiver 2,
    .receiver 2, .answer 2 1, .sender 1, .receiver 2, .sender 1, .sender 3, .sender 1, .sender 3]

/-- The slot of sender 3 begins 192 bytes behind the buffer. -/
theorem init_handshake_trio :
    ∃ s, (initMachine trio).Reachable s ∧ AllReturned trio s ∧
      (s.sender 3).recvIds = [(s.receiver 2).infoFor trio 2 3] ∧
      ((s.sender 3).recvIds.map RecvInfo.msgOffset) = [448] := by
  obtain ⟨s, hReplay, hReturned, hOffset⟩ : ∃ s,
      (initMachine trio).replay (initMachine trio).init trioActions = some s ∧
        AllReturned trio s ∧ ((s.sender 3).recvIds.map RecvInfo.msgOffset) = [448] :=
    ⟨_, rfl, ⟨by decide, by decide⟩, rfl⟩
  have hReachable := Machine.reachable_of_replay trioActions hReplay
  have hContents := (init_handshake (x := trio) (by decide) hReachable).2 hReturned
  exact ⟨s, hReachable, hReturned, hContents.1 3 (by decide), hOffset⟩

/-- A receiver that expects nobody. -/
def alone : Setup where
  POLL := .srq
  numberPreparedResponses := 8
  senderIds := []
  recvIds := [2]
  senderProcess _ := 1
  receiverProcess _ := 0
  localAlloc _ _ := 256
  senderIds_nodup := by decide
  recvIds_nodup := by decide

/-- Without a sender the receiver polls for a report that nobody sends. -/
theorem init_handshake_stuck :
    ∃ s, (initMachine alone).Reachable s ∧
      (∃ receiver ∈ alone.recvIds, (s.receiver receiver).control ≠ .returned) ∧
      ¬Enabled alone s := by
  obtain ⟨s, hReplay, hControl, hCompleted, hWire, hReplies⟩ : ∃ s,
      (initMachine alone).replay (initMachine alone).init [.receiver 2] = some s ∧
        (s.receiver 2).control = .pollReceiveSRQ ∧ (s.receiver 2).srq.completed = [] ∧
        (∀ link, s.wire link = []) ∧ ∀ link, s.replies link = [] :=
    ⟨_, rfl, rfl, rfl, fun _ => rfl, fun _ => rfl⟩
  refine ⟨s, Machine.reachable_of_replay _ hReplay, ⟨2, by decide, by rw [hControl]; simp⟩, ?_⟩
  rintro ⟨a, hNext⟩
  cases a with
  | sender self => cases hNext
  | receiver self =>
      by_cases hSelf : self = 2
      · subst hSelf
        simp [next, alone, receiverStep, hControl, SharedReceiveQueue.poll, hCompleted] at hNext
      · simp [next, alone, hSelf] at hNext
  | arrive sender receiver memIdx => simp [next, State.arrival, hWire] at hNext
  | answer receiver sender => simp [next, State.answerArrival, hReplies] at hNext

end InitPhase
