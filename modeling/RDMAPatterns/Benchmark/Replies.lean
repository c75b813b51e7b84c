import RDMAPatterns.Benchmark.Reports

/-! Every sender gets one reply from each receiver, once that has all reports.
What a sender is through with is a beginning of the list of receivers, and what
a receiver has replied to is a beginning of its list of senders. -/
namespace InitPhase

open Benchmark Channels Transition Verbs
open BenchmarkDispatcher (RecvInfo)
open BenchmarkReceiver (initReply)

namespace Setup

variable (x : Setup)

def maxNodeID : Nat := x.senderIds.foldr max 0

/-- The request buffer of a receiver: a message for every id up to the largest. -/
def reqBuffer (receiver : Nat) : Nat :=
  x.localAlloc receiver (sizeofMessageBase * (x.maxNodeID + 1))

/-- The reply of a receiver to a sender. -/
def replyOf (receiver sender : Nat) : MessageBase :=
  initReply x.numberPreparedResponses sender (x.maxNodeID + 1)
    (x.reqBuffer receiver + sender * sizeofMessageBase)

end Setup

/-- How many receivers a sender has posted a receive for. -/
def SenderControl.posts (total : Nat) : SenderControl → Nat
  | .start | .query | .connect _ | .connected | .failed => 0
  | .receive next => next
  | .send next | .sent next | .pollReceive next => next + 1
  | .lastReceive | .returned => total

/-- How many receivers a sender is through with. -/
def SenderControl.finishes (total : Nat) : SenderControl → Nat
  | .start | .query | .connect _ | .connected | .failed => 0
  | .receive next | .send next | .sent next | .pollReceive next => next
  | .lastReceive | .returned => total

def Sender.posted (x : Setup) (snd : Sender) : List Nat :=
  x.recvIds.take (snd.control.posts x.recvIds.length)

def Sender.finished (x : Setup) (snd : Sender) : List Nat :=
  x.recvIds.take (snd.control.finishes x.recvIds.length)

/-- How many of its senders a receiver has replied to. -/
def ReceiverControl.replies (total : Nat) : ReceiverControl → Nat
  | .reply i => i
  | .replied i => i + 1
  | .returned => total
  | _ => 0

def Receiver.repliedTo (rcv : Receiver) : List Nat :=
  rcv.connectedSenderIds.take (rcv.control.replies rcv.connectedSenderIds.length)

/-- A sender in the middle of `initPhase` has posted a receive for every reply to
come, and holds the contents of the replies it is through with. -/
structure Sender.Waiting (x : Setup) (id : Nat) (snd : Sender) : Prop where
  started : snd.control.starting = false
  bound : ∀ next, snd.control = .send next ∨ snd.control = .sent next ∨
    snd.control = .pollReceive next → next < x.recvIds.length
  ledger : ∀ receiver, snd.receives receiver + (snd.received receiver).length +
    (snd.finished x).count receiver = (snd.posted x).count receiver
  content : ∀ receiver, ∀ m ∈ snd.received receiver, m = x.replyOf receiver id
  recvIds : snd.recvIds = (snd.finished x).map fun receiver =>
    RecvInfo.ofReply receiver (x.replyOf receiver id)

/-- A receiver behind its loop over the reports has the buffer for the requests. -/
structure Receiver.Serving (x : Setup) (id : Nat) (rcv : Receiver) : Prop where
  constructed : rcv.control.constructing = false
  bound : ∀ i, rcv.control = .reply i ∨ rcv.control = .replied i →
    i < rcv.connectedSenderIds.length
  buffer : rcv.control.starting = false → rcv.control ≠ .pollReceiveSRQ →
    rcv.reqBufferLength = x.maxNodeID + 1 ∧ rcv.reqBuffer = x.reqBuffer id

structure Replied (x : Setup) (s : State) : Prop where
  reported : Reported x s
  waiting : ∀ sender, (s.sender sender).Waiting x sender
  serving : ∀ receiver, (s.receiver receiver).Serving x receiver
  ledger : ∀ sender receiver,
    (s.replies (receiver, sender)).length + ((s.sender sender).received receiver).length +
      ((s.sender sender).finished x).count receiver = (s.receiver receiver).repliedTo.count sender
  flight : ∀ receiver sender, s.replies (receiver, sender) ≠ [] → ∃ i,
    (s.receiver receiver).control = .replied i ∧
      (s.receiver receiver).connectedSenderIds[i]? = some sender
  content : ∀ receiver sender, ∀ m ∈ s.replies (receiver, sender), m = x.replyOf receiver sender

/-- The receiver that a sender is at, once it has posted the receive for the reply. -/
def SenderControl.awaited : SenderControl → Option Nat
  | .send next | .sent next | .pollReceive next => some next
  | _ => none

theorem SenderControl.lt_of_awaited {control : SenderControl} {total : Nat}
    (h : ∀ next ∈ control.awaited, next < total) :
    ∀ next, control = .send next ∨ control = .sent next ∨ control = .pollReceive next →
      next < total := by
  rintro next (rfl | rfl | rfl)
  all_goals exact h next rfl

/-- The sender that a receiver is replying to. -/
def ReceiverControl.serves : ReceiverControl → Option Nat
  | .reply i | .replied i => some i
  | _ => none

theorem ReceiverControl.lt_of_serves {control : ReceiverControl} {total : Nat}
    (h : ∀ i ∈ control.serves, i < total) :
    ∀ i, control = .reply i ∨ control = .replied i → i < total := by
  rintro i (rfl | rfl)
  all_goals exact h i rfl

theorem count_singleton_of_ne {other receiver : Nat} (h : other ≠ receiver) :
    [receiver].count other = 0 :=
  List.count_eq_zero.mpr (by simpa using h)

theorem lt_of_getElem?_eq_some {l : List Nat} {next receiver : Nat}
    (hNext : l[next]? = some receiver) : next < l.length :=
  (List.getElem?_eq_some_iff.mp hNext).1

section SenderSteps

variable {x : Setup} {s : State} {self : Nat} {snd : Sender}
  {out : Option (Nat × MessageBase)}

/-- A move of a sender posts the receive before its report, and takes the reply after
it. -/
theorem SenderMoves.waiting (h : SenderMoves x s self snd out)
    (hWaiting : (s.sender self).Waiting x self) : snd.Waiting x self := by
  obtain ⟨hStarted, hBound, hLedger, hContent, hRecvIds⟩ := hWaiting
  cases h with
  | starting hControl hNext =>
      rw [hStarted] at hControl
      cases hControl
  | @receive next receiver hControl hNext =>
      simp only [Sender.finished, Sender.posted, hControl, SenderControl.finishes,
        SenderControl.posts] at hLedger hRecvIds
      have hAt : ∀ k ∈ (SenderControl.send next).awaited, k < x.recvIds.length := by
        simpa [SenderControl.awaited] using lt_of_getElem?_eq_some hNext
      refine ⟨rfl, SenderControl.lt_of_awaited hAt, ?_, hContent, hRecvIds⟩
      intro other
      have hOther := hLedger other
      simp only [Sender.finished, Sender.posted, SenderControl.finishes, SenderControl.posts,
        take_succ_of_getElem? hNext, List.count_append]
      by_cases hSame : other = receiver
      · subst hSame
        rw [Function.update_self, List.count_singleton_self]
        omega
      · rw [Function.update_of_ne hSame, count_singleton_of_ne hSame]
        exact hOther
  | through hControl hNext =>
      simp only [Sender.finished, Sender.posted, hControl, SenderControl.finishes,
        SenderControl.posts, take_of_getElem?_none hNext] at hLedger hRecvIds
      have hAt : ∀ k ∈ SenderControl.lastReceive.awaited, k < x.recvIds.length := by
        simp [SenderControl.awaited]
      exact ⟨rfl, SenderControl.lt_of_awaited hAt, hLedger, hContent, hRecvIds⟩
  | @send next receiver hControl hNext =>
      simp only [Sender.finished, Sender.posted, hControl, SenderControl.finishes,
        SenderControl.posts] at hLedger hRecvIds
      have hAt : ∀ k ∈ (SenderControl.sent next).awaited, k < x.recvIds.length := by
        simpa [SenderControl.awaited] using lt_of_getElem?_eq_some hNext
      exact ⟨rfl, SenderControl.lt_of_awaited hAt, hLedger, hContent, hRecvIds⟩
  | @sent next receiver hControl hNext hWire =>
      simp only [Sender.finished, Sender.posted, hControl, SenderControl.finishes,
        SenderControl.posts] at hLedger hRecvIds
      have hAt : ∀ k ∈ (SenderControl.pollReceive next).awaited, k < x.recvIds.length := by
        simpa [SenderControl.awaited] using lt_of_getElem?_eq_some hNext
      exact ⟨rfl, SenderControl.lt_of_awaited hAt, hLedger, hContent, hRecvIds⟩
  | @pollReceive next receiver recvMsg rest hControl hNext hReceived =>
      simp only [Sender.finished, Sender.posted, hControl, SenderControl.finishes,
        SenderControl.posts] at hLedger hRecvIds
      have hAt : ∀ k ∈ (SenderControl.receive (next + 1)).awaited, k < x.recvIds.length := by
        simp [SenderControl.awaited]
      refine ⟨rfl, SenderControl.lt_of_awaited hAt, ?_, ?_, ?_⟩
      · intro other
        have hOther := hLedger other
        simp only [Sender.finished, Sender.posted, SenderControl.finishes, SenderControl.posts,
          take_succ_of_getElem? hNext, List.count_append] at hOther ⊢
        by_cases hSame : other = receiver
        · subst hSame
          rw [hReceived, List.length_cons, List.count_singleton_self] at hOther
          rw [Function.update_self, List.count_singleton_self]
          omega
        · rw [Function.update_of_ne hSame]
          rw [count_singleton_of_ne hSame] at hOther ⊢
          exact hOther
      · refine (Function.forall_update_iff (s.sender self).received fun other messages =>
          ∀ m ∈ messages, m = x.replyOf other self).mpr ⟨?_, fun other _ => hContent other⟩
        intro m hMem
        exact hContent receiver m (by rw [hReceived]; exact List.mem_cons_of_mem _ hMem)
      · have hMessage := hContent receiver recvMsg (by rw [hReceived]; exact List.mem_cons_self)
        simp only [Sender.finished, SenderControl.finishes, take_succ_of_getElem? hNext,
          List.map_append, hRecvIds, hMessage]
        rfl
  | lastReceive hControl =>
      simp only [Sender.finished, Sender.posted, hControl, SenderControl.finishes,
        SenderControl.posts] at hLedger hRecvIds
      have hAt : ∀ k ∈ SenderControl.returned.awaited, k < x.recvIds.length := by
        simp [SenderControl.awaited]
      exact ⟨rfl, SenderControl.lt_of_awaited hAt, hLedger, hContent, hRecvIds⟩

/-- What a sender takes off its list of replies it is through with. -/
theorem SenderMoves.finished (h : SenderMoves x s self snd out)
    (hWaiting : (s.sender self).Waiting x self) (receiver : Nat) :
    (snd.received receiver).length + (snd.finished x).count receiver =
      ((s.sender self).received receiver).length +
        ((s.sender self).finished x).count receiver := by
  cases h with
  | starting hControl hNext =>
      rw [hWaiting.started] at hControl
      cases hControl
  | receive hControl hNext | send hControl hNext | sent hControl hNext hWire
  | lastReceive hControl => simp [Sender.finished, hControl, SenderControl.finishes]
  | through hControl hNext =>
      simp only [Sender.finished, hControl, SenderControl.finishes, take_of_getElem?_none hNext]
  | @pollReceive next destination recvMsg rest hControl hNext hReceived =>
      simp only [Sender.finished, hControl, SenderControl.finishes, take_succ_of_getElem? hNext,
        List.count_append]
      by_cases hSame : receiver = destination
      · subst hSame
        rw [Function.update_self, hReceived, List.length_cons, List.count_singleton_self]
        omega
      · rw [Function.update_of_ne hSame, count_singleton_of_ne hSame, Nat.add_zero]

/-- A reply takes the receive that was posted for it. -/
theorem Sender.Waiting.answered {id receiver : Nat} {m : MessageBase}
    (hWaiting : snd.Waiting x id) (hPosted : 0 < snd.receives receiver)
    (hMessage : m = x.replyOf receiver id) :
    Sender.Waiting x id { snd with
      receives := Function.update snd.receives receiver (snd.receives receiver - 1)
      received := Function.update snd.received receiver (snd.received receiver ++ [m]) } := by
  obtain ⟨hStarted, hBound, hLedger, hContent, hRecvIds⟩ := hWaiting
  refine ⟨hStarted, hBound, ?_, ?_, hRecvIds⟩
  · intro other
    have hOther := hLedger other
    simp only [Sender.finished, Sender.posted] at hOther ⊢
    by_cases hSame : other = receiver
    · subst hSame
      rw [Function.update_self, Function.update_self, List.length_append, List.length_singleton]
      omega
    · rw [Function.update_of_ne hSame, Function.update_of_ne hSame]
      exact hOther
  · refine (Function.forall_update_iff snd.received fun other messages =>
      ∀ m ∈ messages, m = x.replyOf other id).mpr ⟨?_, fun other _ => hContent other⟩
    intro message hMem
    rcases List.mem_append.mp hMem with hOld | hNew
    · exact hContent receiver message hOld
    · rw [List.mem_singleton.mp hNew]
      exact hMessage

end SenderSteps

section ReceiverSteps

variable {x : Setup} {s : State} {self : Nat} {rcv : Receiver}
  {out : Option (Nat × MessageBase)}

/-- What a receiver sends is one more reply. -/
theorem ReceiverMoves.repliedTo (h : ReceiverMoves x s self rcv out)
    (hServing : (s.receiver self).Serving x self) (sender : Nat) :
    rcv.repliedTo.count sender =
      (s.receiver self).repliedTo.count sender + (outgoing sender out).length := by
  cases h with
  | constructing hControl hNext =>
      rw [hServing.constructed] at hControl
      cases hControl
  | receiveBatch hControl | collect hControl hPoll hMore | last hControl hPoll hLast hPosted =>
      simp [Receiver.repliedTo, hControl, ReceiverControl.replies, outgoing]
  | @reply i id hControl hId =>
      simp only [Receiver.repliedTo, hControl, ReceiverControl.replies, take_succ_of_getElem? hId,
        List.count_append, outgoing]
      by_cases hSame : sender = id
      · simp [hSame]
      · rw [count_singleton_of_ne hSame, if_neg (Ne.symm hSame)]
        rfl
  | @replied i id hControl hId hReplies =>
      simp only [Receiver.repliedTo, hControl]
      split_ifs with hMore
      · simp [ReceiverControl.replies, outgoing]
      · have hAll : i + 1 = (s.receiver self).connectedSenderIds.length := by
          have hBound := lt_of_getElem?_eq_some hId
          omega
        simp [ReceiverControl.replies, outgoing, hAll]

end ReceiverSteps

section Consequences

variable {x : Setup} {s : State} (h : Reported x s)

include h

/-- Behind its loop over the reports a receiver has exactly the senders. -/
theorem Reported.connected_perm {receiver : Nat}
    (hStarting : (s.receiver receiver).control.starting = false)
    (hPoll : (s.receiver receiver).control ≠ .pollReceiveSRQ) :
    (s.receiver receiver).srq.completed = [] ∧
      (s.receiver receiver).connectedSenderIds.Perm x.senderIds := by
  have hStage := h.stage receiver
  have hAll : (s.receiver receiver).srq.completed = [] ∧
      (s.receiver receiver).connectedSenderIds.length = x.expectedClients := by
    cases hControl : (s.receiver receiver).control with
    | createSRQ | requestNodeID | startServer | barrier | receiveBatch =>
        rw [hControl] at hStarting
        cases hStarting
    | pollReceiveSRQ => exact absurd hControl hPoll
    | reply i | replied i | returned =>
        rw [Stage, hControl] at hStage
        exact hStage
  obtain ⟨hNone, hLength⟩ := hAll
  have hReporters : (s.receiver receiver).reporters =
      (s.receiver receiver).connectedSenderIds := by
    rw [Receiver.reporters, hNone]
    rfl
  have hNodup := h.nodup receiver
  rw [hReporters] at hNodup
  have hSubset : (s.receiver receiver).connectedSenderIds ⊆ x.senderIds := by
    intro sender hSender
    rw [← hReporters] at hSender
    exact h.mem_senderIds (Or.inr hSender)
  have hSubperm := List.subperm_of_subset hNodup hSubset
  exact ⟨hNone, hSubperm.perm_of_length_le (Nat.le_of_eq hLength.symm)⟩

end Consequences

/-- A receiver that has got the last report allocates the buffer for all ids. -/
theorem ReceiverMoves.serving {x : Setup} {s : State} {self : Nat} {rcv : Receiver}
    {out : Option (Nat × MessageBase)} (h : ReceiverMoves x s self rcv out)
    (hServing : (s.receiver self).Serving x self)
    (hPerm : rcv.control.starting = false → rcv.control ≠ .pollReceiveSRQ →
      rcv.connectedSenderIds.Perm x.senderIds) : rcv.Serving x self := by
  obtain ⟨hConstructed, hBound, hBuffer⟩ := hServing
  cases h with
  | constructing hControl hNext =>
      rw [hConstructed] at hControl
      cases hControl
  | receiveBatch hControl =>
      have hAt : ∀ k ∈ ReceiverControl.pollReceiveSRQ.serves,
          k < (s.receiver self).connectedSenderIds.length := by simp [ReceiverControl.serves]
      exact ⟨rfl, ReceiverControl.lt_of_serves hAt, fun _ hPoll => absurd rfl hPoll⟩
  | @collect nodeId memoryIdx srq hControl hPoll hMore =>
      have hAt : ∀ k ∈ (s.receiver self).control.serves,
          k < ((s.receiver self).connectedSenderIds ++ [nodeId]).length := by
        simp [hControl, ReceiverControl.serves]
      exact ⟨hConstructed, ReceiverControl.lt_of_serves hAt, fun _ hOther => absurd hControl hOther⟩
  | @last nodeId memoryIdx srq posted hControl hPoll hLast hPosted =>
      have hMax : ((s.receiver self).connectedSenderIds ++ [nodeId]).foldr max 0 = x.maxNodeID := by
        have hAll := hPerm rfl (by simp)
        exact hAll.foldr_eq 0
      have hAt : ∀ k ∈ (ReceiverControl.reply 0).serves,
          k < ((s.receiver self).connectedSenderIds ++ [nodeId]).length := by
        simp [ReceiverControl.serves]
      refine ⟨rfl, ReceiverControl.lt_of_serves hAt, fun _ _ => ?_⟩
      exact ⟨by rw [hMax], by rw [hMax]; rfl⟩
  | @reply i id hControl hId =>
      have hOld := hBuffer (by rw [hControl]; rfl) (by rw [hControl]; simp)
      have hAt : ∀ k ∈ (ReceiverControl.replied i).serves,
          k < (s.receiver self).connectedSenderIds.length := by
        simpa [ReceiverControl.serves] using lt_of_getElem?_eq_some hId
      exact ⟨rfl, ReceiverControl.lt_of_serves hAt, fun _ _ => hOld⟩
  | @replied i id hControl hId hReplies =>
      have hOld := hBuffer (by rw [hControl]; rfl) (by rw [hControl]; simp)
      by_cases hMore : i + 1 < (s.receiver self).connectedSenderIds.length
      · have hAt : ∀ k ∈ (ReceiverControl.reply (i + 1)).serves,
            k < (s.receiver self).connectedSenderIds.length := by
          simpa [ReceiverControl.serves] using hMore
        simp only [if_pos hMore]
        exact ⟨rfl, ReceiverControl.lt_of_serves hAt, fun _ _ => hOld⟩
      · have hAt : ∀ k ∈ ReceiverControl.returned.serves,
            k < (s.receiver self).connectedSenderIds.length := by simp [ReceiverControl.serves]
        simp only [if_neg hMore]
        exact ⟨rfl, ReceiverControl.lt_of_serves hAt, fun _ _ => hOld⟩

section Replies

variable {x : Setup} {s : State} {self : Nat} {rcv : Receiver}
  {out : Option (Nat × MessageBase)} (h : ReceiverMoves x s self rcv out)

include h

/-- At most the reply sent last is on its way. -/
theorem ReceiverMoves.flight
    (hFlight : ∀ sender, s.replies (self, sender) ≠ [] → ∃ i,
      (s.receiver self).control = .replied i ∧
        (s.receiver self).connectedSenderIds[i]? = some sender)
    {sender : Nat} (hReplies : s.replies (self, sender) ++ outgoing sender out ≠ []) :
    ∃ i, rcv.control = .replied i ∧ rcv.connectedSenderIds[i]? = some sender := by
  have hDelivered : s.replies (self, sender) = [] := by
    by_contra hPending
    obtain ⟨i, hReplied, hSender⟩ := hFlight sender hPending
    cases h with
    | constructing hControl hNext =>
        rw [hReplied] at hControl
        cases hControl
    | receiveBatch hControl | collect hControl hPoll hMore | last hControl hPoll hLast hPosted
    | reply hControl hId =>
        rw [hReplied] at hControl
        cases hControl
    | replied hControl hId hEmpty =>
        obtain rfl := ReceiverControl.replied.inj (hReplied.symm.trans hControl)
        obtain rfl := Option.some.inj (hSender.symm.trans hId)
        exact hPending hEmpty
  rw [hDelivered, List.nil_append] at hReplies
  cases h with
  | @reply i id hControl hId =>
      have hSame : id = sender := by
        by_contra hOther
        exact hReplies (if_neg hOther)
      exact ⟨i, rfl, by rw [← hSame]; exact hId⟩
  | _ => exact absurd rfl hReplies

/-- What a receiver sends is its reply to that sender. -/
theorem ReceiverMoves.content (hServing : (s.receiver self).Serving x self) {sender : Nat}
    {m : MessageBase} (hMem : m ∈ outgoing sender out) : m = x.replyOf self sender := by
  cases h with
  | @reply i id hControl hId =>
      obtain ⟨hLength, hBuffer⟩ :=
        hServing.buffer (by rw [hControl]; rfl) (by rw [hControl]; simp)
      rw [outgoing] at hMem
      split at hMem
      case isFalse => cases hMem
      case isTrue hSame =>
        rw [List.mem_singleton.mp hMem, ← hSame, Receiver.replyTo, hLength, hBuffer]
        rfl
  | _ => cases hMem

end Replies

section Steps

variable {x : Setup} {s t : State} (h : Replied x s)

include h

/-- A step of a sender takes over at most the reply that has arrived. -/
theorem sender_replied {self : Nat} (hNext : next x s (.sender self) = some t) :
    Replied x t := by
  obtain ⟨_, snd, out, hMoves, hSender, hReceiver, _, hReplies⟩ := next_sender hNext
  refine ⟨next_reported h.reported hNext, ?_, ?_, ?_, ?_, ?_⟩
  · rw [hSender]
    exact (Function.forall_update_iff s.sender fun sender => Sender.Waiting x sender).mpr
      ⟨hMoves.waiting (h.waiting self), fun sender _ => h.waiting sender⟩
  · rw [hReceiver]
    exact h.serving
  · intro sender receiver
    have hLedger := h.ledger sender receiver
    rw [hSender, hReceiver, hReplies]
    by_cases hSame : sender = self
    · have hFinished := hMoves.finished (h.waiting self) receiver
      rw [hSame] at hLedger ⊢
      rw [Function.update_self]
      omega
    · rw [Function.update_of_ne hSame]
      exact hLedger
  · rw [hReceiver, hReplies]
    exact h.flight
  · rw [hReplies]
    exact h.content

/-- A step of a receiver sends at most one reply, to a sender that has none yet. -/
theorem receiver_replied {self : Nat} (hNext : next x s (.receiver self) = some t) :
    Replied x t := by
  have hReported := next_reported h.reported hNext
  obtain ⟨_, rcv, out, hMoves, hReceiver, hSender, _, hReplies⟩ := next_receiver h.reported hNext
  have hServing := h.serving self
  refine ⟨hReported, ?_, ?_, ?_, ?_, ?_⟩
  · rw [hSender]
    exact h.waiting
  · intro receiver
    by_cases hSame : receiver = self
    · have hSelf : t.receiver self = rcv := by rw [hReceiver, Function.update_self]
      rw [hSame, hSelf]
      refine hMoves.serving hServing fun hStarting hPoll => ?_
      rw [← hSelf] at hStarting hPoll ⊢
      exact (hReported.connected_perm hStarting hPoll).2
    · rw [hReceiver, Function.update_of_ne hSame]
      exact h.serving receiver
  · intro sender receiver
    have hLedger := h.ledger sender receiver
    rw [hSender, hReceiver, hReplies, enqueue_apply, List.length_append]
    by_cases hSame : receiver = self
    · have hRepliedTo := hMoves.repliedTo hServing sender
      rw [hSame] at hLedger ⊢
      rw [Function.update_self, if_pos rfl]
      omega
    · rw [Function.update_of_ne hSame, if_neg hSame]
      exact hLedger
  · intro receiver sender hPending
    rw [hReplies, enqueue_apply] at hPending
    rw [hReceiver]
    by_cases hSame : receiver = self
    · rw [hSame, if_pos rfl] at hPending
      rw [hSame, Function.update_self]
      exact hMoves.flight (h.flight self) hPending
    · rw [if_neg hSame, List.append_nil] at hPending
      rw [Function.update_of_ne hSame]
      exact h.flight receiver sender hPending
  · intro receiver sender m hMem
    rw [hReplies, enqueue_apply, List.mem_append] at hMem
    rcases hMem with hOld | hNew
    · exact h.content receiver sender m hOld
    · split at hNew
      case isFalse => cases hNew
      case isTrue hSame =>
        rw [hSame]
        exact hMoves.content hServing hNew

/-- Reports have no part in the count of the replies. -/
theorem arrive_replied {sender receiver memIdx : Nat}
    (hNext : next x s (.arrive sender receiver memIdx) = some t) : Replied x t := by
  obtain ⟨m, rest, srq, _, _, hReceiver, hSender, _, hReplies⟩ := next_arrive hNext
  have hKept : ∀ other, (t.receiver other).control = (s.receiver other).control ∧
      (t.receiver other).connectedSenderIds = (s.receiver other).connectedSenderIds ∧
      (t.receiver other).reqBufferLength = (s.receiver other).reqBufferLength ∧
      (t.receiver other).reqBuffer = (s.receiver other).reqBuffer := by
    intro other
    rw [hReceiver]
    by_cases hSame : other = receiver
    · rw [hSame, Function.update_self]
      exact ⟨rfl, rfl, rfl, rfl⟩
    · rw [Function.update_of_ne hSame]
      exact ⟨rfl, rfl, rfl, rfl⟩
  refine ⟨next_reported h.reported hNext, ?_, ?_, ?_, ?_, ?_⟩
  · rw [hSender]
    exact h.waiting
  · intro other
    obtain ⟨hControl, hConnected, hLength, hBuffer⟩ := hKept other
    obtain ⟨hConstructed, hBound, hOwn⟩ := h.serving other
    refine ⟨?_, ?_, ?_⟩
    · rwa [hControl]
    · rwa [hControl, hConnected]
    · rwa [hControl, hLength, hBuffer]
  · intro other destination
    obtain ⟨hControl, hConnected, _, _⟩ := hKept destination
    rw [hSender, hReplies, Receiver.repliedTo, hControl, hConnected]
    exact h.ledger other destination
  · intro destination other hPending
    obtain ⟨hControl, hConnected, _, _⟩ := hKept destination
    rw [hReplies] at hPending
    rw [hControl, hConnected]
    exact h.flight destination other hPending
  · rw [hReplies]
    exact h.content

/-- A reply that arrives is still not taken over. -/
theorem answer_replied {sender receiver : Nat}
    (hNext : next x s (.answer receiver sender) = some t) : Replied x t := by
  obtain ⟨m, rest, hOn, hPosted, hSender, hReceiver, _, hReplies⟩ := next_answer hNext
  have hMessage := h.content receiver sender m (by rw [hOn]; exact List.mem_cons_self)
  refine ⟨next_reported h.reported hNext, ?_, ?_, ?_, ?_, ?_⟩
  · rw [hSender]
    exact (Function.forall_update_iff s.sender fun other => Sender.Waiting x other).mpr
      ⟨(h.waiting sender).answered hPosted hMessage, fun other _ => h.waiting other⟩
  · rw [hReceiver]
    exact h.serving
  · intro other destination
    have hLedger := h.ledger other destination
    rw [hSender, hReceiver, hReplies]
    by_cases hOther : other = sender
    · subst hOther
      rw [Function.update_self]
      by_cases hSame : destination = receiver
      · subst hSame
        rw [hOn, List.length_cons] at hLedger
        simp only [Function.update_self, List.length_append, List.length_singleton,
          Sender.finished] at hLedger ⊢
        omega
      · have hPair : (destination, other) ≠ (receiver, other) := fun hEq =>
          hSame (congrArg Prod.fst hEq)
        simp only [Function.update_of_ne hPair, Function.update_of_ne hSame]
        exact hLedger
    · have hPair : (destination, other) ≠ (receiver, sender) := fun hEq =>
        hOther (congrArg Prod.snd hEq)
      rw [Function.update_of_ne hPair, Function.update_of_ne hOther]
      exact hLedger
  · intro destination other hPending
    rw [hReplies] at hPending
    rw [hReceiver]
    by_cases hSame : (destination, other) = (receiver, sender)
    · obtain ⟨rfl, rfl⟩ := Prod.mk.inj hSame
      exact h.flight destination other (by rw [hOn]; exact List.cons_ne_nil m rest)
    · rw [Function.update_of_ne hSame] at hPending
      exact h.flight destination other hPending
  · intro destination other message hMem
    rw [hReplies] at hMem
    by_cases hSame : (destination, other) = (receiver, sender)
    · obtain ⟨rfl, rfl⟩ := Prod.mk.inj hSame
      rw [Function.update_self] at hMem
      exact h.content destination other message (by rw [hOn]; exact List.mem_cons_of_mem m hMem)
    · rw [Function.update_of_ne hSame] at hMem
      exact h.content destination other message hMem

end Steps

/-- The count of the replies is kept by every step. -/
theorem next_replied {x : Setup} {s t : State} (h : Replied x s) {a : Operation}
    (hNext : next x s a = some t) : Replied x t := by
  cases a with
  | sender self => exact sender_replied h hNext
  | receiver self => exact receiver_replied h hNext
  | arrive sender receiver memIdx => exact arrive_replied h hNext
  | answer receiver sender => exact answer_replied h hNext

theorem replied_init (x : Setup) : Replied x (initMachine x).init where
  reported := reported_init x
  waiting _ := ⟨rfl, by simp [initMachine], fun _ => rfl, fun _ _ hMem => (by cases hMem), rfl⟩
  serving _ := ⟨rfl, by simp [initMachine], fun hStarting => by cases hStarting⟩
  ledger _ _ := rfl
  flight _ _ hPending := absurd rfl hPending
  content _ _ _ hMem := by cases hMem

/-- Each sender gets one reply from each receiver in every run of the handshake. -/
theorem reachable_replied {x : Setup} {s : State} (h : (initMachine x).Reachable s) :
    Replied x s :=
  h.invariant (replied_init x) fun _ _ _ hReplied hNext => next_replied hReplied hNext

end InitPhase
