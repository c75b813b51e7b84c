import Mathlib.Algebra.Group.Action.Defs
import Mathlib.Algebra.Order.BigOperators.Group.Finset
import RDMAPatterns.Benchmark.InitHandshake
import RDMAPatterns.Transition.Potential

/-! How long the handshake of `initPhase` takes. Every receiver has nine steps for each
sender and one of its own, every sender two of its own, in whatever order they come. -/
namespace InitPhase

open Benchmark Channels Transition Verbs

section Potential

/-- The steps of a sender at the receiver it is at, and at the end those of its own. -/
def SenderControl.stage : SenderControl → Nat
  | .start | .query | .connect _ | .connected | .failed | .receive _ => 0
  | .send _ | .lastReceive => 1
  | .sent _ | .returned => 2
  | .pollReceive _ => 3

/-- The receives of a receiver that are over, and its replies, two steps for each. -/
def ReceiverControl.stage (total : Nat) : ReceiverControl → Nat
  | .createSRQ | .requestNodeID | .startServer | .barrier | .receiveBatch => 0
  | .pollReceiveSRQ => 1
  | .reply i => 2 * i + 1
  | .replied i => 2 * i + 2
  | .returned => 2 * total + 1

/-- A sender is through with a receiver after four steps of its own and the arrival of the
reply. -/
def Sender.taken (x : Setup) (snd : Sender) : Nat :=
  5 * (snd.finished x).length + snd.control.stage +
    x.recvIds.toFinset.sum fun receiver => (snd.received receiver).length

/-- A report takes two steps, its arrival and its poll. -/
def Receiver.taken (rcv : Receiver) : Nat :=
  rcv.control.stage rcv.connectedSenderIds.length + rcv.reporters.length +
    rcv.connectedSenderIds.length

def State.taken (x : Setup) (s : State) : Nat :=
  (x.senderIds.toFinset.sum fun sender => (s.sender sender).taken x) +
    x.recvIds.toFinset.sum fun receiver => (s.receiver receiver).taken

/-- All steps of the handshake. -/
def Setup.handshakeSteps (x : Setup) : Nat :=
  9 * (x.senderIds.length * x.recvIds.length) + 2 * x.senderIds.length + x.recvIds.length

end Potential

section Steps

variable {x : Setup} {s t : State} {self : Nat}

/-- Each move of a sender in `initPhase` is counted once. -/
theorem SenderMoves.taken {snd : Sender} {out : Option (Nat × MessageBase)}
    (h : SenderMoves x s self snd out) (hWaiting : (s.sender self).Waiting x self) :
    snd.taken x = (s.sender self).taken x + 1 := by
  cases h with
  | starting hControl hNext =>
      rw [hWaiting.started] at hControl
      cases hControl
  | receive hControl hNext | send hControl hNext | sent hControl hNext hWire
  | lastReceive hControl =>
      simp only [Sender.taken, Sender.finished, hControl, SenderControl.finishes,
        SenderControl.stage]
      omega
  | through hControl hNext =>
      simp only [Sender.taken, Sender.finished, hControl, SenderControl.finishes,
        SenderControl.stage, take_of_getElem?_none hNext]
      omega
  | @pollReceive next receiver recvMsg rest hControl hNext hReceived =>
      -- the reply in hand is the one whose arrival was counted
      have hMem : receiver ∈ x.recvIds.toFinset := List.mem_toFinset.mpr (List.mem_of_getElem? hNext)
      have hSum := sum_update x.recvIds.toFinset (s.sender self).received List.length hMem rest
      rw [hReceived, List.length_cons] at hSum
      simp only [Sender.taken, Sender.finished, hControl, SenderControl.finishes,
        SenderControl.stage, take_succ_of_getElem? hNext, List.length_append,
        List.length_singleton]
      omega

theorem ReceiverMoves.taken {rcv : Receiver} {out : Option (Nat × MessageBase)}
    (h : ReceiverMoves x s self rcv out) (hServing : (s.receiver self).Serving x self) :
    rcv.taken = (s.receiver self).taken + 1 := by
  cases h with
  | constructing hControl hNext =>
      rw [hServing.constructed] at hControl
      cases hControl
  | receiveBatch hControl =>
      simp only [Receiver.taken, Receiver.reporters, hControl, ReceiverControl.stage,
        completed_receiveBatchSRQ]
      omega
  | collect hControl hPoll hMore =>
      obtain ⟨hCompleted, -⟩ := SharedReceiveQueue.poll_eq_some hPoll
      simp only [Receiver.taken, Receiver.reporters, hControl, ReceiverControl.stage, hCompleted,
        List.length_append, List.length_map, List.length_cons, List.length_nil]
      omega
  | last hControl hPoll hLast hPosted =>
      obtain ⟨hCompleted, -⟩ := SharedReceiveQueue.poll_eq_some hPoll
      simp only [Receiver.taken, Receiver.reporters, hControl, ReceiverControl.stage, hCompleted,
        hPosted, List.length_append, List.length_map, List.length_cons, List.length_nil]
      omega
  | reply hControl hId =>
      simp only [Receiver.taken, Receiver.reporters, hControl, ReceiverControl.stage]
      omega
  | @replied i id hControl hId hReplies =>
      have hBound := lt_of_getElem?_eq_some hId
      simp only [Receiver.taken, Receiver.reporters, hControl]
      split_ifs with hMore
      · simp only [ReceiverControl.stage]
        omega
      · simp only [ReceiverControl.stage]
        omega

/-- A step of one sender. -/
theorem State.taken_sender {snd : Sender} (hSelf : self ∈ x.senderIds)
    (hSender : t.sender = Function.update s.sender self snd) (hReceiver : t.receiver = s.receiver)
    (hTaken : snd.taken x = (s.sender self).taken x + 1) : t.taken x = s.taken x + 1 := by
  have hSum := sum_update x.senderIds.toFinset s.sender (Sender.taken x)
    (List.mem_toFinset.mpr hSelf) snd
  rw [State.taken, State.taken, hSender, hReceiver]
  omega

/-- A step of one receiver. -/
theorem State.taken_receiver {rcv : Receiver} (hSelf : self ∈ x.recvIds)
    (hSender : t.sender = s.sender) (hReceiver : t.receiver = Function.update s.receiver self rcv)
    (hTaken : rcv.taken = (s.receiver self).taken + 1) : t.taken x = s.taken x + 1 := by
  have hSum := sum_update x.recvIds.toFinset s.receiver Receiver.taken
    (List.mem_toFinset.mpr hSelf) rcv
  rw [State.taken, State.taken, hSender, hReceiver]
  omega

/-- What is on its way belongs to the experiment. -/
theorem Reported.mem_recvIds (h : Reported x s) {sender receiver : Nat}
    (hWire : s.wire (sender, receiver) ≠ []) : receiver ∈ x.recvIds := by
  have hLedger := h.ledger sender receiver
  have hLength := List.length_pos_iff.mpr hWire
  have hCount : 0 < ((s.sender sender).reported x).count receiver := by omega
  exact (List.take_sublist _ _).subset (List.count_pos_iff.mp hCount)

theorem Replied.mem_of_replies (h : Replied x s) {sender receiver : Nat}
    (hReplies : s.replies (receiver, sender) ≠ [])
    (hPosted : 0 < (s.sender sender).receives receiver) :
    sender ∈ x.senderIds ∧ receiver ∈ x.recvIds := by
  obtain ⟨i, -, hId⟩ := h.flight receiver sender hReplies
  have hLedger := (h.waiting sender).ledger receiver
  have hCount : 0 < ((s.sender sender).posted x).count receiver := by omega
  exact ⟨h.reported.mem_senderIds
      (Or.inr (List.mem_append_right _ (List.mem_of_getElem? hId))),
    (List.take_sublist _ _).subset (List.count_pos_iff.mp hCount)⟩

/-- Every step is one of those that the handshake takes. -/
theorem next_taken (h : Replied x s) {a : Operation} (hNext : next x s a = some t) :
    t.taken x = s.taken x + 1 := by
  cases a with
  | sender self =>
      obtain ⟨hSelf, snd, out, hMoves, hSender, hReceiver, -⟩ := next_sender hNext
      exact State.taken_sender hSelf hSender hReceiver (hMoves.taken (h.waiting self))
  | receiver self =>
      obtain ⟨hSelf, rcv, out, hMoves, hReceiver, hSender, -⟩ := next_receiver h.reported hNext
      exact State.taken_receiver hSelf hSender hReceiver (hMoves.taken (h.serving self))
  | arrive sender receiver memIdx =>
      obtain ⟨m, rest, srq, hOn, hArrive, hReceiver, hSender, -⟩ := next_arrive hNext
      have hSelf : receiver ∈ x.recvIds := by
        apply @Reported.mem_recvIds x s h.reported sender
        rw [hOn]
        exact List.cons_ne_nil m rest
      refine State.taken_receiver hSelf hSender hReceiver ?_
      obtain ⟨-, -, hCompleted⟩ := SharedReceiveQueue.arrive_eq_some hArrive
      simp only [Receiver.taken, Receiver.reporters, hCompleted, List.map_append,
        List.length_append, List.length_map, List.length_singleton]
      omega
  | answer receiver sender =>
      obtain ⟨m, rest, hOn, hPosted, hSender, hReceiver, -⟩ := next_answer hNext
      obtain ⟨hSelf, hFrom⟩ :=
        h.mem_of_replies (by rw [hOn]; exact List.cons_ne_nil m rest) hPosted
      refine State.taken_sender hSelf hSender hReceiver ?_
      have hSum := sum_update x.recvIds.toFinset (s.sender sender).received List.length
        (List.mem_toFinset.mpr hFrom) ((s.sender sender).received receiver ++ [m])
      rw [List.length_append, List.length_singleton] at hSum
      simp only [Sender.taken, Sender.finished] at hSum ⊢
      omega

end Steps

section Bounds

variable {x : Setup} {s : State}

/-- At the end every sender has taken its steps. -/
theorem Sender.Waiting.taken_returned {id : Nat} {snd : Sender} (h : snd.Waiting x id)
    (hControl : snd.control = .returned) : snd.taken x = 5 * x.recvIds.length + 2 := by
  have hNone : (x.recvIds.toFinset.sum fun receiver => (snd.received receiver).length) = 0 := by
    apply Finset.sum_eq_zero
    intro receiver _
    have hLedger := h.ledger receiver
    simp only [Sender.finished, Sender.posted, hControl, SenderControl.finishes,
      SenderControl.posts] at hLedger
    omega
  simp only [Sender.taken, Sender.finished, hControl, SenderControl.finishes,
    SenderControl.stage, List.take_length, hNone]

/-- The replies that a sender is through with or has in hand are some of those that it
posted a receive for. -/
theorem Sender.Waiting.received_le {id : Nat} {snd : Sender} (h : snd.Waiting x id) :
    (snd.finished x).length +
      (x.recvIds.toFinset.sum fun receiver => (snd.received receiver).length) ≤
        (snd.posted x).length := by
  have hCount : ∀ l : List Nat, l ⊆ x.recvIds →
      (x.recvIds.toFinset.sum fun receiver => l.count receiver) = l.length := by
    intro l hSubset
    have hMem : ∀ receiver ∈ (l : Multiset Nat), receiver ∈ x.recvIds.toFinset :=
      fun receiver hMem => List.mem_toFinset.mpr (hSubset hMem)
    simpa only [Multiset.coe_count, Multiset.coe_card] using Multiset.sum_count_eq_card hMem
  have hFinished : snd.finished x ⊆ x.recvIds := List.take_subset _ _
  have hPosted : snd.posted x ⊆ x.recvIds := List.take_subset _ _
  rw [← hCount _ hFinished, ← hCount _ hPosted, ← Finset.sum_add_distrib]
  apply Finset.sum_le_sum
  intro receiver _
  have hLedger := h.ledger receiver
  omega

/-- A sender has five moves for each receiver, and two at the end. -/
theorem Sender.Waiting.taken_le {id : Nat} {snd : Sender} (h : snd.Waiting x id) :
    snd.taken x ≤ 5 * x.recvIds.length + 2 := by
  have hReceived := h.received_le
  have hBound := h.bound
  simp only [Sender.taken, Sender.finished, Sender.posted, List.length_take] at hReceived ⊢
  cases hControl : snd.control with
  | start | query | connect next | connected | failed | receive next | lastReceive | returned =>
      simp only [hControl, SenderControl.finishes, SenderControl.posts,
        SenderControl.stage] at hReceived ⊢
      omega
  | send next | sent next | pollReceive next =>
      have hNext := hBound next (by simp [hControl])
      simp only [hControl, SenderControl.finishes, SenderControl.posts,
        SenderControl.stage] at hReceived ⊢
      omega

/-- At the end every receiver has taken its steps, and those of the messages to it. -/
theorem Replied.taken_returned (h : Replied x s) {receiver : Nat}
    (hControl : (s.receiver receiver).control = .returned) :
    (s.receiver receiver).taken = 4 * x.senderIds.length + 1 := by
  have hStarting : (s.receiver receiver).control.starting = false := by rw [hControl]; rfl
  have hPoll : (s.receiver receiver).control ≠ .pollReceiveSRQ := by rw [hControl]; simp
  obtain ⟨hCompleted, hPerm⟩ := h.reported.connected_perm hStarting hPoll
  simp only [Receiver.taken, Receiver.reporters, hControl, ReceiverControl.stage, hCompleted,
    List.length_append, List.length_map, List.length_nil, hPerm.length_eq]
  omega

/-- A receiver has four moves for each sender, arrivals included, and one at the
beginning. -/
theorem Replied.taken_receiver_le (h : Replied x s) (receiver : Nat) :
    (s.receiver receiver).taken ≤ 4 * x.senderIds.length + 1 := by
  have hSubset : (s.receiver receiver).reporters ⊆ x.senderIds :=
    fun sender hSender => h.reported.mem_senderIds (Or.inr hSender)
  have hLength := (List.subperm_of_subset (h.reported.nodup receiver) hSubset).length_le
  have hBound := (h.serving receiver).bound
  rw [Receiver.taken]
  rw [Receiver.reporters, List.length_append] at hLength ⊢
  cases hControl : (s.receiver receiver).control with
  | reply i | replied i =>
      have hNext := hBound i (by simp [hControl])
      simp only [ReceiverControl.stage]
      omega
  | _ =>
      simp only [ReceiverControl.stage]
      omega

theorem Setup.sum_senders (x : Setup) (n : Nat) :
    (x.senderIds.toFinset.sum fun _ => n) = x.senderIds.length * n := by
  rw [Finset.sum_const, List.toFinset_card_of_nodup x.senderIds_nodup, smul_eq_mul]

theorem Setup.sum_receivers (x : Setup) (n : Nat) :
    (x.recvIds.toFinset.sum fun _ => n) = x.recvIds.length * n := by
  rw [Finset.sum_const, List.toFinset_card_of_nodup x.recvIds_nodup, smul_eq_mul]

theorem Setup.handshakeSteps_eq (x : Setup) : x.handshakeSteps =
    (x.senderIds.toFinset.sum fun _ => 5 * x.recvIds.length + 2) +
      x.recvIds.toFinset.sum fun _ => 4 * x.senderIds.length + 1 := by
  rw [sum_senders, sum_receivers, handshakeSteps]
  ring

/-- Nobody can take more moves than the handshake has. -/
theorem Replied.taken_le (h : Replied x s) : s.taken x ≤ x.handshakeSteps := by
  rw [Setup.handshakeSteps_eq]
  exact Nat.add_le_add (Finset.sum_le_sum fun sender _ => (h.waiting sender).taken_le)
    (Finset.sum_le_sum fun receiver _ => h.taken_receiver_le receiver)

/-- When all have returned, all moves have been taken. -/
theorem Replied.taken_eq (h : Replied x s) (hReturned : AllReturned x s) :
    s.taken x = x.handshakeSteps := by
  rw [Setup.handshakeSteps_eq, State.taken]
  congr 1
  · apply Finset.sum_congr rfl
    intro sender hSender
    exact (h.waiting sender).taken_returned (hReturned.1 sender (List.mem_toFinset.mp hSender))
  · apply Finset.sum_congr rfl
    intro receiver hReceiver
    exact h.taken_returned (hReturned.2 receiver (List.mem_toFinset.mp hReceiver))

end Bounds

section Runs

variable {x : Setup} {s : State}

/-- Short of the end some step is enabled. -/
theorem Replied.enabled (h : Replied x s) (hSome : x.senderIds ≠ []) (hOn : ¬AllReturned x s) :
    Enabled x s := by
  by_contra hStuck
  exact hOn ⟨senders_returned h hStuck, receivers_returned h hStuck hSome⟩

theorem taken_init (x : Setup) : (initMachine x).init.taken x = 0 := by
  rw [State.taken]
  simp [initMachine, Sender.taken, Sender.finished, SenderControl.finishes, SenderControl.stage,
    Receiver.taken, Receiver.reporters, ReceiverControl.stage]

/-- Each step of a run is one of the moves, so it is counted once. -/
theorem reachable_taken {t : State} {a : Operation} (h : (initMachine x).Reachable s)
    (hNext : (initMachine x).next s a = some t) : t.taken x = s.taken x + 1 :=
  next_taken (reachable_replied h) hNext

/-- As long as someone has not returned some move can be taken, and their number is
bounded. -/
theorem leads_to_returned (hSome : x.senderIds ≠ []) (h : (initMachine x).Reachable s) :
    ∃ t, (initMachine x).Leads s t ∧ AllReturned x t :=
  Machine.leads_to_goal_of_bounded (fun _ _ _ => reachable_taken)
    (fun _ h => (reachable_replied h).taken_le)
    (fun _ h hOn => (reachable_replied h).enabled hSome hOn) h

end Runs

/-- With at least one sender every run of the handshake takes the same number of steps, in
whatever order they come: it cannot take more, it can be continued until it has taken
them, and when it has taken them everyone has returned. -/
theorem handshake_ends {x : Setup} (hSome : x.senderIds ≠ [])
    {visits : List (State × Operation)} {s : State} (run : (initMachine x).RunsTo visits s) :
    visits.length ≤ x.handshakeSteps ∧
    (visits.length = x.handshakeSteps ↔ AllReturned x s) ∧
    ∃ t, (initMachine x).Leads s t ∧ AllReturned x t := by
  have hReplied := reachable_replied ⟨visits, run⟩
  have hLength := run.length_eq_potential (taken_init x) fun _ _ _ => reachable_taken
  refine ⟨hLength.trans_le hReplied.taken_le, ⟨fun hAll => ?_, fun hReturned => ?_⟩,
    leads_to_returned hSome ⟨visits, run⟩⟩
  · -- another step would be one too many
    by_contra hOn
    obtain ⟨a, hEnabled⟩ := hReplied.enabled hSome hOn
    obtain ⟨t, hNext⟩ := Option.isSome_iff_exists.mp hEnabled
    have hLe := (next_replied hReplied hNext).taken_le
    have hMore := next_taken hReplied hNext
    omega
  · exact hLength.trans (hReplied.taken_eq hReturned)

/-- Two senders and a receiver take 23 steps. -/
theorem handshake_ends_trio :
    ∃ s, (initMachine trio).RunsTo ((initMachine trio).record (initMachine trio).init
        trioActions) s ∧ trioActions.length = trio.handshakeSteps ∧ AllReturned trio s := by
  have hSome : ((initMachine trio).replay (initMachine trio).init trioActions).isSome = true := rfl
  obtain ⟨s, hReplay⟩ := Option.isSome_iff_exists.mp hSome
  have run := Machine.runsTo_of_replay trioActions hReplay
  exact ⟨s, run, rfl, (handshake_ends (x := trio) (by decide) run).2.1.mp rfl⟩

end InitPhase
