import Mathlib.Algebra.Order.BigOperators.Group.List
import Mathlib.Algebra.Order.Group.Nat
import Mathlib.Data.List.MinMax
import Mathlib.Data.List.Nodup
import RDMAPatterns.Benchmark.Counting

/-! The receives that a receiver with a shared receive queue has posted. A
response is sent before the receive of its request is posted again, so a sender
may use up two receives, one of them with its next message. -/
namespace Benchmark

open BenchmarkReceiver BenchmarkSender Channels NodeIDSequencer Transition

/-- Whenever a message is about to arrive, the receiver has a posted receive. -/
def ArrivalFindsReceive (x : Experiment) (receiver : Nat) : Prop :=
  ∀ s, (benchmarkMachine x).Reachable s → ∀ sender, s.wire (sender, receiver) ≠ [] →
    (s.receiver receiver).srq.posted ≠ []

/-- Some receiver got its node id before some sender did. -/
def ReceiverBeforeSender (x : Experiment) : Prop :=
  ∃ receiver ∈ x.recvIds, ∃ sender ∈ x.senderIds, receiver < sender

/-- The senders of the messages that occupy a receive and have no response. -/
def waitingSenders (rcv : Receiver) : List Nat :=
  (match rcv.control with
    | .handle conn _ | .finalizeBuf conn _ | .transfer conn _ => [conn]
    | _ => []) ++ rcv.srq.completed.map Prod.fst

theorem count_waitingSenders (rcv : Receiver) (conn : Nat) :
    (waitingSenders rcv).count conn = (rcv.unanswered .srq conn).length := by
  have hLanded : (rcv.srq.completed.map Prod.fst).count conn = (rcv.landed .srq conn).length := by
    rw [Receiver.landed, List.length_map, List.count_eq_countP, List.countP_map,
      List.countP_eq_length_filter]
    rfl
  rw [waitingSenders, Receiver.unanswered, List.count_append, List.length_append, hLanded]
  congr 1
  cases hControl : rcv.control with
  | handle source _ | finalizeBuf source _ | transfer source _ =>
      by_cases hSource : source = conn
      · simp [Receiver.inHand, hControl, hSource]
      · simp [Receiver.inHand, hControl, hSource]
  | _ => simp [Receiver.inHand, hControl]

section Bound

variable {x : Experiment} {s : System}

theorem Orderly.sends (h : Orderly x s) {sender receiver : Nat}
    (hBacklog : s.backlog x sender receiver ≠ []) : sender ∈ x.senderIds := by
  by_contra hOutside
  have hLedger := h.ledger sender receiver
  rw [h.outsider sender hOutside] at hLedger
  exact hBacklog (List.append_eq_nil_iff.mp hLedger).2

theorem waiting_backlog (hSrq : x.verbs.receiverP = .srq)
    {sender receiver : Nat} (hWaiting : sender ∈ waitingSenders (s.receiver receiver)) :
    s.backlog x sender receiver ≠ [] := by
  intro hNil
  have hCount := count_waitingSenders (s.receiver receiver) sender
  rw [System.backlog, List.append_eq_nil_iff, hSrq] at hNil
  rw [hNil.1, List.length_nil] at hCount
  exact List.count_eq_zero.mp hCount hWaiting

/-- While a message of a sender is on the wire, every other sender occupies at
most one receive for good. -/
theorem Orderly.occupied_lt (h : Orderly x s) (hSrq : x.verbs.receiverP = .srq)
    {sender receiver : Nat} (hWire : s.wire (sender, receiver) ≠ []) :
    (waitingSenders (s.receiver receiver)).length +
      (s.receiver receiver).clientsFinished + 1 ≤ x.expectedClients := by
  obtain ⟨m, rest, hCons⟩ := List.exists_cons_of_ne_nil hWire
  obtain ⟨hFree, _, hOpen⟩ := h.arrival_alone hCons
  have hOwn : s.backlog x sender receiver ≠ [] := by
    intro hNil
    rw [System.backlog, List.append_eq_nil_iff] at hNil
    exact hWire hNil.2
  have hWaiting : (waitingSenders (s.receiver receiver)).Nodup := by
    rw [List.nodup_iff_count_le_one]
    intro other
    have hLength := h.backlog_length other receiver
    rw [System.backlog, List.length_append, hSrq] at hLength
    rw [count_waitingSenders]
    omega
  have hApart : List.Disjoint (waitingSenders (s.receiver receiver))
      (finishedSenders (s.receiver receiver).log) := by
    intro other hOther hFinished
    obtain ⟨last, hLogged, hType⟩ := mem_finishedSenders.mp hFinished
    exact waiting_backlog hSrq hOther (h.backlog_finished hLogged hType)
  have hNotWaiting : sender ∉ waitingSenders (s.receiver receiver) := by
    rw [← List.count_eq_zero, count_waitingSenders, ← hSrq, hFree, List.length_nil]
  have hNotFinished : sender ∉ finishedSenders (s.receiver receiver).log := by
    intro hFinished
    obtain ⟨last, hLogged, hType⟩ := mem_finishedSenders.mp hFinished
    exact hOpen last hLogged hType
  have hAll : (sender :: (waitingSenders (s.receiver receiver) ++
      finishedSenders (s.receiver receiver).log)).Nodup := by
    rw [List.nodup_cons, List.mem_append, not_or]
    exact ⟨⟨hNotWaiting, hNotFinished⟩, hWaiting.append (h.finishedSenders_nodup receiver) hApart⟩
  have hSenders : sender :: (waitingSenders (s.receiver receiver) ++
      finishedSenders (s.receiver receiver).log) ⊆ x.senderIds := by
    intro other hOther
    rcases List.mem_cons.mp hOther with rfl | hOther
    · exact h.sends hOwn
    · rcases List.mem_append.mp hOther with hOther | hFinished
      · exact h.sends (waiting_backlog hSrq hOther)
      · exact h.finishedSenders_subset receiver hFinished
  have hLength := (List.subperm_of_subset hAll hSenders).length_le
  rw [List.length_cons, List.length_append, finishedSenders, List.length_map,
    (h.counted receiver).finished] at hLength
  exact hLength

/-- Receives in use and not answered, and the one that is about to be posted
again. -/
theorem taken_length (rcv : Receiver) (hTidy : TidySRQ rcv) :
    rcv.taken.length + rcv.srq.completed.length =
      (waitingSenders rcv).length + rcv.control.uncounted := by
  have hControl := hTidy.control
  rw [waitingSenders, List.length_append, List.length_map]
  cases hAt : rcv.control with
  | finalizeBuf conn memIdx => simp [hAt] at hControl
  | _ =>
      simp only [Receiver.taken, hAt, Control.uncounted, List.length_cons, List.length_nil]
      omega

/-- A receive that is about to be posted again belongs to a request. -/
theorem Orderly.addressed_pos (h : Orderly x s) {receiver : Nat}
    (hUncounted : 0 < (s.receiver receiver).control.uncounted) : 0 < addressed x receiver := by
  have hHandled := (h.counted receiver).handled
  obtain ⟨entry, hEntry⟩ := List.exists_mem_of_length_pos (by omega :
    0 < ((s.receiver receiver).log.filter fun entry => entry.2.type = .expMsg).length)
  obtain ⟨hLogged, hType⟩ := List.mem_filter.mp hEntry
  have hSent := (h.log_prefix entry.1 receiver).subset (mem_logOf.mpr hLogged)
  obtain ⟨i, hLess, hPicked⟩ :=
    request_of_sentTo (h.within entry.1) hSent (of_decide_eq_true hType)
  have hPos : 0 < ((List.range (x.requests entry.1)).filter
      fun i => x.pickedReceiverID entry.1 i = some receiver).length := by
    apply List.length_pos_of_mem (a := i)
    exact List.mem_filter.mpr ⟨List.mem_range.mpr hLess, decide_eq_true hPicked⟩
  exact Nat.lt_of_lt_of_le hPos
    (List.single_le_sum (fun _ _ => Nat.zero_le _) _ (List.mem_map_of_mem (h.log_sender hLogged)))

end Bound

section Lengths

variable (x : Experiment)

theorem sender_lt_length {sender : Nat} (receiver : Nat) (hSender : sender ∈ x.senderIds) :
    sender < (x.connectedSenderIds receiver).foldr max 0 + 1 :=
  Nat.lt_succ_of_le
    (List.le_max_of_le' 0 ((x.allConnected receiver).mem_iff.mpr hSender) (Nat.le_refl sender))

/-- There is a receive for every sender, as their ids are different. -/
theorem expectedClients_le (receiver : Nat) :
    x.expectedClients ≤ (x.connectedSenderIds receiver).foldr max 0 + 1 := by
  have hSubset : x.senderIds ⊆ List.range ((x.connectedSenderIds receiver).foldr max 0 + 1) :=
    fun sender hSender => List.mem_range.mpr (sender_lt_length x receiver hSender)
  have hLength := (List.subperm_of_subset (idsWhere_nodup _ _) hSubset).length_le
  rwa [List.length_range] at hLength

/-- An id below a sender id that is not a sender's makes room for one more. -/
theorem expectedClients_lt (hBefore : ReceiverBeforeSender x) (receiver : Nat) :
    x.expectedClients + 1 ≤ (x.connectedSenderIds receiver).foldr max 0 + 1 := by
  obtain ⟨early, hEarly, late, hLate, hLess⟩ := hBefore
  have hApart : early ∉ x.senderIds := idsWhere_disjoint x.registrations isReceiver hEarly
  have hSubset : early :: x.senderIds ⊆
      List.range ((x.connectedSenderIds receiver).foldr max 0 + 1) := by
    intro id hId
    rcases List.mem_cons.mp hId with rfl | hSender
    · exact List.mem_range.mpr (Nat.lt_trans hLess (sender_lt_length x receiver hLate))
    · exact List.mem_range.mpr (sender_lt_length x receiver hSender)
  have hNodup : (early :: x.senderIds).Nodup :=
    List.nodup_cons.mpr ⟨hApart, idsWhere_nodup _ _⟩
  have hLength := (List.subperm_of_subset hNodup hSubset).length_le
  rwa [List.length_range, List.length_cons] at hLength

end Lengths

/-- If some receiver registered before some sender, or no request goes to the
receiver, then every message that arrives finds a posted receive. -/
theorem finds_receive {x : Experiment} (hSrq : x.verbs.receiverP = .srq) {receiver : Nat}
    (hRoom : ReceiverBeforeSender x ∨ addressed x receiver = 0) :
    ArrivalFindsReceive x receiver := by
  intro s hReachable sender hWire
  have h := reachable_orderly hReachable
  have hTidy := h.tidy receiver
  rw [hSrq] at hTidy
  have hOccupied := h.occupied_lt hSrq hWire
  have hTaken := taken_length _ hTidy
  have hReceives := hTidy.receives
  rw [Verbs.SharedReceiveQueue.held, List.length_append, List.length_map, h.length receiver]
    at hReceives
  intro hNone
  rw [hNone, List.length_nil] at hReceives
  have hAll := expectedClients_le x receiver
  have hOne : (s.receiver receiver).control.uncounted ≤ 1 := by
    cases (s.receiver receiver).control with
    | finalizeSRQ conn memIdx => exact Nat.le_refl 1
    | _ => exact Nat.zero_le 1
  rcases hRoom with hBefore | hUnaddressed
  · have hMore := expectedClients_lt x hBefore receiver
    omega
  · have hCounted : (s.receiver receiver).control.uncounted = 0 := by
      by_contra hUncounted
      have hPos := h.addressed_pos (Nat.pos_of_ne_zero hUncounted)
      omega
    omega

end Benchmark
