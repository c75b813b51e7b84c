import Mathlib.Data.List.Nodup
import RDMAPatterns.Benchmark.ClosedLoop

/-! What a receiver returns: every request that was sent to it, counted once. -/
namespace Benchmark

open BenchmarkReceiver BenchmarkSender Channels NodeIDSequencer Transition

/-- The number of requests that the senders address to a receiver. -/
def addressed (x : Experiment) (receiver : Nat) : Nat :=
  (x.senderIds.map fun sender => ((List.range (x.requests sender)).filter
    fun i => x.pickedReceiverID sender i = some receiver).length).sum

/-- The slot an arriving message is placed in. -/
def landingSlot (x : Experiment) (sender receiver memIdx : Nat) : Nat :=
  match x.verbs.senderT with
  | .write => x.slotOf receiver (x.msgOffset sender receiver)
  | .send => memIdx

section Log

variable {x : Experiment} {s : System}

/-- Messages are logged in the order in which they were sent, without a gap. -/
theorem Orderly.log_prefix (h : Orderly x s) (sender receiver : Nat) :
    logOf (s.receiver receiver).log sender <+:
      sentTo x sender receiver (s.sender sender).control :=
  ⟨s.backlog x sender receiver, h.ledger sender receiver⟩

theorem Orderly.log_nodup (h : Orderly x s) (receiver : Nat) :
    (s.receiver receiver).log.Nodup := by
  apply nodup_of_logOf
  intro sender
  exact (sentTo_nodup _).sublist (h.log_prefix sender receiver).sublist

/-- Only senders are logged. -/
theorem Orderly.log_sender (h : Orderly x s) {receiver : Nat} {entry : Nat × MessageBase}
    (hEntry : entry ∈ (s.receiver receiver).log) : entry.1 ∈ x.senderIds := by
  by_contra hOutside
  have hSent := (h.log_prefix entry.1 receiver).subset (mem_logOf.mpr hEntry)
  rw [h.outsider entry.1 hOutside] at hSent
  cases hSent

/-- A sender has one last message for each receiver. -/
theorem Orderly.finished_eq (h : Orderly x s) {sender receiver : Nat} {m : MessageBase}
    (hLogged : (sender, m) ∈ (s.receiver receiver).log) (hType : m.type = .finishedExp) :
    m = Experiment.finishedExperimentMsg := by
  have hSent := (h.log_prefix sender receiver).subset (mem_logOf.mpr hLogged)
  have hAll := hSent
  rw [sentTo_finished hSent hType, List.mem_append] at hAll
  rcases hAll with hRequest | hLast
  · rw [(mem_requestsTo hRequest).1] at hType
    cases hType
  · exact List.mem_singleton.mp hLast

/-- Once the last message of a sender is logged, everything it sent is. -/
theorem Orderly.log_complete (h : Orderly x s) {sender receiver : Nat}
    (hLogged : (sender, Experiment.finishedExperimentMsg) ∈ (s.receiver receiver).log) :
    logOf (s.receiver receiver).log sender =
      requestsTo x sender receiver (x.requests sender) ++ [Experiment.finishedExperimentMsg] := by
  have hLedger := h.ledger sender receiver
  have hSent := (h.log_prefix sender receiver).subset (mem_logOf.mpr hLogged)
  rwa [h.backlog_finished hLogged rfl, List.append_nil, sentTo_finished hSent rfl] at hLedger

/-- The senders whose last message is in the log. -/
def finishedSenders (log : List (Nat × MessageBase)) : List Nat :=
  (log.filter fun entry => entry.2.type = .finishedExp).map Prod.fst

/-- A sender is finished when its last message was logged. -/
theorem mem_finishedSenders {log : List (Nat × MessageBase)} {sender : Nat} :
    sender ∈ finishedSenders log ↔ ∃ m, (sender, m) ∈ log ∧ m.type = .finishedExp := by
  simp [finishedSenders]

theorem Orderly.finishedSenders_nodup (h : Orderly x s) (receiver : Nat) :
    (finishedSenders (s.receiver receiver).log).Nodup := by
  apply List.Nodup.map_on
  · intro entry hEntry other hOther hSame
    obtain ⟨hLogged, hType⟩ := List.mem_filter.mp hEntry
    obtain ⟨hLogged', hType'⟩ := List.mem_filter.mp hOther
    apply Prod.ext hSame
    rw [h.finished_eq hLogged (of_decide_eq_true hType),
      h.finished_eq hLogged' (of_decide_eq_true hType')]
  · exact (h.log_nodup receiver).filter _

theorem Orderly.finishedSenders_subset (h : Orderly x s) (receiver : Nat) :
    finishedSenders (s.receiver receiver).log ⊆ x.senderIds := by
  intro sender hFinished
  obtain ⟨m, hLogged, _⟩ := mem_finishedSenders.mp hFinished
  exact h.log_sender hLogged

/-- As many last messages as there are senders are the last messages of all. -/
theorem Orderly.all_finished (h : Orderly x s) {receiver : Nat}
    (hAll : (s.receiver receiver).clientsFinished = x.expectedClients) {sender : Nat}
    (hSender : sender ∈ x.senderIds) :
    (sender, Experiment.finishedExperimentMsg) ∈ (s.receiver receiver).log := by
  have hCount := (h.counted receiver).finished
  have hPerm : (finishedSenders (s.receiver receiver).log).Perm x.senderIds := by
    apply (List.subperm_of_subset (h.finishedSenders_nodup receiver)
      (h.finishedSenders_subset receiver)).perm_of_length_le
    rw [finishedSenders, List.length_map, hCount, hAll]
    exact Nat.le_refl _
  obtain ⟨m, hLogged, hType⟩ := mem_finishedSenders.mp (hPerm.mem_iff.mpr hSender)
  rwa [h.finished_eq hLogged hType] at hLogged

theorem requestsTo_filter (sender receiver n : Nat) :
    (requestsTo x sender receiver n).filter (fun m => m.type = .expMsg) =
      requestsTo x sender receiver n := by
  apply List.filter_eq_self.mpr
  intro m hMem
  exact decide_eq_true (mem_requestsTo hMem).1

/-- After all last messages, the log holds the addressed requests. -/
theorem Orderly.requests_logged (h : Orderly x s) {receiver : Nat}
    (hAll : (s.receiver receiver).clientsFinished = x.expectedClients) :
    ((s.receiver receiver).log.filter fun entry => entry.2.type = .expMsg).length =
      addressed x receiver := by
  rw [length_eq_sum (idsWhere_nodup x.registrations _)
    ((s.receiver receiver).log.filter fun entry => decide (entry.2.type = .expMsg))
    fun entry hEntry => h.log_sender (List.mem_of_mem_filter hEntry), addressed]
  congr 1
  apply List.map_congr_left
  intro sender hSender
  have hRequests := logOf_filter (s.receiver receiver).log
    (fun m : MessageBase => decide (m.type = .expMsg)) sender
  rw [h.log_complete (h.all_finished hAll hSender), List.filter_append, requestsTo_filter]
    at hRequests
  rw [hRequests, List.length_append, requestsTo, List.length_map]
  rfl

end Log

section Slots

variable {x : Experiment} {s t : System}

/-- An arriving message overwrites no message that is not dealt with. -/
theorem Orderly.arrival_unoccupied (h : Orderly x s) {sender receiver memIdx : Nat}
    (hNext : s.arrival x sender receiver memIdx = some t) :
    ¬ (s.receiver receiver).Occupied x.verbs.receiverP (landingSlot x sender receiver memIdx) := by
  obtain ⟨m, rest, rcv, hWire, hArrive, _⟩ := arrival_eq_some hNext
  obtain ⟨hFree, _, hOpen⟩ := h.arrival_alone hWire
  have hTidy := h.tidy receiver
  rw [arrive] at hArrive
  rw [landingSlot]
  rcases x.verbs.senderT_eq with ⟨hT, hP⟩ | ⟨hT, hP⟩
  · rw [hP] at hTidy hFree ⊢
    simp only [hT, x.slotOf_msgOffset]
    exact not_occupied_buf hFree (slot_ne hTidy hFree hOpen)
  · rw [hP] at hTidy ⊢
    simp only [hT] at hArrive ⊢
    obtain ⟨q, hTaken, _⟩ := Option.map_eq_some_iff.mp hArrive
    obtain ⟨hPosted, _⟩ := Verbs.SharedReceiveQueue.arrive_eq_some hTaken
    exact not_occupied_srq hTidy hPosted

end Slots

/-- `benchmarkPhase` returns after the last messages of all senders, with the
number of requests addressed to it. No message is placed in a slot whose content
is still needed, and no message is handled twice: what is logged of a sender is
the beginning of what it sent. -/
theorem receiver_counts_once {x : Experiment} {s : System}
    (hReachable : (benchmarkMachine x).Reachable s) :
    (∀ receiver memIdx requests,
      (s.receiver receiver).control = .returned memIdx requests →
        (∀ sender ∈ x.senderIds,
          (sender, Experiment.finishedExperimentMsg) ∈ (s.receiver receiver).log) ∧
        requests = addressed x receiver) ∧
    (∀ sender receiver memIdx t,
      (benchmarkMachine x).next s (.arrive sender receiver memIdx) = some t →
        ¬ (s.receiver receiver).Occupied x.verbs.receiverP
          (landingSlot x sender receiver memIdx)) ∧
    ∀ receiver, (s.receiver receiver).log.Nodup ∧ ∀ sender,
      logOf (s.receiver receiver).log sender <+:
        sentTo x sender receiver (s.sender sender).control := by
  have h := reachable_orderly hReachable
  refine ⟨?_, ?_, ?_⟩
  · intro receiver memIdx requests hReturned
    have hCounted := h.counted receiver
    obtain ⟨rfl, hAll⟩ := hCounted.returned memIdx requests hReturned
    constructor
    · exact fun sender hSender => h.all_finished hAll hSender
    · have hHandled := hCounted.handled
      rw [h.requests_logged hAll, hReturned] at hHandled
      exact hHandled.symm
  · intro sender receiver memIdx t hNext
    exact h.arrival_unoccupied hNext
  · intro receiver
    exact ⟨h.log_nodup receiver, fun sender => h.log_prefix sender receiver⟩

/-- A receiver with node id 0 and a sender with node id 1, which sends one
request. -/
def oneRequest : Experiment where
  verbs := .writeWrite
  registrations := [⟨"10.0.0.1:5400", "receiver", .server⟩, ⟨"10.0.0.2", "RDMAClient", .client⟩]
  requests _ := 1
  rand _ _ := 7
  sizeofResponse := 64
  respBufferSize := 4
  reqBufferOffset _ := 0
  respRDMAOffset _ := 0
  connectedSenderIds _ := [1]
  allConnected _ := List.Perm.refl [1]

def oneRequestRun : List Operation :=
  [.sender 1, .arrive 1 0 0, .receiver 0, .receiver 0, .receiver 0, .receiver 0, .receiver 0,
    .answer 0 1, .sender 1, .sender 1, .sender 1, .arrive 1 0 0, .receiver 0, .receiver 0,
    .receiver 0]

/-- Two senders of one request each, which are received through a shared receive queue. -/
def twoRequests : Experiment where
  verbs := .sendWrite
  registrations := [⟨"10.0.0.1:5400", "receiver", .server⟩, ⟨"10.0.0.2", "RDMAClient", .client⟩,
    ⟨"10.0.0.3", "RDMAClient", .client⟩]
  requests _ := 1
  rand self _ := self
  sizeofResponse := 64
  respBufferSize := 4
  reqBufferOffset _ := 0
  respRDMAOffset sender := 100 * sender
  connectedSenderIds _ := [1, 2]
  allConnected _ := List.Perm.refl [1, 2]

/-- The request of sender 1 waits for the receiver in slot 2 when that of sender 2 comes. -/
def requestsSent : List Operation := [.sender 1, .sender 2, .arrive 1 0 2]

def requestsServed : List Operation :=
  requestsSent ++ [.arrive 2 0 0, .receiver 0, .receiver 0, .receiver 0, .receiver 0,
    .receiver 0, .receiver 0, .receiver 0, .receiver 0, .answer 0 2, .answer 0 1, .sender 1,
    .sender 1, .sender 1, .sender 2, .sender 2, .sender 2, .arrive 2 0 0, .arrive 1 0 1,
    .receiver 0, .receiver 0, .receiver 0, .receiver 0]

/-- One request through a buffer, and two requests through a shared receive queue, in
which the second comes while the first waits. -/
theorem receiver_counts_once_one :
    (∃ s, (benchmarkMachine oneRequest).Reachable s ∧
      (s.receiver 0).control = .returned 1 1 ∧ addressed oneRequest 0 = 1 ∧
      (1, Experiment.finishedExperimentMsg) ∈ (s.receiver 0).log) ∧
    (∃ s t, (benchmarkMachine twoRequests).Reachable s ∧
      (benchmarkMachine twoRequests).next s (.arrive 2 0 0) = some t ∧
      (s.receiver 0).Occupied .srq 2 ∧ ¬ (s.receiver 0).Occupied .srq 0) ∧
    ∃ s, (benchmarkMachine twoRequests).Reachable s ∧
      (s.receiver 0).control = .returned 1 2 ∧ addressed twoRequests 0 = 2 ∧
      (1, Experiment.finishedExperimentMsg) ∈ (s.receiver 0).log ∧
      (2, Experiment.finishedExperimentMsg) ∈ (s.receiver 0).log ∧
      (s.receiver 0).log.Nodup ∧ (s.receiver 0).log.length = 4 := by
  refine ⟨?_, ?_, ?_⟩
  · have hReplay : ∃ s, (benchmarkMachine oneRequest).replay (System.init oneRequest)
        oneRequestRun = some s ∧ (s.receiver 0).control = .returned 1 1 := ⟨_, rfl, rfl⟩
    obtain ⟨s, hReplay, hReturned⟩ := hReplay
    have hReachable : (benchmarkMachine oneRequest).Reachable s :=
      Machine.reachable_of_replay oneRequestRun hReplay
    obtain ⟨hFinished, hCounted⟩ := (receiver_counts_once hReachable).1 0 1 1 hReturned
    exact ⟨s, hReachable, hReturned, hCounted.symm, hFinished 1 (by decide)⟩
  · have hReplay : ∃ s t, (benchmarkMachine twoRequests).replay (System.init twoRequests)
        requestsSent = some s ∧ (benchmarkMachine twoRequests).next s (.arrive 2 0 0) = some t ∧
        (s.receiver 0).srq.completed = [(1, 2)] := ⟨_, _, rfl, rfl, rfl⟩
    obtain ⟨s, t, hReplay, hArrives, hWaits⟩ := hReplay
    have hReachable : (benchmarkMachine twoRequests).Reachable s :=
      Machine.reachable_of_replay requestsSent hReplay
    have hFree := (receiver_counts_once hReachable).2.1 2 0 0 t hArrives
    exact ⟨s, t, hReachable, hArrives, .inr (by simp [hWaits]), hFree⟩
  · have hReplay : ∃ s, (benchmarkMachine twoRequests).replay (System.init twoRequests)
        requestsServed = some s ∧ (s.receiver 0).control = .returned 1 2 ∧
        (s.receiver 0).log.length = 4 := ⟨_, rfl, rfl, rfl⟩
    obtain ⟨s, hReplay, hReturned, hLength⟩ := hReplay
    have hReachable : (benchmarkMachine twoRequests).Reachable s :=
      Machine.reachable_of_replay requestsServed hReplay
    obtain ⟨hFinished, hCounted⟩ := (receiver_counts_once hReachable).1 0 1 2 hReturned
    have hOnce := ((receiver_counts_once hReachable).2.2 0).1
    exact ⟨s, hReachable, hReturned, hCounted.symm, hFinished 1 (by decide),
      hFinished 2 (by decide), hOnce, hLength⟩

end Benchmark
