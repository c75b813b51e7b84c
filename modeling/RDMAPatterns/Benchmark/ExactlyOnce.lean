import RDMAPatterns.Benchmark.DispatcherHandshake

/-! Every request of a worker is transferred once and acknowledged once. -/
namespace BenchmarkDispatcher

open Benchmark Channels Transition Verbs

/-- The requests of worker `w` have been transferred in their order, each once.
Responses and acknowledgements follow in that order. -/
structure ExactlyOnce (x : Setup) (s : State) (w : Nat) : Prop where
  inOrder : ∃ transferred arrived,
    s.transfers w = x.issued w transferred ∧ s.arrivals w = x.issued w arrived ∧
    (s.worker w).completed ≤ s.acknowledgements w ∧ s.acknowledgements w ≤ arrived ∧
    arrived ≤ transferred ∧ transferred ≤ (s.worker w).issued
  within : (s.worker w).issued ≤ x.requests w
  atEnd : s.worker w = .fill (x.requests w) 0 →
    s.transfers w = x.issued w (x.requests w) ∧ s.arrivals w = x.issued w (x.requests w) ∧
    s.acknowledgements w = x.requests w

section Workers

variable {x : Setup} {s : State}

/-- What was transferred, answered and acknowledged of a worker are beginnings of what
it has issued, each one not longer than the one before. -/
theorem Phase.inOrder {w : Nat} {v : View} (h : Phase x w v) :
    ∃ transferred arrived,
      v.transfers = x.issued w transferred ∧ v.arrivals = x.issued w arrived ∧
      v.worker.completed ≤ v.acknowledgements ∧ v.acknowledgements ≤ arrived ∧
      arrived ≤ transferred ∧ transferred ≤ v.worker.issued := by
  cases h with
  | filling i | issued i => exact ⟨i, i, rfl, rfl, by simp [Worker.completed, Worker.issued]⟩
  | transferred i =>
      exact ⟨i + 1, i, rfl, rfl, by simp [Worker.completed, Worker.issued]⟩
  | arrived i | clearing i | signaling i | acknowledged i =>
      exact ⟨i + 1, i + 1, rfl, rfl, by simp [Worker.completed, Worker.issued]⟩

/-- Every request of a worker goes through each of the stages once. -/
theorem Consistent.exactlyOnce (h : Consistent x s) {w : Nat} (hW : w < x.localSender) :
    ExactlyOnce x s w where
  inOrder := (h.phases w hW).inOrder
  within := h.within w
  atEnd hEnd := by
    obtain ⟨transferred, arrived, hTransfers, hArrivals, hDone, hAcks, hOrder, hIssued⟩ :=
      (h.phases w hW).inOrder
    simp only [State.view, hEnd, Worker.completed, Worker.issued] at *
    obtain rfl : transferred = x.requests w := by omega
    obtain rfl : arrived = x.requests w := by omega
    exact ⟨hTransfers, hArrivals, by omega⟩

end Workers

section Receives

variable {x : Setup} {s : State}

/-- The workers whose request or response is under way, also the one that was
just acknowledged and whose receive is not posted again yet. -/
def underWay (x : Setup) (s : State) : List Nat :=
  s.control.current.map (ownerOf x s.owner) ++ s.control.batch.map (ownerOf x s.owner) ++
    s.srq.completed.map (fun entry => s.owner entry.2) ++ s.outstanding.map Prod.fst

/-- What is under way for a worker: with the dispatcher, outstanding, or landed. -/
theorem count_underWay (hPoll : x.poll = .srq) (w : Nat) :
    (underWay x s).count w = (s.control.current.map (ownerOf x s.owner)).count w +
      ((logOf s.outstanding w).length + landed x s w) := by
  simp only [underWay, landed, hPoll, List.count_append, count_parties]
  omega

theorem Consistent.underWay_lt (h : Consistent x s) (hPoll : x.poll = .srq) {w : Nat}
    (hMem : w ∈ underWay x s) : w < x.localSender := by
  rw [underWay, ← List.map_append, List.append_assoc] at hMem
  rcases List.mem_append.mp hMem with hHands | hElsewhere
  · obtain ⟨rIdx, hIdx, rfl⟩ := List.mem_map.mp hHands
    exact (h.owners rIdx (List.mem_append_left _ hIdx)).1
  rcases List.mem_append.mp hElsewhere with hCompleted | hOutstanding
  · obtain ⟨entry, hEntry, rfl⟩ := List.mem_map.mp hCompleted
    have hOwner := (h.owners entry.2 (List.mem_append_right _ (List.mem_map_of_mem hEntry))).1
    simpa only [ownerOf, hPoll] using hOwner
  · obtain ⟨entry, hEntry, rfl⟩ := List.mem_map.mp hOutstanding
    exact h.workers entry hEntry

/-- Nothing else of the worker being processed is under way. -/
theorem Consistent.current_alone (h : Consistent x s) {rIdx : Nat}
    (hCurrent : s.control.current = [rIdx]) :
    (logOf s.outstanding (ownerOf x s.owner rIdx)).length +
      landed x s (ownerOf x s.owner rIdx) = 0 := by
  have hW := (h.owners rIdx (by simp [hCurrent])).1
  have hUnder := (h.phases _ hW).under_way
  have hPlaced := h.placed
  cases hControl : s.control with
  | clearType w other rest | signal w other rest =>
      rw [hControl] at hCurrent
      obtain rfl := List.singleton_injective hCurrent
      simp only [Placed, hControl] at hPlaced
      simpa [State.view, hControl, Control.stage, hPlaced] using hUnder
  | finalize other rest =>
      rw [hControl] at hCurrent
      obtain rfl := List.singleton_injective hCurrent
      simp only [Placed, hControl] at hPlaced
      rw [hPlaced.1, hPlaced.2]
      rfl
  | start | head | scan | transfer | look | clearFlag | pollSRQ | process | stopped =>
      rw [hControl] at hCurrent
      cases hCurrent

/-- The dispatcher deals with one completion at a time. -/
theorem current_cases (control : Control) :
    control.current = [] ∨ ∃ rIdx, control.current = [rIdx] := by
  cases control with
  | clearType _ rIdx | signal _ rIdx | finalize rIdx => exact .inr ⟨rIdx, rfl⟩
  | _ => exact .inl rfl

/-- No worker has two things under way. -/
theorem Consistent.underWay_nodup (h : Consistent x s) (hPoll : x.poll = .srq) :
    (underWay x s).Nodup := by
  apply List.nodup_iff_count_le_one.mpr
  intro w
  by_cases hW : w ∈ underWay x s
  · have hUnder := (h.phases w (h.underWay_lt hPoll hW)).under_way
    have hOne : (logOf s.outstanding w).length + landed x s w ≤ 1 := by
      apply Nat.le_trans hUnder
      split
      · exact Nat.le_refl 1
      · exact Nat.zero_le 1
    rw [count_underWay hPoll]
    rcases current_cases s.control with hNone | ⟨rIdx, hCurrent⟩
    · simpa [hNone] using hOne
    · have hAlone := h.current_alone hCurrent
      rw [hCurrent, List.map_singleton, List.count_singleton]
      by_cases hSame : ownerOf x s.owner rIdx = w
      · rw [← hSame, hAlone]
        simp
      · simpa [hSame] using hOne
  · rw [List.count_eq_zero_of_not_mem hW]
    exact Nat.zero_le 1

/-- A posted receive is left for each response to come. -/
theorem Consistent.outstanding_le_posted (h : Consistent x s) (hPoll : x.poll = .srq) :
    s.outstanding.length ≤ s.srq.posted.length := by
  by_cases hStart : s.control = .start
  · have hPlaced := h.placed
    simp only [Placed, hStart] at hPlaced
    rw [hPlaced.2]
    exact Nat.zero_le _
  · have hBound : (underWay x s).length ≤ (List.range x.localSender).length :=
      (List.subperm_of_subset (h.underWay_nodup hPoll) fun w hMem =>
        List.mem_range.mpr (h.underWay_lt hPoll hMem)).length_le
    have hSlots := (h.slots hPoll hStart).2
    simp only [underWay, BenchmarkDispatcher.slots, SharedReceiveQueue.held, List.length_append,
      List.length_map, List.length_range] at hBound hSlots
    omega

end Receives

/-- In every reachable state the requests of each worker have been transferred
and acknowledged in order, each once, never before the response; no response was
found for a worker that has not transferred, and no acknowledgement needed a
second attempt. With a shared receive queue every response leads to the worker
that issued the request, and each outstanding one finds a posted receive. -/
theorem dispatcher_exactly_once {x : Setup} {s : State}
    (hReachable : (dispatcherMachine x).Reachable s) :
    (∀ w < x.localSender, ExactlyOnce x s w) ∧ s.notTransfered = 0 ∧ s.retries = 0 ∧
    (x.poll = .srq →
      (∀ rIdx rest, s.control = .process (rIdx :: rest) →
        workerOf x s.respBuffer rIdx = s.owner rIdx ∧ s.owner rIdx < x.localSender) ∧
      s.outstanding.length ≤ s.srq.posted.length) := by
  have h := reachable_consistent hReachable
  refine ⟨fun w hW => h.exactlyOnce hW, h.clean.1, h.clean.2, ?_⟩
  intro hPoll
  constructor
  · intro rIdx rest hControl
    have hOwner := h.owners rIdx (by simp [hControl, Control.batch])
    simp only [ownerOf, hPoll] at hOwner
    exact ⟨hOwner.2, hOwner.1⟩
  · exact h.outstanding_le_posted hPoll

/-- Two workers with one request each and one receiver. -/
def twoWorkers : Setup where
  poll := .srq
  localSender := 2
  requests _ := 1
  rand _ _ := 7
  recvIds worker := [⟨3, worker * sizeofMessageBase, worker * 8, worker * 8 + 7⟩]
  sharedNodeId := 5
  respBase := 128
  sizeofResponse := 16
  sizeofResponse_pos := by decide
  recvIds_ne_nil _ _ := List.cons_ne_nil _ _
  range_pos worker _ info hInfo := by
    obtain rfl := List.mem_singleton.mp hInfo
    rw [sizeT_add_sub (by decide)]
    decide

/-- The response to the second worker arrives first, in the receive with index 0. -/
def twoWorkersRun : List Operation :=
  List.replicate 7 (.worker 0) ++ List.replicate 7 (.worker 1) ++
    List.replicate 7 .dispatcher ++
    [.respond 1 (twoWorkers.request 1 0) 0, .respond 0 (twoWorkers.request 0 0) 1] ++
    List.replicate 9 .dispatcher ++ [.worker 0, .worker 1]

theorem dispatcher_exactly_once_two :
    ∃ s, (dispatcherMachine twoWorkers).Reachable s ∧
      s.transfers 0 = [twoWorkers.request 0 0] ∧ s.acknowledgements 0 = 1 ∧
      s.transfers 1 = [twoWorkers.request 1 0] ∧ s.acknowledgements 1 = 1 := by
  have hReplay : ∃ s, (dispatcherMachine twoWorkers).replay {} twoWorkersRun = some s ∧
      s.worker 0 = .fill 1 0 ∧ s.worker 1 = .fill 1 0 := ⟨_, rfl, rfl, rfl⟩
  obtain ⟨s, hReplay, hFirst, hSecond⟩ := hReplay
  have hReachable : (dispatcherMachine twoWorkers).Reachable s :=
    Machine.reachable_of_replay twoWorkersRun hReplay
  have hOnce := (dispatcher_exactly_once hReachable).1
  obtain ⟨hTransfers, _, hAcks⟩ := (hOnce 0 (by decide)).atEnd hFirst
  obtain ⟨hTransfers', _, hAcks'⟩ := (hOnce 1 (by decide)).atEnd hSecond
  exact ⟨s, hReachable, hTransfers, hAcks, hTransfers', hAcks'⟩

end BenchmarkDispatcher
