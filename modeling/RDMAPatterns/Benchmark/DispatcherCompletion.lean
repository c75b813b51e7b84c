import Mathlib.Algebra.Order.BigOperators.Group.List
import RDMAPatterns.Benchmark.ExactlyOnce
import RDMAPatterns.Transition.Progress

/-! Workers and dispatcher can always come to an end: no request is forgotten, and
neither waits for something that cannot come. -/
namespace BenchmarkDispatcher

open Benchmark Channels Transition Verbs

/-- All workers are through, the dispatcher has returned, and every request was
transferred, answered and acknowledged. -/
structure Complete (x : Setup) (s : State) : Prop where
  stopped : s.control = .stopped
  answered : s.outstanding = []
  workers : ∀ w < x.localSender, s.worker w = .fill (x.requests w) 0 ∧
    s.transfers w = x.issued w (x.requests w) ∧ s.arrivals w = x.issued w (x.requests w) ∧
    s.acknowledgements w = x.requests w

section Measure

variable (x : Setup)

/-- The steps that a worker still has to take. -/
def stepsLeft (w : Nat) : Worker → Nat
  | .fill i stores => 8 * (x.requests w - i) - stores
  | .signal i => 8 * (x.requests w - i) - 7

/-- What still has to happen for a worker. -/
def workerLeft (s : State) (w : Nat) : Nat :=
  stepsLeft x w (s.worker w) + (x.requests w - (s.transfers w).length) +
    (x.requests w - (s.arrivals w).length) + (x.requests w - s.acknowledgements w)

def State.left (s : State) : Nat :=
  ((List.range x.localSender).map (workerLeft x s)).sum + (if s.running then 1 else 0) +
    if s.control = .stopped then 0 else 1

/-- How far the dispatcher is from the head of its loop if it finds nothing new. -/
def roundLeft : Control → Nat
  | .start => 1
  | .head => 0
  | .scan reqId => 300 + x.localSender + (x.localSender - reqId)
  | .transfer _ => 1
  | .look respId => 10 + (x.localSender - respId)
  | .clearFlag _ => 6
  | .pollSRQ failedPolls => 80 + (150 - failedPolls)
  | .process batch => 4 * batch.length + 1
  | .clearType _ _ rest => 4 * rest.length + 4
  | .signal _ _ rest => 4 * rest.length + 3
  | .finalize _ rest => 4 * rest.length + 2
  | .stopped => 0

variable {x} {s t : State}

/-- A step that gets one worker further, and keeps the others and the dispatcher where
they are, leaves less to do. -/
theorem left_lt_of_worker {w : Nat} (hW : w < x.localSender)
    (hOthers : ∀ other, other ≠ w → workerLeft x t other = workerLeft x s other)
    (hLess : workerLeft x t w < workerLeft x s w) (hRunning : t.running = s.running)
    (hStopped : s.control = .stopped → t.control = .stopped) : t.left x < s.left x := by
  have hSum : ((List.range x.localSender).map (workerLeft x t)).sum <
      ((List.range x.localSender).map (workerLeft x s)).sum := by
    refine List.sum_lt_sum _ _ (fun other _ => ?_) ⟨w, List.mem_range.mpr hW, hLess⟩
    by_cases hSame : other = w
    · rw [hSame]
      exact hLess.le
    · exact (hOthers other hSame).le
  have hLast : (if t.control = .stopped then 0 else 1) ≤ if s.control = .stopped then 0 else 1 := by
    by_cases hS : s.control = .stopped
    · rw [if_pos hS, if_pos (hStopped hS)]
    · rw [if_neg hS]
      split <;> simp
  rw [State.left, State.left, hRunning]
  omega

/-- A step that only the dispatcher notices. -/
theorem left_congr (hWorker : t.worker = s.worker) (hTransfers : t.transfers = s.transfers)
    (hArrivals : t.arrivals = s.arrivals) (hAcks : t.acknowledgements = s.acknowledgements)
    (hRunning : t.running = s.running) (hS : s.control ≠ .stopped) (hT : t.control ≠ .stopped) :
    t.left x = s.left x := by
  have hWorkers : workerLeft x t = workerLeft x s := by
    funext w
    rw [workerLeft, workerLeft, hWorker, hTransfers, hArrivals, hAcks]
  rw [State.left, State.left, hWorkers, hRunning, if_neg hS, if_neg hT]

end Measure

namespace Phase

variable {x : Setup} {w : Nat} {v : View}

/-- The request in a slot that was not transferred yet is one of those issued. -/
theorem transfers_lt (h : Phase x w v) (hStage : v.stage = .none) (hType : v.slot.type ≠ .empty)
    (hTransfered : v.transfered = false) : v.transfers.length < v.worker.issued := by
  cases h with
  | issued i => simp [Setup.issued, Worker.issued]
  | filling i stores old hStores hOld =>
      exact absurd ((stored_type w i old hStores).trans hOld) hType
  | transferred | arrived => cases hTransfered
  | clearing | signaling => cases hStage
  | acknowledged => exact absurd rfl hType

/-- A response still on its way belongs to an issued request that has no response yet. -/
theorem arrivals_lt (h : Phase x w v) (hOutstanding : v.outstanding ≠ []) :
    v.arrivals.length < v.worker.issued := by
  cases h with
  | transferred i => simp [Setup.issued, Worker.issued]
  | _ => exact absurd rfl hOutstanding

/-- A response that is about to be signalled has not been acknowledged. -/
theorem acknowledgements_lt (h : Phase x w v) (hStage : v.stage = .signaling) :
    v.acknowledgements < v.worker.issued := by
  cases h with
  | signaling i => exact Nat.lt_succ_self i
  | _ => cases hStage

/-- A worker in the middle of a request has one of its seven stores in front of it. -/
theorem stores_le (h : Phase x w v) {i stores : Nat} (hWorker : v.worker = .fill i stores) :
    stores ≤ 6 := by
  cases h with
  | filling i' stores' old hStores =>
      obtain ⟨-, rfl⟩ := Worker.fill.inj hWorker
      exact hStores
  | _ => cases hWorker

/-- A worker waits until its request was transferred, answered and acknowledged. -/
theorem waiting (h : Phase x w v) {i : Nat} (hWorker : v.worker = .signal i)
    (hReceived : v.received ≠ 1) (hStage : v.stage = .none) :
    (v.slot.type ≠ .empty ∧ v.transfered = false) ∨ v.outstanding = [x.request w i] ∨
      v.landed = 1 := by
  cases h with
  | filling => cases hWorker
  | issued i' => exact .inl ⟨by simp [Setup.request], rfl⟩
  | transferred i' =>
      obtain rfl := Worker.signal.inj hWorker
      exact .inr (.inl rfl)
  | arrived => exact .inr (.inr rfl)
  | clearing | signaling => cases hStage
  | acknowledged => exact absurd rfl hReceived

/-- Nothing is left of the requests of a worker that is through. -/
theorem through (h : Phase x w v) {i : Nat} (hWorker : v.worker = .fill i 0) :
    v.outstanding = [] ∧ v.transfers = x.issued w i ∧ v.arrivals = x.issued w i ∧
      v.acknowledgements = i := by
  cases h with
  | filling i' stores old hStores hOld =>
      obtain ⟨rfl, -⟩ := Worker.fill.inj hWorker
      exact ⟨rfl, rfl, rfl, rfl⟩
  | _ => cases hWorker

end Phase

section Steps

variable {x : Setup} {s t : State}

/-- Only requests that a worker has to send are issued. -/
theorem Consistent.issued_le (h : Consistent x s) {w n : Nat} (hLess : n < (s.worker w).issued) :
    n < x.requests w :=
  Nat.lt_of_lt_of_le hLess (h.within w)

/-- Transfers, responses and acknowledgements are part of what is left. -/
theorem left_lt_transfer (h : Consistent x s) {reqId : Nat}
    (hControl : s.control = .transfer reqId) :
    State.left x { s with
      outstanding := s.outstanding ++ [(reqId, s.reqBuffer reqId)]
      transfers := Function.update s.transfers reqId (s.transfers reqId ++ [s.reqBuffer reqId])
      reqDispatched := s.reqDispatched + 1
      transfered := Function.update s.transfered reqId true
      control := .scan (reqId + 1) } < s.left x := by
  have hPlaced := h.placed
  simp only [Placed, hControl] at hPlaced
  obtain ⟨hReqId, hType, hTransfered⟩ := hPlaced
  have hLess : (s.transfers reqId).length < x.requests reqId :=
    h.issued_le ((h.phases reqId hReqId).transfers_lt
      (by simp [State.view, hControl, Control.stage]) hType hTransfered)
  apply left_lt_of_worker hReqId
  · intro other hOther
    simp [workerLeft, Function.update_of_ne hOther]
  · simp [workerLeft]
    omega
  · rfl
  · simp [hControl]

/-- The store into the mailbox leaves less to do: it acknowledges a request. -/
theorem left_lt_signal (h : Consistent x s) {w rIdx : Nat} {rest : List Nat}
    (hControl : s.control = .signal w rIdx rest) :
    State.left x { s with
      received := Function.update s.received w 1
      acknowledgements := Function.update s.acknowledgements w (s.acknowledgements w + 1)
      control := .finalize rIdx rest } < s.left x := by
  have hPlaced := h.placed
  simp only [Placed, hControl] at hPlaced
  have hW : w < x.localSender := by
    rw [hPlaced]
    exact (h.owners rIdx (by simp [hControl, Control.current])).1
  have hLess : s.acknowledgements w < x.requests w :=
    h.issued_le ((h.phases w hW).acknowledgements_lt (by simp [State.view, hControl, Control.stage]))
  apply left_lt_of_worker hW
  · intro other hOther
    simp [workerLeft, Function.update_of_ne hOther]
  · simp [workerLeft]
    omega
  · rfl
  · simp [hControl]

/-- A step towards the end, or at least towards the head of the loop. -/
structure Closer (x : Setup) (s t : State) : Prop where
  worker : t.worker = s.worker
  running : t.running = s.running
  going : t.control ≠ .stopped
  closer : t.left x < s.left x ∨
    (t.left x = s.left x ∧ roundLeft x t.control < roundLeft x s.control)

/-- A step of the loop that changes no more than the dispatcher's own state. -/
theorem closer_of_round (hWorker : t.worker = s.worker) (hTransfers : t.transfers = s.transfers)
    (hArrivals : t.arrivals = s.arrivals) (hAcks : t.acknowledgements = s.acknowledgements)
    (hRunning : t.running = s.running) (hS : s.control ≠ .stopped) (hT : t.control ≠ .stopped)
    (hRound : roundLeft x t.control < roundLeft x s.control) : Closer x s t :=
  ⟨hWorker, hRunning, hT,
    .inr ⟨left_congr hWorker hTransfers hArrivals hAcks hRunning hS hT, hRound⟩⟩

/-- A batch takes at least the oldest completion. -/
theorem pollBatch_cons {q : SharedReceiveQueue} {first : Nat × Nat} {rest : List (Nat × Nat)}
    (h : q.completed = first :: rest) : q.pollBatch batchSize =
      (first :: rest.take 15, { q with completed := rest.drop 15 }) := by
  rw [SharedReceiveQueue.pollBatch, h]
  rfl

/-- In the middle of its loop the dispatcher can always take its next step, and none of
its steps there loses ground. -/
theorem dispatcher_closer (h : Consistent x s) (hHead : s.control ≠ .head)
    (hStopped : s.control ≠ .stopped) : ∃ t, dispatcherStep x s = some t ∧ Closer x s t := by
  cases hControl : s.control with
  | start =>
      cases hPoll : x.poll with
      | srq =>
          refine ⟨_, by simp only [dispatcherStep, hControl, hPoll]; rfl, ?_⟩
          refine closer_of_round rfl rfl rfl rfl rfl hStopped (by simp) ?_
          rw [hControl]
          exact Nat.zero_lt_one
      | buf | rq =>
          refine ⟨_, by simp only [dispatcherStep, hControl, hPoll]; rfl, ?_⟩
          refine closer_of_round rfl rfl rfl rfl rfl hStopped (by simp) ?_
          rw [hControl]
          exact Nat.zero_lt_one
  | head => exact absurd hControl hHead
  | scan reqId =>
      by_cases hReqId : reqId < x.localSender
      · by_cases hSkip : (s.reqBuffer reqId).type = .empty ∨ s.transfered reqId = true
        · refine ⟨_, by simp only [dispatcherStep, hControl, if_pos hReqId, if_pos hSkip]; rfl, ?_⟩
          refine closer_of_round rfl rfl rfl rfl rfl hStopped (by simp) ?_
          simp only [hControl, roundLeft]
          omega
        · refine ⟨_, by simp only [dispatcherStep, hControl, if_pos hReqId, if_neg hSkip]; rfl, ?_⟩
          refine closer_of_round rfl rfl rfl rfl rfl hStopped (by simp) ?_
          simp only [hControl, roundLeft]
          omega
      · cases hPoll : x.poll with
        | buf | srq | rq =>
            refine ⟨_, by simp only [dispatcherStep, hControl, if_neg hReqId, hPoll]; rfl, ?_⟩
            refine closer_of_round rfl rfl rfl rfl rfl hStopped (by simp) ?_
            simp only [hControl, roundLeft, List.length_nil]
            omega
  | transfer reqId =>
      refine ⟨_, by simp only [dispatcherStep, hControl]; rfl, ?_⟩
      exact ⟨rfl, rfl, by simp, .inl (left_lt_transfer h hControl)⟩
  | look respId =>
      by_cases hRespId : respId < x.localSender
      · by_cases hSkip : (s.respBuffer respId).transferFlag ≠ 1
        · refine ⟨_, by simp only [dispatcherStep, hControl, if_pos hRespId, if_pos hSkip]; rfl, ?_⟩
          refine closer_of_round rfl rfl rfl rfl rfl hStopped (by simp) ?_
          simp only [hControl, roundLeft]
          omega
        · refine ⟨_, by simp only [dispatcherStep, hControl, if_pos hRespId, if_neg hSkip]; rfl, ?_⟩
          refine closer_of_round rfl rfl rfl rfl rfl hStopped (by simp) ?_
          simp only [hControl, roundLeft]
          omega
      · refine ⟨_, by simp only [dispatcherStep, hControl, if_neg hRespId]; rfl, ?_⟩
        refine closer_of_round rfl rfl rfl rfl rfl hStopped (by simp) ?_
        simp only [hControl, roundLeft, List.length_nil]
        omega
  | clearFlag respId =>
      refine ⟨_, by simp only [dispatcherStep, hControl]; rfl, ?_⟩
      refine closer_of_round rfl rfl rfl rfl rfl hStopped (by simp) ?_
      simp [hControl, roundLeft]
  | pollSRQ failedPolls =>
      cases hCompleted : s.srq.completed with
      | nil =>
          have hBatch : s.srq.pollBatch batchSize = ([], { s.srq with completed := [] }) := by
            simp [SharedReceiveQueue.pollBatch, hCompleted]
          refine ⟨_, by simp only [dispatcherStep, hControl, hBatch]; rfl, ?_⟩
          split
          · refine closer_of_round rfl rfl rfl rfl rfl hStopped (by simp) ?_
            simp only [hControl, roundLeft]
            omega
          · refine closer_of_round rfl rfl rfl rfl rfl hStopped (by simp) ?_
            simp only [hControl, roundLeft, List.length_nil]
            omega
      | cons first rest =>
          have hBatch := pollBatch_cons hCompleted
          refine ⟨_, by simp only [dispatcherStep, hControl, hBatch]; rfl, ?_⟩
          refine closer_of_round rfl rfl rfl rfl rfl hStopped (by simp) ?_
          simp only [hControl, roundLeft, List.map_cons, List.length_cons, List.length_map,
            List.length_take]
          omega
  | process batch =>
      cases batch with
      | nil =>
          refine ⟨_, by simp only [dispatcherStep, hControl]; rfl, ?_⟩
          refine closer_of_round rfl rfl rfl rfl rfl hStopped (by simp) ?_
          rw [hControl]
          exact Nat.zero_lt_one
      | cons rIdx rest =>
          refine ⟨_, by simp only [dispatcherStep, hControl, if_pos (h.take hControl).1]; rfl, ?_⟩
          refine closer_of_round rfl rfl rfl rfl rfl hStopped (by simp) ?_
          simp only [hControl, roundLeft, List.length_cons]
          omega
  | clearType w rIdx rest =>
      refine ⟨_, by simp only [dispatcherStep, hControl]; rfl, ?_⟩
      refine closer_of_round rfl rfl rfl rfl rfl hStopped (by simp) ?_
      simp only [hControl, roundLeft]
      omega
  | signal w rIdx rest =>
      refine ⟨_, by simp only [dispatcherStep, hControl, if_pos (h.signal hControl).1]; rfl, ?_⟩
      exact ⟨rfl, rfl, by simp, .inl (left_lt_signal h hControl)⟩
  | finalize rIdx rest =>
      cases hPoll : x.poll with
      | srq | buf | rq =>
          refine ⟨_, by simp only [dispatcherStep, hControl, hPoll]; rfl, ?_⟩
          refine closer_of_round rfl rfl rfl rfl rfl hStopped (by simp) ?_
          simp only [hControl, roundLeft]
          omega
  | stopped => exact absurd hControl hStopped

end Steps

section Rounds

variable {x : Setup} {s t : State}

/-- Some steps lead on, and less is left after them. -/
def Advances (x : Setup) (s : State) : Prop :=
  ∃ t, (dispatcherMachine x).Leads s t ∧ t.left x < s.left x

/-- One step that leaves less to do is an advance. -/
theorem Advances.step {a : Operation} (hNext : (dispatcherMachine x).next s a = some t)
    (hLess : t.left x < s.left x) : Advances x s :=
  ⟨t, .single hNext, hLess⟩

/-- A step that leaves no more to do can come in front of an advance. The dispatcher
takes such steps to get to where the work is. -/
theorem Advances.after {a : Operation} (hNext : (dispatcherMachine x).next s a = some t)
    (hLe : t.left x ≤ s.left x) (h : Advances x t) : Advances x s := by
  obtain ⟨u, hLeads, hLess⟩ := h
  exact ⟨u, .head hNext hLeads, Nat.lt_of_lt_of_le hLess hLe⟩

/-- Within a round the dispatcher loses nothing. -/
theorem Advances.dispatcher (hConsistent : Consistent x s) (hHead : s.control ≠ .head)
    (hStopped : s.control ≠ .stopped) (hNext : dispatcherStep x s = some t)
    (h : Advances x t) : Advances x s := by
  obtain ⟨u, hStep, hCloser⟩ := dispatcher_closer hConsistent hHead hStopped
  obtain rfl : u = t := Option.some.inj (hStep.symm.trans hNext)
  have hTaken : (dispatcherMachine x).next s .dispatcher = some u := hStep
  exact h.after hTaken (hCloser.closer.elim Nat.le_of_lt fun hSame => hSame.1.le)

/-- The dispatcher gets to the head of its loop, if nothing advances on the way. -/
theorem to_head (h : (dispatcherMachine x).Reachable s) (hStopped : s.control ≠ .stopped) :
    Advances x s ∨ ∃ t, (dispatcherMachine x).Leads s t ∧ t.left x = s.left x ∧
      t.control = .head := by
  induction hRound : roundLeft x s.control using Nat.strong_induction_on generalizing s with
  | h round ih =>
      by_cases hHead : s.control = .head
      · exact .inr ⟨s, .refl s, rfl, hHead⟩
      · obtain ⟨t, hNext, hCloser⟩ := dispatcher_closer (reachable_consistent h) hHead hStopped
        have hStep : (dispatcherMachine x).next s .dispatcher = some t := hNext
        rcases hCloser.closer with hLess | ⟨hSame, hLess⟩
        · exact .inl (.step hStep hLess)
        · have hReachable := (Machine.Leads.single hStep).reachable h
          rcases ih _ (hRound ▸ hLess) hReachable hCloser.going rfl with
            hAdvances | ⟨u, hLeads, hLeft, hEnd⟩
          · exact .inl (hAdvances.after hStep hSame.le)
          · exact .inr ⟨u, .head hStep hLeads, hLeft.trans hSame, hEnd⟩

/-- A dispatcher that is about to transfer a request takes it off the worker. -/
theorem transfer_advances (h : Consistent x s) {reqId : Nat}
    (hControl : s.control = .transfer reqId) : Advances x s := by
  refine @Advances.step x s _ .dispatcher ?_ (left_lt_transfer h hControl)
  simp only [dispatcherMachine, dispatcherStep, hControl]

/-- A dispatcher that is about to signal a worker acknowledges its request. -/
theorem signal_advances (h : Consistent x s) {w rIdx : Nat} {rest : List Nat}
    (hControl : s.control = .signal w rIdx rest) : Advances x s := by
  refine @Advances.step x s _ .dispatcher ?_ (left_lt_signal h hControl)
  simp only [dispatcherMachine, dispatcherStep, hControl, if_pos (h.signal hControl).1]

/-- Clearing the type of a request is followed by its acknowledgement. -/
theorem clearType_advances (h : Consistent x s) {w rIdx : Nat} {rest : List Nat}
    (hControl : s.control = .clearType w rIdx rest) : Advances x s := by
  have hNext : dispatcherStep x s = some { s with
      reqBuffer := Function.update s.reqBuffer w (s.reqBuffer w).cleared
      control := .signal w rIdx rest } := by
    simp only [dispatcherStep, hControl]
  refine .dispatcher h (by simp [hControl]) (by simp [hControl]) hNext ?_
  exact signal_advances (h.clearType hControl) rfl

/-- A response that was found is acknowledged. -/
theorem process_advances (h : Consistent x s) {rIdx : Nat} {rest : List Nat}
    (hControl : s.control = .process (rIdx :: rest)) : Advances x s := by
  have hTake := h.take hControl
  have hNext : dispatcherStep x s = some { s with
      msgReceived := s.msgReceived + 1
      transfered := Function.update s.transfered (workerOf x s.respBuffer rIdx) false
      control := .clearType (workerOf x s.respBuffer rIdx) rIdx rest } := by
    simp only [dispatcherStep, hControl, if_pos hTake.1]
  refine .dispatcher h (by simp [hControl]) (by simp [hControl]) hNext ?_
  exact clearType_advances hTake.2 rfl

/-- Clearing the flag of a response is followed by the acknowledgement of its request. -/
theorem clearFlag_advances (h : Consistent x s) {respId : Nat}
    (hControl : s.control = .clearFlag respId) : Advances x s := by
  have hNext : dispatcherStep x s = some { s with
      respBuffer := Function.update s.respBuffer respId
        { s.respBuffer respId with transferFlag := 0 }
      control := .process [respId] } := by
    simp only [dispatcherStep, hControl]
  refine .dispatcher h (by simp [hControl]) (by simp [hControl]) hNext ?_
  exact process_advances (h.clearFlag hControl) rfl

/-- A scan that gets to its end has found no request to transfer. -/
theorem scan_advances (h : Consistent x s) {reqId : Nat} (hControl : s.control = .scan reqId)
    (hReqId : reqId ≤ x.localSender) :
    Advances x s ∨ ((dispatcherMachine x).Leads s { s with control := .scan x.localSender } ∧
      ∀ w, reqId ≤ w → w < x.localSender →
        (s.reqBuffer w).type = .empty ∨ s.transfered w = true) := by
  induction hRest : x.localSender - reqId generalizing s reqId with
  | zero =>
      obtain rfl : reqId = x.localSender := by omega
      refine .inr ⟨?_, fun w hFrom hTo => (Nat.not_lt_of_le hFrom hTo).elim⟩
      rw [← hControl]
      exact .refl s
  | succ rest ih =>
      have hMore : reqId < x.localSender := by omega
      by_cases hSkip : (s.reqBuffer reqId).type = .empty ∨ s.transfered reqId = true
      · have hNext : dispatcherStep x s = some { s with control := .scan (reqId + 1) } := by
          simp only [dispatcherStep, hControl, if_pos hMore, if_pos hSkip]
        have hStep : (dispatcherMachine x).next s .dispatcher =
            some { s with control := .scan (reqId + 1) } := hNext
        rcases ih (h.dispatcher hNext) rfl hMore (by omega) with hAdvances | ⟨hLeads, hNone⟩
        · exact .inl (.dispatcher h (by simp [hControl]) (by simp [hControl]) hNext hAdvances)
        · refine .inr ⟨.head hStep hLeads, fun w hFrom hTo => ?_⟩
          rcases Nat.eq_or_lt_of_le hFrom with rfl | hLater
          · exact hSkip
          · exact hNone w hLater hTo
      · have hNext : dispatcherStep x s = some { s with control := .transfer reqId } := by
          simp only [dispatcherStep, hControl, if_pos hMore, if_neg hSkip]
        refine .inl (.dispatcher h (by simp [hControl]) (by simp [hControl]) hNext ?_)
        exact transfer_advances (h.dispatcher hNext) rfl

/-- A response in memory is found, if not another one before it. -/
theorem look_advances (h : Consistent x s) {respId w : Nat}
    (hControl : s.control = .look respId) (hW : w < x.localSender) (hFrom : respId ≤ w)
    (hFlag : (s.respBuffer w).transferFlag = 1) : Advances x s := by
  induction hRest : w - respId generalizing s respId with
  | zero =>
      obtain rfl : respId = w := by omega
      have hNext : dispatcherStep x s = some { s with control := .clearFlag respId } := by
        simp only [dispatcherStep, hControl, if_pos hW, if_neg (not_not.mpr hFlag)]
      refine .dispatcher h (by simp [hControl]) (by simp [hControl]) hNext ?_
      exact clearFlag_advances (h.dispatcher hNext) rfl
  | succ rest ih =>
      have hMore : respId < x.localSender := by omega
      by_cases hOther : (s.respBuffer respId).transferFlag ≠ 1
      · have hNext : dispatcherStep x s = some { s with control := .look (respId + 1) } := by
          simp only [dispatcherStep, hControl, if_pos hMore, if_pos hOther]
        refine .dispatcher h (by simp [hControl]) (by simp [hControl]) hNext ?_
        exact ih (h.dispatcher hNext) rfl (by omega) hFlag (by omega)
      · have hNext : dispatcherStep x s = some { s with control := .clearFlag respId } := by
          simp only [dispatcherStep, hControl, if_pos hMore, if_neg hOther]
        refine .dispatcher h (by simp [hControl]) (by simp [hControl]) hNext ?_
        exact clearFlag_advances (h.dispatcher hNext) rfl

/-- A completion in the queue is found by the next poll, however often polling has
failed, and the dispatcher goes on to acknowledge its request. -/
theorem pollSRQ_advances (h : Consistent x s) {failedPolls : Nat}
    (hControl : s.control = .pollSRQ failedPolls) (hPoll : x.poll = .srq)
    (hCompleted : s.srq.completed ≠ []) : Advances x s := by
  obtain ⟨first, rest, hEntries⟩ := List.exists_cons_of_ne_nil hCompleted
  have hBatch := pollBatch_cons hEntries
  have hTaken := h.pollSRQ batchSize hControl hPoll
  rw [hBatch] at hTaken
  refine .dispatcher h (by simp [hControl]) (by simp [hControl])
    (by simp only [dispatcherStep, hControl, hBatch]; rfl) ?_
  exact process_advances hTaken rfl

/-- Something for the dispatcher to find. -/
def Work (x : Setup) (s : State) : Prop :=
  (∃ w < x.localSender, (s.reqBuffer w).type ≠ .empty ∧ s.transfered w = false) ∨
    (x.poll = .srq ∧ s.srq.completed ≠ []) ∨
    (x.poll = .buf ∧ ∃ w < x.localSender, (s.respBuffer w).transferFlag = 1)

/-- A round finds whatever there is. -/
theorem round_advances (h : Consistent x s) (hControl : s.control = .head)
    (hRunning : s.running = true) (hWork : Work x s) : Advances x s := by
  have hHead : dispatcherStep x s = some { s with control := .scan 0 } := by
    simp only [dispatcherStep, hControl, hRunning, if_true]
  have hStep : (dispatcherMachine x).next s .dispatcher = some { s with control := .scan 0 } := hHead
  have hSame : State.left x { s with control := .scan 0 } = s.left x :=
    left_congr rfl rfl rfl rfl rfl (by simp [hControl]) (by simp)
  have hScan := h.dispatcher hHead
  refine .after hStep hSame.le ?_
  rcases scan_advances hScan rfl (Nat.zero_le _) with hAdvances | ⟨hLeads, hNone⟩
  · exact hAdvances
  · have hEnd : Consistent x { s with control := .scan x.localSender } :=
      h.move (by rw [hControl]; trivial) trivial trivial
    have hLast : Advances x { s with control := .scan x.localSender } := by
      rcases hWork with ⟨w, hW, hType, hTransfered⟩ | ⟨hPoll, hCompleted⟩ | ⟨hPoll, w, hW, hFlag⟩
      · rcases hNone w (Nat.zero_le _) hW with hEmpty | hDone
        · exact absurd hEmpty hType
        · exact absurd (hTransfered.symm.trans hDone) (by simp)
      · have hNext : dispatcherStep x { s with control := .scan x.localSender } =
            some { s with control := .pollSRQ 0 } := by
          simp only [dispatcherStep, hPoll, if_neg (Nat.lt_irrefl _)]
        refine .dispatcher hEnd (by simp) (by simp) hNext ?_
        exact pollSRQ_advances (hEnd.dispatcher hNext) rfl hPoll hCompleted
      · have hNext : dispatcherStep x { s with control := .scan x.localSender } =
            some { s with control := .look 0 } := by
          simp only [dispatcherStep, hPoll, if_neg (Nat.lt_irrefl _)]
        refine .dispatcher hEnd (by simp) (by simp) hNext ?_
        exact look_advances (hEnd.dispatcher hNext) rfl hW (Nat.zero_le _) hFlag
    obtain ⟨t, hRest, hLess⟩ := hLast
    have hLeft : State.left x { s with control := .scan x.localSender } =
        State.left x { s with control := .scan 0 } :=
      left_congr rfl rfl rfl rfl rfl (by simp) (by simp)
    exact ⟨t, hLeads.trans hRest, hLeft ▸ hLess⟩

end Rounds

section Ending

variable {x : Setup} {s t : State}

/-- The dispatcher is stopped only when all workers are through. -/
structure Ending (x : Setup) (s : State) : Prop where
  whole : ∀ {w i stores}, s.worker w = .fill i stores → i < x.requests w ∨ stores = 0
  ended : s.running = false → ∀ w < x.localSender, s.worker w = .fill (x.requests w) 0
  stopped : s.control = .stopped → s.running = false

/-- A step that leaves the workers and `running` alone. -/
theorem Ending.of_same (h : Ending x s) (hWorker : t.worker = s.worker)
    (hRunning : t.running = s.running) (hStopped : t.control = .stopped → s.running = false) :
    Ending x t where
  whole hFill := h.whole (hWorker ▸ hFill)
  ended hNot := by
    rw [hWorker]
    exact h.ended (hRunning ▸ hNot)
  stopped hControl := hRunning.trans (hStopped hControl)

/-- The dispatcher only leaves its loop once it was told to stop. -/
theorem Ending.dispatcher (h : Ending x s) (hConsistent : Consistent x s)
    (hNext : dispatcherStep x s = some t) : Ending x t := by
  by_cases hHead : s.control = .head
  · simp only [dispatcherStep, hHead] at hNext
    obtain rfl := Option.some.inj hNext
    refine h.of_same rfl rfl fun hStopped => ?_
    cases hRunning : s.running with
    | true => simp [hRunning] at hStopped
    | false => rfl
  · have hGoing : s.control ≠ .stopped := by
      intro hStopped
      simp [dispatcherStep, hStopped] at hNext
    obtain ⟨u, hStep, hCloser⟩ := dispatcher_closer hConsistent hHead hGoing
    obtain rfl : u = t := Option.some.inj (hStep.symm.trans hNext)
    exact h.of_same hCloser.worker hCloser.running fun hStopped => (hCloser.going hStopped).elim

/-- A worker never tells the dispatcher to go on again. -/
theorem Ending.worker (h : Ending x s) {w : Nat} (hW : w < x.localSender)
    (hNext : workerStep x s w = some t) : Ending x t := by
  have hOnly : ∀ {other}, t.worker = Function.update s.worker w other → t.running = s.running →
      t.control = s.control → s.worker w ≠ .fill (x.requests w) 0 →
      (∀ {i stores}, other = .fill i stores → i < x.requests w ∨ stores = 0) → Ending x t := by
    intro other hWorker hRunning hControl hGoing hWhole
    refine ⟨fun {v i stores} hFill => ?_, fun hNot => ?_, fun hStopped => ?_⟩
    · rw [hWorker] at hFill
      by_cases hSame : v = w
      · subst hSame
        rw [Function.update_self] at hFill
        exact hWhole hFill
      · rw [Function.update_of_ne hSame] at hFill
        exact h.whole hFill
    · exact (hGoing (h.ended (hRunning ▸ hNot) w hW)).elim
    · rw [hRunning]
      exact h.stopped (hControl ▸ hStopped)
  rw [workerStep] at hNext
  split at hNext
  case h_1 i stores hWorker =>
    rw [Option.ite_none_right_eq_some] at hNext
    obtain ⟨hRequest, hNext⟩ := hNext
    obtain rfl := Option.some.inj hNext
    refine hOnly rfl rfl rfl (fun hSame => ?_) fun hOther => ?_
    · rw [hWorker] at hSame
      exact hRequest.ne (Worker.fill.inj hSame).1
    · by_cases hLast : stores = 6
      · rw [if_pos hLast] at hOther
        cases hOther
      · rw [if_neg hLast] at hOther
        exact .inl ((Worker.fill.inj hOther).1 ▸ hRequest)
  case h_2 i hWorker =>
    split at hNext
    case isTrue hReceived =>
      obtain rfl := Option.some.inj hNext
      refine hOnly rfl rfl rfl (fun hSame => ?_) fun hOther => .inr (Worker.fill.inj hOther).2.symm
      cases hWorker.symm.trans hSame
    case isFalse =>
      obtain rfl := Option.some.inj hNext
      exact h

/-- A response does not touch what tells the dispatcher to stop. -/
theorem Ending.respond (h : Ending x s) {w rIdx : Nat} {m : MessageBase}
    (hNext : BenchmarkDispatcher.respond x s w m rIdx = some t) : Ending x t := by
  rw [BenchmarkDispatcher.respond, Option.ite_none_right_eq_some] at hNext
  obtain ⟨-, hNext⟩ := hNext
  cases hPoll : x.poll with
  | srq =>
      simp only [hPoll, Option.map_eq_some_iff] at hNext
      obtain ⟨q, -, rfl⟩ := hNext
      exact h.of_same rfl rfl h.stopped
  | buf | rq =>
      simp only [hPoll] at hNext
      obtain rfl := Option.some.inj hNext
      exact h.of_same rfl rfl h.stopped

/-- A dispatcher that has stopped was told so, and that happens when all workers are
through. -/
theorem reachable_ending (h : (dispatcherMachine x).Reachable s) : Ending x s := by
  have hStart : Ending x {} :=
    ⟨fun hFill => .inr (Worker.fill.inj hFill).2.symm, by simp, by simp⟩
  have hBoth : Consistent x s ∧ Ending x s := by
    apply h.invariant ⟨init_consistent x, hStart⟩
    rintro s a t ⟨hConsistent, hEnding⟩ hNext
    cases a with
    | worker w =>
        obtain ⟨hW, hNext⟩ := Option.ite_none_right_eq_some.mp hNext
        exact ⟨hConsistent.worker hW hNext, hEnding.worker hW hNext⟩
    | dispatcher => exact ⟨hConsistent.dispatcher hNext, hEnding.dispatcher hConsistent hNext⟩
    | respond w m rIdx => exact ⟨hConsistent.respond hNext, hEnding.respond hNext⟩
    | stop =>
        have hStop := hConsistent.stop hNext
        have hDone : BenchmarkDispatcher.stop x s = some t := hNext
        rw [BenchmarkDispatcher.stop, Option.ite_none_right_eq_some] at hDone
        obtain ⟨hThrough, hSame⟩ := hDone
        obtain rfl := Option.some.inj hSame
        exact ⟨hStop, hEnding.whole, fun _ => hThrough, fun _ => rfl⟩
  exact hBoth.2

end Ending

section Progress

variable {x : Setup} {s t : State}

/-- A worker that is not waiting takes a step. -/
theorem worker_advances {w : Nat} (hW : w < x.localSender) (hNext : workerStep x s w = some t)
    (hLess : stepsLeft x w (t.worker w) < stepsLeft x w (s.worker w))
    (hOthers : ∀ other, other ≠ w → t.worker other = s.worker other)
    (hTransfers : t.transfers = s.transfers) (hArrivals : t.arrivals = s.arrivals)
    (hAcks : t.acknowledgements = s.acknowledgements) (hRunning : t.running = s.running)
    (hControl : t.control = s.control) : Advances x s := by
  refine @Advances.step x s t (.worker w) ((if_pos hW).trans hNext) ?_
  apply left_lt_of_worker hW
  · intro other hOther
    rw [workerLeft, workerLeft, hOthers other hOther, hTransfers, hArrivals, hAcks]
  · rw [workerLeft, workerLeft, hTransfers, hArrivals, hAcks]
    omega
  · exact hRunning
  · exact fun hStopped => hControl.trans hStopped

/-- A worker with a request to fill in can go on: it waits for nobody. -/
theorem fill_advances (h : Consistent x s) {w i stores : Nat} (hW : w < x.localSender)
    (hWorker : s.worker w = .fill i stores) (hRequest : i < x.requests w) : Advances x s := by
  have hStores : stores ≤ 6 := (h.phases w hW).stores_le hWorker
  have hNext : workerStep x s w = some { s with
      reqBuffer := Function.update s.reqBuffer w (x.store w i (s.reqBuffer w) stores)
      worker := Function.update s.worker w
        (if stores = 6 then .signal i else .fill i (stores + 1)) } := by
    simp only [workerStep, hWorker, if_pos hRequest]
  refine worker_advances hW hNext ?_ ?_ rfl rfl rfl rfl rfl
  · simp only [Function.update_self, hWorker]
    split <;> simp only [stepsLeft] <;> omega
  · exact fun other hOther => Function.update_of_ne hOther ..

/-- A worker whose mailbox is set can go on to its next request. -/
theorem wake_advances (h : Consistent x s) {w i : Nat} (hW : w < x.localSender)
    (hWorker : s.worker w = .signal i) (hReceived : s.received w = 1) : Advances x s := by
  have hRequest : i < x.requests w := h.issued_le (by rw [hWorker]; exact Nat.lt_succ_self i)
  have hNext : workerStep x s w = some { s with
      received := Function.update s.received w 0
      worker := Function.update s.worker w (.fill (i + 1) 0) } := by
    simp only [workerStep, hWorker, if_pos hReceived]
  refine worker_advances hW hNext ?_ ?_ rfl rfl rfl rfl rfl
  · simp only [Function.update_self, hWorker, stepsLeft]
    omega
  · exact fun other hOther => Function.update_of_ne hOther ..

/-- The response to an outstanding request can arrive. -/
theorem respond_advances (h : Consistent x s) {w : Nat} {m : MessageBase}
    (hMem : (w, m) ∈ s.outstanding) : Advances x s := by
  have hW : w < x.localSender := h.workers (w, m) hMem
  have hLess : (s.arrivals w).length < x.requests w :=
    h.issued_le ((h.phases w hW).arrivals_lt (List.ne_nil_of_mem (mem_logOf.mpr hMem)))
  have hLeft : ∀ {t : State}, t.worker = s.worker → t.transfers = s.transfers →
      t.arrivals = Function.update s.arrivals w (s.arrivals w ++ [m]) →
      t.acknowledgements = s.acknowledgements → t.running = s.running → t.control = s.control →
      t.left x < s.left x := by
    intro t hWorker hTransfers hArrivals hAcks hRunning hControl
    apply left_lt_of_worker hW
    · intro other hOther
      rw [workerLeft, workerLeft, hWorker, hTransfers, hArrivals, hAcks,
        Function.update_of_ne hOther]
    · rw [workerLeft, workerLeft, hWorker, hTransfers, hArrivals, hAcks, Function.update_self,
        List.length_append, List.length_singleton]
      omega
    · exact hRunning
    · exact fun hStopped => hControl.trans hStopped
  cases hPoll : x.poll with
  | srq =>
      have hPosted : 0 < s.srq.posted.length :=
        Nat.lt_of_lt_of_le (List.length_pos_of_mem hMem) (h.outstanding_le_posted hPoll)
      obtain ⟨rIdx, hFree⟩ := List.exists_mem_of_length_pos hPosted
      obtain ⟨q, hArrive⟩ : ∃ q, s.srq.arrive m.paddingDestNodeID rIdx = some q :=
        ⟨_, if_pos hFree⟩
      have hNext : (dispatcherMachine x).next s (.respond w m rIdx) = some { s with
          outstanding := s.outstanding.erase (w, m)
          arrivals := Function.update s.arrivals w (s.arrivals w ++ [m])
          srq := q
          respBuffer := Function.update s.respBuffer rIdx ⟨m.rdmaPtr, m.id, 1⟩
          owner := Function.update s.owner rIdx w } := by
        simp only [dispatcherMachine, respond, if_pos hMem, hPoll, hArrive, Option.map_some]
      exact .step hNext (hLeft rfl rfl rfl rfl rfl rfl)
  | buf | rq =>
      have hNext : (dispatcherMachine x).next s (.respond w m 0) = some { s with
          outstanding := s.outstanding.erase (w, m)
          arrivals := Function.update s.arrivals w (s.arrivals w ++ [m])
          respBuffer :=
            Function.update s.respBuffer (x.slotOf m.rdmaPtr) ⟨m.rdmaPtr, m.id, 1⟩ } := by
        simp only [dispatcherMachine, respond, if_pos hMem, hPoll]
      exact .step hNext (hLeft rfl rfl rfl rfl rfl rfl)

/-- A response that has landed is for the dispatcher to find. -/
theorem work_of_landed (hPoll : x.poll ≠ .rq) (hControl : s.control = .head) {w : Nat}
    (hW : w < x.localSender) (hLanded : landed x s w = 1) : Work x s := by
  cases hKind : x.poll with
  | rq => exact absurd hKind hPoll
  | srq =>
      refine .inr (.inl ⟨hKind, fun hNone => ?_⟩)
      simp [landed, hKind, hNone, hControl, Control.batch] at hLanded
  | buf =>
      refine .inr (.inr ⟨hKind, w, hW, ?_⟩)
      by_contra hFlag
      simp [landed, hKind, hFlag, hControl, Control.batch] at hLanded

/-- At the head of the loop somebody has something to do, until all are through. -/
theorem head_advances (h : (dispatcherMachine x).Reachable s) (hPoll : x.poll ≠ .rq)
    (hControl : s.control = .head) : Advances x s := by
  have hConsistent := reachable_consistent h
  have hEnding := reachable_ending h
  cases hRunning : s.running with
  | false =>
      have hNext : (dispatcherMachine x).next s .dispatcher =
          some { s with control := .stopped } := by
        simp only [dispatcherMachine, dispatcherStep, hControl, hRunning, Bool.false_eq_true,
          if_false]
      refine .step hNext ?_
      have hWorkers : workerLeft x { s with control := .stopped } = workerLeft x s := rfl
      rw [State.left, State.left, hWorkers, hControl]
      simp
  | true =>
      by_cases hThrough : ∀ w < x.localSender, s.worker w = .fill (x.requests w) 0
      · have hNext : (dispatcherMachine x).next s .stop = some { s with running := false } :=
          if_pos hThrough
        refine .step hNext ?_
        have hWorkers : workerLeft x { s with running := false } = workerLeft x s := rfl
        rw [State.left, State.left, hWorkers, hRunning]
        simp
      · push Not at hThrough
        obtain ⟨w, hW, hGoing⟩ := hThrough
        cases hWorker : s.worker w with
        | fill i stores =>
            have hRequest : i < x.requests w := by
              have hWithin : i ≤ x.requests w := by
                have hIssued := hConsistent.within w
                rwa [hWorker] at hIssued
              rcases hEnding.whole hWorker with hMore | rfl
              · exact hMore
              · refine Nat.lt_of_le_of_ne hWithin fun hSame => hGoing ?_
                rw [hWorker, hSame]
            exact fill_advances hConsistent hW hWorker hRequest
        | signal i =>
            by_cases hReceived : s.received w = 1
            · exact wake_advances hConsistent hW hWorker hReceived
            · have hStage : s.control.stage w = .none := by rw [hControl]; rfl
              rcases (hConsistent.phases w hW).waiting hWorker hReceived hStage with
                ⟨hType, hTransfered⟩ | hOutstanding | hLanded
              · exact round_advances hConsistent hControl hRunning (.inl ⟨w, hW, hType, hTransfered⟩)
              · have hMem : x.request w i ∈ logOf s.outstanding w := by
                  rw [show logOf s.outstanding w = [x.request w i] from hOutstanding]
                  exact List.mem_singleton_self _
                exact respond_advances hConsistent (mem_logOf.mp hMem)
              · exact round_advances hConsistent hControl hRunning
                  (work_of_landed hPoll hControl hW hLanded)

/-- Nothing is left open when the dispatcher has stopped. -/
theorem complete_of_stopped (h : (dispatcherMachine x).Reachable s)
    (hStopped : s.control = .stopped) : Complete x s := by
  have hConsistent := reachable_consistent h
  have hEnding := reachable_ending h
  have hThrough := hEnding.ended (hEnding.stopped hStopped)
  refine ⟨hStopped, ?_, fun w hW => ⟨hThrough w hW, ?_⟩⟩
  · apply List.eq_nil_iff_forall_not_mem.mpr
    rintro ⟨w, m⟩ hMem
    have hW := hConsistent.workers (w, m) hMem
    have hNone : logOf s.outstanding w = [] :=
      ((hConsistent.phases w hW).through (hThrough w hW)).1
    exact List.not_mem_nil (hNone ▸ mem_logOf.mpr hMem)
  · exact ((hConsistent.phases w hW).through (hThrough w hW)).2

/-- Wherever the run is, somebody can get further: if no worker can, a request, a
response or an acknowledgement is with the dispatcher, and otherwise all are through and
it can be stopped. -/
theorem advances_or_complete (h : (dispatcherMachine x).Reachable s) (hPoll : x.poll ≠ .rq)
    (hGoal : ¬ Complete x s) : Advances x s := by
  have hGoing : s.control ≠ .stopped := fun hStopped => hGoal (complete_of_stopped h hStopped)
  rcases to_head h hGoing with hAdvances | ⟨t, hLeads, hSame, hHead⟩
  · exact hAdvances
  · obtain ⟨u, hRest, hLess⟩ := head_advances (hLeads.reachable h) hPoll hHead
    exact ⟨u, hLeads.trans hRest, hSame ▸ hLess⟩

end Progress

/-- From every state of every run some steps lead to the end: all workers are through
with all their requests, each transferred, answered and acknowledged, and the
dispatcher has returned. It looks in memory or at the shared receive queue. -/
theorem dispatcher_completes {x : Setup} {s : State} (h : (dispatcherMachine x).Reachable s)
    (hPoll : x.poll ≠ .rq) : ∃ t, (dispatcherMachine x).Leads s t ∧ Complete x t :=
  Machine.leads_to_goal (State.left x)
    (fun _ hReachable hGoal => advances_or_complete hReachable hPoll hGoal) h

/-- Three workers with two requests each, in the middle of their first ones. -/
def threeWorkers : Setup where
  poll := .srq
  localSender := 3
  requests _ := 2
  rand worker i := worker + i
  recvIds worker := [⟨1, worker * sizeofMessageBase, worker * 4, worker * 4 + 3⟩]
  sharedNodeId := 2
  respBase := 64
  sizeofResponse := 32
  sizeofResponse_pos := by decide
  recvIds_ne_nil _ _ := List.cons_ne_nil _ _
  range_pos worker _ info hInfo := by
    obtain rfl := List.mem_singleton.mp hInfo
    rw [sizeT_add_sub (by decide)]
    decide

def threeWorkersRun : List Operation :=
  List.replicate 7 (.worker 2) ++ List.replicate 5 .dispatcher ++ List.replicate 7 (.worker 0) ++
    [.dispatcher, .worker 1, .respond 2 (threeWorkers.request 2 0) 1]

def threeWorkersState : State :=
  ((dispatcherMachine threeWorkers).replay {} threeWorkersRun).get (by decide +kernel)

/-- The third worker is served first, and the run can be completed from there. -/
theorem dispatcher_completes_three :
    ∃ t, (dispatcherMachine threeWorkers).Leads threeWorkersState t ∧ Complete threeWorkers t := by
  have hReachable : (dispatcherMachine threeWorkers).Reachable threeWorkersState :=
    Machine.reachable_of_replay threeWorkersRun (Option.some_get _).symm
  exact dispatcher_completes hReachable (by decide)

end BenchmarkDispatcher
