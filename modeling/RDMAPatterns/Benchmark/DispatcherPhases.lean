import RDMAPatterns.Benchmark.Dispatcher
import RDMAPatterns.Channels.Logs

/-! The phases that a worker's request goes through. Each step of any party moves
at most one worker to its next phase. -/
namespace BenchmarkDispatcher

open Benchmark Channels Transition Verbs

/-- What the dispatcher is doing with the worker it acknowledges. -/
inductive Stage where
  | none
  | clearing
  | signaling
deriving DecidableEq, Repr

namespace Control

def stage (w : Nat) : Control → Stage
  | .clearType workerId _ _ => if workerId = w then .clearing else .none
  | .signal workerId _ _ => if workerId = w then .signaling else .none
  | _ => .none

/-- The indices that are still to be processed. -/
def batch : Control → List Nat
  | .process batch => batch
  | .clearType _ _ rest | .signal _ _ rest | .finalize _ rest => rest
  | _ => []

/-- The index being processed. -/
def current : Control → List Nat
  | .clearType _ rIdx _ | .signal _ rIdx _ | .finalize rIdx _ => [rIdx]
  | _ => []

end Control

/-- The worker whose response is in a slot. -/
def ownerOf (x : Setup) (owner : Nat → Nat) (rIdx : Nat) : Nat :=
  match x.poll with
  | .srq => owner rIdx
  | _ => rIdx

/-- The responses for a worker that have arrived and are not processed. -/
def landed (x : Setup) (s : State) (w : Nat) : Nat :=
  (match x.poll with
    | .srq => (s.srq.completed.map fun entry => s.owner entry.2).count w
    | _ => if (s.respBuffer w).transferFlag = 1 then 1 else 0) +
  (s.control.batch.map (ownerOf x s.owner)).count w

/-- All that concerns one worker. -/
structure View where
  worker : Worker
  slot : MessageBase
  transfered : Bool
  received : Nat
  transfers : List MessageBase
  arrivals : List MessageBase
  acknowledgements : Nat
  outstanding : List MessageBase
  landed : Nat
  stage : Stage

def State.view (x : Setup) (s : State) (w : Nat) : View where
  worker := s.worker w
  slot := s.reqBuffer w
  transfered := s.transfered w
  received := s.received w
  transfers := s.transfers w
  arrivals := s.arrivals w
  acknowledgements := s.acknowledgements w
  outstanding := logOf s.outstanding w
  landed := landed x s w
  stage := s.control.stage w

/-- The phases of request `i`, in their order. -/
inductive Phase (x : Setup) (w : Nat) : View → Prop where
  | filling (i stores : Nat) (old : MessageBase) (hStores : stores ≤ 6)
      (hOld : old.type = .empty) :
      Phase x w ⟨.fill i stores, x.stored w i old stores, false, 0,
        x.issued w i, x.issued w i, i, [], 0, .none⟩
  | issued (i : Nat) :
      Phase x w ⟨.signal i, x.request w i, false, 0,
        x.issued w i, x.issued w i, i, [], 0, .none⟩
  | transferred (i : Nat) :
      Phase x w ⟨.signal i, x.request w i, true, 0,
        x.issued w (i + 1), x.issued w i, i, [x.request w i], 0, .none⟩
  | arrived (i : Nat) :
      Phase x w ⟨.signal i, x.request w i, true, 0,
        x.issued w (i + 1), x.issued w (i + 1), i, [], 1, .none⟩
  | clearing (i : Nat) :
      Phase x w ⟨.signal i, x.request w i, false, 0,
        x.issued w (i + 1), x.issued w (i + 1), i, [], 0, .clearing⟩
  | signaling (i : Nat) :
      Phase x w ⟨.signal i, (x.request w i).cleared, false, 0,
        x.issued w (i + 1), x.issued w (i + 1), i, [], 0, .signaling⟩
  | acknowledged (i : Nat) :
      Phase x w ⟨.signal i, (x.request w i).cleared, false, 1,
        x.issued w (i + 1), x.issued w (i + 1), i + 1, [], 0, .none⟩

section Requests

variable {x : Setup}

theorem issued_succ (w n : Nat) : x.issued w (n + 1) = x.issued w n ++ [x.request w n] := by
  rw [Setup.issued, List.range_succ, List.map_append]
  rfl

theorem stored_type (w i : Nat) (m : MessageBase) {stores : Nat} (hStores : stores ≤ 6) :
    (x.stored w i m stores).type = m.type := by
  induction stores with
  | zero => rfl
  | succ n ih =>
      rw [← ih (by omega), Setup.stored]
      match n, hStores with
      | 0, _ | 1, _ | 2, _ | 3, _ | 4, _ | 5, _ => rfl

/-- All stores together leave nothing of the old content. -/
theorem stored_all (w i : Nat) (m : MessageBase) : x.stored w i m 7 = x.request w i := rfl

end Requests

namespace Phase

variable {x : Setup} {w : Nat} {v : View}

/-- A store of the worker. The last one issues the request. -/
theorem store (h : Phase x w v) {i stores : Nat} (hWorker : v.worker = .fill i stores) :
    Phase x w { v with
      worker := if stores = 6 then .signal i else .fill i (stores + 1)
      slot := x.store w i v.slot stores } := by
  cases h with
  | filling i' stores' old hStores hOld =>
      obtain ⟨rfl, rfl⟩ := Worker.fill.inj hWorker
      by_cases hLast : stores' = 6
      · subst hLast
        have hNew := Phase.issued (x := x) (w := w) i'
        rw [← stored_all w i' old] at hNew
        exact hNew
      · rw [if_neg hLast]
        exact .filling i' (stores' + 1) old (by omega) hOld
  | _ => cases hWorker

/-- A slot that is being filled has no type yet. -/
theorem type_of_fill (h : Phase x w v) {i stores : Nat} (hWorker : v.worker = .fill i stores) :
    v.slot.type = .empty := by
  cases h with
  | filling i' stores' old hStores hOld => exact (stored_type w i' old hStores).trans hOld
  | _ => cases hWorker

/-- The worker finds its mailbox full. -/
theorem wake (h : Phase x w v) {i : Nat} (hWorker : v.worker = .signal i)
    (hReceived : v.received = 1) :
    Phase x w { v with worker := .fill (i + 1) 0, received := 0 } := by
  cases h with
  | acknowledged i' =>
      obtain rfl := Worker.signal.inj hWorker
      exact .filling (i' + 1) 0 (x.request w i').cleared (Nat.zero_le 6) rfl
  | filling => cases hWorker
  | _ => cases hReceived

/-- The dispatcher transfers a filled slot. -/
theorem transfer (h : Phase x w v) (hStage : v.stage = .none) (hType : v.slot.type ≠ .empty)
    (hTransfered : v.transfered = false) :
    Phase x w { v with
      transfered := true
      transfers := v.transfers ++ [v.slot]
      outstanding := v.outstanding ++ [v.slot] } := by
  cases h with
  | issued i =>
      have hNew := Phase.transferred (x := x) (w := w) i
      rw [issued_succ] at hNew
      exact hNew
  | filling i stores old hStores hOld =>
      exact absurd ((stored_type w i old hStores).trans hOld) hType
  | transferred | arrived => cases hTransfered
  | clearing | signaling => cases hStage
  | acknowledged => exact absurd rfl hType

/-- The response to an outstanding request arrives. It is for the request in the
slot of the worker, and nothing else is outstanding. -/
theorem arrive (h : Phase x w v) {m : MessageBase} (hMem : m ∈ v.outstanding) :
    m.rdmaPtr = x.offsetForSharedArea w ∧ v.landed = 0 ∧
      Phase x w { v with
        outstanding := v.outstanding.erase m
        arrivals := v.arrivals ++ [m]
        landed := v.landed + 1 } := by
  cases h with
  | transferred i =>
      obtain rfl := List.mem_singleton.mp hMem
      refine ⟨rfl, rfl, ?_⟩
      have hNew := Phase.arrived (x := x) (w := w) i
      rw [issued_succ] at hNew ⊢
      simpa using hNew
  | _ => cases hMem

/-- The dispatcher takes up a response. -/
theorem take (h : Phase x w v) (hLanded : v.landed ≠ 0) :
    v.transfered = true ∧
      Phase x w { v with transfered := false, landed := v.landed - 1, stage := .clearing } := by
  cases h with
  | arrived i => exact ⟨rfl, .clearing i⟩
  | _ => exact absurd rfl hLanded

theorem clear (h : Phase x w v) (hStage : v.stage = .clearing) :
    Phase x w { v with slot := v.slot.cleared, stage := .signaling } := by
  cases h with
  | clearing i => exact .signaling i
  | _ => cases hStage

/-- The dispatcher finds the mailbox empty. -/
theorem acknowledge (h : Phase x w v) (hStage : v.stage = .signaling) :
    v.received = 0 ∧ v.outstanding = [] ∧ v.landed = 0 ∧
      Phase x w { v with
        received := 1, acknowledgements := v.acknowledgements + 1, stage := .none } := by
  cases h with
  | signaling i => exact ⟨rfl, rfl, rfl, .acknowledged i⟩
  | _ => cases hStage

/-- A worker has at most one request or response under way. -/
theorem under_way (h : Phase x w v) :
    v.outstanding.length + v.landed ≤ if v.stage = .none then 1 else 0 := by
  cases h with
  | _ => simp

end Phase

end BenchmarkDispatcher
