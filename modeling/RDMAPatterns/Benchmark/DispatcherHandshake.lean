import Mathlib.Data.List.Nodup
import RDMAPatterns.Benchmark.DispatcherPhases

/-! The handshake between workers and dispatcher along whole runs. -/
namespace BenchmarkDispatcher

open Benchmark Channels Transition Verbs

/-- What the dispatcher has found out on the way to this point. -/
def Placed (x : Setup) (s : State) : Prop :=
  match s.control with
  | .transfer reqId => reqId < x.localSender ∧ (s.reqBuffer reqId).type ≠ .empty ∧
      s.transfered reqId = false
  | .clearFlag respId => respId < x.localSender ∧ (s.respBuffer respId).transferFlag = 1 ∧
      x.poll ≠ .srq
  | .clearType w rIdx _ | .signal w rIdx _ => w = ownerOf x s.owner rIdx
  | .finalize rIdx _ => logOf s.outstanding (ownerOf x s.owner rIdx) = [] ∧
      landed x s (ownerOf x s.owner rIdx) = 0
  | .start => s.srq = {} ∧ s.outstanding = []
  | .look _ => x.poll ≠ .srq
  | .pollSRQ _ => x.poll = .srq
  | _ => True

/-- The response slots of a shared receive queue are posted, completed, or in the
hands of the dispatcher. -/
def slots (s : State) : List Nat := s.control.current ++ s.control.batch ++ s.srq.held

/-- Every worker is in a phase, and every response slot is in one place and answers
the worker that owns it. -/
structure Consistent (x : Setup) (s : State) : Prop where
  phases : ∀ w < x.localSender, Phase x w (s.view x w)
  workers : ∀ entry ∈ s.outstanding, entry.1 < x.localSender
  owners : ∀ rIdx ∈ s.control.current ++ s.control.batch ++ s.srq.completed.map Prod.snd,
    ownerOf x s.owner rIdx < x.localSender ∧ workerOf x s.respBuffer rIdx = ownerOf x s.owner rIdx
  placed : Placed x s
  slots : x.poll = .srq → s.control ≠ .start →
    (slots s).Nodup ∧ (slots s).length = x.localSender
  clean : s.notTransfered = 0 ∧ s.retries = 0
  within : ∀ w, (s.worker w).issued ≤ x.requests w

/-- Between the requests of a scan, and between batches. -/
def Control.Free : Control → Prop
  | .head | .scan _ | .transfer _ | .look _ | .clearFlag _ | .pollSRQ _ | .process [] |
    .stopped => True
  | _ => False

/-- Between its rounds the dispatcher holds no request and no batch. -/
theorem Control.Free.idle {control : Control} (h : control.Free) :
    control.current = [] ∧ control.batch = [] ∧ (∀ w, control.stage w = .none) ∧
      control ≠ .start := by
  unfold Control.Free at h
  split at h
  case h_9 => exact h.elim
  all_goals exact ⟨rfl, rfl, fun _ => rfl, nofun⟩

section Moves

variable {x : Setup} {s t : State}

/-- Nothing is issued, outstanding or signalled at the start. -/
theorem init_consistent (x : Setup) : Consistent x {} where
  phases w _ := by
    have hLanded : landed x {} w = 0 := by
      cases hPoll : x.poll with
      | _ => simp [landed, hPoll, Control.batch]
    have hView : State.view x {} w =
        ⟨.fill 0 0, x.stored w 0 {} 0, false, 0, x.issued w 0, x.issued w 0, 0, [], 0, .none⟩ := by
      rw [State.view, hLanded]
      rfl
    rw [hView]
    exact .filling 0 0 {} (Nat.zero_le 6) rfl
  workers _ hEntry := by cases hEntry
  owners _ hIdx := by simp [Control.current, Control.batch] at hIdx
  placed := ⟨rfl, rfl⟩
  slots _ hStart := absurd rfl hStart
  clean := ⟨rfl, rfl⟩
  within _ := Nat.zero_le _

/-- A step that concerns one worker leaves the others in their phases. -/
theorem Consistent.phases_of_others (h : Consistent x s) (w : Nat)
    (hNew : w < x.localSender → Phase x w (t.view x w))
    (hOthers : ∀ other, other ≠ w → t.view x other = s.view x other) :
    ∀ other < x.localSender, Phase x other (t.view x other) := by
  intro other hOther
  by_cases hSame : other = w
  · subst hSame
    exact hNew hOther
  · rw [hOthers other hSame]
    exact h.phases other hOther

/-- What is known of the slots holds as long as they stay where they are. -/
theorem Consistent.sameSlots (h : Consistent x s) (hStart : s.control ≠ .start) {control : Control}
    (hHands : control.current ++ control.batch = s.control.current ++ s.control.batch) :
    (∀ rIdx ∈ control.current ++ control.batch ++ s.srq.completed.map Prod.snd,
      ownerOf x s.owner rIdx < x.localSender ∧
        workerOf x s.respBuffer rIdx = ownerOf x s.owner rIdx) ∧
    (x.poll = .srq → (control.current ++ control.batch ++ s.srq.held).Nodup ∧
      (control.current ++ control.batch ++ s.srq.held).length = x.localSender) := by
  rw [hHands]
  exact ⟨h.owners, fun hPoll => h.slots hPoll hStart⟩

/-- A step that only moves on keeps everything, if what it found out is true. -/
theorem Consistent.move (h : Consistent x s) (hFree : s.control.Free) {control : Control}
    (hNew : control.Free) (hPlaced : Placed x { s with control }) :
    Consistent x { s with control } := by
  obtain ⟨hCurrent, hBatch, hStage, hStart⟩ := hFree.idle
  obtain ⟨hCurrent', hBatch', hStage', _⟩ := hNew.idle
  have hHands : control.current ++ control.batch = s.control.current ++ s.control.batch := by
    rw [hCurrent, hBatch, hCurrent', hBatch']
  have hSlots := h.sameSlots hStart hHands
  constructor
  · intro w hW
    have hView : State.view x { s with control } w = s.view x w := by
      simp [State.view, landed, hBatch, hBatch', hStage, hStage']
    rw [hView]
    exact h.phases w hW
  · exact h.workers
  · exact hSlots.1
  · exact hPlaced
  · exact fun hPoll _ => hSlots.2 hPoll
  · exact h.clean
  · exact h.within

/-- A store into the slot only shows with the last one, which sets the type. -/
theorem Consistent.store (h : Consistent x s) {w i stores : Nat} (hW : w < x.localSender)
    (hWorker : s.worker w = .fill i stores) (hRequest : i < x.requests w) :
    Consistent x { s with
      reqBuffer := Function.update s.reqBuffer w (x.store w i (s.reqBuffer w) stores)
      worker := Function.update s.worker w
        (if stores = 6 then .signal i else .fill i (stores + 1)) } := by
  constructor
  · refine h.phases_of_others w (fun _ => ?_) fun other hNe => ?_
    · have hNew := (h.phases w hW).store hWorker
      simpa [State.view, landed, ownerOf] using hNew
    · simp [State.view, landed, Function.update_of_ne hNe]
  · exact h.workers
  · exact h.owners
  · have hPlaced := h.placed
    cases hControl : s.control with
    | transfer reqId =>
        simp only [Placed, hControl] at hPlaced ⊢
        obtain ⟨hReqId, hType, hTransfered⟩ := hPlaced
        have hSame : reqId ≠ w := by
          intro hEq
          rw [hEq] at hType
          exact hType ((h.phases w hW).type_of_fill hWorker)
        rw [Function.update_of_ne hSame]
        exact ⟨hReqId, hType, hTransfered⟩
    | head | scan | process | stopped => simp only [Placed]
    | start | look | pollSRQ | clearFlag | clearType | signal | finalize =>
        simpa [Placed, hControl, landed] using hPlaced
  · exact h.slots
  · exact h.clean
  · intro other
    by_cases hSame : other = w
    · subst hSame
      simp only [Function.update_self]
      split
      case isTrue => exact hRequest
      case isFalse => exact Nat.le_of_lt hRequest
    · simpa [Function.update_of_ne hSame] using h.within other

/-- A worker that finds its mailbox set empties it and goes on. -/
theorem Consistent.wake (h : Consistent x s) {w i : Nat} (hWorker : s.worker w = .signal i)
    (hReceived : s.received w = 1) :
    Consistent x { s with
      received := Function.update s.received w 0
      worker := Function.update s.worker w (.fill (i + 1) 0) } := by
  constructor
  · refine h.phases_of_others w (fun hW => ?_) fun other hNe => ?_
    · have hNew := (h.phases w hW).wake hWorker hReceived
      simpa [State.view, landed, ownerOf] using hNew
    · simp [State.view, landed, Function.update_of_ne hNe]
  · exact h.workers
  · exact h.owners
  · exact h.placed
  · exact h.slots
  · exact h.clean
  · intro other
    by_cases hSame : other = w
    · subst hSame
      have hOld := h.within other
      rw [hWorker] at hOld
      simp only [Function.update_self]
      exact hOld
    · simpa [Function.update_of_ne hSame] using h.within other

/-- Every step of a worker keeps the handshake in order. -/
theorem Consistent.worker (h : Consistent x s) {w : Nat} (hW : w < x.localSender)
    (hNext : workerStep x s w = some t) : Consistent x t := by
  rw [workerStep] at hNext
  split at hNext
  case h_1 i stores hWorker =>
    rw [Option.ite_none_right_eq_some] at hNext
    obtain ⟨hRequest, hNext⟩ := hNext
    obtain rfl := Option.some.inj hNext
    exact h.store hW hWorker hRequest
  case h_2 i hWorker =>
    split at hNext
    case isTrue hReceived =>
      obtain rfl := Option.some.inj hNext
      exact h.wake hWorker hReceived
    case isFalse =>
      obtain rfl := Option.some.inj hNext
      exact h

/-- A request that is transferred becomes outstanding. Its slot is not taken up again
until it is answered. -/
theorem Consistent.transfer (h : Consistent x s) {reqId : Nat}
    (hControl : s.control = .transfer reqId) :
    Consistent x { s with
      outstanding := s.outstanding ++ [(reqId, s.reqBuffer reqId)]
      transfers := Function.update s.transfers reqId (s.transfers reqId ++ [s.reqBuffer reqId])
      reqDispatched := s.reqDispatched + 1
      transfered := Function.update s.transfered reqId true
      control := .scan (reqId + 1) } := by
  have hPlaced := h.placed
  simp only [Placed, hControl] at hPlaced
  obtain ⟨hReqId, hType, hTransfered⟩ := hPlaced
  have hStart : s.control ≠ .start := by simp [hControl]
  have hHands : (Control.scan (reqId + 1)).current ++ (Control.scan (reqId + 1)).batch =
      s.control.current ++ s.control.batch := by
    rw [hControl]
    rfl
  constructor
  · refine h.phases_of_others reqId (fun _ => ?_) fun other hNe => ?_
    · have hNew := (h.phases reqId hReqId).transfer
        (by simp [State.view, hControl, Control.stage]) hType hTransfered
      simpa [State.view, landed, hControl, Control.batch, Control.stage, logOf_append,
        logOf_singleton, ownerOf] using hNew
    · simp [State.view, landed, hControl, Control.batch, Control.stage, logOf_append,
        logOf_singleton, Function.update_of_ne hNe, Ne.symm hNe]
  · intro entry hEntry
    rcases List.mem_append.mp hEntry with hOld | hNew
    · exact h.workers entry hOld
    · obtain rfl := List.mem_singleton.mp hNew
      exact hReqId
  · exact (h.sameSlots hStart hHands).1
  · trivial
  · exact fun hPoll _ => (h.sameSlots hStart hHands).2 hPoll
  · exact h.clean
  · exact h.within

/-- A response that is noticed in memory is not noticed a second time. -/
theorem Consistent.clearFlag (h : Consistent x s) {respId : Nat}
    (hControl : s.control = .clearFlag respId) :
    Consistent x { s with
      respBuffer := Function.update s.respBuffer respId
        { s.respBuffer respId with transferFlag := 0 }
      control := .process [respId] } := by
  have hPlaced := h.placed
  simp only [Placed, hControl] at hPlaced
  obtain ⟨hRespId, hFlag, hPoll⟩ := hPlaced
  have hOwner : ∀ owner respBuffer rIdx,
      ownerOf x owner rIdx = rIdx ∧ workerOf x respBuffer rIdx = rIdx := by
    intro owner respBuffer rIdx
    cases hP : x.poll with
    | srq => exact absurd hP hPoll
    | buf | rq => simp [ownerOf, workerOf, hP]
  have hLanded : ∀ w, landed x { s with
      respBuffer := Function.update s.respBuffer respId
        { s.respBuffer respId with transferFlag := 0 }
      control := .process [respId] } w = landed x s w := by
    intro w
    cases hP : x.poll with
    | srq => exact absurd hP hPoll
    | buf | rq =>
        by_cases hSame : w = respId
        · simp [landed, hP, ownerOf, Control.batch, hControl, hSame, hFlag]
        · simp [landed, hP, ownerOf, Control.batch, hControl, Function.update_of_ne hSame,
            Ne.symm hSame]
  constructor
  · intro w hW
    have hOld := h.phases w hW
    simpa [State.view, hLanded, hControl, Control.stage] using hOld
  · exact h.workers
  · intro rIdx hIdx
    rw [(hOwner _ s.respBuffer rIdx).1, (hOwner s.owner _ rIdx).2]
    refine ⟨?_, rfl⟩
    simp only [Control.current, Control.batch, List.nil_append, List.cons_append,
      List.mem_cons] at hIdx
    rcases hIdx with rfl | hCompleted
    · exact hRespId
    · have hOld := (h.owners rIdx (List.mem_append_right _ hCompleted)).1
      rwa [(hOwner s.owner s.respBuffer rIdx).1] at hOld
  · trivial
  · exact fun hSrq => absurd hSrq hPoll
  · exact h.clean
  · exact h.within

/-- The completions that are taken are the batch to be processed. -/
theorem Consistent.pollSRQ (h : Consistent x s) (limit : Nat) {failedPolls : Nat}
    (hControl : s.control = .pollSRQ failedPolls) (hPoll : x.poll = .srq) :
    Consistent x { s with
      srq := (s.srq.pollBatch limit).2
      control := .process ((s.srq.pollBatch limit).1.map Prod.snd) } := by
  have hCompleted := s.srq.pollBatch_completed limit
  constructor
  · intro w hW
    have hLanded : landed x { s with
        srq := (s.srq.pollBatch limit).2
        control := .process ((s.srq.pollBatch limit).1.map Prod.snd) } w = landed x s w := by
      have hOwner : ownerOf x s.owner = s.owner := by
        funext rIdx
        simp [ownerOf, hPoll]
      have hCount := congrArg
        (fun entries => (entries.map fun entry => s.owner entry.2).count w) hCompleted
      rw [List.map_append, List.count_append] at hCount
      simp only [landed, hPoll, hControl, Control.batch, hOwner, List.map_map, Function.comp_def,
        List.map_nil, List.count_nil]
      omega
    have hOld := h.phases w hW
    simpa [State.view, hLanded, hControl, Control.stage] using hOld
  · exact h.workers
  · intro rIdx hIdx
    apply h.owners rIdx
    rw [hControl, hCompleted, List.map_append]
    exact hIdx
  · trivial
  · intro _ _
    have hSlots := h.slots hPoll (by rw [hControl]; simp)
    have hPerm := s.srq.held_pollBatch limit
    simp only [BenchmarkDispatcher.slots, hControl, Control.current, Control.batch,
      List.nil_append] at hSlots ⊢
    exact ⟨hPerm.nodup_iff.mp hSlots.1, hPerm.length_eq ▸ hSlots.2⟩
  · exact h.clean
  · exact h.within

/-- A response that the dispatcher takes up belongs to a worker that waits for it. -/
theorem Consistent.take (h : Consistent x s) {rIdx : Nat} {rest : List Nat}
    (hControl : s.control = .process (rIdx :: rest)) :
    s.transfered (workerOf x s.respBuffer rIdx) = true ∧
    Consistent x { s with
      msgReceived := s.msgReceived + 1
      transfered := Function.update s.transfered (workerOf x s.respBuffer rIdx) false
      control := .clearType (workerOf x s.respBuffer rIdx) rIdx rest } := by
  obtain ⟨hOwner, hWorkerOf⟩ := h.owners rIdx (by simp [hControl, Control.batch])
  rw [hWorkerOf]
  have hLanded : ∀ w, landed x s w = landed x { s with
      msgReceived := s.msgReceived + 1
      transfered := Function.update s.transfered (ownerOf x s.owner rIdx) false
      control := .clearType (ownerOf x s.owner rIdx) rIdx rest } w +
        if ownerOf x s.owner rIdx = w then 1 else 0 := by
    intro w
    simp only [landed, hControl, Control.batch, List.map_cons, List.count_cons, beq_iff_eq]
    omega
  have hOwn := hLanded (ownerOf x s.owner rIdx)
  rw [if_pos rfl] at hOwn
  obtain ⟨hTransfered, hNew⟩ :=
    (h.phases _ hOwner).take (by show landed x s (ownerOf x s.owner rIdx) ≠ 0; omega)
  refine ⟨hTransfered, ?_⟩
  have hStart : s.control ≠ .start := by simp [hControl]
  have hHands : (Control.clearType (ownerOf x s.owner rIdx) rIdx rest).current ++
      (Control.clearType (ownerOf x s.owner rIdx) rIdx rest).batch =
        s.control.current ++ s.control.batch := by
    rw [hControl]
    rfl
  constructor
  · refine h.phases_of_others (ownerOf x s.owner rIdx) (fun _ => ?_) fun other hNe => ?_
    · simpa [State.view, hOwn, Control.stage] using hNew
    · have hOther := hLanded other
      rw [if_neg (Ne.symm hNe), Nat.add_zero] at hOther
      simp [State.view, hOther, hControl, Control.stage, Function.update_of_ne hNe, Ne.symm hNe]
  · exact h.workers
  · exact (h.sameSlots hStart hHands).1
  · rfl
  · exact fun hPoll _ => (h.sameSlots hStart hHands).2 hPoll
  · exact h.clean
  · exact h.within

/-- The slot is empty before the worker is signalled, so the worker can fill it at once. -/
theorem Consistent.clearType (h : Consistent x s) {w rIdx : Nat} {rest : List Nat}
    (hControl : s.control = .clearType w rIdx rest) :
    Consistent x { s with
      reqBuffer := Function.update s.reqBuffer w (s.reqBuffer w).cleared
      control := .signal w rIdx rest } := by
  have hPlaced := h.placed
  simp only [Placed, hControl] at hPlaced
  have hStart : s.control ≠ .start := by simp [hControl]
  have hHands : (Control.signal w rIdx rest).current ++ (Control.signal w rIdx rest).batch =
      s.control.current ++ s.control.batch := by
    rw [hControl]
    rfl
  constructor
  · refine h.phases_of_others w (fun hW => ?_) fun other hNe => ?_
    · have hNew := (h.phases w hW).clear (by simp [State.view, hControl, Control.stage])
      simpa [State.view, landed, hControl, Control.batch, Control.stage] using hNew
    · simp [State.view, landed, hControl, Control.batch, Control.stage,
        Function.update_of_ne hNe, Ne.symm hNe]
  · exact h.workers
  · exact (h.sameSlots hStart hHands).1
  · exact hPlaced
  · exact fun hPoll _ => (h.sameSlots hStart hHands).2 hPoll
  · exact h.clean
  · exact h.within

/-- The mailbox of a worker is empty when the dispatcher signals it. -/
theorem Consistent.signal (h : Consistent x s) {w rIdx : Nat} {rest : List Nat}
    (hControl : s.control = .signal w rIdx rest) :
    s.received w = 0 ∧
    Consistent x { s with
      received := Function.update s.received w 1
      acknowledgements := Function.update s.acknowledgements w (s.acknowledgements w + 1)
      control := .finalize rIdx rest } := by
  have hPlaced := h.placed
  simp only [Placed, hControl] at hPlaced
  have hW : w < x.localSender := by
    rw [hPlaced]
    exact (h.owners rIdx (by simp [hControl, Control.current])).1
  obtain ⟨hReceived, hOutstanding, hLanded, hNew⟩ :=
    (h.phases w hW).acknowledge (by simp [State.view, hControl, Control.stage])
  refine ⟨hReceived, ?_⟩
  have hStart : s.control ≠ .start := by simp [hControl]
  have hHands : (Control.finalize rIdx rest).current ++ (Control.finalize rIdx rest).batch =
      s.control.current ++ s.control.batch := by
    rw [hControl]
    rfl
  constructor
  · refine h.phases_of_others w (fun _ => ?_) fun other hNe => ?_
    · simpa [State.view, landed, hControl, Control.batch, Control.stage] using hNew
    · simp [State.view, landed, hControl, Control.batch, Control.stage,
        Function.update_of_ne hNe, Ne.symm hNe]
  · exact h.workers
  · exact (h.sameSlots hStart hHands).1
  · show logOf s.outstanding (ownerOf x s.owner rIdx) = [] ∧ _ = 0
    rw [← hPlaced]
    refine ⟨hOutstanding, ?_⟩
    simpa [State.view, landed, hControl, Control.batch] using hLanded
  · exact fun hPoll _ => (h.sameSlots hStart hHands).2 hPoll
  · exact h.clean
  · exact h.within

/-- The slot of a processed response is posted again, or is just free again. -/
theorem Consistent.finalize (h : Consistent x s) {rIdx : Nat} {rest : List Nat}
    (hControl : s.control = .finalize rIdx rest) {q : SharedReceiveQueue}
    (hCompleted : q.completed = s.srq.completed)
    (hHeld : x.poll = .srq → q.held.Perm (rIdx :: s.srq.held)) :
    Consistent x { s with srq := q, control := .process rest } := by
  constructor
  · intro w hW
    have hOld := h.phases w hW
    simpa [State.view, landed, hCompleted, hControl, Control.batch, Control.stage] using hOld
  · exact h.workers
  · intro other hOther
    apply h.owners other
    rw [hControl]
    simp only [Control.current, Control.batch, hCompleted] at hOther ⊢
    exact List.mem_cons_of_mem _ hOther
  · trivial
  · intro hPoll _
    have hSlots := h.slots hPoll (by rw [hControl]; simp)
    have hPerm : (rest ++ q.held).Perm (rIdx :: (rest ++ s.srq.held)) :=
      ((hHeld hPoll).append_left rest).trans List.perm_middle
    simp only [BenchmarkDispatcher.slots, hControl, Control.current, Control.batch,
      List.nil_append, List.cons_append] at hSlots ⊢
    exact ⟨hPerm.nodup_iff.mpr hSlots.1, hPerm.length_eq.trans hSlots.2⟩
  · exact h.clean
  · exact h.within

/-- The receives are posted before the first request is transferred. -/
theorem Consistent.start (h : Consistent x s) (hControl : s.control = .start)
    {q : SharedReceiveQueue} (hCompleted : q.completed = [])
    (hPosted : x.poll = .srq → q.posted = List.range x.localSender) :
    Consistent x { s with srq := q, control := .head } := by
  have hPlaced := h.placed
  simp only [Placed, hControl] at hPlaced
  constructor
  · intro w hW
    have hOld := h.phases w hW
    simpa [State.view, landed, hPlaced.1, hCompleted, hControl, Control.batch, Control.stage]
      using hOld
  · exact h.workers
  · intro other hOther
    simp [Control.current, Control.batch, hCompleted] at hOther
  · trivial
  · intro hPoll _
    have hHeld : q.held = List.range x.localSender := by
      rw [SharedReceiveQueue.held, hPosted hPoll, hCompleted, List.map_nil, List.append_nil]
    simp only [BenchmarkDispatcher.slots, Control.current, Control.batch, List.nil_append, hHeld]
    exact ⟨List.nodup_range, List.length_range⟩
  · exact h.clean
  · exact h.within

end Moves

section Responses

variable {x : Setup} {s : State} {w rIdx : Nat} {m : MessageBase}

/-- A worker with an outstanding request is not the one just acknowledged. -/
theorem Consistent.outstanding_apart (h : Consistent x s) (hMem : (w, m) ∈ s.outstanding) :
    s.control ≠ .start ∧ ∀ other rest, s.control = .finalize other rest →
      ownerOf x s.owner other ≠ w := by
  have hPlaced := h.placed
  constructor
  · intro hControl
    simp only [Placed, hControl] at hPlaced
    rw [hPlaced.2] at hMem
    cases hMem
  · intro other rest hControl hSame
    simp only [Placed, hControl, hSame] at hPlaced
    have hOwn := mem_logOf.mpr hMem
    rw [hPlaced.1] at hOwn
    cases hOwn

/-- The phases after a response to `w` has landed. -/
theorem Consistent.respond_phases (h : Consistent x s) (hMem : (w, m) ∈ s.outstanding) {t : State}
    (hWorker : t.worker = s.worker) (hReq : t.reqBuffer = s.reqBuffer)
    (hTransfered : t.transfered = s.transfered) (hReceived : t.received = s.received)
    (hTransfers : t.transfers = s.transfers)
    (hArrivals : t.arrivals = Function.update s.arrivals w (s.arrivals w ++ [m]))
    (hAcks : t.acknowledgements = s.acknowledgements) (hControl : t.control = s.control)
    (hOutstanding : t.outstanding = s.outstanding.erase (w, m))
    (hLanded : ∀ other, landed x t other = landed x s other + if other = w then 1 else 0) :
    ∀ other < x.localSender, Phase x other (t.view x other) := by
  refine h.phases_of_others w (fun hW => ?_) fun other hNe => ?_
  · have hNew := ((h.phases w hW).arrive (mem_logOf.mpr hMem)).2.2
    simpa [State.view, hWorker, hReq, hTransfered, hReceived, hTransfers, hArrivals, hAcks,
      hControl, hOutstanding, hLanded, logOf_erase] using hNew
  · simp [State.view, hWorker, hReq, hTransfered, hReceived, hTransfers, hArrivals, hAcks,
      hControl, hOutstanding, hLanded, logOf_erase, hNe, Ne.symm hNe]

/-- A response is written into the slot of its worker. -/
theorem Consistent.respond_buf (h : Consistent x s) (hPoll : x.poll ≠ .srq)
    (hMem : (w, m) ∈ s.outstanding) :
    Consistent x { s with
      outstanding := s.outstanding.erase (w, m)
      arrivals := Function.update s.arrivals w (s.arrivals w ++ [m])
      respBuffer := Function.update s.respBuffer (x.slotOf m.rdmaPtr) ⟨m.rdmaPtr, m.id, 1⟩ } := by
  have hW := h.workers (w, m) hMem
  obtain ⟨hOffset, hNotLanded, _⟩ := (h.phases w hW).arrive (mem_logOf.mpr hMem)
  obtain ⟨hStart, hApart⟩ := h.outstanding_apart hMem
  have hSlot : x.slotOf m.rdmaPtr = w := by rw [hOffset, x.slotOf_offsetForSharedArea]
  have hLanded : ∀ other, landed x { s with
      outstanding := s.outstanding.erase (w, m)
      arrivals := Function.update s.arrivals w (s.arrivals w ++ [m])
      respBuffer := Function.update s.respBuffer (x.slotOf m.rdmaPtr) ⟨m.rdmaPtr, m.id, 1⟩ } other =
        landed x s other + if other = w then 1 else 0 := by
    intro other
    rw [hSlot]
    have hZero : landed x s w = 0 := hNotLanded
    cases hP : x.poll with
    | srq => exact absurd hP hPoll
    | buf | rq =>
        simp only [landed, hP] at hZero ⊢
        by_cases hSame : other = w
        · subst hSame
          simp only [Function.update_self, if_true]
          omega
        · simp only [Function.update_of_ne hSame, if_neg hSame, Nat.add_zero]
  constructor
  · exact h.respond_phases hMem rfl rfl rfl rfl rfl rfl rfl rfl rfl hLanded
  · exact fun entry hEntry => h.workers entry (List.mem_of_mem_erase hEntry)
  · intro other hOther
    obtain ⟨hOwner, hWorkerOf⟩ := h.owners other hOther
    refine ⟨hOwner, ?_⟩
    cases hP : x.poll with
    | srq => exact absurd hP hPoll
    | buf | rq => simp [workerOf, ownerOf, hP]
  · have hPlaced := h.placed
    cases hControl : s.control with
    | head | scan | process | stopped => simp only [Placed]
    | start => exact absurd hControl hStart
    | transfer | look | pollSRQ | clearType | signal => simpa [Placed, hControl] using hPlaced
    | clearFlag respId =>
        simp only [Placed, hControl] at hPlaced ⊢
        obtain ⟨hRespId, hFlag, hNot⟩ := hPlaced
        refine ⟨hRespId, ?_, hNot⟩
        by_cases hSame : respId = x.slotOf m.rdmaPtr
        · rw [hSame, Function.update_self]
        · rw [Function.update_of_ne hSame]
          exact hFlag
    | finalize other rest =>
        have hNe := hApart other rest hControl
        simp only [Placed, hControl] at hPlaced ⊢
        rw [← hControl]
        refine ⟨?_, ?_⟩
        · rw [logOf_erase, if_neg (Ne.symm hNe)]
          exact hPlaced.1
        · rw [hLanded, if_neg hNe]
          exact hPlaced.2
  · exact fun hSrq => absurd hSrq hPoll
  · exact h.clean
  · exact h.within

/-- A posted receive is in no other place. -/
theorem Consistent.posted_apart (h : Consistent x s) (hPoll : x.poll = .srq)
    (hStart : s.control ≠ .start) (hPosted : rIdx ∈ s.srq.posted) :
    rIdx ∉ s.control.current ++ s.control.batch ++ s.srq.completed.map Prod.snd := by
  have hNodup := (h.slots hPoll hStart).1
  rw [BenchmarkDispatcher.slots, SharedReceiveQueue.held] at hNodup
  intro hMem
  rcases List.mem_append.mp hMem with hHands | hCompleted
  · exact List.disjoint_of_nodup_append hNodup hHands (List.mem_append_left _ hPosted)
  · exact List.disjoint_of_nodup_append hNodup.of_append_right hPosted hCompleted

/-- A response takes a posted receive, of whatever index. -/
theorem Consistent.respond_srq (h : Consistent x s) (hPoll : x.poll = .srq)
    (hMem : (w, m) ∈ s.outstanding) {conn : Nat} {q : SharedReceiveQueue}
    (hArrive : s.srq.arrive conn rIdx = some q) :
    Consistent x { s with
      outstanding := s.outstanding.erase (w, m)
      arrivals := Function.update s.arrivals w (s.arrivals w ++ [m])
      srq := q
      respBuffer := Function.update s.respBuffer rIdx ⟨m.rdmaPtr, m.id, 1⟩
      owner := Function.update s.owner rIdx w } := by
  have hW := h.workers (w, m) hMem
  obtain ⟨hOffset, hNotLanded, _⟩ := (h.phases w hW).arrive (mem_logOf.mpr hMem)
  obtain ⟨hStart, hApart⟩ := h.outstanding_apart hMem
  obtain ⟨hPosted, hRest, hCompleted⟩ := SharedReceiveQueue.arrive_eq_some hArrive
  have hFresh := h.posted_apart hPoll hStart hPosted
  have hOwnerOf : ∀ owner, ownerOf x owner = owner := by
    intro owner
    funext other
    simp [ownerOf, hPoll]
  have hKept : ∀ other, other ∈ s.control.current ++ s.control.batch ++
      s.srq.completed.map Prod.snd → other ≠ rIdx := by
    intro other hOther hSame
    exact hFresh (hSame ▸ hOther)
  have hLanded : ∀ other, landed x { s with
      outstanding := s.outstanding.erase (w, m)
      arrivals := Function.update s.arrivals w (s.arrivals w ++ [m])
      srq := q
      respBuffer := Function.update s.respBuffer rIdx ⟨m.rdmaPtr, m.id, 1⟩
      owner := Function.update s.owner rIdx w } other =
        landed x s other + if other = w then 1 else 0 := by
    intro other
    have hBatch : s.control.batch.map (Function.update s.owner rIdx w) =
        s.control.batch.map s.owner := by
      apply List.map_congr_left
      intro idx hIdx
      apply Function.update_of_ne
      exact hKept idx (List.mem_append_left _ (List.mem_append_right _ hIdx))
    have hOld : s.srq.completed.map (fun entry => Function.update s.owner rIdx w entry.2) =
        s.srq.completed.map fun entry => s.owner entry.2 := by
      apply List.map_congr_left
      intro entry hEntry
      apply Function.update_of_ne
      exact hKept entry.2 (List.mem_append_right _ (List.mem_map_of_mem hEntry))
    simp only [landed, hPoll, hOwnerOf, hBatch, hCompleted, List.map_append, hOld, List.map_cons,
      List.map_nil, Function.update_self, List.count_append, List.count_singleton, beq_iff_eq,
      eq_comm (a := w)]
    omega
  constructor
  · exact h.respond_phases hMem rfl rfl rfl rfl rfl rfl rfl rfl rfl hLanded
  · exact fun entry hEntry => h.workers entry (List.mem_of_mem_erase hEntry)
  · intro other hOther
    rw [hOwnerOf]
    by_cases hSame : other = rIdx
    · rw [hSame]
      simp only [workerOf, hPoll, Function.update_self, hOffset, x.slotOf_offsetForSharedArea]
      exact ⟨hW, trivial⟩
    · have hOld := h.owners other (by simpa [hCompleted, hSame] using hOther)
      rw [hOwnerOf] at hOld
      simpa [workerOf, hPoll, Function.update_of_ne hSame] using hOld
  · have hPlaced := h.placed
    cases hControl : s.control with
    | head | scan | process | stopped => simp only [Placed]
    | start => exact absurd hControl hStart
    | transfer | look | pollSRQ => simpa [Placed, hControl] using hPlaced
    | clearFlag respId =>
        simp only [Placed, hControl] at hPlaced
        exact absurd hPoll hPlaced.2.2
    | clearType worker idx rest =>
        have hNe := hKept idx (by simp [hControl, Control.current])
        simpa [Placed, hControl, hOwnerOf, Function.update_of_ne hNe] using hPlaced
    | signal worker idx rest =>
        have hNe := hKept idx (by simp [hControl, Control.current])
        simpa [Placed, hControl, hOwnerOf, Function.update_of_ne hNe] using hPlaced
    | finalize idx rest =>
        have hNe := hKept idx (by simp [hControl, Control.current])
        have hOther := hApart idx rest hControl
        rw [hOwnerOf] at hOther
        simp only [Placed, hControl, hOwnerOf] at hPlaced ⊢
        rw [← hControl, Function.update_of_ne hNe, logOf_erase, if_neg (Ne.symm hOther), hLanded,
          if_neg hOther]
        exact hPlaced
  · intro _ _
    have hSlots := h.slots hPoll hStart
    have hPerm := (SharedReceiveQueue.held_arrive hArrive).append_left
      (s.control.current ++ s.control.batch)
    exact ⟨hPerm.nodup_iff.mpr hSlots.1, hPerm.length_eq.trans hSlots.2⟩
  · exact h.clean
  · exact h.within

/-- A response answers an outstanding request, and nothing else changes. -/
theorem Consistent.respond (h : Consistent x s) {t : State}
    (hNext : BenchmarkDispatcher.respond x s w m rIdx = some t) : Consistent x t := by
  rw [BenchmarkDispatcher.respond, Option.ite_none_right_eq_some] at hNext
  obtain ⟨hMem, hNext⟩ := hNext
  cases hPoll : x.poll with
  | srq =>
      simp only [hPoll, Option.map_eq_some_iff] at hNext
      obtain ⟨q, hArrive, rfl⟩ := hNext
      exact h.respond_srq hPoll hMem hArrive
  | buf | rq =>
      simp only [hPoll] at hNext
      obtain rfl := Option.some.inj hNext
      exact h.respond_buf (by rw [hPoll]; simp) hMem

end Responses

section Runs

variable {x : Setup} {s t : State}

/-- Being told to stop has no effect on what is under way. -/
theorem Consistent.stop (h : Consistent x s) (hNext : BenchmarkDispatcher.stop x s = some t) :
    Consistent x t := by
  rw [BenchmarkDispatcher.stop, Option.ite_none_right_eq_some] at hNext
  obtain rfl := Option.some.inj hNext.2
  exact ⟨h.phases, h.workers, h.owners, h.placed, h.slots, h.clean, h.within⟩

/-- A step of `run` never takes the branch for a worker that has not transferred,
and no compare-exchange of it fails. -/
theorem Consistent.dispatcher (h : Consistent x s)
    (hNext : dispatcherStep x s = some t) : Consistent x t := by
  rw [dispatcherStep] at hNext
  split at hNext
  case h_1 hControl =>
    have hEmpty : s.srq = {} := by
      have hPlaced := h.placed
      simp only [Placed, hControl] at hPlaced
      exact hPlaced.1
    cases hPoll : x.poll with
    | srq =>
        simp only [hPoll] at hNext
        obtain rfl := Option.some.inj hNext
        rw [receiveBatchSRQ, hEmpty, SharedReceiveQueue.foldl_post]
        exact h.start hControl rfl (fun _ => rfl)
    | buf | rq =>
        simp only [hPoll] at hNext
        obtain rfl := Option.some.inj hNext
        exact h.start hControl (by rw [hEmpty]) (fun hSrq => by rw [hPoll] at hSrq; cases hSrq)
  case h_2 hControl =>
    obtain rfl := Option.some.inj hNext
    have hFree : s.control.Free := by rw [hControl]; trivial
    split
    case isTrue => exact h.move hFree trivial trivial
    case isFalse => exact h.move hFree trivial trivial
  case h_3 reqId hControl =>
    have hFree : s.control.Free := by rw [hControl]; trivial
    split at hNext
    case isTrue hReqId =>
      split at hNext
      case isTrue =>
        obtain rfl := Option.some.inj hNext
        exact h.move hFree trivial trivial
      case isFalse hSend =>
        obtain rfl := Option.some.inj hNext
        rw [not_or, Bool.not_eq_true] at hSend
        exact h.move hFree trivial ⟨hReqId, hSend.1, hSend.2⟩
    case isFalse =>
      cases hPoll : x.poll with
      | buf =>
          simp only [hPoll] at hNext
          obtain rfl := Option.some.inj hNext
          exact h.move hFree trivial (by simp [Placed, hPoll])
      | srq =>
          simp only [hPoll] at hNext
          obtain rfl := Option.some.inj hNext
          exact h.move hFree trivial hPoll
      | rq =>
          simp only [hPoll] at hNext
          obtain rfl := Option.some.inj hNext
          exact h.move hFree trivial trivial
  case h_4 reqId hControl =>
    obtain rfl := Option.some.inj hNext
    exact h.transfer hControl
  case h_5 respId hControl =>
    have hFree : s.control.Free := by rw [hControl]; trivial
    have hPoll : x.poll ≠ .srq := by
      have hPlaced := h.placed
      simpa only [Placed, hControl] using hPlaced
    split at hNext
    case isTrue hRespId =>
      split at hNext
      case isTrue =>
        obtain rfl := Option.some.inj hNext
        exact h.move hFree trivial hPoll
      case isFalse hFlag =>
        obtain rfl := Option.some.inj hNext
        exact h.move hFree trivial ⟨hRespId, not_not.mp hFlag, hPoll⟩
    case isFalse =>
      obtain rfl := Option.some.inj hNext
      exact h.move hFree trivial trivial
  case h_6 respId hControl =>
    obtain rfl := Option.some.inj hNext
    exact h.clearFlag hControl
  case h_7 failedPolls hControl =>
    have hPoll : x.poll = .srq := by
      have hPlaced := h.placed
      simpa only [Placed, hControl] using hPlaced
    split at hNext
    case h_1 =>
      have hFree : s.control.Free := by rw [hControl]; trivial
      obtain rfl := Option.some.inj hNext
      split
      case isTrue => exact h.move hFree trivial hPoll
      case isFalse => exact h.move hFree trivial trivial
    case h_2 batch q hBatch hTaken =>
      obtain rfl := Option.some.inj hNext
      have hNew := h.pollSRQ batchSize hControl hPoll
      rwa [hTaken] at hNew
  case h_8 hControl =>
    obtain rfl := Option.some.inj hNext
    exact h.move (by rw [hControl]; trivial) trivial trivial
  case h_9 rIdx rest hControl =>
    obtain ⟨hTransfered, hNew⟩ := h.take hControl
    simp only [hTransfered, if_true] at hNext
    obtain rfl := Option.some.inj hNext
    exact hNew
  case h_10 worker rIdx rest hControl =>
    obtain rfl := Option.some.inj hNext
    exact h.clearType hControl
  case h_11 worker rIdx rest hControl =>
    obtain ⟨hReceived, hNew⟩ := h.signal hControl
    rw [if_pos hReceived] at hNext
    obtain rfl := Option.some.inj hNext
    exact hNew
  case h_12 rIdx rest hControl =>
    cases hPoll : x.poll with
    | srq =>
        simp only [hPoll] at hNext
        obtain rfl := Option.some.inj hNext
        exact h.finalize hControl rfl (fun _ => s.srq.held_post rIdx)
    | buf | rq =>
        simp only [hPoll] at hNext
        obtain rfl := Option.some.inj hNext
        exact h.finalize hControl rfl (fun hSrq => by rw [hPoll] at hSrq; cases hSrq)
  case h_13 hControl =>
    cases hNext

theorem reachable_consistent (h : (dispatcherMachine x).Reachable s) : Consistent x s := by
  apply h.invariant (init_consistent x)
  intro s a t hConsistent hNext
  cases a with
  | worker w =>
      obtain ⟨hW, hNext⟩ := Option.ite_none_right_eq_some.mp hNext
      exact hConsistent.worker hW hNext
  | dispatcher => exact hConsistent.dispatcher hNext
  | respond w m rIdx => exact hConsistent.respond hNext
  | stop => exact hConsistent.stop hNext

end Runs

end BenchmarkDispatcher
