import RDMAPatterns.Benchmark.Receiver

/-! The messages that have reached a receiver and that it has not answered yet,
connection by connection, and what one step does to them. Buffer and shared
receive queue look the same from here. -/
namespace BenchmarkReceiver

open Benchmark Verbs

/-- The slot the receiver works on. After the last message it stays there. -/
def Control.slot : Control → Option Nat
  | .poll _ => none
  | .handle _ memIdx | .finalizeBuf _ memIdx | .transfer _ memIdx | .finalizeSRQ _ memIdx
  | .finalizeFinished memIdx | .returned memIdx _ => some memIdx

/-- The message that was polled last, until it is answered. -/
def Receiver.inHand (rcv : Receiver) (conn : Nat) : List MessageBase :=
  match rcv.control with
  | .handle source memIdx => if source = conn then [rcv.reqBuffer memIdx] else []
  | .finalizeBuf source memIdx | .transfer source memIdx =>
      if source = conn then [(rcv.reqBuffer memIdx).asRequest] else []
  | _ => []

/-- The messages of a connection that have not been polled. -/
def Receiver.landed (rcv : Receiver) (POLL : RdmaPoll) (conn : Nat) : List MessageBase :=
  match POLL with
  | .srq => (rcv.srq.completed.filter fun entry => entry.1 = conn).map
      fun entry => rcv.reqBuffer entry.2
  | _ => if rcv.control.slot = some conn ∨ (rcv.reqBuffer conn).type = .empty then []
      else [rcv.reqBuffer conn]

def Receiver.unanswered (rcv : Receiver) (POLL : RdmaPoll) (conn : Nat) : List MessageBase :=
  rcv.inHand conn ++ rcv.landed POLL conn

/-- The receive that has to be posted again. -/
def Receiver.taken (rcv : Receiver) : List Nat :=
  match rcv.control with
  | .handle _ memIdx | .transfer _ memIdx | .finalizeSRQ _ memIdx => [memIdx]
  | _ => []

/-- A slot whose content has not been dealt with. -/
def Receiver.Occupied (rcv : Receiver) (POLL : RdmaPoll) (slot : Nat) : Prop :=
  match POLL with
  | .srq => slot ∈ rcv.taken ∨ slot ∈ rcv.srq.completed.map Prod.snd
  | _ => rcv.control.slot = some slot ∨ (rcv.reqBuffer slot).type ≠ .empty

/-- With a shared receive queue a request is counted after its slot was posted
again. -/
def Control.uncounted : Control → Nat
  | .finalizeSRQ _ _ => 1
  | _ => 0

structure Counted (expectedClients : Nat) (rcv : Receiver) : Prop where
  handled : (rcv.log.filter fun entry => entry.2.type = .expMsg).length =
    rcv.handledRequests + rcv.control.uncounted
  finished : (rcv.log.filter fun entry => entry.2.type = .finishedExp).length =
    rcv.clientsFinished
  returned : ∀ memIdx requests, rcv.control = .returned memIdx requests →
    requests = rcv.handledRequests ∧ rcv.clientsFinished = expectedClients

/-- A buffer slot in use belongs to its connection. It is full until the request
in it is about to be answered. -/
def TidyBuf (rcv : Receiver) : Prop :=
  match rcv.control with
  | .handle conn memIdx => conn = memIdx ∧ (rcv.reqBuffer memIdx).type ≠ .empty
  | .finalizeBuf conn memIdx => conn = memIdx ∧ (rcv.reqBuffer memIdx).type = .expMsg
  | .transfer conn memIdx => conn = memIdx ∧ (rcv.reqBuffer memIdx).type = .empty
  | .finalizeFinished memIdx | .returned memIdx _ =>
      ∃ m, (memIdx, m) ∈ rcv.log ∧ m.type = .finishedExp
  | .poll _ => True
  | .finalizeSRQ _ _ => False

/-- No slot is in two places. The receives of finished clients are lost, all
others are posted, completed, or in use. -/
structure TidySRQ (rcv : Receiver) : Prop where
  slots : (rcv.taken ++ rcv.srq.held).Nodup
  receives : rcv.srq.held.length + rcv.taken.length + rcv.clientsFinished = rcv.reqBufferLength
  control : match rcv.control with
    | .transfer _ memIdx | .finalizeSRQ _ memIdx => (rcv.reqBuffer memIdx).type = .expMsg
    | .finalizeBuf _ _ | .finalizeFinished _ => False
    | _ => True

/-- `m` is the next message of the connection, and the step logs it. -/
structure Takes (POLL : RdmaPoll) (rcv next : Receiver) (conn : Nat) (m : MessageBase) :
    Prop where
  own : rcv.unanswered POLL conn = m :: next.unanswered POLL conn
  others : ∀ other, other ≠ conn → next.unanswered POLL other = rcv.unanswered POLL other
  log : next.log = rcv.log ++ [(conn, m)]

/-- What a step does to the unanswered messages. -/
inductive Progress (POLL : RdmaPoll) (rcv next : Receiver) : Option (Nat × Answer) → Prop where
  | idle (hUnanswered : ∀ conn, next.unanswered POLL conn = rcv.unanswered POLL conn)
      (hLog : next.log = rcv.log) : Progress POLL rcv next none
  | finished {conn : Nat} {m : MessageBase} (hTakes : Takes POLL rcv next conn m)
      (hType : m.type = .finishedExp) : Progress POLL rcv next none
  | answered {conn : Nat} {m : MessageBase} {answer : Answer} (hTakes : Takes POLL rcv next conn m)
      (hType : m.type = .expMsg) : Progress POLL rcv next (some (m.destinationNodeID, answer))

/-- Requests and last messages are all there is. -/
def WellTyped (POLL : RdmaPoll) (rcv : Receiver) : Prop :=
  ∀ conn, ∀ m ∈ rcv.unanswered POLL conn, m.type = .expMsg ∨ m.type = .finishedExp

/-- Of what the receiver takes up, everything is a request or a last message. -/
theorem type_in_hand {POLL : RdmaPoll} {rcv : Receiver} (hTyped : WellTyped POLL rcv)
    {conn memIdx : Nat} (hControl : rcv.control = .handle conn memIdx) :
    (rcv.reqBuffer memIdx).type = .expMsg ∨ (rcv.reqBuffer memIdx).type = .finishedExp := by
  apply hTyped conn
  simp [Receiver.unanswered, Receiver.inHand, hControl]

section Buffer

variable {expectedClients : Nat} {rcv next : Receiver}

/-- A look at a slot takes up its message, or moves on to the next slot. -/
theorem poll_buf {pos : Nat} (hControl : rcv.control = .poll pos)
    (hNext : poll .buf rcv pos = some next) :
    Progress .buf rcv next none ∧ TidyBuf next := by
  rw [poll] at hNext
  split at hNext
  case isTrue hEmpty =>
    obtain rfl := Option.some.inj hNext
    refine ⟨.idle ?_ rfl, trivial⟩
    intro conn
    simp [Receiver.unanswered, Receiver.inHand, Receiver.landed, Control.slot, hControl]
  case isFalse hFull =>
    obtain rfl := Option.some.inj hNext
    refine ⟨.idle ?_ rfl, rfl, hFull⟩
    intro conn
    by_cases hConn : pos = conn
    · subst hConn
      simp [Receiver.unanswered, Receiver.inHand, Receiver.landed, Control.slot, hControl, hFull]
    · simp [Receiver.unanswered, Receiver.inHand, Receiver.landed, Control.slot, hControl, hConn]

/-- A request stays in hand until it is answered, a last message is logged at once. -/
theorem handle_buf {conn memIdx : Nat} (hControl : rcv.control = .handle conn memIdx)
    (h : TidyBuf rcv) (hTyped : WellTyped .buf rcv) :
    Progress .buf rcv (handle .buf expectedClients rcv conn memIdx) none ∧
      TidyBuf (handle .buf expectedClients rcv conn memIdx) := by
  simp only [TidyBuf, hControl] at h
  obtain ⟨rfl, hFull⟩ := h
  rcases type_in_hand hTyped hControl with hType | hType
  · simp only [handle, hType]
    refine ⟨.idle ?_ rfl, rfl, hType⟩
    intro other
    simp [Receiver.unanswered, Receiver.inHand, Receiver.landed, Control.slot, hControl,
      MessageBase.asRequest_eq hType]
  · simp only [handle, hType]
    split
    all_goals
      refine ⟨.finished ⟨?_, ?_, rfl⟩ hType, rcv.reqBuffer conn, by simp, hType⟩
      · simp [Receiver.unanswered, Receiver.inHand, Receiver.landed, Control.slot, hControl]
      · intro other hOther
        simp [Receiver.unanswered, Receiver.inHand, Receiver.landed, Control.slot, hControl,
          Ne.symm hOther]

/-- The slot is cleared before the response goes out, so the next request of the sender
finds it free. -/
theorem finalizeBuf_buf {conn memIdx : Nat} (hControl : rcv.control = .finalizeBuf conn memIdx)
    (h : TidyBuf rcv)
    (hNext : next = { finalize .buf rcv memIdx with control := .transfer conn memIdx }) :
    Progress .buf rcv next none ∧ TidyBuf next := by
  simp only [TidyBuf, hControl] at h
  obtain ⟨rfl, hType⟩ := h
  subst hNext
  refine ⟨.idle ?_ rfl, rfl, by simp [finalize]⟩
  intro other
  by_cases hOther : conn = other
  · simp [Receiver.unanswered, Receiver.inHand, Receiver.landed, Control.slot, hControl, finalize,
      hOther]
  · simp [Receiver.unanswered, Receiver.inHand, Receiver.landed, Control.slot, hControl, finalize,
      hOther, Function.update_of_ne (Ne.symm hOther)]

theorem transfer_buf {conn memIdx respId : Nat} (hControl : rcv.control = .transfer conn memIdx)
    (h : TidyBuf rcv) :
    Progress .buf rcv (transferred .buf rcv conn memIdx) (some (transfer rcv memIdx respId)) ∧
      TidyBuf (transferred .buf rcv conn memIdx) := by
  simp only [TidyBuf, hControl] at h
  obtain ⟨rfl, hType⟩ := h
  refine ⟨.answered (m := (rcv.reqBuffer conn).asRequest) ⟨?_, ?_, rfl⟩ rfl, trivial⟩
  · simp [Receiver.unanswered, Receiver.inHand, Receiver.landed, Control.slot, hControl,
      transferred, hType]
  · intro other hOther
    simp [Receiver.unanswered, Receiver.inHand, Receiver.landed, Control.slot, hControl,
      transferred, Ne.symm hOther]

/-- The slot of a last message is cleared after it was logged. -/
theorem finalizeFinished_buf {memIdx : Nat} (hControl : rcv.control = .finalizeFinished memIdx)
    (hNext : next = { finalize .buf rcv memIdx with control := .poll 0 }) :
    Progress .buf rcv next none ∧ TidyBuf next := by
  subst hNext
  refine ⟨.idle ?_ rfl, trivial⟩
  intro other
  by_cases hOther : memIdx = other
  · simp [Receiver.unanswered, Receiver.inHand, Receiver.landed, Control.slot, hControl, finalize,
      hOther]
  · simp [Receiver.unanswered, Receiver.inHand, Receiver.landed, Control.slot, hControl, finalize,
      hOther, Function.update_of_ne (Ne.symm hOther)]

/-- All steps of a receiver that looks into its buffer. -/
theorem step_buf {out : Option (Nat × Answer)} (h : TidyBuf rcv) (hTyped : WellTyped .buf rcv)
    (hNext : step .buf expectedClients rcv = some (next, out)) :
    Progress .buf rcv next out ∧ TidyBuf next := by
  cases step_cases hNext with
  | poll hControl hPoll => exact poll_buf hControl hPoll
  | handle hControl => exact handle_buf hControl h hTyped
  | finalizeBuf hControl => exact finalizeBuf_buf hControl h rfl
  | transfer hControl => exact transfer_buf hControl h
  | finalizeSRQ hControl =>
      rw [TidyBuf, hControl] at h
      exact h.elim
  | finalizeFinished hControl => exact finalizeFinished_buf hControl rfl

/-- A slot without an unanswered message is not in use, unless its client has
finished. -/
theorem slot_ne (h : TidyBuf rcv) {conn : Nat} (hFree : rcv.unanswered .buf conn = [])
    (hOpen : ∀ m, (conn, m) ∈ rcv.log → m.type ≠ .finishedExp) :
    rcv.control.slot ≠ some conn := by
  intro hSlot
  cases hControl : rcv.control with
  | poll pos => simp [hControl, Control.slot] at hSlot
  | handle source memIdx | finalizeBuf source memIdx | transfer source memIdx =>
      simp only [TidyBuf, hControl] at h
      simp only [hControl, Control.slot, Option.some.injEq] at hSlot
      simp [Receiver.unanswered, Receiver.inHand, hControl, h.1, hSlot] at hFree
  | finalizeSRQ source memIdx => simp [TidyBuf, hControl] at h
  | finalizeFinished memIdx | returned memIdx requests =>
      simp only [TidyBuf, hControl] at h
      simp only [hControl, Control.slot, Option.some.injEq] at hSlot
      obtain ⟨m, hLogged, hType⟩ := h
      rw [hSlot] at hLogged
      exact hOpen m hLogged hType

/-- A slot is free if its sender has nothing that is unanswered. -/
theorem not_occupied_buf {conn : Nat} (hFree : rcv.unanswered .buf conn = [])
    (hSlot : rcv.control.slot ≠ some conn) : ¬ rcv.Occupied .buf conn := by
  rintro (hInUse | hFull)
  · exact hSlot hInUse
  · have hLanded := (List.append_eq_nil_iff.mp hFree).2
    simp [Receiver.landed, hSlot, hFull] at hLanded

/-- A write into a slot that is not in use and holds no unanswered message. -/
theorem writeArrives_buf (h : TidyBuf rcv) {conn : Nat} {m : MessageBase}
    (hFree : rcv.unanswered .buf conn = []) (hSlot : rcv.control.slot ≠ some conn)
    (hType : m.type ≠ .empty) :
    TidyBuf (writeArrives rcv conn m) ∧
      (writeArrives rcv conn m).unanswered .buf conn = [m] ∧
      ∀ other, other ≠ conn →
        (writeArrives rcv conn m).unanswered .buf other = rcv.unanswered .buf other := by
  have hHand : ∀ other, (writeArrives rcv conn m).inHand other = rcv.inHand other := by
    intro other
    cases hControl : rcv.control with
    | handle source memIdx | finalizeBuf source memIdx | transfer source memIdx =>
        have hMem : memIdx ≠ conn := by simpa [hControl, Control.slot] using hSlot
        simp [Receiver.inHand, writeArrives, hControl, Function.update_of_ne hMem]
    | _ => simp [Receiver.inHand, writeArrives, hControl]
  refine ⟨?_, ?_, ?_⟩
  · cases hControl : rcv.control with
    | handle source memIdx | finalizeBuf source memIdx | transfer source memIdx =>
        have hMem : memIdx ≠ conn := by simpa [hControl, Control.slot] using hSlot
        simp only [TidyBuf, hControl, writeArrives, Function.update_of_ne hMem] at h ⊢
        exact h
    | poll pos => simp only [TidyBuf, hControl, writeArrives]
    | finalizeSRQ source memIdx => simp [TidyBuf, hControl] at h
    | finalizeFinished memIdx | returned memIdx requests =>
        simp only [TidyBuf, hControl, writeArrives] at h ⊢
        exact h
  · rw [Receiver.unanswered, hHand, (List.append_eq_nil_iff.mp hFree).1]
    simp [Receiver.landed, writeArrives, hSlot, hType]
  · intro other hOther
    rw [Receiver.unanswered, Receiver.unanswered, hHand]
    simp [Receiver.landed, writeArrives, Function.update_of_ne hOther]

end Buffer

section SharedReceives

variable {expectedClients : Nat} {rcv next : Receiver}

theorem poll_srq {pos : Nat} (hControl : rcv.control = .poll pos) (h : TidySRQ rcv)
    (hNext : poll .srq rcv pos = some next) :
    Progress .srq rcv next none ∧ TidySRQ next := by
  obtain ⟨⟨⟨conn, memIdx⟩, q⟩, hPoll, hFound⟩ := Option.map_eq_some_iff.mp hNext
  obtain rfl := hFound
  obtain ⟨hCompleted, hPosted⟩ := SharedReceiveQueue.poll_eq_some hPoll
  have hHeld := SharedReceiveQueue.held_poll hPoll
  refine ⟨.idle ?_ rfl, ?_, ?_, trivial⟩
  · intro other
    by_cases hOther : conn = other
    · simp [Receiver.unanswered, Receiver.inHand, Receiver.landed, hControl, hCompleted, hOther]
    · simp [Receiver.unanswered, Receiver.inHand, Receiver.landed, hControl, hCompleted, hOther]
  · have hSlots := h.slots
    simp only [Receiver.taken, hControl, List.nil_append] at hSlots
    exact hHeld.nodup_iff.mp hSlots
  · have hReceives := h.receives
    simp only [Receiver.taken, hControl, hHeld.length_eq, List.length_cons, List.length_nil]
      at hReceives ⊢
    omega

/-- A request stays in hand until it is answered, a last message is logged at once. -/
theorem handle_srq {conn memIdx : Nat} (hControl : rcv.control = .handle conn memIdx)
    (h : TidySRQ rcv) (hTyped : WellTyped .srq rcv) :
    Progress .srq rcv (handle .srq expectedClients rcv conn memIdx) none ∧
      TidySRQ (handle .srq expectedClients rcv conn memIdx) := by
  have hSlots := h.slots
  have hReceives := h.receives
  simp only [Receiver.taken, hControl] at hSlots hReceives
  rcases type_in_hand hTyped hControl with hType | hType
  · simp only [handle, hType]
    refine ⟨.idle ?_ rfl, hSlots, hReceives, hType⟩
    intro other
    simp [Receiver.unanswered, Receiver.inHand, Receiver.landed, hControl,
      MessageBase.asRequest_eq hType]
  · simp only [handle, hType]
    split
    all_goals
      refine ⟨.finished ⟨?_, ?_, rfl⟩ hType, ?_, ?_, trivial⟩
      · simp [Receiver.unanswered, Receiver.inHand, Receiver.landed, hControl]
      · intro other hOther
        simp [Receiver.unanswered, Receiver.inHand, Receiver.landed, hControl, Ne.symm hOther]
      · exact (List.nodup_cons.mp hSlots).2
      · simp only [Receiver.taken, List.length_cons, List.length_nil] at hReceives ⊢
        omega

/-- Sending the response logs the request. Its slot is posted again only afterwards. -/
theorem transfer_srq {conn memIdx respId : Nat} (hControl : rcv.control = .transfer conn memIdx)
    (h : TidySRQ rcv) :
    Progress .srq rcv (transferred .srq rcv conn memIdx) (some (transfer rcv memIdx respId)) ∧
      TidySRQ (transferred .srq rcv conn memIdx) := by
  have hSlots := h.slots
  have hReceives := h.receives
  have hType := h.control
  simp only [Receiver.taken, hControl] at hSlots hReceives hType
  refine ⟨.answered (m := (rcv.reqBuffer memIdx).asRequest) ⟨?_, ?_, rfl⟩ rfl,
    hSlots, hReceives, hType⟩
  · simp [Receiver.unanswered, Receiver.inHand, Receiver.landed, hControl, transferred]
  · intro other hOther
    simp [Receiver.unanswered, Receiver.inHand, Receiver.landed, hControl, transferred,
      Ne.symm hOther]

/-- The slot is posted again and the request is counted. -/
theorem finalizeSRQ_srq {conn memIdx : Nat} (hControl : rcv.control = .finalizeSRQ conn memIdx)
    (h : TidySRQ rcv)
    (hNext : next = { finalize .srq rcv memIdx with
      handledRequests := rcv.handledRequests + 1, control := .poll 0 }) :
    Progress .srq rcv next none ∧ TidySRQ next := by
  have hSlots := h.slots
  have hReceives := h.receives
  simp only [Receiver.taken, hControl] at hSlots hReceives
  have hHeld := SharedReceiveQueue.held_post rcv.srq memIdx
  subst hNext
  refine ⟨.idle ?_ rfl, ?_, ?_, trivial⟩
  · intro other
    simp [Receiver.unanswered, Receiver.inHand, Receiver.landed, hControl, finalize,
      SharedReceiveQueue.post]
  · exact hHeld.nodup_iff.mpr hSlots
  · simp only [Receiver.taken, finalize, hHeld.length_eq, List.length_cons, List.length_nil]
      at hReceives ⊢
    omega

/-- All steps of a receiver that polls its shared receive queue. -/
theorem step_srq {out : Option (Nat × Answer)} (h : TidySRQ rcv) (hTyped : WellTyped .srq rcv)
    (hNext : step .srq expectedClients rcv = some (next, out)) :
    Progress .srq rcv next out ∧ TidySRQ next := by
  cases step_cases hNext with
  | poll hControl hPoll => exact poll_srq hControl h hPoll
  | handle hControl => exact handle_srq hControl h hTyped
  | transfer hControl => exact transfer_srq hControl h
  | finalizeSRQ hControl => exact finalizeSRQ_srq hControl h rfl
  | finalizeBuf hControl | finalizeFinished hControl =>
      have hImpossible := h.control
      rw [hControl] at hImpossible
      exact hImpossible.elim

/-- The slot of a posted receive is neither in hand nor waiting to be polled. -/
theorem posted_unused (h : TidySRQ rcv) {memIdx : Nat} (hPosted : memIdx ∈ rcv.srq.posted) :
    memIdx ∉ rcv.taken ∧ ∀ entry ∈ rcv.srq.completed, entry.2 ≠ memIdx := by
  obtain ⟨_, hHeld, hApart⟩ := List.nodup_append.mp h.slots
  obtain ⟨_, _, hQueue⟩ := List.nodup_append.mp hHeld
  constructor
  · intro hTaken
    exact hApart memIdx hTaken memIdx (List.mem_append_left _ hPosted) rfl
  · intro entry hEntry hSame
    exact hQueue memIdx hPosted entry.2 (List.mem_map_of_mem hEntry) hSame.symm

/-- A posted receive has no unread message in its slot. -/
theorem not_occupied_srq (h : TidySRQ rcv) {memIdx : Nat} (hPosted : memIdx ∈ rcv.srq.posted) :
    ¬ rcv.Occupied .srq memIdx := by
  obtain ⟨hTaken, hWaiting⟩ := posted_unused h hPosted
  rintro (hInUse | hCompleted)
  · exact hTaken hInUse
  · obtain ⟨entry, hEntry, hSame⟩ := List.mem_map.mp hCompleted
    exact hWaiting entry hEntry hSame

/-- An arriving message comes behind the others of its connection. -/
theorem sendArrives_srq (h : TidySRQ rcv) {conn memIdx : Nat} {m : MessageBase}
    (hNext : sendArrives rcv conn memIdx m = some next) :
    TidySRQ next ∧ next.log = rcv.log ∧
      next.unanswered .srq conn = rcv.unanswered .srq conn ++ [m] ∧
      ∀ other, other ≠ conn → next.unanswered .srq other = rcv.unanswered .srq other := by
  obtain ⟨q, hArrive, rfl⟩ := Option.map_eq_some_iff.mp hNext
  obtain ⟨hPosted, _, hCompleted⟩ := SharedReceiveQueue.arrive_eq_some hArrive
  have hHeld := SharedReceiveQueue.held_arrive hArrive
  obtain ⟨hTaken, hWaiting⟩ := posted_unused h hPosted
  have hBuffer : ∀ slot, slot ≠ memIdx →
      (writeArrives rcv memIdx m).reqBuffer slot = rcv.reqBuffer slot := by
    intro slot hSlot
    exact Function.update_of_ne hSlot _ _
  have hHand : ∀ other, ({ writeArrives rcv memIdx m with srq := q } : Receiver).inHand other =
      rcv.inHand other := by
    intro other
    have hControl := h.control
    cases hAt : rcv.control with
    | handle source slot | transfer source slot =>
        have hSlot : slot ≠ memIdx := by
          simpa [Receiver.taken, hAt, eq_comm] using hTaken
        simp [Receiver.inHand, writeArrives, hAt, Function.update_of_ne hSlot]
    | finalizeBuf source slot => simp [hAt] at hControl
    | _ => simp [Receiver.inHand, writeArrives, hAt]
  have hLanded : ∀ other, ({ writeArrives rcv memIdx m with srq := q } : Receiver).landed .srq other =
      rcv.landed .srq other ++ if conn = other then [m] else [] := by
    intro other
    have hOld : ((rcv.srq.completed.filter fun entry => entry.1 = other).map
        fun entry => (writeArrives rcv memIdx m).reqBuffer entry.2) = rcv.landed .srq other := by
      apply List.map_congr_left
      intro entry hEntry
      exact hBuffer entry.2 (hWaiting entry (List.mem_of_mem_filter hEntry))
    rw [Receiver.landed]
    simp only [hCompleted, List.filter_append, List.map_append, hOld]
    by_cases hOther : conn = other
    · simp [hOther, writeArrives]
    · simp [hOther]
  refine ⟨⟨?_, ?_, ?_⟩, rfl, ?_, ?_⟩
  · exact (hHeld.append_left _).nodup_iff.mpr h.slots
  · have hReceives := h.receives
    rw [← hHeld.length_eq] at hReceives
    exact hReceives
  · have hControl := h.control
    cases hAt : rcv.control with
    | transfer source slot | finalizeSRQ source slot =>
        have hSlot : slot ≠ memIdx := by
          simpa [Receiver.taken, hAt, eq_comm] using hTaken
        simp only [writeArrives, hAt, Function.update_of_ne hSlot] at hControl ⊢
        exact hControl
    | finalizeBuf source slot | finalizeFinished slot => simp [hAt] at hControl
    | _ => simp only [writeArrives, hAt]
  · rw [Receiver.unanswered, Receiver.unanswered, hHand, hLanded, if_pos rfl, List.append_assoc]
  · intro other hOther
    rw [Receiver.unanswered, Receiver.unanswered, hHand, hLanded, if_neg (Ne.symm hOther),
      List.append_nil]

end SharedReceives

section Counters

variable {POLL : RdmaPoll} {expectedClients : Nat} {rcv next : Receiver}
  {out : Option (Nat × Answer)}

/-- A step that logs nothing keeps the counters in step with the log. -/
theorem Counted.update (h : Counted expectedClients rcv) (hLog : next.log = rcv.log)
    (hHandled : next.handledRequests + next.control.uncounted =
      rcv.handledRequests + rcv.control.uncounted)
    (hFinished : next.clientsFinished = rcv.clientsFinished)
    (hRunning : ∀ memIdx requests, next.control ≠ .returned memIdx requests) :
    Counted expectedClients next where
  handled := by rw [hLog, h.handled, hHandled]
  finished := by rw [hLog, h.finished, hFinished]
  returned memIdx requests hReturned := absurd hReturned (hRunning memIdx requests)

theorem poll_counted (h : Counted expectedClients rcv) {pos : Nat}
    (hControl : rcv.control = .poll pos) (hNext : poll POLL rcv pos = some next) :
    Counted expectedClients next := by
  cases POLL with
  | buf =>
      rw [poll] at hNext
      split at hNext
      all_goals
        obtain rfl := Option.some.inj hNext
        exact h.update rfl (by simp [hControl, Control.uncounted]) rfl (by simp)
  | srq =>
      obtain ⟨⟨⟨conn, memIdx⟩, q⟩, _, rfl⟩ := Option.map_eq_some_iff.mp hNext
      exact h.update rfl (by simp [hControl, Control.uncounted]) rfl (by simp)
  | rq =>
      obtain rfl := Option.some.inj hNext
      exact h.update rfl (by simp [hControl, Control.uncounted]) rfl (by simp)

/-- A last message is counted when it is logged, a request later. -/
theorem handle_counted (h : Counted expectedClients rcv) {conn memIdx : Nat}
    (hControl : rcv.control = .handle conn memIdx) :
    Counted expectedClients (handle POLL expectedClients rcv conn memIdx) := by
  cases hType : (rcv.reqBuffer memIdx).type with
  | expMsg =>
      simp only [handle, hType]
      cases POLL with
      | _ => exact h.update rfl (by simp [hControl, Control.uncounted]) rfl (by simp)
  | finishedExp =>
      have hHandled := h.handled
      simp only [hControl, Control.uncounted] at hHandled
      simp only [handle, hType]
      split
      case isTrue hAll =>
        refine ⟨by simpa [hType, Control.uncounted] using hHandled,
          by simpa [hType] using h.finished, ?_⟩
        intro slot requests hReturned
        obtain ⟨_, rfl⟩ := Control.returned.inj hReturned
        exact ⟨rfl, hAll.symm⟩
      case isFalse =>
        cases POLL with
        | _ =>
            exact ⟨by simpa [hType, Control.uncounted] using hHandled,
              by simpa [hType] using h.finished, fun _ _ hReturned => by cases hReturned⟩
  | empty | initExp =>
      simp only [handle, hType]
      exact h.update rfl (by simp [hControl, Control.uncounted]) rfl (by simp)

/-- A request is counted as it is logged. With a shared receive queue there is one step
in between. -/
theorem transferred_counted (h : Counted expectedClients rcv) {conn memIdx : Nat}
    (hControl : rcv.control = .transfer conn memIdx) :
    Counted expectedClients (transferred POLL rcv conn memIdx) := by
  have hHandled := h.handled
  have hFinished := h.finished
  simp only [hControl, Control.uncounted] at hHandled
  cases POLL with
  | srq | buf | rq =>
      refine ⟨?_, ?_, fun _ _ hReturned => by cases hReturned⟩
      · simp [transferred, hHandled, Control.uncounted]
      · simp [transferred, hFinished]

/-- The counters follow the log. -/
theorem step_counted (h : Counted expectedClients rcv)
    (hNext : step POLL expectedClients rcv = some (next, out)) :
    Counted expectedClients next := by
  cases step_cases hNext with
  | poll hControl hPoll => exact poll_counted h hControl hPoll
  | handle hControl => exact handle_counted h hControl
  | transfer hControl => exact transferred_counted h hControl
  | finalizeBuf hControl =>
      exact h.update rfl (by simp [hControl, finalize, Control.uncounted]) rfl (by simp)
  | finalizeSRQ hControl =>
      exact h.update rfl (by simp [hControl, Control.uncounted]) rfl (by simp)
  | finalizeFinished hControl =>
      exact h.update rfl (by simp [hControl, finalize, Control.uncounted]) rfl (by simp)

end Counters

theorem step_reqBufferLength {POLL : RdmaPoll} {expectedClients : Nat} {rcv next : Receiver}
    {out : Option (Nat × Answer)} (hNext : step POLL expectedClients rcv = some (next, out)) :
    next.reqBufferLength = rcv.reqBufferLength := by
  cases step_cases hNext with
  | poll hControl hPoll =>
      cases POLL with
      | buf =>
          rw [poll] at hPoll
          split at hPoll
          all_goals
            obtain rfl := Option.some.inj hPoll
            rfl
      | srq =>
          obtain ⟨_, _, rfl⟩ := Option.map_eq_some_iff.mp hPoll
          rfl
      | rq =>
          obtain rfl := Option.some.inj hPoll
          rfl
  | @handle conn memIdx =>
      cases hType : (rcv.reqBuffer memIdx).type with
      | _ => simp only [handle, hType]
  | transfer =>
      cases POLL with
      | buf | srq | rq => rfl
  | finalizeBuf | finalizeSRQ | finalizeFinished => rfl

/-- A receiver polls a buffer or a shared receive queue. -/
def Tidy (POLL : RdmaPoll) (rcv : Receiver) : Prop :=
  match POLL with
  | .buf => TidyBuf rcv
  | .srq => TidySRQ rcv
  | .rq => False

/-- What one step does to the messages, whatever the receiver looks at. -/
theorem step_progress {POLL : RdmaPoll} {expectedClients : Nat} {rcv next : Receiver}
    {out : Option (Nat × Answer)} (h : Tidy POLL rcv) (hTyped : WellTyped POLL rcv)
    (hNext : step POLL expectedClients rcv = some (next, out)) :
    Progress POLL rcv next out ∧ Tidy POLL next := by
  cases POLL with
  | buf => exact step_buf h hTyped hNext
  | srq => exact step_srq h hTyped hNext
  | rq => exact h.elim

/-- The benchmark starts with empty slots, or with a posted receive for each. -/
theorem initPhase_tidy {POLL : RdmaPoll} (hPoll : POLL ≠ .rq) (connectedSenderIds : List Nat) :
    Tidy POLL (initPhase POLL connectedSenderIds) := by
  cases POLL with
  | buf => exact trivial
  | srq =>
      refine ⟨?_, ?_, trivial⟩
      · show (receiveBatchSRQ _ _).srq.held.Nodup
        rw [receiveBatchSRQ, SharedReceiveQueue.foldl_post]
        simpa [SharedReceiveQueue.held] using List.nodup_range
      · show (receiveBatchSRQ _ _).srq.held.length + 0 + 0 = _
        rw [receiveBatchSRQ, SharedReceiveQueue.foldl_post]
        simp [SharedReceiveQueue.held, initPhase, initReqBuffer, receiveBatchSRQ]
  | rq => exact absurd rfl hPoll

theorem initPhase_counted (POLL : RdmaPoll) (expectedClients : Nat)
    (connectedSenderIds : List Nat) :
    Counted expectedClients (initPhase POLL connectedSenderIds) := by
  cases POLL with
  | buf | srq | rq => exact ⟨rfl, rfl, fun _ _ hReturned => by cases hReturned⟩

theorem initPhase_unanswered (POLL : RdmaPoll) (connectedSenderIds : List Nat) (conn : Nat) :
    (initPhase POLL connectedSenderIds).unanswered POLL conn = [] := by
  cases POLL with
  | buf =>
      have hEmpty : ((initPhase .buf connectedSenderIds).reqBuffer conn).type = .empty := by
        simp only [initPhase, initReqBuffer]
        split
        all_goals rfl
      show [] ++ Receiver.landed _ .buf conn = []
      simp [Receiver.landed, hEmpty]
  | srq =>
      show [] ++ Receiver.landed (receiveBatchSRQ _ _) .srq conn = []
      simp [Receiver.landed, receiveBatchSRQ, SharedReceiveQueue.foldl_post]
  | rq => simp [Receiver.unanswered, Receiver.inHand, Receiver.landed, initPhase, initReqBuffer]

end BenchmarkReceiver
