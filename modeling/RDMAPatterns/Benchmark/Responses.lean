import RDMAPatterns.Benchmark.ReceivesExhausted

/-! What a sender finds in its response area. All senders share the response buffer
of a receiver, and their requests may name the same slot of it. A response that is
posted inline still is the one to the request that its sender waits for. A longer
one is read from the slot later, and may be the one to another sender by then. -/
namespace Benchmark

open BenchmarkReceiver BenchmarkSender Channels Transition

/-- What a receiver sends back for request `i` of a sender. -/
def answerTo (x : Experiment) (sender i : Nat) : Answer where
  rdmaPtr := x.respRDMAOffset sender
  respId := x.rand sender i % x.respBufferSize
  response :=
    { senderNodeId := x.respRDMAOffset sender
      responseId := x.rand sender i % x.respBufferSize
      transferFlag := 1 }

/-- The slot holds a response to a request that named it. -/
def Written (slot : Nat) (response : Response) : Prop :=
  response.responseId = slot ∧ response.transferFlag = 1

/-- A response to request `i` of a sender, in the slot that the request named. It is
certain to name the response area of this sender only if it was posted inline. -/
structure Responds (x : Experiment) (sender i : Nat) (response : Response) : Prop where
  written : Written (x.rand sender i % x.respBufferSize) response
  area : x.RespondsInline → response.senderNodeId = x.respRDMAOffset sender

/-- From `handle` to `transfer`, the response to the request in hand is in its slot. -/
def Prepared (rcv : Receiver) : Prop :=
  match rcv.control with
  | .finalizeBuf _ memIdx | .transfer _ memIdx =>
      rcv.respBuffer (rcv.reqBuffer memIdx).id =
        ⟨(rcv.reqBuffer memIdx).rdmaPtr, (rcv.reqBuffer memIdx).id, 1⟩
  | _ => True

/-- A sender that waits has one request on its way, or the response to it. -/
structure Responsive (x : Experiment) (s : System) : Prop where
  orderly : Orderly x s
  prepared : ∀ receiver, Prepared (s.receiver receiver)
  picked : ∀ sender i receiver, (s.sender sender).control = .await i receiver →
    x.pickedReceiverID sender i = some receiver
  owed : ∀ sender i receiver, (s.sender sender).control = .await i receiver →
    0 < s.outstanding x sender receiver
  answer : ∀ sender receiver, ∀ answer ∈ s.answers (receiver, sender),
    ∃ i, (s.sender sender).control = .await i receiver ∧ answer = answerTo x sender i
  written : ∀ sender receiver, ∀ answer ∈ s.answers (receiver, sender),
    Written answer.respId ((s.receiver receiver).respBuffer answer.respId)
  ready : ∀ sender i receiver, (s.sender sender).control = .await i receiver →
    0 < (s.sender sender).ready x receiver → Responds x sender i (s.sender sender).responseArea
  posted : x.verbs.senderP = .rq → ∀ sender i receiver,
    (s.sender sender).control = .await i receiver → (s.sender sender).completed receiver = 0 →
      0 < (s.sender sender).receives receiver

section Facts

variable {x : Experiment} {s : System} {sender receiver i : Nat}

/-- To await a receiver is to be at a request to it. -/
theorem awaits_iff {control : BenchmarkSender.Control} :
    control.awaits receiver = true ↔ ∃ i, control = .await i receiver := by
  cases control with
  | loop i | finalizePhase next => simp
  | await i other => simp

/-- Whatever is outstanding belongs to a sender that waits. -/
theorem Orderly.awaits_of_outstanding (h : Orderly x s) (hPos : 0 < s.outstanding x sender receiver) :
    ∃ i, (s.sender sender).control = .await i receiver := by
  have hClosed := h.closed sender receiver
  apply awaits_iff.mp
  by_contra hNot
  rw [if_neg hNot] at hClosed
  omega

/-- A sender has at most one request open at each receiver. -/
theorem Orderly.outstanding_le (h : Orderly x s) (sender receiver : Nat) :
    s.outstanding x sender receiver ≤ 1 := by
  have hClosed := h.closed sender receiver
  split at hClosed
  all_goals omega

theorem outstanding_of_request {m : MessageBase} (hMem : m ∈ s.backlog x sender receiver)
    (hType : m.type = .expMsg) : 0 < s.outstanding x sender receiver := by
  have hFiltered : m ∈ (s.backlog x sender receiver).filter fun m => m.type = .expMsg :=
    List.mem_filter.mpr ⟨hMem, decide_eq_true hType⟩
  have hLength := List.length_pos_of_mem hFiltered
  rw [System.outstanding]
  omega

/-- A request whose response has arrived is open until the sender notices it. -/
theorem outstanding_of_ready (hReady : 0 < (s.sender sender).ready x receiver) :
    0 < s.outstanding x sender receiver := by
  rw [System.outstanding]
  omega

/-- A request that is on its way is the last one. -/
theorem Responsive.request_eq (h : Responsive x s) {m : MessageBase}
    (hMem : m ∈ s.backlog x sender receiver) (hType : m.type = .expMsg) :
    ∃ i, (s.sender sender).control = .await i receiver ∧ m = x.expMsg sender i receiver := by
  obtain ⟨i, hControl⟩ := h.orderly.awaits_of_outstanding (outstanding_of_request hMem hType)
  have hLength := h.orderly.backlog_length sender receiver
  have hAlone : s.backlog x sender receiver = [m] := by
    obtain ⟨other, hOther⟩ :=
      List.length_eq_one_iff.mp (Nat.le_antisymm hLength (List.length_pos_of_mem hMem))
    rw [hOther] at hMem ⊢
    rw [List.mem_singleton.mp hMem]
  have hLedger := h.orderly.ledger sender receiver
  rw [hAlone, hControl, sentTo, requestsTo_succ, if_pos (h.picked sender i receiver hControl)]
    at hLedger
  obtain ⟨_, hLast⟩ := List.append_inj' hLedger rfl
  exact ⟨i, hControl, (List.cons.inj hLast).1⟩

/-- No response is on its way to a sender that does not wait for one. -/
theorem Responsive.answers_eq_nil (h : Responsive x s)
    (hNot : ∀ i, (s.sender sender).control ≠ .await i receiver) :
    s.answers (receiver, sender) = [] := by
  apply List.eq_nil_iff_forall_not_mem.mpr
  intro answer hMem
  obtain ⟨i, hControl, _⟩ := h.answer sender receiver answer hMem
  exact hNot i hControl

/-- If the response has arrived, there is no other one on its way. -/
theorem Responsive.answers_eq_nil_of_ready (h : Responsive x s)
    (hReady : 0 < (s.sender sender).ready x receiver) : s.answers (receiver, sender) = [] := by
  have hOne := h.orderly.outstanding_le sender receiver
  rw [System.outstanding] at hOne
  exact List.eq_nil_of_length_eq_zero (by omega)

end Facts

section Steps

variable {x : Experiment} {s t : System}

/-- With polling at the connection, the receive for the response is posted in front of
the request. -/
theorem step_request {self i receiver : Nat} {snd next : Sender} {out : Option (Nat × MessageBase)}
    (hControl : snd.control = .loop i) (hMore : i < x.requests self)
    (hPicked : x.pickedReceiverID self i = some receiver)
    (hStep : BenchmarkSender.step x self snd = some (next, out)) :
    x.verbs.senderP = .rq → 0 < next.receives receiver := by
  obtain ⟨asked, hAsked, _, hReceives⟩ := exists_asked hControl hMore hPicked
  rw [hStep, Option.some.injEq, Prod.mk.injEq] at hAsked
  rw [hAsked.1]
  exact hReceives

/-- A request opens exactly one exchange, and noticing the response closes it. -/
theorem senderStep_responsive (h : Responsive x s) {self : Nat}
    (hNext : s.senderStep x self = some t) : Responsive x t := by
  have hOrderly := senderStep_orderly h.orderly hNext
  obtain ⟨snd, out, _, hRun, hSender, hReceiver, hAnswers, hWire⟩ := senderStep_eq_some hNext
  obtain ⟨hStep, hReady⟩ := step_cases hRun
  have hOther : ∀ sender, sender ≠ self → t.sender sender = s.sender sender := by
    intro sender hNe
    rw [hSender, Function.update_of_ne hNe]
  have hSelf : t.sender self = snd := by rw [hSender, Function.update_self]
  have hBacklog : ∀ sender receiver, sender ≠ self →
      t.outstanding x sender receiver = s.outstanding x sender receiver := by
    intro sender receiver hNe
    rw [System.outstanding, System.outstanding, System.backlog, System.backlog, hReceiver, hWire,
      if_neg hNe, List.append_nil, hAnswers, hOther sender hNe]
  -- the responses to a sender that takes a step have all been noticed before
  have hSilent : ∀ receiver, s.answers (receiver, self) = [] := by
    intro receiver
    cases hStep with
    | request hControl | leave hControl | finish hControl =>
        exact h.answers_eq_nil fun i hAwait => by rw [hControl] at hAwait; cases hAwait
    | @noticed i awaited hControl _ hLess =>
        by_cases hSame : receiver = awaited
        · rw [hSame]
          exact h.answers_eq_nil_of_ready (by omega)
        · apply h.answers_eq_nil
          intro j hAwait
          rw [hControl] at hAwait
          exact hSame (Control.await.inj hAwait).2.symm
  -- only a new request makes a sender wait
  have hAwaits : ∀ i receiver, snd.control = .await i receiver →
      (s.sender self).control = .loop i ∧ i < x.requests self ∧
        x.pickedReceiverID self i = some receiver ∧ out = some (receiver, x.expMsg self i receiver) := by
    intro i receiver hAwait
    cases hStep with
    | request hControl hMore hPicked hAfter =>
        rw [hAfter] at hAwait
        obtain ⟨rfl, rfl⟩ := Control.await.inj hAwait
        exact ⟨hControl, hMore, hPicked, rfl⟩
    | leave _ _ hAfter | noticed _ hAfter | finish _ _ hAfter =>
        rw [hAfter] at hAwait
        cases hAwait
  have hUnready : ∀ i receiver, snd.control = .await i receiver → snd.ready x receiver = 0 := by
    intro i receiver hAwait
    have hClosed := h.orderly.closed self receiver
    rw [(hAwaits i receiver hAwait).1, Control.awaits_loop, if_neg Bool.false_ne_true,
      System.outstanding] at hClosed
    have hLess := hReady receiver
    omega
  refine ⟨hOrderly, ?_, ?_, ?_, ?_, ?_, ?_, ?_⟩
  · rw [hReceiver]
    exact h.prepared
  · intro sender i receiver hAwait
    by_cases hSame : sender = self
    · subst hSame
      rw [hSelf] at hAwait
      exact (hAwaits i receiver hAwait).2.2.1
    · rw [hOther sender hSame] at hAwait
      exact h.picked sender i receiver hAwait
  · intro sender i receiver hAwait
    by_cases hSame : sender = self
    · subst hSame
      rw [hSelf] at hAwait
      apply @outstanding_of_request _ _ _ _ (x.expMsg sender i receiver) _ rfl
      rw [System.backlog, hWire, if_pos rfl, (hAwaits i receiver hAwait).2.2.2, outgoing, if_pos rfl]
      simp
    · rw [hOther sender hSame] at hAwait
      rw [hBacklog sender receiver hSame]
      exact h.owed sender i receiver hAwait
  · intro sender receiver answer hMem
    rw [hAnswers] at hMem
    by_cases hSame : sender = self
    · rw [hSame, hSilent receiver] at hMem
      cases hMem
    · rw [hOther sender hSame]
      exact h.answer sender receiver answer hMem
  · rw [hReceiver, hAnswers]
    exact h.written
  · intro sender i receiver hAwait hPos
    by_cases hSame : sender = self
    · subst hSame
      rw [hSelf] at hAwait hPos
      rw [hUnready i receiver hAwait] at hPos
      exact absurd hPos (Nat.lt_irrefl 0)
    · rw [hOther sender hSame] at hAwait hPos ⊢
      exact h.ready sender i receiver hAwait hPos
  · intro hRq sender i receiver hAwait hNone
    by_cases hSame : sender = self
    · subst hSame
      rw [hSelf] at hAwait ⊢
      obtain ⟨hControl, hMore, hPicked, _⟩ := hAwaits i receiver hAwait
      exact step_request hControl hMore hPicked hRun hRq
    · rw [hOther sender hSame] at hAwait hNone ⊢
      exact h.posted hRq sender i receiver hAwait hNone

/-- An arrival changes the contents of the slot it is placed in. -/
theorem arrive_elsewhere {sender receiver memIdx : Nat} {m : MessageBase} {rcv next : Receiver}
    (hNext : arrive x sender receiver memIdx m rcv = some next) :
    next.log = rcv.log ∧ next.control = rcv.control ∧ next.respBuffer = rcv.respBuffer ∧
      ∀ slot, slot ≠ landingSlot x sender receiver memIdx →
        next.reqBuffer slot = rcv.reqBuffer slot := by
  rw [arrive] at hNext
  rw [landingSlot]
  cases hT : x.verbs.senderT with
  | write =>
      simp only [hT, Option.some.injEq] at hNext
      subst hNext
      exact ⟨rfl, rfl, rfl, fun slot hSlot => Function.update_of_ne hSlot _ _⟩
  | send =>
      simp only [hT] at hNext
      obtain ⟨q, _, rfl⟩ := Option.map_eq_some_iff.mp hNext
      exact ⟨rfl, rfl, rfl, fun slot hSlot => Function.update_of_ne hSlot _ _⟩

/-- The slot of a request in hand is occupied. -/
theorem occupied_of_prepared {POLL : RdmaPoll} {rcv : Receiver} (hTidy : Tidy POLL rcv)
    {conn memIdx : Nat} (hControl : rcv.control = .finalizeBuf conn memIdx ∨
      rcv.control = .transfer conn memIdx) : rcv.Occupied POLL memIdx := by
  cases POLL with
  | buf => rcases hControl with hControl | hControl <;> exact .inl (by rw [hControl]; rfl)
  | srq =>
      rcases hControl with hControl | hControl
      · have hImpossible := TidySRQ.control hTidy
        rw [hControl] at hImpossible
        exact hImpossible.elim
      · exact .inl (by simp [Receiver.taken, hControl])
  | rq => exact hTidy.elim

/-- A message goes to a free slot, so the request that is being answered stays as it is. -/
theorem Prepared.arrive (h : Orderly x s) {sender receiver memIdx : Nat}
    (hPrepared : Prepared (s.receiver receiver))
    (hFree : ¬ (s.receiver receiver).Occupied x.verbs.receiverP
      (landingSlot x sender receiver memIdx))
    {m : MessageBase} {rcv : Receiver}
    (hArrive : arrive x sender receiver memIdx m (s.receiver receiver) = some rcv) :
    Prepared rcv := by
  obtain ⟨_, hControl, hResp, hReq⟩ := arrive_elsewhere hArrive
  rw [Prepared, hControl]
  cases hAt : (s.receiver receiver).control with
  | finalizeBuf conn slot | transfer conn slot =>
      have hSlot : slot ≠ landingSlot x sender receiver memIdx := by
        rintro rfl
        exact hFree (@occupied_of_prepared _ _ (h.tidy receiver) conn _ (by simp [hAt]))
      simp only [Prepared, hAt] at hPrepared
      simp only [hResp, hReq slot hSlot, hPrepared]
  | _ => trivial

/-- A step that no sender takes part in, and that neither loses nor adds a request. -/
theorem Responsive.of_sender (h : Responsive x s) (hOrderly : Orderly x t)
    (hSender : t.sender = s.sender) (hPrepared : ∀ receiver, Prepared (t.receiver receiver))
    (hOutstanding : ∀ sender receiver,
      t.outstanding x sender receiver = s.outstanding x sender receiver)
    (hAnswer : ∀ sender receiver, ∀ answer ∈ t.answers (receiver, sender),
      ∃ i, (s.sender sender).control = .await i receiver ∧ answer = answerTo x sender i)
    (hWritten : ∀ sender receiver, ∀ answer ∈ t.answers (receiver, sender),
      Written answer.respId ((t.receiver receiver).respBuffer answer.respId)) :
    Responsive x t := by
  refine ⟨hOrderly, hPrepared, ?_, ?_, ?_, hWritten, ?_, ?_⟩
  · rw [hSender]
    exact h.picked
  · intro sender i receiver hAwait
    rw [hSender] at hAwait
    rw [hOutstanding]
    exact h.owed sender i receiver hAwait
  · rw [hSender]
    exact hAnswer
  · rw [hSender]
    exact h.ready
  · rw [hSender]
    exact h.posted

/-- A request that arrives is still the one its sender waits for. -/
theorem arrival_responsive (h : Responsive x s) {sender receiver memIdx : Nat}
    (hNext : s.arrival x sender receiver memIdx = some t) : Responsive x t := by
  have hOrderly := arrival_orderly h.orderly hNext
  have hFree := h.orderly.arrival_unoccupied hNext
  obtain ⟨m, rest, rcv, _, hArrive, hSender, hReceiver, hAnswers, _⟩ := arrival_eq_some hNext
  have hLog : ∀ destination, (t.receiver destination).log = (s.receiver destination).log := by
    intro destination
    rw [hReceiver]
    by_cases hDestination : destination = receiver
    · rw [hDestination, Function.update_self, (arrive_elsewhere hArrive).1]
    · rw [Function.update_of_ne hDestination]
  have hResp : ∀ destination,
      (t.receiver destination).respBuffer = (s.receiver destination).respBuffer := by
    intro destination
    rw [hReceiver]
    by_cases hDestination : destination = receiver
    · rw [hDestination, Function.update_self, (arrive_elsewhere hArrive).2.2.1]
    · rw [Function.update_of_ne hDestination]
  -- nothing new is logged or sent, so as much as before is left
  have hBacklog : ∀ source destination,
      t.backlog x source destination = s.backlog x source destination := by
    intro source destination
    have hAfter := hOrderly.ledger source destination
    rw [hLog, hSender, ← h.orderly.ledger source destination] at hAfter
    exact List.append_cancel_left hAfter
  apply h.of_sender hOrderly hSender
  · intro destination
    rw [hReceiver]
    by_cases hDestination : destination = receiver
    · rw [hDestination, Function.update_self]
      exact Prepared.arrive h.orderly (h.prepared receiver) hFree hArrive
    · rw [Function.update_of_ne hDestination]
      exact h.prepared destination
  · intro source destination
    rw [System.outstanding, System.outstanding, hBacklog, hAnswers, hSender]
  · rw [hAnswers]
    exact h.answer
  · intro source destination answer hMem
    rw [hAnswers] at hMem
    rw [hResp]
    exact h.written source destination answer hMem

theorem step_prepared {POLL : RdmaPoll} {expectedClients : Nat} {rcv next : Receiver}
    {out : Option (Nat × Answer)} (h : Prepared rcv)
    (hStep : BenchmarkReceiver.step POLL expectedClients rcv = some (next, out)) :
    Prepared next := by
  cases BenchmarkReceiver.step_cases hStep with
  | @poll pos found hControl hPoll =>
      cases POLL with
      | buf =>
          rw [poll] at hPoll
          split at hPoll
          all_goals
            obtain rfl := Option.some.inj hPoll
            trivial
      | srq =>
          obtain ⟨_, _, rfl⟩ := Option.map_eq_some_iff.mp hPoll
          trivial
      | rq =>
          obtain rfl := Option.some.inj hPoll
          trivial
  | @handle conn memIdx hControl =>
      cases hType : (rcv.reqBuffer memIdx).type with
      | expMsg =>
          simp only [handle, hType]
          cases POLL with
          | buf | srq | rq => exact Function.update_self _ _ _
      | finishedExp =>
          simp only [handle, hType]
          split
          · trivial
          · cases POLL with
            | buf | srq | rq => trivial
      | empty | initExp =>
          simp only [handle, hType]
          trivial
  | @finalizeBuf conn memIdx hControl =>
      simp only [Prepared, hControl] at h
      simp only [Prepared, finalize, Function.update_self]
      exact h
  | @transfer conn memIdx hControl =>
      cases POLL with
      | buf | srq | rq => trivial
  | finalizeSRQ hControl | finalizeFinished hControl => trivial

/-- A slot of the response buffer is written to, if at all, for a request that names it. -/
theorem step_written {POLL : RdmaPoll} {expectedClients slot : Nat} {rcv next : Receiver}
    {out : Option (Nat × Answer)} (h : Written slot (rcv.respBuffer slot))
    (hStep : BenchmarkReceiver.step POLL expectedClients rcv = some (next, out)) :
    Written slot (next.respBuffer slot) := by
  cases BenchmarkReceiver.step_cases hStep with
  | @poll pos found hControl hPoll =>
      cases POLL with
      | buf =>
          rw [poll] at hPoll
          split at hPoll
          all_goals
            obtain rfl := Option.some.inj hPoll
            exact h
      | srq =>
          obtain ⟨_, _, rfl⟩ := Option.map_eq_some_iff.mp hPoll
          exact h
      | rq =>
          obtain rfl := Option.some.inj hPoll
          exact h
  | @handle conn memIdx hControl =>
      cases hType : (rcv.reqBuffer memIdx).type with
      | expMsg =>
          simp only [handle, hType]
          by_cases hSlot : slot = (rcv.reqBuffer memIdx).id
          · rw [hSlot, Function.update_self]
            exact ⟨rfl, rfl⟩
          · rw [Function.update_of_ne hSlot]
            exact h
      | finishedExp | empty | initExp =>
          simp only [handle, hType]
          exact h
  | transfer =>
      cases POLL with
      | buf | srq | rq => exact h
  | finalizeBuf | finalizeSRQ | finalizeFinished => exact h

/-- What is transferred is the response to the request in hand. -/
theorem Responsive.transferred (h : Responsive x s) {self : Nat} {rcv : Receiver}
    {destination : Nat} {answer : Answer}
    (hStep : BenchmarkReceiver.step x.verbs.receiverP x.expectedClients (s.receiver self) =
      some (rcv, some (destination, answer))) :
    (∃ i, (s.sender destination).control = .await i self ∧ answer = answerTo x destination i) ∧
      Written answer.respId (rcv.respBuffer answer.respId) := by
  generalize hOut : some (destination, answer) = out at hStep
  cases BenchmarkReceiver.step_cases hStep with
  | poll | handle | finalizeBuf | finalizeSRQ | finalizeFinished => cases hOut
  | @transfer conn memIdx hControl =>
      obtain ⟨rfl, rfl⟩ := Prod.mk.inj (Option.some.inj hOut)
      have hHand : ((s.receiver self).reqBuffer memIdx).asRequest ∈ s.backlog x conn self := by
        simp [System.backlog, Receiver.unanswered, Receiver.inHand, hControl]
      obtain ⟨i, hAwait, hRequest⟩ := h.request_eq hHand rfl
      have hPrepared := h.prepared self
      simp only [Prepared, hControl] at hPrepared
      have hDestination : ((s.receiver self).reqBuffer memIdx).destinationNodeID = conn :=
        congrArg MessageBase.destinationNodeID hRequest
      have hPtr : ((s.receiver self).reqBuffer memIdx).rdmaPtr = x.respRDMAOffset conn :=
        congrArg MessageBase.rdmaPtr hRequest
      have hId : ((s.receiver self).reqBuffer memIdx).id = x.rand conn i % x.respBufferSize :=
        congrArg MessageBase.id hRequest
      have hKept : (BenchmarkReceiver.transferred x.verbs.receiverP (s.receiver self) conn
          memIdx).respBuffer = (s.receiver self).respBuffer := by
        cases hP : x.verbs.receiverP with
        | buf | srq | rq => rfl
      rw [hDestination, hKept]
      refine ⟨⟨i, hAwait, ?_⟩, ?_⟩
      · rw [hPrepared, hPtr, hId]
        rfl
      · rw [hPrepared]
        exact ⟨rfl, rfl⟩

/-- Handling a request turns it into the response to it. -/
theorem receiverStep_responsive (h : Responsive x s) {self : Nat}
    (hNext : s.receiverStep x self = some t) : Responsive x t := by
  have hOrderly := receiverStep_orderly h.orderly hNext
  obtain ⟨rcv, out, hStep, hSender, hReceiver, hWire, hAnswers⟩ := receiverStep_eq_some hNext
  obtain ⟨hProgress, _⟩ := step_progress (h.orderly.tidy self) (h.orderly.wellTyped self) hStep
  have hOwner : ∀ conn, ∀ m ∈ (s.receiver self).unanswered x.verbs.receiverP conn,
      m.type = .expMsg → m.destinationNodeID = conn := by
    intro conn m hMem hType
    obtain ⟨i, _, rfl⟩ := h.request_eq (List.mem_append_left _ hMem) hType
    rfl
  apply h.of_sender hOrderly hSender
  · intro receiver
    rw [hReceiver]
    by_cases hSame : receiver = self
    · rw [hSame, Function.update_self]
      exact step_prepared (h.prepared self) hStep
    · rw [Function.update_of_ne hSame]
      exact h.prepared receiver
  · intro sender receiver
    rw [System.outstanding, System.outstanding, System.backlog, System.backlog, hSender, hWire,
      hAnswers, hReceiver, List.filter_append, List.filter_append, List.length_append,
      List.length_append, List.length_append]
    by_cases hSame : receiver = self
    · subst hSame
      have hAnswered := (progress_spec hProgress hOwner sender).2
      rw [Function.update_self, if_pos rfl]
      omega
    · rw [Function.update_of_ne hSame, if_neg hSame, List.length_nil, Nat.add_zero]
  · intro sender receiver answer hMem
    rw [hAnswers, List.mem_append] at hMem
    rcases hMem with hOld | hNew
    · exact h.answer sender receiver answer hOld
    · split at hNew
      case isFalse => cases hNew
      case isTrue hSame =>
        cases out with
        | none => cases hNew
        | some transfer =>
            obtain ⟨destination, sent⟩ := transfer
            rw [outgoing] at hNew
            split at hNew
            case isFalse => cases hNew
            case isTrue hDestination =>
              rw [List.mem_singleton.mp hNew, hSame, ← hDestination]
              exact (h.transferred hStep).1
  · intro sender receiver answer hMem
    rw [hAnswers, List.mem_append] at hMem
    rw [hReceiver]
    rcases hMem with hOld | hNew
    · have hBefore := h.written sender receiver answer hOld
      by_cases hSame : receiver = self
      · rw [hSame] at hBefore ⊢
        rw [Function.update_self]
        exact step_written hBefore hStep
      · rwa [Function.update_of_ne hSame]
    · split at hNew
      case isFalse => cases hNew
      case isTrue hSame =>
        cases out with
        | none => cases hNew
        | some transfer =>
            obtain ⟨destination, sent⟩ := transfer
            rw [outgoing] at hNew
            split at hNew
            case isFalse => cases hNew
            case isTrue hDestination =>
              rw [List.mem_singleton.mp hNew, hSame, Function.update_self]
              exact (h.transferred hStep).2

/-- What arrives of the response to a request, inline or from the slot. -/
theorem responds_delivered {self i : Nat} {rcv : Receiver}
    (hWritten : Written (answerTo x self i).respId (rcv.respBuffer (answerTo x self i).respId)) :
    (delivered x (answerTo x self i) rcv).rdmaPtr = x.respRDMAOffset self ∧
      Responds x self i (delivered x (answerTo x self i) rcv).response := by
  rw [delivered]
  by_cases hInline : x.RespondsInline
  · rw [if_pos hInline]
    exact ⟨rfl, ⟨rfl, rfl⟩, fun _ => rfl⟩
  · rw [if_neg hInline]
    exact ⟨rfl, hWritten, fun hNow => absurd hNow hInline⟩

/-- A response that arrives can be noticed, and is what was posted or read. -/
theorem responseArrives_responds {self i receiver : Nat} {snd next : Sender} {answer : Answer}
    (hAwait : snd.control = .await i receiver) (hPtr : answer.rdmaPtr = x.respRDMAOffset self)
    (hFlag : answer.response.transferFlag = 1)
    (hNext : responseArrives x self receiver snd answer = some next) :
    next.control = snd.control ∧ next.responseArea = answer.response ∧
      0 < next.ready x receiver ∧ (x.verbs.senderP = .rq → 0 < next.completed receiver) := by
  rw [responseArrives] at hNext
  cases hVerbs : x.verbs with
  | writeWrite | sendWrite =>
      simp only [hVerbs, Verbs.receiverT] at hNext
      rw [if_pos hPtr] at hNext
      obtain rfl := Option.some.inj hNext
      refine ⟨rfl, rfl, ?_, fun hRq => by cases hRq⟩
      simp [Sender.ready, hVerbs, Verbs.senderP, hAwait, hFlag]
  | sendSend | writeSend =>
      simp only [hVerbs, Verbs.receiverT] at hNext
      obtain ⟨_, hSome⟩ := Option.ite_none_right_eq_some.mp hNext
      obtain rfl := Option.some.inj hSome
      refine ⟨rfl, rfl, ?_, fun _ => ?_⟩
      · simp [Sender.ready, hVerbs, Verbs.senderP]
      · simp

/-- A response that arrives is the one to the request its sender waits for. -/
theorem answerArrival_responsive (h : Responsive x s) {receiver sender : Nat}
    (hNext : s.answerArrival x receiver sender = some t) : Responsive x t := by
  have hOrderly := answerArrival_orderly h.orderly hNext
  obtain ⟨answer, rest, snd, hPending, hArrives, hSender, hReceiver, hWire, hAnswers⟩ :=
    answerArrival_eq_some hNext
  obtain ⟨i, hAwait, rfl⟩ := h.answer sender receiver answer (by rw [hPending]; simp)
  obtain ⟨hPtr, hResponds⟩ := responds_delivered
    (h.written sender receiver (answerTo x sender i) (by rw [hPending]; simp))
  obtain ⟨hControl, hArea, hReady, hCompleted⟩ :=
    responseArrives_responds hAwait hPtr hResponds.written.2 hArrives
  have hSelf : t.sender sender = snd := by rw [hSender, Function.update_self]
  have hOther : ∀ other, other ≠ sender → t.sender other = s.sender other := by
    intro other hNe
    rw [hSender, Function.update_of_ne hNe]
  have hControls : ∀ other, (t.sender other).control = (s.sender other).control := by
    intro other
    by_cases hSame : other = sender
    · rw [hSame, hSelf, hControl]
    · rw [hOther other hSame]
  -- the sender waits for this response and for no other one
  have hThis : ∀ j other, (t.sender sender).control = .await j other → j = i ∧ other = receiver := by
    intro j other hWaits
    rw [hControls, hAwait] at hWaits
    obtain ⟨rfl, rfl⟩ := Control.await.inj hWaits
    exact ⟨rfl, rfl⟩
  have hSubset : ∀ other destination, ∀ found ∈ t.answers (destination, other),
      found ∈ s.answers (destination, other) := by
    intro other destination found hMem
    rw [hAnswers] at hMem
    by_cases hPair : (destination, other) = (receiver, sender)
    · rw [hPair, Function.update_self] at hMem
      rw [hPair, hPending]
      exact List.mem_cons_of_mem _ hMem
    · rwa [Function.update_of_ne hPair] at hMem
  refine ⟨hOrderly, ?_, ?_, ?_, ?_, ?_, ?_, ?_⟩
  · rw [hReceiver]
    exact h.prepared
  · intro other j destination hWaits
    rw [hControls] at hWaits
    exact h.picked other j destination hWaits
  · intro other j destination hWaits
    by_cases hSame : other = sender
    · subst hSame
      obtain ⟨rfl, rfl⟩ := hThis j destination hWaits
      apply outstanding_of_ready
      rw [hSelf]
      exact hReady
    · have hBefore := h.owed other j destination (by rw [← hControls]; exact hWaits)
      have hPair : (destination, other) ≠ (receiver, sender) :=
        fun hEq => hSame (Prod.mk.inj hEq).2
      rw [System.outstanding, System.backlog] at hBefore ⊢
      rwa [hReceiver, hWire, hAnswers, hOther other hSame, Function.update_of_ne hPair]
  · intro other destination found hMem
    rw [hControls]
    exact h.answer other destination found (hSubset other destination found hMem)
  · intro other destination found hMem
    rw [hReceiver]
    exact h.written other destination found (hSubset other destination found hMem)
  · intro other j destination hWaits hPos
    by_cases hSame : other = sender
    · subst hSame
      obtain ⟨rfl, rfl⟩ := hThis j destination hWaits
      rw [hSelf, hArea]
      exact hResponds
    · rw [hOther other hSame] at hWaits hPos ⊢
      exact h.ready other j destination hWaits hPos
  · intro hRq other j destination hWaits hNone
    by_cases hSame : other = sender
    · subst hSame
      obtain ⟨rfl, rfl⟩ := hThis j destination hWaits
      rw [hSelf] at hNone
      have hPositive := hCompleted hRq
      omega
    · rw [hOther other hSame] at hWaits hNone ⊢
      exact h.posted hRq other j destination hWaits hNone

end Steps

theorem init_responsive (x : Experiment) : Responsive x (System.init x) := by
  refine ⟨init_orderly x, ?_, ?_, ?_, ?_, ?_, ?_, ?_⟩
  · intro receiver
    cases hP : x.verbs.receiverP with
    | buf | srq | rq =>
        simp only [System.init, hP]
        trivial
  · intro sender i receiver hAwait
    cases hAwait
  · intro sender i receiver hAwait
    cases hAwait
  · intro sender receiver answer hMem
    cases hMem
  · intro sender receiver answer hMem
    cases hMem
  · intro sender i receiver hAwait
    cases hAwait
  · intro _ sender i receiver hAwait
    cases hAwait

/-- Every step keeps requests and responses matched. -/
theorem next_responsive {x : Experiment} {s t : System} (h : Responsive x s) {op : Operation}
    (hNext : (benchmarkMachine x).next s op = some t) : Responsive x t := by
  cases op with
  | sender self => exact senderStep_responsive h hNext
  | arrive sender receiver memIdx => exact arrival_responsive h hNext
  | receiver self => exact receiverStep_responsive h hNext
  | answer receiver sender => exact answerArrival_responsive h hNext

theorem reachable_responsive {x : Experiment} {s : System}
    (h : (benchmarkMachine x).Reachable s) : Responsive x s :=
  h.invariant (init_responsive x) fun _ _ _ hInv hNext => next_responsive hInv hNext

/-- A sender that waits for the response to a request has that request outstanding
and nothing else, and what it takes for the response has the flag and names the slot
that the request asked for. If responses are posted inline, it also names the
response area of this sender, whoever else asked for the slot. -/
theorem responses_match {x : Experiment} {s : System}
    (hReachable : (benchmarkMachine x).Reachable s) {sender i receiver : Nat}
    (hAwait : (s.sender sender).control = .await i receiver) :
    s.outstanding x sender receiver = 1 ∧
      (∀ other, other ≠ receiver → s.outstanding x sender other = 0) ∧
      (∀ answer ∈ s.answers (receiver, sender), answer = answerTo x sender i) ∧
      ∀ t, (benchmarkMachine x).next s (.sender sender) = some t →
        (t.sender sender).control = .loop (i + 1) ∧
          Responds x sender i (s.sender sender).responseArea := by
  have h := reachable_responsive hReachable
  refine ⟨?_, ?_, ?_, ?_⟩
  · exact Nat.le_antisymm (h.orderly.outstanding_le sender receiver)
      (h.owed sender i receiver hAwait)
  · intro other hOther
    by_contra hSome
    obtain ⟨j, hWaits⟩ := h.orderly.awaits_of_outstanding (Nat.pos_of_ne_zero hSome)
    rw [hAwait] at hWaits
    exact hOther (Control.await.inj hWaits).2.symm
  · intro answer hMem
    obtain ⟨j, hWaits, rfl⟩ := h.answer sender receiver answer hMem
    rw [hAwait] at hWaits
    rw [(Control.await.inj hWaits).1]
  · intro t hNext
    obtain ⟨snd, out, _, hRun, hSender, _⟩ := senderStep_eq_some hNext
    obtain ⟨hStep, _⟩ := step_cases hRun
    cases hStep with
    | request hControl | leave hControl | finish hControl =>
        rw [hAwait] at hControl
        cases hControl
    | @noticed j awaited hControl hLoop hLess =>
        rw [hAwait] at hControl
        obtain ⟨rfl, rfl⟩ := Control.await.inj hControl
        rw [hSender, Function.update_self]
        exact ⟨hLoop, h.ready sender i receiver hAwait (by omega)⟩

/-- Two senders whose requests name the same slot of the response buffer. Responses are
inline. -/
def sharedSlot : Experiment where
  verbs := .writeWrite
  registrations := [⟨"10.0.0.1:5400", "receiver", .server⟩, ⟨"10.0.0.2", "RDMAClient", .client⟩,
    ⟨"10.0.0.3", "RDMAClient", .client⟩]
  requests _ := 1
  rand _ _ := 7
  sizeofResponse := 128
  respBufferSize := 4
  reqBufferOffset _ := 0
  respRDMAOffset sender := 100 * sender
  connectedSenderIds _ := [2, 1]
  allConnected _ := List.Perm.swap 1 2 []

def sharedSlotRun : List Operation :=
  [.sender 1, .sender 2, .arrive 2 0 0, .arrive 1 0 0, .receiver 0, .receiver 0, .receiver 0,
    .receiver 0, .receiver 0, .receiver 0, .receiver 0, .receiver 0, .receiver 0, .receiver 0,
    .receiver 0, .answer 0 2, .answer 0 1]

/-- Both senders ask for slot 3, and sender 1 still finds its own response area in it. -/
theorem responses_match_shared :
    ∃ s t, (benchmarkMachine sharedSlot).Reachable s ∧
      (benchmarkMachine sharedSlot).next s (.sender 1) = some t ∧
      (t.sender 1).control = .loop 1 ∧ (s.sender 1).responseArea.responseId = 3 ∧
      (s.sender 1).responseArea.senderNodeId = 100 := by
  have hReachable := @Machine.reachable_of_replay _ _ (benchmarkMachine sharedSlot) _ sharedSlotRun rfl
  obtain ⟨hLoop, hResponds⟩ :=
    (@responses_match sharedSlot _ hReachable 1 0 0 rfl).2.2.2 _ rfl
  exact ⟨_, _, hReachable, rfl, hLoop, hResponds.written.1, hResponds.area (by decide)⟩

/-- With longer responses, the sender that is answered first finds the other one's
area in the same run. -/
theorem response_names_other :
    ∃ s, (benchmarkMachine { sharedSlot with sizeofResponse := 256 }).Reachable s ∧
      (s.sender 1).control = .await 0 0 ∧ (s.sender 1).responseArea = ⟨200, 3, 1⟩ :=
  ⟨_, @Machine.reachable_of_replay _ _
    (benchmarkMachine { sharedSlot with sizeofResponse := 256 }) _ sharedSlotRun rfl, rfl, rfl⟩

end Benchmark
