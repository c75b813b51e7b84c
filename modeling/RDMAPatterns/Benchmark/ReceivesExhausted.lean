import RDMAPatterns.Benchmark.PostedReceives

/-! How a sender uses up the receives of a receiver that registered after all
senders. The senders take turns: each sends one request at a time, until all but
one are through. -/
namespace Benchmark

open BenchmarkReceiver BenchmarkSender Channels NodeIDSequencer Transition

/-- Nothing is on its way. -/
structure Idle (s : System) : Prop where
  wire : ∀ connection, s.wire connection = []
  answers : ∀ connection, s.answers connection = []

theorem Idle.same {s t : System} (h : Idle s) (hWire : t.wire = s.wire)
    (hAnswers : t.answers = s.answers) : Idle t where
  wire connection := by rw [hWire, h.wire]
  answers connection := by rw [hAnswers, h.answers]

/-- A receiver that waits for messages. -/
structure Resting (rcv : Receiver) : Prop where
  control : rcv.control = .poll 0
  completed : rcv.srq.completed = []

section Operations

variable {x : Experiment} {s : System}

/-- A sender that can step can do so in the whole system, -/
theorem exists_senderStep {self : Nat} {snd : Sender} {out : Option (Nat × MessageBase)}
    (hSelf : self ∈ x.senderIds)
    (hStep : BenchmarkSender.step x self (s.sender self) = some (snd, out)) :
    ∃ t, (benchmarkMachine x).next s (.sender self) = some t ∧
      t.sender = Function.update s.sender self snd ∧ t.receiver = s.receiver ∧
      t.answers = s.answers ∧ t.wire = enqueue s.wire self out := by
  refine ⟨{ s with sender := Function.update s.sender self snd, wire := enqueue s.wire self out },
    ?_, rfl, rfl, rfl, rfl⟩
  simp [benchmarkMachine, System.senderStep, hSelf, hStep]

theorem exists_arrival {sender receiver memIdx : Nat} {m : MessageBase} {rest : List MessageBase}
    {rcv : Receiver} (hWire : s.wire (sender, receiver) = m :: rest)
    (hArrive : arrive x sender receiver memIdx m (s.receiver receiver) = some rcv) :
    ∃ t, (benchmarkMachine x).next s (.arrive sender receiver memIdx) = some t ∧
      t.sender = s.sender ∧ t.receiver = Function.update s.receiver receiver rcv ∧
      t.answers = s.answers ∧ t.wire = Function.update s.wire (sender, receiver) rest := by
  refine ⟨{ s with
    receiver := Function.update s.receiver receiver rcv
    wire := Function.update s.wire (sender, receiver) rest },
    ?_, rfl, rfl, rfl, rfl⟩
  simp [benchmarkMachine, System.arrival, hWire, hArrive]

theorem exists_receiverStep (self : Nat) {rcv : Receiver} {out : Option (Nat × Answer)}
    (hStep : BenchmarkReceiver.step x.verbs.receiverP x.expectedClients (s.receiver self) =
      some (rcv, out)) :
    ∃ t, (benchmarkMachine x).next s (.receiver self) = some t ∧
      t.sender = s.sender ∧ t.receiver = Function.update s.receiver self rcv ∧
      t.wire = s.wire ∧ t.answers = enqueue s.answers self out := by
  refine ⟨{ s with
    receiver := Function.update s.receiver self rcv
    answers := enqueue s.answers self out },
    ?_, rfl, rfl, rfl, rfl⟩
  simp [benchmarkMachine, System.receiverStep, hStep]

/-- While the slot holds what was posted, it does not matter when it is read. -/
theorem delivered_of_slot (x : Experiment) {answer : Answer} {rcv : Receiver}
    (hSlot : rcv.respBuffer answer.respId = answer.response) : delivered x answer rcv = answer := by
  rw [delivered, hSlot]
  split
  · rfl
  · rfl

theorem exists_answerArrival {receiver sender : Nat} {answer : Answer} {rest : List Answer}
    {snd : Sender} (hAnswers : s.answers (receiver, sender) = answer :: rest)
    (hArrives : responseArrives x sender receiver (s.sender sender)
      (delivered x answer (s.receiver receiver)) = some snd) :
    ∃ t, (benchmarkMachine x).next s (.answer receiver sender) = some t ∧
      t.sender = Function.update s.sender sender snd ∧ t.receiver = s.receiver ∧
      t.wire = s.wire ∧ t.answers = Function.update s.answers (receiver, sender) rest := by
  refine ⟨{ s with
    sender := Function.update s.sender sender snd
    answers := Function.update s.answers (receiver, sender) rest },
    ?_, rfl, rfl, rfl, rfl⟩
  simp [benchmarkMachine, System.answerArrival, hAnswers, hArrives]

end Operations

section Posted

variable {x : Experiment} {s : System}

/-- A sender that is not in `finalizePhase` has not finished. -/
theorem Orderly.clientsFinished_lt (h : Orderly x s) {sender : Nat} (hSender : sender ∈ x.senderIds)
    (hOpen : ∀ next, (s.sender sender).control ≠ .finalizePhase next) (receiver : Nat) :
    (s.receiver receiver).clientsFinished < x.expectedClients := by
  have hNotFinished : sender ∉ finishedSenders (s.receiver receiver).log := by
    intro hFinished
    obtain ⟨m, hLogged, hType⟩ := mem_finishedSenders.mp hFinished
    have hSent := (h.log_prefix sender receiver).subset (mem_logOf.mpr hLogged)
    rcases mem_sentTo hSent with ⟨hRequest, _⟩ | ⟨_, next, hControl⟩
    · rw [hType] at hRequest
      cases hRequest
    · exact hOpen next hControl
  have hAll : (sender :: finishedSenders (s.receiver receiver).log).Nodup :=
    List.nodup_cons.mpr ⟨hNotFinished, h.finishedSenders_nodup receiver⟩
  have hLength := (List.subperm_of_subset hAll
    (List.cons_subset.mpr ⟨hSender, h.finishedSenders_subset receiver⟩)).length_le
  rw [List.length_cons, finishedSenders, List.length_map, (h.counted receiver).finished] at hLength
  exact hLength

/-- As long as some sender has not finished, a resting receiver has a receive. -/
theorem Orderly.posted_of_resting (h : Orderly x s) (hSrq : x.verbs.receiverP = .srq)
    {sender : Nat} (hSender : sender ∈ x.senderIds)
    (hOpen : ∀ next, (s.sender sender).control ≠ .finalizePhase next) {receiver : Nat}
    (hResting : Resting (s.receiver receiver)) :
    (s.receiver receiver).srq.posted ≠ [] := by
  have hTidy := h.tidy receiver
  rw [hSrq] at hTidy
  have hReceives := hTidy.receives
  have hLess := h.clientsFinished_lt hSender hOpen receiver
  have hEnough := expectedClients_le x receiver
  rw [Verbs.SharedReceiveQueue.held, hResting.completed, h.length receiver, Receiver.taken,
    hResting.control, List.map_nil, List.append_nil, List.length_nil] at hReceives
  apply List.ne_nil_of_length_pos
  omega

end Posted

section Requests

variable {x : Experiment} {s : System} {sender receiver : Nat}

/-- A request is sent, and the receive for its response is posted. -/
theorem exists_asked {self i : Nat} {snd : Sender} (hControl : snd.control = .loop i)
    (hMore : i < x.requests self) (hPicked : x.pickedReceiverID self i = some receiver) :
    ∃ next, BenchmarkSender.step x self snd =
        some (next, some (receiver, x.expMsg self i receiver)) ∧
      next.control = .await i receiver ∧ (x.verbs.senderP = .rq → 0 < next.receives receiver) := by
  cases hP : x.verbs.senderP with
  | rq =>
      refine ⟨{
        control := .await i receiver
        responseArea := { snd.responseArea with transferFlag := 0 }
        receives := Function.update snd.receives receiver (snd.receives receiver + 1)
        completed := snd.completed }, ?_, rfl, ?_⟩
      · simp [BenchmarkSender.step, hControl, hMore, request, hPicked, hP]
      · simp
  | buf | srq =>
      refine ⟨{ snd with
        control := .await i receiver
        responseArea := { snd.responseArea with transferFlag := 0 } }, ?_, rfl, ?_⟩
      · simp [BenchmarkSender.step, hControl, hMore, request, hPicked, hP]
      · intro hRq
        cases hRq

/-- A message lands at a resting receiver and is polled. -/
theorem exists_polled (expectedClients : Nat) {rcv : Receiver} (hResting : Resting rcv)
    {memIdx : Nat} (hPosted : memIdx ∈ rcv.srq.posted) (sender : Nat) (m : MessageBase) :
    ∃ landed next, sendArrives rcv sender memIdx m = some landed ∧
      BenchmarkReceiver.step .srq expectedClients landed = some (next, none) ∧
      next.control = .handle sender memIdx ∧ next.reqBuffer memIdx = m ∧
      next.srq.completed = [] := by
  obtain ⟨hControl, hCompleted⟩ := hResting
  refine ⟨{ writeArrives rcv memIdx m with
    srq := ⟨rcv.srq.posted.erase memIdx, [(sender, memIdx)]⟩ },
    { writeArrives rcv memIdx m with
      srq := ⟨rcv.srq.posted.erase memIdx, []⟩, control := .handle sender memIdx },
    ?_, ?_, rfl, ?_, rfl⟩
  · simp [sendArrives, Verbs.SharedReceiveQueue.arrive, hPosted, hCompleted]
  · simp [BenchmarkReceiver.step, BenchmarkReceiver.poll, writeArrives, hControl,
      Verbs.SharedReceiveQueue.poll]
  · simp [writeArrives]

/-- A transfer reaches a resting receiver, which takes it up. -/
theorem exists_handed (hSrq : x.verbs.receiverP = .srq)
    (hReachable : (benchmarkMachine x).Reachable s) (hIdle : Idle s)
    (hSender : sender ∈ x.senderIds) (hResting : Resting (s.receiver receiver))
    (hPosted : (s.receiver receiver).srq.posted ≠ [])
    {snd : Sender} {m : MessageBase}
    (hStep : BenchmarkSender.step x sender (s.sender sender) = some (snd, some (receiver, m))) :
    ∃ t rcv memIdx, (benchmarkMachine x).Reachable t ∧ Idle t ∧
      t.sender = Function.update s.sender sender snd ∧
      t.receiver = Function.update s.receiver receiver rcv ∧
      rcv.control = .handle sender memIdx ∧ rcv.reqBuffer memIdx = m ∧ rcv.srq.completed = [] := by
  obtain ⟨memIdx, hMem⟩ := List.exists_mem_of_ne_nil _ hPosted
  obtain ⟨landed, rcv, hLands, hPolls, hControl, hBuffer, hCompleted⟩ :=
    exists_polled x.expectedClients hResting hMem sender m
  obtain ⟨t₁, hNext₁, hSender₁, hReceiver₁, hAnswers₁, hWire₁⟩ := exists_senderStep hSender hStep
  have hOnWire : t₁.wire (sender, receiver) = [m] := by
    rw [hWire₁, enqueue_apply, hIdle.wire]
    simp [outgoing]
  have hArrive : arrive x sender receiver memIdx m (t₁.receiver receiver) = some landed := by
    rcases x.verbs.senderT_eq with ⟨_, hP⟩ | ⟨hT, _⟩
    · rw [hSrq] at hP
      cases hP
    · rw [hReceiver₁, arrive]
      simp only [hT]
      exact hLands
  obtain ⟨t₂, hNext₂, hSender₂, hReceiver₂, hAnswers₂, hWire₂⟩ := exists_arrival hOnWire hArrive
  have hPoll : BenchmarkReceiver.step x.verbs.receiverP x.expectedClients (t₂.receiver receiver) =
      some (rcv, none) := by
    rw [hReceiver₂, Function.update_self, hSrq]
    exact hPolls
  obtain ⟨t, hNext, hSenderT, hReceiverT, hWireT, hAnswersT⟩ := exists_receiverStep receiver hPoll
  refine ⟨t, rcv, memIdx, ((hReachable.step hNext₁).step hNext₂).step hNext, ?_, ?_, ?_,
    hControl, hBuffer, hCompleted⟩
  · constructor
    · intro connection
      rw [hWireT, hWire₂, hWire₁]
      by_cases hSame : connection = (sender, receiver)
      · rw [hSame, Function.update_self]
      · simp [enqueue, Function.update_of_ne hSame, hIdle.wire]
    · intro connection
      rw [hAnswersT, hAnswers₂, hAnswers₁]
      exact hIdle.answers connection
  · rw [hSenderT, hSender₂, hSender₁]
  · rw [hReceiverT, hReceiver₂, hReceiver₁, Function.update_idem]

/-- A request that was taken up is answered. -/
theorem exists_served (expectedClients : Nat) {rcv : Receiver} {memIdx : Nat}
    (hControl : rcv.control = .handle sender memIdx)
    (hType : (rcv.reqBuffer memIdx).type = .expMsg) :
    ∃ handled next response, BenchmarkReceiver.step .srq expectedClients rcv =
        some (handled, none) ∧
      BenchmarkReceiver.step .srq expectedClients handled =
        some (next, some ((rcv.reqBuffer memIdx).destinationNodeID,
          ⟨(rcv.reqBuffer memIdx).rdmaPtr, (rcv.reqBuffer memIdx).id, response⟩)) ∧
      next.respBuffer (rcv.reqBuffer memIdx).id = response ∧ response.transferFlag = 1 ∧
      next.control = .finalizeSRQ sender memIdx ∧ next.srq = rcv.srq := by
  have hHandled : BenchmarkReceiver.step .srq expectedClients rcv =
      some (handle .srq expectedClients rcv sender memIdx, none) := by
    rw [BenchmarkReceiver.step, hControl]
  refine ⟨_, transferred .srq (handle .srq expectedClients rcv sender memIdx) sender memIdx,
    ⟨(rcv.reqBuffer memIdx).rdmaPtr, (rcv.reqBuffer memIdx).id, 1⟩, hHandled, ?_, ?_, rfl, rfl, ?_⟩
  · simp [BenchmarkReceiver.step, handle, hType, transfer]
  · simp [transferred, handle, hType]
  · simp [transferred, handle, hType]

/-- The response to a request is noticed. -/
theorem exists_noticed (x : Experiment) (self : Nat) {i : Nat} {snd : Sender} (answer : Answer)
    (hControl : snd.control = .await i receiver)
    (hReceives : x.verbs.senderP = .rq → 0 < snd.receives receiver)
    (hOffset : answer.rdmaPtr = x.respRDMAOffset self)
    (hFlag : answer.response.transferFlag = 1) :
    ∃ ready next, responseArrives x self receiver snd answer = some ready ∧
      BenchmarkSender.step x self ready = some (next, none) ∧ next.control = .loop (i + 1) := by
  cases hVerbs : x.verbs with
  | writeWrite | sendWrite =>
      refine ⟨{ snd with responseArea := answer.response }, { snd with
        control := .loop (i + 1), responseArea := { answer.response with transferFlag := 0 } },
        ?_, ?_, rfl⟩
      · simp [responseArrives, hVerbs, Verbs.receiverT, hOffset]
      · simp [BenchmarkSender.step, awaitResponse, hControl, hVerbs, Verbs.senderP, hFlag]
  | sendSend | writeSend =>
      have hPosted : 0 < snd.receives receiver := hReceives (by rw [hVerbs]; rfl)
      refine ⟨{ snd with
        responseArea := answer.response
        receives := Function.update snd.receives receiver (snd.receives receiver - 1)
        completed := Function.update snd.completed receiver (snd.completed receiver + 1) },
        { snd with
          control := .loop (i + 1)
          responseArea := answer.response
          receives := Function.update snd.receives receiver (snd.receives receiver - 1) },
        ?_, ?_, rfl⟩
      · simp [responseArrives, hVerbs, Verbs.receiverT, hPosted]
      · simp [BenchmarkSender.step, awaitResponse, hControl, hVerbs, Verbs.senderP]

/-- One request of a sender, up to the point where the receiver is about to post
its receive again. -/
theorem exists_request (hSrq : x.verbs.receiverP = .srq)
    (hReachable : (benchmarkMachine x).Reachable s) (hIdle : Idle s)
    (hSender : sender ∈ x.senderIds) (hResting : Resting (s.receiver receiver))
    (hPosted : (s.receiver receiver).srq.posted ≠ []) {i : Nat}
    (hControl : (s.sender sender).control = .loop i) (hMore : i < x.requests sender)
    (hPicked : x.pickedReceiverID sender i = some receiver) :
    ∃ t snd rcv memIdx, (benchmarkMachine x).Reachable t ∧ Idle t ∧
      t.sender = Function.update s.sender sender snd ∧ snd.control = .loop (i + 1) ∧
      t.receiver = Function.update s.receiver receiver rcv ∧
      rcv.control = .finalizeSRQ sender memIdx ∧ rcv.srq.completed = [] := by
  obtain ⟨asking, hAsk, hAwait, hReceives⟩ := exists_asked hControl hMore hPicked
  obtain ⟨s₁, taken, memIdx, hReachable₁, hIdle₁, hSender₁, hReceiver₁, hTaken, hBuffer, hEmpty⟩ :=
    exists_handed hSrq hReachable hIdle hSender hResting hPosted hAsk
  have hType : (taken.reqBuffer memIdx).type = .expMsg := by
    rw [hBuffer]
    rfl
  obtain ⟨handled, rcv, response, hHandle, hTransfer, hSlot, hFlag, hFinalize, hSrqSame⟩ :=
    exists_served x.expectedClients hTaken hType
  rw [hBuffer] at hTransfer hSlot
  obtain ⟨ready, snd, hArrives, hNotice, hLoop⟩ := exists_noticed x sender
    ⟨x.respRDMAOffset sender, _, response⟩ hAwait hReceives rfl hFlag
  obtain ⟨s₂, hNext₂, hSender₂, hReceiver₂, hWire₂, hAnswers₂⟩ := exists_receiverStep (x := x)
    (s := s₁) receiver (by rw [hReceiver₁, Function.update_self, hSrq]; exact hHandle)
  obtain ⟨s₃, hNext₃, hSender₃, hReceiver₃, hWire₃, hAnswers₃⟩ := exists_receiverStep (x := x)
    (s := s₂) receiver (by rw [hReceiver₂, Function.update_self, hSrq]; exact hTransfer)
  have hPending : s₃.answers (receiver, sender) =
      [⟨x.respRDMAOffset sender, (x.expMsg sender i receiver).id, response⟩] := by
    rw [hAnswers₃, enqueue_apply, hAnswers₂]
    simp [enqueue, outgoing, hIdle₁.answers, Experiment.expMsg]
  have hAwaiting : s₃.sender sender = asking := by
    rw [hSender₃, hSender₂, hSender₁, Function.update_self]
  have hServed : s₃.receiver receiver = rcv := by rw [hReceiver₃, Function.update_self]
  obtain ⟨s₄, hNext₄, hSender₄, hReceiver₄, hWire₄, hAnswers₄⟩ :=
    exists_answerArrival hPending
      (by rw [hAwaiting, hServed, delivered_of_slot x hSlot]; exact hArrives)
  obtain ⟨t, hNext, hSenderT, hReceiverT, hAnswersT, hWireT⟩ := exists_senderStep (s := s₄) hSender
    (by rw [hSender₄, Function.update_self]; exact hNotice)
  refine ⟨t, snd, rcv, memIdx,
    (((hReachable₁.step hNext₂).step hNext₃).step hNext₄).step hNext, ?_, ?_, hLoop, ?_,
    hFinalize, by rw [hSrqSame, hEmpty]⟩
  · constructor
    · intro connection
      rw [hWireT, hWire₄, hWire₃, hWire₂]
      exact hIdle₁.wire connection
    · intro connection
      rw [hAnswersT, hAnswers₄, hAnswers₃, hAnswers₂]
      by_cases hSame : connection = (receiver, sender)
      · rw [hSame, Function.update_self]
      · have hElse : connection ≠ (receiver, (x.expMsg sender i receiver).destinationNodeID) :=
          hSame
        simp [enqueue, Function.update_of_ne hSame, Function.update_of_ne hElse, hIdle₁.answers]
  · simp only [hSenderT, hSender₄, hSender₃, hSender₂, hSender₁, Function.update_idem]
  · simp only [hReceiverT, hReceiver₄, hReceiver₃, hReceiver₂, hReceiver₁, Function.update_idem]

end Requests

/-- Nothing is on its way, and the receivers that take part wait for messages. -/
structure Calm (x : Experiment) (active : Nat → Prop) (s : System) : Prop where
  reachable : (benchmarkMachine x).Reachable s
  idle : Idle s
  resting : ∀ receiver, active receiver → Resting (s.receiver receiver)

/-- Only `sender` and the receivers that take part have moved. -/
structure Frame (active : Nat → Prop) (sender : Nat) (s t : System) : Prop where
  senders : ∀ other, other ≠ sender → t.sender other = s.sender other
  receivers : ∀ receiver, ¬ active receiver → t.receiver receiver = s.receiver receiver

section Rounds

variable {x : Experiment} {active : Nat → Prop} {s t u : System} {sender receiver : Nat}

theorem Frame.trans (h : Frame active sender s t) (hNext : Frame active sender t u) :
    Frame active sender s u where
  senders other hOther := (hNext.senders other hOther).trans (h.senders other hOther)
  receivers receiver hReceiver :=
    (hNext.receivers receiver hReceiver).trans (h.receivers receiver hReceiver)

/-- A step on one connection leaves the other senders and the idle receivers alone. -/
theorem frame_update {snd : Sender} {rcv : Receiver} (hActive : active receiver)
    (hSender : t.sender = Function.update s.sender sender snd)
    (hReceiver : t.receiver = Function.update s.receiver receiver rcv) :
    Frame active sender s t where
  senders other hOther := by rw [hSender, Function.update_of_ne hOther]
  receivers other hOther := by
    rw [hReceiver, Function.update_of_ne]
    rintro rfl
    exact hOther hActive

theorem resting_update {rcv : Receiver} (h : Calm x active s) (hRcv : Resting rcv)
    (hReceiver : t.receiver = Function.update s.receiver receiver rcv) :
    ∀ other, active other → Resting (t.receiver other) := by
  intro other hOther
  rw [hReceiver]
  by_cases hSame : other = receiver
  · rw [hSame, Function.update_self]
    exact hRcv
  · rw [Function.update_of_ne hSame]
    exact h.resting other hOther

/-- A request can be sent, answered and noticed with nothing else going on. -/
theorem exists_round (h : Calm x active s) (hSrq : x.verbs.receiverP = .srq)
    (hSender : sender ∈ x.senderIds) {i : Nat} (hControl : (s.sender sender).control = .loop i)
    (hMore : i < x.requests sender) (hPicked : x.pickedReceiverID sender i = some receiver)
    (hActive : active receiver) :
    ∃ t, Calm x active t ∧ Frame active sender s t ∧ (t.sender sender).control = .loop (i + 1) := by
  have hPosted := (reachable_orderly h.reachable).posted_of_resting hSrq hSender
    (by rw [hControl]; exact fun _ hEq => Control.noConfusion hEq) (h.resting receiver hActive)
  obtain ⟨s₁, snd, rcv, memIdx, hReachable₁, hIdle₁, hSender₁, hLoop, hReceiver₁, hFinalize,
    hCompleted⟩ := exists_request hSrq h.reachable h.idle hSender (h.resting receiver hActive)
      hPosted hControl hMore hPicked
  obtain ⟨rested, hRested, hResting⟩ : ∃ rested, BenchmarkReceiver.step .srq x.expectedClients rcv =
      some (rested, none) ∧ Resting rested := by
    refine ⟨{ BenchmarkReceiver.finalize .srq rcv memIdx with
      handledRequests := rcv.handledRequests + 1, control := .poll 0 }, ?_, rfl, hCompleted⟩
    rw [BenchmarkReceiver.step, hFinalize]
  have hStep : BenchmarkReceiver.step x.verbs.receiverP x.expectedClients (s₁.receiver receiver) =
      some (rested, none) := by
    rw [hReceiver₁, Function.update_self, hSrq, hRested]
  obtain ⟨t, hNext, hSenderT, hReceiverT, hWireT, hAnswersT⟩ := exists_receiverStep receiver hStep
  rw [hReceiver₁, Function.update_idem] at hReceiverT
  refine ⟨t, ⟨hReachable₁.step hNext, hIdle₁.same hWireT hAnswersT, ?_⟩, ?_, ?_⟩
  · exact resting_update h hResting hReceiverT
  · exact frame_update hActive (hSenderT.trans hSender₁) hReceiverT
  · rw [hSenderT, hSender₁, Function.update_self]
    exact hLoop

/-- The next `n` requests of a sender, one after the other. -/
theorem exists_rounds (h : Calm x active s) (hSrq : x.verbs.receiverP = .srq)
    (hSender : sender ∈ x.senderIds) {i : Nat} (hControl : (s.sender sender).control = .loop i)
    (n : Nat) (hMore : i + n ≤ x.requests sender)
    (hActive : ∀ j, i ≤ j → j < i + n → ∃ receiver,
      x.pickedReceiverID sender j = some receiver ∧ active receiver) :
    ∃ t, Calm x active t ∧ Frame active sender s t ∧ (t.sender sender).control = .loop (i + n) := by
  induction n with
  | zero => exact ⟨s, h, ⟨fun _ _ => rfl, fun _ _ => rfl⟩, hControl⟩
  | succ n ih =>
      obtain ⟨s₁, hCalm₁, hFrame₁, hLoop₁⟩ :=
        ih (by omega) fun j hFrom hTo => hActive j hFrom (by omega)
      obtain ⟨receiver, hPicked, hPlays⟩ := hActive (i + n) (by omega) (by omega)
      obtain ⟨t, hCalm, hFrame, hLoop⟩ :=
        exists_round hCalm₁ hSrq hSender hLoop₁ (by omega) hPicked hPlays
      exact ⟨t, hCalm, hFrame₁.trans hFrame, hLoop⟩

/-- A sender leaves the loop. -/
theorem exists_leave (h : Calm x active s) (hSender : sender ∈ x.senderIds)
    (hControl : (s.sender sender).control = .loop (x.requests sender)) :
    ∃ t, Calm x active t ∧ t.receiver = s.receiver ∧ Frame active sender s t ∧
      (t.sender sender).control = .finalizePhase 0 := by
  have hStep : BenchmarkSender.step x sender (s.sender sender) =
      some ({ s.sender sender with control := .finalizePhase 0 }, none) := by
    simp [BenchmarkSender.step, hControl]
  obtain ⟨t, hNext, hSenderT, hReceiverT, hAnswersT, hWireT⟩ := exists_senderStep hSender hStep
  refine ⟨t, ⟨h.reachable.step hNext, h.idle.same hWireT hAnswersT, ?_⟩, hReceiverT, ⟨?_, ?_⟩, ?_⟩
  · rw [hReceiverT]
    exact h.resting
  · intro other hOther
    rw [hSenderT, Function.update_of_ne hOther]
  · exact fun _ _ => by rw [hReceiverT]
  · rw [hSenderT, Function.update_self]

/-- A last message is counted. Another sender has not finished, so the receiver
goes on. -/
theorem exists_counted (h : Calm x active s) (hSrq : x.verbs.receiverP = .srq)
    (hSender : sender ∈ x.senderIds) {next : Nat}
    (hControl : (s.sender sender).control = .finalizePhase next)
    (hReceiver : x.recvIds[next]? = some receiver) (hActive : active receiver) {slow : Nat}
    (hSlow : slow ∈ x.senderIds) (hApart : slow ≠ sender)
    (hOpen : ∀ next, (s.sender slow).control ≠ .finalizePhase next) :
    ∃ t, Calm x active t ∧ Frame active sender s t ∧
      (t.sender sender).control = .finalizePhase (next + 1) := by
  have hPosted := (reachable_orderly h.reachable).posted_of_resting hSrq hSlow hOpen
    (h.resting receiver hActive)
  have hStep : BenchmarkSender.step x sender (s.sender sender) =
      some ({ s.sender sender with control := .finalizePhase (next + 1) },
        some (receiver, Experiment.finishedExperimentMsg)) := by
    simp [BenchmarkSender.step, hControl, hReceiver]
  obtain ⟨s₁, taken, memIdx, hReachable₁, hIdle₁, hSender₁, hReceiver₁, hTaken, hBuffer, hEmpty⟩ :=
    exists_handed hSrq h.reachable h.idle hSender (h.resting receiver hActive) hPosted hStep
  have hHandle : BenchmarkReceiver.step x.verbs.receiverP x.expectedClients
      (s₁.receiver receiver) =
        some (handle .srq x.expectedClients taken sender memIdx, none) := by
    rw [hReceiver₁, Function.update_self, BenchmarkReceiver.step, hTaken, hSrq]
  obtain ⟨t, hNext, hSenderT, hReceiverT, hWireT, hAnswersT⟩ := exists_receiverStep receiver hHandle
  have hReachable := hReachable₁.step hNext
  have hResting : Resting (handle .srq x.expectedClients taken sender memIdx) := by
    have hCounted := (reachable_orderly hReachable).counted receiver
    have hOthers : (t.sender slow) = s.sender slow := by
      rw [hSenderT, hSender₁, Function.update_of_ne hApart]
    have hLess := (reachable_orderly hReachable).clientsFinished_lt hSlow
      (by rw [hOthers]; exact hOpen) receiver
    rw [hReceiverT, Function.update_self] at hCounted hLess
    have hType : (taken.reqBuffer memIdx).type = .finishedExp := by
      rw [hBuffer]
      rfl
    simp only [handle, hType] at hCounted hLess ⊢
    split
    case isTrue hAll => omega
    case isFalse => exact ⟨rfl, hEmpty⟩
  rw [hReceiver₁, Function.update_idem] at hReceiverT
  refine ⟨t, ⟨hReachable, hIdle₁.same hWireT hAnswersT, ?_⟩, ?_, ?_⟩
  · exact resting_update h hResting hReceiverT
  · exact frame_update hActive (hSenderT.trans hSender₁) hReceiverT
  · rw [hSenderT, hSender₁, Function.update_self]

end Rounds

section Others

variable {x : Experiment} {s : System} {sender slow : Nat}

theorem exists_picked {receiver : Nat} (hReceiver : receiver ∈ x.recvIds) (sender i : Nat) :
    ∃ picked, x.pickedReceiverID sender i = some picked := by
  have hPos : 0 < x.recvIds.length := List.length_pos_of_mem hReceiver
  exact ⟨_, List.getElem?_eq_getElem (Nat.mod_lt _ hPos)⟩

/-- A sender is through with everything, while another one has not finished. -/
theorem exists_through (h : Calm x (fun _ => True) s) (hSrq : x.verbs.receiverP = .srq)
    {receiver : Nat} (hReceiver : receiver ∈ x.recvIds) (hSender : sender ∈ x.senderIds)
    (hControl : (s.sender sender).control = .loop 0) (hSlow : slow ∈ x.senderIds)
    (hApart : slow ≠ sender) (hOpen : ∀ next, (s.sender slow).control ≠ .finalizePhase next) :
    ∃ t, Calm x (fun _ => True) t ∧ Frame (fun _ => True) sender s t ∧
      (t.sender sender).control = .finalizePhase x.recvIds.length := by
  obtain ⟨s₁, hCalm₁, hFrame₁, hLoop₁⟩ := exists_rounds h hSrq hSender hControl (x.requests sender)
    (by omega) fun j _ _ => by
      obtain ⟨picked, hPicked⟩ := exists_picked hReceiver sender j
      exact ⟨picked, hPicked, trivial⟩
  rw [Nat.zero_add] at hLoop₁
  obtain ⟨s₂, hCalm₂, _, hFrame₂, hPhase₂⟩ := exists_leave hCalm₁ hSender hLoop₁
  have hFinish : ∀ next ≤ x.recvIds.length, ∃ t, Calm x (fun _ => True) t ∧
      Frame (fun _ => True) sender s t ∧ (t.sender sender).control = .finalizePhase next := by
    intro next
    induction next with
    | zero => exact fun _ => ⟨s₂, hCalm₂, hFrame₁.trans hFrame₂, hPhase₂⟩
    | succ next ih =>
        intro hNext
        obtain ⟨s₃, hCalm₃, hFrame₃, hPhase₃⟩ := ih (by omega)
        have hOpen₃ : ∀ next, (s₃.sender slow).control ≠ .finalizePhase next := by
          rw [hFrame₃.senders slow hApart]
          exact hOpen
        obtain ⟨t, hCalm, hFrame, hPhase⟩ := exists_counted hCalm₃ hSrq hSender hPhase₃
          (List.getElem?_eq_getElem hNext) trivial hSlow hApart hOpen₃
        exact ⟨t, hCalm, hFrame₃.trans hFrame, hPhase⟩
  exact hFinish x.recvIds.length (Nat.le_refl _)

/-- Some senders are through with everything, and the others have not begun. -/
theorem exists_all_through (hSrq : x.verbs.receiverP = .srq) {receiver : Nat}
    (hReceiver : receiver ∈ x.recvIds) (hSlow : slow ∈ x.senderIds) (senders : List Nat)
    (hSenders : senders ⊆ x.senderIds) (hNodup : senders.Nodup) (hNotIn : slow ∉ senders) :
    ∃ t, Calm x (fun _ => True) t ∧
      (∀ sender ∈ senders, (t.sender sender).control = .finalizePhase x.recvIds.length) ∧
      ∀ sender, sender ∉ senders → (t.sender sender).control = .loop 0 := by
  induction senders with
  | nil =>
      refine ⟨System.init x, ⟨⟨[], .zero⟩, ⟨fun _ => rfl, fun _ => rfl⟩, ?_⟩, by simp,
        fun _ _ => rfl⟩
      intro receiver _
      constructor
      · simp [System.init, initPhase, initReqBuffer, hSrq, receiveBatchSRQ]
      · simp [System.init, initPhase, initReqBuffer, hSrq, receiveBatchSRQ,
          Verbs.SharedReceiveQueue.foldl_post]
  | cons sender rest ih =>
      obtain ⟨hFresh, hRest⟩ := List.nodup_cons.mp hNodup
      obtain ⟨hSender, hOthers⟩ := List.cons_subset.mp hSenders
      rw [List.mem_cons, not_or] at hNotIn
      obtain ⟨s₁, hCalm₁, hThrough₁, hBegin₁⟩ := ih hOthers hRest hNotIn.2
      have hOpen : ∀ next, (s₁.sender slow).control ≠ .finalizePhase next := by
        rw [hBegin₁ slow hNotIn.2]
        exact fun _ hEq => Control.noConfusion hEq
      obtain ⟨t, hCalm, hFrame, hPhase⟩ := exists_through hCalm₁ hSrq hReceiver hSender
        (hBegin₁ sender hFresh) hSlow hNotIn.1 hOpen
      refine ⟨t, hCalm, ?_, ?_⟩
      · intro other hOther
        rcases List.mem_cons.mp hOther with rfl | hOther
        · exact hPhase
        · rw [hFrame.senders other (fun hEq => hFresh (hEq ▸ hOther))]
          exact hThrough₁ other hOther
      · intro other hOther
        rw [List.mem_cons, not_or] at hOther
        rw [hFrame.senders other hOther.1]
        exact hBegin₁ other hOther.2

end Others

section Last

variable {x : Experiment} {s : System} {sender receiver : Nat}

/-- In `finalizePhase` a sender waits for nobody. -/
theorem exists_last (hReachable : (benchmarkMachine x).Reachable s) (hSender : sender ∈ x.senderIds)
    {next n : Nat} (hControl : (s.sender sender).control = .finalizePhase next)
    (hReceiver : x.recvIds[next + n]? = some receiver) :
    ∃ t, (benchmarkMachine x).Reachable t ∧ t.receiver = s.receiver ∧
      t.wire (sender, receiver) ≠ [] := by
  induction n generalizing s next with
  | zero =>
      have hStep : BenchmarkSender.step x sender (s.sender sender) =
          some ({ s.sender sender with control := .finalizePhase (next + 1) },
            some (receiver, Experiment.finishedExperimentMsg)) := by
        simp only [Nat.add_zero] at hReceiver
        simp [BenchmarkSender.step, hControl, hReceiver]
      obtain ⟨t, hNext, _, hReceiverT, _, hWireT⟩ := exists_senderStep hSender hStep
      refine ⟨t, hReachable.step hNext, hReceiverT, ?_⟩
      rw [hWireT, enqueue_apply]
      simp [outgoing]
  | succ n ih =>
      obtain ⟨hLength, _⟩ := List.getElem?_eq_some_iff.mp hReceiver
      have hStep : BenchmarkSender.step x sender (s.sender sender) =
          some ({ s.sender sender with control := .finalizePhase (next + 1) },
            some (x.recvIds[next], Experiment.finishedExperimentMsg)) := by
        have hNext : next < x.recvIds.length := by omega
        simp [BenchmarkSender.step, hControl, List.getElem?_eq_getElem hNext]
      obtain ⟨s₁, hNext, hSender₁, hReceiver₁, _, _⟩ := exists_senderStep hSender hStep
      have hPhase₁ : (s₁.sender sender).control = .finalizePhase (next + 1) := by
        rw [hSender₁, Function.update_self]
      obtain ⟨t, hReachableT, hReceiverT, hWireT⟩ :=
        ih (hReachable.step hNext) hPhase₁ (by rwa [Nat.add_right_comm])
      exact ⟨t, hReachableT, hReceiverT.trans hReceiver₁, hWireT⟩

/-- The next message to a receiver that has stopped is its next request or the
last message. -/
theorem exists_next_message (h : Calm x (· ≠ receiver) s) (hSrq : x.verbs.receiverP = .srq)
    (hReceiver : receiver ∈ x.recvIds) (hSender : sender ∈ x.senderIds) {i n : Nat}
    (hControl : (s.sender sender).control = .loop i) (hLeft : i + n = x.requests sender) :
    ∃ t, (benchmarkMachine x).Reachable t ∧ t.receiver receiver = s.receiver receiver ∧
      t.wire (sender, receiver) ≠ [] := by
  induction n generalizing s i with
  | zero =>
      obtain ⟨next, hNext, hAt⟩ := List.mem_iff_getElem.mp hReceiver
      rw [← Nat.add_zero i, hLeft] at hControl
      obtain ⟨s₁, hCalm₁, hReceiver₁, _, hPhase₁⟩ := exists_leave h hSender hControl
      obtain ⟨t, hReachable, hReceiverT, hWire⟩ := exists_last hCalm₁.reachable hSender hPhase₁
        (n := next) (by rw [Nat.zero_add, List.getElem?_eq_getElem hNext, hAt])
      exact ⟨t, hReachable, by rw [hReceiverT, hReceiver₁], hWire⟩
  | succ n ih =>
      obtain ⟨picked, hPicked⟩ := exists_picked hReceiver sender i
      by_cases hSame : picked = receiver
      · obtain ⟨asking, hAsk, _⟩ := exists_asked hControl (by omega) (hSame ▸ hPicked)
        obtain ⟨t, hNext, _, hReceiverT, _, hWireT⟩ := exists_senderStep hSender hAsk
        refine ⟨t, h.reachable.step hNext, by rw [hReceiverT], ?_⟩
        rw [hWireT, enqueue_apply]
        simp [outgoing]
      · obtain ⟨s₁, hCalm₁, hFrame₁, hLoop₁⟩ :=
          exists_round h hSrq hSender hControl (by omega) hPicked hSame
        obtain ⟨t, hReachable, hReceiverT, hWire⟩ := ih hCalm₁ hLoop₁ (by omega)
        refine ⟨t, hReachable, ?_, hWire⟩
        rw [hReceiverT, hFrame₁.receivers receiver (not_not.mpr rfl)]

end Last

section Exhausted

variable {x : Experiment} {s : System} {sender receiver : Nat}

theorem maxNodeID_mem {ids : List Nat} (hIds : ids ≠ []) : ids.foldr max 0 ∈ ids := by
  induction ids with
  | nil => exact absurd rfl hIds
  | cons first rest ih =>
      rw [List.foldr_cons]
      by_cases hRest : rest = []
      · rw [hRest]
        simp
      · rcases Nat.le_total first (rest.foldr max 0) with hLe | hLe
        · rw [Nat.max_eq_right hLe]
          exact List.mem_cons_of_mem _ (ih hRest)
        · rw [Nat.max_eq_left hLe]
          exact List.mem_cons_self

/-- Every id up to the largest of a sender is a sender's. -/
theorem length_le_expectedClients (hAfter : ¬ ReceiverBeforeSender x)
    (hSender : sender ∈ x.senderIds) (receiver : Nat) :
    (x.connectedSenderIds receiver).foldr max 0 + 1 ≤ x.expectedClients := by
  have hPerm := x.allConnected receiver
  have hMax : (x.connectedSenderIds receiver).foldr max 0 ∈ x.senderIds :=
    hPerm.mem_iff.mp (maxNodeID_mem (List.ne_nil_of_mem (hPerm.mem_iff.mpr hSender)))
  have hSubset : List.range ((x.connectedSenderIds receiver).foldr max 0 + 1) ⊆ x.senderIds := by
    intro id hId
    have hLe := Nat.le_of_lt_succ (List.mem_range.mp hId)
    rcases mem_idsWhere_of_le x.registrations isReceiver _ hMax hLe with hEarly | hOwn
    · have hApart : id ∉ x.senderIds := idsWhere_disjoint x.registrations isReceiver hEarly
      have hNe : id ≠ (x.connectedSenderIds receiver).foldr max 0 :=
        fun hEq => hApart (hEq ▸ hMax)
      exact absurd ⟨id, hEarly, _, hMax, Nat.lt_of_le_of_ne hLe hNe⟩ hAfter
    · exact hOwn
  have hLength := (List.subperm_of_subset List.nodup_range hSubset).length_le
  rwa [List.length_range] at hLength

/-- All other senders have finished, so the receive in use was the last one. -/
theorem Orderly.posted_eq_nil (h : Orderly x s) (hSrq : x.verbs.receiverP = .srq)
    (hAfter : ¬ ReceiverBeforeSender x) (hSender : sender ∈ x.senderIds)
    (hReceiver : receiver ∈ x.recvIds)
    (hOthers : ∀ other ∈ x.senderIds, other ≠ sender →
      (s.sender other).control = .finalizePhase x.recvIds.length)
    (hIdle : Idle s) {conn memIdx : Nat}
    (hControl : (s.receiver receiver).control = .finalizeSRQ conn memIdx)
    (hCompleted : (s.receiver receiver).srq.completed = []) :
    (s.receiver receiver).srq.posted = [] := by
  have hNodup : x.senderIds.Nodup := idsWhere_nodup _ _
  have hFinished : x.senderIds.erase sender ⊆ finishedSenders (s.receiver receiver).log := by
    intro other hOther
    obtain ⟨hApart, hMem⟩ := hNodup.mem_erase_iff.mp hOther
    have hLedger := h.ledger other receiver
    have hBacklog : s.backlog x other receiver = [] := by
      simp [System.backlog, Receiver.unanswered, Receiver.inHand, Receiver.landed, hSrq, hControl,
        hCompleted, hIdle.wire]
    rw [hBacklog, List.append_nil, hOthers other hMem hApart, sentTo, List.take_length,
      if_pos hReceiver] at hLedger
    apply mem_finishedSenders.mpr
    refine ⟨Experiment.finishedExperimentMsg, mem_logOf.mp ?_, rfl⟩
    rw [hLedger]
    exact List.mem_append_right _ (List.mem_singleton_self _)
  have hCount := (List.subperm_of_subset (hNodup.erase sender) hFinished).length_le
  rw [List.length_erase_of_mem hSender, finishedSenders, List.length_map,
    (h.counted receiver).finished] at hCount
  have hTidy := h.tidy receiver
  rw [hSrq] at hTidy
  have hReceives := hTidy.receives
  have hLength := length_le_expectedClients hAfter hSender receiver
  rw [Verbs.SharedReceiveQueue.held, hCompleted, h.length receiver, Receiver.taken, hControl,
    List.map_nil, List.append_nil, List.length_singleton] at hReceives
  rw [Experiment.expectedClients] at hLength
  apply List.eq_nil_of_length_eq_zero
  omega

/-- Some request is addressed to the receiver. -/
theorem exists_addressed (hAddressed : addressed x receiver ≠ 0) :
    ∃ sender ∈ x.senderIds, ∃ i < x.requests sender,
      x.pickedReceiverID sender i = some receiver := by
  by_contra hNone
  apply hAddressed
  rw [addressed]
  apply List.sum_eq_zero
  intro count hCount
  obtain ⟨sender, hSender, rfl⟩ := List.mem_map.mp hCount
  rw [List.length_eq_zero_iff, List.filter_eq_nil_iff]
  intro i hRange hPicked
  exact hNone ⟨sender, hSender, i, List.mem_range.mp hRange, of_decide_eq_true hPicked⟩

/-- If all senders registered before the receivers, the queue is as long as there are
senders. When all but one are through, and the receiver has not posted the receive of a
request again, the next message finds none. -/
theorem exists_exhausted (hSrq : x.verbs.receiverP = .srq) (hAfter : ¬ ReceiverBeforeSender x)
    (hAddressed : addressed x receiver ≠ 0) :
    ∃ s sender, (benchmarkMachine x).Reachable s ∧ s.wire (sender, receiver) ≠ [] ∧
      (s.receiver receiver).srq.posted = [] := by
  obtain ⟨sender, hSender, i, hLess, hPicked⟩ := exists_addressed hAddressed
  have hReceiver : receiver ∈ x.recvIds := List.mem_of_getElem? hPicked
  have hNodup : x.senderIds.Nodup := idsWhere_nodup _ _
  have hNotIn : sender ∉ x.senderIds.erase sender := hNodup.not_mem_erase
  -- the others are through, and so is the sender with what comes before request `i`
  obtain ⟨s₁, hCalm₁, hThrough₁, hBegin₁⟩ := exists_all_through hSrq hReceiver hSender
    (x.senderIds.erase sender) List.erase_subset (hNodup.erase sender) hNotIn
  obtain ⟨s₂, hCalm₂, hFrame₂, hLoop₂⟩ := exists_rounds hCalm₁ hSrq hSender
    (hBegin₁ sender hNotIn) i (by omega) fun j _ _ => by
      obtain ⟨picked, hPicked⟩ := exists_picked hReceiver sender j
      exact ⟨picked, hPicked, trivial⟩
  rw [Nat.zero_add] at hLoop₂
  -- the receiver stops in front of posting the receive of request `i` again
  have hPosted := (reachable_orderly hCalm₂.reachable).posted_of_resting hSrq hSender
    (by rw [hLoop₂]; exact fun _ hEq => Control.noConfusion hEq) (hCalm₂.resting receiver trivial)
  obtain ⟨s₃, snd, rcv, memIdx, hReachable₃, hIdle₃, hSender₃, hLoop₃, hReceiver₃, hFinalize,
    hCompleted⟩ := exists_request hSrq hCalm₂.reachable hCalm₂.idle hSender
      (hCalm₂.resting receiver trivial) hPosted hLoop₂ hLess hPicked
  have hOthers : ∀ other ∈ x.senderIds, other ≠ sender →
      (s₃.sender other).control = .finalizePhase x.recvIds.length := by
    intro other hOther hApart
    rw [hSender₃, Function.update_of_ne hApart, hFrame₂.senders other hApart]
    exact hThrough₁ other (hNodup.mem_erase_iff.mpr ⟨hApart, hOther⟩)
  have hStopped : s₃.receiver receiver = rcv := by rw [hReceiver₃, Function.update_self]
  have hNone := (reachable_orderly hReachable₃).posted_eq_nil hSrq hAfter hSender hReceiver hOthers
    hIdle₃ (hStopped ▸ hFinalize) (hStopped ▸ hCompleted)
  have hCalm₃ : Calm x (· ≠ receiver) s₃ := by
    refine ⟨hReachable₃, hIdle₃, ?_⟩
    intro other hOther
    rw [hReceiver₃, Function.update_of_ne hOther]
    exact hCalm₂.resting other trivial
  have hControl₃ : (s₃.sender sender).control = .loop (i + 1) := by
    rw [hSender₃, Function.update_self]
    exact hLoop₃
  obtain ⟨t, hReachable, hReceiverT, hWire⟩ := exists_next_message hCalm₃ hSrq hReceiver hSender
    hControl₃ (n := x.requests sender - (i + 1)) (by omega)
  exact ⟨t, sender, hReachable, hWire, by rw [hReceiverT, hNone]⟩

end Exhausted

/-- Every message that arrives finds a posted receive, in every run, exactly if
some receiver registered before some sender or no request goes to the receiver. -/
theorem arrival_finds_receive_iff {x : Experiment} (hSrq : x.verbs.receiverP = .srq)
    (receiver : Nat) :
    ArrivalFindsReceive x receiver ↔ ReceiverBeforeSender x ∨ addressed x receiver = 0 := by
  constructor
  · intro hAlways
    by_contra hNeither
    rw [not_or] at hNeither
    obtain ⟨s, sender, hReachable, hWire, hNone⟩ := exists_exhausted hSrq hNeither.1 hNeither.2
    exact hAlways s hReachable sender hWire hNone
  · intro hRoom
    exact finds_receive hSrq hRoom

/-- The receiver has node id 0, the sender node id 1. -/
def receiverFirst : Experiment := { oneRequest with verbs := .sendSend }

/-- The receiver registers first, and its queue is one longer than there are senders. -/
theorem arrival_finds_receive_first : ArrivalFindsReceive receiverFirst 0 := by
  have hBefore : ReceiverBeforeSender receiverFirst := ⟨0, by decide, 1, by decide, by decide⟩
  have hSrq : receiverFirst.verbs.receiverP = .srq := rfl
  exact (arrival_finds_receive_iff hSrq 0).mpr (.inl hBefore)

/-- The sender has node id 0, the receiver node id 1. -/
def senderFirst : Experiment where
  verbs := .sendSend
  registrations := [⟨"10.0.0.2", "RDMAClient", .client⟩, ⟨"10.0.0.1:5400", "receiver", .server⟩]
  requests _ := 1
  rand _ _ := 7
  sizeofResponse := 64
  respBufferSize := 4
  reqBufferOffset _ := 0
  respRDMAOffset _ := 0
  connectedSenderIds _ := [0]
  allConnected _ := List.Perm.refl [0]

/-- The last message is sent after the response, while the receiver has not
posted the receive of the request again. -/
def senderFirstRun : List Operation :=
  [.sender 0, .arrive 0 1 0, .receiver 1, .receiver 1, .receiver 1, .answer 1 0, .sender 0,
    .sender 0, .sender 0]

/-- The receiver registers in between, and a request finds no receive. -/
theorem arrival_without_receive :
    ¬ ∀ x receiver, x.verbs.receiverP = .srq → ArrivalFindsReceive x receiver := by
  have hReplay : ∃ s, (benchmarkMachine senderFirst).replay (System.init senderFirst)
      senderFirstRun = some s ∧ s.wire (0, 1) = [Experiment.finishedExperimentMsg] ∧
      (s.receiver 1).srq.posted = [] := ⟨_, rfl, rfl, rfl⟩
  obtain ⟨s, hReplay, hWire, hPosted⟩ := hReplay
  intro hAlways
  have hFinds := hAlways senderFirst 1 rfl s (Machine.reachable_of_replay senderFirstRun hReplay) 0
  rw [hWire] at hFinds
  exact hFinds (List.cons_ne_nil _ _) hPosted

end Benchmark
