import RDMAPatterns.Benchmark.System

/-! The closed loop keeps the system orderly: one lemma for each kind of step. -/
namespace Benchmark

open BenchmarkReceiver BenchmarkSender Channels Transition

variable {x : Experiment} {s t : System}

theorem init_orderly (x : Experiment) : Orderly x (System.init x) where
  tidy receiver := initPhase_tidy (by cases x.verbs <;> simp [Verbs.receiverP]) _
  length receiver := by
    cases hP : x.verbs.receiverP with
    | _ => simp [System.init, initPhase, initReqBuffer, hP, receiveBatchSRQ]
  counted receiver := initPhase_counted _ _ _
  within sender := Nat.zero_le _
  ledger sender receiver := by
    have hLog : (initPhase x.verbs.receiverP (x.connectedSenderIds receiver)).log = [] := by
      cases hP : x.verbs.receiverP with
      | _ => rfl
    show logOf (initPhase x.verbs.receiverP (x.connectedSenderIds receiver)).log sender ++
      ((initPhase x.verbs.receiverP (x.connectedSenderIds receiver)).unanswered
        x.verbs.receiverP sender ++ []) = []
    rw [hLog, initPhase_unanswered]
    rfl
  closed sender receiver := by
    show (((initPhase x.verbs.receiverP (x.connectedSenderIds receiver)).unanswered
        x.verbs.receiverP sender ++ []).filter _).length + 0 + Sender.ready x {} receiver ≤ 0
    rw [initPhase_unanswered]
    cases hP : x.verbs.senderP with
    | _ => simp [Sender.ready, hP]
  outsider sender _ := rfl

section SenderStep

/-- What a step of a sender changes: its own state and its wires. -/
theorem senderStep_eq_some {self : Nat} (hNext : s.senderStep x self = some t) :
    ∃ snd out, self ∈ x.senderIds ∧
      BenchmarkSender.step x self (s.sender self) = some (snd, out) ∧
      t.sender = Function.update s.sender self snd ∧ t.receiver = s.receiver ∧
      t.answers = s.answers ∧ ∀ sender receiver, t.wire (sender, receiver) =
        s.wire (sender, receiver) ++ if sender = self then outgoing receiver out else [] := by
  rw [System.senderStep, Option.ite_none_right_eq_some] at hNext
  obtain ⟨hSelf, hNext⟩ := hNext
  obtain ⟨⟨snd, out⟩, hStep, rfl⟩ := Option.map_eq_some_iff.mp hNext
  exact ⟨snd, out, hSelf, hStep, rfl, rfl, rfl, enqueue_apply s.wire self out⟩

/-- A sender waits for exactly the requests it has not noticed the response to. -/
theorem senderStep_outstanding {self receiver before : Nat} {snd next : Sender}
    {out : Option (Nat × MessageBase)} (hStep : Step x self snd next out)
    (hReady : next.ready x receiver ≤ snd.ready x receiver)
    (hClosed : before + snd.ready x receiver ≤ if snd.control.awaits receiver then 1 else 0) :
    before + ((outgoing receiver out).filter fun m => m.type = .expMsg).length +
      next.ready x receiver ≤ if next.control.awaits receiver then 1 else 0 := by
  cases hStep with
  | @request i picked hControl hMore hPicked hNext =>
      rw [hControl, Control.awaits_loop, if_neg Bool.false_ne_true] at hClosed
      by_cases hSame : picked = receiver
      · have hOne : ((outgoing receiver (some (picked, x.expMsg self i picked))).filter
            fun m => m.type = .expMsg).length = 1 := by
          rw [outgoing, if_pos hSame]
          rfl
        rw [hOne, hNext, Control.awaits_await, decide_eq_true hSame, if_pos rfl]
        omega
      · simp only [outgoing, hSame, if_false, List.filter_nil, List.length_nil]
        omega
  | @leave i hControl hDone hNext =>
      rw [hControl, Control.awaits_loop, if_neg Bool.false_ne_true] at hClosed
      simp only [outgoing, List.filter_nil, List.length_nil]
      omega
  | @noticed i awaited hControl hNext hLess =>
      simp only [outgoing, List.filter_nil, List.length_nil]
      by_cases hSame : awaited = receiver
      · rw [hControl, Control.awaits_await, hSame] at hClosed
        rw [hSame] at hLess
        simp only [decide_true, if_true] at hClosed
        omega
      · rw [hControl, Control.awaits_await, decide_eq_false hSame,
          if_neg Bool.false_ne_true] at hClosed
        omega
  | @finish sent picked hControl hReceiver hNext =>
      rw [hControl, Control.awaits_finalizePhase, if_neg Bool.false_ne_true] at hClosed
      have hNone : ((outgoing receiver (some (picked, Experiment.finishedExperimentMsg))).filter
          fun m => m.type = .expMsg) = [] := by
        rw [outgoing]
        split
        all_goals rfl
      rw [hNone, List.length_nil]
      omega

/-- A request is sent only when nothing else of its sender is open. -/
theorem senderStep_orderly (h : Orderly x s) {self : Nat} (hNext : s.senderStep x self = some t) :
    Orderly x t := by
  obtain ⟨snd, out, hSelf, hRun, hSender, hReceiver, hAnswers, hWire⟩ := senderStep_eq_some hNext
  obtain ⟨hStep, hReady⟩ := step_cases hRun
  have hBacklog : ∀ sender receiver, t.backlog x sender receiver =
      s.backlog x sender receiver ++ if sender = self then outgoing receiver out else [] := by
    intro sender receiver
    rw [System.backlog, System.backlog, hReceiver, hWire, List.append_assoc]
  constructor
  · rw [hReceiver]
    exact h.tidy
  · rw [hReceiver]
    exact h.length
  · rw [hReceiver]
    exact h.counted
  · intro sender
    rw [hSender]
    by_cases hSame : sender = self
    · rw [hSame, Function.update_self]
      exact hStep.within (h.within self)
    · rw [Function.update_of_ne hSame]
      exact h.within sender
  · intro sender receiver
    rw [hReceiver, hBacklog, ← List.append_assoc, h.ledger, hSender]
    by_cases hSame : sender = self
    · rw [if_pos hSame, hSame, Function.update_self]
      exact (hStep.sentTo_eq (h.within self) receiver).symm
    · rw [if_neg hSame, Function.update_of_ne hSame, List.append_nil]
  · intro sender receiver
    have hClosed := h.closed sender receiver
    rw [System.outstanding] at hClosed ⊢
    rw [hBacklog, hAnswers, hSender, List.filter_append, List.length_append]
    by_cases hSame : sender = self
    · subst hSame
      rw [if_pos rfl, Function.update_self]
      have hAfter := senderStep_outstanding hStep (hReady receiver) hClosed
      omega
    · rw [if_neg hSame, Function.update_of_ne hSame]
      exact hClosed
  · intro sender hOutside
    have hSame : sender ≠ self := fun hEq => hOutside (hEq ▸ hSelf)
    rw [hSender, Function.update_of_ne hSame]
    exact h.outsider sender hOutside

end SenderStep

section Arrival

/-- A message that arrives where no other one of its sender is. -/
theorem arrive_spec {sender receiver memIdx : Nat} {m : MessageBase} {rcv next : Receiver}
    (hTidy : Tidy x.verbs.receiverP rcv) (hCounted : Counted x.expectedClients rcv)
    (hFree : rcv.unanswered x.verbs.receiverP sender = [])
    (hOpen : ∀ last, (sender, last) ∈ rcv.log → last.type ≠ .finishedExp)
    (hType : m.type ≠ .empty) (hNext : arrive x sender receiver memIdx m rcv = some next) :
    Tidy x.verbs.receiverP next ∧ Counted x.expectedClients next ∧
      next.reqBufferLength = rcv.reqBufferLength ∧ next.log = rcv.log ∧
      next.unanswered x.verbs.receiverP sender = [m] ∧ ∀ other, other ≠ sender →
        next.unanswered x.verbs.receiverP other = rcv.unanswered x.verbs.receiverP other := by
  rw [arrive] at hNext
  rcases x.verbs.senderT_eq with ⟨hT, hP⟩ | ⟨hT, hP⟩
  · simp only [hT, x.slotOf_msgOffset, Option.some.injEq] at hNext
    subst hNext
    rw [hP] at hTidy hFree ⊢
    obtain ⟨hTidy', hOwn, hOthers⟩ :=
      writeArrives_buf hTidy hFree (slot_ne hTidy hFree hOpen) hType
    exact ⟨hTidy', ⟨hCounted.handled, hCounted.finished, hCounted.returned⟩, rfl, rfl, hOwn,
      hOthers⟩
  · simp only [hT] at hNext
    rw [hP] at hTidy hFree ⊢
    obtain ⟨hTidy', hLog, hOwn, hOthers⟩ := sendArrives_srq hTidy hNext
    rw [hFree, List.nil_append] at hOwn
    obtain ⟨q, _, rfl⟩ := Option.map_eq_some_iff.mp hNext
    exact ⟨hTidy', ⟨hCounted.handled, hCounted.finished, hCounted.returned⟩, rfl, hLog, hOwn,
      hOthers⟩

/-- What an arrival changes: its wire and its receiver. -/
theorem arrival_eq_some {sender receiver memIdx : Nat}
    (hNext : s.arrival x sender receiver memIdx = some t) :
    ∃ m rest rcv, s.wire (sender, receiver) = m :: rest ∧
      arrive x sender receiver memIdx m (s.receiver receiver) = some rcv ∧
      t.sender = s.sender ∧ t.receiver = Function.update s.receiver receiver rcv ∧
      t.answers = s.answers ∧ t.wire = Function.update s.wire (sender, receiver) rest := by
  rw [System.arrival] at hNext
  split at hNext
  case h_1 m rest hWire =>
    obtain ⟨rcv, hArrive, rfl⟩ := Option.map_eq_some_iff.mp hNext
    exact ⟨m, rest, rcv, hWire, hArrive, rfl, rfl, rfl, rfl⟩
  case h_2 => cases hNext

/-- An arriving message goes from the wire to the receiver, in order. -/
theorem arrival_orderly (h : Orderly x s) {sender receiver memIdx : Nat}
    (hNext : s.arrival x sender receiver memIdx = some t) : Orderly x t := by
  obtain ⟨m, rest, rcv, hWire, hArrive, hSender, hReceiver, hAnswers, hWires⟩ :=
    arrival_eq_some hNext
  obtain ⟨hFree, rfl, hOpen⟩ := h.arrival_alone hWire
  have hMem : m ∈ s.backlog x sender receiver := by
    rw [System.backlog, hWire]
    exact List.mem_append_right _ List.mem_cons_self
  have hType : m.type ≠ .empty := by
    rcases h.mem_backlog hMem with ⟨hType, _⟩ | ⟨hType, _⟩
    all_goals
      rw [hType]
      decide
  obtain ⟨hTidy, hCounted, hLength, hLog, hOwn, hOthers⟩ :=
    arrive_spec (h.tidy receiver) (h.counted receiver) hFree hOpen hType hArrive
  -- the message moves from the wire into the receiver
  have hBacklog : ∀ source destination, t.backlog x source destination =
      s.backlog x source destination := by
    intro source destination
    rw [System.backlog, System.backlog, hReceiver, hWires]
    by_cases hDestination : destination = receiver
    · subst hDestination
      rw [Function.update_self]
      by_cases hSource : source = sender
      · rw [hSource, Function.update_self, hOwn, hFree, hWire]
        rfl
      · rw [hOthers source hSource, Function.update_of_ne]
        exact fun hPair => hSource (Prod.mk.inj hPair).1
    · rw [Function.update_of_ne hDestination, Function.update_of_ne]
      exact fun hPair => hDestination (Prod.mk.inj hPair).2
  have hLogs : ∀ destination, (t.receiver destination).log = (s.receiver destination).log := by
    intro destination
    rw [hReceiver]
    by_cases hDestination : destination = receiver
    · rw [hDestination, Function.update_self, hLog]
    · rw [Function.update_of_ne hDestination]
  have hEach : ∀ destination, Tidy x.verbs.receiverP (t.receiver destination) ∧
      (t.receiver destination).reqBufferLength =
        (x.connectedSenderIds destination).foldr max 0 + 1 ∧
      Counted x.expectedClients (t.receiver destination) := by
    intro destination
    rw [hReceiver]
    by_cases hDestination : destination = receiver
    · rw [hDestination, Function.update_self]
      exact ⟨hTidy, hLength.trans (h.length receiver), hCounted⟩
    · rw [Function.update_of_ne hDestination]
      exact ⟨h.tidy destination, h.length destination, h.counted destination⟩
  constructor
  · exact fun destination => (hEach destination).1
  · exact fun destination => (hEach destination).2.1
  · exact fun destination => (hEach destination).2.2
  · rw [hSender]
    exact h.within
  · intro source destination
    rw [hLogs, hBacklog, hSender]
    exact h.ledger source destination
  · intro source destination
    rw [System.outstanding, hBacklog, hAnswers, hSender]
    exact h.closed source destination
  · rw [hSender]
    exact h.outsider

end Arrival

section ReceiverStep

/-- What a step of a receiver changes: its own state and its answers. -/
theorem receiverStep_eq_some {self : Nat} (hNext : s.receiverStep x self = some t) :
    ∃ rcv out, BenchmarkReceiver.step x.verbs.receiverP x.expectedClients (s.receiver self) =
        some (rcv, out) ∧
      t.sender = s.sender ∧ t.receiver = Function.update s.receiver self rcv ∧ t.wire = s.wire ∧
      ∀ receiver sender, t.answers (receiver, sender) = s.answers (receiver, sender) ++
        if receiver = self then outgoing sender out else [] := by
  obtain ⟨⟨rcv, out⟩, hStep, rfl⟩ := Option.map_eq_some_iff.mp hNext
  exact ⟨rcv, out, hStep, rfl, rfl, rfl, enqueue_apply s.answers self out⟩

/-- What one step of a receiver does to the messages of one sender: nothing, or
it logs the first one, and answers it if it is a request. -/
theorem progress_spec {rcv next : Receiver} {out : Option (Nat × Answer)} {POLL : RdmaPoll}
    (hProgress : Progress POLL rcv next out)
    (hOwner : ∀ conn, ∀ m ∈ rcv.unanswered POLL conn, m.type = .expMsg →
      m.destinationNodeID = conn) (conn : Nat) :
    logOf next.log conn ++ next.unanswered POLL conn =
        logOf rcv.log conn ++ rcv.unanswered POLL conn ∧
      ((next.unanswered POLL conn).filter fun m => m.type = .expMsg).length +
          (outgoing conn out).length =
        ((rcv.unanswered POLL conn).filter fun m => m.type = .expMsg).length := by
  cases hProgress with
  | idle hUnanswered hLog =>
      rw [hUnanswered, hLog]
      exact ⟨rfl, rfl⟩
  | @finished source m hTakes hType =>
      rw [hTakes.log, logOf_append, logOf_singleton, List.append_assoc]
      by_cases hConn : source = conn
      · subst hConn
        rw [if_pos rfl, hTakes.own, List.filter_cons_of_neg (by simp [hType])]
        exact ⟨rfl, rfl⟩
      · rw [if_neg hConn, hTakes.others conn (Ne.symm hConn)]
        exact ⟨rfl, rfl⟩
  | @answered source m answer hTakes hType =>
      have hDestination : m.destinationNodeID = source := by
        apply hOwner source m _ hType
        rw [hTakes.own]
        exact List.mem_cons_self
      rw [hTakes.log, logOf_append, logOf_singleton, List.append_assoc, outgoing, hDestination]
      by_cases hConn : source = conn
      · subst hConn
        rw [if_pos rfl, if_pos rfl, hTakes.own, List.filter_cons_of_pos (by simp [hType])]
        exact ⟨rfl, rfl⟩
      · rw [if_neg hConn, if_neg hConn, hTakes.others conn (Ne.symm hConn)]
        exact ⟨rfl, rfl⟩

/-- A request that is answered goes from the backlog into the log. -/
theorem receiverStep_orderly (h : Orderly x s) {self : Nat}
    (hNext : s.receiverStep x self = some t) : Orderly x t := by
  obtain ⟨rcv, out, hStep, hSender, hReceiver, hWire, hAnswers⟩ := receiverStep_eq_some hNext
  obtain ⟨hProgress, hTidy⟩ := step_progress (h.tidy self) (h.wellTyped self) hStep
  have hOwner : ∀ conn, ∀ m ∈ (s.receiver self).unanswered x.verbs.receiverP conn,
      m.type = .expMsg → m.destinationNodeID = conn := by
    intro conn m hMem hType
    rcases h.mem_backlog (List.mem_append_left _ hMem) with ⟨_, hDestination⟩ | ⟨hLast, _⟩
    · exact hDestination
    · rw [hType] at hLast
      cases hLast
  have hOther : ∀ receiver, receiver ≠ self → t.receiver receiver = s.receiver receiver := by
    intro receiver hNe
    rw [hReceiver, Function.update_of_ne hNe]
  have hSelf : t.receiver self = rcv := by rw [hReceiver, Function.update_self]
  constructor
  · intro receiver
    by_cases hSame : receiver = self
    · rw [hSame, hSelf]
      exact hTidy
    · rw [hOther receiver hSame]
      exact h.tidy receiver
  · intro receiver
    by_cases hSame : receiver = self
    · rw [hSame, hSelf, step_reqBufferLength hStep]
      exact h.length self
    · rw [hOther receiver hSame]
      exact h.length receiver
  · intro receiver
    by_cases hSame : receiver = self
    · rw [hSame, hSelf]
      exact step_counted (h.counted self) hStep
    · rw [hOther receiver hSame]
      exact h.counted receiver
  · rw [hSender]
    exact h.within
  · intro sender receiver
    rw [hSender, ← h.ledger, System.backlog, System.backlog, hWire, ← List.append_assoc,
      ← List.append_assoc]
    by_cases hSame : receiver = self
    · rw [hSame, hSelf, (progress_spec hProgress hOwner sender).1]
    · rw [hOther receiver hSame]
  · intro sender receiver
    have hClosed := h.closed sender receiver
    rw [System.outstanding, System.backlog] at hClosed ⊢
    rw [hSender, hWire, hAnswers, List.filter_append, List.length_append, List.length_append]
    rw [List.filter_append, List.length_append] at hClosed
    by_cases hSame : receiver = self
    · subst hSame
      have hAnswered := (progress_spec hProgress hOwner sender).2
      rw [hSelf, if_pos rfl]
      omega
    · rw [hOther receiver hSame, if_neg hSame, List.length_nil]
      omega
  · rw [hSender]
    exact h.outsider

end ReceiverStep

section AnswerArrival

/-- What the arrival of a response changes: its sender. -/
theorem answerArrival_eq_some {receiver sender : Nat}
    (hNext : s.answerArrival x receiver sender = some t) :
    ∃ answer rest snd, s.answers (receiver, sender) = answer :: rest ∧
      responseArrives x sender receiver (s.sender sender)
        (delivered x answer (s.receiver receiver)) = some snd ∧
      t.sender = Function.update s.sender sender snd ∧ t.receiver = s.receiver ∧
      t.wire = s.wire ∧ t.answers = Function.update s.answers (receiver, sender) rest := by
  rw [System.answerArrival] at hNext
  split at hNext
  case h_1 answer rest hAnswers =>
    obtain ⟨snd, hArrives, rfl⟩ := Option.map_eq_some_iff.mp hNext
    exact ⟨answer, rest, snd, hAnswers, hArrives, rfl, rfl, rfl, rfl⟩
  case h_2 => cases hNext

/-- An arriving response becomes ready for its sender, and stays the only one. -/
theorem answerArrival_orderly (h : Orderly x s) {receiver sender : Nat}
    (hNext : s.answerArrival x receiver sender = some t) : Orderly x t := by
  obtain ⟨answer, rest, snd, hPending, hArrives, hSender, hReceiver, hWire, hAnswers⟩ :=
    answerArrival_eq_some hNext
  have hBacklog : ∀ source destination, t.backlog x source destination =
      s.backlog x source destination := by
    intro source destination
    rw [System.backlog, System.backlog, hReceiver, hWire]
  -- the sender waits for this response, and no other one is ready
  have hClosed := h.closed sender receiver
  rw [System.outstanding, hPending, List.length_cons] at hClosed
  have hAwaits : (s.sender sender).control.awaits receiver = true := by
    by_contra hNot
    rw [if_neg hNot] at hClosed
    omega
  rw [if_pos hAwaits] at hClosed
  have hNotReady : (s.sender sender).ready x receiver = 0 := by omega
  obtain ⟨hControl, hReady, hOthers⟩ := responseArrives_ready hNotReady hArrives
  have hControls : ∀ source, (t.sender source).control = (s.sender source).control := by
    intro source
    rw [hSender]
    by_cases hSource : source = sender
    · rw [hSource, Function.update_self, hControl]
    · rw [Function.update_of_ne hSource]
  constructor
  · rw [hReceiver]
    exact h.tidy
  · rw [hReceiver]
    exact h.length
  · rw [hReceiver]
    exact h.counted
  · intro source
    rw [hControls]
    exact h.within source
  · intro source destination
    rw [hReceiver, hBacklog, hControls]
    exact h.ledger source destination
  · intro source destination
    have hOld := h.closed source destination
    rw [System.outstanding] at hOld ⊢
    rw [hBacklog, hControls, hAnswers, hSender]
    by_cases hSource : source = sender
    · subst hSource
      rw [Function.update_self]
      by_cases hDestination : destination = receiver
      · subst hDestination
        rw [Function.update_self, if_pos hAwaits]
        omega
      · have hSilent : (s.sender source).control.awaits destination = false := by
          cases hAt : (s.sender source).control with
          | loop i | finalizePhase next => rfl
          | await i awaited =>
              rw [hAt, Control.awaits_await, decide_eq_true_eq] at hAwaits
              rw [Control.awaits_await, hAwaits, decide_eq_false (Ne.symm hDestination)]
        have hLess := hOthers destination hDestination hSilent
        rw [Function.update_of_ne]
        · omega
        · exact fun hPair => hDestination (Prod.mk.inj hPair).1
    · rw [Function.update_of_ne hSource, Function.update_of_ne]
      · exact hOld
      · exact fun hPair => hSource (Prod.mk.inj hPair).2
  · intro source hOutside
    rw [hControls]
    exact h.outsider source hOutside

end AnswerArrival

theorem next_orderly (h : Orderly x s) {op : Operation}
    (hNext : (benchmarkMachine x).next s op = some t) : Orderly x t := by
  cases op with
  | sender self => exact senderStep_orderly h hNext
  | arrive sender receiver memIdx => exact arrival_orderly h hNext
  | receiver self => exact receiverStep_orderly h hNext
  | answer receiver sender => exact answerArrival_orderly h hNext

theorem reachable_orderly (h : (benchmarkMachine x).Reachable s) : Orderly x s :=
  h.invariant (init_orderly x) fun _ _ _ hInv hNext => next_orderly hInv hNext

end Benchmark
