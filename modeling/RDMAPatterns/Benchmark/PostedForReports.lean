import RDMAPatterns.Benchmark.Reports

/-! Whether a report finds a posted receive. A receiver can be connected to long
before its `initPhase` posts receives, and nothing makes the senders wait. -/
namespace InitPhase

open Benchmark Channels Transition Verbs

/-- Wherever a report is about to arrive, the receiver has a posted receive. -/
def ReportsFindReceives (s : State) : Prop :=
  ∀ sender receiver, s.wire (sender, receiver) ≠ [] → (s.receiver receiver).srq.posted ≠ []

/-- The receiver that a step reports to. -/
def Operation.reportsTo (x : Setup) (s : State) : Operation → Option Nat
  | .sender self =>
      match (s.sender self).control with
      | .send next => x.recvIds[next]?
      | _ => none
  | _ => none

/-- If the recorded step is a report, its receiver is past `receiveBatchSRQ`. -/
def ReportsAfterPost (x : Setup) (visit : State × Operation) : Prop :=
  ∀ receiver ∈ visit.2.reportsTo x visit.1, (visit.1.receiver receiver).control.starting = false

instance (x : Setup) (visit : State × Operation) : Decidable (ReportsAfterPost x visit) :=
  inferInstanceAs (Decidable (∀ receiver ∈ visit.2.reportsTo x visit.1,
    (visit.1.receiver receiver).control.starting = false))

/-- After a report something is on the wire to its receiver. -/
theorem wire_of_reportsTo {x : Setup} {s t : State} {a : Operation}
    (hNext : next x s a = some t) {receiver : Nat} (hReports : receiver ∈ a.reportsTo x s) :
    t.receiver = s.receiver ∧ ∃ sender, t.wire (sender, receiver) ≠ [] := by
  cases a with
  | sender self =>
      obtain ⟨_, snd, out, hMoves, _, hSame, hEnqueue, _⟩ := next_sender hNext
      refine ⟨hSame, self, ?_⟩
      simp only [Operation.reportsTo] at hReports
      split at hReports
      case h_2 => cases hReports
      case h_1 next hControl =>
        cases hMoves with
        | @send next' destination hSend hReceiver =>
            obtain rfl := SenderControl.send.inj (hControl.symm.trans hSend)
            obtain rfl := Option.some.inj (hReceiver.symm.trans hReports)
            rw [hEnqueue, enqueue_apply]
            simp [outgoing]
        | starting hOld hLater =>
            rw [hControl] at hOld
            cases hOld
        | receive hOther hReceiver | through hOther hReceiver | sent hOther hReceiver hWire
        | pollReceive hOther hReceiver hReceived | lastReceive hOther =>
            rw [hControl] at hOther
            cases hOther
  | receiver self | arrive source destination memIdx | answer source destination => cases hReports

section Steps

variable {x : Setup} {s t : State} (h : Reported x s)

include h

/-- Only a report puts something on the wire. -/
theorem wire_of_next {a : Operation} (hNext : next x s a = some t) {sender receiver : Nat}
    (hWire : t.wire (sender, receiver) ≠ []) :
    s.wire (sender, receiver) ≠ [] ∨ receiver ∈ a.reportsTo x s := by
  cases a with
  | sender self =>
      obtain ⟨_, snd, out, hMoves, _, _, hEnqueue, _⟩ := next_sender hNext
      rw [hEnqueue, enqueue_apply] at hWire
      by_cases hEmpty : s.wire (sender, receiver) = []
      · right
        rw [hEmpty, List.nil_append] at hWire
        split at hWire
        · cases hMoves with
          | @send next destination hControl hReceiver =>
              have hSame : destination = receiver := by
                by_contra hOther
                exact hWire (if_neg hOther)
              rw [hSame] at hReceiver
              simp [Operation.reportsTo, hControl, hReceiver]
          | _ => exact absurd rfl hWire
        · exact absurd rfl hWire
      · exact Or.inl hEmpty
  | receiver self =>
      obtain ⟨_, rcv, out, _, _, _, hSame, _⟩ := next_receiver h hNext
      rw [hSame] at hWire
      exact Or.inl hWire
  | arrive source destination memIdx =>
      obtain ⟨m, rest, srq, hOn, _, _, _, hUpdate, _⟩ := next_arrive hNext
      left
      by_cases hSame : (sender, receiver) = (source, destination)
      · rw [hSame, hOn]
        exact List.cons_ne_nil m rest
      · rwa [hUpdate, Function.update_of_ne hSame] at hWire
  | answer source destination =>
      obtain ⟨m, rest, _, _, _, _, hSame, _⟩ := next_answer hNext
      rw [hSame] at hWire
      exact Or.inl hWire

/-- A receiver does not go back in front of `receiveBatchSRQ`. -/
theorem starting_of_next {a : Operation} (hNext : next x s a = some t) {receiver : Nat}
    (hStarting : (t.receiver receiver).control.starting = true) :
    (s.receiver receiver).control.starting = true := by
  cases a with
  | sender self =>
      obtain ⟨_, snd, out, _, _, hSame, _, _⟩ := next_sender hNext
      rwa [hSame] at hStarting
  | receiver self =>
      obtain ⟨_, rcv, out, hMoves, hReceiver, _, _, _⟩ := next_receiver h hNext
      rw [hReceiver] at hStarting
      by_cases hSame : receiver = self
      · rw [hSame, Function.update_self] at hStarting
        rw [hSame]
        cases hMoves with
        | constructing hControl hLater => exact starting_of_constructing hControl
        | receiveBatch hControl | last hControl hPoll hLast hPosted | reply hControl hId =>
            cases hStarting
        | collect hControl hPoll hMore => exact hStarting
        | replied hControl hId hReplies =>
            split_ifs at hStarting
            all_goals cases hStarting
      · rwa [Function.update_of_ne hSame] at hStarting
  | arrive source destination memIdx =>
      obtain ⟨m, rest, srq, _, _, hReceiver, _, _, _⟩ := next_arrive hNext
      rw [hReceiver] at hStarting
      by_cases hSame : receiver = destination
      · rw [hSame, Function.update_self] at hStarting
        rwa [hSame]
      · rwa [Function.update_of_ne hSame] at hStarting
  | answer source destination =>
      obtain ⟨m, rest, _, _, _, hSame, _, _⟩ := next_answer hNext
      rwa [hSame] at hStarting

theorem reportsFindReceives_iff :
    ReportsFindReceives s ↔ ∀ sender receiver, s.wire (sender, receiver) ≠ [] →
      (s.receiver receiver).control.starting = false :=
  forall₃_congr fun _ _ hWire => h.posted_iff hWire

/-- The next step leaves a receive for every report exactly if it does not
report too early. -/
theorem reportsFindReceives_next (hFind : ReportsFindReceives s) {a : Operation}
    (hNext : next x s a = some t) :
    ReportsFindReceives t ↔ ReportsAfterPost x (s, a) := by
  rw [reportsFindReceives_iff h] at hFind
  rw [reportsFindReceives_iff (next_reported h hNext)]
  constructor
  · intro hAfter receiver hReports
    obtain ⟨hSame, sender, hWire⟩ := wire_of_reportsTo hNext hReports
    have hPosted := hAfter sender receiver hWire
    rwa [hSame] at hPosted
  · intro hGuard sender receiver hWire
    have hBefore : (s.receiver receiver).control.starting = false := by
      rcases wire_of_next h hNext hWire with hOld | hReports
      · exact hFind sender receiver hOld
      · exact hGuard receiver hReports
    cases hAfter : (t.receiver receiver).control.starting with
    | false => rfl
    | true =>
        rw [starting_of_next h hNext hAfter] at hBefore
        cases hBefore

end Steps

theorem run_reported {x : Setup} {visits : List (State × Operation)} {s : State}
    (run : (startUpMachine x).RunsTo visits s) : Reported x s :=
  run.invariant (reported_start x) fun _ _ _ h hNext => next_reported h hNext

/-- In a run every report that is about to arrive finds a posted receive exactly
if every sender reports to a receiver after that has posted its receives. -/
theorem reports_find_receives_iff {x : Setup} {visits : List (State × Operation)} {s : State}
    (run : (startUpMachine x).RunsTo visits s) :
    ((∀ visit ∈ visits, ReportsFindReceives visit.1) ∧ ReportsFindReceives s) ↔
      ∀ visit ∈ visits, ReportsAfterPost x visit := by
  induction run with
  | zero =>
      have hInit : ReportsFindReceives (startUpMachine x).init :=
        fun _ _ hWire => absurd rfl hWire
      simp [hInit]
  | @succ visits s t a prior last ih =>
      have hStep := reportsFindReceives_next (run_reported prior) (t := t) (a := a)
      simp only [List.forall_mem_append, List.forall_mem_singleton]
      rw [← ih]
      constructor
      · rintro ⟨⟨hPrior, hBefore⟩, hAfter⟩
        exact ⟨⟨hPrior, hBefore⟩, (hStep hBefore last).mp hAfter⟩
      · rintro ⟨⟨hPrior, hBefore⟩, hGuard⟩
        exact ⟨⟨hPrior, hBefore⟩, (hStep hBefore last).mpr hGuard⟩

/-- One sender and one receiver, in different processes. -/
def pair : Setup where
  POLL := .srq
  numberPreparedResponses := 4
  senderIds := [1]
  recvIds := [0]
  senderProcess _ := 1
  receiverProcess _ := 0
  localAlloc _ _ := 0
  senderIds_nodup := by decide
  recvIds_nodup := by decide

/-- The receiver is constructed, then the sender comes all the way to its report. -/
def earlyReportActions : List Operation :=
  [.receiver 0, .receiver 0, .receiver 0, .sender 1, .sender 1, .sender 1, .sender 1, .sender 1,
    .sender 1, .sender 1]

/-- The receiver gets through its barrier before the sender comes to its report. -/
def lateReportActions : List Operation :=
  [.receiver 0, .receiver 0, .receiver 0, .sender 1, .sender 1, .sender 1, .sender 1, .sender 1,
    .sender 1, .receiver 0, .receiver 0, .sender 1]

theorem reports_find_receives_iff_late :
    ∃ visits s, (startUpMachine pair).RunsTo visits s ∧ s.wire (1, 0) = [initMsg] ∧
      ReportsFindReceives s := by
  obtain ⟨s, hReplay, hWire⟩ : ∃ s, (startUpMachine pair).replay (startUpMachine pair).init
      lateReportActions = some s ∧ s.wire (1, 0) = [initMsg] := ⟨_, rfl, rfl⟩
  have run := Machine.runsTo_of_replay lateReportActions hReplay
  have hGuard : ∀ visit ∈ (startUpMachine pair).record (startUpMachine pair).init
      lateReportActions, ReportsAfterPost pair visit := by decide
  exact ⟨_, s, run, hWire, ((reports_find_receives_iff run).mpr hGuard).2⟩

/-- The receiver still waits at its barrier when the report is about to arrive. -/
theorem report_without_receive :
    ∃ s, (startUpMachine pair).Reachable s ∧ s.wire (1, 0) = [initMsg] ∧
      ¬ReportsFindReceives s := by
  obtain ⟨s, hReplay, hWire, hPosted⟩ : ∃ s,
      (startUpMachine pair).replay (startUpMachine pair).init earlyReportActions = some s ∧
        s.wire (1, 0) = [initMsg] ∧ (s.receiver 0).srq.posted = [] := ⟨_, rfl, rfl, rfl⟩
  refine ⟨s, Machine.reachable_of_replay earlyReportActions hReplay, hWire, fun hFind => ?_⟩
  exact hFind 1 0 (by rw [hWire]; exact List.cons_ne_nil _ _) hPosted

end InitPhase
