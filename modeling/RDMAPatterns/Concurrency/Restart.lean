import RDMAPatterns.Concurrency.LifeCycle

/-! What a start call that returns true promises over whole runs. `m_kill` is never
cleared, so an object that was stopped, or whose `bind` has failed, cannot serve again.
And a thread whose `receive` has failed clears the flag a step later than it leaves its
loop, so a start call in between returns true for a loop that has ended. -/
namespace LifeCycle

open Transition

section Runs

variable {kind : Kind} {visits : List (State × Action)} {s : State}
  (run : (lifeMachine kind).RunsTo visits s)

include run

/-- If no start finds the flag set, the threads of a server follow each other. -/
theorem run_orderly (hFresh : ∀ visit ∈ visits, StartsFresh visit) : Orderly s := by
  apply @Machine.RunsTo.invariant_of_guard _ _ _ (fun s a => StartsFresh (s, a)) _ _ _ run
    orderly_init
  · intro s a t h hGuard hNext
    cases a with
    | caller a => exact caller_orderly h hGuard hNext
    | thread i a => exact thread_orderly h hNext
  · exact hFresh

/-- If no start call relies on a loop that has ended, every failure of `receive` since the
last spawn came after the return of the start call that promised something. -/
theorem failed_after_return (hSees : ∀ visit ∈ visits, SeesLoop visit) :
    s.promised = true → s.excused = false → s.failed = false := by
  apply @Machine.RunsTo.invariant_of_guard _ _ _ (fun s a => SeesLoop (s, a))
    (fun s => s.promised = true → s.excused = false → s.failed = false) _ _ run
  · exact fun hPromised => by cases hPromised
  · intro s a t h hGuard hNext
    cases a with
    | caller a =>
        cases callerStep_cases hNext with
        | start =>
            by_cases hRunning : s.running = true
            · rw [if_pos hRunning]
              exact fun _ _ => hGuard (.inl rfl) hRunning
            · rw [if_neg hRunning]
              exact h
        | testRunning =>
            by_cases hRunning : s.running = true
            · rw [if_pos hRunning]
              exact fun _ _ => hGuard (.inr rfl) hRunning
            · rw [if_neg hRunning]
              exact h
        | spawn => exact fun _ _ => rfl
        | stop => exact fun hPromised => by cases hPromised
        | interrupt =>
            cases kind with
            | protoServer => exact h
            | rpcVoidHandlerThread => exact h
        | testKilled | setKill | join | restore => exact h
    | thread i a =>
        cases threadStep_cases hNext with
        | receiveFails => exact fun _ hExcused => by cases hExcused
        | execute =>
            cases kind with
            | protoServer => exact h
            | rpcVoidHandlerThread => exact h
        | bound | unbound | stop | setRunning | testKilled | message | noMessage
        | clearRunning => exact h
  · exact hSees

/-- As long as nothing is started while `m_kill` is set, and no start call finds the flag of
a loop that was left on a failed `receive`, a start call that returns true means that the
loop is active and stays so until the next stop call, unless `receive` fails after the
return. A start call returns false only if its `bind` has failed. -/
theorem start_means_serving (hFresh : ∀ visit ∈ visits, StartsFresh visit)
    (hSees : ∀ visit ∈ visits, SeesLoop visit) :
    s.Serves ∧ ∀ visit ∈ visits, visit.2 = .caller .testKilled → visit.1.kill = true →
      visit.1.bindFailed = true := by
  refine ⟨fun hPromised hExcused => (run_orderly run hFresh).inLoop_of_promised hPromised
    (failed_after_return run hSees hPromised hExcused), ?_⟩
  intro visit hVisit hAction hKill
  obtain ⟨before, after, hSplit, prior⟩ := run.visit_split hVisit
  obtain ⟨t, hNext⟩ := run.visit_enabled hVisit
  have hOrderly : Orderly visit.1 :=
    run_orderly prior fun earlier hEarlier => hFresh earlier (by rw [hSplit]; simp [hEarlier])
  have hOk := hOrderly.caller
  rw [hAction] at hNext
  cases callerStep_cases hNext with
  | testKilled hCaller =>
      rw [hCaller] at hOk
      exact (hOk.2 hKill).2

end Runs

/-- A start call that returns true and a message. -/
def servesOne : List Action :=
  [.caller .start, .caller .spawn, .caller .testRunning, .thread 1 .execute, .caller .testKilled,
    .thread 1 (.bind true), .thread 1 .setRunning, .caller .testRunning, .thread 1 .testKilled,
    .thread 1 .message]

/-- A server that was started and serves one message. -/
theorem start_means_serving_servesOne :
    ∃ s, (lifeMachine .protoServer).RunsTo ((lifeMachine .protoServer).record {} servesOne) s ∧
      s.promised = true ∧ s.excused = false ∧ ∃ i, (s.thread i).InLoop := by
  have run := Machine.runsTo_of_replay (M := lifeMachine .protoServer) servesOne rfl
  exact ⟨_, run, rfl, rfl, (start_means_serving run (by decide) (by decide)).1 rfl rfl⟩

section Stale

variable {kind : Kind} {visits : List (State × Action)} {s t : State}

/-- Nobody is in the body of the loop, and nobody can get there any more. -/
def State.Dead (s : State) : Prop := s.kill = true ∧ ∀ i, s.thread i ≠ .serving

/-- A dead server stays dead when a thread goes anywhere but into its loop. -/
theorem State.Dead.moveTo (h : s.Dead) {i : Nat} {c : ThreadControl} (hC : c ≠ .serving) :
    ∀ j, (s.moveTo i c).thread j ≠ .serving := by
  intro j
  by_cases hSelf : j = i
  · subst hSelf
    simpa [State.moveTo] using hC
  · simpa [State.moveTo, hSelf] using h.2 j

/-- No thread of a dead server gets into its loop. -/
theorem State.Dead.thread_step (h : s.Dead) {i : Nat} {a : ThreadAction}
    (hStep : threadStep kind s i a = some t) : t.Dead := by
  cases threadStep_cases hStep with
  | execute =>
      cases kind with
      | protoServer => exact ⟨h.1, h.moveTo (by decide)⟩
      | rpcVoidHandlerThread => exact ⟨h.1, h.moveTo (by decide)⟩
  | stop => exact ⟨rfl, h.moveTo (by decide)⟩
  | testKilled => exact ⟨h.1, h.moveTo (by rw [if_pos h.1]; decide)⟩
  | message hServing => exact absurd hServing (h.2 i)
  | noMessage hServing => exact absurd hServing (h.2 i)
  | receiveFails hServing => exact absurd hServing (h.2 i)
  | bound | unbound | setRunning | clearRunning => exact ⟨h.1, h.moveTo (by decide)⟩

/-- No call revives a dead server: a new thread finds the flag set, and nobody clears it. -/
theorem State.Dead.caller_step (h : s.Dead) {a : CallerAction}
    (hStep : callerStep kind s a = some t) : t.Dead := by
  cases callerStep_cases hStep with
  | start | testRunning =>
      split
      · exact h
      · exact h
  | spawn => exact ⟨h.1, h.moveTo (by decide)⟩
  | setKill => exact ⟨rfl, h.2⟩
  | interrupt =>
      cases kind with
      | protoServer => exact h
      | rpcVoidHandlerThread => exact h
  | testKilled | stop | join | restore => exact h

theorem State.Dead.step (h : s.Dead) {a : Action} (hNext : (lifeMachine kind).next s a = some t) :
    t.Dead := by
  cases a with
  | caller a => exact h.caller_step hNext
  | thread i a => exact h.thread_step hNext

/-- The first start that finds `m_kill` set finds no thread. -/
theorem Orderly.dead (h : Orderly s) {a : Action} (hStale : ¬StartsFresh (s, a))
    (hNext : (lifeMachine kind).next s a = some t) : s.Dead := by
  obtain ⟨hStart, hRunning, hKill⟩ : a = .caller .start ∧ s.running = false ∧ s.kill ≠ false := by
    simpa [StartsFresh] using hStale
  subst hStart
  have hOk := h.caller
  cases callerStep_cases hNext with
  | start hCaller =>
      rw [hCaller] at hOk
      have hFinished := h.finished hOk.1 (by rw [hRunning]; decide)
      refine ⟨by simpa using hKill, fun i hServing => ?_⟩
      by_cases hSelf : i = s.current
      · rw [hSelf, hFinished] at hServing
        cases hServing
      · rw [h.others i hSelf] at hServing
        cases hServing

/-- Once something was started while `m_kill` was set, the body of the loop is never
reached again. -/
theorem stale_start_never_serves (run : (lifeMachine kind).RunsTo visits s)
    (hStale : ∃ visit ∈ visits, ¬StartsFresh visit) : ∀ i, s.thread i ≠ .serving := by
  suffices hDead : s.Dead from hDead.2
  induction run with
  | zero =>
      obtain ⟨visit, hVisit, _⟩ := hStale
      cases hVisit
  | @succ visits s t a prior last ih =>
      by_cases hBefore : ∃ visit ∈ visits, ¬StartsFresh visit
      · exact (ih hBefore).step last
      · have hFresh : ∀ visit ∈ visits, StartsFresh visit := by
          intro visit hVisit
          by_contra hNot
          exact hBefore ⟨visit, hVisit, hNot⟩
        obtain ⟨visit, hVisit, hNot⟩ := hStale
        rcases List.mem_append.mp hVisit with hOld | hLast
        · exact absurd (hFresh visit hOld) hNot
        · obtain rfl := List.mem_singleton.mp hLast
          exact ((run_orderly prior hFresh).dead hNot last).step last

end Stale

section Blind

variable {kind : Kind} {visits : List (State × Action)} {s t : State}

/-- If `receive` has failed since the last spawn, every thread is on its way out. -/
def State.Over (s : State) : Prop :=
  s.failed = true → ∀ i, s.thread i = .leaving ∨ s.thread i = .finished

/-- A thread that has left its loop does not come back. -/
theorem State.Over.thread_step (h : s.Over) (hOrderly : Orderly s) {i : Nat} {a : ThreadAction}
    (hStep : threadStep kind s i a = some t) : t.Over := by
  -- A thread that is not on its way out shows that nothing has failed.
  have hOut {c : ThreadControl} (hControl : s.thread i = c) (hLeaving : c ≠ .leaving)
      (hFinished : c ≠ .finished) : s.failed = true → False := by
    intro hFailed
    rcases h hFailed i with hOld | hOld
    · exact hLeaving (hControl.symm.trans hOld)
    · exact hFinished (hControl.symm.trans hOld)
  cases threadStep_cases hStep with
  | execute hControl =>
      cases kind with
      | protoServer => exact fun hFailed => (hOut hControl (by decide) (by decide) hFailed).elim
      | rpcVoidHandlerThread =>
          exact fun hFailed => (hOut hControl (by decide) (by decide) hFailed).elim
  | bound hControl | unbound hControl | stop hControl | setRunning hControl
  | testKilled hControl | message hControl | noMessage hControl =>
      exact fun hFailed => (hOut hControl (by decide) (by decide) hFailed).elim
  | receiveFails hControl =>
      intro _ j
      by_cases hSelf : j = i
      · left
        rw [hSelf]
        exact Function.update_self ..
      · right
        have hCurrent := hOrderly.current (by rw [hControl]; decide)
        exact (Function.update_of_ne hSelf ..).trans (hOrderly.others j (hCurrent ▸ hSelf))
  | clearRunning =>
      intro hFailed j
      by_cases hSelf : j = i
      · right
        rw [hSelf]
        exact Function.update_self ..
      · simpa [State.moveTo, hSelf] using h hFailed j

theorem State.Over.caller_step (h : s.Over) {a : CallerAction}
    (hStep : callerStep kind s a = some t) : t.Over := by
  cases callerStep_cases hStep with
  | start | testRunning =>
      split
      · exact h
      · exact h
  | spawn => exact fun hFailed => by cases hFailed
  | interrupt =>
      cases kind with
      | protoServer => exact h
      | rpcVoidHandlerThread => exact h
  | testKilled | stop | setKill | join | restore => exact h

/-- In a run of fresh starts, what is over is over. -/
theorem run_over (run : (lifeMachine kind).RunsTo visits s)
    (hFresh : ∀ visit ∈ visits, StartsFresh visit) : s.Over := by
  suffices hBoth : Orderly s ∧ s.Over from hBoth.2
  apply @Machine.RunsTo.invariant_of_guard _ _ _ (fun s a => StartsFresh (s, a))
    (fun s => Orderly s ∧ s.Over) _ _ run
  · exact ⟨orderly_init, fun hFailed => by cases hFailed⟩
  · intro s a t h hGuard hNext
    cases a with
    | caller a => exact ⟨caller_orderly h.1 hGuard hNext, h.2.caller_step hNext⟩
    | thread i a => exact ⟨thread_orderly h.1 hNext, h.2.thread_step h.1 hNext⟩
  · exact hFresh

/-- The second condition is exact too: a start call that returns true between a failed
`receive` and the clearing of the flag has no loop to offer. -/
theorem blind_start_not_serving (run : (lifeMachine kind).RunsTo visits s)
    (hFresh : ∀ visit ∈ visits, StartsFresh visit) {a : Action} (hBlind : ¬SeesLoop (s, a))
    (hNext : (lifeMachine kind).next s a = some t) : ¬t.Serves := by
  obtain ⟨hTest, hRunning, hFailed⟩ :
      (a = .caller .start ∨ a = .caller .testRunning) ∧ s.running = true ∧ s.failed = true := by
    simpa [SeesLoop] using hBlind
  have hOver := run_over run hFresh hFailed
  have hReturned : t = s.returnTrue := by
    rcases hTest with rfl | rfl
    · cases callerStep_cases hNext with
      | start => exact if_pos hRunning
    · cases callerStep_cases hNext with
      | testRunning => exact if_pos hRunning
  intro hServes
  rw [hReturned] at hServes
  obtain ⟨i, hLoop⟩ := hServes rfl rfl
  change (s.thread i).InLoop at hLoop
  rcases hOver i with hLeaving | hFinished
  · rw [hLeaving] at hLoop
    exact hLoop
  · rw [hFinished] at hLoop
    exact hLoop

end Blind

/-- A server is started and stopped, and started again: the call returns true and the loop
ends without another stop call. -/
def startedTwice : List Action :=
  [.caller .start, .caller .spawn, .thread 1 .execute, .thread 1 (.bind true),
    .thread 1 .setRunning, .caller .testRunning, .thread 1 .testKilled, .caller .stop,
    .caller .setKill, .caller .interrupt, .thread 1 .receiveFails, .thread 1 .clearRunning,
    .caller .join, .caller .start, .caller .spawn, .thread 2 .execute, .thread 2 (.bind true),
    .thread 2 .setRunning, .caller .testRunning, .thread 2 .testKilled]

/-- The same with a handler. -/
def handlerStartedTwice : List Action :=
  [.caller .start, .caller .spawn, .thread 1 .execute, .thread 1 .setRunning,
    .caller .testRunning, .thread 1 .testKilled, .caller .stop, .caller .setKill,
    .caller .interrupt, .thread 1 .noMessage, .thread 1 .testKilled, .thread 1 .clearRunning,
    .caller .join, .caller .restore, .caller .start, .caller .spawn, .thread 2 .execute,
    .thread 2 .setRunning, .caller .testRunning, .thread 2 .testKilled]

/-- The first `bind` fails, and the second does not. -/
def boundSecondTime : List Action :=
  [.caller .start, .caller .spawn, .thread 1 .execute, .thread 1 (.bind false), .thread 1 .stop,
    .caller .testRunning, .caller .testKilled, .caller .start, .caller .spawn,
    .thread 2 .execute, .thread 2 (.bind true), .thread 2 .setRunning, .caller .testRunning,
    .thread 2 .testKilled]

/-- The loop ends because `receive` has failed, and the next start call comes before the
thread clears the flag. -/
def startedBeforeCleared : List Action :=
  [.caller .start, .caller .spawn, .thread 1 .execute, .thread 1 (.bind true),
    .thread 1 .setRunning, .caller .testRunning, .thread 1 .testKilled, .thread 1 .receiveFails,
    .caller .start]

/-- If two threads have been spawned and none is in the loop, a promise is broken. -/
theorem not_serves_of_two {s : State} (hPromised : s.promised = true) (hExcused : s.excused = false)
    (hFirst : ¬(s.thread 1).InLoop) (hSecond : ¬(s.thread 2).InLoop)
    (hOthers : ∀ i, i ≠ 1 → i ≠ 2 → s.thread i = .finished) : ¬s.Serves := by
  intro hServes
  obtain ⟨i, hLoop⟩ := hServes hPromised hExcused
  by_cases hOne : i = 1
  · rw [hOne] at hLoop
    exact hFirst hLoop
  · by_cases hTwo : i = 2
    · rw [hTwo] at hLoop
      exact hSecond hLoop
    · rw [hOthers i hOne hTwo] at hLoop
      exact hLoop

theorem exists_run_of_replay {kind : Kind} {actions : List Action}
    (h : ∃ s, (lifeMachine kind).replay {} actions = some s ∧ ¬s.Serves) :
    ∃ s, (lifeMachine kind).RunsTo ((lifeMachine kind).record {} actions) s ∧ ¬s.Serves := by
  obtain ⟨s, hReplay, hNot⟩ := h
  exact ⟨s, Machine.runsTo_of_replay actions hReplay, hNot⟩

/-- The four ways in which a start returns true and nobody serves. -/
theorem second_start_not_serving :
    (∃ s, (lifeMachine .protoServer).RunsTo
      ((lifeMachine .protoServer).record {} startedTwice) s ∧ ¬s.Serves) ∧
    (∃ s, (lifeMachine .rpcVoidHandlerThread).RunsTo
      ((lifeMachine .rpcVoidHandlerThread).record {} handlerStartedTwice) s ∧ ¬s.Serves) ∧
    (∃ s, (lifeMachine .protoServer).RunsTo
      ((lifeMachine .protoServer).record {} boundSecondTime) s ∧ ¬s.Serves) ∧
    ∃ s, (lifeMachine .protoServer).RunsTo
      ((lifeMachine .protoServer).record {} startedBeforeCleared) s ∧ ¬s.Serves := by
  refine ⟨exists_run_of_replay ⟨_, rfl, not_serves_of_two rfl rfl id id ?_⟩,
    exists_run_of_replay ⟨_, rfl, not_serves_of_two rfl rfl id id ?_⟩,
    exists_run_of_replay ⟨_, rfl, not_serves_of_two rfl rfl id id ?_⟩,
    exists_run_of_replay ⟨_, rfl, not_serves_of_two rfl rfl id id ?_⟩⟩
  · intro i _ hTwo
    simp [State.moveTo, State.spawn, State.returnTrue, interrupt, hTwo]
  · intro i _ hTwo
    simp [State.moveTo, State.spawn, State.returnTrue, interrupt, hTwo]
  · intro i _ hTwo
    simp [State.moveTo, State.spawn, State.returnTrue, hTwo]
  · intro i hOne _
    simp [State.moveTo, State.spawn, State.returnTrue, hOne]

end LifeCycle
