import Mathlib.Logic.Function.Basic
import RDMAPatterns.Transition.Runs

/-! The life of the objects that serve requests on a thread of their own, a
`ProtoServer` and an `RPCVoidHandlerThread`. One thread starts and stops the object,
and every start may spawn another thread that runs its loop. Every access to a shared
flag is a step of its own. -/
namespace LifeCycle

open Transition

/-- The class of the object. -/
inductive Kind where
  | protoServer
  | rpcVoidHandlerThread
deriving DecidableEq, Repr

/-- Where a spawned thread is: in front of `run()`, of `bind`, of `stop` if `bind` has
failed, of setting the flag that tells that the object serves, of the test of the loop, in
its body, or in front of clearing the flag. -/
inductive ThreadControl where
  | spawned
  | binding
  | unbound
  | bound
  | testing
  | serving
  | leaving
  | finished
deriving DecidableEq, Repr

/-- Where the starting and stopping thread is: outside, in front of spawning, of one of
the two tests of the loop in the start call, or of the steps of the stop call. -/
inductive CallerControl where
  | idle
  | spawning
  | testingRunning
  | testingKilled
  | stopping
  | interrupting
  | joining
  | restoring
deriving DecidableEq, Repr

/-- `running` is `m_running` of a `ProtoServer` or `m_processing` of an
`RPCVoidHandlerThread`, and `threadRunning` is `m_running` of `Thread`. `current` is the
thread that `m_thread` points to; there is none at first.

`promised` tells that a start call has returned true and no stop call was made since,
`excused` that `receive` has failed after it returned, `failed` and `bindFailed` that
`receive` or `bind` has failed since the last spawn. -/
structure State where
  kill : Bool := false
  running : Bool := false
  threadRunning : Bool := false
  poll : Bool := true
  contextClosed : Bool := false
  current : Nat := 0
  thread : Nat → ThreadControl := fun _ => .finished
  caller : CallerControl := .idle
  promised : Bool := false
  excused : Bool := false
  failed : Bool := false
  bindFailed : Bool := false

inductive CallerAction where
  | start
  | spawn
  | testRunning
  | testKilled
  | stop
  | setKill
  | interrupt
  | join
  | restore
deriving DecidableEq, Repr

inductive ThreadAction where
  | execute
  | bind (succeeds : Bool)
  | stop
  | setRunning
  | testKilled
  | message
  | noMessage
  | receiveFails
  | clearRunning
deriving DecidableEq, Repr

inductive Action where
  | caller (a : CallerAction)
  | thread (i : Nat) (a : ThreadAction)
deriving DecidableEq, Repr

namespace State

def moveTo (s : State) (i : Nat) (control : ThreadControl) : State :=
  { s with thread := Function.update s.thread i control }

/-- The start call returns true. -/
def returnTrue (s : State) : State :=
  { s with caller := .idle, promised := true, excused := false }

/-- `new ProtoSocket` and `Thread::start`. -/
def spawn (s : State) : State :=
  { s.moveTo (s.current + 1) .spawned with
    caller := .testingRunning, current := s.current + 1, contextClosed := false,
    promised := false, excused := false, failed := false, bindFailed := false }

end State

/-- `closeContext` of the socket, or `m_poll = false`. -/
def interrupt (kind : Kind) (s : State) : State :=
  match kind with
  | .protoServer => { s with caller := .joining, contextClosed := true }
  | .rpcVoidHandlerThread => { s with caller := .joining, poll := false }

/-- `startServer` and `stopServer`, or `startHandler` and `stopHandler`. -/
def callerStep (kind : Kind) (s : State) (a : CallerAction) : Option State :=
  match s.caller, a with
  | .idle, .start => some (if s.running then s.returnTrue else { s with caller := .spawning })
  | .spawning, .spawn => some s.spawn
  | .testingRunning, .testRunning =>
      some (if s.running then s.returnTrue else { s with caller := .testingKilled })
  | .testingKilled, .testKilled =>
      -- If it is set the call returns false.
      some { s with caller := if s.kill then .idle else .testingRunning }
  | .idle, .stop =>
      some { s with caller := if s.running then .stopping else .idle, promised := false }
  | .stopping, .setKill => some { s with caller := .interrupting, kill := true }
  | .interrupting, .interrupt => some (interrupt kind s)
  | .joining, .join =>
      if s.thread s.current = .finished then
        some { s with caller := match kind with
          | .protoServer => .idle
          | .rpcVoidHandlerThread => .restoring }
      else none
  | .restoring, .restore => some { s with caller := .idle, poll := true }
  | _, _ => none

/-- `Thread::execute` and `run`. A `receive` of a `ProtoServer` can fail at any time, and
has to once the context is closed; the poll of a handler comes back without a message
only if `m_poll` is not set. -/
def threadStep (kind : Kind) (s : State) (i : Nat) (a : ThreadAction) : Option State :=
  match s.thread i, a with
  | .spawned, .execute =>
      some { s.moveTo i (match kind with
        | .protoServer => .binding
        | .rpcVoidHandlerThread => .bound) with threadRunning := true }
  | .binding, .bind true => some (s.moveTo i .bound)
  | .binding, .bind false => some { s.moveTo i .unbound with bindFailed := true }
  | .unbound, .stop => some { s.moveTo i .finished with kill := true }
  | .bound, .setRunning => some { s.moveTo i .testing with running := true }
  | .testing, .testKilled => some (s.moveTo i (if s.kill then .leaving else .serving))
  | .serving, .message => if s.contextClosed then none else some (s.moveTo i .testing)
  | .serving, .noMessage =>
      if kind = .rpcVoidHandlerThread ∧ s.poll = false then some (s.moveTo i .testing) else none
  | .serving, .receiveFails =>
      if kind = .protoServer then
        some { s.moveTo i .leaving with excused := true, failed := true }
      else none
  | .leaving, .clearRunning => some { s.moveTo i .finished with running := false }
  | _, _ => none

def lifeMachine (kind : Kind) : Machine State Action where
  init := {}
  next s a :=
    match a with
    | .caller a => callerStep kind s a
    | .thread i a => threadStep kind s i a

/-- What the starting and stopping thread does from where it is. -/
inductive CallerStep (kind : Kind) (s : State) : CallerAction → State → Prop where
  | start (hCaller : s.caller = .idle) :
      CallerStep kind s .start (if s.running then s.returnTrue else { s with caller := .spawning })
  | spawn (hCaller : s.caller = .spawning) : CallerStep kind s .spawn s.spawn
  | testRunning (hCaller : s.caller = .testingRunning) :
      CallerStep kind s .testRunning
        (if s.running then s.returnTrue else { s with caller := .testingKilled })
  | testKilled (hCaller : s.caller = .testingKilled) :
      CallerStep kind s .testKilled
        { s with caller := if s.kill then .idle else .testingRunning }
  | stop (hCaller : s.caller = .idle) :
      CallerStep kind s .stop
        { s with caller := if s.running then .stopping else .idle, promised := false }
  | setKill (hCaller : s.caller = .stopping) :
      CallerStep kind s .setKill { s with caller := .interrupting, kill := true }
  | interrupt (hCaller : s.caller = .interrupting) :
      CallerStep kind s .interrupt (interrupt kind s)
  | join (hCaller : s.caller = .joining) (hFinished : s.thread s.current = .finished) :
      CallerStep kind s .join
        { s with caller := match kind with
          | .protoServer => .idle
          | .rpcVoidHandlerThread => .restoring }
  | restore (hCaller : s.caller = .restoring) :
      CallerStep kind s .restore { s with caller := .idle, poll := true }

/-- What one step of the caller does, by its place in `startServer` or `stopServer`. -/
theorem callerStep_cases {kind : Kind} {s s' : State} {a : CallerAction}
    (hStep : callerStep kind s a = some s') : CallerStep kind s a s' := by
  simp only [callerStep] at hStep
  split at hStep
  case h_1 hCaller =>
    obtain rfl := Option.some_inj.mp hStep
    exact .start hCaller
  case h_2 hCaller =>
    obtain rfl := Option.some_inj.mp hStep
    exact .spawn hCaller
  case h_3 hCaller =>
    obtain rfl := Option.some_inj.mp hStep
    exact .testRunning hCaller
  case h_4 hCaller =>
    obtain rfl := Option.some_inj.mp hStep
    exact .testKilled hCaller
  case h_5 hCaller =>
    obtain rfl := Option.some_inj.mp hStep
    exact .stop hCaller
  case h_6 hCaller =>
    obtain rfl := Option.some_inj.mp hStep
    exact .setKill hCaller
  case h_7 hCaller =>
    obtain rfl := Option.some_inj.mp hStep
    exact .interrupt hCaller
  case h_8 hCaller =>
    obtain ⟨hFinished, hMoved⟩ := Option.ite_none_right_eq_some.mp hStep
    obtain rfl := Option.some_inj.mp hMoved
    exact .join hCaller hFinished
  case h_9 hCaller =>
    obtain rfl := Option.some_inj.mp hStep
    exact .restore hCaller
  case h_10 => cases hStep

/-- What a spawned thread does from where it is. -/
inductive ThreadStep (kind : Kind) (s : State) (i : Nat) : ThreadAction → State → Prop where
  | execute (hControl : s.thread i = .spawned) :
      ThreadStep kind s i .execute
        { s.moveTo i (match kind with
          | .protoServer => .binding
          | .rpcVoidHandlerThread => .bound) with threadRunning := true }
  | bound (hControl : s.thread i = .binding) :
      ThreadStep kind s i (.bind true) (s.moveTo i .bound)
  | unbound (hControl : s.thread i = .binding) :
      ThreadStep kind s i (.bind false) { s.moveTo i .unbound with bindFailed := true }
  | stop (hControl : s.thread i = .unbound) :
      ThreadStep kind s i .stop { s.moveTo i .finished with kill := true }
  | setRunning (hControl : s.thread i = .bound) :
      ThreadStep kind s i .setRunning { s.moveTo i .testing with running := true }
  | testKilled (hControl : s.thread i = .testing) :
      ThreadStep kind s i .testKilled (s.moveTo i (if s.kill then .leaving else .serving))
  | message (hControl : s.thread i = .serving) (hOpen : ¬s.contextClosed = true) :
      ThreadStep kind s i .message (s.moveTo i .testing)
  | noMessage (hControl : s.thread i = .serving)
      (hPoll : kind = .rpcVoidHandlerThread ∧ s.poll = false) :
      ThreadStep kind s i .noMessage (s.moveTo i .testing)
  | receiveFails (hControl : s.thread i = .serving) (hKind : kind = .protoServer) :
      ThreadStep kind s i .receiveFails
        { s.moveTo i .leaving with excused := true, failed := true }
  | clearRunning (hControl : s.thread i = .leaving) :
      ThreadStep kind s i .clearRunning { s.moveTo i .finished with running := false }

/-- What one step of a thread does, by its place in `run`. -/
theorem threadStep_cases {kind : Kind} {s s' : State} {i : Nat} {a : ThreadAction}
    (hStep : threadStep kind s i a = some s') : ThreadStep kind s i a s' := by
  simp only [threadStep] at hStep
  split at hStep
  case h_1 hControl =>
    obtain rfl := Option.some_inj.mp hStep
    exact .execute hControl
  case h_2 hControl =>
    obtain rfl := Option.some_inj.mp hStep
    exact .bound hControl
  case h_3 hControl =>
    obtain rfl := Option.some_inj.mp hStep
    exact .unbound hControl
  case h_4 hControl =>
    obtain rfl := Option.some_inj.mp hStep
    exact .stop hControl
  case h_5 hControl =>
    obtain rfl := Option.some_inj.mp hStep
    exact .setRunning hControl
  case h_6 hControl =>
    obtain rfl := Option.some_inj.mp hStep
    exact .testKilled hControl
  case h_7 hControl =>
    obtain ⟨hOpen, hMoved⟩ := Option.ite_none_left_eq_some.mp hStep
    obtain rfl := Option.some_inj.mp hMoved
    exact .message hControl hOpen
  case h_8 hControl =>
    obtain ⟨hPoll, hMoved⟩ := Option.ite_none_right_eq_some.mp hStep
    obtain rfl := Option.some_inj.mp hMoved
    exact .noMessage hControl hPoll
  case h_9 hControl =>
    obtain ⟨hKind, hMoved⟩ := Option.ite_none_right_eq_some.mp hStep
    obtain rfl := Option.some_inj.mp hMoved
    exact .receiveFails hControl hKind
  case h_10 hControl =>
    obtain rfl := Option.some_inj.mp hStep
    exact .clearRunning hControl
  case h_11 => cases hStep

namespace ThreadControl

/-- The thread has not set the flag yet. -/
def Starts : ThreadControl → Prop
  | .spawned | .binding | .unbound | .bound => True
  | .testing | .serving | .leaving | .finished => False

/-- The loop of `run()` is active. -/
def InLoop : ThreadControl → Prop
  | .testing | .serving => True
  | .spawned | .binding | .unbound | .bound | .leaving | .finished => False

/-- The thread has set the flag and not cleared it. -/
def SetsRunning : ThreadControl → Prop
  | .testing | .serving | .leaving => True
  | .spawned | .binding | .unbound | .bound | .finished => False

end ThreadControl

/-- Since the last start call has returned true, and unless a stop call or a failure of
`receive` came after its return, the loop is active. -/
def State.Serves (s : State) : Prop :=
  s.promised = true → s.excused = false → ∃ i, (s.thread i).InLoop

/-- If the step begins a start call that spawns a thread, `m_kill` is not set. -/
def StartsFresh (visit : State × Action) : Prop :=
  visit.2 = .caller .start → visit.1.running = false → visit.1.kill = false

instance : DecidablePred StartsFresh := fun visit =>
  inferInstanceAs (Decidable (visit.2 = .caller .start → visit.1.running = false →
    visit.1.kill = false))

/-- If the step is a test of the flag in a start call that finds it set, the loop behind the
flag was not left on a failed `receive`. -/
def SeesLoop (visit : State × Action) : Prop :=
  visit.2 = .caller .start ∨ visit.2 = .caller .testRunning → visit.1.running = true →
    visit.1.failed = false

instance : DecidablePred SeesLoop := fun visit =>
  inferInstanceAs (Decidable (visit.2 = .caller .start ∨ visit.2 = .caller .testRunning →
    visit.1.running = true → visit.1.failed = false))

/-- What the caller may rely on, where `c` is what the current thread does. -/
def CallerOk (s : State) (c : ThreadControl) : CallerControl → Prop
  | .idle => ¬c.Starts ∧ (s.kill = true → c = .finished) ∧
      (s.promised = true → s.failed = false → c.InLoop)
  | .spawning => c = .finished ∧ s.kill = false ∧ (s.promised = true → s.failed = true)
  | .testingRunning | .testingKilled => s.promised = false ∧
      (s.kill = true → c = .finished ∧ s.bindFailed = true)
  | .stopping | .interrupting | .joining => s.promised = false ∧ ¬c.Starts
  | .restoring => s.promised = false ∧ c = .finished

/-- What holds as long as nothing is started with `m_kill` set. -/
structure Orderly (s : State) : Prop where
  others : ∀ i, i ≠ s.current → s.thread i = .finished
  running : s.running = true ↔ (s.thread s.current).SetsRunning
  leaving : s.thread s.current = .leaving → s.failed = true ∨ s.kill = true
  unbound : s.thread s.current = .unbound → s.bindFailed = true
  caller : CallerOk s (s.thread s.current) s.caller

theorem orderly_init : Orderly {} where
  others _ _ := rfl
  running := ⟨fun hRunning => (by cases hRunning), False.elim⟩
  leaving hLeaving := by cases hLeaving
  unbound hUnbound := by cases hUnbound
  caller := ⟨id, fun _ => rfl, fun hPromised => by cases hPromised⟩

section CallerFacts

variable {s s' : State} {c c' : ThreadControl} {caller : CallerControl}

/-- Only a start call has a thread that is starting. -/
theorem CallerOk.of_starts (h : CallerOk s c caller) (hStarts : c.Starts) :
    (caller = .testingRunning ∨ caller = .testingKilled) ∧ s.promised = false ∧
      s.kill = false := by
  have hNotFinished : c ≠ .finished := by
    rintro rfl
    exact hStarts
  have hWaits (h : s.promised = false ∧ (s.kill = true → c = .finished ∧ s.bindFailed = true)) :
      s.promised = false ∧ s.kill = false := by
    refine ⟨h.1, ?_⟩
    rw [← Bool.not_eq_true]
    exact fun hKill => hNotFinished (h.2 hKill).1
  cases caller with
  | testingRunning => exact ⟨.inl rfl, hWaits h⟩
  | testingKilled => exact ⟨.inr rfl, hWaits h⟩
  | idle => exact absurd hStarts h.1
  | stopping | interrupting | joining => exact absurd hStarts h.2
  | spawning => exact absurd h.1 hNotFinished
  | restoring => exact absurd h.2 hNotFinished

/-- A caller that waits for its thread has not returned, so it has promised nothing. -/
theorem callerOk_of_waits (hCaller : caller = .testingRunning ∨ caller = .testingKilled)
    (hPromised : s.promised = false)
    (hKill : s.kill = true → c = .finished ∧ s.bindFailed = true) : CallerOk s c caller := by
  rcases hCaller with rfl | rfl
  · exact ⟨hPromised, hKill⟩
  · exact ⟨hPromised, hKill⟩

/-- A step of a thread that has set the flag. If it leaves the loop, then because it is
told to or because `receive` has failed. -/
theorem CallerOk.move (h : CallerOk s c caller) (hSets : c.SetsRunning) (hStarts : ¬c'.Starts)
    (hPromised : s'.promised = s.promised) (hKill : s'.kill = s.kill)
    (hLoop : s.kill = false → s'.failed = false → s.failed = false ∧ (c.InLoop → c'.InLoop)) :
    CallerOk s' c' caller := by
  have hNotFinished : c ≠ .finished := by
    rintro rfl
    exact hSets
  cases caller with
  | idle =>
      have hClear : s.kill = false := by
        rw [← Bool.not_eq_true]
        exact fun hSet => hNotFinished (h.2.1 hSet)
      refine ⟨hStarts, fun hSet => ?_, fun hReturned hFailed => ?_⟩
      · rw [hKill, hClear] at hSet
        cases hSet
      · rw [hPromised] at hReturned
        obtain ⟨hBefore, hStays⟩ := hLoop hClear hFailed
        exact hStays (h.2.2 hReturned hBefore)
  | spawning => exact absurd h.1 hNotFinished
  | restoring => exact absurd h.2 hNotFinished
  | testingRunning | testingKilled =>
      refine ⟨hPromised.trans h.1, fun hSet => ?_⟩
      rw [hKill] at hSet
      exact absurd (h.2 hSet).1 hNotFinished
  | stopping | interrupting | joining => exact ⟨hPromised.trans h.1, hStarts⟩

end CallerFacts

section Steps

variable {kind : Kind} {s s' : State} (h : Orderly s)

include h

/-- Only the last thread that was started can still be alive. -/
theorem Orderly.current {i : Nat} (hLive : s.thread i ≠ .finished) : i = s.current := by
  by_contra hOther
  exact hLive (h.others i hOther)

/-- A step of the current thread, from what it leaves behind. -/
theorem Orderly.of_move {c : ThreadControl}
    (hThread : s'.thread = Function.update s.thread s.current c) (hCurrent : s'.current = s.current)
    (hCaller : s'.caller = s.caller) (hRunning : s'.running = true ↔ c.SetsRunning)
    (hLeaving : c = .leaving → s'.failed = true ∨ s'.kill = true)
    (hUnbound : c = .unbound → s'.bindFailed = true) (hOk : CallerOk s' c s.caller) :
    Orderly s' := by
  have hSelf : s'.thread s'.current = c := by rw [hThread, hCurrent, Function.update_self]
  refine ⟨fun i hI => ?_, by rwa [hSelf], by rwa [hSelf], by rwa [hSelf], by rwa [hSelf, hCaller]⟩
  rw [hCurrent] at hI
  rw [hThread, Function.update_of_ne hI]
  exact h.others i hI

/-- A step of a thread that has not set the flag yet. It stays a starting one, or it sets
the flag, or it ends because `bind` has failed. -/
theorem Orderly.of_starts {i : Nat} {c c' : ThreadControl} (hControl : s.thread i = c)
    (hStarts : c.Starts) (hThread : s'.thread = Function.update s.thread i c')
    (hCurrent : s'.current = s.current) (hCaller : s'.caller = s.caller)
    (hPromised : s'.promised = s.promised)
    (hRunning : s'.running = s.running ∧ ¬c'.SetsRunning ∨ s'.running = true ∧ c'.SetsRunning)
    (hLeaving : c' ≠ .leaving) (hUnbound : c' = .unbound → s'.bindFailed = true)
    (hKill : s'.kill = s.kill ∨ c' = .finished ∧ s'.bindFailed = true) : Orderly s' := by
  have hLive : s.thread i ≠ .finished := by
    intro hFinished
    rw [← hControl, hFinished] at hStarts
    exact hStarts
  obtain rfl := h.current hLive
  have hOk := h.caller
  rw [hControl] at hOk
  obtain ⟨hWaits, hNone, hClear⟩ := hOk.of_starts hStarts
  refine h.of_move hThread hCurrent hCaller ?_ (fun hSame => absurd hSame hLeaving) hUnbound ?_
  · rcases hRunning with ⟨hSame, hNot⟩ | ⟨hSet, hSets⟩
    · refine iff_of_false ?_ hNot
      rw [hSame, h.running, hControl]
      cases c with
      | spawned | binding | unbound | bound => exact id
      | testing | serving | leaving | finished => exact hStarts.elim
    · exact iff_of_true hSet hSets
  · refine callerOk_of_waits hWaits (hPromised.trans hNone) fun hSet => ?_
    rcases hKill with hSame | hFailed
    · rw [hSame, hClear] at hSet
      cases hSet
    · exact hFailed

/-- A step of a thread that has set the flag. -/
theorem Orderly.of_running {i : Nat} {c c' : ThreadControl} (hControl : s.thread i = c)
    (hSets : c.SetsRunning) (hThread : s'.thread = Function.update s.thread i c')
    (hCurrent : s'.current = s.current) (hCaller : s'.caller = s.caller)
    (hPromised : s'.promised = s.promised) (hKill : s'.kill = s.kill) (hStarts : ¬c'.Starts)
    (hRunning : s'.running = s.running ∧ c'.SetsRunning ∨ s'.running = false ∧ c' = .finished)
    (hLeaving : c' = .leaving → s'.failed = true ∨ s'.kill = true)
    (hLoop : s.kill = false → s'.failed = false → s.failed = false ∧ (c.InLoop → c'.InLoop)) :
    Orderly s' := by
  have hLive : s.thread i ≠ .finished := by
    intro hFinished
    rw [← hControl, hFinished] at hSets
    exact hSets
  obtain rfl := h.current hLive
  have hOk := h.caller
  rw [hControl] at hOk
  have hUnbound : c' = .unbound → s'.bindFailed = true := by
    rintro rfl
    exact absurd trivial hStarts
  refine h.of_move hThread hCurrent hCaller ?_ hLeaving hUnbound
    (hOk.move hSets hStarts hPromised hKill hLoop)
  rcases hRunning with ⟨hSame, hStill⟩ | ⟨hCleared, rfl⟩
  · exact iff_of_true (by rw [hSame, h.running, hControl]; exact hSets) hStill
  · exact iff_of_false (by rw [hCleared]; decide) id

/-- A step of the thread keeps the flags in agreement with where it is. -/
theorem thread_orderly {i : Nat} {a : ThreadAction} (hStep : threadStep kind s i a = some s') :
    Orderly s' := by
  cases threadStep_cases hStep with
  | execute hControl =>
      cases kind with
      | protoServer =>
          exact h.of_starts hControl trivial rfl rfl rfl rfl (.inl ⟨rfl, id⟩) (by simp) (by simp)
            (.inl rfl)
      | rpcVoidHandlerThread =>
          exact h.of_starts hControl trivial rfl rfl rfl rfl (.inl ⟨rfl, id⟩) (by simp) (by simp)
            (.inl rfl)
  | bound hControl =>
      exact h.of_starts hControl trivial rfl rfl rfl rfl (.inl ⟨rfl, id⟩) (by simp) (by simp)
        (.inl rfl)
  | unbound hControl =>
      exact h.of_starts hControl trivial rfl rfl rfl rfl (.inl ⟨rfl, id⟩) (by simp) (fun _ => rfl)
        (.inl rfl)
  | stop hControl =>
      have hFailed : s.bindFailed = true := by
        obtain rfl := h.current (by rw [hControl]; decide)
        exact h.unbound hControl
      exact h.of_starts hControl trivial rfl rfl rfl rfl (.inl ⟨rfl, id⟩) (by simp) (by simp)
        (.inr ⟨rfl, hFailed⟩)
  | setRunning hControl =>
      exact h.of_starts hControl trivial rfl rfl rfl rfl (.inr ⟨rfl, trivial⟩) (by simp) (by simp)
        (.inl rfl)
  | testKilled hControl =>
      cases hKill : s.kill with
      | true =>
          exact h.of_running hControl trivial rfl rfl rfl rfl rfl id (.inl ⟨rfl, trivial⟩)
            (fun _ => .inr hKill) (fun hClear => by rw [hKill] at hClear; cases hClear)
      | false =>
          exact h.of_running hControl trivial rfl rfl rfl rfl rfl id (.inl ⟨rfl, trivial⟩)
            (by simp) (fun _ hFailed => ⟨hFailed, id⟩)
  | message hControl =>
      exact h.of_running hControl trivial rfl rfl rfl rfl rfl id (.inl ⟨rfl, trivial⟩)
        (by simp) (fun _ hFailed => ⟨hFailed, id⟩)
  | noMessage hControl =>
      exact h.of_running hControl trivial rfl rfl rfl rfl rfl id (.inl ⟨rfl, trivial⟩)
        (by simp) (fun _ hFailed => ⟨hFailed, id⟩)
  | receiveFails hControl =>
      exact h.of_running hControl trivial rfl rfl rfl rfl rfl id (.inl ⟨rfl, trivial⟩)
        (fun _ => .inl rfl) (fun _ hFailed => by cases hFailed)
  | clearRunning hControl =>
      exact h.of_running hControl trivial rfl rfl rfl rfl rfl id (.inr ⟨rfl, rfl⟩)
        (by simp) (fun _ hFailed => ⟨hFailed, False.elim⟩)

/-- A step of the caller that leaves the threads and their flag alone. -/
theorem Orderly.of_caller (hThread : s'.thread = s.thread) (hCurrent : s'.current = s.current)
    (hRunning : s'.running = s.running) (hFailed : s'.failed = s.failed)
    (hKill : s.kill = true → s'.kill = true) (hBind : s'.bindFailed = s.bindFailed)
    (hOk : CallerOk s' (s.thread s.current) s'.caller) : Orderly s' where
  others i hI := by
    rw [hCurrent] at hI
    rw [hThread]
    exact h.others i hI
  running := by
    rw [hRunning, hThread, hCurrent]
    exact h.running
  leaving hLeaving := by
    rw [hThread, hCurrent] at hLeaving
    rw [hFailed]
    exact (h.leaving hLeaving).imp_right hKill
  unbound hUnbound := by
    rw [hThread, hCurrent] at hUnbound
    rw [hBind]
    exact h.unbound hUnbound
  caller := by rwa [hThread, hCurrent]

/-- If the flag is set and nobody has been told to stop, the thread is in its loop or
`receive` has failed. -/
theorem Orderly.inLoop (hRunning : s.running = true)
    (hKill : s.kill = true → s.thread s.current = .finished) :
    ¬(s.thread s.current).Starts ∧ s.kill = false ∧
      (s.failed = false → (s.thread s.current).InLoop) := by
  have hSets := h.running.mp hRunning
  have hClear : s.kill = false := by
    rw [← Bool.not_eq_true]
    intro hSet
    rw [hKill hSet] at hSets
    exact hSets
  have hLeaving := h.leaving
  rw [hClear] at hLeaving
  cases hControl : s.thread s.current with
  | testing | serving => exact ⟨id, hClear, fun _ => trivial⟩
  | leaving =>
      refine ⟨id, hClear, fun hNot => ?_⟩
      rcases hLeaving hControl with hFailed | hSet
      · rw [hNot] at hFailed
        cases hFailed
      · cases hSet
  | spawned | binding | unbound | bound | finished =>
      rw [hControl] at hSets
      exact hSets.elim

/-- A start that returns true has seen the thread, or one that is through already. -/
theorem returnTrue_orderly (hRunning : s.running = true)
    (hKill : s.kill = true → s.thread s.current = .finished) : Orderly s.returnTrue := by
  obtain ⟨hStarts, hClear, hLoop⟩ := h.inLoop hRunning hKill
  exact h.of_caller rfl rfl rfl rfl id rfl ⟨hStarts, hKill, fun _ => hLoop⟩

/-- A new thread begins when the one before has finished. -/
theorem spawn_orderly (hCaller : s.caller = .spawning) : Orderly s.spawn := by
  have hOk := h.caller
  rw [hCaller] at hOk
  obtain ⟨hFinished, hClear, _⟩ := hOk
  have hRunning := h.running
  rw [hFinished] at hRunning
  have hNew : s.spawn.thread s.spawn.current = .spawned := Function.update_self _ _ _
  refine ⟨fun i hI => ?_, ?_, ?_, ?_, ?_⟩
  · have hOther : s.spawn.thread i = s.thread i := Function.update_of_ne hI _ _
    rw [hOther]
    by_cases hBefore : i = s.current
    · rw [hBefore, hFinished]
    · exact h.others i hBefore
  · rw [hNew]
    exact iff_of_false (fun hSet => hRunning.mp hSet) id
  · rw [hNew]
    exact fun hLeaving => by cases hLeaving
  · rw [hNew]
    exact fun hUnbound => by cases hUnbound
  · refine ⟨rfl, fun hSet => ?_⟩
    change s.kill = true at hSet
    rw [hClear] at hSet
    cases hSet

/-- Without the flag, a thread that is not starting is at its end. -/
theorem Orderly.finished (hStarts : ¬(s.thread s.current).Starts) (hRunning : s.running ≠ true) :
    s.thread s.current = .finished := by
  have hSets : ¬(s.thread s.current).SetsRunning := fun hSets => hRunning (h.running.mpr hSets)
  cases hControl : s.thread s.current with
  | finished => rfl
  | spawned | binding | unbound | bound =>
      rw [hControl] at hStarts
      exact absurd trivial hStarts
  | testing | serving | leaving =>
      rw [hControl] at hSets
      exact absurd trivial hSets

omit h in
/-- The caller is outside again, and promises nothing. -/
theorem callerOk_idle (hFinished : s.thread s.current = .finished) (hPromised : s.promised = false) :
    CallerOk s (s.thread s.current) .idle := by
  refine ⟨by rw [hFinished]; exact id, fun _ => hFinished, fun hSet => ?_⟩
  rw [hPromised] at hSet
  cases hSet

/-- A fresh start keeps the flags in agreement with where the threads are. -/
theorem caller_orderly {a : CallerAction} (hFresh : StartsFresh (s, .caller a))
    (hStep : callerStep kind s a = some s') : Orderly s' := by
  have hOk := h.caller
  cases callerStep_cases hStep with
  | start hCaller =>
      rw [hCaller] at hOk
      by_cases hRunning : s.running = true
      · rw [if_pos hRunning]
        exact returnTrue_orderly h hRunning hOk.2.1
      · rw [if_neg hRunning]
        have hFinished := h.finished hOk.1 hRunning
        have hClear : s.kill = false := hFresh rfl (by simpa using hRunning)
        refine h.of_caller rfl rfl rfl rfl id rfl ⟨hFinished, hClear, fun hPromised => ?_⟩
        -- A promise that is not kept any more has ended with a failure of `receive`.
        rw [← Bool.not_eq_false]
        intro hFailed
        have hLoop := hOk.2.2 hPromised hFailed
        rw [hFinished] at hLoop
        exact hLoop
  | spawn hCaller => exact spawn_orderly h hCaller
  | testRunning hCaller =>
      rw [hCaller] at hOk
      by_cases hRunning : s.running = true
      · rw [if_pos hRunning]
        exact returnTrue_orderly h hRunning fun hKill => (hOk.2 hKill).1
      · rw [if_neg hRunning]
        exact h.of_caller rfl rfl rfl rfl id rfl hOk
  | testKilled hCaller =>
      rw [hCaller] at hOk
      by_cases hKill : s.kill = true
      · rw [if_pos hKill]
        exact h.of_caller rfl rfl rfl rfl id rfl (callerOk_idle (hOk.2 hKill).1 hOk.1)
      · rw [if_neg hKill]
        exact h.of_caller rfl rfl rfl rfl id rfl hOk
  | stop hCaller =>
      rw [hCaller] at hOk
      by_cases hRunning : s.running = true
      · rw [if_pos hRunning]
        exact h.of_caller rfl rfl rfl rfl id rfl ⟨rfl, hOk.1⟩
      · rw [if_neg hRunning]
        exact h.of_caller rfl rfl rfl rfl id rfl (callerOk_idle (h.finished hOk.1 hRunning) rfl)
  | setKill hCaller =>
      rw [hCaller] at hOk
      exact h.of_caller rfl rfl rfl rfl (fun _ => rfl) rfl hOk
  | interrupt hCaller =>
      rw [hCaller] at hOk
      cases kind with
      | protoServer => exact h.of_caller rfl rfl rfl rfl id rfl hOk
      | rpcVoidHandlerThread => exact h.of_caller rfl rfl rfl rfl id rfl hOk
  | join hCaller hFinished =>
      rw [hCaller] at hOk
      cases kind with
      | protoServer =>
          exact h.of_caller rfl rfl rfl rfl id rfl (callerOk_idle hFinished hOk.1)
      | rpcVoidHandlerThread => exact h.of_caller rfl rfl rfl rfl id rfl ⟨hOk.1, hFinished⟩
  | restore hCaller =>
      rw [hCaller] at hOk
      exact h.of_caller rfl rfl rfl rfl id rfl (callerOk_idle hOk.2 hOk.1)

end Steps

/-- The loop is active after a start call that has returned true, or `receive` has failed
since the last spawn. -/
theorem Orderly.inLoop_of_promised {s : State} (h : Orderly s) (hPromised : s.promised = true)
    (hFailed : s.failed = false) : ∃ i, (s.thread i).InLoop := by
  have hOk := h.caller
  cases hCaller : s.caller <;> rw [hCaller] at hOk
  case idle => exact ⟨s.current, hOk.2.2 hPromised hFailed⟩
  case spawning =>
    rw [hOk.2.2 hPromised] at hFailed
    cases hFailed
  all_goals
    rw [hOk.1] at hPromised
    cases hPromised

end LifeCycle
