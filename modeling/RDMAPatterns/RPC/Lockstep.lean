import RDMAPatterns.Journal.Growing
import RDMAPatterns.RPC.RPCMemory

/-! The thread's counter against the order in which the receive queue hands out
its buffers, over runs of any length. -/
namespace RPCVoidHandlerThread

open Journal Transition

/-- How often `getNext` was called when `served` completions were polled. -/
def Control.calls (n served : Nat) : Control → Nat
  | .initMemory i => i
  | .run => n + served
  | .handling _ => n + served

/-- How many receives were posted by then. -/
def Control.posts (n served : Nat) : Control → Nat
  | .initMemory i => i
  | .run => n + served
  | .handling _ => n + served - 1

def Control.WellPlaced (n served : Nat) : Control → Prop
  | .initMemory i => i ≤ n ∧ served = 0
  | .run => True
  | .handling message => 1 ≤ served ∧ message = slotAt n (n + served - 1)

/-- Calls, postings, messages and completions are numbered. The receive number
`p` lies in the slot of call `p`, message `k` takes receive `k`, and completion
`k` is handled with call `n + k`. -/
structure Tracks (mem : RPCMemory) (s : State) : Prop where
  memory : s.rpcMemory =
    { mem with index := s.control.calls mem.maxNumberMsgs s.handed.length % 2 ^ 32 }
  place : s.control.WellPlaced mem.maxNumberMsgs s.handed.length
  polled : s.handed.length ≤ s.arrivals
  arrived : s.arrivals ≤ s.control.posts mem.maxNumberMsgs s.handed.length
  posted : s.posted = window (slotAt mem.maxNumberMsgs) s.arrivals
    (s.control.posts mem.maxNumberMsgs s.handed.length)
  completed : s.completed = window (slotAt mem.maxNumberMsgs) s.handed.length s.arrivals
  entries : ∀ (k : Nat) (entry : Handed), s.handed[k]? = some entry →
    entry.received = slotAt mem.maxNumberMsgs k ∧
    entry.passed = slotAt mem.maxNumberMsgs (mem.maxNumberMsgs + k) ∧
    entry.pointer = mem.pointer entry.passed
  buffer : ∀ a < s.arrivals,
    (∀ b, a < b → b < s.arrivals → slotAt mem.maxNumberMsgs a ≠ slotAt mem.maxNumberMsgs b) →
    s.buffer (slotAt mem.maxNumberMsgs a) = some a
  content : InStep mem.maxNumberMsgs s.handed.length →
    ∀ (k : Nat) (entry : Handed), s.handed[k]? = some entry → entry.content = some k

section Counting

variable {n served : Nat} {control : Control}

/-- Never more than `n` receives are posted ahead of what was served. -/
theorem Control.WellPlaced.posts_le (h : control.WellPlaced n served) :
    control.posts n served ≤ n + served := by
  cases control with
  | initMemory i => exact h.1.trans (Nat.le_add_right n served)
  | run => exact Nat.le_refl _
  | handling message => exact Nat.sub_le _ _

/-- What is in step up to now was in step before. -/
theorem InStep.mono {fewer : Nat} (h : InStep n served) (hLe : fewer ≤ served) :
    InStep n fewer := by
  rcases h with hDvd | hFew
  · exact .inl hDvd
  · exact .inr (by omega)

end Counting

section Steps

variable {mem : RPCMemory} {s t : State}

/-- The address of the next buffer only depends on the number of calls, as an index of
32 bits counts them. -/
theorem getNext_of_memory {calls : Nat}
    (h : s.rpcMemory = { mem with index := calls % 2 ^ 32 }) :
    s.rpcMemory.getNext = (slotAt mem.maxNumberMsgs calls,
      { mem with index := (calls + 1) % 2 ^ 32 }) := by
  rw [h]
  simp only [RPCMemory.getNext, slotAt, Nat.mod_add_mod]

theorem init_tracks : Tracks mem (rpcMachine mem).init where
  memory := rfl
  place := ⟨Nat.zero_le _, rfl⟩
  polled := Nat.le_refl _
  arrived := Nat.le_refl _
  posted := rfl
  completed := rfl
  entries := by
    intro k entry hAt
    cases hAt
  buffer := by
    intro a hA
    exact absurd hA (Nat.not_lt_zero a)
  content := by
    intro _ k entry hAt
    cases hAt

/-- The thread posts a receive, during the start or after a message was handled. -/
theorem Tracks.post (h : Tracks mem s) {control : Control} {rpcMemory : RPCMemory}
    (hMemory : rpcMemory = { mem with
      index := control.calls mem.maxNumberMsgs s.handed.length % 2 ^ 32 })
    (hPlace : control.WellPlaced mem.maxNumberMsgs s.handed.length)
    (hPosts : control.posts mem.maxNumberMsgs s.handed.length =
      s.control.posts mem.maxNumberMsgs s.handed.length + 1) {slot : Nat}
    (hSlot : slot = slotAt mem.maxNumberMsgs
      (s.control.posts mem.maxNumberMsgs s.handed.length)) :
    Tracks mem { s with
      rpcMemory := rpcMemory, control := control, posted := s.posted ++ [slot] } where
  memory := hMemory
  place := hPlace
  polled := h.polled
  arrived := by
    show s.arrivals ≤ control.posts _ s.handed.length
    rw [hPosts]
    exact h.arrived.trans (Nat.le_succ _)
  posted := by
    show s.posted ++ [slot] = window _ s.arrivals (control.posts _ s.handed.length)
    rw [hPosts, window_snoc h.arrived, ← h.posted, hSlot]
  completed := h.completed
  entries := h.entries
  buffer := h.buffer
  content := h.content

/-- A message that is taken up moves the cursor for the handlers on by one. -/
theorem Tracks.poll (h : Tracks mem s) (hRun : s.control = .run) {received : Nat}
    {completed : List Nat} (hCompleted : s.completed = received :: completed) :
    Tracks mem { s with
      rpcMemory := s.rpcMemory.getNext.2, completed := completed
      control := .handling s.rpcMemory.getNext.1
      handed := s.handed ++ [⟨received, s.rpcMemory.getNext.1,
        s.rpcMemory.pointer s.rpcMemory.getNext.1, s.buffer s.rpcMemory.getNext.1⟩] } := by
  have hCalls : s.rpcMemory.getNext =
      (slotAt mem.maxNumberMsgs (mem.maxNumberMsgs + s.handed.length),
        { mem with index := (mem.maxNumberMsgs + s.handed.length + 1) % 2 ^ 32 }) := by
    apply getNext_of_memory
    rw [h.memory, hRun]
    rfl
  have hPointer : s.rpcMemory.pointer = mem.pointer := by
    rw [h.memory]
    rfl
  have hArrived : s.arrivals ≤ mem.maxNumberMsgs + s.handed.length := by
    have hArrived := h.arrived
    rwa [hRun] at hArrived
  obtain ⟨hPolled, hReceived, hRest⟩ := window_eq_cons (h.completed.symm.trans hCompleted)
  rw [hCalls, hPointer]
  refine ⟨?_, ?_, ?_, ?_, ?_, ?_, ?_, h.buffer, ?_⟩
  · simp [Control.calls, Nat.add_assoc]
  · simp [Control.WellPlaced]
  · simpa using Nat.succ_le_of_lt hPolled
  · simpa [Control.posts] using hArrived
  · simpa [Control.posts, hRun] using h.posted
  · simpa using hRest
  · intro k entry hAt
    rcases getElem?_append_singleton hAt with hOld | ⟨rfl, rfl⟩
    · exact h.entries k entry hOld
    · exact ⟨hReceived, rfl, rfl⟩
  · intro hInStep k entry hAt
    rw [List.length_append, List.length_singleton] at hInStep
    rcases getElem?_append_singleton hAt with hOld | ⟨rfl, rfl⟩
    · exact h.content (hInStep.mono (Nat.le_succ _)) k entry hOld
    · -- The handler's slot is the one the message came into, and no later message did.
      show s.buffer (slotAt mem.maxNumberMsgs (mem.maxNumberMsgs + s.handed.length)) = _
      rw [slotAt_add hInStep (Nat.lt_succ_self _)]
      apply h.buffer _ hPolled
      intro b hAfter hBefore
      exact slotAt_ne hInStep hAfter (by omega) (by omega)

/-- Each step of the thread moves the cursors as the code does. -/
theorem threadStep_tracks (h : Tracks mem s) (hStep : threadStep s = some t) : Tracks mem t := by
  rw [threadStep] at hStep
  split at hStep
  case h_1 i hControl =>
    obtain ⟨hLe, hNone⟩ : i ≤ mem.maxNumberMsgs ∧ s.handed.length = 0 := by
      have hPlace := h.place
      rwa [hControl] at hPlace
    have hSame : s.rpcMemory.maxNumberMsgs = mem.maxNumberMsgs := by rw [h.memory]
    split at hStep
    case isTrue hMore =>
      have hCall := @getNext_of_memory mem s i (by rw [h.memory, hControl]; rfl)
      rw [hCall] at hStep
      obtain rfl := Option.some.inj hStep
      exact @Tracks.post mem s h (.initMemory (i + 1)) _ rfl ⟨by omega, hNone⟩
        (by rw [hControl]; rfl) _ (by rw [hControl]; rfl)
    case isFalse hDone =>
      obtain rfl := Option.some.inj hStep
      obtain rfl : i = mem.maxNumberMsgs := by omega
      have hPosts : Control.run.posts mem.maxNumberMsgs s.handed.length =
          s.control.posts mem.maxNumberMsgs s.handed.length := by
        rw [hControl, hNone]
        rfl
      refine ⟨?_, trivial, h.polled, ?_, ?_, h.completed, h.entries, h.buffer, h.content⟩
      · show s.rpcMemory = _
        rw [h.memory, hControl, hNone]
        rfl
      · show s.arrivals ≤ Control.run.posts _ _
        rw [hPosts]
        exact h.arrived
      · show s.posted = window _ _ (Control.run.posts _ _)
        rw [hPosts]
        exact h.posted
  case h_2 hControl =>
    split at hStep
    case h_1 => cases hStep
    case h_2 received completed hCompleted =>
      obtain rfl := Option.some.inj hStep
      exact h.poll hControl hCompleted
  case h_3 message hControl =>
    obtain ⟨hPos, hMessage⟩ : 1 ≤ s.handed.length ∧
        message = slotAt mem.maxNumberMsgs (mem.maxNumberMsgs + s.handed.length - 1) := by
      have hPlace := h.place
      rwa [hControl] at hPlace
    obtain rfl := Option.some.inj hStep
    apply @Tracks.post mem s h .run
    · rw [h.memory, hControl]
      rfl
    · trivial
    · rw [hControl]
      simp only [Control.posts]
      omega
    · rw [hControl, hMessage]
      rfl

/-- An arriving message completes the oldest posted receive. -/
theorem arrive_tracks (h : Tracks mem s) (hStep : arrive s = some t) : Tracks mem t := by
  rw [arrive] at hStep
  split at hStep
  case h_1 => cases hStep
  case h_2 slot posted hPosted =>
    obtain rfl := Option.some.inj hStep
    obtain ⟨hLt, rfl, hRest⟩ := window_eq_cons (h.posted.symm.trans hPosted)
    refine ⟨h.memory, h.place, h.polled.trans (Nat.le_succ _), hLt, hRest, ?_, h.entries, ?_,
      h.content⟩
    · show s.completed ++ [_] = window _ _ (s.arrivals + 1)
      rw [window_snoc h.polled, h.completed]
    · intro a hA hLast
      by_cases hNew : a = s.arrivals
      · rw [hNew]
        exact Function.update_self _ _ _
      · have hOld : a < s.arrivals := Nat.lt_of_le_of_ne (Nat.le_of_lt_succ hA) hNew
        show Function.update s.buffer _ _ _ = _
        rw [Function.update_of_ne (hLast s.arrivals hOld (Nat.lt_succ_self _))]
        exact h.buffer a hOld fun b hAfter hBefore => hLast b hAfter (Nat.lt_succ_of_lt hBefore)

theorem reachable_tracks (h : (rpcMachine mem).Reachable s) : Tracks mem s := by
  apply h.invariant init_tracks
  intro s a t hInv hNext
  cases a with
  | thread => exact threadStep_tracks hInv hNext
  | arrive => exact arrive_tracks hInv hNext

end Steps

section Agreement

variable {mem : RPCMemory} {s : State}

theorem Tracks.pointer (h : Tracks mem s) : s.rpcMemory.pointer = mem.pointer := by
  rw [h.memory]
  rfl

/-- As long as the index has not wrapped out of step, each message is handled in the
buffer it was received in. -/
theorem Tracks.lockstep (h : Tracks mem s) (hInStep : InStep mem.maxNumberMsgs s.handed.length) :
    Lockstep s where
  own := by
    intro entry hMem
    obtain ⟨k, hAt⟩ := List.mem_iff_getElem?.mp hMem
    obtain ⟨hReceived, hPassed, hPointer⟩ := h.entries k entry hAt
    have hServed : k < s.handed.length := (List.getElem?_eq_some_iff.mp hAt).1
    have hSame : entry.passed = entry.received := by
      rw [hPassed, hReceived, slotAt_add hInStep hServed]
    exact ⟨hSame, by rw [h.pointer, hPointer, hSame]⟩
  once := by
    apply List.ext_getElem?
    intro k
    rw [List.getElem?_map, List.getElem?_map]
    cases hAt : s.handed[k]? with
    | none =>
        rw [List.getElem?_eq_none (by simpa using List.getElem?_eq_none_iff.mp hAt)]
        rfl
    | some entry =>
        have hServed : k < s.handed.length := (List.getElem?_eq_some_iff.mp hAt).1
        rw [List.getElem?_range hServed, Option.map_some, h.content hInStep k entry hAt]
        rfl
  apart := by
    rw [h.posted]
    apply nodup_window
    intro i j hFrom hLt hTo
    have hPosts := h.place.posts_le
    have hPolled := h.polled
    exact slotAt_ne hInStep hLt (by omega) (by omega)
  handled := by
    intro slot hSlot
    have hPosts := h.place.posts_le
    have hPolled := h.polled
    rw [h.posted, mem_window] at hSlot
    obtain ⟨i, hFrom, hTo, rfl⟩ := hSlot
    constructor
    · intro hCompleted
      rw [h.completed, mem_window] at hCompleted
      obtain ⟨j, hUnhandled, hReceived, hSame⟩ := hCompleted
      exact slotAt_ne hInStep (show j < i by omega) (by omega) (by omega) hSame
    · intro hHandling
      have hPlace := h.place
      rw [hHandling] at hPlace hTo
      obtain ⟨hPos, hMessage⟩ := hPlace
      have hTo : i < mem.maxNumberMsgs + s.handed.length - 1 := hTo
      -- The message in the handler is the one before the oldest that waits.
      rw [Nat.add_sub_assoc hPos, slotAt_add hInStep (by omega)] at hMessage
      exact slotAt_ne hInStep (show s.handed.length - 1 < i by omega) (by omega) (by omega)
        hMessage.symm

/-- If handling is in lockstep, the wrap-around was not passed out of step. -/
theorem Tracks.inStep (h : Tracks mem s) (hPos : 1 ≤ mem.maxNumberMsgs)
    (hSmall : mem.maxNumberMsgs < 2 ^ 32) (hLockstep : Lockstep s) :
    InStep mem.maxNumberMsgs s.handed.length := by
  by_contra hNot
  obtain ⟨hDvd, hMany⟩ := not_or.mp hNot
  have hServed : 2 ^ 32 - mem.maxNumberMsgs < s.handed.length := by omega
  have hAt := List.getElem?_eq_getElem hServed
  obtain ⟨hReceived, hPassed, _⟩ := h.entries _ _ hAt
  have hOwn := (hLockstep.own _ (List.mem_of_getElem? hAt)).1
  rw [hReceived, hPassed] at hOwn
  exact slotAt_wrap hPos hSmall hDvd hOwn

/-- Nothing is taken back that was handed to a handler. -/
theorem next_handed_le {t : State} {a : Operation} (hNext : next s a = some t) :
    s.handed.length ≤ t.handed.length := by
  cases a with
  | thread =>
      have hStep : threadStep s = some t := hNext
      rw [threadStep] at hStep
      split at hStep
      case h_1 =>
        split at hStep
        all_goals
          obtain rfl := Option.some.inj hStep
          exact Nat.le_refl _
      case h_2 =>
        split at hStep
        case h_1 => cases hStep
        case h_2 =>
          obtain rfl := Option.some.inj hStep
          simp
      case h_3 =>
        obtain rfl := Option.some.inj hStep
        exact Nat.le_refl _
  | arrive =>
      have hStep : arrive s = some t := hNext
      rw [arrive] at hStep
      split at hStep
      case h_1 => cases hStep
      case h_2 =>
        obtain rfl := Option.some.inj hStep
        exact Nat.le_refl _

/-- What was handed out earlier in a run is among what was handed out in the end. -/
theorem handed_mono {visits : List (State × Operation)} (run : (rpcMachine mem).RunsTo visits s) :
    ∀ visit ∈ visits, visit.1.handed.length ≤ s.handed.length := by
  induction run with
  | zero =>
      intro visit hVisit
      cases hVisit
  | @succ visits s t a prior last ih =>
      intro visit hVisit
      rcases List.mem_append.mp hVisit with hOld | hLast
      · exact (ih visit hOld).trans (next_handed_le last)
      · obtain rfl := List.mem_singleton.mp hLast
        exact next_handed_le last

end Agreement

section LongRuns

variable {mem : RPCMemory}

/-- The thread polls, and no message waits for it. -/
structure Resting (mem : RPCMemory) (served : Nat) (s : State) : Prop where
  reachable : (rpcMachine mem).Reachable s
  control : s.control = .run
  completed : s.completed = []
  served : s.handed.length = served

theorem reachable_next {s t : State} {a : Operation} (h : (rpcMachine mem).Reachable s)
    (hNext : next s a = some t) : (rpcMachine mem).Reachable t :=
  Machine.Reachable.step h (show (rpcMachine mem).next s a = some t from hNext)

/-- After `i` iterations of `initMemory`, with no message yet. -/
theorem exists_posted {i : Nat} (hLe : i ≤ mem.maxNumberMsgs) :
    ∃ s, (rpcMachine mem).Reachable s ∧ s.control = .initMemory i ∧ s.completed = [] ∧
      s.handed = [] := by
  induction i with
  | zero => exact ⟨_, ⟨[], .zero⟩, rfl, rfl, rfl⟩
  | succ i ih =>
      obtain ⟨s, hReachable, hControl, hCompleted, hHanded⟩ := ih (Nat.le_of_succ_le hLe)
      have hSame : s.rpcMemory.maxNumberMsgs = mem.maxNumberMsgs := by
        rw [(reachable_tracks hReachable).memory]
      have hNext : next s .thread = some { s with
          rpcMemory := s.rpcMemory.getNext.2, posted := s.posted ++ [s.rpcMemory.getNext.1]
          control := .initMemory (i + 1) } := by
        rw [next, threadStep, hControl]
        exact if_pos (by omega)
      exact ⟨_, reachable_next hReachable hNext, rfl, hCompleted, hHanded⟩

/-- The thread can come to wait for its first message. -/
theorem exists_resting : ∃ s, Resting mem 0 s := by
  obtain ⟨s, hReachable, hControl, hCompleted, hHanded⟩ :=
    @exists_posted mem _ (Nat.le_refl _)
  have hSame : s.rpcMemory.maxNumberMsgs = mem.maxNumberMsgs := by
    rw [(reachable_tracks hReachable).memory]
  have hNext : next s .thread = some { s with control := .run } := by
    rw [next, threadStep, hControl]
    exact if_neg (by omega)
  exact ⟨_, reachable_next hReachable hNext, rfl, hCompleted, by rw [hHanded]; rfl⟩

/-- One more message arrives, is handled, and its slot is posted again. -/
theorem Resting.round (hPos : 1 ≤ mem.maxNumberMsgs) {served : Nat} {s : State}
    (h : Resting mem served s) : ∃ t, Resting mem (served + 1) t := by
  have hTracks := reachable_tracks h.reachable
  have hArrivals : s.arrivals = s.handed.length := by
    have hLength := congrArg List.length hTracks.completed
    rw [h.completed, window_length, List.length_nil] at hLength
    have hPolled := hTracks.polled
    omega
  have hPosted : s.posted = slotAt mem.maxNumberMsgs s.arrivals ::
      window (slotAt mem.maxNumberMsgs) (s.arrivals + 1)
        (mem.maxNumberMsgs + s.handed.length) := by
    have hPosts := hTracks.posted
    rw [h.control] at hPosts
    rw [hPosts]
    exact window_cons (show s.arrivals < mem.maxNumberMsgs + s.handed.length by omega)
  obtain ⟨t, hArrive, hControl, hCompleted, hHanded⟩ : ∃ t, next s .arrive = some t ∧
      t.control = .run ∧ t.completed = [slotAt mem.maxNumberMsgs s.arrivals] ∧
      t.handed = s.handed := by
    rw [next, arrive, hPosted]
    exact ⟨_, rfl, h.control, by rw [h.completed]; rfl, rfl⟩
  obtain ⟨u, message, hPoll, hHandling, hEmpty, hOne⟩ : ∃ u message,
      next t .thread = some u ∧ u.control = .handling message ∧ u.completed = [] ∧
      u.handed.length = t.handed.length + 1 := by
    rw [next, threadStep, hControl, hCompleted]
    exact ⟨_, _, rfl, rfl, rfl, by simp⟩
  have hPost : next u .thread =
      some { u with posted := u.posted ++ [message], control := .run } := by
    rw [next, threadStep, hHandling]
  have hPolled := reachable_next (reachable_next h.reachable hArrive) hPoll
  refine ⟨_, reachable_next hPolled hPost, rfl, hEmpty, ?_⟩
  show u.handed.length = served + 1
  rw [hOne, hHanded, h.served]

/-- A run can be continued to serve any number of messages. -/
theorem exists_served (hPos : 1 ≤ mem.maxNumberMsgs) (served : Nat) :
    ∃ s, Resting mem served s := by
  induction served with
  | zero => exact exists_resting
  | succ served ih =>
      obtain ⟨s, h⟩ := ih
      exact h.round hPos

end LongRuns

/-- A run agrees with its receive queue throughout exactly if the number of buffers
divides `2 ^ 32`, or the calls of `getNext` have not yet gone beyond it. -/
theorem rpc_lockstep_iff {mem : RPCMemory} {s : State}
    {visits : List (State × Operation)} (hPos : 1 ≤ mem.maxNumberMsgs)
    (hSmall : mem.maxNumberMsgs < 2 ^ 32) (run : (rpcMachine mem).RunsTo visits s) :
    (Lockstep s ∧ ∀ visit ∈ visits, Lockstep visit.1) ↔
      mem.maxNumberMsgs ∣ 2 ^ 32 ∨ mem.maxNumberMsgs + s.handed.length ≤ 2 ^ 32 := by
  constructor
  · intro h
    exact (reachable_tracks ⟨visits, run⟩).inStep hPos hSmall h.1
  · intro hInStep
    refine ⟨(reachable_tracks ⟨visits, run⟩).lockstep hInStep, ?_⟩
    intro visit hVisit
    obtain ⟨before, after, _, hBefore⟩ := run.visit_split hVisit
    exact (reachable_tracks ⟨before, hBefore⟩).lockstep
      (InStep.mono hInStep (handed_mono run visit hVisit))

/-- Four buffers of 512 bytes. -/
def fourBuffers : RPCMemory := { localBuffer := 4096, msgSize := 512, maxNumberMsgs := 4 }

theorem rpc_lockstep_iff_four :
    ∃ s, (rpcMachine fourBuffers).Reachable s ∧ s.handed.length = 5 ∧ Lockstep s := by
  obtain ⟨s, hReachable, _, _, hServed⟩ :=
    @exists_served fourBuffers (show 1 ≤ 4 by omega) 5
  obtain ⟨visits, run⟩ := hReachable
  have hLockstep := (rpc_lockstep_iff (show 1 ≤ fourBuffers.maxNumberMsgs from by decide)
    (by decide) run).mpr (.inl (by decide))
  exact ⟨s, ⟨visits, run⟩, hServed, hLockstep.1⟩

/-- With three buffers the handler is given the wrong one after the counter wrapped. -/
theorem rpc_not_lockstep :
    ¬∀ mem : RPCMemory, 1 ≤ mem.maxNumberMsgs → mem.maxNumberMsgs < 2 ^ 32 →
      ∀ s, (rpcMachine mem).Reachable s → Lockstep s := by
  intro hAlways
  have hThree : 1 ≤ (⟨0, 64, 3, 0⟩ : RPCMemory).maxNumberMsgs := by decide
  obtain ⟨s, hReachable, _, _, hServed⟩ := exists_served hThree (2 ^ 32 - 2)
  have hInStep := (reachable_tracks hReachable).inStep hThree (by decide)
    (hAlways _ hThree (by decide) s hReachable)
  rw [hServed] at hInStep
  rcases hInStep with hDvd | hFew
  · exact absurd hDvd (by decide)
  · exact absurd hFew (by decide)

end RPCVoidHandlerThread
