import RDMAPatterns.Verbs.Accounting
import RDMAPatterns.Verbs.Executed

/-! Which request a call waits for. `requestRead` leaves a completion to a
later `pollSend`, and starts the counter again although nothing was reclaimed.
A call that waits in between takes the completion of the read. -/
namespace SendPath

open Transition Verbs
open SelectiveSignaling (countRequest)

/-- Calls that post a single request, the atomic ones signaled, and
`pollSend`. -/
def Call.waitsForOwn : Call → Bool
  | .write _ | .writeImm _ | .read _ | .send _ | .requestRead | .pollSend => true
  | .fetchAndAdd signaled | .fetchAndAddValue signaled | .compareAndSwap signaled => signaled
  | .sendBatch _ _ => false

/-- If the recorded step ends the loop of a waiting call, the request that the
call is made for has been executed: its own, or the requested read. -/
def ReturnsExecuted (visit : Connection × Action) : Prop :=
  visit.2 = .ibvPollCq → ∀ id, visit.1.control = .polling id ∨ visit.1.control = .pollingSend id →
    ∀ wr q, visit.1.queue.poll = some (wr, q) → visit.1.queue.Executed id

/-- The call does not wait while a requested read is unmatched, and posts only
if fewer than `maxWR` requests followed the last one polled for. -/
structure Considerate (maxWR : Nat) (calls : List Call) (call : Call) : Prop where
  alone : (tally maxWR calls).waits maxWR call = true → (tally maxWR calls).reads = 0
  room : call ≠ .pollSend → ((tally maxWR calls).backlog call).length < maxWR

instance (maxWR : Nat) (calls : List Call) (call : Call) :
    Decidable (Considerate maxWR calls call) :=
  decidable_of_iff
    (((tally maxWR calls).waits maxWR call = true → (tally maxWR calls).reads = 0) ∧
      (call ≠ .pollSend → ((tally maxWR calls).backlog call).length < maxWR))
    ⟨fun h => ⟨h.1, h.2⟩, fun h => ⟨h.alone, h.room⟩⟩

/-- If the recorded step is a call, it is a considerate one. -/
def CallsConsiderately (maxWR : Nat) : Connection × Action → Prop
  | (c, .call call) => Considerate maxWR c.calls call
  | (_, .ibvPostSend) | (_, .ibvPollCq) | (_, .complete) => True

instance (maxWR : Nat) : DecidablePred (CallsConsiderately maxWR)
  | (c, .call call) => inferInstanceAs (Decidable (Considerate maxWR c.calls call))
  | (_, .ibvPostSend) | (_, .ibvPollCq) | (_, .complete) => inferInstanceAs (Decidable True)

/-- The signaled requests outstanding are the unmatched reads and the one that
is waited for. -/
def Expected (q : SendQueue) (reads : List Nat) : Control → Prop
  | .idle => q.signaledIds = reads
  | .posting flags wait =>
      ∃ flag, flags = [flag] ∧ (wait = true → reads = []) ∧
        (q.post flag).signaledIds = if wait then [q.posted] else reads
  | .polling own => reads = [] ∧ q.signaledIds = [own]
  | .pollingBatch _ => False
  | .pollingSend read => q.signaledIds = read :: reads

structure Matched (maxWR : Nat) (c : Connection) : Prop where
  numbered : c.queue.Numbered
  expected : Expected c.queue c.reads c.control
  depth : c.queue.depth ≤ maxWR
  posting : ∀ flags wait, c.control = .posting flags wait → c.queue.depth < maxWR

theorem matched_init (maxWR : Nat) : Matched maxWR {} where
  numbered := SendQueue.numbered_empty
  expected := rfl
  depth := Nat.zero_le _
  posting _ _ hPosting := by cases hPosting

section Steps

variable {maxWR : Nat} {c next : Connection} (h : Matched maxWR c)

include h

/-- A call that posts one request and is going to wait only for that one. -/
theorem matched_posting {flag wait : Bool} {reads : List Nat} (hAlone : wait = true → reads = [])
    (hSignaled : (c.queue.post flag).signaledIds = if wait then [c.queue.posted] else reads)
    (hRoom : c.queue.depth < maxWR) (countWR : Nat) (calls : List Call) :
    Matched maxWR { c with
      countWR := countWR
      control := .posting [flag] wait
      calls := calls
      reads := reads } :=
  ⟨h.numbered, ⟨flag, rfl, hAlone, hSignaled⟩, h.depth, fun _ _ _ => hRoom⟩

/-- A considerate call begins when nothing is left in the queue that it could take for
its own. -/
theorem call_matched (hAccounted : Accounted maxWR c) (hIdle : c.control = .idle) {call : Call}
    {started : Connection} (hOwn : call.waitsForOwn = true) (hRun : call.run maxWR c = some started)
    (hConsiderate : Considerate maxWR c.calls call) :
    Matched maxWR { started with calls := c.calls ++ [call] } := by
  have hReads : c.queue.signaledIds = c.reads := by
    have hExpected := h.expected
    rwa [hIdle] at hExpected
  have hRoom : call ≠ .pollSend → c.queue.depth < maxWR := by
    intro hPosts
    have hFlags := hAccounted.outstanding
    rw [hIdle] at hFlags
    have hPolls : (tally maxWR c.calls).polls call = false := by
      cases call with
      | pollSend => exact absurd rfl hPosts
      | sendBatch messages signaled => cases hOwn
      | _ => rfl
    have hBacklog := hConsiderate.room hPosts
    rw [Tally.backlog, hPolls] at hBacklog
    rw [← SendQueue.length_flags, hFlags, List.length_reverse]
    exact hBacklog
  have hAlone : (tally maxWR c.calls).waits maxWR call = true → c.reads = [] := by
    intro hWaits
    have hNone := hConsiderate.alone hWaits
    exact List.length_eq_zero_iff.mp (hAccounted.agrees.reads.trans hNone)
  have hSignaled : ∀ flag, (flag = true → c.reads = []) →
      (c.queue.post flag).signaledIds = if flag then [c.queue.posted] else c.reads := by
    intro flag hEmpty
    rw [SendQueue.signaledIds_post, hReads]
    cases flag with
    | true => simp [hEmpty rfl]
    | false => simp
  cases call with
  | write signaled | writeImm signaled | read signaled | send signaled =>
      have hFlag : (countRequest maxWR c.countWR signaled).2 = true → c.reads = [] := by
        rw [hAccounted.agrees.countWR]
        exact hAlone
      obtain rfl : { c with
          countWR := (countRequest maxWR c.countWR signaled).1
          control := .posting [(countRequest maxWR c.countWR signaled).2]
            (countRequest maxWR c.countWR signaled).2 } = started := by
        simpa [Call.run, SendPath.write, SendPath.writeImm, SendPath.read, SendPath.send,
          remoteAccess, checkSignaled] using hRun
      exact matched_posting h hFlag (hSignaled _ hFlag) (hRoom (by simp)) _ _
  | requestRead =>
      obtain rfl := Option.some.inj hRun
      refine matched_posting h ?_ ?_ (hRoom (by simp)) _ _
      · intro hWait
        cases hWait
      · rw [SendQueue.signaledIds_post, hReads]
        rfl
  | fetchAndAdd signaled | fetchAndAddValue signaled | compareAndSwap signaled =>
      obtain rfl := Option.some.inj hRun
      exact matched_posting h hAlone (hSignaled signaled hAlone) (hRoom (by simp)) _ _
  | sendBatch messages signaled => cases hOwn
  | pollSend =>
      rw [Call.run, SendPath.pollSend] at hRun
      split at hRun
      · cases hRun
      · case h_2 read reads hPending =>
        obtain rfl := Option.some.inj hRun
        exact ⟨h.numbered, hReads.trans hPending, h.depth, fun _ _ hPosting => by cases hPosting⟩

/-- The signaled request of the call is the only one that can complete. -/
theorem ibvPostSend_matched (hNext : ibvPostSend c = some next) : Matched maxWR next := by
  obtain ⟨flags, wait, hControl, rfl⟩ := ibvPostSend_eq_some hNext
  have hExpected := h.expected
  have hLess := h.posting flags wait hControl
  rw [hControl] at hExpected
  obtain ⟨flag, rfl, hAlone, hSignaled⟩ := hExpected
  refine ⟨h.numbered.post flag, ?_, ?_, ?_⟩
  · cases wait with
    | true => exact ⟨hAlone rfl, hSignaled⟩
    | false => exact hSignaled
  · show (c.queue.post flag).depth ≤ maxWR
    rw [SendQueue.depth, SendQueue.outstanding_post, List.length_append]
    exact hLess
  · intro posted waiting hPosting
    cases wait with
    | true => cases hPosting
    | false => cases hPosting

theorem ibvPollCq_matched (hNext : ibvPollCq c = some next) : Matched maxWR next := by
  obtain ⟨control, hResume, rfl⟩ := Option.map_eq_some_iff.mp hNext
  split
  · exact h
  · case h_2 wr q hPoll =>
    have hExpected := h.expected
    have hTaken := SendQueue.signaledIds_poll hPoll
    have hDepth := Nat.le_trans (Nat.le_of_lt (SendQueue.depth_poll hPoll)) h.depth
    cases hControl : c.control with
    | idle | posting flags wait => simp [hControl, Control.resume] at hResume
    | pollingBatch flags => simp [hControl, Expected] at hExpected
    | polling own =>
        rw [hControl] at hResume hExpected
        obtain rfl := Option.some.inj hResume
        obtain ⟨hNone, hOwn⟩ := hExpected
        rw [hTaken] at hOwn
        refine ⟨h.numbered.poll hPoll, ?_, hDepth, fun _ _ hPosting => by cases hPosting⟩
        show q.signaledIds = c.reads
        rw [hNone]
        exact (List.cons.inj hOwn).2
    | pollingSend read =>
        rw [hControl] at hResume hExpected
        obtain rfl := Option.some.inj hResume
        rw [Expected, hTaken] at hExpected
        exact ⟨h.numbered.poll hPoll, (List.cons.inj hExpected).2, hDepth,
          fun _ _ hPosting => by cases hPosting⟩

/-- The hardware may perform the requests whenever it wants. -/
theorem complete_matched {q : SendQueue} (hComplete : c.queue.complete = some q) :
    Matched maxWR { c with queue := q } := by
  have hDepth : q.depth = c.queue.depth := by
    rw [SendQueue.depth, SendQueue.outstanding_complete hComplete, SendQueue.depth]
  have hPosted := SendQueue.posted_complete hComplete
  have hSignaled := SendQueue.signaledIds_complete hComplete
  have hExpected := h.expected
  refine ⟨h.numbered.complete hComplete, ?_, ?_, ?_⟩
  · show Expected q c.reads c.control
    cases hControl : c.control with
    | posting flags wait =>
        rw [hControl] at hExpected
        obtain ⟨flag, hFlags, hAlone, hOwn⟩ := hExpected
        rw [SendQueue.signaledIds_post, ← hSignaled, ← hPosted,
          ← SendQueue.signaledIds_post] at hOwn
        exact ⟨flag, hFlags, hAlone, hOwn⟩
    | pollingBatch flags =>
        rw [hControl] at hExpected
        exact hExpected
    | idle | polling own | pollingSend read =>
        rw [hControl] at hExpected
        rw [Expected] at hExpected ⊢
        rwa [hSignaled]
  · rw [hDepth]
    exact h.depth
  · rw [hDepth]
    exact h.posting

end Steps

/-- Every step of considerate calls keeps completions and calls matched. -/
theorem next_matched {maxWR : Nat} {c next : Connection} (hAccounted : Accounted maxWR c)
    (h : Matched maxWR c) {a : Action}
    (hNext : (connectionMachine maxWR Call.waitsForOwn).next c a = some next)
    (hConsiderate : CallsConsiderately maxWR (c, a)) : Matched maxWR next := by
  cases a with
  | call call =>
      obtain ⟨hIdle, hOwn, _, started, hRun, rfl⟩ := next_call_eq_some hNext
      exact call_matched h hAccounted hIdle hOwn hRun hConsiderate
  | ibvPostSend => exact ibvPostSend_matched h hNext
  | ibvPollCq => exact ibvPollCq_matched h hNext
  | complete =>
      obtain ⟨q, hComplete, rfl⟩ := Option.map_eq_some_iff.mp hNext
      exact complete_matched h hComplete

/-- They match in every run of considerate calls. -/
theorem run_matched {maxWR : Nat} {visits : List (Connection × Action)} {c : Connection}
    (run : (connectionMachine maxWR Call.waitsForOwn).RunsTo visits c)
    (hConsiderate : ∀ visit ∈ visits, CallsConsiderately maxWR visit) : Matched maxWR c := by
  induction run with
  | zero => exact matched_init maxWR
  | @succ visits now next a prior last ih =>
      have hNow := ih fun visit hVisit => hConsiderate visit (List.mem_append_left _ hVisit)
      exact next_matched (run_accounted prior) hNow last (hConsiderate (now, a) (by simp))

/-- A call that returns has had its own request performed. -/
theorem returns_executed {maxWR : Nat} {visit : Connection × Action}
    (h : Matched maxWR visit.1) : ReturnsExecuted visit := by
  intro _ id hWaiting wr q hPoll
  have hExpected := h.expected
  have hTaken := SendQueue.signaledIds_poll hPoll
  have hExecuted := h.numbered.executed hPoll
  rcases hWaiting with hControl | hControl
  · rw [hControl] at hExpected
    rw [hExpected.2] at hTaken
    rwa [(List.cons.inj hTaken).1]
  · rw [hControl, Expected, hTaken] at hExpected
    rwa [← (List.cons.inj hExpected).1]

/-- In a run of considerate calls every waiting call returns after its own
request, every `pollSend` after its read, and the queue never overflows. -/
theorem waits_for_own {maxWR : Nat} {visits : List (Connection × Action)} {c : Connection}
    (run : (connectionMachine maxWR Call.waitsForOwn).RunsTo visits c)
    (hConsiderate : ∀ visit ∈ visits, CallsConsiderately maxWR visit) :
    (∀ visit ∈ visits, ReturnsExecuted visit ∧ visit.1.queue.depth ≤ maxWR) ∧
      c.queue.depth ≤ maxWR := by
  constructor
  · intro visit hVisit
    obtain ⟨before, after, hSplit, hPrefix⟩ := run.visit_split hVisit
    have hMatched := run_matched hPrefix fun other hOther =>
      hConsiderate other (by rw [hSplit]; exact List.mem_append_left _ hOther)
    exact ⟨returns_executed hMatched, hMatched.depth⟩
  · exact (run_matched run hConsiderate).depth

/-- A requested read is polled for before the next write waits. -/
def readThenWriteActions : List Action :=
  [.call .requestRead, .ibvPostSend, .call .pollSend, .complete, .ibvPollCq,
    .call (.write true), .ibvPostSend, .complete, .ibvPollCq]

/-- A read and then a write, each waiting for its completion, in a queue of depth one. -/
theorem waits_for_own_readThenWrite :
    ∃ visits c, (connectionMachine 1 Call.waitsForOwn).RunsTo visits c ∧ c.control = .idle ∧
      c.queue.posted = 2 ∧
      (∀ visit ∈ visits, ReturnsExecuted visit ∧ visit.1.queue.depth ≤ 1) := by
  obtain ⟨c, hReplay, hIdle, hPosted⟩ : ∃ c, (connectionMachine 1 Call.waitsForOwn).replay {}
      readThenWriteActions = some c ∧ c.control = .idle ∧ c.queue.posted = 2 := ⟨_, rfl, rfl, rfl⟩
  have run := Machine.runsTo_of_replay readThenWriteActions hReplay
  have hConsiderate : ∀ visit ∈
      (connectionMachine 1 Call.waitsForOwn).record {} readThenWriteActions,
      CallsConsiderately 1 visit := by decide
  exact ⟨_, c, run, hIdle, hPosted, (waits_for_own run hConsiderate).1⟩

/-- A write that waits while a requested read is unmatched. -/
def writeBehindReadActions : List Action :=
  [.call .requestRead, .ibvPostSend, .call (.write true), .ibvPostSend, .complete]

/-- The write takes the completion of the read and returns although it has not
been executed. -/
theorem returns_with_foreign_completion :
    ∃ visits c, (connectionMachine 4096 Call.waitsForOwn).RunsTo visits c ∧
      ∃ visit ∈ visits, ¬ReturnsExecuted visit := by
  obtain ⟨c, hReplay, hControl, hPending, wr, q, hPoll⟩ :
      ∃ c, (connectionMachine 4096 Call.waitsForOwn).replay {} writeBehindReadActions = some c ∧
        c.control = .polling 1 ∧ c.queue.pending = [⟨1, true⟩] ∧
        ∃ wr q, c.queue.poll = some (wr, q) := ⟨_, rfl, rfl, rfl, _, _, rfl⟩
  have run := Machine.runsTo_of_replay writeBehindReadActions hReplay
  have hNext : (connectionMachine 4096 Call.waitsForOwn).next c .ibvPollCq =
      some { c with queue := q, control := .idle } := by
    simp [connectionMachine, ibvPollCq, hControl, Control.resume, hPoll]
  refine ⟨_, _, run.succ hNext, (c, .ibvPollCq),
    List.mem_append_right _ (List.mem_singleton_self _), fun hReturns => ?_⟩
  have hExecuted := hReturns rfl 1 (Or.inl hControl) wr q hPoll
  exact hExecuted.2 ⟨1, true⟩ (by simp [hPending]) rfl

end SendPath
