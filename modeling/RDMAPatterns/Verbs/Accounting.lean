import RDMAPatterns.Verbs.SendCalls

/-! What the send queue holds on to, counted on the calls alone: whatever the
hardware does in between, each loop around `ibv_poll_cq` takes the oldest
completion that none has taken before. -/
namespace SendPath

open Transition Verbs
open SelectiveSignaling (countRequest)

/-- The flags of the requests posted so far, newest first, the requested reads
without a `pollSend`, and how many batches did not poll before they posted. -/
structure Tally where
  countWR : Nat := 0
  batches : Nat := 0
  history : List Bool := []
  reads : Nat := 0
  opened : Nat := 0

/-- Signaled requests nobody has polled for. -/
def Tally.unclaimed (t : Tally) : Nat := t.reads + t.opened

section Rules

variable (maxWR : Nat) (t : Tally)

/-- The flags that a call posts, oldest first. -/
def Tally.requests : Call → List Bool
  | .write signaled | .writeImm signaled | .read signaled | .send signaled =>
      [(countRequest maxWR t.countWR signaled).2]
  | .requestRead => [true]
  | .sendBatch messages _ => batchFlags messages
  | .fetchAndAdd signaled | .fetchAndAddValue signaled | .compareAndSwap signaled => [signaled]
  | .pollSend => []

/-- Whether a call waits behind its own post. -/
def Tally.waits : Call → Bool
  | .write signaled | .writeImm signaled | .read signaled | .send signaled =>
      (countRequest maxWR t.countWR signaled).2
  | .fetchAndAdd signaled | .fetchAndAddValue signaled | .compareAndSwap signaled => signaled
  | .requestRead | .sendBatch _ _ | .pollSend => false

/-- Whether a call takes a completion that was left to it. -/
def Tally.polls : Call → Bool
  | .sendBatch _ _ => t.batches ≠ 0
  | .pollSend => true
  | _ => false

def Tally.count : Call → Nat
  | .write signaled | .writeImm signaled | .read signaled | .send signaled =>
      (countRequest maxWR t.countWR signaled).1
  | .requestRead => 0
  | .sendBatch _ _ => if t.batches ≠ 0 then 0 else t.countWR
  | .fetchAndAdd _ | .fetchAndAddValue _ | .compareAndSwap _ | .pollSend => t.countWR

def Tally.after (call : Call) : Tally where
  countWR := t.count maxWR call
  batches :=
    match call with
    | .sendBatch messages _ => (t.batches + messages) % 2 ^ 64
    | _ => t.batches
  history := (t.requests maxWR call).reverse ++ t.history
  reads :=
    match call with
    | .requestRead => t.reads + 1
    | .pollSend => t.reads - 1
    | _ => t.reads
  opened :=
    match call with
    | .sendBatch _ _ => if t.batches ≠ 0 then t.opened else t.opened + 1
    | _ => t.opened

/-- The flags of what is outstanding when a call posts, newest first. -/
def Tally.backlog (call : Call) : List Bool :=
  sinceSignaled (t.unclaimed - (t.polls call).toNat) t.history

end Rules

def tally (maxWR : Nat) (calls : List Call) : Tally := calls.foldl (Tally.after maxWR) {}

@[simp] theorem tally_append (maxWR : Nat) (earlier : List Call) (call : Call) :
    tally maxWR (earlier ++ [call]) = (tally maxWR earlier).after maxWR call := by
  simp [tally]

/-- Everything that a call will poll for has been posted. -/
structure Tally.Sound (t : Tally) : Prop where
  enough : t.unclaimed ≤ t.history.count true
  opened : t.batches ≠ 0 → 1 ≤ t.opened

/-- The program's variables agree with the tally of its calls. -/
structure Connection.Agrees (c : Connection) (t : Tally) : Prop where
  countWR : c.countWR = t.countWR
  batches : c.batches = t.batches
  reads : c.reads.length = t.reads

/-- Where a call goes first: to its post, or to a loop that takes a completion
left to it. -/
def Tally.Starts (maxWR : Nat) (t : Tally) (call : Call) (control : Control) : Prop :=
  (t.polls call = false ∧ control = .posting (t.requests maxWR call) (t.waits maxWR call)) ∨
  (t.batches ≠ 0 ∧ 1 ≤ t.opened ∧
    ∃ messages signaled, call = .sendBatch messages signaled ∧
      control = .pollingBatch (batchFlags messages)) ∨
  (call = .pollSend ∧ 1 ≤ t.reads ∧ ∃ read, control = .pollingSend read)

/-- Of a batch exactly the last request is signaled. -/
theorem count_batchFlags (messages : Nat) : (batchFlags messages).count true = 1 := by
  simp [batchFlags, List.count_replicate]

section Calls

variable {maxWR : Nat} {c started : Connection} {t : Tally} {call : Call}

/-- What every call does before it posts or polls. -/
theorem run_spec (hAgrees : c.Agrees t) (hSound : t.Sound)
    (hRun : call.run maxWR c = some started) :
    started.Agrees (t.after maxWR call) ∧ started.queue = c.queue ∧
      t.Starts maxWR call started.control := by
  obtain ⟨hCount, hBatches, hReads⟩ := hAgrees
  cases call with
  | write signaled | writeImm signaled | read signaled | send signaled =>
      obtain rfl := Option.some.inj hRun
      refine ⟨⟨?_, hBatches, hReads⟩, rfl, Or.inl ⟨rfl, ?_⟩⟩
      · exact congrArg (fun counter => (countRequest maxWR counter signaled).1) hCount
      · simp [SendPath.write, SendPath.writeImm, SendPath.read, SendPath.send, remoteAccess,
          checkSignaled, Tally.requests, Tally.waits, hCount]
  | requestRead =>
      obtain rfl := Option.some.inj hRun
      refine ⟨⟨rfl, hBatches, ?_⟩, rfl, Or.inl ⟨rfl, rfl⟩⟩
      simpa [SendPath.requestRead, Tally.after] using hReads
  | fetchAndAdd signaled | fetchAndAddValue signaled | compareAndSwap signaled =>
      obtain rfl := Option.some.inj hRun
      exact ⟨⟨hCount, hBatches, hReads⟩, rfl, Or.inl ⟨rfl, rfl⟩⟩
  | sendBatch messages signaled =>
      obtain rfl := Option.some.inj hRun
      by_cases hFirst : t.batches = 0
      · have hFirstHere : c.batches = 0 := hBatches.trans hFirst
        refine ⟨⟨?_, ?_, ?_⟩, ?_, Or.inl ⟨?_, ?_⟩⟩
        all_goals simp [SendPath.sendBatch, hFirstHere, Tally.after, Tally.count, Tally.polls,
          Tally.requests, Tally.waits, hFirst, hCount, hReads]
      · refine ⟨⟨?_, ?_, ?_⟩, ?_, Or.inr (Or.inl ⟨hFirst, hSound.opened hFirst, ?_⟩)⟩
        case refine_5 =>
          refine ⟨messages, signaled, rfl, ?_⟩
          simp [SendPath.sendBatch, checkSignaled, hBatches, hFirst]
        all_goals simp [SendPath.sendBatch, checkSignaled, countRequest, Tally.after, Tally.count,
          hFirst, hBatches, hReads]
  | pollSend =>
      rw [Call.run, SendPath.pollSend] at hRun
      split at hRun
      · cases hRun
      · case h_2 read reads hPending =>
        obtain rfl := Option.some.inj hRun
        rw [hPending, List.length_cons] at hReads
        refine ⟨⟨hCount, hBatches, ?_⟩, rfl, Or.inr (Or.inr ⟨rfl, by omega, read, rfl⟩)⟩
        show reads.length = t.reads - 1
        omega

/-- Every signaled request that a call posts is polled for by the call itself
or left unclaimed. -/
theorem unclaimed_after {control : Control} (hStarts : t.Starts maxWR call control) :
    (t.after maxWR call).unclaimed + (t.waits maxWR call).toNat =
      t.unclaimed - (t.polls call).toNat + (t.requests maxWR call).count true := by
  rcases hStarts with ⟨hPolls, _⟩ | ⟨hLater, hOpened, _, _, rfl, _⟩ | ⟨rfl, hReads, _⟩
  · cases call with
    | write signaled | writeImm signaled | read signaled | send signaled =>
        cases hFlag : (countRequest maxWR t.countWR signaled).2 <;>
          simp [Tally.unclaimed, Tally.after, Tally.waits, Tally.polls, Tally.requests, hFlag]
    | requestRead => simp [Tally.unclaimed, Tally.after, Tally.waits, Tally.polls,
        Tally.requests, Nat.add_right_comm]
    | fetchAndAdd signaled | fetchAndAddValue signaled | compareAndSwap signaled =>
        cases signaled <;>
          simp [Tally.unclaimed, Tally.after, Tally.waits, Tally.polls, Tally.requests]
    | sendBatch messages signaled =>
        have hFirst : t.batches = 0 := by simpa [Tally.polls] using hPolls
        simp [Tally.unclaimed, Tally.after, Tally.waits, Tally.polls, Tally.requests, hFirst,
          count_batchFlags, Nat.add_assoc]
    | pollSend => cases hPolls
  · simp only [Tally.unclaimed, Tally.after, Tally.waits, Tally.polls, Tally.requests,
      count_batchFlags, if_pos hLater, decide_eq_true hLater, Bool.toNat_false, Bool.toNat_true]
    omega
  · simp only [Tally.unclaimed, Tally.after, Tally.waits, Tally.polls, Tally.requests,
      Bool.toNat_false, Bool.toNat_true, List.count_nil]
    omega

theorem Tally.Sound.after (h : t.Sound) {control : Control}
    (hStarts : t.Starts maxWR call control) : (t.after maxWR call).Sound := by
  constructor
  · have hBalance := unclaimed_after hStarts
    have hEnough := h.enough
    show (t.after maxWR call).unclaimed ≤ ((t.requests maxWR call).reverse ++ t.history).count true
    rw [List.count_append, List.count_reverse]
    omega
  · have hOpened := h.opened
    cases call with
    | sendBatch messages signaled =>
        intro _
        simp only [Tally.after]
        split
        case isTrue hLater => exact hOpened hLater
        case isFalse => exact Nat.le_add_left 1 t.opened
    | _ => exact hOpened

end Calls

/-- `call` is the last call, and everything before it is accounted for. -/
structure Underway (maxWR : Nat) (calls earlier : List Call) (call : Call) : Prop where
  last : calls = earlier ++ [call]
  sound : (tally maxWR earlier).Sound
  balance : (tally maxWR calls).unclaimed + ((tally maxWR earlier).waits maxWR call).toNat =
    (tally maxWR earlier).unclaimed - ((tally maxWR earlier).polls call).toNat +
      ((tally maxWR earlier).requests maxWR call).count true

/-- The flags of what is outstanding, seen from where the last call stands. -/
def Outstanding (maxWR : Nat) (calls : List Call) (outstanding : List Bool) : Control → Prop
  | .idle =>
      outstanding =
        (sinceSignaled (tally maxWR calls).unclaimed (tally maxWR calls).history).reverse
  | .polling _ | .pollingSend _ =>
      (tally maxWR calls).unclaimed < (tally maxWR calls).history.count true ∧
        outstanding =
          (sinceSignaled ((tally maxWR calls).unclaimed + 1) (tally maxWR calls).history).reverse
  | .posting flags wait =>
      ∃ earlier call, Underway maxWR calls earlier call ∧
        flags = (tally maxWR earlier).requests maxWR call ∧
        wait = (tally maxWR earlier).waits maxWR call ∧
        outstanding = ((tally maxWR earlier).backlog call).reverse
  | .pollingBatch flags =>
      ∃ earlier call, Underway maxWR calls earlier call ∧
        flags = (tally maxWR earlier).requests maxWR call ∧
        (tally maxWR earlier).waits maxWR call = false ∧
        (tally maxWR earlier).polls call = true ∧ 1 ≤ (tally maxWR earlier).unclaimed ∧
        outstanding =
          (sinceSignaled (tally maxWR earlier).unclaimed (tally maxWR earlier).history).reverse

/-- The variables and the send queue agree with the tally of the calls. -/
structure Accounted (maxWR : Nat) (c : Connection) : Prop where
  sound : (tally maxWR c.calls).Sound
  agrees : c.Agrees (tally maxWR c.calls)
  outstanding : Outstanding maxWR c.calls c.queue.flags c.control

theorem accounted_init (maxWR : Nat) : Accounted maxWR {} where
  sound := ⟨Nat.le_refl 0, fun hBatches => absurd rfl hBatches⟩
  agrees := ⟨rfl, rfl, rfl⟩
  outstanding := rfl

section Steps

variable {maxWR : Nat} {permitted : Call → Bool} {c next : Connection}
  (h : Accounted maxWR c)

include h

/-- A call is added to the tally before its requests are posted. -/
theorem call_accounted (hIdle : c.control = .idle) {call : Call} {started : Connection}
    (hRun : call.run maxWR c = some started) :
    Accounted maxWR { started with calls := c.calls ++ [call] } := by
  obtain ⟨hAgrees, hQueue, hStarts⟩ := run_spec h.agrees h.sound hRun
  have hSound := h.sound.after hStarts
  have hFlags := h.outstanding
  rw [hIdle] at hFlags
  have hBalance := unclaimed_after hStarts
  rw [← tally_append] at hAgrees hSound hBalance
  have hUnderway : Underway maxWR (c.calls ++ [call]) c.calls call := ⟨rfl, h.sound, hBalance⟩
  refine ⟨hSound, ⟨hAgrees.countWR, hAgrees.batches, hAgrees.reads⟩, ?_⟩
  rcases hStarts with ⟨hPolls, hControl⟩ | ⟨hLater, hOpened, messages, signaled, rfl, hControl⟩ |
    ⟨rfl, hReads, read, hControl⟩
  · show Outstanding maxWR _ started.queue.flags started.control
    rw [hQueue, hFlags, hControl]
    refine ⟨c.calls, call, hUnderway, rfl, rfl, ?_⟩
    rw [Tally.backlog, hPolls]
    rfl
  · show Outstanding maxWR _ started.queue.flags started.control
    rw [hQueue, hControl]
    exact ⟨c.calls, _, hUnderway, rfl, rfl, decide_eq_true hLater,
      Nat.le_trans hOpened (Nat.le_add_left _ _), hFlags⟩
  · show Outstanding maxWR _ started.queue.flags started.control
    rw [hQueue, hControl]
    have hEnough := h.sound.enough
    have hLeft : (tally maxWR (c.calls ++ [.pollSend])).unclaimed + 1 =
        (tally maxWR c.calls).unclaimed := by
      simp only [tally_append, Tally.after, Tally.unclaimed]
      omega
    have hHistory : (tally maxWR (c.calls ++ [.pollSend])).history =
        (tally maxWR c.calls).history := by
      rw [tally_append]
      rfl
    refine ⟨?_, ?_⟩
    · show (tally maxWR (c.calls ++ [.pollSend])).unclaimed < _
      rw [hHistory]
      omega
    · rw [hLeft, hHistory, hFlags]

/-- A posted request moves from what is to be posted to what is in the queue. -/
theorem ibvPostSend_accounted (hNext : ibvPostSend c = some next) : Accounted maxWR next := by
  obtain ⟨flags, wait, hControl, rfl⟩ := ibvPostSend_eq_some hNext
  have hOutstanding := h.outstanding
  rw [hControl] at hOutstanding
  obtain ⟨earlier, call, ⟨hCalls, hSound, hBalance⟩, rfl, rfl, hFlags⟩ := hOutstanding
  have hHistory : (tally maxWR c.calls).history =
      ((tally maxWR earlier).requests maxWR call).reverse ++ (tally maxWR earlier).history := by
    rw [hCalls, tally_append]
    rfl
  -- what the call posts becomes the newest part of the history
  have hPosted : (c.queue.postAll ((tally maxWR earlier).requests maxWR call)).flags =
      (sinceSignaled ((tally maxWR c.calls).unclaimed +
        ((tally maxWR earlier).waits maxWR call).toNat) (tally maxWR c.calls).history).reverse := by
    rw [SendQueue.flags_postAll, hFlags, hBalance, hHistory,
      ← List.count_reverse (l := (tally maxWR earlier).requests maxWR call),
      sinceSignaled_append, List.reverse_append, List.reverse_reverse, Tally.backlog]
  have hEnough := hSound.enough
  refine ⟨h.sound, ⟨h.agrees.countWR, h.agrees.batches, h.agrees.reads⟩, ?_⟩
  cases hWait : (tally maxWR earlier).waits maxWR call with
  | false =>
      rw [hWait] at hPosted
      exact hPosted
  | true =>
      rw [hWait] at hPosted hBalance
      refine ⟨?_, hPosted⟩
      show (tally maxWR c.calls).unclaimed < (tally maxWR c.calls).history.count true
      rw [hHistory, List.count_append, List.count_reverse]
      simp only [Bool.toNat_true] at hBalance
      omega

/-- A completion that is polled is taken off the tally. -/
theorem ibvPollCq_accounted (hNext : ibvPollCq c = some next) : Accounted maxWR next := by
  obtain ⟨control, hResume, rfl⟩ := Option.map_eq_some_iff.mp hNext
  split
  · exact h
  · case h_2 wr q hPoll =>
    have hOutstanding := h.outstanding
    have hTaken := SendQueue.flags_poll hPoll
    refine ⟨h.sound, ⟨h.agrees.countWR, h.agrees.batches, h.agrees.reads⟩, ?_⟩
    show Outstanding maxWR c.calls q.flags control
    rw [hTaken]
    cases hControl : c.control with
    | idle | posting flags wait => simp [hControl, Control.resume] at hResume
    | polling own | pollingSend read =>
        rw [hControl] at hResume hOutstanding
        obtain rfl := Option.some.inj hResume
        obtain ⟨hEnough, hFlags⟩ := hOutstanding
        rw [hFlags, dropThrough_sinceSignaled hEnough]
        rfl
    | pollingBatch flags =>
        rw [hControl] at hResume hOutstanding
        obtain rfl := Option.some.inj hResume
        obtain ⟨earlier, call, hUnderway, hRequests, hWaits, hPolls, hOne, hFlags⟩ := hOutstanding
        refine ⟨earlier, call, hUnderway, hRequests, hWaits.symm, ?_⟩
        have hEnough := hUnderway.sound.enough
        obtain ⟨left, hLeft⟩ := Nat.exists_eq_add_of_le' hOne
        rw [hFlags, Tally.backlog, hPolls, hLeft, dropThrough_sinceSignaled (by omega)]
        rfl

/-- The hardware changes neither the tally nor what it counts. -/
theorem complete_accounted {q : SendQueue} (hComplete : c.queue.complete = some q) :
    Accounted maxWR { c with queue := q } where
  sound := h.sound
  agrees := ⟨h.agrees.countWR, h.agrees.batches, h.agrees.reads⟩
  outstanding := by
    show Outstanding maxWR c.calls q.flags c.control
    rw [SendQueue.flags_complete hComplete]
    exact h.outstanding

theorem next_accounted {a : Action}
    (hNext : (connectionMachine maxWR permitted).next c a = some next) :
    Accounted maxWR next := by
  cases a with
  | call call =>
      obtain ⟨hIdle, _, _, started, hRun, rfl⟩ := next_call_eq_some hNext
      exact call_accounted h hIdle hRun
  | ibvPostSend => exact ibvPostSend_accounted h hNext
  | ibvPollCq => exact ibvPollCq_accounted h hNext
  | complete =>
      obtain ⟨q, hComplete, rfl⟩ := Option.map_eq_some_iff.mp hNext
      exact complete_accounted h hComplete

end Steps

section Runs

variable {maxWR : Nat} {permitted : Call → Bool} {visits : List (Connection × Action)}
  {c : Connection}

theorem run_accounted (run : (connectionMachine maxWR permitted).RunsTo visits c) :
    Accounted maxWR c :=
  run.invariant (accounted_init maxWR) fun _ _ _ hInv hNext => next_accounted hInv hNext

theorem visit_accounted (run : (connectionMachine maxWR permitted).RunsTo visits c)
    {visit : Connection × Action} (hVisit : visit ∈ visits) : Accounted maxWR visit.1 := by
  obtain ⟨before, after, _, hPrefix⟩ := run.visit_split hVisit
  exact run_accounted hPrefix

theorem run_permitted (run : (connectionMachine maxWR permitted).RunsTo visits c) :
    ∀ call ∈ c.calls, permitted call = true ∧ call.fits = true := by
  refine @Machine.RunsTo.invariant Connection Action _
    (fun now => ∀ call ∈ now.calls, permitted call = true ∧ call.fits = true) visits c run
    (fun call hCall => absurd hCall List.not_mem_nil) fun now a next hInv hNext => ?_
  cases a with
  | call call =>
      obtain ⟨_, hPermitted, hFits, started, _, rfl⟩ := next_call_eq_some hNext
      intro made hMade
      rcases List.mem_append.mp hMade with hEarlier | hLast
      · exact hInv made hEarlier
      · rw [List.mem_singleton.mp hLast]
        exact ⟨hPermitted, hFits⟩
  | ibvPostSend =>
      obtain ⟨flags, wait, _, rfl⟩ := ibvPostSend_eq_some hNext
      exact hInv
  | ibvPollCq =>
      obtain ⟨control, _, rfl⟩ := Option.map_eq_some_iff.mp hNext
      split
      · exact hInv
      · exact hInv
  | complete =>
      obtain ⟨q, _, rfl⟩ := Option.map_eq_some_iff.mp hNext
      exact hInv

/-- A post is made by the call that was made last, on top of the backlog that
the calls before it left. -/
theorem post_spec (run : (connectionMachine maxWR permitted).RunsTo visits c)
    {visit : Connection × Action} (hVisit : visit ∈ visits) (hPost : visit.2 = .ibvPostSend) :
    ∃ earlier call, visit.1.calls = earlier ++ [call] ∧
      visit.1.control = .posting ((tally maxWR earlier).requests maxWR call)
        ((tally maxWR earlier).waits maxWR call) ∧
      visit.1.queue.depth = ((tally maxWR earlier).backlog call).length := by
  obtain ⟨next, hNext⟩ := run.visit_enabled hVisit
  have hOutstanding := (visit_accounted run hVisit).outstanding
  rw [hPost] at hNext
  obtain ⟨flags, wait, hControl, _⟩ := ibvPostSend_eq_some hNext
  rw [hControl] at hOutstanding
  obtain ⟨earlier, call, hUnderway, rfl, rfl, hFlags⟩ := hOutstanding
  refine ⟨earlier, call, hUnderway.last, hControl, ?_⟩
  rw [← SendQueue.length_flags, hFlags, List.length_reverse]

end Runs

end SendPath
