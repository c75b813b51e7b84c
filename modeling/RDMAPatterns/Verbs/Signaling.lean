import Mathlib.Logic.Function.Basic
import RDMAPatterns.Transition.Runs
import RDMAPatterns.Verbs.SendQueue

/-! Selective signaling. Every send-side call counts the requests that leave
no completion behind, and makes each `RDMA_MAX_WR`-th of them a signaled one
whose completion it waits for. Calls run one at a time; the hardware executes
posted requests in between. -/
namespace SelectiveSignaling

open Transition Verbs

/-- The class of the object that the calls are made on. -/
inductive Transport where
  | reliableRDMA
  | unreliableRDMA
deriving DecidableEq, Repr

/-- `m_qps[rdmaConnID]` of a `ReliableRDMA`; `m_udqp` and the multicast groups'
queue pairs of an `UnreliableRDMA`. -/
inductive QueuePair where
  | qps (rdmaConnID : Nat)
  | udqp
  | mcast (rdmaConnID : Nat)
deriving DecidableEq, Repr

def QueuePair.transport : QueuePair → Transport
  | .qps _ => .reliableRDMA
  | .udqp => .unreliableRDMA
  | .mcast _ => .unreliableRDMA

/-- Between calls, in front of `ibv_post_send`, or in the loop around
`ibv_poll_cq`. `own` is the request that the call posted itself. -/
inductive Control where
  | idle
  | posting (qp : QueuePair) (signaled wait : Bool)
  | polling (qp : QueuePair) (own : WorkRequest)
deriving DecidableEq, Repr

structure Sender where
  countWR : Nat → Nat := fun _ => 0
  sendMCastCount : Nat → Nat := fun _ => 0
  queue : QueuePair → SendQueue := fun _ => {}
  control : Control := .idle

section Calls

variable (maxWR : Nat)

/-- The counting rule, on one counter. Returns the new counter and whether the
request is posted signaled. -/
def countRequest (counter : Nat) (signaled : Bool) : Nat × Bool :=
  if signaled then (0, true)
  else if counter + 1 = maxWR then (0, true)
  else (counter + 1, false)

/-- `BaseRDMA::checkSignaled`. -/
def checkSignaled (s : Sender) (signaled : Bool) (rdmaConnID : Nat) : Bool × Sender :=
  let (counter, signaled) := countRequest maxWR (s.countWR rdmaConnID) signaled
  (signaled, { s with countWR := Function.update s.countWR rdmaConnID counter })

/-- `UnreliableRDMA::checkSignaledMCast`. -/
def checkSignaledMCast (s : Sender) (signaled : Bool) (rdmaConnID : Nat) : Bool × Sender :=
  let (counter, signaled) := countRequest maxWR (s.sendMCastCount rdmaConnID) signaled
  (signaled, { s with sendMCastCount := Function.update s.sendMCastCount rdmaConnID counter })

/-- `ReliableRDMA::remoteAccess`, up to the post. -/
def remoteAccess (s : Sender) (rdmaConnID : Nat) (signaled wait : Bool) : Sender :=
  let (signaled, s) := checkSignaled maxWR s signaled rdmaConnID
  { s with control := .posting (.qps rdmaConnID) signaled wait }

/-- `write`, `writeImm` and `read` of `ReliableRDMA`. -/
def write (s : Sender) (rdmaConnID : Nat) (signaled : Bool) : Sender :=
  remoteAccess maxWR s rdmaConnID signaled true

def writeImm (s : Sender) (rdmaConnID : Nat) (signaled : Bool) : Sender :=
  remoteAccess maxWR s rdmaConnID signaled true

def read (s : Sender) (rdmaConnID : Nat) (signaled : Bool) : Sender :=
  remoteAccess maxWR s rdmaConnID signaled true

/-- `ReliableRDMA::send`, up to the post. -/
def sendReliable (s : Sender) (rdmaConnID : Nat) (signaled : Bool) : Sender :=
  let (signaled, s) := checkSignaled maxWR s signaled rdmaConnID
  { s with control := .posting (.qps rdmaConnID) signaled true }

/-- `UnreliableRDMA::send`, up to the post. The connection only addresses the
message; the queue pair and the counter are shared. -/
def sendUnreliable (s : Sender) (_rdmaConnID : Nat) (signaled : Bool) : Sender :=
  let (signaled, s) := checkSignaled maxWR s signaled 0
  { s with control := .posting .udqp signaled true }

/-- `UnreliableRDMA::sendMCast`, up to the post. -/
def sendMCast (s : Sender) (rdmaConnID : Nat) (signaled : Bool) : Sender :=
  let (signaled, s) := checkSignaledMCast maxWR s signaled rdmaConnID
  { s with control := .posting (.mcast rdmaConnID) signaled true }

inductive Verb where
  | sendReliable
  | write
  | writeImm
  | read
  | sendUnreliable
  | sendMCast
deriving DecidableEq, Repr

def Verb.transport : Verb → Transport
  | .sendReliable | .write | .writeImm | .read => .reliableRDMA
  | .sendUnreliable | .sendMCast => .unreliableRDMA

def Verb.call : Verb → Sender → Nat → Bool → Sender
  | .sendReliable => SelectiveSignaling.sendReliable maxWR
  | .write => SelectiveSignaling.write maxWR
  | .writeImm => SelectiveSignaling.writeImm maxWR
  | .read => SelectiveSignaling.read maxWR
  | .sendUnreliable => SelectiveSignaling.sendUnreliable maxWR
  | .sendMCast => SelectiveSignaling.sendMCast maxWR

end Calls

/-- `ibv_post_send`. A call that asked for a completion and waits goes on to
poll, any other one returns. -/
def ibvPostSend (s : Sender) : Option Sender :=
  match s.control with
  | .posting qp signaled wait =>
      some { s with
        queue := Function.update s.queue qp ((s.queue qp).post signaled)
        control := if signaled && wait then .polling qp ((s.queue qp).request signaled) else .idle }
  | _ => none

/-- One round of the loop around `ibv_poll_cq`: it ends with the first
completion found. -/
def ibvPollCq (s : Sender) : Option Sender :=
  match s.control with
  | .polling qp _ =>
      match (s.queue qp).poll with
      | none => some s
      | some (_, q) => some { s with queue := Function.update s.queue qp q, control := .idle }
  | _ => none

inductive Action where
  | call (verb : Verb) (rdmaConnID : Nat) (signaled : Bool)
  | ibvPostSend
  | ibvPollCq
  | complete (qp : QueuePair)
deriving DecidableEq, Repr

/-- One object of the given class, and its hardware. -/
def senderMachine (transport : Transport) (maxWR : Nat) : Machine Sender Action where
  init := {}
  next s
    | .call verb rdmaConnID signaled =>
        if s.control = .idle ∧ verb.transport = transport then
          some (verb.call maxWR s rdmaConnID signaled)
        else none
    | .ibvPostSend => ibvPostSend s
    | .ibvPollCq => ibvPollCq s
    | .complete qp => (s.queue qp).complete.map fun q =>
        { s with queue := Function.update s.queue qp q }

/-- The counter that stands for a queue pair. -/
def Sender.counter (s : Sender) : QueuePair → Nat
  | .qps rdmaConnID => s.countWR rdmaConnID
  | .udqp => s.countWR 0
  | .mcast rdmaConnID => s.sendMCastCount rdmaConnID

/-- What every call does before it posts: it counts on the counter of the
queue pair it is going to post on, and touches no other of its class. -/
theorem call_spec (maxWR : Nat) (verb : Verb) (s : Sender) (rdmaConnID : Nat) (signaled : Bool) :
    ∃ qp, qp.transport = verb.transport ∧
      (verb.call maxWR s rdmaConnID signaled).control =
        .posting qp (countRequest maxWR (s.counter qp) signaled).2 true ∧
      (verb.call maxWR s rdmaConnID signaled).queue = s.queue ∧
      (verb.call maxWR s rdmaConnID signaled).counter qp =
        (countRequest maxWR (s.counter qp) signaled).1 ∧
      ∀ other, other ≠ qp → other.transport = verb.transport →
        (verb.call maxWR s rdmaConnID signaled).counter other = s.counter other := by
  cases verb with
  | sendReliable | write | writeImm | read =>
      refine ⟨.qps rdmaConnID, rfl, rfl, rfl, ?_, ?_⟩
      · exact Function.update_self _ _ _
      · intro other hOther hTransport
        cases other with
        | qps conn =>
            have hConn : conn ≠ rdmaConnID := fun hEq => hOther (by rw [hEq])
            exact Function.update_of_ne hConn _ _
        | udqp => cases hTransport
        | mcast conn => cases hTransport
  | sendUnreliable =>
      refine ⟨.udqp, rfl, rfl, rfl, ?_, ?_⟩
      · exact Function.update_self (0 : Nat) _ s.countWR
      · intro other hOther hTransport
        cases other with
        | qps conn => cases hTransport
        | udqp => exact absurd rfl hOther
        | mcast conn => rfl
  | sendMCast =>
      refine ⟨.mcast rdmaConnID, rfl, rfl, rfl, ?_, ?_⟩
      · exact Function.update_self _ _ _
      · intro other hOther hTransport
        cases other with
        | qps conn => cases hTransport
        | udqp => rfl
        | mcast conn =>
            have hConn : conn ≠ rdmaConnID := fun hEq => hOther (by rw [hEq])
            exact Function.update_of_ne hConn _ _

/-- A queue pair nobody is posting on or waiting for: no completion can come,
and the counter bounds what is outstanding. -/
def Settled (s : Sender) (qp : QueuePair) : Prop :=
  (s.queue qp).Quiet ∧ (s.queue qp).depth ≤ s.counter qp

/-- All queue pairs of the class are settled, except that the one of a call in
progress may be about to get, or have, its one signaled request. -/
structure Disciplined (transport : Transport) (maxWR : Nat) (s : Sender) : Prop where
  below : ∀ qp, qp.transport = transport → s.counter qp < maxWR
  idle : s.control = .idle → ∀ qp, qp.transport = transport → Settled s qp
  posting : ∀ qp signaled wait, s.control = .posting qp signaled wait →
    wait = true ∧ qp.transport = transport ∧
      (∀ other, other ≠ qp → other.transport = transport → Settled s other) ∧
      (s.queue qp).Quiet ∧ (s.queue qp).depth < maxWR ∧
      (signaled = false → (s.queue qp).depth + 1 ≤ s.counter qp)
  polling : ∀ qp own, s.control = .polling qp own →
    qp.transport = transport ∧
      (∀ other, other ≠ qp → other.transport = transport → Settled s other) ∧
      (s.queue qp).Awaits own

theorem disciplined_init (transport : Transport) {maxWR : Nat} (hMax : 1 ≤ maxWR) :
    Disciplined transport maxWR {} where
  below qp _ := by cases qp <;> exact hMax
  idle _ qp _ := ⟨SendQueue.quiet_empty, Nat.zero_le _⟩
  posting _ _ _ hControl := by cases hControl
  polling _ _ hControl := by cases hControl

/-- The counter stays below the limit, and a request that is posted unsignaled
is counted. -/
theorem countRequest_spec {maxWR counter : Nat} (hBelow : counter < maxWR) (signaled : Bool) :
    (countRequest maxWR counter signaled).1 < maxWR ∧
      ((countRequest maxWR counter signaled).2 = false →
        (countRequest maxWR counter signaled).1 = counter + 1) := by
  unfold countRequest
  split
  · exact ⟨by omega, by simp⟩
  · split
    · exact ⟨by omega, by simp⟩
    · exact ⟨by omega, by simp⟩

section Steps

variable {transport : Transport} {maxWR : Nat} {s t : Sender}
  (h : Disciplined transport maxWR s)

include h

/-- A call begins with a counter below the limit. -/
theorem call_disciplined (hIdle : s.control = .idle) {verb : Verb}
    (hVerb : verb.transport = transport) (rdmaConnID : Nat) (signaled : Bool) :
    Disciplined transport maxWR (verb.call maxWR s rdmaConnID signaled) := by
  obtain ⟨qp, hQp, hControl, hQueue, hCounter, hOthers⟩ :=
    call_spec maxWR verb s rdmaConnID signaled
  rw [hVerb] at hQp hOthers
  obtain ⟨hQuiet, hDepth⟩ := h.idle hIdle qp hQp
  obtain ⟨hBelow, hCounted⟩ := countRequest_spec (h.below qp hQp) signaled
  constructor
  · intro other hOther
    by_cases hSame : other = qp
    · rw [hSame, hCounter]
      exact hBelow
    · rw [hOthers other hSame hOther]
      exact h.below other hOther
  · intro hNotIdle
    rw [hControl] at hNotIdle
    cases hNotIdle
  · intro posted flag wait hPosting
    rw [hControl] at hPosting
    obtain ⟨rfl, rfl, rfl⟩ := Control.posting.inj hPosting
    refine ⟨rfl, hQp, ?_, ?_, ?_, ?_⟩
    · intro other hNe hOther
      rw [Settled, hQueue, hOthers other hNe hOther]
      exact h.idle hIdle other hOther
    · rwa [hQueue]
    · rw [hQueue]
      exact Nat.lt_of_le_of_lt hDepth (h.below qp hQp)
    · intro hUnsignaled
      rw [hQueue, hCounter, hCounted hUnsignaled]
      exact Nat.succ_le_succ hDepth
  · intro polled own hPolling
    rw [hControl] at hPolling
    cases hPolling

/-- Posting fills the queue by one, and the counter knows it. -/
theorem ibvPostSend_disciplined (hNext : ibvPostSend s = some t) :
    Disciplined transport maxWR t := by
  unfold ibvPostSend at hNext
  split at hNext
  case h_2 => cases hNext
  case h_1 qp signaled wait hControl =>
    obtain rfl := Option.some.inj hNext
    obtain ⟨rfl, hQp, hOthers, hQuiet, hDepth, hCounted⟩ := h.posting qp signaled wait hControl
    have hOtherQueues : ∀ other, other ≠ qp → other.transport = transport →
        (Function.update s.queue qp ((s.queue qp).post signaled) other).Quiet ∧
          (Function.update s.queue qp ((s.queue qp).post signaled) other).depth ≤
            s.counter other := by
      intro other hNe hOther
      rw [Function.update_of_ne hNe]
      exact hOthers other hNe hOther
    cases signaled with
    | true =>
        constructor
        · exact h.below
        · intro hIdle
          cases hIdle
        · intro posted flag wait hPosting
          cases hPosting
        · intro polled own hPolling
          obtain ⟨rfl, rfl⟩ := Control.polling.inj hPolling
          refine ⟨hQp, hOtherQueues, ?_⟩
          show (Function.update s.queue qp _ qp).Awaits _
          rw [Function.update_self]
          exact hQuiet.awaits
    | false =>
        constructor
        · exact h.below
        · intro _ other hOther
          by_cases hSame : other = qp
          · rw [hSame]
            show (Function.update s.queue qp _ qp).Quiet ∧
              (Function.update s.queue qp _ qp).depth ≤ s.counter qp
            rw [Function.update_self]
            have hRoom := hCounted rfl
            exact ⟨hQuiet.post, by simpa [SendQueue.depth] using hRoom⟩
          · exact hOtherQueues other hSame hOther
        · intro posted flag wait hPosting
          cases hPosting
        · intro polled own hPolling
          cases hPolling

/-- The completion of a signaled request empties the queue. -/
theorem ibvPollCq_disciplined (hNext : ibvPollCq s = some t) :
    Disciplined transport maxWR t := by
  unfold ibvPollCq at hNext
  split at hNext
  case h_2 => cases hNext
  case h_1 qp own hControl =>
    split at hNext
    · obtain rfl := Option.some.inj hNext
      exact h
    · case h_2 wr q hPoll =>
      obtain rfl := Option.some.inj hNext
      obtain ⟨_, hOthers, hAwaits⟩ := h.polling qp own hControl
      obtain ⟨_, hEmpty⟩ := hAwaits.poll hPoll
      constructor
      · exact h.below
      · intro _ other hOther
        show (Function.update s.queue qp q other).Quiet ∧
          (Function.update s.queue qp q other).depth ≤ s.counter other
        by_cases hSame : other = qp
        · rw [hSame, Function.update_self, SendQueue.Quiet, SendQueue.depth, hEmpty]
          simp
        · rw [Function.update_of_ne hSame]
          exact hOthers other hSame hOther
      · intro posted flag wait hPosting
        cases hPosting
      · intro polled own hPolling
        cases hPolling

/-- Executing a request reclaims nothing, so it changes nothing that counts. -/
theorem complete_disciplined {qp : QueuePair} {q : SendQueue}
    (hComplete : (s.queue qp).complete = some q) :
    Disciplined transport maxWR { s with queue := Function.update s.queue qp q } := by
  have hOutstanding : ∀ other,
      (Function.update s.queue qp q other).outstanding = (s.queue other).outstanding := by
    intro other
    by_cases hSame : other = qp
    · rw [hSame, Function.update_self, SendQueue.outstanding_complete hComplete]
    · rw [Function.update_of_ne hSame]
  have hSettled : ∀ other, Settled s other →
      Settled { s with queue := Function.update s.queue qp q } other := by
    intro other hOther
    rw [Settled, SendQueue.Quiet, SendQueue.depth] at hOther ⊢
    rw [hOutstanding other]
    exact hOther
  constructor
  · exact h.below
  · exact fun hIdle other hOther => hSettled other (h.idle hIdle other hOther)
  · intro posted signaled wait hPosting
    obtain ⟨hWait, hQp, hOthers, hQuiet, hDepth, hCounted⟩ := h.posting posted signaled wait hPosting
    refine ⟨hWait, hQp, fun other hNe hOther => hSettled other (hOthers other hNe hOther), ?_⟩
    rw [SendQueue.Quiet, SendQueue.depth] at *
    rw [hOutstanding posted]
    exact ⟨hQuiet, hDepth, hCounted⟩
  · intro polled own hPolling
    obtain ⟨hQp, hOthers, hAwaits⟩ := h.polling polled own hPolling
    refine ⟨hQp, fun other hNe hOther => hSettled other (hOthers other hNe hOther), ?_⟩
    rw [SendQueue.Awaits] at *
    rw [hOutstanding polled]
    exact hAwaits

/-- Every step keeps queues and counters in agreement. -/
theorem next_disciplined {a : Action} (hNext : (senderMachine transport maxWR).next s a = some t) :
    Disciplined transport maxWR t := by
  cases a with
  | call verb rdmaConnID signaled =>
      simp only [senderMachine, Option.ite_none_right_eq_some, Option.some.injEq] at hNext
      obtain ⟨⟨hIdle, hVerb⟩, rfl⟩ := hNext
      exact call_disciplined h hIdle hVerb rdmaConnID signaled
  | ibvPostSend => exact ibvPostSend_disciplined h hNext
  | ibvPollCq => exact ibvPollCq_disciplined h hNext
  | complete qp =>
      obtain ⟨q, hComplete, rfl⟩ := Option.map_eq_some_iff.mp hNext
      exact complete_disciplined h hComplete

end Steps

theorem run_disciplined {transport : Transport} {maxWR : Nat} (hMax : 1 ≤ maxWR)
    {visits : List (Sender × Action)} {s : Sender}
    (run : (senderMachine transport maxWR).RunsTo visits s) : Disciplined transport maxWR s :=
  run.invariant (disciplined_init transport hMax) fun _ _ _ hInv hNext => next_disciplined hInv hNext

/-- If the recorded step is a post, its queue pair has room for a request. -/
def PostHasRoom (maxWR : Nat) (visit : Sender × Action) : Prop :=
  visit.2 = .ibvPostSend → ∀ qp signaled wait, visit.1.control = .posting qp signaled wait →
    (visit.1.queue qp).depth < maxWR

/-- If the recorded step finds a completion, it is the one of the request that
the waiting call posted itself. -/
def PollFindsOwn (visit : Sender × Action) : Prop :=
  visit.2 = .ibvPollCq → ∀ qp own wr q, visit.1.control = .polling qp own →
    (visit.1.queue qp).poll = some (wr, q) → wr = own

/-- Whatever calls are made on whatever connections: no post meets a full send
queue, a waiting call takes the completion of its own request, and between
calls no completion is left over. -/
theorem sendQueues_never_overrun (transport : Transport) {maxWR : Nat} (hMax : 1 ≤ maxWR)
    {visits : List (Sender × Action)} {s : Sender}
    (run : (senderMachine transport maxWR).RunsTo visits s) :
    (∀ visit ∈ visits, PostHasRoom maxWR visit ∧ PollFindsOwn visit) ∧
      (s.control = .idle → ∀ qp, qp.transport = transport → (s.queue qp).completions = []) := by
  constructor
  · intro visit hVisit
    obtain ⟨before, after, _, hPrefix⟩ := run.visit_split hVisit
    have hInv := run_disciplined hMax hPrefix
    constructor
    · intro _ qp signaled wait hControl
      obtain ⟨_, _, _, _, hDepth, _⟩ := hInv.posting qp signaled wait hControl
      exact hDepth
    · intro _ qp own wr q hControl hPoll
      obtain ⟨_, _, hAwaits⟩ := hInv.polling qp own hControl
      exact (hAwaits.poll hPoll).1
  · intro hIdle qp hQp
    exact ((run_disciplined hMax run).idle hIdle qp hQp).1.completions_eq

/-- Two writes at depth two: the second one is signaled automatically. -/
def autoSignaledActions : List Action :=
  [.call .write 3 false, .ibvPostSend, .call .write 3 false, .ibvPostSend, .complete (.qps 3),
    .complete (.qps 3), .ibvPollCq]

/-- Two writes in a queue of depth two, the second of which is signaled. -/
theorem sendQueues_never_overrun_two :
    ∃ s, (senderMachine .reliableRDMA 2).Reachable s ∧ s.control = .idle ∧
      (s.queue (.qps 3)).posted = 2 ∧ (s.queue (.qps 3)).completions = [] := by
  have hReplay : ∃ s, (senderMachine .reliableRDMA 2).replay {} autoSignaledActions = some s ∧
      s.control = .idle ∧ (s.queue (.qps 3)).posted = 2 := ⟨_, rfl, rfl, rfl⟩
  obtain ⟨s, hReplay, hIdle, hPosted⟩ := hReplay
  have run := Machine.runsTo_of_replay autoSignaledActions hReplay
  exact ⟨s, ⟨_, run⟩, hIdle, hPosted,
    (sendQueues_never_overrun .reliableRDMA (by decide) run).2 hIdle (.qps 3) rfl⟩

end SelectiveSignaling
