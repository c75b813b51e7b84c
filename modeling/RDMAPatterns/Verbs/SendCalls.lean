import Mathlib.Algebra.GroupWithZero.Nat
import RDMAPatterns.Transition.Runs
import RDMAPatterns.Verbs.Signaling
import RDMAPatterns.Verbs.Unreclaimed

/-! All the send-side calls that can be made on one connection of a
`ReliableRDMA`. They share its send queue, but only some of them count their
requests with `checkSignaled`, and `sendBatch` leaves its completion to the
next batch. -/
namespace SendPath

open Transition Verbs
open SelectiveSignaling (countRequest)

/-- `MAX_POSTLIST`. -/
def maxPostlist : Nat := 128

inductive Call where
  | write (signaled : Bool)
  | writeImm (signaled : Bool)
  | read (signaled : Bool)
  | requestRead
  | send (signaled : Bool)
  | sendBatch (messages : Nat) (signaled : Bool)
  | fetchAndAdd (signaled : Bool)
  | fetchAndAddValue (signaled : Bool)
  | compareAndSwap (signaled : Bool)
  | pollSend
deriving DecidableEq, Repr

/-- Between calls, in front of `ibv_post_send`, or in a loop around
`ibv_poll_cq`: behind the own post, in front of the post of a batch, or for a
read requested earlier. -/
inductive Control where
  | idle
  | posting (flags : List Bool) (wait : Bool)
  | polling (own : Nat)
  | pollingBatch (flags : List Bool)
  | pollingSend (read : Nat)
deriving DecidableEq, Repr

/-- Where a call goes on when its loop has found a completion. -/
def Control.resume : Control → Option Control
  | .polling _ | .pollingSend _ => some .idle
  | .pollingBatch flags => some (.posting flags false)
  | _ => none

/-- `m_countWR`, `batches` and the queue pair of one connection. `calls`
records the calls made, `reads` the requested reads that no `pollSend` has
been made for yet. -/
structure Connection where
  countWR : Nat := 0
  batches : Nat := 0
  queue : SendQueue := {}
  control : Control := .idle
  calls : List Call := []
  reads : List Nat := []
deriving DecidableEq, Repr

section Calls

variable (maxWR : Nat) (c : Connection)

/-- `BaseRDMA::checkSignaled`. -/
def checkSignaled (signaled : Bool) : Bool × Connection :=
  let (counter, signaled) := countRequest maxWR c.countWR signaled
  (signaled, { c with countWR := counter })

/-- `ReliableRDMA::remoteAccess`, up to the post. -/
def remoteAccess (signaled wait : Bool) : Connection :=
  let (signaled, c) := checkSignaled maxWR c signaled
  { c with control := .posting [signaled] (signaled && wait) }

def write (signaled : Bool) : Connection := remoteAccess maxWR c signaled true

def writeImm (signaled : Bool) : Connection := remoteAccess maxWR c signaled true

def read (signaled : Bool) : Connection := remoteAccess maxWR c signaled true

def requestRead : Connection :=
  { remoteAccess maxWR c true false with reads := c.reads ++ [c.queue.posted] }

/-- `ReliableRDMA::send`, up to the post. -/
def send (signaled : Bool) : Connection :=
  let (signaled, c) := checkSignaled maxWR c signaled
  { c with control := .posting [signaled] signaled }

/-- What the atomic verbs do up to the post. None of them calls
`checkSignaled`. -/
def atomic (signaled : Bool) : Connection :=
  { c with control := .posting [signaled] signaled }

def fetchAndAdd (signaled : Bool) : Connection := atomic c signaled

/-- `ReliableRDMA::fetchAndAdd` with a `value_to_add`. -/
def fetchAndAddValue (signaled : Bool) : Connection := atomic c signaled

def compareAndSwap (signaled : Bool) : Connection := atomic c signaled

/-- The `send_flags` of a batch: its last message is signaled. -/
def batchFlags (messages : Nat) : List Bool := List.replicate (messages - 1) false ++ [true]

/-- `ReliableRDMA::sendBatch`, up to the post, or to the loop in front of it.
`batches` is a `size_t`, and `signaled` has no effect. -/
def sendBatch (messages : Nat) (_signaled : Bool) : Connection :=
  let batches := (c.batches + messages) % 2 ^ 64
  if c.batches ≠ 0 then
    let (_, c) := checkSignaled maxWR c true
    { c with batches := batches, control := .pollingBatch (batchFlags messages) }
  else
    { c with batches := batches, control := .posting (batchFlags messages) false }

/-- `ReliableRDMA::pollSend` with `doPoll`, made for the oldest requested read. -/
def pollSend : Option Connection :=
  match c.reads with
  | [] => none
  | read :: reads => some { c with control := .pollingSend read, reads := reads }

/-- A batch has a message, and no more than the arrays of `sendBatch` hold. -/
def Call.fits : Call → Bool
  | .sendBatch messages _ => 1 ≤ messages ∧ messages ≤ maxPostlist
  | _ => true

def Call.run : Call → Option Connection
  | .write signaled => some (SendPath.write maxWR c signaled)
  | .writeImm signaled => some (SendPath.writeImm maxWR c signaled)
  | .read signaled => some (SendPath.read maxWR c signaled)
  | .requestRead => some (SendPath.requestRead maxWR c)
  | .send signaled => some (SendPath.send maxWR c signaled)
  | .sendBatch messages signaled => some (SendPath.sendBatch maxWR c messages signaled)
  | .fetchAndAdd signaled => some (SendPath.fetchAndAdd c signaled)
  | .fetchAndAddValue signaled => some (SendPath.fetchAndAddValue c signaled)
  | .compareAndSwap signaled => some (SendPath.compareAndSwap c signaled)
  | .pollSend => SendPath.pollSend c

end Calls

/-- `ibv_post_send`. Only calls that post a single request wait for it. -/
def ibvPostSend (c : Connection) : Option Connection :=
  match c.control with
  | .posting flags wait =>
      some { c with
        queue := c.queue.postAll flags
        control := if wait then .polling c.queue.posted else .idle }
  | _ => none

/-- One round of a loop around `ibv_poll_cq`. No loop looks at which request
the completion belongs to. -/
def ibvPollCq (c : Connection) : Option Connection :=
  c.control.resume.map fun control =>
    match c.queue.poll with
    | none => c
    | some (_, q) => { c with queue := q, control := control }

inductive Action where
  | call (call : Call)
  | ibvPostSend
  | ibvPollCq
  | complete
deriving DecidableEq, Repr

/-- One connection on which only the permitted calls are made, one at a time,
and its hardware. -/
def connectionMachine (maxWR : Nat) (permitted : Call → Bool) : Machine Connection Action where
  init := {}
  next c
    | .call call =>
        if c.control = .idle ∧ permitted call = true ∧ call.fits = true then
          (call.run maxWR c).map fun started => { started with calls := c.calls ++ [call] }
        else none
    | .ibvPostSend => ibvPostSend c
    | .ibvPollCq => ibvPollCq c
    | .complete => c.queue.complete.map fun q => { c with queue := q }

theorem next_call {maxWR : Nat} {permitted : Call → Bool} {c started : Connection} {call : Call}
    (hIdle : c.control = .idle) (hPermitted : permitted call = true) (hFits : call.fits = true)
    (hRun : call.run maxWR c = some started) :
    (connectionMachine maxWR permitted).next c (.call call) =
      some { started with calls := c.calls ++ [call] } := by
  simp [connectionMachine, hIdle, hPermitted, hFits, hRun]

section Inversion

variable {maxWR : Nat} {permitted : Call → Bool} {c next : Connection}

theorem ibvPostSend_eq_some (hNext : ibvPostSend c = some next) :
    ∃ flags wait, c.control = .posting flags wait ∧ next = { c with
      queue := c.queue.postAll flags
      control := if wait then .polling c.queue.posted else .idle } := by
  rw [ibvPostSend] at hNext
  split at hNext
  · case h_1 flags wait hControl => exact ⟨flags, wait, hControl, (Option.some.inj hNext).symm⟩
  · cases hNext

theorem next_call_eq_some {call : Call}
    (hNext : (connectionMachine maxWR permitted).next c (.call call) = some next) :
    c.control = .idle ∧ permitted call = true ∧ call.fits = true ∧
      ∃ started, call.run maxWR c = some started ∧
        next = { started with calls := c.calls ++ [call] } := by
  simp only [connectionMachine, Option.ite_none_right_eq_some, Option.map_eq_some_iff] at hNext
  obtain ⟨⟨hIdle, hPermitted, hFits⟩, started, hRun, hStarted⟩ := hNext
  exact ⟨hIdle, hPermitted, hFits, started, hRun, hStarted.symm⟩

end Inversion

/-- If the recorded step is a post, the queue has room for all its requests. -/
def PostFits (maxWR : Nat) (visit : Connection × Action) : Prop :=
  visit.2 = .ibvPostSend → ∀ flags wait, visit.1.control = .posting flags wait →
    visit.1.queue.depth + flags.length ≤ maxWR

end SendPath
