import Mathlib.Logic.Function.Basic
import RDMAPatterns.Benchmark.Messages
import RDMAPatterns.Verbs.SharedReceive

/-! The receiver of the benchmark. `POLL` is its template argument; `RQ` is never
used for a receiver, and the receive queues of single connections are left out. -/
namespace BenchmarkReceiver

open Benchmark Verbs

/-- Where `benchmarkPhase` is. `conn` is the connection that the message in slot
`memIdx` came in on; in a buffer it is the slot itself. -/
inductive Control where
  | poll (pos : Nat)
  | handle (conn memIdx : Nat)
  | finalizeBuf (conn memIdx : Nat)
  | transfer (conn memIdx : Nat)
  | finalizeSRQ (conn memIdx : Nat)
  | finalizeFinished (memIdx : Nat)
  | returned (memIdx requests : Nat)
deriving DecidableEq, Repr

/-- `log` is no variable of the program: it records the finished clients and the
answered requests, with the connection of each message. -/
structure Receiver where
  reqBufferLength : Nat
  reqBuffer : Nat → MessageBase := fun _ => {}
  respBuffer : Nat → Response := fun _ => {}
  srq : SharedReceiveQueue := {}
  clientsFinished : Nat := 0
  handledRequests : Nat := 0
  control : Control := .poll 0
  log : List (Nat × MessageBase) := []

section Program

variable (POLL : RdmaPoll) (expectedClients : Nat)

def receiveBatchSRQ (rcv : Receiver) (numberReceives : Nat) : Receiver :=
  { rcv with srq := (List.range numberReceives).foldl SharedReceiveQueue.post rcv.srq }

def initReqBuffer (rcv : Receiver) : Receiver :=
  match POLL with
  | .buf => { rcv with reqBuffer := fun i =>
      if i < rcv.reqBufferLength then (rcv.reqBuffer i).cleared else rcv.reqBuffer i }
  | .srq => receiveBatchSRQ rcv rcv.reqBufferLength
  | .rq => rcv

/-- The end of `initPhase`, when the last expected client has reported. All
receives posted for the reports have been used. -/
def initPhase (connectedSenderIds : List Nat) : Receiver :=
  let maxNodeID := connectedSenderIds.foldr max 0
  initReqBuffer POLL { reqBufferLength := maxNodeID + 1 }

/-- One look of `poll`: at slot `pos` of the buffer, or at the completions. -/
def poll (rcv : Receiver) (pos : Nat) : Option Receiver :=
  match POLL with
  | .buf =>
      if (rcv.reqBuffer pos).type = .empty then
        some { rcv with control := .poll (if pos + 1 < rcv.reqBufferLength then pos + 1 else 0) }
      else some { rcv with control := .handle pos pos }
  | .srq => rcv.srq.poll.map fun ((conn, memIdx), q) =>
      { rcv with srq := q, control := .handle conn memIdx }
  | .rq => some { rcv with control := .handle 0 0 }

def finalize (rcv : Receiver) (id : Nat) : Receiver :=
  match POLL with
  | .buf => { rcv with
      reqBuffer := Function.update rcv.reqBuffer id (rcv.reqBuffer id).cleared }
  | .srq => { rcv with srq := rcv.srq.post id }
  | .rq => rcv

/-- The destination, and what is posted. Whether the bytes of the slot go with it or
are read later depends on their number. -/
def transfer (rcv : Receiver) (reqId respId : Nat) : Nat × Answer :=
  let req := rcv.reqBuffer reqId
  (req.destinationNodeID, ⟨req.rdmaPtr, respId, rcv.respBuffer respId⟩)

/-- The body of the loop in `benchmarkPhase`, up to its first `finalize` or
`transfer`. -/
def handle (rcv : Receiver) (conn memIdx : Nat) : Receiver :=
  let req := rcv.reqBuffer memIdx
  match req.type with
  | .expMsg => { rcv with
      respBuffer := Function.update rcv.respBuffer req.id
        ⟨req.rdmaPtr, req.id, 1⟩
      control := match POLL with
        | .buf => .finalizeBuf conn memIdx
        | _ => .transfer conn memIdx }
  | .finishedExp =>
      { rcv with
        clientsFinished := rcv.clientsFinished + 1
        log := rcv.log ++ [(conn, req)]
        control :=
          if expectedClients = rcv.clientsFinished + 1 then .returned memIdx rcv.handledRequests
          else match POLL with
            | .buf => .finalizeFinished memIdx
            | _ => .poll 0 }
  | _ => { rcv with control := .poll 0 }

/-- The rest of the body after `transfer`. A buffer slot has been cleared
already, so the log restores the type of the request. -/
def transferred (rcv : Receiver) (conn memIdx : Nat) : Receiver :=
  let log := rcv.log ++ [(conn, (rcv.reqBuffer memIdx).asRequest)]
  match POLL with
  | .srq => { rcv with log, control := .finalizeSRQ conn memIdx }
  | _ => { rcv with log, handledRequests := rcv.handledRequests + 1, control := .poll 0 }

/-- One step of `benchmarkPhase`, and the response it sends. -/
def step (rcv : Receiver) : Option (Receiver × Option (Nat × Answer)) :=
  match rcv.control with
  | .poll pos => (poll POLL rcv pos).map fun next => (next, none)
  | .handle conn memIdx => some (handle POLL expectedClients rcv conn memIdx, none)
  | .finalizeBuf conn memIdx =>
      some ({ finalize .buf rcv memIdx with control := .transfer conn memIdx }, none)
  | .transfer conn memIdx =>
      some (transferred POLL rcv conn memIdx,
        some (transfer rcv memIdx (rcv.reqBuffer memIdx).id))
  | .finalizeSRQ _ memIdx =>
      some ({ finalize .srq rcv memIdx with
        handledRequests := rcv.handledRequests + 1, control := .poll 0 }, none)
  | .finalizeFinished memIdx =>
      some ({ finalize .buf rcv memIdx with control := .poll 0 }, none)
  | .returned _ _ => none

end Program

/-- What one step does from where the receiver is. -/
inductive Step (POLL : RdmaPoll) (expectedClients : Nat) (rcv : Receiver) :
    Receiver → Option (Nat × Answer) → Prop where
  | poll {pos : Nat} {found : Receiver} (hControl : rcv.control = .poll pos)
      (hPoll : poll POLL rcv pos = some found) : Step POLL expectedClients rcv found none
  | handle {conn memIdx : Nat} (hControl : rcv.control = .handle conn memIdx) :
      Step POLL expectedClients rcv (handle POLL expectedClients rcv conn memIdx) none
  | finalizeBuf {conn memIdx : Nat} (hControl : rcv.control = .finalizeBuf conn memIdx) :
      Step POLL expectedClients rcv
        { finalize .buf rcv memIdx with control := .transfer conn memIdx } none
  | transfer {conn memIdx : Nat} (hControl : rcv.control = .transfer conn memIdx) :
      Step POLL expectedClients rcv (transferred POLL rcv conn memIdx)
        (some (transfer rcv memIdx (rcv.reqBuffer memIdx).id))
  | finalizeSRQ {conn memIdx : Nat} (hControl : rcv.control = .finalizeSRQ conn memIdx) :
      Step POLL expectedClients rcv
        { finalize .srq rcv memIdx with
          handledRequests := rcv.handledRequests + 1, control := .poll 0 } none
  | finalizeFinished {memIdx : Nat} (hControl : rcv.control = .finalizeFinished memIdx) :
      Step POLL expectedClients rcv { finalize .buf rcv memIdx with control := .poll 0 } none

theorem step_cases {POLL : RdmaPoll} {expectedClients : Nat} {rcv next : Receiver}
    {out : Option (Nat × Answer)} (hNext : step POLL expectedClients rcv = some (next, out)) :
    Step POLL expectedClients rcv next out := by
  rw [step] at hNext
  split at hNext
  case h_1 pos hControl =>
    obtain ⟨found, hPoll, hPair⟩ := Option.map_eq_some_iff.mp hNext
    obtain ⟨rfl, rfl⟩ := Prod.mk.inj hPair
    exact .poll hControl hPoll
  case h_2 conn memIdx hControl =>
    obtain ⟨rfl, rfl⟩ := Prod.mk.inj (Option.some.inj hNext)
    exact .handle hControl
  case h_3 conn memIdx hControl =>
    obtain ⟨rfl, rfl⟩ := Prod.mk.inj (Option.some.inj hNext)
    exact .finalizeBuf hControl
  case h_4 conn memIdx hControl =>
    obtain ⟨rfl, rfl⟩ := Prod.mk.inj (Option.some.inj hNext)
    exact .transfer hControl
  case h_5 conn memIdx hControl =>
    obtain ⟨rfl, rfl⟩ := Prod.mk.inj (Option.some.inj hNext)
    exact .finalizeSRQ hControl
  case h_6 memIdx hControl =>
    obtain ⟨rfl, rfl⟩ := Prod.mk.inj (Option.some.inj hNext)
    exact .finalizeFinished hControl
  case h_7 => cases hNext

/-- A message is written into slot `memIdx`. -/
def writeArrives (rcv : Receiver) (memIdx : Nat) (m : MessageBase) : Receiver :=
  { rcv with reqBuffer := Function.update rcv.reqBuffer memIdx m }

/-- A message takes the posted receive `memIdx` and is placed in its slot. -/
def sendArrives (rcv : Receiver) (conn memIdx : Nat) (m : MessageBase) : Option Receiver :=
  (rcv.srq.arrive conn memIdx).map fun q => { writeArrives rcv memIdx m with srq := q }

end BenchmarkReceiver
