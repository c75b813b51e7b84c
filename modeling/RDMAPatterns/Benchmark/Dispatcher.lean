import Mathlib.Logic.Function.Basic
import RDMAPatterns.Benchmark.Messages
import RDMAPatterns.Benchmark.Partition
import RDMAPatterns.Transition.Runs
import RDMAPatterns.Verbs.SharedReceive

/-! Worker threads that hand their requests to one dispatcher thread. They share
a request slot, a response slot and a mailbox for each worker. Every load, store
and compare-exchange on shared memory is a step of its own. -/
namespace BenchmarkDispatcher

open Benchmark Transition Verbs

/-- `recvInfo`, as the init phase fills it in. -/
structure RecvInfo where
  nodeId : Nat := 0
  msgOffset : Nat := 0
  first : Nat := 0
  last : Nat := 0
deriving DecidableEq, Repr

/-- `poll` is the template argument, `recvIds` what the init phase of each worker
collected, `respBase` the offset of `respBuffer_`. A worker that has requests divides by
the number of its receivers and by the width of their ranges, so neither is zero. -/
structure Setup where
  poll : RdmaPoll
  localSender : Nat
  requests : Nat → Nat
  rand : Nat → Nat → Nat
  recvIds : Nat → List RecvInfo
  sharedNodeId : Nat
  respBase : Nat
  sizeofResponse : Nat
  sizeofResponse_pos : 0 < sizeofResponse
  recvIds_ne_nil : ∀ worker, 0 < requests worker → recvIds worker ≠ []
  range_pos : ∀ worker, 0 < requests worker →
    ∀ info ∈ recvIds worker, 0 < sizeT (info.last - info.first)

namespace Setup

variable (x : Setup)

/-- The offset of the response slot of a worker. -/
def offsetForSharedArea (worker : Nat) : Nat := x.respBase + worker * x.sizeofResponse

/-- The response slot that an offset belongs to. -/
def slotOf (offset : Nat) : Nat := (offset - x.respBase) / x.sizeofResponse

theorem slotOf_offsetForSharedArea (worker : Nat) :
    x.slotOf (x.offsetForSharedArea worker) = worker := by
  rw [slotOf, offsetForSharedArea, Nat.add_sub_cancel_left,
    Nat.mul_div_cancel _ x.sizeofResponse_pos]

def pickedReceiverID (worker i : Nat) : RecvInfo :=
  (x.recvIds worker).getD (x.rand worker i % (x.recvIds worker).length) {}

def request (worker i : Nat) : MessageBase where
  msgId := i
  id := sizeT ((x.rand worker i %
    sizeT ((x.pickedReceiverID worker i).last - (x.pickedReceiverID worker i).first) +
    (x.pickedReceiverID worker i).first : Nat))
  rdmaPtr := x.offsetForSharedArea worker
  destinationNodeID := x.sharedNodeId
  paddingDestNodeID := (x.pickedReceiverID worker i).nodeId
  paddingDestRDMA := (x.pickedReceiverID worker i).msgOffset
  type := .expMsg

/-- The stores that fill a slot with request `i`. The type comes last. -/
def store (worker i : Nat) (m : MessageBase) : Nat → MessageBase
  | 0 => { m with msgId := (x.request worker i).msgId }
  | 1 => { m with id := (x.request worker i).id }
  | 2 => { m with rdmaPtr := (x.request worker i).rdmaPtr }
  | 3 => { m with destinationNodeID := (x.request worker i).destinationNodeID }
  | 4 => { m with paddingDestNodeID := (x.request worker i).paddingDestNodeID }
  | 5 => { m with paddingDestRDMA := (x.request worker i).paddingDestRDMA }
  | _ => { m with type := .expMsg }

/-- A slot after the first stores of request `i`. -/
def stored (worker i : Nat) (m : MessageBase) : Nat → MessageBase
  | 0 => m
  | n + 1 => x.store worker i (stored worker i m n) n

/-- The first requests of a worker. -/
def issued (worker n : Nat) : List MessageBase := (List.range n).map (x.request worker)

end Setup

/-- A worker in front of a store of request `i`, or of the compare-exchange that
waits for its acknowledgement. -/
inductive Worker where
  | fill (i stores : Nat)
  | signal (i : Nat)
deriving DecidableEq, Repr

/-- The requests that a worker has filled in. -/
def Worker.issued : Worker → Nat
  | .fill i _ => i
  | .signal i => i + 1

/-- The requests that a worker is done with. -/
def Worker.completed : Worker → Nat
  | .fill i _ => i
  | .signal i => i

/-- Where `run` is. `rest` are the indices of the batch after the current one. -/
inductive Control where
  | start
  | head
  | scan (reqId : Nat)
  | transfer (reqId : Nat)
  | look (respId : Nat)
  | clearFlag (respId : Nat)
  | pollSRQ (failedPolls : Nat)
  | process (batch : List Nat)
  | clearType (workerId rIdx : Nat) (rest : List Nat)
  | signal (workerId rIdx : Nat) (rest : List Nat)
  | finalize (rIdx : Nat) (rest : List Nat)
  | stopped
deriving DecidableEq, Repr

/-- `outstanding` holds the transferred requests whose response has not arrived,
with their workers. The last six fields are records: per worker the requests
that were transferred, those whose response arrived, and the acknowledgements;
the worker whose response is in a slot; and how often the branch for a worker
that has not transferred was taken and an acknowledgement had to be retried. -/
structure State where
  worker : Nat → Worker := fun _ => .fill 0 0
  reqBuffer : Nat → MessageBase := fun _ => {}
  received : Nat → Nat := fun _ => 0
  respBuffer : Nat → Response := fun _ => {}
  srq : SharedReceiveQueue := {}
  running : Bool := true
  transfered : Nat → Bool := fun _ => false
  reqDispatched : Nat := 0
  msgReceived : Nat := 0
  control : Control := .start
  outstanding : List (Nat × MessageBase) := []
  transfers : Nat → List MessageBase := fun _ => []
  arrivals : Nat → List MessageBase := fun _ => []
  acknowledgements : Nat → Nat := fun _ => 0
  owner : Nat → Nat := fun _ => 0
  notTransfered : Nat := 0
  retries : Nat := 0

section Program

variable (x : Setup)

/-- One step of `benchmarkPhase`, in the overload for the dispatcher. -/
def workerStep (s : State) (w : Nat) : Option State :=
  match s.worker w with
  | .fill i stores =>
      if i < x.requests w then
        some { s with
          reqBuffer := Function.update s.reqBuffer w (x.store w i (s.reqBuffer w) stores)
          worker := Function.update s.worker w
            (if stores = 6 then .signal i else .fill i (stores + 1)) }
      else none
  | .signal i =>
      if s.received w = 1 then
        some { s with
          received := Function.update s.received w 0
          worker := Function.update s.worker w (.fill (i + 1) 0) }
      else some s

/-- `pollBatch` takes at most this many completions. -/
def batchSize : Nat := 16

/-- The worker whose request a response slot answers. -/
def workerOf (respBuffer : Nat → Response) (rIdx : Nat) : Nat :=
  match x.poll with
  | .srq => x.slotOf (respBuffer rIdx).senderNodeId
  | _ => rIdx

def receiveBatchSRQ (s : State) (numberReceives : Nat) : State :=
  { s with srq := (List.range numberReceives).foldl SharedReceiveQueue.post s.srq }

/-- One step of `run`. -/
def dispatcherStep (s : State) : Option State :=
  match s.control with
  | .start =>
      match x.poll with
      | .srq => some { receiveBatchSRQ s x.localSender with control := .head }
      | _ => some { s with control := .head }
  | .head => some { s with control := if s.running then .scan 0 else .stopped }
  | .scan reqId =>
      if reqId < x.localSender then
        if (s.reqBuffer reqId).type = .empty ∨ s.transfered reqId then
          some { s with control := .scan (reqId + 1) }
        else some { s with control := .transfer reqId }
      else match x.poll with
        | .buf => some { s with control := .look 0 }
        | .srq => some { s with control := .pollSRQ 0 }
        | .rq => some { s with control := .process [] }
  | .transfer reqId =>
      some { s with
        outstanding := s.outstanding ++ [(reqId, s.reqBuffer reqId)]
        transfers := Function.update s.transfers reqId (s.transfers reqId ++ [s.reqBuffer reqId])
        reqDispatched := s.reqDispatched + 1
        transfered := Function.update s.transfered reqId true
        control := .scan (reqId + 1) }
  | .look respId =>
      if respId < x.localSender then
        if (s.respBuffer respId).transferFlag ≠ 1 then
          some { s with control := .look (respId + 1) }
        else some { s with control := .clearFlag respId }
      else some { s with control := .process [] }
  | .clearFlag respId =>
      some { s with
        respBuffer := Function.update s.respBuffer respId
          { s.respBuffer respId with transferFlag := 0 }
        control := .process [respId] }
  | .pollSRQ failedPolls =>
      match s.srq.pollBatch batchSize with
      | ([], _) =>
          some { s with
            control := if failedPolls + 1 < 150 then .pollSRQ (failedPolls + 1) else .process [] }
      | (batch, q) => some { s with srq := q, control := .process (batch.map Prod.snd) }
  | .process [] => some { s with control := .head }
  | .process (rIdx :: rest) =>
      let workerId := workerOf x s.respBuffer rIdx
      if s.transfered workerId then
        some { s with
          msgReceived := s.msgReceived + 1
          transfered := Function.update s.transfered workerId false
          control := .clearType workerId rIdx rest }
      else
        some { s with
          msgReceived := s.msgReceived + 1
          notTransfered := s.notTransfered + 1
          control := .process rest }
  | .clearType workerId rIdx rest =>
      some { s with
        reqBuffer := Function.update s.reqBuffer workerId (s.reqBuffer workerId).cleared
        control := .signal workerId rIdx rest }
  | .signal workerId rIdx rest =>
      if s.received workerId = 0 then
        some { s with
          received := Function.update s.received workerId 1
          acknowledgements :=
            Function.update s.acknowledgements workerId (s.acknowledgements workerId + 1)
          control := .finalize rIdx rest }
      else some { s with retries := s.retries + 1 }
  | .finalize rIdx rest =>
      match x.poll with
      | .srq => some { s with srq := s.srq.post rIdx, control := .process rest }
      | _ => some { s with control := .process rest }
  | .stopped => none

/-- The response to a transferred request arrives: in the slot at the offset that
the request named, or in the slot of the posted receive `rIdx`. -/
def respond (s : State) (w : Nat) (m : MessageBase) (rIdx : Nat) : Option State :=
  if (w, m) ∈ s.outstanding then
    let response : Response := ⟨m.rdmaPtr, m.id, 1⟩
    let s := { s with
      outstanding := s.outstanding.erase (w, m)
      arrivals := Function.update s.arrivals w (s.arrivals w ++ [m]) }
    match x.poll with
    | .srq => (s.srq.arrive m.paddingDestNodeID rIdx).map fun q =>
        { s with
          srq := q
          respBuffer := Function.update s.respBuffer rIdx response
          owner := Function.update s.owner rIdx w }
    | _ => some { s with respBuffer := Function.update s.respBuffer (x.slotOf m.rdmaPtr) response }
  else none

/-- `running` is cleared when all workers are through. -/
def stop (s : State) : Option State :=
  if ∀ w < x.localSender, s.worker w = .fill (x.requests w) 0 then
    some { s with running := false }
  else none

end Program

inductive Operation where
  | worker (w : Nat)
  | dispatcher
  | respond (w : Nat) (m : MessageBase) (rIdx : Nat)
  | stop
deriving DecidableEq, Repr

def dispatcherMachine (x : Setup) : Machine State Operation where
  init := {}
  next s
    | .worker w => if w < x.localSender then workerStep x s w else none
    | .dispatcher => dispatcherStep x s
    | .respond w m rIdx => respond x s w m rIdx
    | .stop => stop x s

end BenchmarkDispatcher
