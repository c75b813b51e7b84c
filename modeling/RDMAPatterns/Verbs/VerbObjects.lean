import Mathlib.Logic.Function.Basic
import RDMAPatterns.Lifetimes.Keepers
import RDMAPatterns.Transition.Runs

/-! The objects that `ReliableRDMA` gets from the verbs library: how its calls
create and store them, and how its destructor gives them back. -/
namespace VerbObjects

open Calls Transition

section BaseRDMA

variable {σ : Type}

/-- `BaseRDMA::createCQ`, with the verb that creates a queue. -/
def createQueues (createCq : Call σ String Nat) (sendFails recvFails : Bool) :
    Call σ String (Nat × Nat) := do
  throwIf (sendFails = true) "Cannot create send CQ!"
  let sendCq ← createCq
  throwIf (recvFails = true) "Cannot create receive CQ!"
  let recvCq ← createCq
  return (sendCq, recvCq)

/-- `BaseRDMA::destroyCQ`, with the verb that destroys a queue. A busy receive
queue is only logged. -/
def destroyQueues (destroyCq : Nat → Call σ String Bool) (sendCq recvCq : Nat) :
    Call σ String Unit := do
  let ended ← destroyCq sendCq
  throwIf (¬ ended) "Cannot delete send CQ. errno: 16"
  let _ ← destroyCq recvCq
  return

end BaseRDMA

inductive Kind where
  | pd
  | mr
  | cq
  | srq
  | qp
deriving DecidableEq

/-- An object with the handles of the objects it was created on. -/
inductive Object where
  | pd
  | mr (pd : Nat)
  | cq
  | srq (pd : Nat)
  | qp (pd sendCq recvCq : Nat) (srq : Option Nat)
deriving DecidableEq

def Object.kind : Object → Kind
  | .pd => .pd
  | .mr _ => .mr
  | .cq => .cq
  | .srq _ => .srq
  | .qp .. => .qp

def Object.uses : Object → List (Kind × Nat)
  | .pd => []
  | .mr domain => [(.pd, domain)]
  | .cq => []
  | .srq domain => [(.pd, domain)]
  | .qp domain sendCq recvCq none => [(.pd, domain), (.cq, sendCq), (.cq, recvCq)]
  | .qp domain sendCq recvCq (some sharedRq) =>
      [(.pd, domain), (.cq, sendCq), (.cq, recvCq), (.srq, sharedRq)]

/-- The objects of one opened device. -/
abbrev Device := Lifetimes.Store Object.kind Object.uses

/-- `ib_qp_t`. -/
structure IbQp where
  qp : Nat
  sendCq : Nat
  recvCq : Nat
deriving DecidableEq

/-- `sharedrq_t`. -/
structure SharedRq where
  sharedRq : Nat
  recvCq : Nat
deriving DecidableEq

/-- `m_res`, `m_qps` and `m_srqs`, and the queue pairs that calls of `connect`
hold in a local while they wait for the answer. -/
structure ReliableRDMA where
  device : Device
  pd : Nat
  mr : Nat
  qps : List (Option IbQp) := []
  srqs : List SharedRq := []
  calls : List (Option IbQp) := []

/-- The verb that fails in a call. -/
inductive Fault where
  | queryDevice
  | sendCq
  | recvCq
  | srq
  | createQp
  | toInit
deriving DecidableEq

abbrev RDMACall := Call ReliableRDMA String

/-- The protection domain and the memory region of `createBuffer`. -/
def createBuffer : ReliableRDMA where
  device := (Lifetimes.Store.empty.add .pd (by simp [Object.uses])).add (.mr 0) (by decide)
  pd := 0
  mr := 1

def keeper : Lifetimes.Keeper ReliableRDMA Object.kind Object.uses where
  store := ReliableRDMA.device
  keep s d := { s with device := d }
  store_keep _ _ := rfl
  keep_keep _ _ _ := rfl
  keep_store _ := rfl

/-- A verb that creates an object. -/
def create (value : Object) : RDMACall Nat := keeper.create value

/-- A verb that destroys an object: whether it was not busy. -/
def destroy (kind : Kind) (handle : Nat) : RDMACall Bool := keeper.destroy kind handle

/-- `createCQ`. -/
def createCQ (fault : Option Fault) : RDMACall (Nat × Nat) :=
  createQueues (create .cq) (fault = some .sendCq) (fault = some .recvCq)

/-- `createQP`. -/
def createQP (sendCq recvCq : Nat) (fault : Option Fault) : RDMACall IbQp := do
  throwIf (fault = some .queryDevice) "Error, ibv_query_device() failed"
  throwIf (fault = some .createQp) "Cannot create queue pair!"
  let s ← get
  let qp ← create (.qp s.pd sendCq recvCq none)
  return { qp, sendCq, recvCq }

/-- `createQP` with a shared receive queue: only the send queue is new. -/
def createQPForSRQ (rq : SharedRq) (fault : Option Fault) : RDMACall IbQp := do
  throwIf (fault = some .queryDevice) "Error, ibv_query_device() failed"
  throwIf (fault = some .sendCq) "Cannot create send CQ!"
  let sendCq ← create .cq
  throwIf (fault = some .createQp) "Cannot create queue pair!"
  let s ← get
  let qp ← create (.qp s.pd sendCq rq.recvCq (some rq.sharedRq))
  return { qp, sendCq, recvCq := rq.recvCq }

/-- The call of `modifyQPToInit`. -/
def modifyQPToInit (fault : Option Fault) : RDMACall Unit :=
  throwIf (fault = some .toInit) "Failed modifyQPToInit!"

/-- `m_qps` of `setQP`, which first grows until it has the entry. -/
def storeQP (qps : List (Option IbQp)) (rdmaConnID : Nat) (qp : IbQp) : List (Option IbQp) :=
  (qps ++ List.replicate (rdmaConnID + 1 - qps.length) none).set rdmaConnID (some qp)

/-- `setQP`. -/
def setQP (rdmaConnID : Nat) (qp : IbQp) : RDMACall Unit :=
  modify fun s => { s with qps := storeQP s.qps rdmaConnID qp }

/-- The overload of `initQPWithSuppliedID` that stores nothing. -/
def initQPUnstored (fault : Option Fault) : RDMACall IbQp := do
  let cqs ← createCQ fault
  let qp ← createQP cqs.1 cqs.2 fault
  modifyQPToInit fault
  return qp

/-- `initQPWithSuppliedID`. -/
def initQPWithSuppliedID (rdmaConnID : Nat) (fault : Option Fault) : RDMACall Unit := do
  let qp ← initQPUnstored fault
  setQP rdmaConnID qp

/-- `initQPForSRQWithSuppliedID`. -/
def initQPForSRQWithSuppliedID (rq : SharedRq) (rdmaConnID : Nat) (fault : Option Fault) :
    RDMACall Unit := do
  let qp ← createQPForSRQ rq fault
  modifyQPToInit fault
  setQP rdmaConnID qp

/-- `initQP`. -/
def initQP (fault : Option Fault) : RDMACall Nat := do
  let s ← get
  initQPWithSuppliedID s.qps.length fault
  return s.qps.length

/-- `initQPForSRQ`. -/
def initQPForSRQ (rq : SharedRq) (fault : Option Fault) : RDMACall Nat := do
  let s ← get
  initQPForSRQWithSuppliedID rq s.qps.length fault
  return s.qps.length

/-- `createSharedReceiveQueue`. The queues are numbered by `m_srqCounter`. -/
def createSharedReceiveQueue (fault : Option Fault) : RDMACall Nat := do
  throwIf (fault = some .srq) "Error, ibv_create_srq() failed!"
  let s ← get
  let sharedRq ← create (.srq s.pd)
  throwIf (fault = some .recvCq) "Cannot create receive CQ!"
  let recvCq ← create .cq
  modify fun s => { s with srqs := s.srqs ++ [{ sharedRq, recvCq }] }
  return s.srqs.length

/-- `destroyCQ`. -/
def destroyCQ (sendCq recvCq : Nat) : RDMACall Unit := destroyQueues (destroy .cq) sendCq recvCq

/-- One entry of `m_qps` in `destroyQPs`, and the cleanup of `connect`. -/
def destroyQP (qp : IbQp) : RDMACall Unit := do
  let ended ← destroy .qp qp.qp
  throwIf (¬ ended) "Error, ibv_destroy_qp() failed"
  destroyCQ qp.sendCq qp.recvCq

def destroyEntry : Option IbQp → RDMACall Unit
  | none => return
  | some qp => destroyQP qp

/-- One entry of `m_srqs` in `destroyQPs`. -/
def destroySRQ (rq : SharedRq) : RDMACall Unit := do
  let ended ← destroy .srq rq.sharedRq
  throwIf (¬ ended) "ReliableRDMASRQ::destroyQPs: ibv_destroy_srq() failed"

/-- `destroyQPs`. -/
def destroyQPs : RDMACall Unit := do
  let s ← get
  s.qps.forM destroyEntry
  s.srqs.forM destroySRQ

/-- `~BaseRDMA`, which does not look at what the verbs return. -/
def destroyBase : RDMACall Unit := do
  let s ← get
  let _ ← destroy .mr s.mr
  let _ ← destroy .pd s.pd
  return

/-- `~ReliableRDMA`, and then `~BaseRDMA` unless it threw. A destructor is
`noexcept`, so an exception here is not one that a caller can catch: the process
terminates with its message. -/
def destructor : RDMACall Unit := do
  destroyQPs
  modify fun s => { s with qps := [] }
  destroyBase

/-- `connect` up to the request: its queue pair is not stored yet. -/
def connectInit (fault : Option Fault) : RDMACall Unit := do
  let qp ← initQPUnstored fault
  modify fun s => { s with calls := s.calls ++ [some qp] }

/-- The local of a `connect` that ends. -/
def endCall (call : Nat) : RDMACall Unit :=
  modify fun s => { s with calls := s.calls.set call none }

/-- `connect` after an `RDMAConnResponse`. -/
def connectAccepted (call rdmaConnID : Nat) (qp : IbQp) : RDMACall Unit := do
  endCall call
  setQP rdmaConnID qp

/-- `connect` after any other answer, which means the other side already connected. -/
def connectRejected (call : Nat) (qp : IbQp) : RDMACall Unit := do
  endCall call
  destroyQP qp

inductive Action where
  | createSharedReceiveQueue (fault : Option Fault)
  | initQP (fault : Option Fault)
  | initQPWithSuppliedID (rdmaConnID : Nat) (fault : Option Fault)
  | initQPForSRQ (srqID : Nat) (fault : Option Fault)
  | initQPForSRQWithSuppliedID (srqID rdmaConnID : Nat) (fault : Option Fault)
  | connect (fault : Option Fault)
  | accepted (call rdmaConnID : Nat)
  | rejected (call : Nat)
  /-- The exchange of the request throws out of `connect`. -/
  | unanswered (call : Nat)
deriving DecidableEq

/-- The queue pair that a call of `connect` holds. -/
def ReliableRDMA.waiting (s : ReliableRDMA) (call : Nat) : Option IbQp := s.calls[call]?.join

/-- A call whose return value is not looked at. -/
def ignoring {α : Type} (call : RDMACall α) : RDMACall Unit := do
  let _ ← call
  return

/-- What a step calls. A shared receive queue has a number that was given out,
and only a `connect` that waits gets an answer. -/
def perform (s : ReliableRDMA) : Action → Option (RDMACall Unit)
  | .createSharedReceiveQueue fault => some (ignoring (createSharedReceiveQueue fault))
  | .initQP fault => some (ignoring (initQP fault))
  | .initQPWithSuppliedID rdmaConnID fault => some (initQPWithSuppliedID rdmaConnID fault)
  | .initQPForSRQ srqID fault => s.srqs[srqID]?.map fun rq => ignoring (initQPForSRQ rq fault)
  | .initQPForSRQWithSuppliedID srqID rdmaConnID fault =>
      s.srqs[srqID]?.map fun rq => initQPForSRQWithSuppliedID rq rdmaConnID fault
  | .connect fault => some (connectInit fault)
  | .accepted call rdmaConnID => (s.waiting call).map (connectAccepted call rdmaConnID)
  | .rejected call => (s.waiting call).map (connectRejected call)
  | .unanswered call => (s.waiting call).map fun _ => endCall call

/-- One object from its constructor on. An exception of a call goes to the
caller, and the object stays in use. -/
def lifeMachine : Machine ReliableRDMA Action where
  init := createBuffer
  next s a := (perform s a).bind fun call => (call.outcome s).map Prod.snd

end VerbObjects
