import Mathlib.Logic.Basic

/-! What the nodes of the benchmark send to each other, and how. -/
namespace Benchmark

/-- How a message is transferred: written into the memory of the other side, or
sent to one of its posted receives. -/
inductive RdmaTransfer where
  | write
  | send
deriving DecidableEq, Repr

/-- Where a node looks for messages: the receive queue of a connection, the
shared receive queue, or a buffer in memory. -/
inductive RdmaPoll where
  | rq
  | srq
  | buf
deriving DecidableEq, Repr

inductive MessageType where
  | empty
  | expMsg
  | initExp
  | finishedExp
deriving DecidableEq, Repr

structure MessageBase where
  msgId : Nat := 0
  id : Nat := 0
  destinationNodeID : Nat := 0
  rdmaPtr : Nat := 0
  paddingDestNodeID : Nat := 0
  paddingDestRDMA : Nat := 0
  type : MessageType := .empty
deriving DecidableEq, Repr

/-- The slot of a message after its type was set to `EMPTY`. -/
def MessageBase.cleared (m : MessageBase) : MessageBase := { m with type := .empty }

/-- The request that a slot held before its type was set to `EMPTY`. -/
def MessageBase.asRequest (m : MessageBase) : MessageBase := { m with type := .expMsg }

@[simp] theorem MessageBase.type_cleared (m : MessageBase) : m.cleared.type = .empty := rfl

@[simp] theorem MessageBase.type_asRequest (m : MessageBase) : m.asRequest.type = .expMsg := rfl

@[simp] theorem MessageBase.asRequest_cleared (m : MessageBase) :
    m.cleared.asRequest = m.asRequest := rfl

theorem MessageBase.asRequest_eq {m : MessageBase} (hType : m.type = .expMsg) :
    m.asRequest = m := by
  rw [asRequest, ← hType]

/-- One cache line. -/
def sizeofMessageBase : Nat := 64

/-- A response without its payload. -/
structure Response where
  senderNodeId : Nat := 0
  responseId : Nat := 0
  transferFlag : Nat := 0
deriving DecidableEq, Repr

/-- A response on its way: the offset it is written to if it is written, the slot it
is transferred from, and what the slot held when it was posted. -/
structure Answer where
  rdmaPtr : Nat
  respId : Nat
  response : Response
deriving DecidableEq, Repr

/-- `FLAGS_verbs`, which picks the template arguments. -/
inductive Verbs where
  | writeWrite
  | sendWrite
  | sendSend
  | writeSend
deriving DecidableEq, Repr

namespace Verbs

def receiverP : Verbs → RdmaPoll
  | .writeWrite | .writeSend => .buf
  | .sendWrite | .sendSend => .srq

def receiverT : Verbs → RdmaTransfer
  | .writeWrite | .sendWrite => .write
  | .sendSend | .writeSend => .send

def senderP : Verbs → RdmaPoll
  | .writeWrite | .sendWrite => .buf
  | .sendSend | .writeSend => .rq

def senderT : Verbs → RdmaTransfer
  | .writeWrite | .writeSend => .write
  | .sendWrite | .sendSend => .send

/-- Requests go where the receiver looks for them. -/
theorem senderT_eq (verbs : Verbs) :
    verbs.senderT = .write ∧ verbs.receiverP = .buf ∨
      verbs.senderT = .send ∧ verbs.receiverP = .srq := by
  cases verbs with
  | writeWrite | writeSend => exact .inl ⟨rfl, rfl⟩
  | sendWrite | sendSend => exact .inr ⟨rfl, rfl⟩

end Verbs
end Benchmark
