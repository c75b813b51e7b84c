import Mathlib.Data.List.Nodup
import RDMAPatterns.Benchmark.ResponseRanges
import RDMAPatterns.Channels.Logs

/-! How the nodes of a benchmark come up. A receiver can be found and connected
to as soon as it is constructed; it posts receives in its `initPhase`, behind a
barrier that only the threads of its own process wait at. The senders look the
receivers up, connect to all of them and report to one after the other. -/
namespace InitPhase

open Benchmark Channels Transition Verbs
open BenchmarkDispatcher (RecvInfo)
open BenchmarkReceiver (initReply)

/-- `POLL` is the template argument of the receivers. `recvIds` is the order in
which all senders go through the receivers, and `localAlloc receiver size` the
offset of the memory that a receiver gets. -/
structure Setup where
  POLL : RdmaPoll
  numberPreparedResponses : Nat
  senderIds : List Nat
  recvIds : List Nat
  senderProcess : Nat → Nat
  receiverProcess : Nat → Nat
  localAlloc : Nat → Nat → Nat
  senderIds_nodup : senderIds.Nodup
  recvIds_nodup : recvIds.Nodup

/-- `FLAGS_totalSender`. -/
def Setup.expectedClients (x : Setup) : Nat := x.senderIds.length

/-- The report of a sender. -/
def initMsg : MessageBase := { type := .initExp }

/-- Where a sender is: in `queryReceiverInformation`, or in `initPhase` at the
receiver `recvIds[next]`, or at one of the two barriers of `initPhase`. -/
inductive SenderControl where
  | start
  | query
  | connect (next : Nat)
  | connected
  | receive (next : Nat)
  | send (next : Nat)
  | sent (next : Nat)
  | pollReceive (next : Nat)
  | lastReceive
  | returned
  | failed
deriving DecidableEq, Repr

/-- Where a receiver is: in its constructor, at the barrier of its process, or
in `initPhase`, at the end in front of or behind the reply to
`connectedSenderIds_[i]`. -/
inductive ReceiverControl where
  | createSRQ
  | requestNodeID
  | startServer
  | barrier
  | receiveBatch
  | pollReceiveSRQ
  | reply (i : Nat)
  | replied (i : Nat)
  | returned
deriving DecidableEq, Repr

/-- The sequencer knows the receiver. -/
def ReceiverControl.registered : ReceiverControl → Bool
  | .createSRQ | .requestNodeID => false
  | _ => true

/-- The server of the receiver accepts connections. -/
def ReceiverControl.accepting : ReceiverControl → Bool
  | .createSRQ | .requestNodeID | .startServer => false
  | _ => true

/-- The sender has arrived at the first barrier. -/
def SenderControl.atConnected : SenderControl → Bool
  | .start | .query | .connect _ | .failed => false
  | _ => true

/-- The sender has arrived at the last barrier. -/
def SenderControl.atLastReceive : SenderControl → Bool
  | .lastReceive | .returned => true
  | _ => false

/-- `receives` counts the posted receives of each connection, `received` holds
the replies that took one. -/
structure Sender where
  control : SenderControl := .start
  receives : Nat → Nat := fun _ => 0
  received : Nat → List MessageBase := fun _ => []
  recvIds : List RecvInfo := []

/-- `reqBuffer` is the offset of `reqBuffer_`. -/
structure Receiver where
  control : ReceiverControl := .createSRQ
  srq : SharedReceiveQueue := {}
  initBuffer : Nat → MessageBase := fun _ => {}
  connectedSenderIds : List Nat := []
  reqBufferLength : Nat := 0
  reqBuffer : Nat := 0

/-- `wire` holds the reports on their way from a sender to a receiver, `replies`
the replies on their way back. -/
structure State where
  sender : Nat → Sender
  receiver : Nat → Receiver
  wire : Nat × Nat → List MessageBase
  replies : Nat × Nat → List MessageBase

section Program

variable (x : Setup)

def receiveBatchSRQ (srq : SharedReceiveQueue) (numberReceives : Nat) : SharedReceiveQueue :=
  (List.range numberReceives).foldl SharedReceiveQueue.post srq

/-- `BenchmarkReceiver::initReqBuffer`. A buffer that is polled is cleared, which
nobody can tell here. -/
def initReqBuffer (rcv : Receiver) : Receiver :=
  match x.POLL with
  | .srq => { rcv with srq := receiveBatchSRQ rcv.srq rcv.reqBufferLength }
  | .buf | .rq => rcv

/-- The body of the loop in `initPhase`, for the message in slot `memoryIdx`. -/
def handleReport (self : Nat) (rcv : Receiver) (nodeId memoryIdx : Nat) : Receiver :=
  if (rcv.initBuffer memoryIdx).type = .initExp then
    let connectedSenderIds := rcv.connectedSenderIds ++ [nodeId]
    if connectedSenderIds.length = x.expectedClients then
      let reqBufferLength := connectedSenderIds.foldr max 0 + 1
      initReqBuffer x { rcv with
        connectedSenderIds := connectedSenderIds
        reqBufferLength := reqBufferLength
        reqBuffer := x.localAlloc self (sizeofMessageBase * reqBufferLength)
        control := .reply 0 }
    else { rcv with connectedSenderIds := connectedSenderIds }
  else rcv

/-- The reply to a sender. It points to the slot of the sender. -/
def Receiver.replyTo (rcv : Receiver) (id : Nat) : MessageBase :=
  initReply x.numberPreparedResponses id rcv.reqBufferLength
    (rcv.reqBuffer + id * sizeofMessageBase)

/-- One step of a receiver, and the reply it sends. -/
def receiverStep (s : State) (self : Nat) : Option (Receiver × Option (Nat × MessageBase)) :=
  let rcv := s.receiver self
  match rcv.control with
  | .createSRQ =>
      some ({ rcv with
        control := .requestNodeID
        reqBufferLength := x.expectedClients + x.recvIds.length }, none)
  | .requestNodeID => some ({ rcv with control := .startServer }, none)
  | .startServer => some ({ rcv with control := .barrier }, none)
  | .barrier =>
      if ∀ other ∈ x.recvIds, x.receiverProcess other = x.receiverProcess self →
          (s.receiver other).control.accepting = true then
        some ({ rcv with control := .receiveBatch }, none)
      else none
  | .receiveBatch =>
      some ({ rcv with
        control := .pollReceiveSRQ
        srq := receiveBatchSRQ rcv.srq x.expectedClients }, none)
  | .pollReceiveSRQ => rcv.srq.poll.map fun ((nodeId, memoryIdx), srq) =>
      (handleReport x self { rcv with srq := srq } nodeId memoryIdx, none)
  | .reply i => rcv.connectedSenderIds[i]?.map fun id =>
      ({ rcv with control := .replied i }, some (id, rcv.replyTo x id))
  | .replied i => rcv.connectedSenderIds[i]?.bind fun id =>
      if s.replies (self, id) = [] then
        some ({ rcv with
          control :=
            if i + 1 < rcv.connectedSenderIds.length then .reply (i + 1) else .returned }, none)
      else none
  | .returned => none

/-- One step of a sender, and the report it sends. -/
def senderStep (s : State) (self : Nat) : Option (Sender × Option (Nat × MessageBase)) :=
  let snd := s.sender self
  match snd.control with
  | .start =>
      if ∀ receiver ∈ x.recvIds, x.receiverProcess receiver = x.senderProcess self →
          (s.receiver receiver).control.accepting = true then
        some ({ snd with control := .query }, none)
      else none
  | .query =>
      if ∀ receiver ∈ x.recvIds, (s.receiver receiver).control.registered = true then
        some ({ snd with control := .connect 0 }, none)
      else none
  | .connect next =>
      match x.recvIds[next]? with
      | some receiver =>
          if (s.receiver receiver).control.accepting then
            some ({ snd with control := .connect (next + 1) }, none)
          else some ({ snd with control := .failed }, none)
      | none => some ({ snd with control := .connected }, none)
  | .connected =>
      if ∀ other ∈ x.senderIds, x.senderProcess other = x.senderProcess self →
          (s.sender other).control.atConnected = true then
        some ({ snd with control := .receive 0 }, none)
      else none
  | .receive next =>
      match x.recvIds[next]? with
      | some receiver =>
          some ({ snd with
            control := .send next
            receives := Function.update snd.receives receiver (snd.receives receiver + 1) }, none)
      | none => some ({ snd with control := .lastReceive }, none)
  | .send next => x.recvIds[next]?.map fun receiver =>
      ({ snd with control := .sent next }, some (receiver, initMsg))
  | .sent next => x.recvIds[next]?.bind fun receiver =>
      if s.wire (self, receiver) = [] then some ({ snd with control := .pollReceive next }, none)
      else none
  | .pollReceive next => x.recvIds[next]?.bind fun receiver =>
      match snd.received receiver with
      | recvMsg :: rest =>
          some ({ snd with
            control := .receive (next + 1)
            received := Function.update snd.received receiver rest
            recvIds := snd.recvIds ++ [RecvInfo.ofReply receiver recvMsg] }, none)
      | [] => none
  | .lastReceive =>
      if ∀ other ∈ x.senderIds, x.senderProcess other = x.senderProcess self →
          (s.sender other).control.atLastReceive = true then
        some ({ snd with control := .returned }, none)
      else none
  | .returned | .failed => none

end Program

/-- `memIdx` is the posted receive that a report takes. -/
inductive Operation where
  | sender (self : Nat)
  | receiver (self : Nat)
  | arrive (sender receiver memIdx : Nat)
  | answer (receiver sender : Nat)
deriving DecidableEq, Repr

/-- A report takes a posted receive. Delivery is taken to be reliable here: without one
the report waits. (`rnr_retry` is 0, so in the program such a report breaks the
connection.) -/
def State.arrival (s : State) (sender receiver memIdx : Nat) : Option State :=
  match s.wire (sender, receiver) with
  | m :: rest => ((s.receiver receiver).srq.arrive sender memIdx).map fun srq =>
      { s with
        receiver := Function.update s.receiver receiver { s.receiver receiver with
          srq := srq
          initBuffer := Function.update (s.receiver receiver).initBuffer memIdx m }
        wire := Function.update s.wire (sender, receiver) rest }
  | [] => none

/-- A reply takes the receive that the sender posted for it. -/
def State.answerArrival (s : State) (receiver sender : Nat) : Option State :=
  match s.replies (receiver, sender) with
  | m :: rest =>
      if 0 < (s.sender sender).receives receiver then
        some { s with
          sender := Function.update s.sender sender { s.sender sender with
            receives := Function.update (s.sender sender).receives receiver
              ((s.sender sender).receives receiver - 1)
            received := Function.update (s.sender sender).received receiver
              ((s.sender sender).received receiver ++ [m]) }
          replies := Function.update s.replies (receiver, sender) rest }
      else none
  | [] => none

section Machines

variable (x : Setup)

def next (s : State) : Operation → Option State
  | .sender self =>
      if self ∈ x.senderIds then
        (senderStep x s self).map fun (snd, out) =>
          { s with
            sender := Function.update s.sender self snd
            wire := enqueue s.wire self out }
      else none
  | .receiver self =>
      if self ∈ x.recvIds then
        (receiverStep x s self).map fun (rcv, out) =>
          { s with
            receiver := Function.update s.receiver self rcv
            replies := enqueue s.replies self out }
      else none
  | .arrive sender receiver memIdx => s.arrival sender receiver memIdx
  | .answer receiver sender => s.answerArrival receiver sender

/-- From the start of all processes. -/
def startUpMachine : Machine State Operation where
  init := ⟨fun _ => {}, fun _ => {}, fun _ => [], fun _ => []⟩
  next := next x

/-- From the point where all senders are connected to all receivers, and no
receiver has begun its `initPhase`. -/
def initMachine : Machine State Operation where
  init := ⟨fun _ => { control := .receive 0 },
    fun _ => { control := .receiveBatch, reqBufferLength := x.expectedClients + x.recvIds.length },
    fun _ => [], fun _ => []⟩
  next := next x

end Machines
end InitPhase
