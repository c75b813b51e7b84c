import RDMAPatterns.Connection.QueuePairs

/-! `RDMAClient::connect`, `RDMAClientSRQ::connect` and the handler at the other
end, `RDMAServer::connectQueue`. A server is a client too, so both work on the
same members. What other processes answer is an argument. -/
namespace RDMAClient

open References ReliableRDMA

/-- How far the one `connect` call that may go through for a node id has got.
While it waits for the reply it keeps the queue pair and its connection data in
local variables. -/
inductive Call where
  | notCalled
  | claimed
  | waiting (qp : Nat) (localConn : ConnData)
  | returned
deriving DecidableEq, Repr

/-- The members of an `RDMAClient<ReliableRDMA>`. The keys of
`ProtoClient::m_connections` are kept apart from `RDMAClient::m_connections`,
which hides them. -/
structure Client where
  rdma : QueuePairs := {}
  protoConnections : String → Bool := fun _ => false
  connections : String → Option Nat := fun _ => none
  nodeIDsConnection : Nat → String := fun _ => ""
  nodeIDsQPs : Nat → Bool := fun _ => false
  ownNodeID : Nat := 0
  sequencerIpPort : String := "192.168.94.28:5500"
  calls : Nat → Call := fun _ => .notCalled

/-- `RDMAConnRequest`. -/
structure ConnRequest where
  conn : ConnData
  nodeid : Nat
deriving DecidableEq, Repr

/-- `RDMAConnResponse`, or the `ErrorMessage` of a server that refused. -/
inductive ConnReply where
  | connResponse (conn : ConnData)
  | errorMessage (return_ : Nat)
deriving DecidableEq, Repr

/-- The fields of `GetNodeIDForIpPortResponse` that are read. -/
structure GetNodeIDResponse where
  ip : String := ""
  nodeId : Nat := 0
  return_ : Nat := 0
deriving DecidableEq, Repr

/-- A message of the sequencer: a `GetNodeIDForIpPortResponse` or another one. -/
inductive SequencerReply where
  | getNodeID (response : GetNodeIDResponse)
  | other
deriving DecidableEq, Repr

section Lookup

variable (replies : Nat → SequencerReply)

/-- `UnpackTo` leaves its target alone if the message has another type. -/
def unpackTo (reply : SequencerReply) (connResponse : GetNodeIDResponse) : GetNodeIDResponse :=
  match reply with
  | .getNodeID response => response
  | .other => connResponse

/-- The retry loop. `i` requests have been repeated, at most `left` more are. -/
def retryLookup (connResponse : GetNodeIDResponse) (i : Nat) : Nat → GetNodeIDResponse
  | 0 => connResponse
  | left + 1 =>
      if connResponse.return_ ≠ 0 then
        retryLookup (unpackTo (replies (i + 1)) connResponse) (i + 1) left
      else connResponse

/-- Ask the sequencer for the node id behind an address. `none` if it does not
know it after all retries. -/
def fetchNodeID (retries : Nat) (ipPort : String) : Except String (Option Nat) :=
  match replies 0 with
  | .other => .error ("An Error occurred while fetching NodeID for ip: " ++ ipPort)
  | .getNodeID first =>
      let connResponse := retryLookup replies first 0 retries
      if connResponse.return_ ≠ 0 then .ok none
      else if connResponse.ip ≠ ipPort then
        .error ("Fetched IP (" ++ connResponse.ip ++
          ") from Sequencer did not match requested IP (" ++ ipPort ++ ")")
      else .ok (some connResponse.nodeId)

end Lookup

/-- `ProtoClient::isConnected`. -/
def isConnected (c : Client) (ipPort : String) : Bool := c.protoConnections ipPort

/-- `ProtoClient::connectProto`. -/
def connectProto (c : Client) (ipPort : String) : Client :=
  { c with protoConnections := Function.update c.protoConnections ipPort true }

/-- `requestNodeID`. The answer is the id in a `NodeIDResponse`, or a message
of another type. -/
def requestNodeID (c : Client) (answer : Option Nat) : Except String Nat × Client :=
  if isConnected c c.sequencerIpPort then (.ok c.ownNodeID, c)
  else
    let c := connectProto c c.sequencerIpPort
    match answer with
    | some nodeid => (.ok nodeid, c)
    | none => (.error ("RDMAClient could not request NodeID from NodeIDSequencer: " ++
        "received wrong response type"), c)

/-- The test and set of the peer's flag. False if the flag was set already. -/
def claim (c : Client) (nodeID : Nat) : Bool × Client :=
  if c.nodeIDsQPs nodeID = false then
    (true, { c with
      nodeIDsQPs := Function.update c.nodeIDsQPs nodeID true
      calls := Function.update c.calls nodeID .claimed })
  else (false, c)

/-- Create a queue pair that is no member yet and describe it in a request. -/
def connectSend (c : Client) (nodeID qpNum : Nat) (fault : Option Fault) :
    Except String ConnRequest × Client :=
  match initQPUnstored c.rdma none qpNum fault with
  | (.error e, rdma) =>
      (.error e, { c with rdma := rdma, calls := Function.update c.calls nodeID .returned })
  | (.ok (qp, localConn), rdma) =>
      (.ok ⟨localConn, c.ownNodeID⟩,
        { c with rdma := rdma, calls := Function.update c.calls nodeID (.waiting qp localConn) })

/-- An accepted queue pair becomes a member and is connected, a refused one is
destroyed. Either way `connect` returns true, unless a verb fails. -/
def connectReply (c : Client) (nodeID qp : Nat) (localConn : ConnData) (reply : ConnReply)
    (fault : Option Fault) : Except String Unit × Client :=
  let calls := Function.update c.calls nodeID .returned
  match reply with
  | .connResponse remoteConn =>
      let rdma := setLocalConnData (setQP c.rdma nodeID qp) nodeID localConn
      let (result, rdma) := connectQP (setRemoteConnData rdma nodeID remoteConn) nodeID
        (readsRemote_setRemoteConnData ..) fault
      (result, { c with rdma := rdma, calls := calls })
  | .errorMessage _ =>
      let (result, rdma) := destroyQP c.rdma qp fault
      (result, { c with rdma := rdma, calls := calls })

/-- `RDMAServer::connectQueue`. No answer stands for the return value false.
`currentSRQ` is `m_currentSRQ`, with `none` for `SIZE_MAX`. -/
def connectQueue (c : Client) (currentSRQ : Option Nat) (connRequest : ConnRequest)
    (qpNum : Nat) (fault : Option Fault) : Option ConnData × Client :=
  let nodeID := connRequest.nodeid
  if c.nodeIDsQPs nodeID = true ∧ nodeID < c.ownNodeID then (none, c)
  else
    let c := { c with nodeIDsQPs := Function.update c.nodeIDsQPs nodeID true }
    let created :=
      match currentSRQ with
      | none => initQPWithSuppliedID c.rdma nodeID qpNum fault
      | some srqID => initQPForSRQWithSuppliedID c.rdma srqID nodeID qpNum fault
    match created with
    | (.error _, rdma) => (none, { c with rdma := rdma })
    | (.ok (), rdma) =>
        match connectQP (setRemoteConnData rdma nodeID connRequest.conn) nodeID
          (readsRemote_setRemoteConnData ..) fault with
        | (.error _, rdma) => (none, { c with rdma := rdma })
        | (.ok (), rdma) => (some (rdma.lconns nodeID), { c with rdma := rdma })

/-- Which `connect` is meant. -/
inductive Variant where
  | plain
  | srq (srqId : Nat)
deriving DecidableEq, Repr

def Variant.retries : Variant → Nat
  | .plain => 150
  | .srq _ => 50

/-- What the other processes contribute to a call: the id the sequencer gives
out, its replies to the lookups, the number of the new queue pair, and what the
server answers. -/
structure Answers where
  nodeid : Option Nat
  lookup : Nat → SequencerReply
  qpNum : Nat
  reply : ConnReply

/-- `RDMAClient::connect` behind the flag. -/
def connectPlain (c : Client) (nodeID : Nat) (answers : Answers) : Except String Unit × Client :=
  match connectSend c nodeID answers.qpNum none with
  | (.error e, c) => (.error e, c)
  | (.ok _, c) =>
      match c.calls nodeID with
      | .waiting qp localConn => connectReply c nodeID qp localConn answers.reply none
      | _ => (.ok (), c)

/-- `RDMAClientSRQ::connect` behind the flag. The queue pair is a member from
the start, and `connectQP` is called whatever the server answers. Without an
answer it takes what `m_rconns` holds for the id. If the vector is too short, it
reads past its end, and the call has no outcome. -/
def connectSRQ (c : Client) (srqId nodeID : Nat) (answers : Answers) :
    Option (Except String Unit × Client) :=
  match initQPForSRQWithSuppliedID c.rdma srqId nodeID answers.qpNum none with
  | (.error e, rdma) =>
      some (.error e, { c with rdma := rdma, calls := Function.update c.calls nodeID .returned })
  | (.ok (), rdma) =>
      let rdma :=
        match answers.reply with
        | .connResponse remoteConn => setRemoteConnData rdma nodeID remoteConn
        | .errorMessage _ => rdma
      if hReads : ReadsRemote rdma nodeID then
        let (result, rdma) := connectQP rdma nodeID hReads none
        some (result, { c with rdma := rdma, calls := Function.update c.calls nodeID .returned })
      else none

def Variant.connectBehindFlag :
    Variant → Client → Nat → Answers → Option (Except String Unit × Client)
  | .plain => fun c nodeID answers => some (connectPlain c nodeID answers)
  | .srq srqId => fun c nodeID answers => connectSRQ c srqId nodeID answers

/-- The bookkeeping after a lookup that found a node id. -/
def recordNodeID (c : Client) (ipPort : String) (nodeID : Nat) : Client :=
  { c with
    nodeIDsConnection := Function.update c.nodeIDsConnection nodeID ipPort
    connections := Function.update c.connections ipPort (some nodeID) }

/-- The registration with the sequencer at the top of `connect`. -/
def register (c : Client) (answer : Option Nat) : Except String Unit × Client :=
  if isConnected c c.sequencerIpPort then (.ok (), c)
  else
    match requestNodeID c answer with
    | (.error e, c) => (.error e, c)
    | (.ok nodeid, c) => (.ok (), { c with ownNodeID := nodeid })

/-- `connect` of both classes, without interference of a server in the same
process. Returning true with the node id `i` is `some i`, returning false is
`none`. An absent key of `m_connections` reads as, and becomes, zero. The outer
`none` is a call that reads out of range. -/
def connect (variant : Variant) (c : Client) (ipPort : String) (answers : Answers) :
    Option (Except String (Option Nat) × Client) :=
  match register c answers.nodeid with
  | (.error e, c) => some (.error e, c)
  | (.ok (), c) =>
      if isConnected c ipPort then
        let nodeID := (c.connections ipPort).getD 0
        some (.ok (some nodeID),
          { c with connections := Function.update c.connections ipPort (some nodeID) })
      else
        let c := connectProto c ipPort
        match fetchNodeID answers.lookup variant.retries ipPort with
        | .error e => some (.error e, c)
        | .ok none => some (.ok none, c)
        | .ok (some nodeID) =>
            match claim (recordNodeID c ipPort nodeID) nodeID with
            | (false, c) => some (.ok (some nodeID), c)
            | (true, c) =>
                match variant.connectBehindFlag c nodeID answers with
                | none => none
                | some (.error e, c) => some (.error e, c)
                | some (.ok (), c) => some (.ok (some nodeID), c)

end RDMAClient
