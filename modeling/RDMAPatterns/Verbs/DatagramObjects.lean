import RDMAPatterns.Verbs.VerbObjects

/-! The objects that `UnreliableRDMA` gets from the verbs and the connection
manager. All connections share one queue pair and have an address handle each.
A multicast group has a queue pair and a protection domain of its own, and the
list of addresses that it was looked up in. -/
namespace DatagramObjects

open Calls Transition
open VerbObjects (IbQp createQueues destroyQueues storeQP)

inductive Kind where
  | pd
  | mr
  | cq
  | qp
  | ah
  | channel
  | cmId
  | addrInfo
  | cmQp
deriving DecidableEq

/-- An object with the handles of the objects it was created on. `cmQp` is the
queue pair of an identifier of the connection manager, `addrInfo` the list that
`rdma_getaddrinfo` allocates. -/
inductive Object where
  | pd
  | mr (domain : Nat)
  | cq
  | qp (domain sendCq recvCq : Nat)
  | ah (domain : Nat)
  | channel
  | cmId (events : Nat)
  | addrInfo
  | cmQp (id domain sendCq recvCq : Nat)
deriving DecidableEq

def Object.kind : Object → Kind
  | .pd => .pd
  | .mr _ => .mr
  | .cq => .cq
  | .qp .. => .qp
  | .ah _ => .ah
  | .channel => .channel
  | .cmId _ => .cmId
  | .addrInfo => .addrInfo
  | .cmQp .. => .cmQp

def Object.uses : Object → List (Kind × Nat)
  | .pd => []
  | .mr domain => [(.pd, domain)]
  | .cq => []
  | .qp domain sendCq recvCq => [(.pd, domain), (.cq, sendCq), (.cq, recvCq)]
  | .ah domain => [(.pd, domain)]
  | .channel => []
  | .cmId events => [(.channel, events)]
  | .addrInfo => []
  | .cmQp id domain sendCq recvCq =>
      [(.cmId, id), (.pd, domain), (.cq, sendCq), (.cq, recvCq)]

abbrev Device := Lifetimes.Store Object.kind Object.uses

/-- The handles of `rdma_mcast_conn_t`; `qp` is the one behind `id`. A vector
entry that was never written is all zero. -/
structure McastConn where
  channel : Nat := 0
  id : Nat := 0
  pd : Nat := 0
  mr : Nat := 0
  scq : Nat := 0
  rcq : Nat := 0
  qp : Nat := 0
  ah : Nat := 0
  active : Bool := false
deriving DecidableEq

/-- `rconnsSize` is the size of `m_rconns`. -/
structure UnreliableRDMA where
  device : Device
  pd : Nat
  mr : Nat
  udqp : Option IbQp := none
  qps : List (Option IbQp) := []
  rconnsSize : Nat := 0
  connected : Nat → Bool := fun _ => false
  mcastConns : List McastConn := []
  lastMCastConnKey : Nat := 0

/-- The verb that fails in a call. -/
inductive Fault where
  | sendCq
  | recvCq
  | createQp
  | toInit
  | toRTR
  | toRTS
  | ah
  | channel
  | cmId
  | addrInfo
  | resolve
  | resolved
  | pd
  | mr
  | cmQp
  | join
  | joined
  | leave
deriving DecidableEq

abbrev UDCall := Call UnreliableRDMA String

def keeper : Lifetimes.Keeper UnreliableRDMA Object.kind Object.uses where
  store := UnreliableRDMA.device
  keep s d := { s with device := d }
  store_keep _ _ := rfl
  keep_keep _ _ _ := rfl
  keep_store _ := rfl

def create (value : Object) : UDCall Nat := keeper.create value

/-- What a verb returns that may fail: a null pointer. -/
def createUnless (fails : Prop) [Decidable fails] (value : Object) : UDCall Nat :=
  if fails then pure 0 else create value

def destroy (kind : Kind) (handle : Nat) : UDCall Bool := keeper.destroy kind handle

/-- Where the program has no defined behaviour. -/
def undefined {α : Type} : UDCall α := .operation fun _ => none

/-- The protection domain and the memory region of `createBuffer`. -/
def createBuffer : UnreliableRDMA where
  device := (Lifetimes.Store.empty.add .pd (by simp [Object.uses])).add (.mr 0) (by decide)
  pd := 0
  mr := 1

def setQP (rdmaConnID : Nat) (qp : IbQp) : UDCall Unit :=
  modify fun s => { s with qps := storeQP s.qps rdmaConnID qp }

/-- The part that both forms of `initQPWithSuppliedID` have in common. The queue
pair is created only once. -/
def initQPUnstored (fault : Option Fault) : UDCall IbQp := do
  let s ← get
  match s.udqp with
  | some qp => return qp
  | none =>
      let cqs ← createQueues (create .cq) (fault = some .sendCq) (fault = some .recvCq)
      throwIf (fault = some .createQp) "Cannot create queue pair!"
      let qp ← create (.qp s.pd cqs.1 cqs.2)
      modify fun s => { s with udqp := some ⟨qp, cqs.1, cqs.2⟩ }
      throwIf (fault = some .toInit) "Failed modifyQPToInit!"
      throwIf (fault = some .toRTR) "Failed modifyQPToRTR!"
      throwIf (fault = some .toRTS) "Failed modifyQPToRTS!"
      return ⟨qp, cqs.1, cqs.2⟩

/-- `initQPWithSuppliedID`. -/
def initQPWithSuppliedID (rdmaConnID : Nat) (fault : Option Fault) : UDCall Unit := do
  let qp ← initQPUnstored fault
  setQP rdmaConnID qp

/-- `initQP`. -/
def initQP (fault : Option Fault) : UDCall Nat := do
  let s ← get
  initQPWithSuppliedID s.qps.length fault
  return s.qps.length

/-- `setRemoteConnData`. The vector grows as far as it is written. -/
def setRemoteConnData (rdmaConnID : Nat) : UDCall Unit :=
  modify fun s => { s with rconnsSize := max s.rconnsSize (rdmaConnID + 1) }

/-- `connectQP`. It reads its entry of `m_rconns` and writes the address handle there.
It does not look whether it got one, and only sends ever use it. -/
def connectQP (rdmaConnID : Nat) (fault : Option Fault) : UDCall Unit := do
  let s ← get
  if s.connected rdmaConnID then return
  else if rdmaConnID < s.rconnsSize then
    let _ ← createUnless (fault = some .ah) (.ah s.pd)
    modify fun s => { s with connected := Function.update s.connected rdmaConnID true }
  else undefined

/-- `m_udpMcastConns` of `setMCastConn`, which first grows until it has the entry. -/
def storeMCastConn (conns : List McastConn) (rdmaConnID : Nat) (conn : McastConn) :
    List McastConn :=
  (conns ++ List.replicate (rdmaConnID + 1 - conns.length) ({} : McastConn)).set rdmaConnID conn

/-- `setMCastConn`. -/
def setMCastConn (rdmaConnID : Nat) (conn : McastConn) : UDCall Unit :=
  modify fun s => { s with mcastConns := storeMCastConn s.mcastConns rdmaConnID conn }

/-- The objects of a multicast group, up to the join. Nobody keeps the list of
addresses, and nobody frees it. -/
def createMCastConn (fault : Option Fault) : UDCall McastConn := do
  throwIf (fault = some .channel) "Could not create event channel for multicast!"
  let channel ← create .channel
  throwIf (fault = some .cmId) "Could not create connection for multicast!"
  let id ← create (.cmId channel)
  throwIf (fault = some .addrInfo) "Could not resolve info for multicast address (1)!"
  let _ ← create .addrInfo
  throwIf (fault = some .resolve) "Could not resolve info for multicast address (2)!"
  throwIf (fault = some .resolved) "rdma_get_cm_event failed!"
  throwIf (fault = some .pd) "Could not create multicast protection domain!"
  let pd ← create .pd
  throwIf (fault = some .mr) "Could not assign memory region to multicast protection domain!"
  let mr ← create (.mr pd)
  -- both queues are asked for before either is looked at
  let scq ← createUnless (fault = some .sendCq) .cq
  let rcq ← createUnless (fault = some .recvCq) .cq
  throwIf (fault = some .sendCq ∨ fault = some .recvCq)
    "Could not create multicast completion queues!"
  throwIf (fault = some .cmQp) "Could not create multicast queue pairs!"
  let qp ← create (.cmQp id pd scq rcq)
  return { channel, id, pd, mr, scq, rcq, qp }

/-- `joinMCastGroup`. The address handle is on the domain of the object. -/
def joinMCastGroup (fault : Option Fault) : UDCall Nat := do
  let s ← get
  modify fun s => { s with lastMCastConnKey := s.lastMCastConnKey + 1 }
  let conn ← createMCastConn fault
  throwIf (fault = some .join) "Could not join multicast group (1)!"
  throwIf (fault = some .joined) "rdma_get_cm_event failed!"
  throwIf (fault = some .ah) "Could not join multicast address handle!"
  let ah ← create (.ah s.pd)
  setMCastConn s.lastMCastConnKey { conn with ah, active := true }
  return s.lastMCastConnKey

/-- What `leaveMCastGroup` destroys, in its order. -/
def McastConn.parts (conn : McastConn) : List (Kind × Nat) :=
  [(.ah, conn.ah), (.cmQp, conn.qp), (.cq, conn.scq), (.cq, conn.rcq), (.mr, conn.mr),
    (.pd, conn.pd), (.cmId, conn.id), (.channel, conn.channel)]

/-- `leaveMCastGroup`. What the verbs return is not looked at. -/
def leaveMCastGroup (rdmaConnID : Nat) (fault : Option Fault) : UDCall Unit := do
  let s ← get
  if s.mcastConns = [] then return
  else
    match s.mcastConns[rdmaConnID]? with
    | none => undefined
    | some conn =>
        if conn.active = false then return
        else
          throwIf (fault = some .leave)
            ("Did not leave rdma multicast successfully. rdmaConnID: " ++ toString rdmaConnID)
          keeper.destroyEach conn.parts
          modify fun s =>
            { s with mcastConns := s.mcastConns.set rdmaConnID { conn with active := false } }

/-- `destroyQPs`. There never is a queue pair in `m_udqpMgmt`. -/
def destroyQPs : UDCall Unit := do
  let s ← get
  match s.udqp with
  | none => return
  | some q =>
      let ended ← destroy .qp q.qp
      throwIf (¬ ended) "Error, ibv_destroy_qp() failed"
      destroyQueues (destroy .cq) q.sendCq q.recvCq
      modify fun s => { s with udqp := none }

/-- `~BaseRDMA`. -/
def destroyBase : UDCall Unit := do
  let s ← get
  let _ ← destroy .mr s.mr
  let _ ← destroy .pd s.pd
  return

/-- `~UnreliableRDMA`, and then `~BaseRDMA`. -/
def destructor : UDCall Unit := do
  let s ← get
  (List.range s.mcastConns.length).forM fun mcastID => leaveMCastGroup mcastID none
  destroyQPs
  modify fun s => { s with qps := [] }
  destroyBase

inductive Action where
  | initQP (fault : Option Fault)
  | initQPWithSuppliedID (rdmaConnID : Nat) (fault : Option Fault)
  /-- `connect` up to the request. A rejection is not a step: `connect` then
  dereferences a null pointer, as it was given the address of `m_udqp`. -/
  | connectInit (fault : Option Fault)
  /-- `connect` after an `RDMAConnResponse`. -/
  | accepted (rdmaConnID : Nat)
  | setRemoteConnData (rdmaConnID : Nat)
  | connectQP (rdmaConnID : Nat) (fault : Option Fault)
  | joinMCastGroup (fault : Option Fault)
  | leaveMCastGroup (rdmaConnID : Nat) (fault : Option Fault)
deriving DecidableEq

def ignoring {α : Type} (call : UDCall α) : UDCall Unit := do
  let _ ← call
  return

/-- What a step calls. Only a connection whose data were set is connected. A group
that is left has a number below the length of the vector. Those are the numbers of
the joins that returned, and of joins that failed before one of them. -/
def perform (s : UnreliableRDMA) : Action → Option (UDCall Unit)
  | .initQP fault => some (ignoring (initQP fault))
  | .initQPWithSuppliedID rdmaConnID fault => some (initQPWithSuppliedID rdmaConnID fault)
  | .connectInit fault => some (ignoring (initQPUnstored fault))
  | .accepted rdmaConnID => s.udqp.map fun qp => do
      setQP rdmaConnID qp
      setRemoteConnData rdmaConnID
  | .setRemoteConnData rdmaConnID => some (setRemoteConnData rdmaConnID)
  | .connectQP rdmaConnID fault =>
      if s.connected rdmaConnID = true ∨ rdmaConnID < s.rconnsSize then
        some (connectQP rdmaConnID fault)
      else none
  | .joinMCastGroup fault => some (ignoring (joinMCastGroup fault))
  | .leaveMCastGroup rdmaConnID fault =>
      if rdmaConnID < s.mcastConns.length then some (leaveMCastGroup rdmaConnID fault) else none

/-- One object from the end of `createBuffer` on. The first call is the
`initQPWithSuppliedID(0)` of its constructor. -/
def lifeMachine : Machine UnreliableRDMA Action where
  init := createBuffer
  next s a := (perform s a).bind fun call => (call.outcome s).map Prod.snd

end DatagramObjects
