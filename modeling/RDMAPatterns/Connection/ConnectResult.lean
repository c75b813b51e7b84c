import RDMAPatterns.Connection.LinkSteps
import RDMAPatterns.Transition.Progress

/-! What the return value of `connect` means to a pure client. A control
connection, the mapping of an address and the flag of a node id are recorded
before the steps that may fail. So a call can return true for an address that
was never connected, and a call that returns false leaves an open address to
the next one. The calls that do neither are characterized exactly. -/
namespace RDMAClient

open References ReliableRDMA Transition

/-- A client with the history of what it was told: the node ids the sequencer
reported for an address, and the data servers at an address answered with. -/
structure Session where
  client : Client := {}
  reported : List (String × Nat) := []
  responses : List (String × ConnData) := []

section Calls

variable (variant : Variant) (c : Client) (ipPort : String) (answers : Answers)

/-- The node id the sequencer reports in a call, if the call gets to ask. -/
def lookedUp : Option Nat :=
  match register c answers.nodeid with
  | (.error _, _) => none
  | (.ok (), c) =>
      if isConnected c ipPort then none
      else
        match fetchNodeID answers.lookup variant.retries ipPort with
        | .ok (some nodeID) => some nodeID
        | _ => none

/-- The data the server answers with in a call, if the call gets to ask. -/
def answered : Option ConnData :=
  match lookedUp variant c ipPort answers with
  | none => none
  | some nodeID =>
      if c.nodeIDsQPs nodeID = false then
        match answers.reply with
        | .connResponse conn => some conn
        | .errorMessage _ => none
      else none

end Calls

structure ConnectCall where
  ipPort : String
  answers : Answers

/-- The session after a call that was told these things and left this client. -/
def Session.after (s : Session) (ipPort : String) (reported : Option Nat)
    (response : Option ConnData) (client : Client) : Session where
  client := client
  reported := s.reported ++ reported.toList.map (ipPort, ·)
  responses := s.responses ++ response.toList.map (ipPort, ·)

/-- A call of `connect` with its return value. No outcome is a call that reads
past the end of `m_rconns`. -/
def Session.connect (variant : Variant) (s : Session) (call : ConnectCall) :
    Option (Except String (Option Nat) × Session) :=
  (RDMAClient.connect variant s.client call.ipPort call.answers).map fun (result, client) =>
    (result, s.after call.ipPort (lookedUp variant s.client call.ipPort call.answers)
      (answered variant s.client call.ipPort call.answers) client)

/-- A client process, calling `connect` of one of the two classes. -/
def clientMachine (variant : Variant) (sequencerIpPort : String) :
    Machine Session ConnectCall where
  init := { client := { sequencerIpPort := sequencerIpPort } }
  next s call := (s.connect variant call).map Prod.snd

/-- The queue pair stored for the node id was connected with this data. -/
def ConnectedWith (c : Client) (nodeID : Nat) (conn : ConnData) : Prop :=
  ∃ qp, c.rdma.qps nodeID = some qp ∧ (c.rdma.heap.cell qp).state = .rts ∧
    (c.rdma.heap.cell qp).destQpNum = conn.qpNum

/-- The sequencer reported the id for the address, and its queue pair was
connected with an answer of the server there. -/
def Genuine (s : Session) (ipPort : String) (nodeID : Nat) : Prop :=
  (ipPort, nodeID) ∈ s.reported ∧
    ∃ conn, (ipPort, conn) ∈ s.responses ∧ ConnectedWith s.client nodeID conn

/-- Whatever is called from here on, a call for the address that returns true
has connected it. -/
def LeavesNoTrace (variant : Variant) (s : Session) (ipPort : String) : Prop :=
  ∀ later, (clientMachine variant s.client.sequencerIpPort).Leads s later →
    ∀ answers nodeID t, later.connect variant ⟨ipPort, answers⟩ = some (.ok (some nodeID), t) →
      Genuine t ipPort nodeID

/-- What a return value promises in the state it comes with. An exception
promises nothing. -/
def HonestResult (variant : Variant) (after : Session) (ipPort : String) :
    Except String (Option Nat) → Prop
  | .error _ => True
  | .ok none => LeavesNoTrace variant after ipPort
  | .ok (some nodeID) => Genuine after ipPort nodeID

/-- If the call returns, it keeps what its value promises. -/
def Honest (variant : Variant) (s : Session) (call : ConnectCall) : Prop :=
  ∀ result after, s.connect variant call = some (result, after) →
    HonestResult variant after call.ipPort result

/-- The address has a control connection by the time it is looked at. -/
def Known (c : Client) (ipPort : String) : Prop :=
  c.protoConnections ipPort = true ∨ ipPort = c.sequencerIpPort

instance (c : Client) (ipPort : String) : Decidable (Known c ipPort) :=
  inferInstanceAs (Decidable (_ ∨ _))

/-- The call fails to register, or the address has a control connection and a
node id, or the address is new and the lookup throws or leads to a node id without
a flag and a server that accepts. -/
def Clean (variant : Variant) (c : Client) (call : ConnectCall) : Prop :=
  (c.protoConnections c.sequencerIpPort = false ∧ call.answers.nodeid = none) ∨
    if Known c call.ipPort then (c.connections call.ipPort).isSome = true
    else
      match fetchNodeID call.answers.lookup variant.retries call.ipPort with
      | .error _ => True
      | .ok none => False
      | .ok (some nodeID) =>
          c.nodeIDsQPs nodeID = false ∧ ∃ conn, call.answers.reply = .connResponse conn

/-- What no call takes back or touches. -/
structure Grows (c d : Client) : Prop where
  proto : ∀ address, c.protoConnections address = true → d.protoConnections address = true
  sequencer : d.sequencerIpPort = c.sequencerIpPort

/-- The queue pairs and what goes with them are as before. -/
structure Idle (c d : Client) : Prop where
  rdma : d.rdma = c.rdma
  flags : d.nodeIDsQPs = c.nodeIDsQPs
  calls : d.calls = c.calls

/-- A call from `c` ends in `d`. The node id and the data come from outside. -/
inductive ConnectStep (variant : Variant) (c : Client) (ipPort : String) (answers : Answers) :
    Option Nat → Option ConnData → Except String (Option Nat) → Client → Prop where
  | unregistered {d : Client} (e : String) (hClosed : c.protoConnections c.sequencerIpPort = false)
      (hAnswer : answers.nodeid = none) (hIdle : Idle c d) (hGrows : Grows c d)
      (hConnections : d.connections = c.connections) :
      ConnectStep variant c ipPort answers none none (.error e) d
  | known {d : Client}
      (hRegistered : ¬ (c.protoConnections c.sequencerIpPort = false ∧ answers.nodeid = none))
      (hKnown : Known c ipPort) (hIdle : Idle c d) (hGrows : Grows c d)
      (hConnections : d.connections = Function.update c.connections ipPort
        (some ((c.connections ipPort).getD 0))) :
      ConnectStep variant c ipPort answers none none
        (.ok (some ((c.connections ipPort).getD 0))) d
  | failed {d : Client} (e : String) (hNew : ¬ Known c ipPort)
      (hLookup : fetchNodeID answers.lookup variant.retries ipPort = .error e)
      (hIdle : Idle c d) (hGrows : Grows c d) (hConnections : d.connections = c.connections) :
      ConnectStep variant c ipPort answers none none (.error e) d
  | unfound {d : Client}
      (hRegistered : ¬ (c.protoConnections c.sequencerIpPort = false ∧ answers.nodeid = none))
      (hNew : ¬ Known c ipPort)
      (hLookup : fetchNodeID answers.lookup variant.retries ipPort = .ok none)
      (hIdle : Idle c d) (hGrows : Grows c d) (hConnections : d.connections = c.connections)
      (hOpen : d.protoConnections ipPort = true)
      (hSequencer : d.protoConnections d.sequencerIpPort = true) :
      ConnectStep variant c ipPort answers none none (.ok none) d
  | taken {d : Client} (nodeID : Nat)
      (hRegistered : ¬ (c.protoConnections c.sequencerIpPort = false ∧ answers.nodeid = none))
      (hNew : ¬ Known c ipPort)
      (hLookup : fetchNodeID answers.lookup variant.retries ipPort = .ok (some nodeID))
      (hFlag : c.nodeIDsQPs nodeID = true) (hIdle : Idle c d) (hGrows : Grows c d)
      (hConnections : d.connections = Function.update c.connections ipPort (some nodeID)) :
      ConnectStep variant c ipPort answers (some nodeID) none (.ok (some nodeID)) d
  | opened {d : Client} (nodeID : Nat) (l : Link)
      (hRegistered : ¬ (c.protoConnections c.sequencerIpPort = false ∧ answers.nodeid = none))
      (hNew : ¬ Known c ipPort)
      (hLookup : fetchNodeID answers.lookup variant.retries ipPort = .ok (some nodeID))
      (hFlag : c.nodeIDsQPs nodeID = false) (hOnly : Client.OnlyAt nodeID c d l)
      (hFlags : d.nodeIDsQPs = Function.update c.nodeIDsQPs nodeID true) (hGrows : Grows c d)
      (hOpen : d.protoConnections ipPort = true)
      (hConnections : d.connections = Function.update c.connections ipPort (some nodeID))
      (response : Option ConnData)
      (hResponse : ∀ conn, response = some conn ↔ answers.reply = .connResponse conn)
      (hLink : ∀ conn, response = some conn → ∃ q, l.qp = some q ∧ q.state = .rts ∧
        q.destQpNum = conn.qpNum) :
      ConnectStep variant c ipPort answers (some nodeID) response (.ok (some nodeID)) d

/-- The first thing in a call. Whether it succeeds or not, the sequencer has a
control connection afterwards. -/
theorem register_cases (c : Client) (answer : Option Nat) :
    (c.protoConnections c.sequencerIpPort = false ∧ answer = none ∧
        ∃ e, register c answer = (.error e, connectProto c c.sequencerIpPort)) ∨
      (¬ (c.protoConnections c.sequencerIpPort = false ∧ answer = none) ∧
        ∃ own, register c answer =
          (.ok (), { connectProto c c.sequencerIpPort with ownNodeID := own })) := by
  cases hConnected : c.protoConnections c.sequencerIpPort with
  | true =>
      refine .inr ⟨by simp, c.ownNodeID, ?_⟩
      have hSame : Function.update c.protoConnections c.sequencerIpPort true =
          c.protoConnections := by
        rw [← hConnected, Function.update_eq_self]
      rw [register, isConnected, if_pos hConnected, connectProto, hSame]
  | false =>
      have hNot : ¬ isConnected c c.sequencerIpPort = true := by simp [isConnected, hConnected]
      cases answer with
      | none =>
          exact .inl ⟨rfl, rfl, _, by
            simp only [register, if_neg hNot, requestNodeID]
            rfl⟩
      | some nodeid =>
          refine .inr ⟨by simp, nodeid, ?_⟩
          rw [register, if_neg hNot, requestNodeID, if_neg hNot]

theorem isConnected_connectProto (c : Client) (address ipPort : String) :
    isConnected (connectProto c address) ipPort = true ↔
      c.protoConnections ipPort = true ∨ ipPort = address := by
  by_cases hSame : ipPort = address
  · simp [isConnected, connectProto, hSame]
  · simp [isConnected, connectProto, hSame]

section BehindFlag

variable {c : Client} (h : c.Owned) {nodeID : Nat} (hNew : c.rdma.connected nodeID = false)
  (answers : Answers)

/-- What a call behind the flag comes to: it returns, changes one link, and an
accepted queue pair is connected with the answer. -/
structure Opens (c : Client) (nodeID : Nat) (answers : Answers)
    (outcome : Except String Unit × Client) : Prop where
  returns : outcome.1 = .ok ()
  link : ∃ l, Client.OnlyAt nodeID c outcome.2 l ∧
    ∀ conn, answers.reply = .connResponse conn → ∃ q, l.qp = some q ∧ q.state = .rts ∧
      q.destQpNum = conn.qpNum
  flags : outcome.2.nodeIDsQPs = c.nodeIDsQPs
  connections : outcome.2.connections = c.connections
  proto : outcome.2.protoConnections = c.protoConnections
  sequencer : outcome.2.sequencerIpPort = c.sequencerIpPort

theorem except_eq_ok {result : Except String Unit} (hOk : result.isOk = true) :
    result = .ok () := by
  cases result with
  | error e => cases hOk
  | ok value => rfl

include h

/-- The members `connectSRQ` hands to `connectQP`, if that may read its entry. -/
theorem connectSRQ_prepares (srqId : Nat) :
    ∃ rdma remoteConn,
      connectSRQ c srqId nodeID answers =
        (if hReads : ReadsRemote rdma nodeID then
          some ((connectQP rdma nodeID hReads none).1,
            { c with
              rdma := (connectQP rdma nodeID hReads none).2
              calls := Function.update c.calls nodeID .returned })
        else none) ∧
      Client.OnlyAt nodeID c { c with rdma := rdma }
        { c.link nodeID with
          qp := some (freshQp (some srqId) answers.qpNum)
          lconn := localConnData c.rdma answers.qpNum
          rconn := remoteConn } ∧
      ∀ conn, answers.reply = .connResponse conn → remoteConn = conn ∧ ReadsRemote rdma nodeID := by
  have hStored := @Client.onlyAt_stored _
    { c with rdma := stored c.rdma (some srqId) nodeID answers.qpNum } h nodeID (some srqId)
    answers.qpNum rfl rfl rfl
  have hInit : initQPForSRQWithSuppliedID c.rdma srqId nodeID answers.qpNum none =
      (.ok (), stored c.rdma (some srqId) nodeID answers.qpNum) :=
    initQPStored_ok c.rdma (some srqId) nodeID answers.qpNum (by decide)
  cases hAnswer : answers.reply with
  | connResponse conn =>
      refine ⟨setRemoteConnData (stored c.rdma (some srqId) nodeID answers.qpNum) nodeID conn, conn,
        ?_, ?_, fun other hOther =>
          ⟨ConnReply.connResponse.inj hOther, readsRemote_setRemoteConnData ..⟩⟩
      · rw [connectSRQ, hInit]
        simp only [hAnswer]
      · have hRemote := @Client.onlyAt_remote _ { c with
          rdma := setRemoteConnData (stored c.rdma (some srqId) nodeID answers.qpNum) nodeID conn }
          hStored.owned nodeID conn rfl rfl rfl
        rw [hStored.here] at hRemote
        exact hStored.trans hRemote
  | errorMessage code =>
      refine ⟨stored c.rdma (some srqId) nodeID answers.qpNum, c.rdma.rconns nodeID, ?_, hStored,
        fun other hOther => by cases hOther⟩
      rw [connectSRQ, hInit]
      simp only [hAnswer]

include hNew

/-- Without a flag, the queue pair is connected when the server has answered. -/
theorem connectPlain_opens : Opens c nodeID answers (connectPlain c nodeID answers) := by
  obtain ⟨_, hSend⟩ := Client.connectSend_link h nodeID answers.qpNum none
  obtain ⟨d, hd⟩ : ∃ d, connectSend c nodeID answers.qpNum none =
      (.ok ⟨localConnData c.rdma answers.qpNum, c.ownNodeID⟩, d) ∧
        d.calls nodeID = .waiting c.rdma.heap.created (localConnData c.rdma answers.qpNum) ∧
        d.nodeIDsQPs = c.nodeIDsQPs ∧ d.connections = c.connections ∧
        d.protoConnections = c.protoConnections ∧ d.sequencerIpPort = c.sequencerIpPort := by
    rw [connectSend, initQPUnstored_ok _ _ _ (by decide)]
    exact ⟨_, rfl, by simp, rfl, rfl, rfl, rfl⟩
  obtain ⟨hSent, hCall, hFlags, hConnections, hProto, hSequencer⟩ := hd
  rw [hSent, Link.send_ok] at hSend
  obtain ⟨hResult, hReply⟩ := Client.connectReply_link hSend.owned nodeID hCall answers.reply none
  rw [hSend.here] at hResult hReply
  have hPlain : connectPlain c nodeID answers =
      connectReply d nodeID c.rdma.heap.created (localConnData c.rdma answers.qpNum)
        answers.reply none := by
    rw [connectPlain, hSent]
    simp only [hCall]
  rw [hPlain]
  cases hAnswer : answers.reply with
  | connResponse conn =>
      rw [hAnswer, Link.reply_accepts (by exact hNew) rfl] at hResult hReply
      refine ⟨except_eq_ok hResult, ⟨_, hSend.trans hReply, ?_⟩, hFlags, hConnections, hProto,
        hSequencer⟩
      intro other hOther
      rw [hAnswer] at hOther
      obtain rfl := ConnReply.connResponse.inj hOther
      exact ⟨_, rfl, rfl, rfl⟩
  | errorMessage code =>
      rw [hAnswer, Link.reply_refused] at hResult hReply
      refine ⟨except_eq_ok hResult, ⟨_, hSend.trans hReply, ?_⟩, hFlags, hConnections, hProto,
        hSequencer⟩
      intro other hOther
      rw [hAnswer] at hOther
      cases hOther

/-- The queue pair of the other class is connected even after a refusal, with
whatever `m_rconns` holds. -/
theorem connectSRQ_opens (srqId : Nat) {outcome : Except String Unit × Client}
    (hOutcome : connectSRQ c srqId nodeID answers = some outcome) :
    Opens c nodeID answers outcome := by
  obtain ⟨rdma, remoteConn, hSRQ, hPrepared, hRemote⟩ := connectSRQ_prepares h answers srqId
  by_cases hReads : ReadsRemote rdma nodeID
  · rw [hSRQ, dif_pos hReads] at hOutcome
    obtain rfl := Option.some.inj hOutcome
    obtain ⟨hResult, hConnect⟩ := Client.connectQP_link hPrepared.owned nodeID hReads none
    rw [hPrepared.here, Link.connectQP_some (by exact hNew) rfl, if_neg (by simp),
      if_neg (by simp)] at hResult hConnect
    have hConnected := hPrepared.trans
      (hConnect { c with rdma := (connectQP rdma nodeID hReads none).2 } rfl rfl rfl)
    have hReturned := @Client.onlyAt_call _ { c with
        rdma := (connectQP rdma nodeID hReads none).2
        calls := Function.update c.calls nodeID .returned } hConnected.owned nodeID .returned rfl rfl
      rfl rfl
    rw [hConnected.here] at hReturned
    refine ⟨except_eq_ok hResult, ⟨_, hConnected.trans hReturned, ?_⟩, rfl, rfl, rfl, rfl⟩
    intro conn hAnswer
    obtain rfl := (hRemote conn hAnswer).1
    exact ⟨_, rfl, rfl, rfl⟩
  · rw [hSRQ, dif_neg hReads] at hOutcome
    cases hOutcome

/-- Behind the flag of the node, if that is free, the queue pair is connected when the
server has answered. -/
theorem connectBehindFlag_opens (variant : Variant) {outcome : Except String Unit × Client}
    (hOutcome : variant.connectBehindFlag c nodeID answers = some outcome) :
    Opens c nodeID answers outcome := by
  cases variant with
  | plain =>
      obtain rfl := Option.some.inj hOutcome
      exact connectPlain_opens h hNew answers
  | srq srqId => exact connectSRQ_opens h hNew answers srqId hOutcome

omit hNew in
/-- A server that accepts makes `m_rconns` long enough. -/
theorem connectBehindFlag_returns (variant : Variant) {conn : ConnData}
    (hReply : answers.reply = .connResponse conn) :
    ∃ outcome, variant.connectBehindFlag c nodeID answers = some outcome := by
  cases variant with
  | plain => exact ⟨_, rfl⟩
  | srq srqId =>
      obtain ⟨rdma, _, hSRQ, _, hRemote⟩ := connectSRQ_prepares h answers srqId
      exact ⟨_, hSRQ.trans (dif_pos (hRemote conn hReply).2)⟩

end BehindFlag

theorem grows_connectProto (c : Client) (address : String) :
    Grows c (connectProto c address) where
  sequencer := rfl
  proto other hOpen := by
    by_cases hSame : other = address
    · simp [connectProto, hSame]
    · simp [connectProto, hSame, hOpen]

/-- The client once its registration and the control connection to a new
address are recorded. -/
def reached (c : Client) (own : Nat) (ipPort : String) : Client :=
  connectProto { connectProto c c.sequencerIpPort with ownNodeID := own } ipPort

theorem grows_reached (c : Client) (own : Nat) (ipPort : String) :
    Grows c (reached c own ipPort) where
  sequencer := rfl
  proto other hOpen :=
    (grows_connectProto _ ipPort).proto other ((grows_connectProto c _).proto other hOpen)

/-- The address itself is connected to when the lookup begins. -/
theorem reached_open (c : Client) (own : Nat) (ipPort : String) :
    (reached c own ipPort).protoConnections ipPort = true := Function.update_self _ _ _

theorem reached_sequencer (c : Client) (own : Nat) (ipPort : String) :
    (reached c own ipPort).protoConnections (reached c own ipPort).sequencerIpPort = true :=
  (grows_connectProto _ ipPort).proto _ (Function.update_self ..)

/-- A call to a new address, once the client is registered. -/
theorem connect_new {variant : Variant} {c : Client} {ipPort : String} {answers : Answers}
    {own : Nat} (hNew : ¬ Known c ipPort)
    (hRegister : register c answers.nodeid =
      (.ok (), { connectProto c c.sequencerIpPort with ownNodeID := own })) :
    connect variant c ipPort answers =
      match fetchNodeID answers.lookup variant.retries ipPort with
      | .error e => some (.error e, reached c own ipPort)
      | .ok none => some (.ok none, reached c own ipPort)
      | .ok (some nodeID) =>
          match claim (recordNodeID (reached c own ipPort) ipPort nodeID) nodeID with
          | (false, c) => some (.ok (some nodeID), c)
          | (true, c) =>
              match variant.connectBehindFlag c nodeID answers with
              | none => none
              | some (.error e, c) => some (.error e, c)
              | some (.ok (), c) => some (.ok (some nodeID), c) := by
  have hNot : ¬ isConnected { connectProto c c.sequencerIpPort with ownNodeID := own } ipPort =
      true := fun hConnected => hNew ((isConnected_connectProto c _ ipPort).mp hConnected)
  rw [connect, hRegister]
  simp only [if_neg hNot]
  rfl

/-- A call for a new address registers and asks the sequencer for the id. -/
theorem lookedUp_new {variant : Variant} {c : Client} {ipPort : String} {answers : Answers}
    {own : Nat} (hNew : ¬ Known c ipPort)
    (hRegister : register c answers.nodeid =
      (.ok (), { connectProto c c.sequencerIpPort with ownNodeID := own })) :
    lookedUp variant c ipPort answers =
      match fetchNodeID answers.lookup variant.retries ipPort with
      | .ok (some nodeID) => some nodeID
      | _ => none := by
  have hNot : ¬ isConnected { connectProto c c.sequencerIpPort with ownNodeID := own } ipPort =
      true := fun hConnected => hNew ((isConnected_connectProto c _ ipPort).mp hConnected)
  rw [lookedUp, hRegister]
  simp only [if_neg hNot]

section Steps

variable {variant : Variant} {c : Client} (h : c.Owned)
  (hFresh : ∀ nodeID, c.nodeIDsQPs nodeID = false → c.rdma.connected nodeID = false)
  {ipPort : String} {answers : Answers} {own nodeID : Nat}

/-- The client that takes the flag of a node id it has found. -/
theorem claimed_link (h : c.Owned) (hFlag : c.nodeIDsQPs nodeID = false) :
    ∃ d l, claim (recordNodeID (reached c own ipPort) ipPort nodeID) nodeID = (true, d) ∧
      Client.OnlyAt nodeID c d l ∧ d.rdma = c.rdma ∧
      d.nodeIDsQPs = Function.update c.nodeIDsQPs nodeID true ∧
      d.connections = Function.update c.connections ipPort (some nodeID) ∧
      d.protoConnections = (reached c own ipPort).protoConnections ∧
      d.sequencerIpPort = c.sequencerIpPort := by
  have hRecorded : Client.OnlyAt nodeID c (recordNodeID (reached c own ipPort) ipPort nodeID) _ :=
    Client.onlyAt_same h rfl rfl rfl
  obtain ⟨_, hClaim⟩ := Client.claim_link hRecorded.owned nodeID
  rw [claim, if_pos (by exact hFlag)] at hClaim ⊢
  exact ⟨_, _, rfl, hRecorded.trans hClaim, rfl, rfl, rfl, rfl, rfl⟩

include h hFresh

/-- A call that finds a node id whose flag is not set. -/
theorem opened_step (hNew : ¬ Known c ipPort)
    (hRegistered : ¬ (c.protoConnections c.sequencerIpPort = false ∧ answers.nodeid = none))
    (hRegister : register c answers.nodeid =
      (.ok (), { connectProto c c.sequencerIpPort with ownNodeID := own }))
    (hFetch : fetchNodeID answers.lookup variant.retries ipPort = .ok (some nodeID))
    (hFlag : c.nodeIDsQPs nodeID = false) {result : Except String (Option Nat)} {after : Client}
    (hOutcome : connect variant c ipPort answers = some (result, after)) :
    ConnectStep variant c ipPort answers (some nodeID) (answered variant c ipPort answers)
      result after := by
  obtain ⟨d, claimed, hClaimed, hClaim, hRdma, hFlags, hConnections, hProto, hSequencer⟩ :=
    @claimed_link c ipPort own nodeID h hFlag
  rw [connect_new hNew hRegister, hFetch] at hOutcome
  simp only [hClaimed] at hOutcome
  cases hBehind : variant.connectBehindFlag d nodeID answers with
  | none =>
      rw [hBehind] at hOutcome
      cases hOutcome
  | some outcome =>
      obtain ⟨value, e⟩ := outcome
      have hOpens := connectBehindFlag_opens hClaim.owned
        (by rw [hRdma]; exact hFresh nodeID hFlag) answers variant hBehind
      obtain rfl : value = .ok () := hOpens.returns
      rw [hBehind] at hOutcome
      obtain ⟨rfl, rfl⟩ := Prod.mk.inj (Option.some.inj hOutcome)
      obtain ⟨l, hOnly, hLink⟩ := hOpens.link
      have hLooked := @lookedUp_new variant c ipPort answers own hNew hRegister
      rw [hFetch] at hLooked
      refine .opened nodeID l hRegistered hNew hFetch hFlag (hClaim.trans hOnly)
        (hOpens.flags.trans hFlags) ⟨?_, ?_⟩ ?_ (hOpens.connections.trans hConnections) _ ?_ ?_
      · intro other hOpen
        show e.protoConnections other = true
        rw [hOpens.proto, hProto]
        exact (grows_reached c own ipPort).proto other hOpen
      · exact hOpens.sequencer.trans hSequencer
      · show e.protoConnections ipPort = true
        rw [hOpens.proto, hProto]
        exact reached_open c own ipPort
      · intro conn
        cases hReply : answers.reply <;> simp [answered, hLooked, hFlag, hReply]
      · intro conn hResponse
        apply hLink
        cases hReply : answers.reply <;> simp_all [answered]

/-- A call that returns is one of the steps, whatever the other processes contribute. -/
theorem connect_step {result : Except String (Option Nat)} {after : Client}
    (hOutcome : connect variant c ipPort answers = some (result, after)) :
    ConnectStep variant c ipPort answers (lookedUp variant c ipPort answers)
      (answered variant c ipPort answers) result after := by
  have hGrows := grows_connectProto c c.sequencerIpPort
  rcases register_cases c answers.nodeid with
    ⟨hClosed, hNone, e, hRegister⟩ | ⟨hRegistered, own, hRegister⟩
  · have hLooked : lookedUp variant c ipPort answers = none := by rw [lookedUp, hRegister]
    have hAnswered : answered variant c ipPort answers = none := by rw [answered, hLooked]
    rw [connect, hRegister] at hOutcome
    obtain ⟨rfl, rfl⟩ := Prod.mk.inj (Option.some.inj hOutcome)
    rw [hLooked, hAnswered]
    exact .unregistered e hClosed hNone ⟨rfl, rfl, rfl⟩ hGrows rfl
  · by_cases hAddress : Known c ipPort
    · have hConnected : isConnected { connectProto c c.sequencerIpPort with ownNodeID := own }
          ipPort = true := (isConnected_connectProto c c.sequencerIpPort ipPort).mpr hAddress
      have hLooked : lookedUp variant c ipPort answers = none := by
        rw [lookedUp, hRegister]
        simp only [hConnected, if_true]
      have hAnswered : answered variant c ipPort answers = none := by rw [answered, hLooked]
      rw [connect, hRegister] at hOutcome
      simp only [hConnected, if_true] at hOutcome
      obtain ⟨rfl, rfl⟩ := Prod.mk.inj (Option.some.inj hOutcome)
      rw [hLooked, hAnswered]
      exact .known hRegistered hAddress ⟨rfl, rfl, rfl⟩ ⟨hGrows.proto, rfl⟩ rfl
    · have hLooked := @lookedUp_new variant c ipPort answers own hAddress hRegister
      have hReached := grows_reached c own ipPort
      cases hFetch : fetchNodeID answers.lookup variant.retries ipPort with
      | error e =>
          rw [connect_new hAddress hRegister, hFetch] at hOutcome
          obtain ⟨rfl, rfl⟩ := Prod.mk.inj (Option.some.inj hOutcome)
          rw [hFetch] at hLooked
          have hAnswered : answered variant c ipPort answers = none := by rw [answered, hLooked]
          rw [hLooked, hAnswered]
          exact .failed e hAddress hFetch ⟨rfl, rfl, rfl⟩ hReached rfl
      | ok found =>
        cases found with
        | none =>
            rw [connect_new hAddress hRegister, hFetch] at hOutcome
            obtain ⟨rfl, rfl⟩ := Prod.mk.inj (Option.some.inj hOutcome)
            rw [hFetch] at hLooked
            have hAnswered : answered variant c ipPort answers = none := by
              rw [answered, hLooked]
            rw [hLooked, hAnswered]
            exact .unfound hRegistered hAddress hFetch ⟨rfl, rfl, rfl⟩ hReached rfl
              (reached_open c own ipPort) (reached_sequencer c own ipPort)
        | some nodeID =>
            cases hFlag : c.nodeIDsQPs nodeID with
            | false =>
                rw [hFetch] at hLooked
                rw [hLooked]
                exact opened_step h hFresh hAddress hRegistered hRegister hFetch hFlag hOutcome
            | true =>
                have hLost : claim (recordNodeID (reached c own ipPort) ipPort nodeID) nodeID =
                    (false, recordNodeID (reached c own ipPort) ipPort nodeID) := by
                  rw [claim, if_neg]
                  simp [recordNodeID, reached, connectProto, hFlag]
                rw [connect_new hAddress hRegister, hFetch] at hOutcome
                simp only [hLost] at hOutcome
                obtain ⟨rfl, rfl⟩ := Prod.mk.inj (Option.some.inj hOutcome)
                rw [hFetch] at hLooked
                have hAnswered : answered variant c ipPort answers = none := by
                  rw [answered, hLooked]
                  simp [hFlag]
                rw [hLooked, hAnswered]
                exact .taken nodeID hRegistered hAddress hFetch hFlag ⟨rfl, rfl, rfl⟩
                  ⟨hReached.proto, rfl⟩ rfl

omit hFresh in
/-- A clean call returns: where the server accepts, nothing is read out of range. -/
theorem clean_returns (hClean : Clean variant c ⟨ipPort, answers⟩) :
    ∃ outcome, connect variant c ipPort answers = some outcome := by
  rcases register_cases c answers.nodeid with
    ⟨_, _, e, hRegister⟩ | ⟨hRegistered, own, hRegister⟩
  · exact ⟨_, by rw [connect, hRegister]⟩
  · rw [Clean, or_iff_right hRegistered] at hClean
    by_cases hAddress : Known c ipPort
    · have hConnected : isConnected { connectProto c c.sequencerIpPort with ownNodeID := own }
          ipPort = true := (isConnected_connectProto c c.sequencerIpPort ipPort).mpr hAddress
      rw [connect, hRegister]
      simp only [hConnected, if_true]
      exact ⟨_, rfl⟩
    · rw [if_neg hAddress] at hClean
      rw [connect_new hAddress hRegister]
      cases hFetch : fetchNodeID answers.lookup variant.retries ipPort with
      | error e => exact ⟨_, rfl⟩
      | ok found =>
        cases found with
        | none => exact ⟨_, rfl⟩
        | some nodeID =>
            simp only [hFetch] at hClean
            obtain ⟨hFlag, conn, hReply⟩ := hClean
            obtain ⟨d, _, hClaimed, hClaim, _⟩ := @claimed_link c ipPort own nodeID h hFlag
            obtain ⟨⟨value, e⟩, hBehind⟩ :
                ∃ outcome, variant.connectBehindFlag d nodeID answers = some outcome :=
              connectBehindFlag_returns hClaim.owned answers variant hReply
            simp only [hClaimed, hBehind]
            cases value with
            | error e => exact ⟨_, rfl⟩
            | ok _ => exact ⟨_, rfl⟩

end Steps

/-- A call to an open address asks nobody, and returns true. -/
theorem Session.connect_of_open (variant : Variant) (s : Session) {ipPort : String}
    (hOpen : s.client.protoConnections ipPort = true)
    (hSequencer : s.client.protoConnections s.client.sequencerIpPort = true) (answers : Answers) :
    ∃ nodeID d, s.connect variant ⟨ipPort, answers⟩ =
      some (.ok (some nodeID), s.after ipPort none none d) := by
  have hRegister : register s.client answers.nodeid = (.ok (), s.client) :=
    if_pos hSequencer
  have hLooked : lookedUp variant s.client ipPort answers = none := by
    rw [lookedUp, hRegister]
    exact if_pos hOpen
  have hAnswered : answered variant s.client ipPort answers = none := by rw [answered, hLooked]
  refine ⟨(s.client.connections ipPort).getD 0, { s.client with
    connections := Function.update s.client.connections ipPort
      (some ((s.client.connections ipPort).getD 0)) }, ?_⟩
  rw [Session.connect, hLooked, hAnswered, RDMAClient.connect, hRegister]
  simp only [isConnected, hOpen, if_true, Option.map_some]

/-- A queue pair in RTS that points to the number in the response is the connection the
caller asked for. -/
theorem connectedWith_of_link {c : Client} {nodeID : Nat} {conn : ConnData} {q : Qp}
    (hQp : (c.link nodeID).qp = some q) (hState : q.state = .rts)
    (hDest : q.destQpNum = conn.qpNum) : ConnectedWith c nodeID conn := by
  obtain ⟨qp, hStored, rfl⟩ := Client.exists_stored hQp
  exact ⟨qp, hStored, hState, hDest⟩

/-- Whether a node is connected to is a matter of its own link. -/
theorem ConnectedWith.of_link {c d : Client} {nodeID : Nat} {conn : ConnData}
    (h : ConnectedWith c nodeID conn) (hLink : d.link nodeID = c.link nodeID) :
    ConnectedWith d nodeID conn := by
  obtain ⟨qp, hStored, hState, hDest⟩ := h
  have hQp : (d.link nodeID).qp = some (c.rdma.heap.cell qp) := by
    rw [hLink]
    exact Client.link_qp_of_stored hStored
  exact connectedWith_of_link hQp hState hDest

/-- Holds in every run. A server that answered has a control connection and an
entry in `m_connections`. -/
structure Sane (s : Session) : Prop where
  owned : s.client.Owned
  fresh : ∀ nodeID, s.client.nodeIDsQPs nodeID = false → s.client.rdma.connected nodeID = false
  spoken : ∀ ipPort conn, (ipPort, conn) ∈ s.responses →
    s.client.protoConnections ipPort = true ∧ s.client.connections ipPort ≠ none

/-- Holds as long as every call was clean: what `m_connections` maps an address
to was reported for it and is connected. -/
def Established (s : Session) : Prop :=
  ∀ ipPort nodeID, s.client.connections ipPort = some nodeID →
    s.client.nodeIDsQPs nodeID = true ∧ (ipPort, nodeID) ∈ s.reported ∧
      ∃ conn, (ipPort, conn) ∈ s.responses ∧ ConnectedWith s.client nodeID conn

section After

variable {variant : Variant} {s : Session} {ipPort : String} {answers : Answers}
  {reported : Option Nat} {response : Option ConnData} {result : Except String (Option Nat)}
  {d : Client}

/-- A call that stops early does not touch any link. -/
theorem Idle.link_eq {c : Client} (hOwned : c.Owned) (h : Idle c d) (nodeID : Nat) :
    d.link nodeID = c.link nodeID :=
  (@Client.onlyAt_same c d hOwned nodeID h.rdma h.flags h.calls).here

/-- An address that was never asked for has no response. -/
theorem Sane.unspoken (h : Sane s) (hNew : ¬ Known s.client ipPort) (conn : ConnData) :
    (ipPort, conn) ∉ s.responses := fun hSpoken => hNew (.inl (h.spoken ipPort conn hSpoken).1)

/-- Calls that leave the queue pairs alone and exchange nothing with a server. -/
theorem Sane.after_idle (h : Sane s) (hIdle : Idle s.client d) (hGrows : Grows s.client d)
    (hConnections : ∀ address, s.client.connections address ≠ none →
      d.connections address ≠ none) : Sane (s.after ipPort reported none d) where
  owned := (@Client.onlyAt_same s.client d h.owned 0 hIdle.rdma hIdle.flags hIdle.calls).owned
  fresh nodeID hFlag := by
    show d.rdma.connected nodeID = false
    rw [hIdle.rdma]
    apply h.fresh
    rw [← hIdle.flags]
    exact hFlag
  spoken address conn hSpoken := by
    obtain ⟨hProto, hMapped⟩ := h.spoken address conn (by simpa [Session.after] using hSpoken)
    exact ⟨hGrows.proto address hProto, hConnections address hMapped⟩

theorem update_ne_none {connections : String → Option Nat} {nodeID : Nat} {address : String}
    (hMapped : connections address ≠ none) :
    Function.update connections ipPort (some nodeID) address ≠ none := by
  by_cases hSame : address = ipPort
  · simp [hSame]
  · rwa [Function.update_of_ne hSame]

/-- What the session has recorded stays in agreement with the client. -/
theorem sane_after
    (hStep : ConnectStep variant s.client ipPort answers reported response result d)
    (h : Sane s) : Sane (s.after ipPort reported response d) := by
  cases hStep with
  | unregistered e hClosed hAnswer hIdle hGrows hConnections =>
      exact h.after_idle hIdle hGrows (by rw [hConnections]; exact fun _ => id)
  | known hRegistered hKnown hIdle hGrows hConnections =>
      exact h.after_idle hIdle hGrows (by rw [hConnections]; exact fun _ => update_ne_none)
  | failed e hNew hLookup hIdle hGrows hConnections =>
      exact h.after_idle hIdle hGrows (by rw [hConnections]; exact fun _ => id)
  | unfound hRegistered hNew hLookup hIdle hGrows hConnections hOpen hSequencer =>
      exact h.after_idle hIdle hGrows (by rw [hConnections]; exact fun _ => id)
  | taken nodeID hRegistered hNew hLookup hFlag hIdle hGrows hConnections =>
      exact h.after_idle hIdle hGrows (by rw [hConnections]; exact fun _ => update_ne_none)
  | opened nodeID l hRegistered hNew hLookup hFlag hOnly hFlags hGrows hOpen hConnections _
      hResponse hLink =>
      constructor
      · exact hOnly.owned
      · intro other hUnset
        show d.rdma.connected other = false
        have hUnset : Function.update s.client.nodeIDsQPs nodeID true other = false := by
          rw [← hFlags]
          exact hUnset
        have hNe : other ≠ nodeID := by
          rintro rfl
          simp at hUnset
        rw [Function.update_of_ne hNe] at hUnset
        have hSame := congrArg Link.connected (hOnly.elsewhere other hNe)
        exact hSame.trans (h.fresh other hUnset)
      · intro address conn hSpoken
        show d.protoConnections address = true ∧ d.connections address ≠ none
        rw [hConnections]
        by_cases hSame : address = ipPort
        · rw [hSame]
          exact ⟨hOpen, by simp⟩
        · have hEither : (address, conn) ∈ s.responses ∨ response = some conn ∧
              ipPort = address := by
            simpa [Session.after] using hSpoken
          have hOld := hEither.resolve_right fun hNow => hSame hNow.2.symm
          obtain ⟨hProto, hMapped⟩ := h.spoken address conn hOld
          exact ⟨hGrows.proto address hProto, update_ne_none hMapped⟩

/-- A call is honest exactly if it is clean, when all calls before it were. -/
theorem honest_iff_after
    (hStep : ConnectStep variant s.client ipPort answers reported response result d)
    (h : Sane s) (hEstablished : Established s) :
    HonestResult variant (s.after ipPort reported response d) ipPort result ↔
      Clean variant s.client ⟨ipPort, answers⟩ := by
  cases hStep with
  | unregistered e hClosed hAnswer hIdle hGrows hConnections =>
      exact iff_of_true trivial (.inl ⟨hClosed, hAnswer⟩)
  | known hRegistered hKnown hIdle hGrows hConnections =>
      rw [Clean, or_iff_right hRegistered, if_pos hKnown]
      constructor
      · rintro ⟨_, conn, hSpoken, _⟩
        have hMapped := (h.spoken ipPort conn (by simpa [Session.after] using hSpoken)).2
        exact Option.ne_none_iff_isSome.mp hMapped
      · intro hMapped
        obtain ⟨nodeID, hMapped⟩ := Option.isSome_iff_exists.mp hMapped
        obtain ⟨_, hReported, conn, hResponse, hConnected⟩ := hEstablished ipPort nodeID hMapped
        show HonestResult _ _ ipPort (.ok (some ((s.client.connections ipPort).getD 0)))
        rw [hMapped]
        refine ⟨?_, conn, ?_, hConnected.of_link (hIdle.link_eq h.owned nodeID)⟩
        · simpa [Session.after] using hReported
        · simpa [Session.after] using hResponse
  | failed e hNew hLookup hIdle hGrows hConnections =>
      apply iff_of_true trivial
      right
      rw [if_neg hNew]
      simp only [hLookup]
  | unfound hRegistered hNew hLookup hIdle hGrows hConnections hOpen hSequencer =>
      apply iff_of_false
      · -- the address is open now, so the next call for it returns true
        intro hNoTrace
        obtain ⟨nodeID, e, hNext⟩ := Session.connect_of_open variant
          (s.after ipPort none none d) hOpen hSequencer answers
        obtain ⟨_, conn, hSpoken, _⟩ := hNoTrace _ (.refl _) answers nodeID _ hNext
        exact h.unspoken hNew conn (by simpa [Session.after] using hSpoken)
      · rw [Clean, or_iff_right hRegistered, if_neg hNew]
        simp only [hLookup, not_false_eq_true]
  | taken nodeID hRegistered hNew hLookup hFlag hIdle hGrows hConnections =>
      apply iff_of_false
      · rintro ⟨_, conn, hSpoken, _⟩
        exact h.unspoken hNew conn (by simpa [Session.after] using hSpoken)
      · rw [Clean, or_iff_right hRegistered, if_neg hNew]
        simp [hLookup, hFlag]
  | opened nodeID l hRegistered hNew hLookup hFlag hOnly hFlags hGrows hOpen hConnections _
      hResponse hLink =>
      rw [Clean, or_iff_right hRegistered, if_neg hNew]
      simp only [hLookup]
      constructor
      · rintro ⟨_, conn, hSpoken, _⟩
        have hEither : (ipPort, conn) ∈ s.responses ∨ response = some conn := by
          simpa [Session.after] using hSpoken
        rcases hEither with hOld | hNow
        · exact absurd hOld (h.unspoken hNew conn)
        · exact ⟨hFlag, conn, (hResponse conn).mp hNow⟩
      · rintro ⟨_, conn, hReply⟩
        have hNow := (hResponse conn).mpr hReply
        obtain ⟨q, hQp, hState, hDest⟩ := hLink conn hNow
        rw [← hOnly.here] at hQp
        exact ⟨by simp [Session.after], conn, by simp [Session.after, hNow],
          connectedWith_of_link hQp hState hDest⟩

/-- Connections survive a call that creates none. -/
theorem Established.after_idle (h : Established s) (hOwned : s.client.Owned)
    (hIdle : Idle s.client d) (hConnections : d.connections = s.client.connections) :
    Established (s.after ipPort reported response d) := by
  intro address nodeID hMapped
  obtain ⟨hFlag, hReported, conn, hResponse, hConnected⟩ :=
    h address nodeID (by rw [← hConnections]; exact hMapped)
  refine ⟨?_, List.mem_append_left _ hReported, conn, List.mem_append_left _ hResponse,
    hConnected.of_link (hIdle.link_eq hOwned nodeID)⟩
  show d.nodeIDsQPs nodeID = true
  rw [hIdle.flags]
  exact hFlag

/-- A clean call keeps what was established, and establishes what it reports. -/
theorem established_after
    (hStep : ConnectStep variant s.client ipPort answers reported response result d)
    (h : Sane s) (hEstablished : Established s) (hClean : Clean variant s.client ⟨ipPort, answers⟩) :
    Established (s.after ipPort reported response d) := by
  cases hStep with
  | unregistered e hClosed hAnswer hIdle hGrows hConnections =>
      exact hEstablished.after_idle h.owned hIdle hConnections
  | failed e hNew hLookup hIdle hGrows hConnections =>
      exact hEstablished.after_idle h.owned hIdle hConnections
  | unfound hRegistered hNew hLookup hIdle hGrows hConnections hOpen hSequencer =>
      exact hEstablished.after_idle h.owned hIdle hConnections
  | known hRegistered hKnown hIdle hGrows hConnections =>
      rw [Clean, or_iff_right hRegistered, if_pos hKnown] at hClean
      obtain ⟨nodeID, hMapped⟩ := Option.isSome_iff_exists.mp hClean
      apply hEstablished.after_idle h.owned hIdle
      rw [hConnections, hMapped, Option.getD_some, ← hMapped, Function.update_eq_self]
  | taken nodeID hRegistered hNew hLookup hFlag hIdle hGrows hConnections =>
      rw [Clean, or_iff_right hRegistered, if_neg hNew] at hClean
      simp [hLookup, hFlag] at hClean
  | opened nodeID l hRegistered hNew hLookup hFlag hOnly hFlags hGrows hOpen hConnections _
      hResponse hLink =>
      rw [Clean, or_iff_right hRegistered, if_neg hNew] at hClean
      simp only [hLookup] at hClean
      obtain ⟨_, conn, hReply⟩ := hClean
      have hNow := (hResponse conn).mpr hReply
      intro address other hMapped
      have hMapped : Function.update s.client.connections ipPort (some nodeID) address =
          some other := by
        rw [← hConnections]
        exact hMapped
      by_cases hSame : address = ipPort
      · obtain rfl : nodeID = other := by simpa [hSame] using hMapped
        obtain ⟨q, hQp, hState, hDest⟩ := hLink conn hNow
        rw [← hOnly.here] at hQp
        refine ⟨?_, by simp [Session.after, hSame], conn, by simp [Session.after, hSame, hNow],
          connectedWith_of_link hQp hState hDest⟩
        show d.nodeIDsQPs nodeID = true
        rw [hFlags, Function.update_self]
      · rw [Function.update_of_ne hSame] at hMapped
        obtain ⟨hSet, hReported, earlier, hEarlier, hConnected⟩ :=
          hEstablished address other hMapped
        -- the id of this call had no flag, so it is another one
        have hNe : other ≠ nodeID := by
          rintro rfl
          simp [hSet] at hFlag
        refine ⟨?_, List.mem_append_left _ hReported, earlier, List.mem_append_left _ hEarlier,
          hConnected.of_link (hOnly.elsewhere other hNe)⟩
        show d.nodeIDsQPs other = true
        rw [hFlags, Function.update_of_ne hNe]
        exact hSet

end After

section Runs

variable {variant : Variant} {sequencerIpPort : String} {s : Session}
  {visits : List (Session × ConnectCall)}

/-- Every call that returns is a step of the client, recorded in the history. -/
theorem session_step (h : Sane s) {call : ConnectCall} {result : Except String (Option Nat)}
    {t : Session} (hConnect : s.connect variant call = some (result, t)) :
    ∃ reported response d,
      ConnectStep variant s.client call.ipPort call.answers reported response result d ∧
        t = s.after call.ipPort reported response d := by
  rw [Session.connect, Option.map_eq_some_iff] at hConnect
  obtain ⟨⟨value, d⟩, hOutcome, hSame⟩ := hConnect
  obtain ⟨rfl, rfl⟩ := Prod.mk.inj hSame
  exact ⟨_, _, d, connect_step h.owned h.fresh hOutcome, rfl⟩

/-- A step of the session is a call that returned. -/
theorem exists_result {call : ConnectCall} {t : Session}
    (hNext : (clientMachine variant sequencerIpPort).next s call = some t) :
    ∃ result, s.connect variant call = some (result, t) := by
  obtain ⟨⟨result, _⟩, hConnect, rfl⟩ := Option.map_eq_some_iff.mp hNext
  exact ⟨result, hConnect⟩

theorem sane_init (sequencerIpPort : String) :
    Sane { client := { sequencerIpPort := sequencerIpPort } } where
  owned := Client.owned_of_new rfl rfl
  fresh _ _ := rfl
  spoken _ _ hSpoken := by cases hSpoken

/-- The records agree with the client after every run. -/
theorem run_sane (run : (clientMachine variant sequencerIpPort).RunsTo visits s) : Sane s := by
  apply run.invariant (sane_init sequencerIpPort)
  intro s call t hSane hNext
  obtain ⟨_, hConnect⟩ := exists_result hNext
  obtain ⟨_, _, _, hStep, rfl⟩ := session_step hSane hConnect
  exact sane_after hStep hSane

/-- What holds as long as all calls are clean. -/
theorem run_established (run : (clientMachine variant sequencerIpPort).RunsTo visits s)
    (hClean : ∀ visit ∈ visits, Clean variant visit.1.client visit.2) :
    Sane s ∧ Established s := by
  apply @Machine.RunsTo.invariant_of_guard _ _ _ (fun s call => Clean variant s.client call)
    (fun s => Sane s ∧ Established s) _ _ run
  · exact ⟨sane_init sequencerIpPort, fun _ _ hMapped => by cases hMapped⟩
  · intro s call t hInv hGuard hNext
    obtain ⟨_, hConnect⟩ := exists_result hNext
    obtain ⟨_, _, _, hStep, rfl⟩ := session_step hInv.1 hConnect
    exact ⟨sane_after hStep hInv.1, established_after hStep hInv.1 hInv.2 hGuard⟩
  · exact hClean

/-- `honest_iff_after` for a call of the session. -/
theorem honest_iff_clean (h : Sane s) (hEstablished : Established s) {call : ConnectCall}
    {t : Session} (hNext : (clientMachine variant sequencerIpPort).next s call = some t) :
    Honest variant s call ↔ Clean variant s.client call := by
  obtain ⟨result, hConnect⟩ := exists_result hNext
  obtain ⟨reported, response, d, hStep, rfl⟩ := session_step h hConnect
  rw [← honest_iff_after hStep h hEstablished]
  constructor
  · exact fun hHonest => hHonest _ _ hConnect
  · intro hResult other after hOther
    obtain ⟨rfl, rfl⟩ := Prod.mk.inj (Option.some.inj (hConnect.symm.trans hOther))
    exact hResult

end Runs

/-- A call in which the sequencer answers every lookup like this, and the
server like that. -/
def sampleCall (ipPort : String) (response : GetNodeIDResponse) (reply : ConnReply) :
    ConnectCall where
  ipPort := ipPort
  answers :=
    { nodeid := some 4
      lookup := fun _ => .getNodeID response
      qpNum := 20
      reply := reply }

/-- The address belongs to node 3, which accepts. -/
def acceptedCall : ConnectCall :=
  sampleCall "10.0.0.7:5200" { ip := "10.0.0.7:5200", nodeId := 3 } (.connResponse { qpNum := 30 })

def refusedCall : ConnectCall :=
  sampleCall "10.0.0.6:5200" { ip := "10.0.0.6:5200", nodeId := 2 } (.errorMessage 0)

def notFoundCall : ConnectCall := sampleCall "10.0.0.6:5200" { return_ := 200 } (.errorMessage 0)

/-- A client before its first call. -/
def firstSession : Session := { client := { sequencerIpPort := "10.0.0.1:5500" } }

/-- A call that says yes without a response is not honest. -/
theorem not_honest_of_no_response {variant : Variant} {s t : Session} {call : ConnectCall}
    {nodeID : Nat} (hTrue : s.connect variant call = some (.ok (some nodeID), t))
    (hNone : ∀ conn, (call.ipPort, conn) ∉ t.responses) : ¬ Honest variant s call := by
  intro hHonest
  obtain ⟨_, conn, hSpoken, _⟩ := hHonest _ _ hTrue
  exact hNone conn hSpoken

/-- A call that says no is not honest if the next call for the same address then says
yes without asking anybody. -/
theorem not_honest_of_trace {variant : Variant} {s t u : Session} {call : ConnectCall}
    {answers : Answers} {nodeID : Nat} (hFalse : s.connect variant call = some (.ok none, t))
    (hNext : t.connect variant ⟨call.ipPort, answers⟩ = some (.ok (some nodeID), u))
    (hNone : ∀ conn, (call.ipPort, conn) ∉ u.responses) : ¬ Honest variant s call := by
  intro hHonest
  obtain ⟨_, conn, hSpoken, _⟩ := hHonest _ _ hFalse _ (.refl _) answers nodeID _ hNext
  exact hNone conn hSpoken

end RDMAClient
