import RDMAPatterns.Connection.Link

/-! The steps of `connect` and `connectQueue` on the link of one node id, with
queue pairs as plain values, and the proof that the members follow them. -/
namespace RDMAClient

open References ReliableRDMA

namespace Link

/-- `ReliableRDMA::connectQP`. False stands for an exception. -/
def connectQP (l : Link) (fault : Option Fault) : Bool × Link :=
  if l.connected then (true, l)
  else
    match l.qp with
    | none => (false, l)
    | some q =>
        if fault = some .toRTR then (false, l)
        else if fault = some .toRTS then (false, { l with qp := some (q.toRTR l.rconn.qpNum) })
        else (true, { l with qp := some (q.toRTR l.rconn.qpNum).toRTS, connected := true })

/-- With a queue pair in place, `connectQP` can only fail in one of its two verbs. -/
theorem connectQP_some {l : Link} {q : Qp} (hNew : l.connected = false) (hQp : l.qp = some q)
    (fault : Option Fault) :
    l.connectQP fault =
      if fault = some .toRTR then (false, l)
      else if fault = some .toRTS then (false, { l with qp := some (q.toRTR l.rconn.qpNum) })
      else (true, { l with qp := some (q.toRTR l.rconn.qpNum).toRTS, connected := true }) := by
  simp [connectQP, hNew, hQp]

def claim (l : Link) : Bool × Link :=
  if l.claimed = false then (true, { l with claimed := true, stage := .claimed, pending := none })
  else (false, l)

def send (l : Link) (qpNum : Nat) (fault : Option Fault) : Bool × Link :=
  if Creates fault then (true, { l with stage := .waiting, pending := some (freshQp none qpNum) })
  else (false, { l with stage := .returned, pending := none })

def reply (l : Link) (localConn : ConnData) (answer : ConnReply) (fault : Option Fault) :
    Bool × Link :=
  match answer with
  | .connResponse remoteConn =>
      connectQP
        { l with
          stage := .returned
          pending := none
          qp := l.pending
          lconn := localConn
          rconn := remoteConn } fault
  | .errorMessage _ =>
      (decide (fault ≠ some .destroyQP), { l with stage := .returned, pending := none })

/-- A queue pair for a request that was let in. -/
def serve (l : Link) (srq : Option Nat) (localConn remoteConn : ConnData) : Link :=
  { l with
    claimed := true
    qp := some (freshQp srq localConn.qpNum)
    lconn := localConn
    rconn := remoteConn }

/-- `backsOff` says that the requesting node has the smaller id. -/
def connectQueue (l : Link) (backsOff : Prop) [Decidable backsOff] (srq : Option Nat)
    (localConn remoteConn : ConnData) (fault : Option Fault) : Option ConnData × Link :=
  if l.claimed = true ∧ backsOff then (none, l)
  else if Creates fault then
    match connectQP (l.serve srq localConn remoteConn) fault with
    | (true, l) => (some l.lconn, l)
    | (false, l) => (none, l)
  else (none, { l with claimed := true })

end Link

/-- A queue pair in RTS towards the given number. -/
def connectedQp (qpNum destQpNum : Nat) : Qp :=
  { qpNum := qpNum, state := .rts, destQpNum := destQpNum }

namespace Link

theorem claim_of_unclaimed {l : Link} (hFlag : l.claimed = false) :
    l.claim.2 = { l with claimed := true, stage := .claimed, pending := none } := by
  rw [claim, if_pos hFlag]

/-- Without faults a request is sent with a new queue pair in INIT. -/
theorem send_ok (l : Link) (qpNum : Nat) :
    l.send qpNum none =
      (true, { l with stage := .waiting, pending := some (freshQp none qpNum) }) := by
  rw [send, if_pos (by decide)]

/-- A server that calls itself backs off for a node with a smaller id. -/
theorem connectQueue_refuses {l : Link} {backsOff : Prop} [Decidable backsOff]
    (hBack : l.claimed = true ∧ backsOff) (localConn remoteConn : ConnData) :
    l.connectQueue backsOff none localConn remoteConn none = (none, l) := by
  rw [connectQueue, if_pos hBack]

/-- Otherwise it connects a new queue pair to the one in the request. -/
theorem connectQueue_serves {l : Link} {backsOff : Prop} [Decidable backsOff]
    (hBack : ¬ (l.claimed = true ∧ backsOff)) (hNew : l.connected = false)
    (localConn remoteConn : ConnData) :
    l.connectQueue backsOff none localConn remoteConn none =
      (some localConn,
        { l with
          claimed := true
          qp := some (connectedQp localConn.qpNum remoteConn.qpNum)
          lconn := localConn
          rconn := remoteConn
          connected := true }) := by
  have hServed : (l.serve none localConn remoteConn).connected = false := hNew
  have hConnect := connectQP_some hServed rfl none
  rw [if_neg (by simp), if_neg (by simp)] at hConnect
  rw [connectQueue, if_neg hBack, if_pos (by decide), hConnect]
  rfl

/-- The queue pair that has waited is stored and connected. -/
theorem reply_accepts {l : Link} {qpNum : Nat} (hNew : l.connected = false)
    (hPending : l.pending = some (freshQp none qpNum)) (localConn remoteConn : ConnData) :
    l.reply localConn (.connResponse remoteConn) none =
      (true,
        { l with
          stage := .returned
          pending := none
          qp := some (connectedQp qpNum remoteConn.qpNum)
          lconn := localConn
          rconn := remoteConn
          connected := true }) := by
  simp [reply, connectQP, hNew, hPending, freshQp, connectedQp, Qp.toRTR, Qp.toRTS]

/-- A refused call ends, and its queue pair is destroyed. -/
theorem reply_refused (l : Link) (localConn : ConnData) (code : Nat) :
    l.reply localConn (.errorMessage code) none =
      (true, { l with stage := .returned, pending := none }) := rfl

end Link

/-- The two ways of creating the server's queue pair differ in the queue it is
attached to. -/
theorem connectQueue_eq (c : Client) (currentSRQ : Option Nat) (connRequest : ConnRequest)
    (qpNum : Nat) (fault : Option Fault) :
    connectQueue c currentSRQ connRequest qpNum fault =
      if c.nodeIDsQPs connRequest.nodeid = true ∧ connRequest.nodeid < c.ownNodeID then (none, c)
      else
        let c := { c with nodeIDsQPs := Function.update c.nodeIDsQPs connRequest.nodeid true }
        match initQPStored c.rdma currentSRQ connRequest.nodeid qpNum fault with
        | (.error _, rdma) => (none, { c with rdma := rdma })
        | (.ok (), rdma) =>
            match connectQP (setRemoteConnData rdma connRequest.nodeid connRequest.conn)
              connRequest.nodeid (readsRemote_setRemoteConnData ..) fault with
            | (.error _, rdma) => (none, { c with rdma := rdma })
            | (.ok (), rdma) => (some (rdma.lconns connRequest.nodeid), { c with rdma := rdma }) := by
  cases currentSRQ <;> rfl

namespace Client

variable {c : Client} (h : c.Owned) (nodeID : Nat)

include h

/-- Whatever else a step changed, `connectQP` acts on the link alone. -/
theorem connectQP_link (hReads : ReadsRemote c.rdma nodeID) (fault : Option Fault) :
    (connectQP c.rdma nodeID hReads fault).1.isOk = ((c.link nodeID).connectQP fault).1 ∧
      ∀ d : Client, d.rdma = (connectQP c.rdma nodeID hReads fault).2 →
        d.nodeIDsQPs = c.nodeIDsQPs → d.calls = c.calls →
          OnlyAt nodeID c d ((c.link nodeID).connectQP fault).2 := by
  cases hConnected : c.rdma.connected nodeID with
  | true =>
      have hLink : (c.link nodeID).connectQP fault = (true, c.link nodeID) := by
        rw [Link.connectQP, if_pos (by exact hConnected)]
      rw [connectQP_of_connected hReads hConnected, hLink]
      exact ⟨rfl, fun d hRdma hFlags hCalls => onlyAt_same h hRdma hFlags hCalls⟩
  | false =>
      have hNew : (c.link nodeID).connected = false := hConnected
      cases hQp : c.rdma.qps nodeID with
      | none =>
          have hNone : (c.link nodeID).qp = none := by
            simp [link, view, References.view, held, hQp]
          have hLink : (c.link nodeID).connectQP fault = (false, c.link nodeID) := by
            simp [Link.connectQP, hNew, hNone]
          have hMembers : connectQP c.rdma nodeID hReads fault =
              (.error "Failed modifyQPToRTR!", c.rdma) := by
            simp [connectQP, hConnected, hQp]
          rw [hMembers, hLink]
          exact ⟨rfl, fun d hRdma hFlags hCalls => onlyAt_same h hRdma hFlags hCalls⟩
      | some qp =>
          have hSome : (c.link nodeID).qp = some (c.rdma.heap.cell qp) := link_qp_of_stored hQp
          have hFrame : Function.update c.rdma.connected nodeID false = c.rdma.connected := by
            rw [← hConnected, Function.update_eq_self]
          rcases connectQP_cases hReads hConnected hQp fault with
            ⟨rfl, e, hMembers⟩ | ⟨rfl, e, hMembers⟩ | ⟨hRTR, hRTS, hMembers⟩
          · have hLink : (c.link nodeID).connectQP (some .toRTR) = (false, c.link nodeID) := by
              rw [Link.connectQP_some hNew hSome, if_pos rfl]
            rw [hMembers, hLink]
            exact ⟨rfl, fun d hRdma hFlags hCalls => onlyAt_same h hRdma hFlags hCalls⟩
          · have hLink : (c.link nodeID).connectQP (some .toRTS) =
                (false, { c.link nodeID with
                  qp := (c.link nodeID).qp.map (Qp.toRTR (c.rdma.rconns nodeID).qpNum)
                  connected := false }) := by
              rw [Link.connectQP_some hNew hSome, if_neg (by simp), if_pos rfl, hSome]
              simp [link, hConnected]
            rw [hMembers, hLink]
            refine ⟨rfl, fun d hRdma hFlags hCalls => onlyAt_modify h hQp ?_ hFlags hCalls⟩
            rw [hRdma, hFrame]
          · have hLink : (c.link nodeID).connectQP fault =
                (true, { c.link nodeID with
                  qp := (c.link nodeID).qp.map
                    (Qp.toRTS ∘ Qp.toRTR (c.rdma.rconns nodeID).qpNum)
                  connected := true }) := by
              rw [Link.connectQP_some hNew hSome, if_neg hRTR, if_neg hRTS, hSome]
              rfl
            rw [hMembers, hLink]
            exact ⟨rfl, fun d hRdma hFlags hCalls => onlyAt_modify h hQp hRdma hFlags hCalls⟩

/-- A call that begins touches only the link to its node. -/
theorem claim_link :
    (claim c nodeID).1 = (c.link nodeID).claim.1 ∧
      OnlyAt nodeID c (claim c nodeID).2 (c.link nodeID).claim.2 := by
  by_cases hFlag : c.nodeIDsQPs nodeID = false
  · have hLink : (c.link nodeID).claim =
        (true, { c.link nodeID with claimed := true, stage := .claimed, pending := none }) := by
      rw [Link.claim, if_pos (by exact hFlag)]
    rw [claim, if_pos hFlag, hLink]
    have hFirst : OnlyAt nodeID c
        { c with nodeIDsQPs := Function.update c.nodeIDsQPs nodeID true } _ :=
      onlyAt_flag h rfl rfl rfl
    refine ⟨rfl, hFirst.trans ?_⟩
    have hSecond := @onlyAt_call _ { c with
      nodeIDsQPs := Function.update c.nodeIDsQPs nodeID true
      calls := Function.update c.calls nodeID .claimed } hFirst.owned nodeID .claimed rfl rfl rfl rfl
    rw [hFirst.here] at hSecond
    exact hSecond
  · have hLink : (c.link nodeID).claim = (false, c.link nodeID) := by
      rw [Link.claim, if_neg (by exact hFlag)]
    rw [claim, if_neg hFlag, hLink]
    exact ⟨rfl, onlyAt_same h rfl rfl rfl⟩

theorem onlyAt_leaks {d : Client} (hLeaks : Leaks c.rdma d.rdma)
    (hFlags : d.nodeIDsQPs = c.nodeIDsQPs) (hCalls : d.calls = c.calls) :
    OnlyAt nodeID c d (c.link nodeID) := by
  rcases hLeaks with hSame | ⟨value, hAlloc⟩
  · exact onlyAt_same h hSame hFlags hCalls
  · exact onlyAt_leak h hAlloc hFlags hCalls

/-- Sending a request touches only the link to its node. -/
theorem connectSend_link (qpNum : Nat) (fault : Option Fault) :
    (connectSend c nodeID qpNum fault).1.isOk = ((c.link nodeID).send qpNum fault).1 ∧
      OnlyAt nodeID c (connectSend c nodeID qpNum fault).2 ((c.link nodeID).send qpNum fault).2 := by
  by_cases hFault : Creates fault
  · rw [connectSend, initQPUnstored_ok _ _ _ hFault, Link.send, if_pos hFault]
    exact ⟨rfl, onlyAt_waiting h rfl rfl rfl⟩
  · obtain ⟨e, t, hError, hLeaks⟩ := initQPUnstored_fails c.rdma none qpNum hFault
    rw [connectSend, hError, Link.send, if_neg hFault]
    refine ⟨rfl, ?_⟩
    have hFirst : OnlyAt nodeID c { c with rdma := t } (c.link nodeID) :=
      onlyAt_leaks h nodeID hLeaks rfl rfl
    have hSecond := @onlyAt_call _ { c with
      rdma := t
      calls := Function.update c.calls nodeID .returned } hFirst.owned nodeID .returned rfl rfl
        rfl rfl
    rw [hFirst.here] at hSecond
    exact hFirst.trans hSecond

theorem connectReply_link {qp : Nat} {localConn : ConnData}
    (hCall : c.calls nodeID = .waiting qp localConn) (answer : ConnReply) (fault : Option Fault) :
    (connectReply c nodeID qp localConn answer fault).1.isOk =
        ((c.link nodeID).reply localConn answer fault).1 ∧
      OnlyAt nodeID c (connectReply c nodeID qp localConn answer fault).2
        ((c.link nodeID).reply localConn answer fault).2 := by
  cases answer with
  | connResponse remoteConn =>
      have hAccept : OnlyAt nodeID c { c with
          rdma := setLocalConnData (setQP c.rdma nodeID qp) nodeID localConn
          calls := Function.update c.calls nodeID .returned } _ :=
        onlyAt_accept h hCall rfl rfl rfl
      have hRemote := @onlyAt_remote _ { c with
          rdma := setRemoteConnData
            (setLocalConnData (setQP c.rdma nodeID qp) nodeID localConn) nodeID remoteConn
          calls := Function.update c.calls nodeID .returned } hAccept.owned nodeID remoteConn
        rfl rfl rfl
      rw [hAccept.here] at hRemote
      obtain ⟨hResult, hConnect⟩ :=
        connectQP_link hRemote.owned nodeID (readsRemote_setRemoteConnData ..) fault
      rw [hRemote.here] at hResult hConnect
      exact ⟨hResult, hAccept.trans (hRemote.trans (hConnect _ rfl rfl rfl))⟩
  | errorMessage code =>
      by_cases hDestroy : fault = some .destroyQP
      · rw [connectReply, destroyQP, if_pos hDestroy]
        refine ⟨by simp [Link.reply, hDestroy, Except.isOk, Except.toBool], ?_⟩
        exact @onlyAt_call _ _ h nodeID .returned rfl rfl rfl rfl
      · rw [connectReply, destroyQP, if_neg hDestroy]
        refine ⟨by simp [Link.reply, hDestroy, Except.isOk, Except.toBool], ?_⟩
        exact onlyAt_release h hCall rfl rfl rfl

/-- A queue pair for a request that was let in, up to `connectQP`. -/
theorem serve_link (currentSRQ : Option Nat) (qpNum : Nat) (conn : ConnData) :
    OnlyAt nodeID c { c with
        rdma := setRemoteConnData (stored c.rdma currentSRQ nodeID qpNum) nodeID conn
        nodeIDsQPs := Function.update c.nodeIDsQPs nodeID true }
      ((c.link nodeID).serve currentSRQ (localConnData c.rdma qpNum) conn) := by
  have hFlag : OnlyAt nodeID c
      { c with nodeIDsQPs := Function.update c.nodeIDsQPs nodeID true } _ :=
    onlyAt_flag h rfl rfl rfl
  have hStored := @onlyAt_stored _ { c with
      rdma := stored c.rdma currentSRQ nodeID qpNum
      nodeIDsQPs := Function.update c.nodeIDsQPs nodeID true } hFlag.owned nodeID currentSRQ qpNum
    rfl rfl rfl
  have hRemote := @onlyAt_remote _ { c with
      rdma := setRemoteConnData (stored c.rdma currentSRQ nodeID qpNum) nodeID conn
      nodeIDsQPs := Function.update c.nodeIDsQPs nodeID true } hStored.owned nodeID conn rfl rfl rfl
  rw [hFlag.here] at hStored
  rw [hStored.here] at hRemote
  exact hFlag.trans (hStored.trans hRemote)

theorem connectQueue_link (currentSRQ : Option Nat) (connRequest : ConnRequest) (qpNum : Nat)
    (fault : Option Fault) :
    (connectQueue c currentSRQ connRequest qpNum fault).1 =
        ((c.link connRequest.nodeid).connectQueue (connRequest.nodeid < c.ownNodeID) currentSRQ
          (localConnData c.rdma qpNum) connRequest.conn fault).1 ∧
      OnlyAt connRequest.nodeid c (connectQueue c currentSRQ connRequest qpNum fault).2
        ((c.link connRequest.nodeid).connectQueue (connRequest.nodeid < c.ownNodeID) currentSRQ
          (localConnData c.rdma qpNum) connRequest.conn fault).2 := by
  obtain ⟨conn, nodeID⟩ := connRequest
  rw [connectQueue_eq]
  by_cases hBack : c.nodeIDsQPs nodeID = true ∧ nodeID < c.ownNodeID
  · rw [if_pos hBack, Link.connectQueue, if_pos (by exact hBack)]
    exact ⟨rfl, onlyAt_same h rfl rfl rfl⟩
  · rw [if_neg hBack, Link.connectQueue, if_neg (by exact hBack)]
    by_cases hFault : Creates fault
    · have hServe := serve_link h nodeID currentSRQ qpNum conn
      obtain ⟨hResult, hConnect⟩ :=
        connectQP_link hServe.owned nodeID (readsRemote_setRemoteConnData ..) fault
      rw [hServe.here] at hResult hConnect
      simp only [initQPStored_ok c.rdma currentSRQ nodeID qpNum hFault, if_pos hFault]
      rcases hMembers : connectQP (setRemoteConnData (stored c.rdma currentSRQ nodeID qpNum) nodeID
        conn) nodeID (readsRemote_setRemoteConnData ..) fault with ⟨result, rdma⟩
      rcases hLink : ((c.link nodeID).serve currentSRQ (localConnData c.rdma qpNum) conn).connectQP
        fault with ⟨success, l⟩
      simp only [hMembers, hLink] at hResult hConnect ⊢
      have hStep := hServe.trans (hConnect
        { c with rdma := rdma, nodeIDsQPs := Function.update c.nodeIDsQPs nodeID true } rfl rfl rfl)
      cases result with
      | error e =>
          obtain rfl : success = false := hResult.symm
          exact ⟨rfl, hStep⟩
      | ok _ =>
          obtain rfl : success = true := hResult.symm
          have hAnswer : rdma.lconns nodeID = l.lconn := congrArg Link.lconn hStep.here
          exact ⟨congrArg some hAnswer, hStep⟩
    · obtain ⟨e, t, hError, hLeaks⟩ := initQPStored_fails c.rdma currentSRQ nodeID qpNum hFault
      have hFlag : OnlyAt nodeID c
          { c with nodeIDsQPs := Function.update c.nodeIDsQPs nodeID true } _ :=
        onlyAt_flag h rfl rfl rfl
      have hLeak := @onlyAt_leaks _ hFlag.owned nodeID { c with
        rdma := t
        nodeIDsQPs := Function.update c.nodeIDsQPs nodeID true } hLeaks rfl rfl
      rw [hFlag.here] at hLeak
      simp only [hError, if_neg hFault]
      exact ⟨trivial, hFlag.trans hLeak⟩

end Client
end RDMAClient
