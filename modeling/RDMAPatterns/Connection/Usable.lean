import RDMAPatterns.Connection.LinkSteps
import RDMAPatterns.Transition.Runs

/-! What a server may rely on for a node id in `m_connected`. `connectQP` does
nothing once the id is in there, so a queue pair that is stored afterwards
stays unconnected; a run is safe exactly if that does not happen. -/
namespace RDMAClient

open References ReliableRDMA Transition

/-- What happens at one server: requests to its handler, and its own `connect`
calls in three steps. The lookup in front of the flag only determines the id.
Requests, replies and ids are arbitrary, so the server may talk to itself. -/
inductive ConnAction where
  | connectQueue (currentSRQ : Option Nat) (connRequest : ConnRequest) (qpNum : Nat)
      (fault : Option Fault)
  | claim (nodeID : Nat)
  | connectSend (nodeID qpNum : Nat) (fault : Option Fault)
  | connectReply (nodeID : Nat) (answer : ConnReply) (fault : Option Fault)
deriving DecidableEq, Repr

def connectionMachine (ownNodeID : Nat) : Machine Client ConnAction where
  init := { ownNodeID := ownNodeID }
  next c
    | .connectQueue currentSRQ connRequest qpNum fault =>
        some (connectQueue c currentSRQ connRequest qpNum fault).2
    | .claim nodeID => some (claim c nodeID).2
    | .connectSend nodeID qpNum fault =>
        if c.calls nodeID = .claimed then some (connectSend c nodeID qpNum fault).2 else none
    | .connectReply nodeID answer fault =>
        match c.calls nodeID with
        | .waiting qp localConn => some (connectReply c nodeID qp localConn answer fault).2
        | _ => none

def ConnAction.nodeID : ConnAction → Nat
  | .connectQueue _ connRequest _ _ => connRequest.nodeid
  | .claim nodeID => nodeID
  | .connectSend nodeID _ _ => nodeID
  | .connectReply nodeID _ _ => nodeID

/-- Every id in `m_connected` has a queue pair in RTS, towards the number in
`m_rconns`. -/
def Usable (c : Client) : Prop :=
  ∀ nodeID, c.rdma.connected nodeID = true → ∃ qp, c.rdma.qps nodeID = some qp ∧
    (c.rdma.heap.cell qp).state = .rts ∧
    (c.rdma.heap.cell qp).destQpNum = (c.rdma.rconns nodeID).qpNum

/-- If the recorded step is a request that is answered, the answer describes
the stored queue pair, and that one is connected to the requester's. -/
def AnswersConnected (visit : Client × ConnAction) : Prop :=
  match visit.2 with
  | .connectQueue currentSRQ connRequest qpNum fault =>
      ∀ connResponse d,
        connectQueue visit.1 currentSRQ connRequest qpNum fault = (some connResponse, d) →
        ∃ qp, d.rdma.qps connRequest.nodeid = some qp ∧
          (d.rdma.heap.cell qp).qpNum = connResponse.qpNum ∧
          (d.rdma.heap.cell qp).state = .rts ∧
          (d.rdma.heap.cell qp).destQpNum = connRequest.conn.qpNum
  | _ => True

/-- The step does not store a queue pair for an id that is in `m_connected`. -/
def StoresOnce (c : Client) : ConnAction → Prop
  | .connectQueue _ connRequest _ fault =>
      (c.nodeIDsQPs connRequest.nodeid = true ∧ connRequest.nodeid < c.ownNodeID) ∨
        ¬ Creates fault ∨ c.rdma.connected connRequest.nodeid = false
  | .connectReply nodeID (.connResponse _) _ => c.rdma.connected nodeID = false
  | _ => True

instance (c : Client) (a : ConnAction) : Decidable (StoresOnce c a) := by
  unfold StoresOnce
  split <;> infer_instance

namespace Link

def Usable (l : Link) : Prop :=
  l.connected = true → ∃ q, l.qp = some q ∧ q.state = .rts ∧ q.destQpNum = l.rconn.qpNum

/-- Past the early exit, `connectQP` says connected only of what it connected. -/
theorem connectQP_usable {l : Link} (hNew : l.connected = false) (fault : Option Fault) :
    (l.connectQP fault).2.Usable := by
  cases hQp : l.qp with
  | none => simp [connectQP, hNew, hQp, Usable]
  | some q =>
      rw [connectQP_some hNew hQp]
      by_cases hRTR : fault = some .toRTR
      · simp [hRTR, Usable, hNew]
      · by_cases hRTS : fault = some .toRTS
        · simp [hRTS, Usable, hNew]
        · simp [hRTR, hRTS, Usable, Qp.toRTR, Qp.toRTS]

/-- A first `connectQP` that returns has brought the queue pair to RTS with the number
of the other side. -/
theorem connectQP_true {l : Link} {q : Qp} (hNew : l.connected = false) (hQp : l.qp = some q)
    {fault : Option Fault} (hTrue : (l.connectQP fault).1 = true) :
    (l.connectQP fault).2 =
      { l with qp := some (q.toRTR l.rconn.qpNum).toRTS, connected := true } := by
  rw [connectQP_some hNew hQp] at hTrue ⊢
  by_cases hRTR : fault = some .toRTR
  · simp [hRTR] at hTrue
  · by_cases hRTS : fault = some .toRTS
    · simp [hRTS] at hTrue
    · rw [if_neg hRTR, if_neg hRTS]

/-- A second `connectQP` does nothing and reports success. -/
theorem connectQP_of_connected {l : Link} (hConnected : l.connected = true)
    (fault : Option Fault) : l.connectQP fault = (true, l) := by
  rw [connectQP, if_pos hConnected]

/-- A queue pair kept for a call in progress is not connected yet. -/
def PendingInit (l : Link) : Prop := ∀ q, l.pending = some q → q.state = .init

/-- Connecting does not touch the queue pair of an own call that is still out. -/
theorem connectQP_pending (l : Link) (fault : Option Fault) :
    (l.connectQP fault).2.pending = l.pending := by
  cases hConnected : l.connected with
  | true => rw [connectQP_of_connected hConnected]
  | false =>
      cases hQp : l.qp with
      | none => simp [connectQP, hConnected, hQp]
      | some q =>
          rw [connectQP_some hConnected hQp]
          split
          · rfl
          · split <;> rfl

section Serve

variable {l : Link} {backsOff : Prop} [Decidable backsOff] {srq : Option Nat}
  {localConn remoteConn : ConnData} {fault : Option Fault}

/-- The server that backs off leaves everything as it is. -/
theorem connectQueue_of_backsOff (hBack : l.claimed = true ∧ backsOff) :
    l.connectQueue backsOff srq localConn remoteConn fault = (none, l) := by
  rw [connectQueue, if_pos hBack]

theorem connectQueue_of_fails (hBack : ¬ (l.claimed = true ∧ backsOff))
    (hFault : ¬ Creates fault) :
    l.connectQueue backsOff srq localConn remoteConn fault =
      (none, { l with claimed := true }) := by
  rw [connectQueue, if_neg hBack, if_neg hFault]

/-- Otherwise a new queue pair is stored, and connected if none is yet. -/
theorem connectQueue_of_creates (hBack : ¬ (l.claimed = true ∧ backsOff))
    (hFault : Creates fault) :
    (l.connectQueue backsOff srq localConn remoteConn fault).2 =
      ((l.serve srq localConn remoteConn).connectQP fault).2 := by
  rw [connectQueue, if_neg hBack, if_pos hFault]
  split
  case h_1 hConnect => rw [hConnect]
  case h_2 hConnect => rw [hConnect]

/-- Serving a request keeps the queue pair of the own call in INIT. -/
theorem connectQueue_pending (h : l.PendingInit) :
    (l.connectQueue backsOff srq localConn remoteConn fault).2.PendingInit := by
  by_cases hBack : l.claimed = true ∧ backsOff
  · rw [connectQueue_of_backsOff hBack]
    exact h
  · by_cases hFault : Creates fault
    · rw [connectQueue_of_creates hBack hFault, PendingInit, connectQP_pending]
      exact h
    · rw [connectQueue_of_fails hBack hFault]
      exact h

/-- Serving a request keeps the link usable exactly if it does not store a
second queue pair. -/
theorem connectQueue_usable_iff (h : l.Usable) :
    (l.connectQueue backsOff srq localConn remoteConn fault).2.Usable ↔
      (l.claimed = true ∧ backsOff) ∨ ¬ Creates fault ∨ l.connected = false := by
  by_cases hBack : l.claimed = true ∧ backsOff
  · rw [connectQueue_of_backsOff hBack, or_iff_left_of_imp (fun _ => hBack)]
    exact iff_of_true h hBack
  · rw [or_iff_right hBack]
    by_cases hFault : Creates fault
    · rw [connectQueue_of_creates hBack hFault, or_iff_right (not_not_intro hFault)]
      cases hConnected : l.connected with
      | false =>
          have hServed : (l.serve srq localConn remoteConn).connected = false := hConnected
          exact iff_of_true (connectQP_usable hServed fault) rfl
      | true =>
          rw [connectQP_of_connected (by exact hConnected)]
          have hBroken : ¬ (l.serve srq localConn remoteConn).Usable := by
            intro hUsable
            obtain ⟨q, hQp, hState, _⟩ := hUsable hConnected
            obtain rfl := Option.some.inj hQp
            cases hState
          exact iff_of_false hBroken (by simp)
    · rw [connectQueue_of_fails hBack hFault]
      exact iff_of_true h (.inl hFault)

/-- An answered request got what the answer describes. -/
theorem connectQueue_answer {answer : ConnData} (hNew : l.connected = false)
    (hAnswer : (l.connectQueue backsOff srq localConn remoteConn fault).1 = some answer) :
    ∃ q, (l.connectQueue backsOff srq localConn remoteConn fault).2.qp = some q ∧
      q.qpNum = answer.qpNum ∧ q.state = .rts ∧ q.destQpNum = remoteConn.qpNum := by
  rw [connectQueue] at hAnswer ⊢
  split at hAnswer
  case isTrue => cases hAnswer
  case isFalse hBack =>
    rw [if_neg hBack]
    split at hAnswer
    case isFalse => cases hAnswer
    case isTrue hFault =>
      rw [if_pos hFault]
      split at hAnswer
      case h_2 => cases hAnswer
      case h_1 after hConnect =>
        obtain rfl := Option.some.inj hAnswer
        have hServed : (l.serve srq localConn remoteConn).connected = false := hNew
        have hAfter := connectQP_true hServed rfl (congrArg Prod.fst hConnect)
        rw [hConnect] at hAfter
        obtain rfl : after = _ := hAfter
        exact ⟨_, rfl, rfl, rfl, rfl⟩

end Serve

theorem reply_pending (l : Link) (localConn : ConnData) (answer : ConnReply)
    (fault : Option Fault) : (l.reply localConn answer fault).2.PendingInit := by
  cases answer with
  | connResponse remoteConn =>
      rw [PendingInit, reply, connectQP_pending]
      intro q hNone
      cases hNone
  | errorMessage code =>
      intro q hNone
      cases hNone

/-- Storing the queue pair of an accepted call keeps the link usable exactly if
the id is not connected yet. -/
theorem reply_usable_iff {l : Link} (hPending : l.PendingInit) (localConn remoteConn : ConnData)
    (fault : Option Fault) :
    (l.reply localConn (.connResponse remoteConn) fault).2.Usable ↔ l.connected = false := by
  rw [reply]
  cases hConnected : l.connected with
  | false => exact iff_of_true (connectQP_usable rfl fault) rfl
  | true =>
      rw [connectQP_of_connected rfl]
      apply iff_of_false
      · intro hUsable
        obtain ⟨q, hQp, hState, _⟩ := hUsable rfl
        rw [hPending q hQp] at hState
        cases hState
      · simp

end Link

theorem usable_iff_link (c : Client) : Usable c ↔ ∀ nodeID, (c.link nodeID).Usable := by
  constructor
  · intro h nodeID hConnected
    obtain ⟨qp, hStored, hState, hDest⟩ := h nodeID hConnected
    exact ⟨c.rdma.heap.cell qp, Client.link_qp_of_stored hStored, hState, hDest⟩
  · intro h nodeID hConnected
    obtain ⟨q, hStored, hState, hDest⟩ := h nodeID hConnected
    obtain ⟨qp, hHandle, rfl⟩ := Client.exists_stored hStored
    exact ⟨qp, hHandle, hState, hDest⟩

/-- Holds in every run: handles are not shared, and the queue pair of a call in
progress is not connected yet. -/
structure Tidy (c : Client) : Prop where
  owned : c.Owned
  pending : ∀ nodeID, (c.link nodeID).PendingInit

theorem tidy_init (ownNodeID : Nat) : Tidy { ownNodeID := ownNodeID } where
  owned := Client.owned_of_new rfl rfl
  pending nodeID q hPending := by cases hPending

section Steps

variable {ownNodeID : Nat} {c d : Client} {a : ConnAction}

/-- Every step acts on the link of its node id, as the step on links does. -/
theorem connection_step (h : c.Owned)
    (hNext : (connectionMachine ownNodeID).next c a = some d) :
    ∃ l, Client.OnlyAt a.nodeID c d l ∧
      match a with
      | .connectQueue currentSRQ connRequest qpNum fault =>
          l = ((c.link connRequest.nodeid).connectQueue (connRequest.nodeid < c.ownNodeID)
            currentSRQ (localConnData c.rdma qpNum) connRequest.conn fault).2
      | .claim nodeID => l = (c.link nodeID).claim.2
      | .connectSend nodeID qpNum fault => l = ((c.link nodeID).send qpNum fault).2
      | .connectReply nodeID answer fault => ∃ localConn,
          l = ((c.link nodeID).reply localConn answer fault).2 := by
  cases a with
  | connectQueue currentSRQ connRequest qpNum fault =>
      obtain rfl := Option.some.inj hNext
      exact ⟨_, (Client.connectQueue_link h currentSRQ connRequest qpNum fault).2, rfl⟩
  | claim nodeID =>
      obtain rfl := Option.some.inj hNext
      exact ⟨_, (Client.claim_link h nodeID).2, rfl⟩
  | connectSend nodeID qpNum fault =>
      simp only [connectionMachine, Option.ite_none_right_eq_some, Option.some.injEq] at hNext
      obtain ⟨_, rfl⟩ := hNext
      exact ⟨_, (Client.connectSend_link h nodeID qpNum fault).2, rfl⟩
  | connectReply nodeID answer fault =>
      simp only [connectionMachine] at hNext
      split at hNext
      case h_2 => cases hNext
      case h_1 qp localConn hCall =>
        obtain rfl := Option.some.inj hNext
        exact ⟨_, (Client.connectReply_link h nodeID hCall answer fault).2, localConn, rfl⟩

/-- Every step keeps what the calls hold apart from what is stored. -/
theorem step_tidy (h : Tidy c) (hNext : (connectionMachine ownNodeID).next c a = some d) :
    Tidy d := by
  obtain ⟨l, hOnly, hLink⟩ := connection_step h.owned hNext
  refine ⟨hOnly.owned, fun nodeID => ?_⟩
  by_cases hNe : nodeID = a.nodeID
  · rw [hNe, hOnly.here]
    cases a with
    | connectQueue currentSRQ connRequest qpNum fault =>
        rw [hLink]
        exact Link.connectQueue_pending (h.pending connRequest.nodeid)
    | claim id =>
        rw [hLink, Link.claim]
        split
        · intro q hNone
          cases hNone
        · exact h.pending id
    | connectSend id qpNum fault =>
        rw [hLink, Link.send]
        split
        · intro q hFresh
          obtain rfl := Option.some.inj hFresh
          rfl
        · intro q hNone
          cases hNone
    | connectReply id answer fault =>
        obtain ⟨localConn, rfl⟩ := hLink
        exact Link.reply_pending _ localConn answer fault
  · rw [hOnly.elsewhere nodeID hNe]
    exact h.pending nodeID

/-- A step from a usable state ends in one exactly if it does not store a
second queue pair. -/
theorem step_usable_iff (h : Tidy c) (hUsable : Usable c)
    (hNext : (connectionMachine ownNodeID).next c a = some d) : Usable d ↔ StoresOnce c a := by
  obtain ⟨l, hOnly, hLink⟩ := connection_step h.owned hNext
  rw [usable_iff_link] at hUsable
  have hHere : Usable d ↔ l.Usable := by
    rw [usable_iff_link, ← hOnly.here]
    refine ⟨fun hAll => hAll a.nodeID, fun hOne nodeID => ?_⟩
    by_cases hNe : nodeID = a.nodeID
    · rw [hNe]
      exact hOne
    · rw [hOnly.elsewhere nodeID hNe]
      exact hUsable nodeID
  rw [hHere]
  cases a with
  | connectQueue currentSRQ connRequest qpNum fault =>
      rw [hLink]
      exact Link.connectQueue_usable_iff (hUsable connRequest.nodeid)
  | claim id =>
      rw [hLink]
      refine iff_of_true ?_ trivial
      rw [Link.claim]
      split <;> exact hUsable id
  | connectSend id qpNum fault =>
      rw [hLink]
      refine iff_of_true ?_ trivial
      rw [Link.send]
      split <;> exact hUsable id
  | connectReply id answer fault =>
      obtain ⟨localConn, rfl⟩ := hLink
      cases answer with
      | connResponse remoteConn => exact Link.reply_usable_iff (h.pending id) _ _ _
      | errorMessage code => exact iff_of_true (hUsable id) trivial

/-- A step that stores over nothing does not exchange the queue pair under a connection. -/
theorem answersConnected_of_storesOnce (h : Tidy c) (hOnce : StoresOnce c a) :
    AnswersConnected (c, a) := by
  cases a with
  | claim | connectSend | connectReply => trivial
  | connectQueue currentSRQ connRequest qpNum fault =>
      intro connResponse d hServed
      obtain ⟨hResult, hOnly⟩ :=
        Client.connectQueue_link h.owned currentSRQ connRequest qpNum fault
      have hAnswer := congrArg Prod.fst hServed
      rw [hServed] at hOnly
      rw [hResult] at hAnswer
      have hNew : (c.link connRequest.nodeid).connected = false := by
        rcases hOnce with hBack | hFails | hNew
        · rw [Link.connectQueue_of_backsOff (by exact hBack)] at hAnswer
          cases hAnswer
        · by_cases hBack : (c.link connRequest.nodeid).claimed = true ∧
              connRequest.nodeid < c.ownNodeID
          · rw [Link.connectQueue_of_backsOff hBack] at hAnswer
            cases hAnswer
          · rw [Link.connectQueue_of_fails hBack hFails] at hAnswer
            cases hAnswer
        · exact hNew
      obtain ⟨q, hQp, hNum, hState, hDest⟩ := Link.connectQueue_answer hNew hAnswer
      rw [← hOnly.here] at hQp
      obtain ⟨qp, hHandle, rfl⟩ := Client.exists_stored hQp
      exact ⟨qp, hHandle, hNum, hState, hDest⟩

end Steps

/-- What the calls hold stays apart in every run. -/
theorem run_tidy {ownNodeID : Nat} {visits : List (Client × ConnAction)} {c : Client}
    (run : (connectionMachine ownNodeID).RunsTo visits c) : Tidy c :=
  run.invariant (tidy_init ownNodeID) fun _ _ _ hTidy hNext => step_tidy hTidy hNext

/-- In a run that never stores over a queue pair, all connections stay usable. -/
theorem run_usable {ownNodeID : Nat} {visits : List (Client × ConnAction)} {c : Client}
    (run : (connectionMachine ownNodeID).RunsTo visits c)
    (hOnce : ∀ visit ∈ visits, StoresOnce visit.1 visit.2) : Usable c := by
  have hBoth : Tidy c ∧ Usable c := by
    apply run.invariant_of_guard ⟨tidy_init ownNodeID, fun _ hNone => by cases hNone⟩ _ hOnce
    intro s a t hInv hGuard hNext
    exact ⟨step_tidy hInv.1 hNext, (step_usable_iff hInv.1 hInv.2 hNext).mpr hGuard⟩
  exact hBoth.2

/-- Connected implies usable, in every state of a run and for every answer
given in it, if and only if no step of the run stores a queue pair for an id
that is already connected. -/
theorem connected_usable_iff {ownNodeID : Nat} {visits : List (Client × ConnAction)} {c : Client}
    (run : (connectionMachine ownNodeID).RunsTo visits c) :
    ((∀ visit ∈ visits, Usable visit.1 ∧ AnswersConnected visit) ∧ Usable c) ↔
      ∀ visit ∈ visits, StoresOnce visit.1 visit.2 := by
  constructor
  · rintro ⟨hVisits, hEnd⟩
    induction run with
    | zero => simp
    | @succ visits s t a prior last ih =>
        have hBefore := hVisits (s, a) (by simp)
        have hOnce : StoresOnce s a :=
          (step_usable_iff (run_tidy prior) hBefore.1 last).mp hEnd
        have hPrior := ih (fun visit hVisit => hVisits visit (List.mem_append_left _ hVisit))
          hBefore.1
        intro visit hVisit
        rcases List.mem_append.mp hVisit with hOld | hLast
        · exact hPrior visit hOld
        · obtain rfl : visit = (s, a) := by simpa using hLast
          exact hOnce
  · intro hOnce
    refine ⟨fun visit hVisit => ?_, run_usable run hOnce⟩
    obtain ⟨before, after, hSplit, hPrefix⟩ := run.visit_split hVisit
    constructor
    · apply run_usable hPrefix
      intro earlier hEarlier
      exact hOnce earlier (by simp [hSplit, hEarlier])
    · exact answersConnected_of_storesOnce (run_tidy hPrefix) (hOnce visit hVisit)

/-- A server with id 1 answers node 2 and connects to node 0. -/
def disjointActions : List ConnAction :=
  [.connectQueue none ⟨{ qpNum := 7 }, 2⟩ 11 none, .claim 0, .connectSend 0 12 none,
    .connectReply 0 (.connResponse { qpNum := 8 }) none]

/-- Two connections, one asked for and one served. -/
theorem connected_usable_disjoint :
    ∃ c, (connectionMachine 1).Reachable c ∧ c.rdma.connected 2 = true ∧
      c.rdma.connected 0 = true ∧ Usable c := by
  obtain ⟨c, hReplay, hServed, hCalled⟩ :
      ∃ c, (connectionMachine 1).replay (connectionMachine 1).init disjointActions = some c ∧
        c.rdma.connected 2 = true ∧ c.rdma.connected 0 = true := ⟨_, rfl, rfl, rfl⟩
  have run := Machine.runsTo_of_replay disjointActions hReplay
  have hOnce : ∀ visit ∈ (connectionMachine 1).record (connectionMachine 1).init disjointActions,
      StoresOnce visit.1 visit.2 := by
    decide
  exact ⟨c, ⟨_, run⟩, hServed, hCalled, ((connected_usable_iff run).mpr hOnce).2⟩

/-- Node 2 asks twice. The second queue pair is answered, and never connected. -/
def repeatedActions : List ConnAction :=
  [.connectQueue none ⟨{ qpNum := 7 }, 2⟩ 11 none, .connectQueue none ⟨{ qpNum := 8 }, 2⟩ 12 none]

/-- After the second request of node 2 a queue pair in INIT stands in the place of the
connected one. -/
theorem connected_not_usable :
    ∃ c, (connectionMachine 1).Reachable c ∧ c.rdma.connected 2 = true ∧
      c.rdma.qps 2 = some 1 ∧ (c.rdma.lconns 2).qpNum = 12 ∧
      (c.rdma.heap.cell 1).state = .init ∧ ¬ Usable c := by
  refine ⟨_, @Machine.reachable_of_replay _ _ (connectionMachine 1) _ repeatedActions rfl, rfl,
    rfl, rfl, rfl, ?_⟩
  intro hUsable
  obtain ⟨qp, hQp, hState, _⟩ := hUsable 2 rfl
  obtain rfl : 1 = qp := Option.some.inj hQp
  cases hState

end RDMAClient
