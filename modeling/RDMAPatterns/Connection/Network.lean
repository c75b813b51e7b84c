import RDMAPatterns.Connection.Handshake
import RDMAPatterns.Transition.Runs

/-! Servers that connect to each other. Node `n` has the id `n`; a set of nodes
with other ids is the case that the remaining ones stay silent. Every pair of
nodes goes through the handshake independently of all other pairs. -/
namespace RDMAClient

open References ReliableRDMA Transition

structure Network where
  node : Nat → Client
  channel : Nat × Nat → Channel

/-- The steps of the call from `x` to `y`. No verb fails and no shared receive
queue is active. -/
inductive NetworkAction where
  | claim (x y : Nat)
  | connectSend (x y qpNum : Nat)
  | handle (x y qpNum : Nat)
  | connectReply (x y : Nat)
deriving DecidableEq, Repr

def NetworkAction.caller : NetworkAction → Nat
  | .claim x _ | .connectSend x _ _ | .handle x _ _ | .connectReply x _ => x

def NetworkAction.callee : NetworkAction → Nat
  | .claim _ y | .connectSend _ y _ | .handle _ y _ | .connectReply _ y => y

/-- The flag step of `connect`, which returns if the flag is set already. -/
def enter (c : Client) (nodeID : Nat) : Client :=
  match claim c nodeID with
  | (true, c) => c
  | (false, c) => { c with calls := Function.update c.calls nodeID .returned }

def Network.step (s : Network) : NetworkAction → Option Network
  | .claim x y =>
      if (s.node x).calls y = .notCalled then
        some { s with node := Function.update s.node x (enter (s.node x) y) }
      else none
  | .connectSend x y qpNum =>
      if (s.node x).calls y = .claimed then
        match connectSend (s.node x) y qpNum none with
        | (.ok connRequest, c) =>
            some ⟨Function.update s.node x c,
              Function.update s.channel (x, y) (.request connRequest)⟩
        | (.error _, _) => none
      else none
  | .handle x y qpNum =>
      match s.channel (x, y) with
      | .request connRequest =>
          let served := connectQueue (s.node y) none connRequest qpNum none
          some ⟨Function.update s.node y served.2,
            Function.update s.channel (x, y) (.reply (toReply served.1))⟩
      | _ => none
  | .connectReply x y =>
      match (s.node x).calls y, s.channel (x, y) with
      | .waiting qp localConn, .reply answer =>
          some ⟨Function.update s.node x (connectReply (s.node x) y qp localConn answer none).2,
            Function.update s.channel (x, y) .empty⟩
      | _, _ => none

def networkMachine : Machine Network NetworkAction where
  init := ⟨fun n => { ownNodeID := n }, fun _ => .empty⟩
  next s a := if a.caller = a.callee then none else s.step a

/-- The step handles a request, and serves it. -/
def serves (s : Network) : NetworkAction → Bool
  | .handle x y qpNum =>
      match s.channel (x, y) with
      | .request connRequest => (connectQueue (s.node y) none connRequest qpNum none).1.isSome
      | _ => false
  | _ => false

/-- One of the two nodes serves a request of the other one. -/
def servesBetween (a b : Nat) (visit : Network × NetworkAction) : Bool :=
  decide ((visit.2.caller = a ∧ visit.2.callee = b) ∨
    (visit.2.caller = b ∧ visit.2.callee = a)) && serves visit.1 visit.2

section Frames

variable {c d : Client} {nodeID : Nat}

/-- A call never changes the id that the sequencer gave. -/
theorem claim_ownNodeID (c : Client) (nodeID : Nat) :
    (claim c nodeID).2.ownNodeID = c.ownNodeID := by
  unfold claim
  split <;> rfl

theorem enter_ownNodeID (c : Client) (nodeID : Nat) :
    (enter c nodeID).ownNodeID = c.ownNodeID := by
  have hClaim := claim_ownNodeID c nodeID
  unfold enter
  split
  case h_1 hEq => rwa [hEq] at hClaim
  case h_2 hEq => rwa [hEq] at hClaim

theorem connectReply_ownNodeID (c : Client) (nodeID qp : Nat) (localConn : ConnData)
    (answer : ConnReply) : (connectReply c nodeID qp localConn answer none).2.ownNodeID =
      c.ownNodeID := by
  cases answer <;> rfl

theorem connectQueue_ownNodeID (c : Client) (connRequest : ConnRequest) (qpNum : Nat) :
    (connectQueue c none connRequest qpNum none).2.ownNodeID = c.ownNodeID := by
  rw [connectQueue_eq]
  split
  · rfl
  · dsimp only
    split
    · rfl
    · split <;> rfl

/-- To enter a call touches the link to its node and no other. -/
theorem enter_link (h : c.Owned) :
    Client.OnlyAt nodeID c (enter c nodeID)
      (if c.nodeIDsQPs nodeID = false then (c.link nodeID).claim.2
        else { c.link nodeID with stage := .returned, pending := none }) := by
  by_cases hFlag : c.nodeIDsQPs nodeID = false
  · have hOnly := (Client.claim_link h nodeID).2
    have hEnter : enter c nodeID = (claim c nodeID).2 := by
      simp [enter, claim, hFlag]
    rw [if_pos hFlag, hEnter]
    exact hOnly
  · have hEnter : enter c nodeID =
        { c with calls := Function.update c.calls nodeID .returned } := by
      simp [enter, claim, hFlag]
    rw [if_neg hFlag, hEnter]
    exact @Client.onlyAt_call _ _ h nodeID .returned rfl rfl rfl rfl

end Frames

/-- Holds in every run: handles are not shared, every node knows its id, and a
request names the node that sent it. -/
structure Orderly (s : Network) : Prop where
  owned : ∀ n, (s.node n).Owned
  own : ∀ n, (s.node n).ownNodeID = n
  named : ∀ x y connRequest, s.channel (x, y) = .request connRequest → connRequest.nodeid = x

/-- What a step of the call from `x` to `y` leaves alone. -/
structure Elsewhere (x y : Nat) (s t : Network) : Prop where
  links : ∀ p q, (p, q) ≠ (x, y) → (p, q) ≠ (y, x) → (t.node p).link q = (s.node p).link q
  channels : ∀ pair, pair ≠ (x, y) → t.channel pair = s.channel pair

section Update

variable {s t : Network} {n m : Nat} {c : Client} {l : Link}
  (hNode : t.node = Function.update s.node n c) (hOnly : Client.OnlyAt m (s.node n) c l)

include hNode hOnly

theorem update_here : (t.node n).link m = l := by
  rw [hNode, Function.update_self]
  exact hOnly.here

theorem update_elsewhere {p q : Nat} (hNe : (p, q) ≠ (n, m)) :
    (t.node p).link q = (s.node p).link q := by
  rw [hNode]
  by_cases hSame : p = n
  · have hOther : q ≠ m := fun hEq => hNe (by rw [hSame, hEq])
    rw [hSame, Function.update_self]
    exact hOnly.elsewhere q hOther
  · rw [Function.update_of_ne hSame]

/-- The members of every node agree with each other after the step. -/
theorem update_owned (hOwned : ∀ p, (s.node p).Owned) (p : Nat) : (t.node p).Owned := by
  rw [hNode]
  by_cases hSame : p = n
  · rw [hSame, Function.update_self]
    exact hOnly.owned
  · rw [Function.update_of_ne hSame]
    exact hOwned p

end Update

theorem update_own {s t : Network} {n : Nat} {c : Client}
    (hNode : t.node = Function.update s.node n c) (hOwn : ∀ p, (s.node p).ownNodeID = p)
    (hSame : c.ownNodeID = (s.node n).ownNodeID) (p : Nat) : (t.node p).ownNodeID = p := by
  rw [hNode]
  by_cases hEq : p = n
  · rw [hEq, Function.update_self, hSame]
    exact hOwn n
  · rw [Function.update_of_ne hEq]
    exact hOwn p

/-- A step that changed one end of a pair. -/
theorem elsewhere_of {s t : Network} {x y n m : Nat} {c : Client} {l : Link}
    (hNode : t.node = Function.update s.node n c) (hOnly : Client.OnlyAt m (s.node n) c l)
    (hEnd : (n, m) = (x, y) ∨ (n, m) = (y, x))
    (hChannel : ∀ pair, pair ≠ (x, y) → t.channel pair = s.channel pair) :
    Elsewhere x y s t where
  channels := hChannel
  links p q hCaller hCallee := by
    apply update_elsewhere hNode hOnly
    intro hEq
    rcases hEnd with hEnd | hEnd
    · exact hCaller (hEq.trans hEnd)
    · exact hCallee (hEq.trans hEnd)

/-- A request carries the id of the node that sends it. -/
theorem named_of_update {s t : Network} {x y : Nat} {ch : Channel} (h : Orderly s)
    (hChannel : t.channel = Function.update s.channel (x, y) ch)
    (hNamed : ∀ connRequest, ch = .request connRequest → connRequest.nodeid = x)
    (p q : Nat) (connRequest : ConnRequest) (hRequest : t.channel (p, q) = .request connRequest) :
    connRequest.nodeid = p := by
  rw [hChannel] at hRequest
  by_cases hPair : (p, q) = (x, y)
  · rw [hPair, Function.update_self] at hRequest
    rw [(Prod.mk.inj hPair).1]
    exact hNamed connRequest hRequest
  · rw [Function.update_of_ne hPair] at hRequest
    exact h.named p q connRequest hRequest

/-- Without faults, a call that has claimed its node always sends its request. -/
theorem connectSend_ok (c : Client) (nodeID qpNum : Nat) :
    ∃ d, connectSend c nodeID qpNum none =
        (.ok ⟨localConnData c.rdma qpNum, c.ownNodeID⟩, d) ∧ d.ownNodeID = c.ownNodeID := by
  rw [connectSend, initQPUnstored_ok _ _ _ (by decide)]
  exact ⟨_, rfl, rfl⟩

/-- The step is one of the handshake between `x` and `y`. -/
structure PairStep (x y : Nat) (served : Bool) (s t : Network) : Prop where
  orderly : Orderly t
  elsewhere : Elsewhere x y s t
  exchange : Exchange x y served ((s.node x).link y) ((s.node y).link x) (s.channel (x, y))
    ((t.node x).link y) ((t.node y).link x) (t.channel (x, y))

section PairSteps

variable {s t : Network} (h : Orderly s) {x y : Nat} (hSwap : (y, x) ≠ (x, y))

include h hSwap

theorem claim_pairStep (hStep : s.step (.claim x y) = some t) : PairStep x y false s t := by
  simp only [Network.step, Option.ite_none_right_eq_some, Option.some.injEq] at hStep
  obtain ⟨hCall, hStep⟩ := hStep
  have hNode : t.node = Function.update s.node x (enter (s.node x) y) := by rw [← hStep]
  have hChannel : t.channel = s.channel := by rw [← hStep]
  have hOnly := @enter_link _ y (h.owned x)
  have hStage : ((s.node x).link y).stage = .notCalled := by
    simp [Client.link, hCall, Call.stage]
  constructor
  · exact ⟨update_owned hNode hOnly h.owned, update_own hNode h.own (enter_ownNodeID _ _),
      by rw [hChannel]; exact h.named⟩
  · exact elsewhere_of hNode hOnly (.inl rfl) fun _ _ => by rw [hChannel]
  · rw [update_here hNode hOnly, update_elsewhere hNode hOnly hSwap, hChannel]
    by_cases hFlag : (s.node x).nodeIDsQPs y = false
    · rw [if_pos hFlag]
      exact .claimed hStage hFlag
    · rw [if_neg hFlag]
      have hSet : (s.node x).nodeIDsQPs y = true := by simpa using hFlag
      exact .early hStage hSet

theorem connectSend_pairStep {qpNum : Nat} (hStep : s.step (.connectSend x y qpNum) = some t) :
    PairStep x y false s t := by
  simp only [Network.step, Option.ite_none_right_eq_some] at hStep
  obtain ⟨hCall, hStep⟩ := hStep
  obtain ⟨c, hSend, hOwn⟩ := connectSend_ok (s.node x) y qpNum
  have hOnly := (Client.connectSend_link (h.owned x) y qpNum none).2
  rw [hSend] at hStep hOnly
  have hStep := Option.some.inj hStep
  have hNode : t.node = Function.update s.node x c := by rw [← hStep]
  have hChannel : t.channel = Function.update s.channel (x, y)
      (.request ⟨localConnData (s.node x).rdma qpNum, (s.node x).ownNodeID⟩) := by rw [← hStep]
  have hStage : ((s.node x).link y).stage = .claimed := by simp [Client.link, hCall, Call.stage]
  constructor
  · refine ⟨update_owned hNode hOnly h.owned, update_own hNode h.own hOwn, ?_⟩
    apply named_of_update h hChannel
    intro connRequest hRequest
    rw [← Channel.request.inj hRequest]
    exact h.own x
  · exact elsewhere_of hNode hOnly (.inl rfl) fun _ hPair => by
      rw [hChannel, Function.update_of_ne hPair]
  · rw [update_here hNode hOnly, update_elsewhere hNode hOnly hSwap, hChannel,
      Function.update_self]
    exact .sent hStage ⟨localConnData (s.node x).rdma qpNum, (s.node x).ownNodeID⟩

theorem handle_pairStep {qpNum : Nat} (hStep : s.step (.handle x y qpNum) = some t) :
    PairStep x y (serves s (.handle x y qpNum)) s t := by
  simp only [Network.step] at hStep
  split at hStep
  case h_2 => cases hStep
  case h_1 connRequest hRequest =>
    have hStep := Option.some.inj hStep
    have hNode : t.node = Function.update s.node y
        (connectQueue (s.node y) none connRequest qpNum none).2 := by rw [← hStep]
    have hChannel : t.channel = Function.update s.channel (x, y)
        (.reply (toReply (connectQueue (s.node y) none connRequest qpNum none).1)) := by
      rw [← hStep]
    have hName : connRequest.nodeid = x := h.named x y connRequest hRequest
    obtain ⟨hResult, hOnly⟩ := Client.connectQueue_link (h.owned y) none connRequest qpNum none
    rw [hName, h.own y] at hResult hOnly
    have hServes : serves s (.handle x y qpNum) =
        (connectQueue (s.node y) none connRequest qpNum none).1.isSome := by
      simp [serves, hRequest]
    constructor
    · refine ⟨update_owned hNode hOnly h.owned,
        update_own hNode h.own (connectQueue_ownNodeID _ _ _), ?_⟩
      apply named_of_update h hChannel
      intro request hReply
      cases hReply
    · exact elsewhere_of hNode hOnly (.inr rfl) fun _ hPair => by
        rw [hChannel, Function.update_of_ne hPair]
    · rw [update_here hNode hOnly, update_elsewhere hNode hOnly (Ne.symm hSwap), hChannel,
        Function.update_self, hServes, hResult, hRequest]
      exact .handled connRequest (localConnData (s.node y).rdma qpNum)

theorem connectReply_pairStep (hStep : s.step (.connectReply x y) = some t) :
    PairStep x y false s t := by
  simp only [Network.step] at hStep
  split at hStep
  case h_2 => cases hStep
  case h_1 qp localConn answer hCall hReply =>
    have hStep := Option.some.inj hStep
    have hNode : t.node = Function.update s.node x
        (connectReply (s.node x) y qp localConn answer none).2 := by rw [← hStep]
    have hChannel : t.channel = Function.update s.channel (x, y) .empty := by rw [← hStep]
    have hOnly := (Client.connectReply_link (h.owned x) y hCall answer none).2
    have hStage : ((s.node x).link y).stage = .waiting := by
      simp [Client.link, hCall, Call.stage]
    constructor
    · refine ⟨update_owned hNode hOnly h.owned,
        update_own hNode h.own (connectReply_ownNodeID _ _ _ _ _), ?_⟩
      apply named_of_update h hChannel
      intro request hEmpty
      cases hEmpty
    · exact elsewhere_of hNode hOnly (.inl rfl) fun _ hPair => by
        rw [hChannel, Function.update_of_ne hPair]
    · rw [update_here hNode hOnly, update_elsewhere hNode hOnly hSwap, hChannel,
        Function.update_self, hReply]
      exact .received hStage localConn answer

end PairSteps

/-- Every step of the network is a step of the handshake of one pair. -/
theorem network_step {s t : Network} {a : NetworkAction} (h : Orderly s)
    (hNext : networkMachine.next s a = some t) :
    PairStep a.caller a.callee (serves s a) s t := by
  simp only [networkMachine, Option.ite_none_left_eq_some] at hNext
  obtain ⟨hNe, hStep⟩ := hNext
  have hSwap : (a.callee, a.caller) ≠ (a.caller, a.callee) := by
    intro hEq
    exact hNe (Prod.mk.inj hEq).2
  cases a with
  | claim x y => exact claim_pairStep h hSwap hStep
  | connectSend x y qpNum => exact connectSend_pairStep h hSwap hStep
  | handle x y qpNum => exact handle_pairStep h hSwap hStep
  | connectReply x y => exact connectReply_pairStep h hSwap hStep

/-- The nodes start without connections and messages. -/
theorem orderly_init : Orderly networkMachine.init where
  owned _ := Client.owned_of_new rfl rfl
  own _ := rfl
  named _ _ _ hRequest := by cases hRequest

/-- The pair of `a` and `b`, with the requests of the run that were served. -/
def PairIn (a b : Nat) (visits : List (Network × NetworkAction)) (s : Network) : Prop :=
  PairState ((s.node a).link b) ((s.node b).link a) (s.channel (a, b)) (s.channel (b, a))
    (visits.countP (servesBetween a b))

/-- One more step, of this pair or of another one. -/
theorem pairIn_step {a b : Nat} (hLt : a < b) {visits : List (Network × NetworkAction)}
    {s t : Network} {act : NetworkAction} (h : PairIn a b visits s)
    (hStep : PairStep act.caller act.callee (serves s act) s t) :
    PairIn a b (visits ++ [(s, act)]) t := by
  obtain ⟨_, hElsewhere, hExchange⟩ := hStep
  rw [PairIn, List.countP_append]
  by_cases hLow : act.caller = a ∧ act.callee = b
  · have hCount : [(s, act)].countP (servesBetween a b) = (serves s act).toNat := by
      cases hServes : serves s act <;> simp [servesBetween, hLow, hServes]
    rw [hLow.1, hLow.2] at hExchange hElsewhere
    have hOther : t.channel (b, a) = s.channel (b, a) :=
      hElsewhere.channels (b, a) (by simp; omega)
    rw [hCount, hOther]
    exact low_exchange hLt h hExchange
  · by_cases hHigh : act.caller = b ∧ act.callee = a
    · have hCount : [(s, act)].countP (servesBetween a b) = (serves s act).toNat := by
        cases hServes : serves s act <;> simp [servesBetween, hHigh, hServes]
      rw [hHigh.1, hHigh.2] at hExchange hElsewhere
      have hOther : t.channel (a, b) = s.channel (a, b) :=
        hElsewhere.channels (a, b) (by simp; omega)
      rw [hCount, hOther]
      exact high_exchange hLt h hExchange
    · have hCount : [(s, act)].countP (servesBetween a b) = 0 := by
        simp [servesBetween, hLow, hHigh]
      have hFar : ∀ p q, (p = a ∧ q = b) ∨ (p = b ∧ q = a) →
          (p, q) ≠ (act.caller, act.callee) ∧ (p, q) ≠ (act.callee, act.caller) := by
        intro p q hPair
        simp only [ne_eq, Prod.mk.injEq]
        omega
      obtain ⟨hNotUp, hNotDown⟩ := hFar a b (by simp)
      obtain ⟨hNotUp', hNotDown'⟩ := hFar b a (by simp)
      rw [hCount, hElsewhere.links a b hNotUp hNotDown, hElsewhere.links b a hNotUp' hNotDown',
        hElsewhere.channels _ hNotUp, hElsewhere.channels _ hNotUp']
      exact h

/-- In every run the two ends of each pair are in one of the states that the pair
allows, whatever the other pairs do. -/
theorem run_pairs {visits : List (Network × NetworkAction)} {s : Network}
    (run : networkMachine.RunsTo visits s) :
    Orderly s ∧ ∀ a b, a < b → PairIn a b visits s := by
  induction run with
  | zero =>
      refine ⟨orderly_init, fun a b _ => ?_⟩
      exact .undecided .notCalled .notCalled ⟨rfl, rfl⟩ ⟨rfl, rfl⟩
        (by simp [networkMachine, Client.link])
        (by simp [networkMachine, Client.link]) rfl rfl (by simp) (by simp)
  | @succ visits s t act prior last ih =>
      obtain ⟨hOrderly, hPairs⟩ := ih
      have hStep := network_step hOrderly last
      exact ⟨hStep.orderly, fun a b hLt => pairIn_step hLt (hPairs a b hLt) hStep⟩

/-- No call between the two nodes is in progress, and there was one. -/
def CallsOver (s : Network) (a b : Nat) : Prop :=
  s.channel (a, b) = .empty ∧ s.channel (b, a) = .empty ∧
    ((s.node a).calls b = .notCalled ∨ (s.node a).calls b = .returned) ∧
    ((s.node b).calls a = .notCalled ∨ (s.node b).calls a = .returned) ∧
    ((s.node a).calls b = .returned ∨ (s.node b).calls a = .returned)

/-- Node `a` holds a live queue pair in RTS for node `b`, towards the number
of the queue pair that `b` holds, and knows that number. -/
def ConnectedTo (s : Network) (a b : Nat) : Prop :=
  ∃ qa qb, (s.node a).rdma.qps b = some qa ∧ (s.node b).rdma.qps a = some qb ∧
    ((s.node a).rdma.heap.cell qa).state = .rts ∧
    ((s.node a).rdma.heap.cell qa).destroyed = false ∧
    ((s.node a).rdma.heap.cell qa).destQpNum = ((s.node b).rdma.heap.cell qb).qpNum ∧
    ((s.node a).rdma.rconns b).qpNum = ((s.node b).rdma.heap.cell qb).qpNum

/-- A call that is over, or was never made, has nothing pending. -/
theorem settled_of_calls {c : Client} {nodeID : Nat}
    (hCall : c.calls nodeID = .notCalled ∨ c.calls nodeID = .returned) :
    Settled (c.link nodeID) := by
  rcases hCall with hCall | hCall
  · exact .inl (by simp [Client.link, hCall, Call.stage])
  · exact .inr (by simp [Client.link, hCall, Call.stage])

/-- Linked ends are connected to each other in both directions. -/
theorem connectedTo_of_linked {s : Network} {a b : Nat}
    (h : Linked ((s.node a).link b) ((s.node b).link a)) :
    ConnectedTo s a b ∧ ConnectedTo s b a := by
  obtain ⟨na, nb, hA, hB, hRemoteA, hRemoteB⟩ := h
  obtain ⟨qa, hStoredA, hCellA⟩ := Client.exists_stored hA
  obtain ⟨qb, hStoredB, hCellB⟩ := Client.exists_stored hB
  constructor
  · exact ⟨qa, qb, hStoredA, hStoredB, by rw [hCellA]; rfl, by rw [hCellA]; rfl,
      by rw [hCellA, hCellB]; rfl, by rw [hCellB]; exact hRemoteA⟩
  · exact ⟨qb, qa, hStoredB, hStoredA, by rw [hCellB]; rfl, by rw [hCellB]; rfl,
      by rw [hCellA, hCellB]; rfl, by rw [hCellA]; exact hRemoteB⟩

/-- The pair of `a` and `b` with `a` the smaller id. -/
theorem pair_agrees {visits : List (Network × NetworkAction)} {s : Network}
    (run : networkMachine.RunsTo visits s) {a b : Nat} (hLt : a < b) :
    visits.countP (servesBetween a b) ≤ 1 ∧
      (CallsOver s a b → ConnectedTo s a b ∧ ConnectedTo s b a) := by
  have hPair : PairIn a b visits s := (run_pairs run).2 a b hLt
  refine ⟨hPair.count_le, ?_⟩
  rintro ⟨_, _, hA, hB, hCalled⟩
  apply connectedTo_of_linked
  apply hPair.linked (settled_of_calls hA) (settled_of_calls hB)
  rcases hCalled with hReturned | hReturned
  · exact .inl (by simp [Client.link, hReturned, Call.stage])
  · exact .inr (by simp [Client.link, hReturned, Call.stage])

theorem servesBetween_comm (a b : Nat) : servesBetween a b = servesBetween b a := by
  funext visit
  simp only [servesBetween, or_comm]

/-- In every run and for every pair of nodes: at most one of the two requests
is served, and once the calls of the pair are over both sides are connected to
each other. -/
theorem simultaneous_connect {visits : List (Network × NetworkAction)} {s : Network}
    (run : networkMachine.RunsTo visits s) {a b : Nat} (hNe : a ≠ b) :
    visits.countP (servesBetween a b) ≤ 1 ∧
      (CallsOver s a b → ConnectedTo s a b ∧ ConnectedTo s b a) := by
  rcases Nat.lt_or_gt_of_ne hNe with hLt | hGt
  · exact pair_agrees run hLt
  · obtain ⟨hCount, hAgrees⟩ := pair_agrees run hGt
    rw [servesBetween_comm]
    refine ⟨hCount, ?_⟩
    rintro ⟨hUp, hDown, hA, hB, hCalled⟩
    exact (hAgrees ⟨hDown, hUp, hB, hA, hCalled.symm⟩).symm

/-- Nodes 3 and 5 connect to each other at the same time. -/
def crossingActions : List NetworkAction :=
  [.claim 3 5, .claim 5 3, .connectSend 3 5 30, .connectSend 5 3 50, .handle 3 5 51,
    .handle 5 3 31, .connectReply 3 5, .connectReply 5 3]

/-- Both nodes call at once, and their requests cross. -/
theorem simultaneous_connect_crossing :
    ∃ s, networkMachine.Reachable s ∧ CallsOver s 3 5 ∧ ConnectedTo s 3 5 ∧ ConnectedTo s 5 3 := by
  obtain ⟨s, hReplay, hOver⟩ : ∃ s, networkMachine.replay networkMachine.init crossingActions =
      some s ∧ CallsOver s 3 5 :=
    ⟨_, rfl, rfl, rfl, .inr rfl, .inr rfl, .inl rfl⟩
  have run := Machine.runsTo_of_replay crossingActions hReplay
  exact ⟨s, ⟨_, run⟩, hOver, (simultaneous_connect run (by decide)).2 hOver⟩

end RDMAClient
