import RDMAPatterns.Connection.Connect

/-! What a process holds about one node id, with the handles replaced by the
queue pairs behind them. As long as no handle is held twice, each step of
`connect` and of `connectQueue` changes one of these links, and it changes it
as if the queue pairs were values. -/
namespace RDMAClient

open References ReliableRDMA

/-- Where a handle is kept: in `m_qps`, or in a local variable of `connect`. -/
inductive Place where
  | stored (nodeID : Nat)
  | calling (nodeID : Nat)
deriving DecidableEq, Repr

inductive Stage where
  | notCalled
  | claimed
  | waiting
  | returned
deriving DecidableEq, Repr

def Call.handle : Call → Option Nat
  | .waiting qp _ => some qp
  | _ => none

def Call.stage : Call → Stage
  | .notCalled => .notCalled
  | .claimed => .claimed
  | .waiting _ _ => .waiting
  | .returned => .returned

structure Link where
  claimed : Bool := false
  stage : Stage := .notCalled
  pending : Option Qp := none
  qp : Option Qp := none
  lconn : ConnData := {}
  rconn : ConnData := {}
  connected : Bool := false
deriving DecidableEq, Repr

namespace Client

def held (c : Client) : Place → Option Nat
  | .stored nodeID => c.rdma.qps nodeID
  | .calling nodeID => (c.calls nodeID).handle

/-- No queue pair is reached in two ways. -/
abbrev Owned (c : Client) : Prop := Exclusive c.rdma.heap c.held

def view (c : Client) (place : Place) : Option Qp := References.view c.rdma.heap c.held place

def link (c : Client) (nodeID : Nat) : Link where
  claimed := c.nodeIDsQPs nodeID
  stage := (c.calls nodeID).stage
  pending := c.view (.calling nodeID)
  qp := c.view (.stored nodeID)
  lconn := c.rdma.lconns nodeID
  rconn := c.rdma.rconns nodeID
  connected := c.rdma.connected nodeID

/-- The queue pair of a link is one that the client has stored. -/
theorem exists_stored {c : Client} {nodeID : Nat} {q : Qp} (hQp : (c.link nodeID).qp = some q) :
    ∃ qp, c.rdma.qps nodeID = some qp ∧ c.rdma.heap.cell qp = q :=
  Option.map_eq_some_iff.mp hQp

/-- What is stored at a number is the queue pair of that link. -/
theorem link_qp_of_stored {c : Client} {nodeID qp : Nat} (hStored : c.rdma.qps nodeID = some qp) :
    (c.link nodeID).qp = some (c.rdma.heap.cell qp) := view_of_held (by exact hStored)

theorem held_of_qps {c d : Client} {nodeID : Nat} {taken : Option Nat}
    (hQps : d.rdma.qps = Function.update c.rdma.qps nodeID taken) (hCalls : d.calls = c.calls) :
    d.held = Function.update c.held (.stored nodeID) taken := by
  funext place
  cases place with
  | stored other =>
      by_cases hSame : other = nodeID
      · simp [held, hQps, hSame]
      · have hPlace : Place.stored other ≠ .stored nodeID := by simpa using hSame
        simp [held, hQps, Function.update_of_ne hSame, Function.update_of_ne hPlace]
  | calling other => simp [held, hCalls]

/-- A call that takes or gives up a queue pair changes one place. -/
theorem held_of_calls {c d : Client} {nodeID : Nat} {call : Call}
    (hQps : d.rdma.qps = c.rdma.qps) (hCalls : d.calls = Function.update c.calls nodeID call) :
    d.held = Function.update c.held (.calling nodeID) call.handle := by
  funext place
  cases place with
  | stored other => simp [held, hQps]
  | calling other =>
      by_cases hSame : other = nodeID
      · simp [held, hCalls, hSame]
      · have hPlace : Place.calling other ≠ .calling nodeID := by simpa using hSame
        simp [held, hCalls, Function.update_of_ne hSame, Function.update_of_ne hPlace]

theorem held_of_same {c d : Client} (hQps : d.rdma.qps = c.rdma.qps) (hCalls : d.calls = c.calls) :
    d.held = c.held := by
  funext place
  cases place <;> simp [held, hQps, hCalls]

/-- A client without queue pairs and calls holds nothing. -/
theorem owned_of_new {c : Client} (hQps : c.rdma.qps = fun _ => none)
    (hCalls : c.calls = fun _ => .notCalled) : c.Owned := by
  have hHeld : c.held = fun _ => none := by
    funext place
    cases place with
    | stored nodeID => simp [held, hQps]
    | calling nodeID => simp [held, hCalls, Call.handle]
  rw [Owned, hHeld]
  exact Exclusive.empty _

/-- The step from `c` to `d` touched what is held about one node id only, and
left it as given. -/
structure OnlyAt (nodeID : Nat) (c d : Client) (l : Link) : Prop where
  owned : d.Owned
  here : d.link nodeID = l
  elsewhere : ∀ other, other ≠ nodeID → d.link other = c.link other

theorem OnlyAt.trans {nodeID : Nat} {c d e : Client} {l l' : Link} (first : OnlyAt nodeID c d l)
    (second : OnlyAt nodeID d e l') : OnlyAt nodeID c e l' where
  owned := second.owned
  here := second.here
  elsewhere other hNe := (second.elsewhere other hNe).trans (first.elsewhere other hNe)

/-- A step of a call that changes only what the call keeps and how far it has come. -/
theorem onlyAt_of_calling {c d : Client} {nodeID : Nat} {heap : Heap Qp} {call : Call}
    {pending : Option Qp} (hRdma : d.rdma = { c.rdma with heap := heap })
    (hFlags : d.nodeIDsQPs = c.nodeIDsQPs)
    (hCalls : d.calls = Function.update c.calls nodeID call) (hOwned : d.Owned)
    (hView : ∀ place, place ≠ .calling nodeID → d.view place = c.view place)
    (hPending : d.view (.calling nodeID) = pending) :
    OnlyAt nodeID c d { c.link nodeID with stage := call.stage, pending := pending } := by
  refine ⟨hOwned, ?_, ?_⟩
  · rw [link, hPending, hView (.stored nodeID) (by simp), hRdma, hFlags, hCalls,
      Function.update_self]
    rfl
  · intro other hNe
    rw [link, link, hView (.stored other) (by simp), hView (.calling other) (by simpa using hNe),
      hRdma, hFlags, hCalls, Function.update_of_ne hNe]

section Primitives

variable {c d : Client} (h : c.Owned) {nodeID : Nat}

include h

/-- Members that no link shows may change freely. -/
theorem onlyAt_same (hRdma : d.rdma = c.rdma) (hFlags : d.nodeIDsQPs = c.nodeIDsQPs)
    (hCalls : d.calls = c.calls) : OnlyAt nodeID c d (c.link nodeID) := by
  have hHeld : d.held = c.held := held_of_same (by rw [hRdma]) hCalls
  have hLink : ∀ other, d.link other = c.link other := by
    intro other
    rw [link, link, view, view, hHeld, hRdma, hFlags, hCalls]
    rfl
  constructor
  · rw [Owned, hRdma, hHeld]
    exact h
  · exact hLink nodeID
  · exact fun other _ => hLink other

/-- A queue pair that is created and lost is held nowhere. -/
theorem onlyAt_leak {value : Qp}
    (hRdma : d.rdma = { c.rdma with heap := c.rdma.heap.alloc value })
    (hFlags : d.nodeIDsQPs = c.nodeIDsQPs) (hCalls : d.calls = c.calls) :
    OnlyAt nodeID c d (c.link nodeID) := by
  have hHeld : d.held = c.held := held_of_same (by rw [hRdma]) hCalls
  have hView : ∀ place, d.view place = c.view place := by
    intro place
    rw [view, hHeld, hRdma]
    exact h.view_alloc value place
  have hLink : ∀ other, d.link other = c.link other := by
    intro other
    rw [link, link, hView, hView, hRdma, hFlags, hCalls]
  constructor
  · rw [Owned, hRdma, hHeld]
    exact h.alloc value
  · exact hLink nodeID
  · exact fun other _ => hLink other

/-- Setting the flag of a node is a matter of its link. -/
theorem onlyAt_flag (hRdma : d.rdma = c.rdma)
    (hFlags : d.nodeIDsQPs = Function.update c.nodeIDsQPs nodeID true)
    (hCalls : d.calls = c.calls) :
    OnlyAt nodeID c d { c.link nodeID with claimed := true } := by
  have hHeld : d.held = c.held := held_of_same (by rw [hRdma]) hCalls
  have hView : ∀ place, d.view place = c.view place := by
    intro place
    rw [view, hHeld, hRdma]
    rfl
  constructor
  · rw [Owned, hRdma, hHeld]
    exact h
  · rw [link, hView, hView, hRdma, hFlags, hCalls, Function.update_self]
    rfl
  · intro other hNe
    rw [link, link, hView, hView, hRdma, hFlags, hCalls, Function.update_of_ne hNe]

/-- A call that keeps no queue pair, or lets go of the one it kept. -/
theorem onlyAt_call {call : Call} (hHandle : call.handle = none) (hRdma : d.rdma = c.rdma)
    (hFlags : d.nodeIDsQPs = c.nodeIDsQPs)
    (hCalls : d.calls = Function.update c.calls nodeID call) :
    OnlyAt nodeID c d { c.link nodeID with stage := call.stage, pending := none } := by
  have hHeld : d.held = Function.update c.held (.calling nodeID) none := by
    rw [← hHandle]
    exact held_of_calls (by rw [hRdma]) hCalls
  have hView : ∀ place, place ≠ .calling nodeID → d.view place = c.view place := by
    intro place hNe
    rw [view, hRdma, hHeld, view_update_of_ne _ _ hNe]
    rfl
  have hPending : d.view (.calling nodeID) = none := by
    rw [view, hHeld, view_update_self]
    rfl
  refine onlyAt_of_calling hRdma hFlags hCalls ?_ hView hPending
  rw [Owned, hRdma, hHeld]
  exact h.clear _

/-- A new queue pair in a local variable of the call. -/
theorem onlyAt_waiting {value : Qp} {localConn : ConnData}
    (hRdma : d.rdma = { c.rdma with heap := c.rdma.heap.alloc value })
    (hFlags : d.nodeIDsQPs = c.nodeIDsQPs)
    (hCalls : d.calls =
      Function.update c.calls nodeID (.waiting c.rdma.heap.created localConn)) :
    OnlyAt nodeID c d { c.link nodeID with stage := .waiting, pending := some value } := by
  have hHeld : d.held =
      Function.update c.held (.calling nodeID) (some c.rdma.heap.created) :=
    held_of_calls (by rw [hRdma]) hCalls
  have hView : ∀ place, place ≠ .calling nodeID → d.view place = c.view place := by
    intro place hNe
    rw [view, hRdma, hHeld, view_update_of_ne _ _ hNe]
    exact h.view_alloc value place
  have hPending : d.view (.calling nodeID) = some value := by
    rw [view, hHeld, view_update_self, hRdma]
    exact congrArg some (Heap.alloc_cell_self _ _)
  refine onlyAt_of_calling hRdma hFlags hCalls ?_ hView hPending
  rw [Owned, hRdma, hHeld]
  exact h.alloc_assign value _

/-- A new queue pair in `m_qps`. -/
theorem onlyAt_stored {srq : Option Nat} {qpNum : Nat}
    (hRdma : d.rdma = ReliableRDMA.stored c.rdma srq nodeID qpNum)
    (hFlags : d.nodeIDsQPs = c.nodeIDsQPs) (hCalls : d.calls = c.calls) :
    OnlyAt nodeID c d
      { c.link nodeID with
        qp := some (freshQp srq qpNum)
        lconn := localConnData c.rdma qpNum } := by
  have hHeld : d.held =
      Function.update c.held (.stored nodeID) (some c.rdma.heap.created) :=
    held_of_qps (by rw [hRdma]; rfl) hCalls
  have hHeap : d.rdma.heap = c.rdma.heap.alloc (freshQp srq qpNum) := by rw [hRdma]; rfl
  have hView : ∀ place, place ≠ .stored nodeID → d.view place = c.view place := by
    intro place hNe
    rw [view, hHeap, hHeld, view_update_of_ne _ _ hNe]
    exact h.view_alloc _ place
  have hStored : d.view (.stored nodeID) = some (freshQp srq qpNum) := by
    rw [view, hHeld, view_update_self, hHeap]
    exact congrArg some (Heap.alloc_cell_self _ _)
  constructor
  · rw [Owned, hHeap, hHeld]
    exact h.alloc_assign _ _
  · rw [link, hStored, hView (.calling nodeID) (by simp), hRdma, hFlags, hCalls]
    simp [link, stored]
  · intro other hNe
    rw [link, link, hView (.stored other) (by simpa using hNe), hView (.calling other) (by simp),
      hRdma, hFlags, hCalls]
    simp [stored, Function.update_of_ne hNe]

/-- The queue pair of a call becomes a member. -/
theorem onlyAt_accept {qp : Nat} {localConn : ConnData}
    (hCall : c.calls nodeID = .waiting qp localConn)
    (hRdma : d.rdma = setLocalConnData (setQP c.rdma nodeID qp) nodeID localConn)
    (hFlags : d.nodeIDsQPs = c.nodeIDsQPs)
    (hCalls : d.calls = Function.update c.calls nodeID .returned) :
    OnlyAt nodeID c d
      { c.link nodeID with
        stage := .returned
        pending := none
        qp := (c.link nodeID).pending
        lconn := localConn } := by
  have hCalling : c.held (.calling nodeID) = some qp := by simp [held, hCall, Call.handle]
  have hHeld : d.held = Function.update (Function.update c.held (.calling nodeID) none)
      (.stored nodeID) (some qp) := by
    have hFirst : ({ c with calls := d.calls } : Client).held =
        Function.update c.held (.calling nodeID) none :=
      @held_of_calls c _ nodeID .returned rfl hCalls
    rw [← hFirst]
    exact held_of_qps (by rw [hRdma]; rfl) rfl
  have hHeap : d.rdma.heap = c.rdma.heap := by rw [hRdma]; rfl
  have hView : ∀ place, place ≠ .stored nodeID → place ≠ .calling nodeID →
      d.view place = c.view place := by
    intro place hNotStored hNotCalling
    rw [view, hHeap, hHeld, view_update_of_ne _ _ hNotStored, view_update_of_ne _ _ hNotCalling]
    rfl
  have hStored : d.view (.stored nodeID) = c.view (.calling nodeID) := by
    rw [view, hHeld, view_update_self, hHeap, view, References.view, hCalling]
  have hPending : d.view (.calling nodeID) = none := by
    rw [view, hHeld, view_update_of_ne _ _ (by simp), view_update_self]
    rfl
  constructor
  · rw [Owned, hHeap, hHeld]
    exact h.move hCalling
  · rw [link, hStored, hPending, hRdma, hFlags, hCalls, Function.update_self]
    simp [link, setLocalConnData, setQP, Call.stage]
  · intro other hNe
    rw [link, link, hView (.stored other) (by simpa using hNe) (by simp),
      hView (.calling other) (by simp) (by simpa using hNe), hRdma, hFlags, hCalls,
      Function.update_of_ne hNe]
    simp [setLocalConnData, setQP, Function.update_of_ne hNe]

theorem onlyAt_remote {conn : ConnData} (hRdma : d.rdma = setRemoteConnData c.rdma nodeID conn)
    (hFlags : d.nodeIDsQPs = c.nodeIDsQPs) (hCalls : d.calls = c.calls) :
    OnlyAt nodeID c d { c.link nodeID with rconn := conn } := by
  have hHeld : d.held = c.held := held_of_same (by rw [hRdma]; rfl) hCalls
  have hView : ∀ place, d.view place = c.view place := by
    intro place
    rw [view, hHeld, hRdma]
    rfl
  constructor
  · rw [Owned, hRdma, hHeld]
    exact h
  · rw [link, hView, hView, hRdma, hFlags, hCalls]
    simp [link, setRemoteConnData]
  · intro other hNe
    rw [link, link, hView, hView, hRdma, hFlags, hCalls]
    simp [setRemoteConnData, Function.update_of_ne hNe]

/-- A change of the stored queue pair, and possibly of `m_connected`. -/
theorem onlyAt_modify {qp : Nat} {f : Qp → Qp} {connected : Bool}
    (hQp : c.rdma.qps nodeID = some qp)
    (hRdma : d.rdma = { c.rdma with
      heap := c.rdma.heap.modify qp f
      connected := Function.update c.rdma.connected nodeID connected })
    (hFlags : d.nodeIDsQPs = c.nodeIDsQPs) (hCalls : d.calls = c.calls) :
    OnlyAt nodeID c d
      { c.link nodeID with qp := (c.link nodeID).qp.map f, connected := connected } := by
  have hHeld : d.held = c.held := held_of_same (by rw [hRdma]) hCalls
  have hStoredHeld : c.held (.stored nodeID) = some qp := hQp
  have hView : ∀ place, place ≠ .stored nodeID → d.view place = c.view place := by
    intro place hNe
    rw [view, hHeld, hRdma]
    exact h.view_modify_of_ne hStoredHeld hNe f
  have hStored : d.view (.stored nodeID) = (c.view (.stored nodeID)).map f := by
    rw [view, hHeld, hRdma]
    exact Exclusive.view_modify_self hStoredHeld f
  constructor
  · rw [Owned, hRdma, hHeld]
    exact h.modify qp f
  · rw [link, hStored, hView (.calling nodeID) (by simp), hRdma, hFlags, hCalls]
    simp [link]
  · intro other hNe
    rw [link, link, hView (.stored other) (by simpa using hNe), hView (.calling other) (by simp),
      hRdma, hFlags, hCalls]
    simp [Function.update_of_ne hNe]

/-- A change of the queue pair a call keeps, after which the call lets go of it. -/
theorem onlyAt_release {qp : Nat} {localConn : ConnData} {f : Qp → Qp}
    (hCall : c.calls nodeID = .waiting qp localConn)
    (hRdma : d.rdma = { c.rdma with heap := c.rdma.heap.modify qp f })
    (hFlags : d.nodeIDsQPs = c.nodeIDsQPs)
    (hCalls : d.calls = Function.update c.calls nodeID .returned) :
    OnlyAt nodeID c d { c.link nodeID with stage := .returned, pending := none } := by
  have hCalling : c.held (.calling nodeID) = some qp := by simp [held, hCall, Call.handle]
  have hHeld : d.held = Function.update c.held (.calling nodeID) none :=
    held_of_calls (by rw [hRdma]) hCalls
  have hView : ∀ place, place ≠ .calling nodeID → d.view place = c.view place := by
    intro place hNe
    rw [view, hHeld, view_update_of_ne _ _ hNe, hRdma]
    exact h.view_modify_of_ne hCalling hNe f
  have hPending : d.view (.calling nodeID) = none := by
    rw [view, hHeld, view_update_self]
    rfl
  refine onlyAt_of_calling hRdma hFlags hCalls ?_ hView hPending
  rw [Owned, hHeld, hRdma]
  exact (h.clear _).modify qp f

end Primitives

end Client
end RDMAClient
