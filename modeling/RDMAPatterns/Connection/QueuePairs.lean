import RDMAPatterns.References.Exclusive

/-! The queue pairs of a `ReliableRDMA` object, under the handles that
`ibv_create_qp` returns, and the four containers that say which of them is
used for which connection. The verbs may fail; a failure is an exception, and
what was done before it stays done. -/
namespace ReliableRDMA

open References

inductive QpState where
  | reset
  | init
  | rtr
  | rts
deriving DecidableEq, Repr

/-- `ibv_qp`, as far as the attributes set here go. -/
structure Qp where
  qpNum : Nat := 0
  srq : Option Nat := none
  state : QpState := .reset
  destQpNum : Nat := 0
  destroyed : Bool := false
deriving DecidableEq, Repr

/-- `ib_conn_t`. -/
structure ConnData where
  buffer : Nat := 0
  qpNum : Nat := 0
  lid : Nat := 0
  gid : List Nat := List.replicate 16 0
  rkey : Nat := 0
  psn : Nat := 0
deriving DecidableEq, Repr

/-- The members of `m_res` that are told to the other side. -/
structure Resources where
  buffer : Nat := 0
  rkey : Nat := 0
  lid : Nat := 0
deriving DecidableEq, Repr

/-- The verb that fails in a call. -/
inductive Fault where
  | createQP
  | toInit
  | toRTR
  | toRTS
  | destroyQP
deriving DecidableEq, Repr

/-- `m_qps`, `m_qpNum2connID`, `m_lconns`, `m_rconns` with its size, and the keys of
`m_connected`. A vector entry that was never written is `none` or default. Past
the end of `m_rconns` there is none. -/
structure QueuePairs where
  res : Resources := {}
  heap : Heap Qp := ⟨fun _ => {}, 0⟩
  qps : Nat → Option Nat := fun _ => none
  qpNum2connID : Nat → Option Nat := fun _ => none
  lconns : Nat → ConnData := fun _ => {}
  rconns : Nat → ConnData := fun _ => {}
  rconnsSize : Nat := 0
  connected : Nat → Bool := fun _ => false

/-- `createQP`. The device chooses the number. -/
def createQP (s : QueuePairs) (srq : Option Nat) (qpNum : Nat) (fault : Option Fault) :
    Except String Nat × QueuePairs :=
  if fault = some .createQP then (.error "Cannot create queue pair!", s)
  else (.ok s.heap.created, { s with heap := s.heap.alloc { qpNum := qpNum, srq := srq } })

/-- `modifyQPToInit`. -/
def modifyQPToInit (s : QueuePairs) (qp : Nat) (fault : Option Fault) :
    Except String Unit × QueuePairs :=
  if fault = some .toInit then (.error "Failed modifyQPToInit!", s)
  else (.ok (), { s with heap := s.heap.modify qp fun q => { q with state := .init } })

/-- The attributes a queue pair gets with `modifyQPToRTR`. -/
def Qp.toRTR (remoteQpn : Nat) (q : Qp) : Qp := { q with state := .rtr, destQpNum := remoteQpn }

def Qp.toRTS (q : Qp) : Qp := { q with state := .rts }

/-- `modifyQPToRTR`. -/
def modifyQPToRTR (s : QueuePairs) (qp remoteQpn : Nat) (fault : Option Fault) :
    Except String Unit × QueuePairs :=
  if fault = some .toRTR then (.error "Failed modifyQPToRTR!", s)
  else (.ok (), { s with heap := s.heap.modify qp (Qp.toRTR remoteQpn) })

/-- `modifyQPToRTS`. -/
def modifyQPToRTS (s : QueuePairs) (qp : Nat) (fault : Option Fault) :
    Except String Unit × QueuePairs :=
  if fault = some .toRTS then (.error "Failed modifyQPToRTS!", s)
  else (.ok (), { s with heap := s.heap.modify qp Qp.toRTS })

/-- `ibv_destroy_qp`. -/
def destroyQP (s : QueuePairs) (qp : Nat) (fault : Option Fault) :
    Except String Unit × QueuePairs :=
  if fault = some .destroyQP then (.error "Error, ibv_destroy_qp() failed", s)
  else (.ok (), { s with heap := s.heap.modify qp fun q => { q with destroyed := true } })

def localConnData (s : QueuePairs) (qpNum : Nat) : ConnData :=
  { buffer := s.res.buffer, qpNum := qpNum, lid := s.res.lid, rkey := s.res.rkey }

/-- The overload of `initQPWithSuppliedID` that stores nothing: the caller
gets the queue pair and its connection data. -/
def initQPUnstored (s : QueuePairs) (srq : Option Nat) (qpNum : Nat) (fault : Option Fault) :
    Except String (Nat × ConnData) × QueuePairs :=
  match createQP s srq qpNum fault with
  | (.error e, s) => (.error e, s)
  | (.ok qp, s) =>
      match modifyQPToInit s qp fault with
      | (.error e, s) => (.error e, s)
      | (.ok (), s) => (.ok (qp, localConnData s (s.heap.cell qp).qpNum), s)

/-- `setQP`. -/
def setQP (s : QueuePairs) (rdmaConnID qp : Nat) : QueuePairs :=
  { s with
    qps := Function.update s.qps rdmaConnID (some qp)
    qpNum2connID := Function.update s.qpNum2connID (s.heap.cell qp).qpNum (some rdmaConnID) }

/-- `setLocalConnData`. -/
def setLocalConnData (s : QueuePairs) (rdmaConnID : Nat) (conn : ConnData) : QueuePairs :=
  { s with lconns := Function.update s.lconns rdmaConnID conn }

/-- `setRemoteConnData`. The vector grows as far as it is written. -/
def setRemoteConnData (s : QueuePairs) (rdmaConnID : Nat) (conn : ConnData) : QueuePairs :=
  { s with
    rconns := Function.update s.rconns rdmaConnID conn
    rconnsSize := max s.rconnsSize (rdmaConnID + 1) }

/-- `getRemoteConnData`. The caller knows that the vector is long enough. -/
def getRemoteConnData (s : QueuePairs) (rdmaConnID : Nat) (_hSize : rdmaConnID < s.rconnsSize) :
    ConnData :=
  s.rconns rdmaConnID

/-- The common part of `initQPWithSuppliedID` and `initQPForSRQWithSuppliedID`. -/
def initQPStored (s : QueuePairs) (srq : Option Nat) (rdmaConnID qpNum : Nat)
    (fault : Option Fault) : Except String Unit × QueuePairs :=
  match initQPUnstored s srq qpNum fault with
  | (.error e, s) => (.error e, s)
  | (.ok (qp, localConn), s) =>
      (.ok (), setLocalConnData (setQP s rdmaConnID qp) rdmaConnID localConn)

/-- `initQPWithSuppliedID`. -/
def initQPWithSuppliedID (s : QueuePairs) (rdmaConnID qpNum : Nat) (fault : Option Fault) :
    Except String Unit × QueuePairs :=
  initQPStored s none rdmaConnID qpNum fault

/-- `initQPForSRQWithSuppliedID`. -/
def initQPForSRQWithSuppliedID (s : QueuePairs) (srqID rdmaConnID qpNum : Nat)
    (fault : Option Fault) : Except String Unit × QueuePairs :=
  initQPStored s (some srqID) rdmaConnID qpNum fault

/-- The connection is over with, or `m_rconns` has an entry for it. -/
def ReadsRemote (s : QueuePairs) (rdmaConnID : Nat) : Prop :=
  s.connected rdmaConnID = true ∨ rdmaConnID < s.rconnsSize

instance (s : QueuePairs) (rdmaConnID : Nat) : Decidable (ReadsRemote s rdmaConnID) :=
  inferInstanceAs (Decidable (_ ∨ _))

theorem readsRemote_setRemoteConnData (s : QueuePairs) (rdmaConnID : Nat) (conn : ConnData) :
    ReadsRemote (setRemoteConnData s rdmaConnID conn) rdmaConnID :=
  .inr (Nat.lt_of_lt_of_le (Nat.lt_succ_self _) (Nat.le_max_right _ _))

/-- `connectQP`. What it does where it would read past the end of `m_rconns`
is undefined, so a call has to show that it does not. -/
def connectQP (s : QueuePairs) (rdmaConnID : Nat) (hReads : ReadsRemote s rdmaConnID)
    (fault : Option Fault) : Except String Unit × QueuePairs :=
  if hConnected : s.connected rdmaConnID then (.ok (), s)
  else
    let remoteConn := getRemoteConnData s rdmaConnID (hReads.resolve_left hConnected)
    match s.qps rdmaConnID with
    | none => (.error "Failed modifyQPToRTR!", s)
    | some qp =>
        match modifyQPToRTR s qp remoteConn.qpNum fault with
        | (.error e, s) => (.error e, s)
        | (.ok (), s) =>
            match modifyQPToRTS s qp fault with
            | (.error e, s) => (.error e, s)
            | (.ok (), s) =>
                (.ok (), { s with connected := Function.update s.connected rdmaConnID true })

/-- A queue pair right after `modifyQPToInit`. -/
def freshQp (srq : Option Nat) (qpNum : Nat) : Qp := { qpNum := qpNum, srq := srq, state := .init }

/-- The verbs that set up a queue pair succeed. -/
def Creates (fault : Option Fault) : Prop := fault ≠ some .createQP ∧ fault ≠ some .toInit

instance (fault : Option Fault) : Decidable (Creates fault) :=
  inferInstanceAs (Decidable (_ ∧ _))

/-- At most a queue pair that nobody knows was added. -/
def Leaks (s t : QueuePairs) : Prop := t = s ∨ ∃ value, t = { s with heap := s.heap.alloc value }

theorem initQPUnstored_fails (s : QueuePairs) (srq : Option Nat) (qpNum : Nat)
    {fault : Option Fault} (hFault : ¬ Creates fault) :
    ∃ e t, initQPUnstored s srq qpNum fault = (.error e, t) ∧ Leaks s t := by
  by_cases hCreate : fault = some .createQP
  · refine ⟨"Cannot create queue pair!", s, ?_, .inl rfl⟩
    simp only [initQPUnstored, createQP, if_pos hCreate]
  · have hInit : fault = some .toInit := by
      by_contra hInit
      exact hFault ⟨hCreate, hInit⟩
    refine ⟨"Failed modifyQPToInit!", _, ?_, .inr ⟨{ qpNum := qpNum, srq := srq }, rfl⟩⟩
    simp only [initQPUnstored, createQP, if_neg hCreate, modifyQPToInit, if_pos hInit]

/-- A successful creation adds an initialized queue pair. -/
theorem initQPUnstored_ok (s : QueuePairs) (srq : Option Nat) (qpNum : Nat)
    {fault : Option Fault} (hFault : Creates fault) :
    initQPUnstored s srq qpNum fault =
      (.ok (s.heap.created, localConnData s qpNum),
        { s with heap := s.heap.alloc (freshQp srq qpNum) }) := by
  simp [initQPUnstored, createQP, modifyQPToInit, localConnData, freshQp, hFault.1, hFault.2]

/-- The members after a new queue pair was stored for a connection. -/
def stored (s : QueuePairs) (srq : Option Nat) (rdmaConnID qpNum : Nat) : QueuePairs :=
  { s with
    heap := s.heap.alloc (freshQp srq qpNum)
    qps := Function.update s.qps rdmaConnID (some s.heap.created)
    qpNum2connID := Function.update s.qpNum2connID qpNum (some rdmaConnID)
    lconns := Function.update s.lconns rdmaConnID (localConnData s qpNum) }

theorem initQPStored_fails (s : QueuePairs) (srq : Option Nat) (rdmaConnID qpNum : Nat)
    {fault : Option Fault} (hFault : ¬ Creates fault) :
    ∃ e t, initQPStored s srq rdmaConnID qpNum fault = (.error e, t) ∧ Leaks s t := by
  obtain ⟨e, t, hError, hLeaks⟩ := initQPUnstored_fails s srq qpNum hFault
  exact ⟨e, t, by rw [initQPStored, hError], hLeaks⟩

theorem initQPStored_ok (s : QueuePairs) (srq : Option Nat) (rdmaConnID qpNum : Nat)
    {fault : Option Fault} (hFault : Creates fault) :
    initQPStored s srq rdmaConnID qpNum fault = (.ok (), stored s srq rdmaConnID qpNum) := by
  rw [initQPStored, initQPUnstored_ok s srq qpNum hFault]
  simp [setLocalConnData, setQP, stored, freshQp]

section Connect

variable {s : QueuePairs} {rdmaConnID qp : Nat} (hReads : ReadsRemote s rdmaConnID)

theorem connectQP_of_connected (hConnected : s.connected rdmaConnID = true)
    (fault : Option Fault) : connectQP s rdmaConnID hReads fault = (.ok (), s) := by
  rw [connectQP, dif_pos hConnected]

/-- Past the early exit, `connectQP` moves the stored queue pair as far as the
verbs let it. -/
theorem connectQP_cases (hNew : s.connected rdmaConnID = false)
    (hQp : s.qps rdmaConnID = some qp) (fault : Option Fault) :
    (fault = some .toRTR ∧ ∃ e, connectQP s rdmaConnID hReads fault = (.error e, s)) ∨
      (fault = some .toRTS ∧ ∃ e, connectQP s rdmaConnID hReads fault =
        (.error e,
          { s with heap := s.heap.modify qp (Qp.toRTR (s.rconns rdmaConnID).qpNum) })) ∨
      (fault ≠ some .toRTR ∧ fault ≠ some .toRTS ∧ connectQP s rdmaConnID hReads fault =
        (.ok (),
          { s with
            heap := s.heap.modify qp (Qp.toRTS ∘ Qp.toRTR (s.rconns rdmaConnID).qpNum)
            connected := Function.update s.connected rdmaConnID true })) := by
  have hNot : ¬ s.connected rdmaConnID = true := by simp [hNew]
  by_cases hRTR : fault = some .toRTR
  · exact .inl ⟨hRTR, _, by simp only [connectQP, dif_neg hNot, hQp, modifyQPToRTR, if_pos hRTR]; rfl⟩
  · right
    by_cases hRTS : fault = some .toRTS
    · exact .inl ⟨hRTS, _, by simp only [connectQP, dif_neg hNot, hQp, modifyQPToRTR, if_neg hRTR,
        modifyQPToRTS, if_pos hRTS, getRemoteConnData]; rfl⟩
    · right
      refine ⟨hRTR, hRTS, ?_⟩
      simp [connectQP, hNew, hQp, modifyQPToRTR, hRTR, modifyQPToRTS, hRTS, getRemoteConnData]

end Connect

end ReliableRDMA
