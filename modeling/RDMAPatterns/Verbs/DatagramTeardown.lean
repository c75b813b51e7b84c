import RDMAPatterns.Verbs.DatagramGroups

/-! Leaving a group gives back all of it but the list of addresses. The destructor
leaves every group. What it does not find are these lists, the address handles of
the connections, and what was under way when a verb failed. -/
namespace DatagramObjects

open Calls Transition
open VerbObjects (IbQp createQueues destroyQueues storeQP)

variable {s t u : UnreliableRDMA} {d : Device} {value : Object}
  {failed : String → UnreliableRDMA → Prop}

section Dropping

/-- The owner has lost its objects, and nobody else has. -/
structure Dropped (s : UnreliableRDMA) (chosen : Owner) (t : UnreliableRDMA) : Prop where
  device : s.device.Without {gone | gone ∈ claims s chosen} t.device
  claims : claims t = Function.update (claims s) chosen []
  pd : t.pd = s.pd
  mr : t.mr = s.mr
  udqp : ∀ {q}, t.udqp = some q → s.udqp = some q
  mcastConns : ∀ {key : Nat} {conn : McastConn}, t.mcastConns[key]? = some conn →
    conn.active = true → s.mcastConns[key]? = some conn
  length : t.mcastConns.length = s.mcastConns.length
  last : t.lastMCastConnKey = s.lastMCastConnKey
  connected : t.connected = s.connected

variable {chosen : Owner}

/-- The chosen owner has nothing any more, and all others have what they had. -/
theorem Dropped.mem_claims (h : Dropped s chosen t) {owner : Owner} {handle : Nat} :
    handle ∈ DatagramObjects.claims t owner ↔
      owner ≠ chosen ∧ handle ∈ DatagramObjects.claims s owner := by
  rw [h.claims, Ownership.Divided.mem_update]
  simp

/-- What an owner still has is still there. -/
theorem Dropped.kept (h : Dropped s chosen t) (hs : Consistent s) (owner : Owner) {handle : Nat}
    (hClaimed : handle ∈ DatagramObjects.claims t owner) :
    t.device.object handle = s.device.object handle := by
  obtain ⟨hOwner, hOld⟩ := h.mem_claims.mp hClaimed
  exact h.device.kept fun hGone => hOwner (hs.unique hOld hGone)

/-- What an owner gave back, nobody else stands for. -/
theorem Dropped.consistent (h : Dropped s chosen t) (hs : Consistent s) : Consistent t where
  pd := by
    rw [h.kept hs .base (List.mem_cons_self ..), h.pd]
    exact hs.pd
  mr := by
    rw [h.kept hs .base (by simp [DatagramObjects.claims]), h.pd, h.mr]
    exact hs.mr
  udqp {q} hQp := by
    have hShared := hs.udqp (h.udqp hQp)
    have hKept : ∀ {handle}, handle ∈ [q.qp, q.sendCq, q.recvCq] →
        t.device.object handle = s.device.object handle := fun hMem =>
      h.kept hs .udqp (by rwa [DatagramObjects.claims, hQp])
    rw [h.pd]
    refine ⟨?_, ?_, ?_, hShared.distinct⟩
    · rw [hKept (by simp), hShared.send]
    · rw [hKept (by simp), hShared.recv]
    · rw [hKept (by simp), hShared.qp]
  joined {key conn} hConn hActive := by
    rw [h.pd]
    refine (hs.joined (h.mcastConns hConn hActive) hActive).mono fun hMem hValue => ?_
    rw [h.kept hs (.mcast key), hValue]
    rwa [DatagramObjects.claims, hConn, groupParts_active hActive]
  numbered := by
    rw [h.length, h.last]
    exact hs.numbered
  unique hOwner hOther := hs.unique (h.mem_claims.mp hOwner).2 (h.mem_claims.mp hOther).2
  inside {owner handle user} hClaimed hOther hUses := by
    obtain ⟨hOwner, hOld⟩ := h.mem_claims.mp hClaimed
    rw [h.pd] at hOther
    exact h.mem_claims.mpr ⟨hOwner, hs.inside hOld hOther (h.device.uses_iff.mp hUses).2⟩

/-- No stray goes, and none comes. -/
theorem Dropped.strays (h : Dropped s chosen t) : Kept s t := by
  have hStray : ∀ {handle}, handle ∈ DatagramObjects.strays s →
      t.device.object handle = s.device.object handle :=
    fun hStray => h.device.kept (hStray.2 chosen)
  refine ⟨h.pd, h.connected, h.last, ?_, hStray⟩
  ext handle
  constructor
  · rintro ⟨⟨value, hLive⟩, hNobody⟩
    obtain ⟨hNotGone, hOld⟩ := h.device.object_iff.mp hLive
    refine ⟨⟨value, hOld⟩, fun owner hClaimed => ?_⟩
    by_cases hSame : owner = chosen
    · subst hSame
      exact hNotGone hClaimed
    · exact hNobody owner (h.mem_claims.mpr ⟨hSame, hClaimed⟩)
  · intro hHandle
    obtain ⟨⟨value, hOld⟩, hNobody⟩ := id hHandle
    exact ⟨⟨value, (hStray hHandle).trans hOld⟩,
      fun owner hClaimed => hNobody owner (h.mem_claims.mp hClaimed).2⟩

end Dropping

section Leaving

variable {fault : Option Fault}

theorem claims_leave {key : Nat} {conn : McastConn} (h : s.mcastConns[key]? = some conn) :
    claims { s with mcastConns := s.mcastConns.set key { conn with active := false } } =
      Function.update (claims s) (.mcast key) [] := by
  obtain ⟨hShort, -⟩ := List.getElem?_eq_some_iff.mp h
  funext owner
  cases owner with
  | base | udqp => rfl
  | mcast i =>
      rw [Function.update_apply]
      by_cases hSame : i = key
      · subst hSame
        simp [claims, groupParts, List.getElem?_set_self hShort]
      · simp [claims, hSame, List.getElem?_set_ne (Ne.symm hSame)]

/-- Only the base has the domain of the object. -/
theorem Consistent.ne_pd (h : Consistent s) {owner : Owner} {handle : Nat}
    (hClaimed : handle ∈ claims s owner) (hOwner : owner ≠ .base) : handle ≠ s.pd := by
  rintro rfl
  exact hOwner (h.unique hClaimed (List.mem_cons_self ..))

/-- Everything that was made for the group goes. -/
theorem destroyParts_ensures (h : Consistent s) {key : Nat} {conn : McastConn}
    (hConn : s.mcastConns[key]? = some conn) (hActive : conn.active = true) :
    Ensures (keeper.destroyEach conn.parts) s
      (fun _ t => keeper.Dropped s {gone | gone ∈ claims s (.mcast key)} t) failed := by
  have hJoined := h.joined hConn hActive
  have hParts : claims s (.mcast key) = conn.parts.map Prod.snd := by
    rw [claims, hConn, groupParts_active hActive]
  rw [hParts]
  refine keeper.destroyEach_ensures hJoined.holds hJoined.nodup ?_ hJoined.order
  intro found hFound user hUses
  have hClaimed : found.2 ∈ claims s (.mcast key) := by
    rw [hParts]
    exact List.mem_map_of_mem hFound
  rw [← hParts]
  exact h.inside hClaimed (h.ne_pd hClaimed (by simp)) hUses

/-- A group with a number that was given out is left, unless the verb fails. -/
theorem leaveMCastGroup_ensures (h : Consistent s) {key : Nat} (hKey : key < s.mcastConns.length) :
    Ensures (leaveMCastGroup key fault) s (fun _ t => Dropped s (.mcast key) t)
      (fun _ t => t = s ∧ fault ≠ none) := by
  have hSome : s.mcastConns ≠ [] := List.ne_nil_of_length_pos (Nat.zero_lt_of_lt hKey)
  have hConn : s.mcastConns[key]? = some s.mcastConns[key] := List.getElem?_eq_getElem hKey
  refine .get ?_
  rw [if_neg hSome, hConn]
  dsimp only
  by_cases hActive : s.mcastConns[key].active = true
  · rw [if_neg (by simp [hActive])]
    refine .guard (fun hFault => ⟨rfl, by simp [hFault]⟩) fun _ => ?_
    refine .bind (destroyParts_ensures h hConn hActive) ?_
    intro _ t ht
    have hRest : t = { s with device := t.device } := ht.same
    have hDevice : s.device.Without {gone | gone ∈ claims s (.mcast key)} t.device := ht.store
    rw [hRest]
    refine .modify ⟨hDevice, ?_, rfl, rfl, id, ?_, ?_, rfl, rfl⟩
    · exact claims_leave hConn
    · intro i conn hOther hStill
      by_cases hSame : i = key
      · subst hSame
        rw [List.getElem?_set_self hKey] at hOther
        obtain rfl := Option.some.inj hOther
        cases hStill
      · rwa [List.getElem?_set_ne (Ne.symm hSame)] at hOther
    · exact List.length_set
  · rw [if_pos (by simpa using hActive)]
    have hNone : claims s (.mcast key) = [] := by
      rw [claims, hConn, groupParts, if_neg hActive]
    refine .pure ⟨?_, ?_, rfl, rfl, id, fun hOther _ => hOther, rfl, rfl, rfl⟩
    · exact (Lifetimes.Store.Without.refl _).congr fun gone => by simp [hNone]
    · rw [← hNone, Function.update_eq_self]

/-- Leaving gives back the eight objects of the group, and keeps everything else. -/
theorem leaveMCastGroup_keeps (h : Consistent s) {key : Nat} (hKey : key < s.mcastConns.length) :
    Keeps s fault (leaveMCastGroup key fault) := by
  refine (leaveMCastGroup_ensures h hKey).weaken ?_ ?_
  · exact fun _ t ht => ⟨ht.consistent h, fun _ => ht.strays.tidy⟩
  · rintro _ t ⟨rfl, hFault⟩
    exact ⟨h, hFault⟩

end Leaving

section Runs

/-- The verb that fails in a step. -/
def Action.fault : Action → Option Fault
  | .initQP fault | .initQPWithSuppliedID _ fault | .connectInit fault | .connectQP _ fault
  | .joinMCastGroup fault | .leaveMCastGroup _ fault => fault
  | .accepted _ | .setRemoteConnData _ => none

/-- A return value that is not looked at changes nothing. -/
theorem Keeps.ignoring {α : Type} {fault : Option Fault} {call : UDCall α}
    (h : Keeps s fault call) : Keeps s fault (ignoring call) :=
  .seq h fun _ _ ht => .return ht ()

/-- Every call keeps the invariant, whether its verbs fail or not. -/
theorem perform_keeps (h : Consistent s) {a : Action} {call : UDCall Unit}
    (hCall : perform s a = some call) : Keeps s a.fault call := by
  have hSupplied : ∀ rdmaConnID fault, Keeps s fault (initQPWithSuppliedID rdmaConnID fault) :=
    fun rdmaConnID _ => .seq (initQPUnstored_keeps h) fun q _ ht => setQP_keeps ht rdmaConnID q
  cases a with
  | initQP fault =>
      cases hCall
      refine Keeps.ignoring (.get ?_)
      exact Keeps.seq (hSupplied _ fault) fun _ _ ht => .return ht _
  | initQPWithSuppliedID rdmaConnID fault =>
      cases hCall
      exact hSupplied rdmaConnID fault
  | connectInit fault =>
      cases hCall
      exact (initQPUnstored_keeps h).ignoring
  | accepted rdmaConnID =>
      obtain ⟨q, -, rfl⟩ := Option.map_eq_some_iff.mp hCall
      exact .seq (setQP_keeps h rdmaConnID q) fun _ _ ht => setRemoteConnData_keeps ht rdmaConnID
  | setRemoteConnData rdmaConnID =>
      cases hCall
      exact setRemoteConnData_keeps h rdmaConnID
  | connectQP rdmaConnID fault =>
      obtain ⟨hReads, hSame⟩ := Option.ite_none_right_eq_some.mp hCall
      cases hSame
      exact connectQP_keeps h hReads
  | joinMCastGroup fault =>
      cases hCall
      exact (joinMCastGroup_keeps h).ignoring
  | leaveMCastGroup rdmaConnID fault =>
      obtain ⟨hKey, hSame⟩ := Option.ite_none_right_eq_some.mp hCall
      cases hSame
      exact leaveMCastGroup_keeps h hKey

/-- Every step of a run keeps the invariant, and a step without a failure keeps the
strays in order. -/
theorem next_keeps (h : Consistent s) {a : Action} (hNext : lifeMachine.next s a = some t) :
    Consistent t ∧ (a.fault = none → Tidy s → Tidy t) := by
  obtain ⟨call, hCall, hOutcome⟩ := Option.bind_eq_some_iff.mp hNext
  obtain ⟨⟨result, last⟩, hLast, rfl⟩ := Option.map_eq_some_iff.mp hOutcome
  obtain ⟨found, u, hFound, hPost⟩ := perform_keeps h hCall
  obtain ⟨rfl, rfl⟩ : found = result ∧ u = last := by
    simpa using Option.some.inj (hFound.symm.trans hLast)
  cases found with
  | ok value => exact hPost
  | error e => exact ⟨hPost.1, fun hNone => (hPost.2 hNone).elim⟩

/-- Behind the constructor there are the protection domain and the memory region. -/
theorem createBuffer_object {handle : Nat}
    (h : createBuffer.device.object handle = some value) :
    (handle = 0 ∧ value = .pd) ∨ (handle = 1 ∧ value = .mr 0) := by
  simp only [createBuffer, Lifetimes.Store.add, Lifetimes.Store.empty, Function.update_apply] at h
  split at h
  · exact .inr ⟨‹_›, (Option.some.inj h).symm⟩
  · split at h
    · exact .inl ⟨‹_›, (Option.some.inj h).symm⟩
    · cases h

theorem mem_createBuffer {owner : Owner} {handle : Nat} :
    handle ∈ claims createBuffer owner ↔ owner = .base ∧ (handle = 0 ∨ handle = 1) := by
  cases owner <;> simp [claims, createBuffer, udqpParts, groupParts]

theorem createBuffer_consistent : Consistent createBuffer where
  pd := rfl
  mr := rfl
  udqp hQp := by cases hQp
  joined hConn := by cases hConn
  numbered := Nat.le_refl _
  unique hOwner hOther := by
    rw [(mem_createBuffer.mp hOwner).1, (mem_createBuffer.mp hOther).1]
  inside {owner handle user} hClaimed _ hUses := by
    obtain ⟨found, hUser, -⟩ := hUses
    rcases createBuffer_object hUser with ⟨hFirst, -⟩ | ⟨hSecond, -⟩
    · exact mem_createBuffer.mpr ⟨(mem_createBuffer.mp hClaimed).1, .inl hFirst⟩
    · exact mem_createBuffer.mpr ⟨(mem_createBuffer.mp hClaimed).1, .inr hSecond⟩

theorem createBuffer_tidy : Tidy createBuffer := by
  have hNone : strays createBuffer = ∅ := by
    ext handle
    refine ⟨?_, fun hNever => hNever.elim⟩
    rintro ⟨⟨value, hLive⟩, hNobody⟩
    apply hNobody .base
    rcases createBuffer_object hLive with ⟨hFirst, -⟩ | ⟨hSecond, -⟩
    · exact mem_createBuffer.mpr ⟨rfl, .inl hFirst⟩
    · exact mem_createBuffer.mpr ⟨rfl, .inr hSecond⟩
  have hOf : ∀ value, straysOf createBuffer value = ∅ := by
    intro value
    ext handle
    simp [straysOf, hNone]
  have hNothing : ∀ {numbers : Set Nat}, numbers = ∅ → Numbered numbers ∅ := by
    rintro numbers rfl
    exact ⟨id, Set.bijOn_empty id⟩
  constructor
  · rw [hNone]
    exact fun handle hStray => hStray.elim
  · rw [hOf]
    exact hNothing (by simp [createBuffer])
  · rw [hOf]
    exact hNothing (by simp [createBuffer])

/-- The invariant holds after any sequence of calls, whatever failed. -/
theorem reachable_consistent (h : lifeMachine.Reachable s) : Consistent s :=
  h.invariant createBuffer_consistent fun _ _ _ hs hNext => (next_keeps hs hNext).1

/-- Without a failure, what has strayed is what connecting and joining leave behind. -/
theorem faultless_tidy {visits : List (UnreliableRDMA × Action)} (run : lifeMachine.RunsTo visits s)
    (hFaultless : ∀ visit ∈ visits, visit.2.fault = none) : Consistent s ∧ Tidy s := by
  refine @Machine.RunsTo.invariant_of_guard _ _ lifeMachine (fun _ a => a.fault = none)
    (fun s => Consistent s ∧ Tidy s) visits s run ⟨createBuffer_consistent, createBuffer_tidy⟩ ?_
    hFaultless
  rintro s a t ⟨hs, hTidy⟩ hStep hNext
  obtain ⟨ht, hKept⟩ := next_keeps hs hNext
  exact ⟨ht, hKept hStep hTidy⟩

end Runs

section Destructor

/-- Nothing uses a queue pair or a memory region. -/
theorem not_busy {handle : Nat} (hObject : d.object handle = some value)
    (hKind : value.kind = .qp ∨ value.kind = .mr) : ¬ d.Busy handle := by
  rintro ⟨user, found, hUser, kind, hUsed⟩
  obtain ⟨other, hOther, rfl⟩ := d.closed hUser hUsed
  obtain rfl : value = other := Option.some.inj (hObject.symm.trans hOther)
  have hNeither : ∀ k, (k, handle) ∈ found.uses → k ≠ .qp ∧ k ≠ .mr := by
    intro k hMem
    cases found <;> simp [Object.uses] at hMem <;> grind
  exact hKind.elim (hNeither _ hUsed).1 (hNeither _ hUsed).2

/-- The completion queues of the shared queue pair are used by nothing else. -/
theorem udqp_user (h : Consistent s) {q : IbQp} (hQp : s.udqp = some q) {user handle : Nat}
    (hHandle : handle = q.sendCq ∨ handle = q.recvCq) (hUses : s.device.Uses user handle) :
    user = q.qp := by
  have hShared := h.udqp hQp
  have hParts : ∀ {i}, i ∈ claims s .udqp ↔ i = q.qp ∨ i = q.sendCq ∨ i = q.recvCq := by
    simp [claims, hQp, udqpParts]
  have hClaimed : handle ∈ claims s .udqp := hParts.mpr (.inr hHandle)
  rcases hParts.mp (h.inside hClaimed (h.ne_pd hClaimed (by simp)) hUses) with hSame | rfl | rfl
  · exact hSame
  · exact (not_uses_of_nil hShared.send rfl hUses).elim
  · exact (not_uses_of_nil hShared.recv rfl hUses).elim

/-- The queues go after the queue pair. -/
theorem destroyQPs_ensures (h : Consistent s) :
    Ensures destroyQPs s (fun _ t => Dropped s .udqp t) failed := by
  refine .get ?_
  cases hQp : s.udqp with
  | none =>
      have hNone : claims s .udqp = [] := by rw [claims, hQp, udqpParts]
      refine .pure ⟨?_, ?_, rfl, rfl, id, fun hOther _ => hOther, rfl, rfl, rfl⟩
      · exact (Lifetimes.Store.Without.refl _).congr fun gone => by simp [hNone]
      · rw [← hNone, Function.update_eq_self]
  | some q =>
      have hShared := h.udqp hQp
      have hQueue : ∀ {lost : Set Nat} {t : UnreliableRDMA} {cq : Nat}, keeper.Dropped s lost t →
          (cq = q.sendCq ∨ cq = q.recvCq) → q.qp ∈ lost → cq ∉ lost →
          Ensures (destroy .cq cq) t
            (fun ended u => ended = true ∧ keeper.Dropped s (lost ∪ {cq}) u) failed := by
        intro lost t cq ht hCq hGone hKept
        have hStore : s.device.Without lost t.device := ht.store
        have hObject : s.device.Holds .cq cq := by
          rcases hCq with rfl | rfl
          · exact ⟨_, hShared.send, rfl⟩
          · exact ⟨_, hShared.recv, rfl⟩
        have hIdle : ¬ t.device.Busy cq := by
          rintro ⟨user, hUses⟩
          obtain ⟨hLive, hOld⟩ := hStore.uses_iff.mp hUses
          exact hLive (udqp_user h hQp hCq hOld ▸ hGone)
        refine (keeper.destroy_idle (hStore.holds_iff.mpr ⟨hKept, hObject⟩) hIdle).weaken ?_
          fun _ _ hFailed => hFailed
        exact fun _ u hu => ⟨hu.1, ht.trans hu.2⟩
      have hSendQp : q.sendCq ≠ q.qp := fun hSame => by
        have hSend := hShared.send
        rw [hSame, hShared.qp] at hSend
        cases hSend
      have hRecvQp : q.recvCq ≠ q.qp := fun hSame => by
        have hRecv := hShared.recv
        rw [hSame, hShared.qp] at hRecv
        cases hRecv
      refine .bind (keeper.destroy_idle ⟨_, hShared.qp, rfl⟩ (not_busy hShared.qp (.inl rfl))) ?_
      rintro _ t ⟨rfl, ht⟩
      refine .guard (fun hNever => (hNever rfl).elim) fun _ => ?_
      have hBoth : Ensures (destroyQueues (destroy .cq) q.sendCq q.recvCq) t
          (fun _ v => keeper.Dropped s ({q.qp} ∪ {q.sendCq} ∪ {q.recvCq}) v) failed := by
        refine .bind (hQueue ht (.inl rfl) rfl hSendQp) ?_
        rintro _ u ⟨rfl, hu⟩
        refine .guard (fun hNever => (hNever rfl).elim) fun _ => ?_
        refine .bind (hQueue hu (.inr rfl) (.inl rfl) ?_) fun _ v hv => .pure hv.2
        rintro (hSame | hSame)
        · exact hRecvQp hSame
        · exact hShared.distinct hSame.symm
      refine .bind hBoth ?_
      intro _ v hv
      have hRest : v = { s with device := v.device } := hv.same
      have hDevice : s.device.Without _ v.device := hv.store
      rw [hRest]
      refine .modify ⟨hDevice.congr fun gone => ?_, ?_, rfl, rfl, fun hNone => (by cases hNone),
        fun hOther _ => hOther, rfl, rfl, rfl⟩
      · simp [claims, hQp, udqpParts]
        tauto
      · funext owner
        cases owner <;> rfl

/-- What members do not stand for, and what that uses. -/
def Left (s : UnreliableRDMA) (handle : Nat) : Prop :=
  handle ∈ strays s ∨ ∃ user ∈ strays s, s.device.Uses user handle

/-- Where only the groups in question were left since. -/
structure Emptied (s : UnreliableRDMA) (done : List Nat) (t : UnreliableRDMA) : Prop where
  consistent : Consistent t
  kept : Kept s t
  length : t.mcastConns.length = s.mcastConns.length
  old : ∀ {handle value}, t.device.object handle = some value →
    s.device.object handle = some value
  left : ∀ {key}, key ∈ done → claims t (.mcast key) = []

theorem Kept.trans (h : Kept s t) (hNext : Kept t u) : Kept s u where
  pd := hNext.pd.trans h.pd
  connected := hNext.connected.trans h.connected
  last := hNext.last.trans h.last
  strays := hNext.strays.trans h.strays
  object {handle} hHandle := by
    rw [hNext.object (h.strays ▸ hHandle), h.object hHandle]

/-- What is alive after giving back was alive before. -/
theorem Dropped.old {chosen : Owner} (h : Dropped s chosen t) {handle : Nat}
    (hLive : t.device.object handle = some value) : s.device.object handle = some value :=
  (h.device.object_iff.mp hLive).2

/-- The destructor leaves all groups. -/
theorem leaveAll_ensures (h : Consistent s) :
    Ensures ((List.range s.mcastConns.length).forM fun mcastID => leaveMCastGroup mcastID none) s
      (fun _ t => Emptied s (List.range s.mcastConns.length) t) failed := by
  apply Ensures.forM (fun done t => Emptied s done t)
  · exact ⟨h, ⟨rfl, rfl, rfl, rfl, fun _ => rfl⟩, rfl, id, nofun⟩
  · intro done key rest t hRange ht
    have hKey : key < t.mcastConns.length := by
      rw [ht.length, ← List.mem_range, hRange]
      simp
    refine (leaveMCastGroup_ensures ht.consistent hKey).weaken ?_ ?_
    · intro _ u hu
      refine ⟨hu.consistent ht.consistent, ht.kept.trans hu.strays, hu.length.trans ht.length,
        fun hLive => ht.old (hu.old hLive), fun {other} hDone => ?_⟩
      rw [hu.claims, Function.update_apply]
      split
      · rfl
      · rename_i hOther
        refine ht.left ((List.mem_append.mp hDone).resolve_right fun hLast => hOther ?_)
        exact congrArg Owner.mcast (List.mem_singleton.mp hLast)
    · exact fun _ u hu => (hu.2 rfl).elim

/-- The state in which `~BaseRDMA` starts. -/
structure Bare (s t : UnreliableRDMA) : Prop where
  consistent : Consistent t
  kept : Kept s t
  old : ∀ {handle value}, t.device.object handle = some value →
    s.device.object handle = some value
  claims : ∀ {owner handle}, handle ∈ claims t owner → owner = .base

/-- When all groups and the shared queue pair are gone, only the base class owns
something. -/
theorem Emptied.bare (ht : Emptied s (List.range s.mcastConns.length) t)
    (hu : Dropped t .udqp u) : Bare s { u with qps := [] } where
  consistent := (hu.consistent ht.consistent).setQPs []
  kept := ht.kept.trans ⟨hu.pd, hu.connected, hu.last, hu.strays.strays, hu.strays.object⟩
  old hLive := ht.old (hu.old hLive)
  claims {owner handle} hClaimed := by
    have hNow : handle ∈ DatagramObjects.claims u owner := by
      cases owner <;> exact hClaimed
    obtain ⟨hOwner, hOld⟩ := hu.mem_claims.mp hNow
    cases owner with
    | base => rfl
    | udqp => exact (hOwner rfl).elim
    | mcast key =>
        by_cases hKey : key < s.mcastConns.length
        · rw [ht.left (List.mem_range.mpr hKey)] at hOld
          cases hOld
        · have hNone : t.mcastConns[key]? = none :=
            List.getElem?_eq_none (by rw [ht.length]; exact Nat.le_of_not_lt hKey)
          rw [DatagramObjects.claims, hNone] at hOld
          cases hOld

/-- The base class owns the protection domain and the memory region. -/
theorem mem_base {handle : Nat} : handle ∈ claims s .base ↔ handle = s.pd ∨ handle = s.mr := by
  simp [claims]

theorem Consistent.mr_ne_pd (h : Consistent s) : s.mr ≠ s.pd := by
  intro hSame
  have hMr := h.mr
  rw [hSame, h.pd] at hMr
  cases hMr

/-- Only strays still use the domain once the region is gone. -/
theorem Bare.user_stray (h : Bare s t) {user : Nat} (hUses : t.device.Uses user t.pd)
    (hOther : user ≠ t.mr) : user ∈ strays s := by
  obtain ⟨found, hUser, kind, hUsed⟩ := hUses
  rw [← h.kept.strays]
  refine ⟨⟨found, hUser⟩, fun owner hClaimed => ?_⟩
  obtain rfl := h.claims hClaimed
  rcases mem_base.mp hClaimed with rfl | hMr
  · obtain rfl := Option.some.inj (hUser.symm.trans h.consistent.pd)
    cases hUsed
  · exact hOther hMr

/-- Giving back what has an owner does not change what a stray uses. -/
theorem stray_uses (h : Kept s t) {user handle : Nat} (hStray : user ∈ strays s) :
    t.device.Uses user handle ↔ s.device.Uses user handle := by
  simp only [Lifetimes.Store.Uses, h.object hStray]

/-- A stray uses strays and the domain. -/
theorem Consistent.left_cases (h : Consistent s) {handle : Nat} (hLeft : Left s handle) :
    handle ∈ strays s ∨ handle = s.pd := by
  rcases hLeft with hStray | ⟨user, hStray, hUses⟩
  · exact .inl hStray
  · by_cases hDomain : handle = s.pd
    · exact .inr hDomain
    · obtain ⟨k, value, hLive, -⟩ := Lifetimes.Store.holds_of_uses hUses
      exact .inl ⟨⟨value, hLive⟩, fun owner hClaimed =>
        hStray.2 owner (h.inside hClaimed hDomain hUses)⟩

/-- `~BaseRDMA` takes the memory region, and the domain if nothing uses it. -/
theorem destroyBase_ensures (h : Consistent s) (ht : Bare s t) :
    Ensures destroyBase t (fun _ u => s.device.Without {gone | ¬ Left s gone} u.device)
      failed := by
  have hMr := ht.consistent.mr
  refine .get (.bind (keeper.destroy_idle ⟨_, hMr, rfl⟩ (not_busy hMr (.inr rfl))) ?_)
  rintro _ u ⟨-, hu⟩
  have hFirst : t.device.Without {t.mr} u.device := hu.store
  have hPd : u.device.Holds .pd t.pd :=
    hFirst.holds_iff.mpr ⟨fun hSame => ht.consistent.mr_ne_pd hSame.symm, _, ht.consistent.pd, rfl⟩
  refine .bind (keeper.destroy_ensures hPd) ?_
  intro _ v hv
  have hBoth : t.device.Without ({t.mr} ∪ {gone | gone = t.pd ∧ ¬ u.device.Busy t.pd}) v.device :=
    hFirst.trans hv.store
  have hBusy : u.device.Busy t.pd ↔ Left s t.pd := by
    constructor
    · rintro ⟨user, hUses⟩
      obtain ⟨hOther, hOld⟩ := hFirst.uses_iff.mp hUses
      have hStray := ht.user_stray hOld hOther
      exact .inr ⟨user, hStray, (stray_uses ht.kept hStray).mp hOld⟩
    · rintro (hStray | ⟨user, hStray, hUses⟩)
      · rw [← ht.kept.strays] at hStray
        exact (hStray.2 .base (mem_base.mpr (.inl rfl))).elim
      · refine ⟨user, hFirst.uses_iff.mpr ⟨?_, (stray_uses ht.kept hStray).mpr hUses⟩⟩
        rw [← ht.kept.strays] at hStray
        exact fun hSame => hStray.2 .base (mem_base.mpr (.inr hSame))
  refine .pure ⟨fun {handle} hGone => ?_, fun {handle} hKept => ?_⟩
  · cases hLast : v.device.object handle with
    | none => rfl
    | some value =>
        exfalso
        obtain ⟨hLive, hNow⟩ := hBoth.object_iff.mp hLast
        by_cases hStray : handle ∈ strays t
        · exact hGone (.inl (ht.kept.strays ▸ hStray))
        · have hClaimed : ∃ owner, handle ∈ claims t owner := by
            by_contra hNobody
            exact hStray ⟨⟨value, hNow⟩, fun owner hOwner => hNobody ⟨owner, hOwner⟩⟩
          obtain ⟨owner, hOwner⟩ := hClaimed
          obtain rfl := ht.claims hOwner
          rcases mem_base.mp hOwner with rfl | hRegion
          · exact hLive (.inr ⟨rfl, fun hUsed => hGone (hBusy.mp hUsed)⟩)
          · exact hLive (.inl hRegion)
  · have hLeft : Left s handle := not_not.mp hKept
    have hSame : t.device.object handle = s.device.object handle := by
      rcases h.left_cases hLeft with hStray | rfl
      · exact ht.kept.object hStray
      · rw [h.pd, ← ht.kept.pd, ht.consistent.pd]
    rw [← hSame]
    apply hBoth.kept
    rintro (hRegion | ⟨rfl, hIdle⟩)
    · rcases h.left_cases hLeft with hStray | hDomain
      · rw [← ht.kept.strays] at hStray
        exact hStray.2 .base (mem_base.mpr (.inr hRegion))
      · rw [hDomain, ← ht.kept.pd] at hRegion
        exact ht.consistent.mr_ne_pd hRegion.symm
    · exact hIdle (hBusy.mpr hLeft)

/-- The destructor throws in no case, and what it leaves is what no member stands for
and what that uses. -/
theorem destructor_ensures (h : Consistent s) :
    Ensures destructor s (fun _ t => s.device.Without {gone | ¬ Left s gone} t.device)
      fun _ _ => False := by
  refine .get (.bind (leaveAll_ensures h) ?_)
  intro _ t ht
  refine .bind (destroyQPs_ensures ht.consistent) ?_
  intro _ u hu
  have hClear : Ensures (modify fun s : UnreliableRDMA => { s with qps := [] } : UDCall Unit) u
      (fun _ v => v = { u with qps := [] }) (fun _ _ => False) := .modify rfl
  refine .bind hClear ?_
  rintro _ _ rfl
  exact destroyBase_ensures h (ht.bare hu)

end Destructor

/-- A group is left, another cannot be joined, and a third is still joined. -/
def unclaimedActions : List Action :=
  [.initQPWithSuppliedID 0 none, .joinMCastGroup none, .joinMCastGroup (some .cmQp),
    .leaveMCastGroup 0 none, .joinMCastGroup none, .leaveMCastGroup 2 (some .leave),
    .leaveMCastGroup 1 none, .setRemoteConnData 0, .connectQP 0 none]

def unclaimedState : UnreliableRDMA :=
  (lifeMachine.replay createBuffer unclaimedActions).get (by decide +kernel)

section Faultless

/-- The domain is left if there is a connection. -/
theorem Tidy.left_iff (h : Consistent s) (hTidy : Tidy s) {handle : Nat} :
    Left s handle ↔
      handle ∈ strays s ∨ (handle = s.pd ∧ (straysOf s (.ah s.pd)).Nonempty) := by
  constructor
  · intro hLeft
    rcases h.left_cases hLeft with hStray | hDomain
    · exact .inl hStray
    · rcases hLeft with hStray | ⟨user, hStray, hUses⟩
      · exact .inl hStray
      · rcases hTidy.kinds user hStray with hHandle | hList
        · exact .inr ⟨hDomain, user, hStray, hHandle⟩
        · exact (not_uses_of_nil hList rfl hUses).elim
  · rintro (hStray | ⟨rfl, user, hStray, hHandle⟩)
    · exact .inl hStray
    · exact .inr ⟨user, hStray, _, hHandle, .pd, List.mem_singleton_self _⟩

/-- What is left in the device is numbered by connections and joins. -/
theorem Tidy.leaves (h : Consistent s) (hTidy : Tidy s) {d : Device}
    (hWithout : s.device.Without {gone | ¬ Left s gone} d) (handle : Nat) (value : Object) :
    d.object handle = some value ↔
      (value = .ah s.pd ∧ handle ∈ straysOf s (.ah s.pd)) ∨
      (value = .addrInfo ∧ handle ∈ straysOf s .addrInfo) ∨
      (value = .pd ∧ handle = s.pd ∧ (straysOf s (.ah s.pd)).Nonempty) := by
  rw [hWithout.object_iff, Set.mem_ofPred_eq, not_not, hTidy.left_iff h]
  constructor
  · rintro ⟨hStray | ⟨rfl, hSome⟩, hFound⟩
    · rcases hTidy.kinds handle hStray with hHandle | hList
      · exact .inl ⟨Option.some.inj (hFound.symm.trans hHandle), hStray, hHandle⟩
      · exact .inr (.inl ⟨Option.some.inj (hFound.symm.trans hList), hStray, hList⟩)
    · exact .inr (.inr ⟨Option.some.inj (hFound.symm.trans h.pd), rfl, hSome⟩)
  · rintro (⟨rfl, hStray, hFound⟩ | ⟨rfl, hStray, hFound⟩ | ⟨rfl, rfl, hSome⟩)
    · exact ⟨.inl hStray, hFound⟩
    · exact ⟨.inl hStray, hFound⟩
    · exact ⟨.inr ⟨rfl, hSome⟩, h.pd⟩

end Faultless

/-- Where no verb fails, the destructor leaves one address handle for each
connection, the list of addresses of each join, the domain if there is a
connection, and nothing else. -/
theorem faultless_teardown {visits : List (UnreliableRDMA × Action)}
    (run : lifeMachine.RunsTo visits s) (hFaultless : ∀ visit ∈ visits, visit.2.fault = none) :
    ∃ t ah info, destructor.outcome s = some (.ok (), t) ∧
      Set.InjOn ah {rdmaConnID | s.connected rdmaConnID = true} ∧
      Set.InjOn info {key | key < s.lastMCastConnKey} ∧
      ∀ handle value, t.device.object handle = some value ↔
        (value = .ah s.pd ∧ ∃ rdmaConnID, s.connected rdmaConnID = true ∧ ah rdmaConnID = handle) ∨
        (value = .addrInfo ∧ ∃ key, key < s.lastMCastConnKey ∧ info key = handle) ∨
        (value = .pd ∧ handle = s.pd ∧ ∃ rdmaConnID, s.connected rdmaConnID = true) := by
  obtain ⟨hConsistent, hTidy⟩ := faultless_tidy run hFaultless
  obtain ⟨result, t, hOutcome, hPost⟩ := destructor_ensures hConsistent
  cases result with
  | error e => exact hPost.elim
  | ok _ =>
      obtain ⟨ah, hHandles⟩ := hTidy.handles
      obtain ⟨info, hLists⟩ := hTidy.lists
      refine ⟨t, ah, info, hOutcome, hHandles.injOn, hLists.injOn, fun handle value => ?_⟩
      have hAny : (straysOf s (.ah s.pd)).Nonempty ↔
          ∃ rdmaConnID, s.connected rdmaConnID = true := by
        rw [← hHandles.image_eq, Set.image_nonempty]
        rfl
      rw [hTidy.leaves hConsistent hPost, hAny, ← hHandles.image_eq, ← hLists.image_eq]
      rfl

/-- The run in which no verb fails: two connections, one of them made twice, and two
groups, one of which is left. -/
def faultlessActions : List Action :=
  [.initQPWithSuppliedID 0 none, .initQP none, .setRemoteConnData 1, .connectQP 1 none,
    .joinMCastGroup none, .connectInit none, .accepted 4, .connectQP 4 none, .connectQP 1 none,
    .joinMCastGroup none, .leaveMCastGroup 0 none]

def faultlessState : UnreliableRDMA :=
  (lifeMachine.replay createBuffer faultlessActions).get (by decide +kernel)

/-- After connections, joins and one group that was left. -/
theorem faultless_teardown_replayed : ∃ t ah info,
    destructor.outcome faultlessState = some (.ok (), t) ∧
      Set.InjOn ah {rdmaConnID | faultlessState.connected rdmaConnID = true} ∧
      Set.InjOn info {key | key < faultlessState.lastMCastConnKey} ∧
      ∀ handle value, t.device.object handle = some value ↔
        (value = .ah faultlessState.pd ∧
          ∃ rdmaConnID, faultlessState.connected rdmaConnID = true ∧ ah rdmaConnID = handle) ∨
        (value = .addrInfo ∧
          ∃ key, key < faultlessState.lastMCastConnKey ∧ info key = handle) ∨
        (value = .pd ∧ handle = faultlessState.pd ∧
          ∃ rdmaConnID, faultlessState.connected rdmaConnID = true) := by
  have hRun : lifeMachine.RunsTo (lifeMachine.record createBuffer faultlessActions)
      faultlessState :=
    @Machine.runsTo_of_replay _ _ lifeMachine _ faultlessActions (Option.some_get _).symm
  have hActions : ∀ a ∈ faultlessActions, a.fault = none := by decide
  exact faultless_teardown hRun fun visit hVisit =>
    hActions _ (lifeMachine.action_mem_of_record faultlessActions createBuffer hVisit)

end DatagramObjects
