import Mathlib.Tactic.Tauto
import RDMAPatterns.Verbs.Wiring

/-! Every call keeps the wiring, and in a run in which no verb fails and no
queue pair is stored over another, the object knows all that was created. -/
namespace VerbObjects

open Calls Transition

variable {s t u : ReliableRDMA} {fault : Option Fault} {failed : String → ReliableRDMA → Prop}

/-- The second state is the first without some objects. -/
abbrev Dropped (s : ReliableRDMA) (lost : Set Nat) (t : ReliableRDMA) : Prop :=
  keeper.Dropped s lost t

/-- Destroying objects changes nothing but the device. -/
theorem Dropped.rest {lost : Set Nat} (h : Dropped s lost t) : t = { s with device := t.device } :=
  h.same

theorem Dropped.device {lost : Set Nat} (h : Dropped s lost t) : s.device.Without lost t.device :=
  h.store

section Destroying

variable {kind : Kind} {handle : Nat} {lost : Set Nat}

/-- A queue pair that is gone is attached to nothing. -/
theorem Dropped.attached (h : Dropped s lost t) {qp cq : Nat} :
    Attached t.device qp cq ↔ qp ∉ lost ∧ Attached s.device qp cq :=
  attached_without h.device

/-- A verb ends an object that nothing uses, and refuses one that is in use. -/
theorem destroy_ensures (hLive : s.device.Holds kind handle) :
    Ensures (destroy kind handle) s
      (fun _ t => Dropped s {gone | gone = handle ∧ ¬ s.device.Busy handle} t) failed :=
  keeper.destroy_ensures hLive

/-- Nothing uses the object, so the verb succeeds. -/
theorem destroy_idle (hLive : s.device.Holds kind handle) (hIdle : ¬ s.device.Busy handle) :
    Ensures (destroy kind handle) s
      (fun ended t => ended = true ∧ Dropped s {handle} t) failed :=
  keeper.destroy_idle hLive hIdle

/-- Something uses the object, so the verb fails and nothing changes. -/
theorem destroy_busy (hLive : s.device.Holds kind handle) (hBusy : s.device.Busy handle) :
    Ensures (destroy kind handle) s (fun ended t => ended = false ∧ t = s) failed :=
  keeper.destroy_busy hLive hBusy

/-- What goes with a queue pair: its receive queue only if it was the last to use it. -/
def Lost (d : Device) (q : IbQp) : Set Nat :=
  {gone | gone = q.qp ∨ gone = q.sendCq ∨
    (gone = q.recvCq ∧ ∀ user, Attached d user q.recvCq → user = q.qp)}

/-- A queue pair with a send queue of its own is destroyed without an exception. -/
theorem destroyQP_ensures {q : IbQp} {pd : Nat} {srq : Option Nat}
    (hQp : s.device.object q.qp = some (.qp pd q.sendCq q.recvCq srq))
    (hDistinct : q.sendCq ≠ q.recvCq)
    (hSend : ∀ {user}, Attached s.device user q.sendCq → user = q.qp) :
    Ensures (destroyQP q) s (fun _ t => Dropped s (Lost s.device q) t) failed := by
  obtain ⟨hToSend, hToRecv⟩ := Wired.attached hQp
  have hSendLive : s.device.object q.sendCq = some .cq := hToSend.live
  have hRecvLive : s.device.object q.recvCq = some .cq := hToRecv.live
  have hNotSend : ∀ {user cq}, Attached s.device user cq → user ≠ q.sendCq := by
    rintro user cq ⟨_, _, _, _, hUser, -⟩ rfl
    cases hUser.symm.trans hSendLive
  have hSendOther : q.sendCq ∉ ({q.qp} : Set Nat) := (hNotSend hToSend).symm
  have hRecvOther : q.recvCq ≠ q.qp := fun hSame => by
    rw [hSame, hQp] at hRecvLive
    cases hRecvLive
  refine .bind (destroy_idle ⟨_, hQp, rfl⟩ (not_busy hQp (.inl rfl))) ?_
  rintro _ t ⟨rfl, hFirst⟩
  refine .guard (fun hEnded => (hEnded rfl).elim) fun _ => ?_
  have hSendNow : t.device.object q.sendCq = some .cq :=
    hFirst.device.object_iff.mpr ⟨hSendOther, hSendLive⟩
  have hIdle : ¬ t.device.Busy q.sendCq := by
    rintro ⟨user, hUses⟩
    obtain ⟨hOther, hUser⟩ := hFirst.attached.mp ((uses_cq hSendNow).mp hUses)
    exact hOther (hSend hUser)
  refine .bind (destroy_idle ⟨_, hSendNow, rfl⟩ hIdle) ?_
  rintro _ u ⟨rfl, hSecond⟩
  refine .guard (fun hEnded => (hEnded rfl).elim) fun _ => ?_
  have hBoth : Dropped s ({q.qp} ∪ {q.sendCq}) u := hFirst.trans hSecond
  have hRecvNow : u.device.object q.recvCq = some .cq :=
    hBoth.device.object_iff.mpr ⟨by simp [hRecvOther, hDistinct.symm], hRecvLive⟩
  refine .bind (destroy_ensures ⟨_, hRecvNow, rfl⟩) ?_
  rintro _ v hThird
  refine .pure ((hBoth.trans hThird).congr fun gone => ?_)
  have hLast : ¬ u.device.Busy q.recvCq ↔
      ∀ user, Attached s.device user q.recvCq → user = q.qp := by
    simp only [Lifetimes.Store.Busy, uses_cq hRecvNow, hBoth.attached, not_exists]
    constructor
    · intro hNone user hUser
      by_contra hOther
      exact hNone user ⟨by simp [hOther, hNotSend hUser], hUser⟩
    · rintro hOnly user ⟨hKept, hUser⟩
      exact hKept (.inl (hOnly user hUser))
  simp only [Lost, hLast, Set.mem_ofPred_eq, Set.mem_union, Set.mem_singleton_iff, or_assoc]

/-- Objects that the other members do not stand for may go. -/
theorem Consistent.dropped (h : Consistent s) (hDropped : Dropped s lost t) (hPd : s.pd ∉ lost)
    (hMr : s.mr ∉ lost) (hSlots : ∀ {place q}, s.slot place = some q → q.qp ∉ lost)
    (hSrqs : ∀ {rq}, rq ∈ s.srqs → rq.sharedRq ∉ lost ∧ rq.recvCq ∉ lost) : Consistent t := by
  obtain ⟨device, pd, mr, qps, srqs, calls⟩ := t
  obtain ⟨rfl, rfl, rfl, rfl, rfl⟩ :
      pd = s.pd ∧ mr = s.mr ∧ qps = s.qps ∧ srqs = s.srqs ∧ calls = s.calls := by
    simpa using hDropped.rest
  have hWithout := hDropped.device
  have hOwn : ∀ {qp cq}, Own s qp cq → Own { s with device := device } qp cq := fun hOwned =>
    ⟨fun hUser => hOwned.only (hDropped.attached.mp hUser).2, hOwned.unshared⟩
  have hKept : ∀ {handle value}, handle ∉ lost → s.device.object handle = some value →
      device.object handle = some value := fun hOut hOld => hWithout.object_iff.mpr ⟨hOut, hOld⟩
  exact
    { pd := hKept hPd h.pd
      mr := hKept hMr h.mr
      wired := fun hQp =>
        have hWired := h.wired (hWithout.object_iff.mp hQp).2
        ⟨hWired.domain, hWired.distinct, hOwn hWired.send, fun hNone => hOwn (hWired.own hNone),
          hWired.shared⟩
      slots := fun hSlot => (h.slots hSlot).imp fun _ hQp => hKept (hSlots hSlot) hQp
      calls := fun {call q} hSlot => hKept (@hSlots (.waiting call) q hSlot) (h.calls hSlot)
      apart := h.apart
      srqs := fun hRq => ⟨hKept (hSrqs hRq).1 (h.srqs hRq).1, hKept (hSrqs hRq).2 (h.srqs hRq).2⟩
      numbered := h.numbered }

end Destroying

/-- What the members stand for. -/
def Kept (s : ReliableRDMA) (handle : Nat) : Prop :=
  handle = s.pd ∨ handle = s.mr ∨ (∃ place q, s.slot place = some q ∧ q.Has handle) ∨
    ∃ rq ∈ s.srqs, handle = rq.sharedRq ∨ handle = rq.recvCq

/-- The members stand for all live objects. -/
def Tidy (s : ReliableRDMA) : Prop :=
  ∀ {handle value}, s.device.object handle = some value → Kept s handle

/-- No verb fails in the step, no queue pair is stored over another, and the
answer to a `connect` comes. -/
def Orderly (s : ReliableRDMA) : Action → Prop
  | .createSharedReceiveQueue fault => fault = none
  | .initQP fault => fault = none
  | .initQPWithSuppliedID rdmaConnID fault => fault = none ∧ s.slot (.stored rdmaConnID) = none
  | .initQPForSRQ _ fault => fault = none
  | .initQPForSRQWithSuppliedID _ rdmaConnID fault =>
      fault = none ∧ s.slot (.stored rdmaConnID) = none
  | .connect fault => fault = none
  | .accepted _ rdmaConnID => s.slot (.stored rdmaConnID) = none
  | .rejected _ => True
  | .unanswered _ => False

instance (s : ReliableRDMA) : (a : Action) → Decidable (Orderly s a)
  | .createSharedReceiveQueue _ => inferInstanceAs (Decidable (_ = none))
  | .initQP _ => inferInstanceAs (Decidable (_ = none))
  | .initQPWithSuppliedID .. => inferInstanceAs (Decidable (_ = none ∧ _ = none))
  | .initQPForSRQ .. => inferInstanceAs (Decidable (_ = none))
  | .initQPForSRQWithSuppliedID .. => inferInstanceAs (Decidable (_ = none ∧ _ = none))
  | .connect _ => inferInstanceAs (Decidable (_ = none))
  | .accepted .. => inferInstanceAs (Decidable (_ = none))
  | .rejected _ => isTrue trivial
  | .unanswered _ => isFalse id

section Steps

/-- What a call that may fail keeps, in which `ready` is what an orderly step asks for. -/
def Keeps (s : ReliableRDMA) (fault : Option Fault) (ready : Prop) (call : RDMACall Unit) : Prop :=
  Ensures call s (fun _ t => Consistent t ∧ (ready → Tidy s → Tidy t))
    (fun _ t => Consistent t ∧ fault ≠ none)

/-- What a member stands for is kept if the member is. -/
theorem Kept.mono {handle : Nat} (h : Kept s handle) (hPd : t.pd = s.pd) (hMr : t.mr = s.mr)
    (hSrqs : ∀ {rq}, rq ∈ s.srqs → rq ∈ t.srqs)
    (hSlots : ∀ {place q}, s.slot place = some q → q.Has handle → t.slot place = some q) :
    Kept t handle := by
  rw [Kept, hPd, hMr]
  rcases h with hSame | hSame | ⟨place, q, hSlot, hHas⟩ | ⟨rq, hRq, hSame⟩
  · exact .inl hSame
  · exact .inr (.inl hSame)
  · exact .inr (.inr (.inl ⟨place, q, hSlots hSlot hHas, hHas⟩))
  · exact .inr (.inr (.inr ⟨rq, hSrqs hRq, hSame⟩))

/-- The members stand for a queue pair that was made and put in an empty place. -/
theorem Made.tidy {srq : Option Nat} {q : IbQp} {chosen : Place} (h : Made s srq q t)
    (hRest : u = { t with qps := u.qps, calls := u.calls })
    (hSlots : ∀ place, u.slot place = if place = chosen then some q else t.slot place)
    (hEmpty : s.slot chosen = none) (hTidy : Tidy s) : Tidy u := by
  intro handle value hLive
  obtain ⟨new, hAdded, -, hNew⟩ := h.added
  rw [hRest] at hLive
  rcases hAdded.device.cases hLive with hOld | hMade
  · apply (hTidy hOld).mono
    · rw [hRest, hAdded.rest]
    · rw [hRest, hAdded.rest]
    · rw [hRest, hAdded.rest]
      exact id
    · intro place r hSlot _
      have hOther : place ≠ chosen := by
        rintro rfl
        rw [hEmpty] at hSlot
        cases hSlot
      rw [hSlots, if_neg hOther, hAdded.slot, hSlot]
  · exact .inr (.inr (.inl ⟨chosen, q, by rw [hSlots, if_pos rfl], hNew handle hMade⟩))

/-- A queue pair that goes into an empty slot has a member, and its objects do not
stray. -/
theorem Made.store {srq : Option Nat} {q : IbQp} (h : Made s srq q t) (hs : Consistent s)
    (rdmaConnID : Nat) :
    Consistent { t with qps := storeQP t.qps rdmaConnID q } ∧
      (s.slot (.stored rdmaConnID) = none → Tidy s →
        Tidy { t with qps := storeQP t.qps rdmaConnID q }) :=
  ⟨h.consistent.store rdmaConnID h.object fun hSlot => h.apart hs hSlot,
    h.tidy rfl (store_slot t rdmaConnID q)⟩

/-- With a number of the caller's, the entry must not hold another queue pair. -/
theorem initQPWithSuppliedID_keeps (h : Consistent s) (rdmaConnID : Nat) :
    Keeps s fault (s.slot (.stored rdmaConnID) = none) (initQPWithSuppliedID rdmaConnID fault) := by
  refine .bind (initQPUnstored_ensures h) ?_
  intro q t hMade
  exact .modify (hMade.store h rdmaConnID)

/-- The number of a queue pair of a shared receive queue may come from a remote node,
and then it can be in use. -/
theorem initQPForSRQWithSuppliedID_keeps (h : Consistent s) {rq : SharedRq} (hRq : rq ∈ s.srqs)
    (rdmaConnID : Nat) : Keeps s fault (s.slot (.stored rdmaConnID) = none)
      (initQPForSRQWithSuppliedID rq rdmaConnID fault) := by
  refine .bind (createQPForSRQ_ensures h hRq) ?_
  intro q t hMade
  refine .guard (fun hFault => ⟨hMade.consistent, by simp [hFault]⟩) fun _ => ?_
  exact .modify (hMade.store h rdmaConnID)

/-- The entry that `nextConnKey` names is not there yet. -/
theorem next_empty (s : ReliableRDMA) : s.slot (.stored s.qps.length) = none := by
  simp [ReliableRDMA.slot]

/-- With a number of its own choice, `initQP` never stores over another queue pair. -/
theorem initQP_keeps (h : Consistent s) : Keeps s fault True (ignoring (initQP fault)) := by
  refine .bind (.get (.bind (initQPWithSuppliedID_keeps h s.qps.length) ?_)) fun _ _ ht => .pure ht
  exact fun _ t ht => .pure ⟨ht.1, fun _ => ht.2 (next_empty s)⟩

/-- With a number of its own choice, a queue pair of a shared receive queue is never
stored over another. -/
theorem initQPForSRQ_keeps (h : Consistent s) {rq : SharedRq} (hRq : rq ∈ s.srqs) :
    Keeps s fault True (ignoring (initQPForSRQ rq fault)) := by
  refine .bind (.get (.bind (initQPForSRQWithSuppliedID_keeps h hRq s.qps.length) ?_))
    fun _ _ ht => .pure ht
  exact fun _ t ht => .pure ⟨ht.1, fun _ => ht.2 (next_empty s)⟩

/-- A queue pair that waits for the answer is held by the call. -/
theorem connectInit_keeps (h : Consistent s) : Keeps s fault True (connectInit fault) := by
  refine .bind (initQPUnstored_ensures h) ?_
  intro q t hMade
  refine .modify ⟨hMade.consistent.wait hMade.object fun hSlot => hMade.apart h hSlot, fun _ => ?_⟩
  apply hMade.tidy rfl (wait_slot t q)
  obtain ⟨new, hAdded, -, -⟩ := hMade.added
  rw [← hAdded.slot]
  simp [ReliableRDMA.slot, ReliableRDMA.waiting]

/-- A new shared receive queue has a completion queue that nothing uses. -/
theorem Consistent.share (h : Consistent s) {rq : SharedRq}
    (hRq : s.device.object rq.sharedRq = some (.srq s.pd))
    (hNew : rq.sharedRq ∉ s.srqs.map SharedRq.sharedRq) (hFree : Free s rq.recvCq) :
    Consistent { s with srqs := s.srqs ++ [rq] } where
  pd := h.pd
  mr := h.mr
  wired {qp pd sendCq recvCq srq} hQp := by
    have hWired := h.wired hQp
    have hOwn : ∀ {cq}, Attached s.device qp cq → Own s qp cq →
        Own { s with srqs := s.srqs ++ [rq] } qp cq := by
      intro cq hUser hOwned
      refine ⟨hOwned.only, fun {other} hOther => ?_⟩
      rcases List.mem_append.mp hOther with hOld | hLast
      · exact hOwned.unshared hOld
      · obtain rfl := List.mem_singleton.mp hLast
        rintro rfl
        exact hFree.unused hUser
    obtain ⟨hToSend, hToRecv⟩ := Wired.attached hQp
    refine ⟨hWired.domain, hWired.distinct, hOwn hToSend hWired.send,
      fun hNone => hOwn hToRecv (hWired.own hNone), ?_⟩
    exact fun hShared => List.mem_append_left _ (hWired.shared hShared)
  slots := h.slots
  calls {call q} := @Consistent.calls s h call q
  apart {place other q r} := @Consistent.apart s h place other q r
  srqs {other} hOther := by
    rcases List.mem_append.mp hOther with hOld | hLast
    · exact h.srqs hOld
    · obtain rfl := List.mem_singleton.mp hLast
      exact ⟨hRq, hFree.live⟩
  numbered := by
    show ((s.srqs ++ [rq]).map SharedRq.sharedRq).Nodup
    rw [List.map_append, List.nodup_append]
    refine ⟨h.numbered, List.pairwise_singleton _ _, fun a ha b hb => ?_⟩
    obtain rfl : b = rq.sharedRq := by simpa using hb
    rintro rfl
    exact hNew ha

/-- The new shared receive queue is entered into `m_srqs`. If it cannot be created, its
completion queue is lost. -/
theorem createSharedReceiveQueue_keeps (h : Consistent s) :
    Keeps s fault True (ignoring (createSharedReceiveQueue fault)) := by
  have hCreate : Ensures (createSharedReceiveQueue fault) s
      (fun _ t => Consistent t ∧ (True → Tidy s → Tidy t))
      (fun _ t => Consistent t ∧ fault ≠ none) := by
    refine .guard (fun hFault => ⟨h, by simp [hFault]⟩) fun _ => .get ?_
    refine .bind (createSrq_ensures h) ?_
    rintro sharedRq t ⟨ht, hAdded, hRq, hNew⟩
    refine .guard (fun hFault => ⟨ht, by simp [hFault]⟩) fun _ => ?_
    refine .bind (createCq_ensures ht) ?_
    rintro recvCq u ⟨hu, hMore, hFree, -⟩
    have hBoth : Added s ([sharedRq] ++ [recvCq]) u := hAdded.trans hMore
    have hLive : u.device.object sharedRq = some (.srq u.pd) := by
      rw [hMore.device.old hRq, hMore.rest]
    have hUnknown : sharedRq ∉ u.srqs.map SharedRq.sharedRq := by rwa [hMore.rest]
    refine .bind (.modify ⟨@Consistent.share u hu ⟨sharedRq, recvCq⟩ hLive hUnknown hFree, ?_⟩)
      fun _ _ hv => .pure hv
    intro _ hTidy handle value hFound
    rcases hBoth.device.cases hFound with hOld | hMade
    · apply (hTidy hOld).mono
      · rw [hBoth.rest]
      · rw [hBoth.rest]
      · rw [hBoth.rest]
        exact List.mem_append_left _
      · intro place q hSlot _
        rw [← hBoth.slot] at hSlot
        cases place <;> exact hSlot
    · refine .inr (.inr (.inr ⟨⟨sharedRq, recvCq⟩, List.mem_append_right _ (by simp), ?_⟩))
      simpa using hMade
  exact .bind hCreate fun _ _ ht => .pure ht

/-- The object forgets the queue pair of a call that ends. -/
theorem endCall_ensures {call : Nat} {q : IbQp} (h : Consistent s)
    (hCall : s.waiting call = some q) :
    Ensures (endCall call) s (fun _ t => t = { s with calls := s.calls.set call none } ∧
      Consistent t ∧ ∀ {place r}, t.slot place = some r → r.qp ≠ q.qp) failed :=
  .modify ⟨rfl, h.endCall call, h.ended_apart hCall⟩

/-- The queue pair of an accepted `connect` goes to the number that the server gave, if
no other is there. -/
theorem connectAccepted_keeps (h : Consistent s) {call : Nat} {q : IbQp}
    (hCall : s.waiting call = some q) (rdmaConnID : Nat) :
    Keeps s none (s.slot (.stored rdmaConnID) = none) (connectAccepted call rdmaConnID q) := by
  have hWaiting : s.slot (.waiting call) = some q := hCall
  refine .bind (endCall_ensures h hCall) ?_
  rintro _ t ⟨rfl, ht, hApart⟩
  refine .modify ⟨ht.store rdmaConnID (h.calls hWaiting) hApart, fun hEmpty hTidy => ?_⟩
  intro handle value hFound
  rcases hTidy hFound with hPd | hMr | ⟨place, r, hSlot, hHas⟩ | hSrq
  · exact .inl hPd
  · exact .inr (.inl hMr)
  · refine .inr (.inr (.inl ?_))
    by_cases hMoved : place = .waiting call
    · subst hMoved
      obtain rfl : q = r := Option.some.inj (hWaiting.symm.trans hSlot)
      exact ⟨.stored rdmaConnID, q, by rw [store_slot, if_pos rfl], hHas⟩
    · have hOther : place ≠ .stored rdmaConnID := by
        rintro rfl
        rw [hEmpty] at hSlot
        cases hSlot
      exact ⟨place, r, by rw [store_slot, if_neg hOther, endCall_slot, if_neg hMoved, hSlot], hHas⟩
  · exact .inr (.inr (.inr hSrq))

/-- What goes with a queue pair is the queue pair itself and its completion queues. -/
theorem lost_object {d : Device} {q : IbQp} {gone : Nat} (h : gone ∈ Lost d q)
    (hToSend : Attached d q.qp q.sendCq) (hToRecv : Attached d q.qp q.recvCq) :
    gone = q.qp ∨ d.object gone = some .cq := by
  rcases h with rfl | rfl | ⟨rfl, -⟩
  · exact .inl rfl
  · exact .inr hToSend.live
  · exact .inr hToRecv.live

/-- A rejected queue pair goes with both of its queues, and nothing else does. -/
theorem connectRejected_keeps (h : Consistent s) {call : Nat} {q : IbQp}
    (hCall : s.waiting call = some q) : Keeps s none True (connectRejected call q) := by
  have hWaiting : s.slot (.waiting call) = some q := hCall
  have hQp := h.calls hWaiting
  have hWired := h.wired hQp
  obtain ⟨hToSend, hToRecv⟩ := Wired.attached hQp
  have hObject : ∀ {gone value}, gone ∈ Lost s.device q → s.device.object gone = some value →
      gone = q.qp ∧ value = .qp s.pd q.sendCq q.recvCq none ∨ value = .cq := by
    intro gone value hLost hValue
    rcases lost_object hLost hToSend hToRecv with rfl | hCq
    · exact .inl ⟨rfl, Option.some.inj (hValue.symm.trans hQp)⟩
    · exact .inr (Option.some.inj (hValue.symm.trans hCq))
  refine .bind (endCall_ensures h hCall) ?_
  rintro _ t ⟨rfl, ht, hApart⟩
  have hDestroy : Ensures (destroyQP q) { s with calls := s.calls.set call none }
      (fun _ u => Dropped { s with calls := s.calls.set call none } (Lost s.device q) u)
      fun _ _ => False := destroyQP_ensures hQp hWired.distinct hWired.send.only
  refine hDestroy.weaken ?_ fun _ _ hNever => hNever.elim
  rintro _ u hDropped
  refine ⟨ht.dropped hDropped ?_ ?_ ?_ ?_, fun _ hTidy => ?_⟩
  · exact fun hLost => by rcases hObject hLost h.pd with ⟨-, hSame⟩ | hSame <;> cases hSame
  · exact fun hLost => by rcases hObject hLost h.mr with ⟨-, hSame⟩ | hSame <;> cases hSame
  · intro place r hSlot hLost
    obtain ⟨srq, hOther⟩ := ht.slots hSlot
    rcases hObject hLost hOther with ⟨hSame, -⟩ | hSame
    · exact hApart hSlot hSame
    · cases hSame
  · intro rq hRq
    obtain ⟨hShared, hRecv⟩ := h.srqs hRq
    refine ⟨fun hLost => ?_, fun hLost => ?_⟩
    · rcases hObject hLost hShared with ⟨-, hSame⟩ | hSame <;> cases hSame
    · rcases hLost with hSame | hSame | ⟨hSame, -⟩
      · rw [hSame, hQp] at hRecv
        cases hRecv
      · exact hWired.send.unshared hRq hSame
      · exact (hWired.own rfl).unshared hRq hSame
  · intro handle value hFound
    obtain ⟨hLeft, hOld⟩ := hDropped.device.object_iff.mp hFound
    apply (hTidy hOld).mono
    · rw [hDropped.rest]
    · rw [hDropped.rest]
    · rw [hDropped.rest]
      exact id
    · intro place r hSlot hHas
      have hOther : place ≠ .waiting call := by
        rintro rfl
        obtain rfl : q = r := Option.some.inj (hWaiting.symm.trans hSlot)
        exact hLeft (hHas.imp_right (Or.imp_right fun hSame =>
          ⟨hSame, fun _ hUser => (hWired.own rfl).only hUser⟩))
      have hRest : u.slot place =
          ({ s with calls := s.calls.set call none } : ReliableRDMA).slot place := by
        rw [hDropped.rest]
        cases place <;> rfl
      rw [hRest, endCall_slot, if_neg hOther, hSlot]

end Steps

/-- Whatever fails, a step keeps the wiring, and an orderly step leaves nothing behind. -/
theorem perform_keeps (h : Consistent s) {a : Action} {call : RDMACall Unit}
    (hCall : perform s a = some call) :
    Ensures call s (fun _ t => Consistent t ∧ (Orderly s a → Tidy s → Tidy t))
      (fun _ t => Consistent t ∧ ¬ Orderly s a) := by
  have hFails : ∀ {fault : Option Fault} {ready : Prop} {m : RDMACall Unit}, Keeps s fault ready m →
      (Orderly s a → fault = none ∧ ready) →
      Ensures m s (fun _ t => Consistent t ∧ (Orderly s a → Tidy s → Tidy t))
        (fun _ t => Consistent t ∧ ¬ Orderly s a) := by
    intro fault ready m hKeeps hOrderly
    apply hKeeps.weaken
    · exact fun _ _ hOk => ⟨hOk.1, fun hStep => hOk.2 (hOrderly hStep).2⟩
    · exact fun _ _ hFailed => ⟨hFailed.1, fun hStep => hFailed.2 (hOrderly hStep).1⟩
  cases a with
  | createSharedReceiveQueue fault =>
      cases hCall
      exact hFails (createSharedReceiveQueue_keeps h) fun hStep => ⟨hStep, trivial⟩
  | initQP fault =>
      cases hCall
      exact hFails (initQP_keeps h) fun hStep => ⟨hStep, trivial⟩
  | initQPWithSuppliedID rdmaConnID fault =>
      cases hCall
      exact hFails (initQPWithSuppliedID_keeps h rdmaConnID) id
  | initQPForSRQ srqID fault =>
      obtain ⟨rq, hRq, rfl⟩ := Option.map_eq_some_iff.mp hCall
      exact hFails (initQPForSRQ_keeps h (List.mem_of_getElem? hRq)) fun hStep => ⟨hStep, trivial⟩
  | initQPForSRQWithSuppliedID srqID rdmaConnID fault =>
      obtain ⟨rq, hRq, rfl⟩ := Option.map_eq_some_iff.mp hCall
      exact hFails (initQPForSRQWithSuppliedID_keeps h (List.mem_of_getElem? hRq) rdmaConnID) id
  | connect fault =>
      cases hCall
      exact hFails (connectInit_keeps h) fun hStep => ⟨hStep, trivial⟩
  | accepted number rdmaConnID =>
      obtain ⟨q, hWaiting, rfl⟩ := Option.map_eq_some_iff.mp hCall
      exact hFails (connectAccepted_keeps h hWaiting rdmaConnID) fun hStep => ⟨rfl, hStep⟩
  | rejected number =>
      obtain ⟨q, hWaiting, rfl⟩ := Option.map_eq_some_iff.mp hCall
      exact hFails (connectRejected_keeps h hWaiting) fun _ => ⟨rfl, trivial⟩
  | unanswered number =>
      obtain ⟨q, hWaiting, rfl⟩ := Option.map_eq_some_iff.mp hCall
      refine (endCall_ensures h hWaiting).weaken ?_ fun _ _ hNever => hNever
      exact fun _ t ht => ⟨ht.2.1, fun hStep => hStep.elim⟩

section Start

/-- Behind the constructor there are the protection domain and the memory region. -/
theorem createBuffer_object {handle : Nat} {value : Object}
    (h : createBuffer.device.object handle = some value) :
    (handle = 0 ∧ value = .pd) ∨ (handle = 1 ∧ value = .mr 0) := by
  simp only [createBuffer, Lifetimes.Store.add, Lifetimes.Store.empty, Function.update_apply] at h
  split at h
  · exact .inr ⟨‹_›, (Option.some.inj h).symm⟩
  · split at h
    · exact .inl ⟨‹_›, (Option.some.inj h).symm⟩
    · cases h

/-- No queue pair is there behind the constructor. -/
theorem createBuffer_slot (place : Place) : createBuffer.slot place = none := by
  cases place <;> rfl

theorem createBuffer_consistent : Consistent createBuffer where
  pd := rfl
  mr := rfl
  wired hQp := by rcases createBuffer_object hQp with ⟨-, hSame⟩ | ⟨-, hSame⟩ <;> cases hSame
  slots {place q} hSlot := by simp [createBuffer_slot] at hSlot
  calls {call q} hSlot := by simp [createBuffer_slot] at hSlot
  apart {place other q r} hSlot := by simp [createBuffer_slot] at hSlot
  srqs hRq := by cases hRq
  numbered := List.nodup_nil

theorem createBuffer_tidy : Tidy createBuffer := by
  intro handle value hFound
  rcases createBuffer_object hFound with ⟨rfl, -⟩ | ⟨rfl, -⟩
  · exact .inl rfl
  · exact .inr (.inl rfl)

end Start

section Runs

/-- A step is taken by a call with an outcome. -/
theorem next_cases {a : Action} (h : lifeMachine.next s a = some t) :
    ∃ call result, perform s a = some call ∧ call.outcome s = some (result, t) := by
  obtain ⟨call, hCall, hOutcome⟩ := Option.bind_eq_some_iff.mp h
  obtain ⟨⟨result, last⟩, hLast, rfl⟩ := Option.map_eq_some_iff.mp hOutcome
  exact ⟨call, result, hCall, hLast⟩

/-- Every call keeps the invariant, and an orderly one leaves no stray. -/
theorem next_keeps (h : Consistent s) {a : Action} (hNext : lifeMachine.next s a = some t) :
    Consistent t ∧ (Orderly s a → Tidy s → Tidy t) := by
  obtain ⟨call, result, hCall, hOutcome⟩ := next_cases hNext
  obtain ⟨found, u, hFound, hPost⟩ := perform_keeps h hCall
  obtain ⟨rfl, rfl⟩ : found = result ∧ u = t := by
    simpa using Option.some.inj (hFound.symm.trans hOutcome)
  cases found with
  | ok value => exact hPost
  | error e => exact ⟨hPost.1, fun hStep => (hPost.2 hStep).elim⟩

/-- The invariant holds after any sequence of calls, whatever failed. -/
theorem reachable_consistent (h : lifeMachine.Reachable s) : Consistent s :=
  h.invariant createBuffer_consistent fun _ _ _ hs hNext => (next_keeps hs hNext).1

theorem orderly_tidy {visits : List (ReliableRDMA × Action)} (run : lifeMachine.RunsTo visits s)
    (hOrderly : ∀ visit ∈ visits, Orderly visit.1 visit.2) : Consistent s ∧ Tidy s := by
  refine @Machine.RunsTo.invariant_of_guard _ _ lifeMachine Orderly
    (fun s => Consistent s ∧ Tidy s) visits s run ⟨createBuffer_consistent, createBuffer_tidy⟩ ?_
    hOrderly
  rintro s a t ⟨hs, hTidy⟩ hStep hNext
  obtain ⟨ht, hKept⟩ := next_keeps hs hNext
  exact ⟨ht, hKept hStep hTidy⟩

end Runs

end VerbObjects
