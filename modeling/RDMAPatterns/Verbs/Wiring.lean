import Mathlib.Data.List.GetD
import Mathlib.Tactic.Tauto
import RDMAPatterns.Verbs.VerbObjects

/-! Which queue pairs use which completion queues, in every state that the
calls of `ReliableRDMA` reach, with whatever verbs failing on the way. -/
namespace VerbObjects

open Calls Transition

variable {s t u : ReliableRDMA} {d : Device} {value : Object}

/-- The queue pair reports to the completion queue. -/
def Attached (d : Device) (qp cq : Nat) : Prop :=
  ∃ pd sendCq recvCq srq, d.object qp = some (.qp pd sendCq recvCq srq) ∧
    (cq = sendCq ∨ cq = recvCq)

/-- Only this queue pair reports to the completion queue. -/
structure Own (s : ReliableRDMA) (qp cq : Nat) : Prop where
  only : ∀ {user}, Attached s.device user cq → user = qp
  unshared : ∀ {rq}, rq ∈ s.srqs → rq.recvCq ≠ cq

/-- What a queue pair was created on. -/
structure Wired (s : ReliableRDMA) (qp pd sendCq recvCq : Nat) (srq : Option Nat) : Prop where
  domain : pd = s.pd
  distinct : sendCq ≠ recvCq
  send : Own s qp sendCq
  own : srq = none → Own s qp recvCq
  shared : ∀ {sharedRq}, srq = some sharedRq → { sharedRq, recvCq } ∈ s.srqs

/-- Where the object keeps a queue pair. -/
inductive Place where
  | stored (rdmaConnID : Nat)
  | waiting (call : Nat)
deriving DecidableEq

def ReliableRDMA.slot (s : ReliableRDMA) : Place → Option IbQp
  | .stored rdmaConnID => s.qps[rdmaConnID]?.join
  | .waiting call => s.waiting call

/-- The invariant of the calls. -/
structure Consistent (s : ReliableRDMA) : Prop where
  pd : s.device.object s.pd = some .pd
  mr : s.device.object s.mr = some (.mr s.pd)
  wired : ∀ {qp pd sendCq recvCq srq}, s.device.object qp = some (.qp pd sendCq recvCq srq) →
    Wired s qp pd sendCq recvCq srq
  slots : ∀ {place q}, s.slot place = some q →
    ∃ srq, s.device.object q.qp = some (.qp s.pd q.sendCq q.recvCq srq)
  calls : ∀ {call q}, s.slot (.waiting call) = some q →
    s.device.object q.qp = some (.qp s.pd q.sendCq q.recvCq none)
  apart : ∀ {place other q r}, s.slot place = some q → s.slot other = some r → q.qp = r.qp →
    place = other
  srqs : ∀ {rq}, rq ∈ s.srqs → s.device.object rq.sharedRq = some (.srq s.pd) ∧
    s.device.object rq.recvCq = some .cq
  numbered : (s.srqs.map SharedRq.sharedRq).Nodup

theorem join_getElem? {α : Type} {list : List (Option α)} {i : Nat} {value : α} :
    list[i]?.join = some value ↔ list[i]? = some (some value) := by
  cases list[i]? <;> simp

/-- The entries of `m_qps` are what its slots hold. -/
theorem mem_qps {q : IbQp} : some q ∈ s.qps ↔ ∃ place, s.slot (.stored place) = some q := by
  simp only [List.mem_iff_getElem?, ReliableRDMA.slot, join_getElem?]

/-- The entries after one was stored. -/
theorem storeQP_get (qps : List (Option IbQp)) (rdmaConnID : Nat) (q : IbQp) (i : Nat) :
    (storeQP qps rdmaConnID q)[i]?.join = if i = rdmaConnID then some q else qps[i]?.join := by
  have hLength :
      rdmaConnID < (qps ++ List.replicate (rdmaConnID + 1 - qps.length) none).length := by
    rw [List.length_append, List.length_replicate]
    omega
  by_cases hSame : i = rdmaConnID
  · subst hSame
    rw [storeQP, List.getElem?_set_self hLength, if_pos rfl, Option.join_some]
  · rw [storeQP, List.getElem?_set_ne (Ne.symm hSame), if_neg hSame]
    by_cases hOld : i < qps.length
    · rw [List.getElem?_append_left hOld]
    · rw [List.getElem?_append_right (Nat.le_of_not_lt hOld),
        List.getElem?_eq_none (Nat.le_of_not_lt hOld), List.getElem?_replicate]
      split <;> rfl

section Uses

/-- A new object attaches nothing to a completion queue unless it is a queue pair. -/
theorem Attached.grown (h : s.device.Grown value d) {qp cq : Nat} (hAttached : Attached d qp cq) :
    (qp = s.device.created ∧ ∃ pd sendCq recvCq srq, value = .qp pd sendCq recvCq srq ∧
      (cq = sendCq ∨ cq = recvCq)) ∨ Attached s.device qp cq := by
  obtain ⟨pd, sendCq, recvCq, srq, hQp, hCq⟩ := hAttached
  rcases h.cases hQp with ⟨rfl, rfl⟩ | hOld
  · exact .inl ⟨rfl, pd, sendCq, recvCq, srq, rfl, hCq⟩
  · exact .inr ⟨pd, sendCq, recvCq, srq, hOld, hCq⟩

/-- Destroying objects takes away their own attachments and no others. -/
theorem attached_without {lost : Set Nat} (h : s.device.Without lost d) {qp cq : Nat} :
    Attached d qp cq ↔ qp ∉ lost ∧ Attached s.device qp cq := by
  simp only [Attached, h.object_iff, and_assoc, exists_and_left]

/-- A queue pair keeps its completion queues alive. -/
theorem Attached.live {qp cq : Nat} (h : Attached d qp cq) : d.object cq = some .cq := by
  obtain ⟨pd, sendCq, recvCq, srq, hQp, hCq⟩ := h
  have hUsed : (.cq, cq) ∈ (Object.qp pd sendCq recvCq srq).uses := by
    cases srq <;> rcases hCq with rfl | rfl <;> simp [Object.uses]
  obtain ⟨value, hValue, hKind⟩ := d.closed hQp hUsed
  cases value <;> first | exact hValue | cases hKind

/-- Only queue pairs use completion queues. -/
theorem uses_cq {user cq : Nat} (hCq : d.object cq = some .cq) :
    d.Uses user cq ↔ Attached d user cq := by
  constructor
  · rintro ⟨value, hUser, kind, hUsed⟩
    obtain ⟨found, hFound, hKind⟩ := d.closed hUser hUsed
    obtain rfl : Object.cq = found := Option.some.inj (hCq.symm.trans hFound)
    obtain rfl : Kind.cq = kind := hKind
    cases value with
    | qp pd sendCq recvCq srq =>
        refine ⟨pd, sendCq, recvCq, srq, hUser, ?_⟩
        cases srq <;> simpa [Object.uses] using hUsed
    | _ => simp [Object.uses] at hUsed
  · rintro ⟨pd, sendCq, recvCq, srq, hUser, hSame⟩
    refine ⟨_, hUser, .cq, ?_⟩
    cases srq <;> simpa [Object.uses] using hSame

/-- Only queue pairs use shared receive queues. -/
theorem uses_srq {user sharedRq pd : Nat} (hRq : d.object sharedRq = some (.srq pd)) :
    d.Uses user sharedRq ↔
      ∃ pd sendCq recvCq, d.object user = some (.qp pd sendCq recvCq (some sharedRq)) := by
  constructor
  · rintro ⟨value, hUser, kind, hUsed⟩
    obtain ⟨found, hFound, hKind⟩ := d.closed hUser hUsed
    obtain rfl : Object.srq pd = found := Option.some.inj (hRq.symm.trans hFound)
    obtain rfl : Kind.srq = kind := hKind
    cases value with
    | qp pd sendCq recvCq srq =>
        cases srq with
        | none => simp [Object.uses] at hUsed
        | some other =>
            obtain rfl : sharedRq = other := by simpa [Object.uses] using hUsed
            exact ⟨pd, sendCq, recvCq, hUser⟩
    | _ => simp [Object.uses] at hUsed
  · rintro ⟨pd, sendCq, recvCq, hUser⟩
    exact ⟨_, hUser, .srq, by simp [Object.uses]⟩

/-- Nothing uses a queue pair or a memory region. -/
theorem not_busy {handle : Nat} (hObject : d.object handle = some value)
    (hKind : value.kind = .qp ∨ value.kind = .mr) : ¬ d.Busy handle := by
  rintro ⟨user, found, hUser, kind, hUsed⟩
  obtain ⟨other, hOther, rfl⟩ := d.closed hUser hUsed
  obtain rfl : value = other := Option.some.inj (hObject.symm.trans hOther)
  have hKinds : ∀ k, (k, handle) ∈ found.uses → k ≠ .qp ∧ k ≠ .mr := by
    intro k hMem
    cases found with
    | qp pd sendCq recvCq srq => cases srq <;> simp [Object.uses] at hMem <;> grind
    | _ => simp [Object.uses] at hMem <;> grind
  have hNeither := hKinds _ hUsed
  tauto

end Uses

section Growth

/-- A completion queue that nothing uses yet. -/
structure Free (s : ReliableRDMA) (cq : Nat) : Prop where
  live : s.device.object cq = some .cq
  unused : ∀ {user}, ¬ Attached s.device user cq
  unshared : ∀ {rq}, rq ∈ s.srqs → rq.recvCq ≠ cq

/-- What a new queue pair may be created on. -/
structure Fits (s : ReliableRDMA) (sendCq recvCq : Nat) (srq : Option Nat) : Prop where
  distinct : sendCq ≠ recvCq
  send : Free s sendCq
  own : srq = none → Free s recvCq
  shared : ∀ {sharedRq}, srq = some sharedRq → { sharedRq, recvCq } ∈ s.srqs

/-- The second state has further objects, and is otherwise the first. -/
abbrev Added (s : ReliableRDMA) (new : List Nat) (t : ReliableRDMA) : Prop := keeper.Added s new t

/-- Creating objects changes nothing but the device. -/
theorem Added.rest {new : List Nat} (h : Added s new t) : t = { s with device := t.device } :=
  h.same

/-- What was on the device stays, and only the new handles are added. -/
theorem Added.device {new : List Nat} (h : Added s new t) : s.device.Extended new t.device :=
  h.store

/-- No member points to an object that was only created. -/
theorem Added.slot (h : Added s new t) (place : Place) : t.slot place = s.slot place := by
  rw [h.rest]
  cases place <;> rfl

/-- A completion queue that nobody uses is not taken by a new object that is no queue
pair. -/
theorem Free.grown {cq : Nat} (h : Free s cq) (hGrown : s.device.Grown value d)
    (hOther : ∀ {pd sendCq recvCq srq}, value ≠ .qp pd sendCq recvCq srq) :
    Free { s with device := d } cq where
  live := hGrown.old h.live
  unused hAttached := by
    rcases hAttached.grown hGrown with ⟨-, pd, sendCq, recvCq, srq, hValue, -⟩ | hOld
    · exact hOther hValue
    · exact h.unused hOld
  unshared := h.unshared

/-- A queue pair keeps its queues to itself when another is created. -/
theorem Own.grown {qp cq : Nat} (h : Own s qp cq) (hQp : Attached s.device qp cq)
    (hGrown : s.device.Grown value d)
    (hFits : ∀ {pd sendCq recvCq srq}, value = .qp pd sendCq recvCq srq →
      Fits s sendCq recvCq srq) : Own { s with device := d } qp cq where
  only {user} hAttached := by
    rcases hAttached.grown hGrown with ⟨-, pd, sendCq, recvCq, srq, hValue, hCq⟩ | hOld
    · exfalso
      have hFit := hFits hValue
      rcases hCq with rfl | rfl
      · exact hFit.send.unused hQp
      · cases srq with
        | none => exact (hFit.own rfl).unused hQp
        | some sharedRq => exact h.unshared (hFit.shared rfl) rfl
    · exact h.only hOld
  unshared := h.unshared

/-- A new queue pair has the queues it was created on to itself. -/
theorem Free.own {pd sendCq recvCq : Nat} {srq : Option Nat} {cq : Nat} (h : Free s cq)
    (hGrown : s.device.Grown (.qp pd sendCq recvCq srq) d) :
    Own { s with device := d } s.device.created cq where
  only hAttached := (hAttached.grown hGrown).elim And.left fun hOld => (h.unused hOld).elim
  unshared := h.unshared

/-- A queue pair is attached to both completion queues it was created with. -/
theorem Wired.attached {qp pd sendCq recvCq : Nat} {srq : Option Nat}
    (h : d.object qp = some (.qp pd sendCq recvCq srq)) :
    Attached d qp sendCq ∧ Attached d qp recvCq :=
  ⟨⟨pd, sendCq, recvCq, srq, h, .inl rfl⟩, ⟨pd, sendCq, recvCq, srq, h, .inr rfl⟩⟩

/-- A new object keeps the invariant if it is no queue pair, or one whose completion
queues fit the queue pairs that are there. -/
theorem Consistent.grown (h : Consistent s) (hGrown : s.device.Grown value d)
    (hFits : ∀ {pd sendCq recvCq srq}, value = .qp pd sendCq recvCq srq →
      pd = s.pd ∧ Fits s sendCq recvCq srq) : Consistent { s with device := d } where
  pd := hGrown.old h.pd
  mr := hGrown.old h.mr
  wired {qp pd sendCq recvCq srq} hQp := by
    rcases hGrown.cases hQp with ⟨rfl, rfl⟩ | hOld
    · obtain ⟨hDomain, hFit⟩ := hFits rfl
      refine ⟨hDomain, hFit.distinct, hFit.send.own hGrown, fun hNone => ?_, hFit.shared⟩
      exact (hFit.own hNone).own hGrown
    · have hWired := h.wired hOld
      obtain ⟨hSend, hRecv⟩ := Wired.attached hOld
      have hFit : ∀ {pd sendCq recvCq srq}, value = .qp pd sendCq recvCq srq →
          Fits s sendCq recvCq srq := fun hValue => (hFits hValue).2
      refine ⟨hWired.domain, hWired.distinct, hWired.send.grown hSend hGrown hFit, ?_,
        hWired.shared⟩
      exact fun hNone => (hWired.own hNone).grown hRecv hGrown hFit
  slots hSlot := (h.slots hSlot).imp fun _ hQp => hGrown.old hQp
  calls hSlot := hGrown.old (h.calls hSlot)
  apart := h.apart
  srqs hRq := (h.srqs hRq).imp hGrown.old hGrown.old
  numbered := h.numbered

end Growth

section Places

/-- Queue pairs may be forgotten. -/
theorem Consistent.forget (h : Consistent s) (hRest : t = { s with qps := t.qps, calls := t.calls })
    (hSlots : ∀ {place r}, t.slot place = some r → s.slot place = some r) : Consistent t := by
  obtain ⟨device, pd, mr, qps, srqs, calls⟩ := t
  obtain ⟨rfl, rfl, rfl, rfl⟩ : device = s.device ∧ pd = s.pd ∧ mr = s.mr ∧ srqs = s.srqs := by
    simpa using hRest
  exact
    { pd := h.pd
      mr := h.mr
      wired := fun hQp =>
        have hWired := h.wired hQp
        ⟨hWired.domain, hWired.distinct, ⟨hWired.send.only, hWired.send.unshared⟩,
          fun hNone => ⟨(hWired.own hNone).only, (hWired.own hNone).unshared⟩, hWired.shared⟩
      slots := fun hSlot => h.slots (hSlots hSlot)
      calls := fun hSlot => h.calls (hSlots hSlot)
      apart := fun hSlot hOther => h.apart (hSlots hSlot) (hSlots hOther)
      srqs := h.srqs
      numbered := h.numbered }

/-- A queue pair that is nowhere else may be put in any place. -/
theorem Consistent.place (h : Consistent s) (hRest : t = { s with qps := t.qps, calls := t.calls })
    (chosen : Place) {q : IbQp} {srq : Option Nat}
    (hQp : s.device.object q.qp = some (.qp s.pd q.sendCq q.recvCq srq))
    (hWaiting : ∀ call, chosen = .waiting call → srq = none)
    (hSlots : ∀ {place r}, t.slot place = some r →
      (place = chosen ∧ r = q) ∨ (s.slot place = some r ∧ r.qp ≠ q.qp)) : Consistent t := by
  obtain ⟨device, pd, mr, qps, srqs, calls⟩ := t
  obtain ⟨rfl, rfl, rfl, rfl⟩ : device = s.device ∧ pd = s.pd ∧ mr = s.mr ∧ srqs = s.srqs := by
    simpa using hRest
  exact
    { pd := h.pd
      mr := h.mr
      wired := fun hFound =>
        have hWired := h.wired hFound
        ⟨hWired.domain, hWired.distinct, ⟨hWired.send.only, hWired.send.unshared⟩,
          fun hNone => ⟨(hWired.own hNone).only, (hWired.own hNone).unshared⟩, hWired.shared⟩
      slots := fun hSlot => by
        rcases hSlots hSlot with ⟨-, rfl⟩ | ⟨hOld, -⟩
        · exact ⟨srq, hQp⟩
        · exact h.slots hOld
      calls := fun {call _} hSlot => by
        rcases hSlots hSlot with ⟨hChosen, rfl⟩ | ⟨hOld, -⟩
        · rw [hQp, hWaiting call hChosen.symm]
        · exact h.calls hOld
      apart := fun hSlot hOther hSame => by
        rcases hSlots hSlot with ⟨hChosen, rfl⟩ | ⟨hOld, hNew⟩ <;>
          rcases hSlots hOther with ⟨hAlso, rfl⟩ | ⟨hOldOther, hNewOther⟩
        · rw [hChosen, hAlso]
        · exact absurd hSame.symm hNewOther
        · exact absurd hSame hNew
        · exact h.apart hOld hOldOther hSame
      srqs := h.srqs
      numbered := h.numbered }

/-- What the queue pair of an entry consists of. -/
def IbQp.Has (q : IbQp) (handle : Nat) : Prop :=
  handle = q.qp ∨ handle = q.sendCq ∨ handle = q.recvCq

/-- A new queue pair that is not kept in a place yet. -/
structure Made (s : ReliableRDMA) (srq : Option Nat) (q : IbQp) (t : ReliableRDMA) : Prop where
  consistent : Consistent t
  added : ∃ new, Added s new t ∧ q.qp ∈ new ∧ ∀ handle ∈ new, q.Has handle
  object : t.device.object q.qp = some (.qp t.pd q.sendCq q.recvCq srq)

/-- A queue pair that was just created is in no slot yet. -/
theorem Made.apart {srq : Option Nat} {q r : IbQp} (h : Made s srq q t) (hs : Consistent s)
    {place : Place} (hSlot : t.slot place = some r) : r.qp ≠ q.qp := by
  obtain ⟨new, hAdded, hNew, -⟩ := h.added
  rw [hAdded.slot place] at hSlot
  obtain ⟨_, hOld⟩ := hs.slots hSlot
  exact ((Lifetimes.Store.lt_created hOld).trans_le (hAdded.device.fresh hNew)).ne

/-- `setQP` stores over one slot, and leaves the others as they are. -/
theorem store_slot (s : ReliableRDMA) (rdmaConnID : Nat) (q : IbQp) (place : Place) :
    ({ s with qps := storeQP s.qps rdmaConnID q } : ReliableRDMA).slot place =
      if place = .stored rdmaConnID then some q else s.slot place := by
  cases place with
  | stored i =>
      simp only [ReliableRDMA.slot, storeQP_get, Place.stored.injEq]
  | waiting call =>
      rw [if_neg (by simp)]
      rfl

/-- A call that begins to wait gets a slot of its own. -/
theorem wait_slot (s : ReliableRDMA) (q : IbQp) (place : Place) :
    ({ s with calls := s.calls ++ [some q] } : ReliableRDMA).slot place =
      if place = .waiting s.calls.length then some q else s.slot place := by
  cases place with
  | stored i =>
      rw [if_neg (by simp)]
      rfl
  | waiting call =>
      simp only [ReliableRDMA.slot, ReliableRDMA.waiting, Place.waiting.injEq]
      rcases Nat.lt_trichotomy call s.calls.length with hOld | rfl | hLate
      · rw [List.getElem?_append_left hOld, if_neg hOld.ne]
      · simp
      · rw [List.getElem?_append_right hLate.le, if_neg hLate.ne',
          List.getElem?_eq_none (Nat.sub_pos_of_lt hLate),
          List.getElem?_eq_none hLate.le]

/-- A call that ends gives up its slot. -/
theorem endCall_slot (s : ReliableRDMA) (call : Nat) (place : Place) :
    ({ s with calls := s.calls.set call none } : ReliableRDMA).slot place =
      if place = .waiting call then none else s.slot place := by
  cases place with
  | stored i =>
      rw [if_neg (by simp)]
      rfl
  | waiting other =>
      simp only [ReliableRDMA.slot, ReliableRDMA.waiting, Place.waiting.injEq, List.getElem?_set]
      by_cases hSame : call = other
      · subst hSame
        by_cases hShort : call < s.calls.length <;> simp [hShort]
      · rw [if_neg hSame, if_neg (Ne.symm hSame)]

/-- A stored queue pair must not be in another slot, or it would be destroyed twice. -/
theorem Consistent.store (h : Consistent s) {q : IbQp} {srq : Option Nat} (rdmaConnID : Nat)
    (hQp : s.device.object q.qp = some (.qp s.pd q.sendCq q.recvCq srq))
    (hApart : ∀ {place r}, s.slot place = some r → r.qp ≠ q.qp) :
    Consistent { s with qps := storeQP s.qps rdmaConnID q } := by
  apply h.place rfl (.stored rdmaConnID) hQp nofun
  intro place r hSlot
  rw [store_slot] at hSlot
  split at hSlot
  · exact .inl ⟨‹_›, (Option.some.inj hSlot).symm⟩
  · exact .inr ⟨hSlot, hApart hSlot⟩

/-- The queue pair of a waiting `connect` has its own completion queues: shared receive
queues do not come up there. -/
theorem Consistent.wait (h : Consistent s) {q : IbQp}
    (hQp : s.device.object q.qp = some (.qp s.pd q.sendCq q.recvCq none))
    (hApart : ∀ {place r}, s.slot place = some r → r.qp ≠ q.qp) :
    Consistent { s with calls := s.calls ++ [some q] } := by
  apply h.place rfl (.waiting s.calls.length) hQp fun _ _ => rfl
  intro place r hSlot
  rw [wait_slot] at hSlot
  split at hSlot
  · exact .inl ⟨‹_›, (Option.some.inj hSlot).symm⟩
  · exact .inr ⟨hSlot, hApart hSlot⟩

/-- The local of a call that ended stands for nothing. -/
theorem Consistent.endCall (h : Consistent s) (call : Nat) :
    Consistent { s with calls := s.calls.set call none } := by
  apply h.forget rfl
  intro place r hSlot
  rw [endCall_slot] at hSlot
  split at hSlot
  · cases hSlot
  · exact hSlot

/-- The queue pair of a call that ended is nowhere else. -/
theorem Consistent.ended_apart (h : Consistent s) {call : Nat} {q r : IbQp} {place : Place}
    (hCall : s.waiting call = some q)
    (hSlot : ({ s with calls := s.calls.set call none } : ReliableRDMA).slot place = some r) :
    r.qp ≠ q.qp := by
  rw [endCall_slot] at hSlot
  split at hSlot
  · cases hSlot
  · rename_i hOther
    have hWaiting : s.slot (.waiting call) = some q := hCall
    exact fun hSame => hOther (h.apart hSlot hWaiting hSame)

end Places

section Creating

variable {fault : Option Fault} {failed : String → ReliableRDMA → Prop}

/-- What a verb creates can be used at once, provided that what it refers to is alive.
Otherwise the call would touch a destroyed object. -/
theorem create_ensures {ok : Nat → ReliableRDMA → Prop}
    (hUses : ∀ used ∈ value.uses, s.device.Holds used.1 used.2)
    (hOk : ∀ {d}, s.device.Grown value d → ok s.device.created { s with device := d }) :
    Ensures (create value) s ok failed :=
  keeper.create_ensures hUses hOk

/-- A new completion queue is free, and no queue that was free before is affected. -/
theorem createCq_ensures (h : Consistent s) :
    Ensures (create .cq) s (fun cq t => Consistent t ∧ Added s [cq] t ∧ Free t cq ∧
      ∀ {other}, Free s other → Free t other ∧ other ≠ cq) failed := by
  apply create_ensures (by simp [Object.uses])
  intro d hGrown
  have hPlain : ∀ {pd sendCq recvCq srq}, Object.cq ≠ .qp pd sendCq recvCq srq := nofun
  refine ⟨h.grown hGrown fun hQp => (hPlain hQp).elim, Lifetimes.Keeper.added_of_grown hGrown,
    ⟨hGrown.new, fun hAttached => ?_, fun hRq => ?_⟩, fun hFree => ⟨hFree.grown hGrown hPlain, ?_⟩⟩
  · rcases hAttached.grown hGrown with ⟨-, _, _, _, _, hQp, -⟩ | hOld
    · exact hPlain hQp
    · exact Nat.lt_irrefl _ (Lifetimes.Store.lt_created hOld.live)
  · exact (Lifetimes.Store.lt_created (h.srqs hRq).2).ne
  · exact (Lifetimes.Store.lt_created hFree.live).ne

/-- A new shared receive queue is not one of `m_srqs` yet. -/
theorem createSrq_ensures (h : Consistent s) :
    Ensures (create (.srq s.pd)) s (fun sharedRq t => Consistent t ∧ Added s [sharedRq] t ∧
      t.device.object sharedRq = some (.srq t.pd) ∧
        sharedRq ∉ t.srqs.map SharedRq.sharedRq) failed := by
  have hDomain : s.device.Holds .pd s.pd := ⟨_, h.pd, rfl⟩
  apply create_ensures (by simp [Object.uses, hDomain])
  intro d hGrown
  refine ⟨h.grown hGrown nofun, Lifetimes.Keeper.added_of_grown hGrown, hGrown.new, fun hOld => ?_⟩
  obtain ⟨rq, hRq, hSame⟩ := List.mem_map.mp hOld
  exact (Lifetimes.Store.lt_created (h.srqs hRq).1).ne hSame

/-- A queue pair is created on what fits it. -/
theorem createQp_ensures (h : Consistent s) {sendCq recvCq : Nat} {srq : Option Nat}
    (hFits : Fits s sendCq recvCq srq) :
    Ensures (create (.qp s.pd sendCq recvCq srq)) s (fun qp t => Consistent t ∧ Added s [qp] t ∧
      t.device.object qp = some (.qp t.pd sendCq recvCq srq)) failed := by
  have hDomain : s.device.Holds .pd s.pd := ⟨_, h.pd, rfl⟩
  have hSend : s.device.Holds .cq sendCq := ⟨_, hFits.send.live, rfl⟩
  apply create_ensures
  · cases srq with
    | none =>
        have hRecv : s.device.Holds .cq recvCq := ⟨_, (hFits.own rfl).live, rfl⟩
        simp [Object.uses, hDomain, hSend, hRecv]
    | some sharedRq =>
        have hRq := h.srqs (hFits.shared rfl)
        have hRecv : s.device.Holds .cq recvCq := ⟨_, hRq.2, rfl⟩
        have hShared : s.device.Holds .srq sharedRq := ⟨_, hRq.1, rfl⟩
        simp [Object.uses, hDomain, hSend, hRecv, hShared]
  · intro d hGrown
    refine ⟨h.grown hGrown fun hQp => ?_, Lifetimes.Keeper.added_of_grown hGrown, hGrown.new⟩
    cases hQp
    exact ⟨rfl, hFits⟩

/-- `createCQ` gives two completion queues for a queue pair. If the second verb fails,
the first queue stays behind. -/
theorem createCQ_ensures (h : Consistent s) :
    Ensures (createCQ fault) s
      (fun cqs t => Consistent t ∧ Added s [cqs.1, cqs.2] t ∧ Fits t cqs.1 cqs.2 none)
      (fun _ t => Consistent t ∧ fault ≠ none) := by
  refine .guard (fun hFault => ⟨h, by simp [of_decide_eq_true hFault]⟩) fun _ => ?_
  refine .bind (createCq_ensures h) ?_
  rintro sendCq t ⟨ht, hAdded, hSend, -⟩
  refine .guard (fun hFault => ⟨ht, by simp [of_decide_eq_true hFault]⟩) fun _ => ?_
  refine .bind (createCq_ensures ht) ?_
  rintro recvCq u ⟨hu, hMore, hRecv, hOthers⟩
  obtain ⟨hSend, hDistinct⟩ := hOthers hSend
  exact .pure ⟨hu, hAdded.trans hMore, hDistinct, hSend, fun _ => hRecv, nofun⟩

/-- A queue pair without a shared receive queue, as `initQP` creates it in front of
`setQP`. -/
theorem initQPUnstored_ensures (h : Consistent s) :
    Ensures (initQPUnstored fault) s (fun q t => Made s none q t)
      (fun _ t => Consistent t ∧ fault ≠ none) := by
  refine .bind (createCQ_ensures h) ?_
  rintro ⟨sendCq, recvCq⟩ t ⟨ht, hAdded, hFits⟩
  have hCreate : Ensures (createQP sendCq recvCq fault) t (fun q u => Consistent u ∧
      Added t [q.qp] u ∧ q.sendCq = sendCq ∧ q.recvCq = recvCq ∧
        u.device.object q.qp = some (.qp u.pd sendCq recvCq none))
      (fun _ u => Consistent u ∧ fault ≠ none) := by
    refine .guard (fun hFault => ⟨ht, by simp [hFault]⟩) fun _ => ?_
    refine .guard (fun hFault => ⟨ht, by simp [hFault]⟩) fun _ => ?_
    refine .get (.bind (createQp_ensures ht hFits) ?_)
    rintro qp u ⟨hu, hMore, hQp⟩
    exact .pure ⟨hu, hMore, rfl, rfl, hQp⟩
  refine .bind hCreate ?_
  rintro q u ⟨hu, hMore, rfl, rfl, hQp⟩
  refine .guard (fun hFault => ⟨hu, by simp [hFault]⟩) fun _ => ?_
  refine .pure ⟨hu, ⟨_, hAdded.trans hMore, by simp, fun handle hNew => ?_⟩, hQp⟩
  simp only [List.cons_append, List.nil_append, List.mem_cons, List.not_mem_nil, or_false] at hNew
  rcases hNew with hSend | hRecv | hQp
  · exact .inr (.inl hSend)
  · exact .inr (.inr hRecv)
  · exact .inl hQp

/-- A queue pair that takes its receive completions from the queue of the shared receive
queue. -/
theorem createQPForSRQ_ensures (h : Consistent s) {rq : SharedRq} (hRq : rq ∈ s.srqs) :
    Ensures (createQPForSRQ rq fault) s (fun q t => Made s (some rq.sharedRq) q t)
      (fun _ t => Consistent t ∧ fault ≠ none) := by
  refine .guard (fun hFault => ⟨h, by simp [hFault]⟩) fun _ => ?_
  refine .guard (fun hFault => ⟨h, by simp [hFault]⟩) fun _ => ?_
  refine .bind (createCq_ensures h) ?_
  rintro sendCq t ⟨ht, hAdded, hSend, -⟩
  have hKnown : rq ∈ t.srqs := by
    rw [hAdded.rest]
    exact hRq
  have hFits : Fits t sendCq rq.recvCq (some rq.sharedRq) :=
    ⟨(hSend.unshared hKnown).symm, hSend, nofun, fun hSame => Option.some.inj hSame ▸ hKnown⟩
  refine .guard (fun hFault => ⟨ht, by simp [hFault]⟩) fun _ => ?_
  refine .get (.bind (createQp_ensures ht hFits) ?_)
  rintro qp u ⟨hu, hMore, hQp⟩
  refine .pure ⟨hu, ⟨_, hAdded.trans hMore, by simp, fun handle hNew => ?_⟩, hQp⟩
  simp only [List.cons_append, List.nil_append, List.mem_cons, List.not_mem_nil, or_false] at hNew
  rcases hNew with hSend | hQp
  · exact .inr (.inl hSend)
  · exact .inl hQp

end Creating

end VerbObjects
