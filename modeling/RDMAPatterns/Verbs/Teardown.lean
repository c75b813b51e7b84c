import Mathlib.Tactic.Tauto
import RDMAPatterns.Verbs.OrderlyRuns

/-! What the destructor gives back. It throws, and so terminates the process,
exactly if a queue pair that is not in `m_qps` still uses a shared receive
queue, and otherwise leaves what the members do not stand for. -/
namespace VerbObjects

open Calls Transition

variable {s t u : ReliableRDMA} {failed : String → ReliableRDMA → Prop}

/-- The queue pair of an entry of `m_qps`. -/
def Stored (s : ReliableRDMA) (qp : Nat) : Prop := ∃ q, some q ∈ s.qps ∧ qp = q.qp

/-- What is gone after these entries: a receive queue goes with its last queue pair. -/
def goneAfter (s : ReliableRDMA) (done : List (Option IbQp)) : Set Nat :=
  {gone | ∃ q, some q ∈ done ∧ (gone = q.qp ∨ gone = q.sendCq ∨ (gone = q.recvCq ∧
    ∀ user, Attached s.device user q.recvCq → ∃ r, some r ∈ done ∧ user = r.qp))}

section Entries

variable {done rest : List (Option IbQp)} {q r : IbQp} {gone : Nat}

/-- An entry of `m_qps` stands for a live queue pair with its completion queues. -/
theorem stored_object (h : Consistent s) (hMem : some q ∈ s.qps) :
    ∃ srq, s.device.object q.qp = some (.qp s.pd q.sendCq q.recvCq srq) ∧
      Wired s q.qp s.pd q.sendCq q.recvCq srq := by
  obtain ⟨place, hSlot⟩ := mem_qps.mp hMem
  obtain ⟨srq, hQp⟩ := h.slots hSlot
  exact ⟨srq, hQp, h.wired hQp⟩

/-- What is gone are queue pairs that were done and completion queues. -/
theorem goneAfter_object (h : Consistent s) (hDone : ∀ {q}, some q ∈ done → some q ∈ s.qps)
    (hGone : gone ∈ goneAfter s done) :
    (∃ r, some r ∈ done ∧ gone = r.qp) ∨ s.device.object gone = some .cq := by
  obtain ⟨r, hMem, hHas⟩ := hGone
  obtain ⟨srq, hQp, -⟩ := stored_object h (hDone hMem)
  obtain ⟨hToSend, hToRecv⟩ := Wired.attached hQp
  rcases hHas with hSame | rfl | ⟨rfl, -⟩
  · exact .inl ⟨r, hMem, hSame⟩
  · exact .inr hToSend.live
  · exact .inr hToRecv.live

/-- An object of another kind is not gone. -/
theorem not_goneAfter (h : Consistent s) (hDone : ∀ {q}, some q ∈ done → some q ∈ s.qps)
    {value : Object} (hObject : s.device.object gone = some value)
    (hKind : value.kind ≠ .qp ∧ value.kind ≠ .cq) : gone ∉ goneAfter s done := by
  intro hGone
  rcases goneAfter_object h hDone hGone with ⟨r, hMem, rfl⟩ | hCq
  · obtain ⟨srq, hQp, -⟩ := stored_object h (hDone hMem)
    obtain rfl := Option.some.inj (hObject.symm.trans hQp)
    exact hKind.1 rfl
  · obtain rfl := Option.some.inj (hObject.symm.trans hCq)
    exact hKind.2 rfl

/-- The user of a completion queue is gone exactly if its entry was done. -/
theorem goneAfter_user (h : Consistent s) (hDone : ∀ {q}, some q ∈ done → some q ∈ s.qps)
    {user cq : Nat} (hUser : Attached s.device user cq) :
    user ∈ goneAfter s done ↔ ∃ r, some r ∈ done ∧ user = r.qp := by
  constructor
  · intro hGone
    rcases goneAfter_object h hDone hGone with hFound | hCq
    · exact hFound
    · obtain ⟨_, _, _, _, hQp, -⟩ := hUser
      cases hQp.symm.trans hCq
  · rintro ⟨r, hMem, rfl⟩
    exact ⟨r, hMem, .inl rfl⟩

/-- The next entry takes its queue pair with it, and the receive queue if it was the last. -/
theorem goneAfter_snoc (h : Consistent s) (hDone : ∀ {r}, some r ∈ done → some r ∈ s.qps)
    (hQ : some q ∈ s.qps) (hApart : ∀ {r}, some r ∈ done → r.qp ≠ q.qp)
    (ht : Dropped s (goneAfter s done) t) :
    gone ∈ goneAfter s (done ++ [some q]) ↔ gone ∈ goneAfter s done ∪ Lost t.device q := by
  obtain ⟨srq, hQp, hWired⟩ := stored_object h hQ
  have hMem : ∀ {r}, some r ∈ done ++ [some q] ↔ some r ∈ done ∨ r = q := by simp
  have hLast : (∀ user, Attached t.device user q.recvCq → user = q.qp) ↔
      ∀ user, Attached s.device user q.recvCq → ∃ r, some r ∈ done ++ [some q] ∧ user = r.qp := by
    constructor
    · intro hOnly user hUser
      by_cases hGone : user ∈ goneAfter s done
      · obtain ⟨r, hR, hSame⟩ := (goneAfter_user h hDone hUser).mp hGone
        exact ⟨r, hMem.mpr (.inl hR), hSame⟩
      · exact ⟨q, hMem.mpr (.inr rfl), hOnly user (ht.attached.mpr ⟨hGone, hUser⟩)⟩
    · intro hAll user hUser
      obtain ⟨hLive, hOld⟩ := ht.attached.mp hUser
      obtain ⟨r, hR, hSame⟩ := hAll user hOld
      rcases hMem.mp hR with hEarlier | rfl
      · exact (hLive ((goneAfter_user h hDone hOld).mpr ⟨r, hEarlier, hSame⟩)).elim
      · exact hSame
  constructor
  · rintro ⟨r, hR, hHas⟩
    rcases hMem.mp hR with hEarlier | rfl
    · rcases hHas with hSame | hSame | ⟨rfl, hAll⟩
      · exact .inl ⟨r, hEarlier, .inl hSame⟩
      · exact .inl ⟨r, hEarlier, .inr (.inl hSame)⟩
      · by_cases hSame : r.recvCq = q.recvCq
        · rw [hSame] at hAll
          exact .inr (.inr (.inr ⟨hSame, hLast.mpr hAll⟩))
        · refine .inl ⟨r, hEarlier, .inr (.inr ⟨rfl, fun user hUser => ?_⟩)⟩
          obtain ⟨other, hOther, hFound⟩ := hAll user hUser
          rcases hMem.mp hOther with hFirst | rfl
          · exact ⟨other, hFirst, hFound⟩
          · -- the new queue pair reports to no other queue than its own
            exfalso
            obtain ⟨_, hROld, hRWired⟩ := stored_object h (hDone hEarlier)
            obtain ⟨_, sendCq, recvCq, _, hUserQp, hCq⟩ := hUser
            rw [hFound, hQp] at hUserQp
            obtain ⟨-, rfl, rfl, -⟩ :
                s.pd = _ ∧ other.sendCq = sendCq ∧ other.recvCq = recvCq ∧ _ := by
              simpa using hUserQp
            rcases hCq with hSend | hRecv
            · have hToSend := (Wired.attached hROld).2
              rw [hSend] at hToSend
              exact hApart hEarlier (hWired.send.only hToSend)
            · exact hSame hRecv
    · rcases hHas with hSame | hSame | ⟨hSame, hAll⟩
      · exact .inr (.inl hSame)
      · exact .inr (.inr (.inl hSame))
      · exact .inr (.inr (.inr ⟨hSame, hLast.mpr hAll⟩))
  · rintro (⟨r, hR, hHas⟩ | hSame | hSame | ⟨hSame, hOnly⟩)
    · refine ⟨r, hMem.mpr (.inl hR), hHas.imp_right (Or.imp_right ?_)⟩
      rintro ⟨hSame, hAll⟩
      refine ⟨hSame, fun user hUser => ?_⟩
      obtain ⟨other, hOther, hFound⟩ := hAll user hUser
      exact ⟨other, hMem.mpr (.inl hOther), hFound⟩
    · exact ⟨q, hMem.mpr (.inr rfl), .inl hSame⟩
    · exact ⟨q, hMem.mpr (.inr rfl), .inr (.inl hSame)⟩
    · exact ⟨q, hMem.mpr (.inr rfl), .inr (.inr ⟨hSame, hLast.mp hOnly⟩)⟩

theorem goneAfter_none : goneAfter s (done ++ [none]) = goneAfter s done := by
  have hMem : ∀ {r : IbQp}, some r ∈ done ++ [none] ↔ some r ∈ done := by simp
  simp only [goneAfter, hMem]

/-- One entry: the queue pair goes, and its completion queues if it was their last user. -/
theorem destroyEntry_ensures (h : Consistent s) {entry : Option IbQp}
    (hList : s.qps = done ++ entry :: rest) (ht : Dropped s (goneAfter s done) t) :
    Ensures (destroyEntry entry) t (fun _ u => Dropped s (goneAfter s (done ++ [entry])) u)
      failed := by
  cases entry with
  | none => exact .pure (by rwa [goneAfter_none])
  | some q =>
      have hDone : ∀ {r}, some r ∈ done → some r ∈ s.qps := fun hR =>
        hList ▸ List.mem_append_left _ hR
      have hQ : some q ∈ s.qps := by simp [hList]
      obtain ⟨srq, hQp, hWired⟩ := stored_object h hQ
      have hPlace : s.slot (.stored done.length) = some q := by
        simp [ReliableRDMA.slot, hList]
      have hApart : ∀ {r}, some r ∈ done → r.qp ≠ q.qp := by
        intro r hR hSame
        obtain ⟨i, hShort, hFound⟩ := List.mem_iff_getElem.mp hR
        have hOther : s.slot (.stored i) = some r := by
          simp [ReliableRDMA.slot, hList, List.getElem?_append_left hShort, hShort, hFound]
        have hPlaces := h.apart hOther hPlace hSame
        exact hShort.ne (Place.stored.inj hPlaces)
      have hLive : q.qp ∉ goneAfter s done := by
        intro hGone
        rcases goneAfter_object h hDone hGone with ⟨r, hR, hSame⟩ | hCq
        · exact hApart hR hSame.symm
        · cases hQp.symm.trans hCq
      have hNow := ht.device.object_iff.mpr ⟨hLive, hQp⟩
      have hSend : ∀ {user}, Attached t.device user q.sendCq → user = q.qp := fun hUser =>
        hWired.send.only (ht.attached.mp hUser).2
      refine (destroyQP_ensures hNow hWired.distinct hSend).weaken ?_ fun _ _ hFailed => hFailed
      intro _ u hu
      exact (ht.trans hu).congr fun gone => goneAfter_snoc h hDone hQ hApart ht

end Entries

/-- A shared receive queue that a queue pair outside `m_qps` uses. -/
def Blocked (s : ReliableRDMA) : Prop :=
  ∃ rq ∈ s.srqs, ∃ user, s.device.Uses user rq.sharedRq ∧ ¬ Stored s user

/-- What the destructor does not look at: all but the region, the domain, the entries of
`m_qps` with their queues, and the shared receive queues. The completion queue of a
shared receive queue is a stray if no entry of `m_qps` reports to it. -/
def Stray (s : ReliableRDMA) (handle : Nat) : Prop :=
  (∃ value, s.device.object handle = some value) ∧ ¬ (handle = s.pd ∨ handle = s.mr ∨
    (∃ q, some q ∈ s.qps ∧ q.Has handle) ∨ ∃ rq ∈ s.srqs, handle = rq.sharedRq)

/-- A stray and what it uses. -/
def Left (s : ReliableRDMA) (handle : Nat) : Prop :=
  Stray s handle ∨ ∃ user, Stray s user ∧ s.device.Uses user handle

section SharedQueues

variable {done rest : List SharedRq} {rq : SharedRq}

def goneRqs (done : List SharedRq) : Set Nat := {gone | ∃ rq ∈ done, gone = rq.sharedRq}

/-- A user of a shared receive queue is gone exactly if it is stored, as the queue pairs
go first. -/
theorem stored_uses (h : Consistent s) {user handle : Nat} (hUses : s.device.Uses user handle)
    (hRq : rq ∈ s.srqs) (hSame : handle = rq.sharedRq) :
    Stored s user ↔ user ∈ goneAfter s s.qps ∪ goneRqs s.srqs := by
  subst hSame
  obtain ⟨pd, sendCq, recvCq, hQp⟩ := (uses_srq (h.srqs hRq).1).mp hUses
  have hUser : Attached s.device user sendCq := ⟨pd, sendCq, recvCq, _, hQp, .inl rfl⟩
  constructor
  · exact fun hStored => .inl ((goneAfter_user h id hUser).mpr hStored)
  · rintro (hGone | ⟨other, hOther, rfl⟩)
    · exact (goneAfter_user h id hUser).mp hGone
    · cases hQp.symm.trans (h.srqs hOther).1

/-- What was done is a part of all that is to be done. -/
theorem goneRqs_mono (h : ∀ {rq}, rq ∈ done → rq ∈ s.srqs) {gone : Nat}
    (hGone : gone ∈ goneRqs done) : gone ∈ goneRqs s.srqs := by
  obtain ⟨rq, hRq, hSame⟩ := hGone
  exact ⟨rq, h hRq, hSame⟩

theorem goneRqs_snoc : goneRqs (done ++ [rq]) = goneRqs done ∪ {rq.sharedRq} := by
  funext gone
  simp [goneRqs, or_and_right, exists_or, Set.union_def]

/-- The shared receive queues so far were destroyed, as no queue pair outside
`m_qps` uses them. -/
structure Unshared (s : ReliableRDMA) (done : List SharedRq) (t : ReliableRDMA) : Prop where
  dropped : Dropped s (goneAfter s s.qps ∪ goneRqs done) t
  unused : ∀ {rq}, rq ∈ done → ∀ {user}, s.device.Uses user rq.sharedRq → Stored s user

/-- What the process terminates with: the destructor is `noexcept`. -/
def srqMessage : String := "ReliableRDMASRQ::destroyQPs: ibv_destroy_srq() failed"

/-- One shared receive queue: it goes, or a queue pair that is not stored keeps it. -/
theorem destroySRQ_ensures (h : Consistent s) (hList : s.srqs = done ++ rq :: rest)
    (ht : Unshared s done t) :
    Ensures (destroySRQ rq) t (fun _ u => Unshared s (done ++ [rq]) u)
      (fun e _ => e = srqMessage ∧ Blocked s) := by
  have hDone : ∀ {other}, other ∈ done → other ∈ s.srqs := fun hOther =>
    hList ▸ List.mem_append_left _ hOther
  have hRq : rq ∈ s.srqs := by simp [hList]
  obtain ⟨hObject, -⟩ := h.srqs hRq
  have hNew : rq.sharedRq ∉ goneRqs done := by
    rintro ⟨other, hOther, hSame⟩
    have hNumbered := h.numbered
    rw [hList, List.map_append, List.nodup_append] at hNumbered
    exact hNumbered.2.2 _ (List.mem_map_of_mem hOther) _ (by simp) hSame.symm
  have hLive : rq.sharedRq ∉ goneAfter s s.qps ∪ goneRqs done := by
    rintro (hGone | hGone)
    · exact not_goneAfter h id hObject (by simp [Object.kind]) hGone
    · exact hNew hGone
  have hNow : t.device.Holds .srq rq.sharedRq :=
    ht.dropped.device.holds_iff.mpr ⟨hLive, _, hObject, rfl⟩
  by_cases hBusy : t.device.Busy rq.sharedRq
  · refine .bind (destroy_busy hNow hBusy) ?_
    rintro _ _ ⟨rfl, rfl⟩
    obtain ⟨user, hUses⟩ := hBusy
    obtain ⟨hKept, hOld⟩ := ht.dropped.device.uses_iff.mp hUses
    refine .throwIf (fun _ => ⟨rfl, rq, hRq, user, hOld, fun hStored => ?_⟩) fun hEnded => ?_
    · obtain ⟨_, _, _, hQp⟩ := (uses_srq hObject).mp hOld
      exact hKept (.inl ((goneAfter_user h id (Wired.attached hQp).1).mpr hStored))
    · exact (hEnded (by simp)).elim
  · refine .bind (destroy_idle hNow hBusy) ?_
    rintro _ u ⟨rfl, hu⟩
    refine .throwIf (fun hEnded => (hEnded rfl).elim) fun _ => ⟨?_, ?_⟩
    · refine (ht.dropped.trans hu).congr fun gone => ?_
      rw [goneRqs_snoc, ← Set.union_assoc]
    · intro other hOther user hUses
      rcases List.mem_append.mp hOther with hOld | hLast
      · exact ht.unused hOld hUses
      · obtain rfl := List.mem_singleton.mp hLast
        by_contra hStored
        rw [stored_uses h hUses hRq rfl] at hStored
        refine hBusy ⟨user, ht.dropped.device.uses_iff.mpr ⟨fun hGone => hStored ?_, hUses⟩⟩
        exact hGone.imp_right (goneRqs_mono hDone)

/-- `destroyQPs` throws only for a shared receive queue in use. -/
theorem destroyQPs_ensures (h : Consistent s) :
    Ensures destroyQPs s (fun _ t => Unshared s s.srqs t)
      (fun e _ => e = srqMessage ∧ Blocked s) := by
  refine .get ?_
  have hEntries : Ensures (s.qps.forM destroyEntry) s (fun _ t => Dropped s (goneAfter s s.qps) t)
      (fun e _ => e = srqMessage ∧ Blocked s) := by
    apply Ensures.forM (fun done t => Dropped s (goneAfter s done) t)
    · exact (Lifetimes.Keeper.Dropped.refl s).congr fun gone => by simp [goneAfter]
    · exact fun done entry rest t hList ht => destroyEntry_ensures h hList ht
  refine .bind hEntries ?_
  intro _ t ht
  apply Ensures.forM (fun done u => Unshared s done u)
  · exact ⟨ht.congr fun gone => by simp [goneRqs], nofun⟩
  · exact fun done rq rest u hList hu => destroySRQ_ensures h hList hu

end SharedQueues

section Leaving

variable {handle : Nat}

/-- What is gone before the protection domain. -/
def goneBefore (s : ReliableRDMA) : Set Nat := goneAfter s s.qps ∪ goneRqs s.srqs ∪ {s.mr}

/-- The protection domain is still there when the base class comes to it. -/
theorem domain_not_gone (h : Consistent s) : s.pd ∉ goneBefore s := by
  rintro ((hGone | ⟨rq, hRq, hSame⟩) | hSame)
  · exact not_goneAfter h id h.pd (by simp [Object.kind]) hGone
  · have hSrq := (h.srqs hRq).1
    rw [← hSame, h.pd] at hSrq
    cases hSrq
  · have hMr := h.mr
    rw [← Set.mem_singleton_iff.mp hSame, h.pd] at hMr
    cases hMr

/-- Strays stay. -/
theorem Stray.not_gone (h : Stray s handle) : handle ∉ goneBefore s := by
  rintro ((⟨q, hMem, hHas⟩ | ⟨rq, hRq, hSame⟩) | hSame)
  · exact h.2 (.inr (.inr (.inl ⟨q, hMem, hHas.imp_right (Or.imp_right And.left)⟩)))
  · exact h.2 (.inr (.inr (.inr ⟨rq, hRq, hSame⟩)))
  · exact h.2 (.inr (.inl hSame))

theorem Stray.not_stored (h : Stray s handle) : ¬ Stored s handle := fun ⟨q, hMem, hSame⟩ =>
  h.2 (.inr (.inr (.inl ⟨q, hMem, .inl hSame⟩)))

/-- A user that was not destroyed is a stray. -/
theorem stray_of_user (h : Consistent s) {user : Nat} (hUses : s.device.Uses user handle)
    (hKept : user ∉ goneBefore s) : Stray s user := by
  obtain ⟨value, hUser, kind, hUsed⟩ := hUses
  refine ⟨⟨value, hUser⟩, ?_⟩
  have hNoUses : ∀ {other}, s.device.object user = some other → other.uses ≠ [] := by
    rintro other hOther hNone
    obtain rfl := Option.some.inj (hUser.symm.trans hOther)
    rw [hNone] at hUsed
    cases hUsed
  rintro (rfl | rfl | ⟨q, hMem, hHas⟩ | ⟨rq, hRq, rfl⟩)
  · exact hNoUses h.pd rfl
  · exact hKept (.inr rfl)
  · obtain ⟨srq, hQp, -⟩ := stored_object h hMem
    obtain ⟨hToSend, hToRecv⟩ := Wired.attached hQp
    rcases hHas with rfl | rfl | rfl
    · exact hKept (.inl (.inl ⟨q, hMem, .inl rfl⟩))
    · exact hNoUses hToSend.live rfl
    · exact hNoUses hToRecv.live rfl
  · exact hKept (.inl (.inr ⟨rq, hRq, rfl⟩))

/-- A receive queue whose queue pairs are all in `m_qps` has no other user. -/
theorem used_not_gone (h : Consistent s) (hFree : ¬ Blocked s) {user : Nat} (hStray : Stray s user)
    (hUses : s.device.Uses user handle) : handle ∉ goneBefore s := by
  have hIdle : ∀ {value}, s.device.object handle = some value →
      ¬ (value.kind = .qp ∨ value.kind = .mr) :=
    fun hObject hKind => not_busy hObject hKind ⟨user, hUses⟩
  rintro ((⟨q, hMem, hHas⟩ | ⟨rq, hRq, rfl⟩) | hSame)
  · obtain ⟨srq, hQp, hWired⟩ := stored_object h hMem
    obtain ⟨hToSend, hToRecv⟩ := Wired.attached hQp
    rcases hHas with rfl | rfl | ⟨rfl, hAll⟩
    · exact hIdle hQp (.inl rfl)
    · exact hStray.not_stored ⟨q, hMem, hWired.send.only ((uses_cq hToSend.live).mp hUses)⟩
    · exact hStray.not_stored (hAll user ((uses_cq hToRecv.live).mp hUses))
  · exact hFree ⟨rq, hRq, user, hUses, hStray.not_stored⟩
  · rw [Set.mem_singleton_iff.mp hSame] at hIdle
    exact hIdle h.mr (.inr rfl)

/-- A live object that is neither a stray nor used by one is destroyed. -/
theorem gone_of_not_left (h : Consistent s) {value : Object}
    (hObject : s.device.object handle = some value) (hOther : handle ≠ s.pd)
    (hLeft : ¬ Left s handle) : handle ∈ goneBefore s := by
  by_contra hKept
  apply hLeft
  by_cases hOwned : handle = s.pd ∨ handle = s.mr ∨ (∃ q, some q ∈ s.qps ∧ q.Has handle) ∨
      ∃ rq ∈ s.srqs, handle = rq.sharedRq
  · rcases hOwned with hPd | hMr | ⟨q, hMem, hHas⟩ | ⟨rq, hRq, hSame⟩
    · exact (hOther hPd).elim
    · exact (hKept (.inr hMr)).elim
    · rcases hHas with hSame | hSame | rfl
      · exact (hKept (.inl (.inl ⟨q, hMem, .inl hSame⟩))).elim
      · exact (hKept (.inl (.inl ⟨q, hMem, .inr (.inl hSame)⟩))).elim
      · -- some queue pair outside `m_qps` keeps the receive queue busy
        have hUser : ∃ user, Attached s.device user q.recvCq ∧ ¬ Stored s user := by
          by_contra hNone
          push Not at hNone
          exact hKept (.inl (.inl ⟨q, hMem, .inr (.inr ⟨rfl, hNone⟩)⟩))
        obtain ⟨user, hAttached, hStored⟩ := hUser
        have hUses := (uses_cq hAttached.live).mpr hAttached
        refine .inr ⟨user, stray_of_user h hUses ?_, hUses⟩
        obtain ⟨pd, sendCq, recvCq, srq, hQp, -⟩ := id hAttached
        rintro ((hGone | ⟨rq, hRq, rfl⟩) | hSame)
        · exact hStored ((goneAfter_user h id hAttached).mp hGone)
        · cases hQp.symm.trans (h.srqs hRq).1
        · rw [Set.mem_singleton_iff.mp hSame] at hQp
          cases hQp.symm.trans h.mr
    · exact (hKept (.inl (.inr ⟨rq, hRq, hSame⟩))).elim
  · exact .inl ⟨⟨value, hObject⟩, hOwned⟩

/-- `~BaseRDMA` takes the memory region, and the protection domain if nothing uses it. -/
theorem destroyBase_ensures (h : Consistent s) (hFree : ¬ Blocked s) (ht : Unshared s s.srqs t) :
    Ensures destroyBase { t with qps := [] }
      (fun _ u => s.device.Without {gone | ¬ Left s gone} u.device) failed := by
  have hPd : t.pd = s.pd := by rw [ht.dropped.rest]
  have hMr : t.mr = s.mr := by rw [ht.dropped.rest]
  have hMrLive : s.mr ∉ goneAfter s s.qps ∪ goneRqs s.srqs := by
    rintro (hGone | ⟨rq, hRq, hSame⟩)
    · exact not_goneAfter h id h.mr (by simp [Object.kind]) hGone
    · have hSrq := (h.srqs hRq).1
      rw [← hSame, h.mr] at hSrq
      cases hSrq
  have hMrNow : t.device.object t.mr = some (.mr s.pd) := by
    rw [hMr]
    exact ht.dropped.device.object_iff.mpr ⟨hMrLive, h.mr⟩
  refine .get (.bind (@destroy_idle { t with qps := [] } _ .mr t.mr ⟨_, hMrNow, rfl⟩
    (not_busy hMrNow (.inr rfl))) ?_)
  rintro _ u ⟨-, hu⟩
  have hBefore : s.device.Without (goneBefore s) u.device := by
    refine (ht.dropped.device.trans hu.device).congr fun gone => ?_
    rw [goneBefore, hMr]
  have hPdNow : u.device.Holds .pd t.pd := by
    rw [hPd]
    exact hBefore.holds_iff.mpr ⟨domain_not_gone h, _, h.pd, rfl⟩
  refine .bind (destroy_ensures hPdNow) ?_
  rintro _ v hv
  apply Ensures.pure
  have hLast := hBefore.trans hv.device
  rw [hPd] at hLast
  have hDomain : u.device.Busy s.pd ↔ Left s s.pd := by
    constructor
    · rintro ⟨user, hUses⟩
      obtain ⟨hKept, hOld⟩ := hBefore.uses_iff.mp hUses
      exact .inr ⟨user, stray_of_user h hOld hKept, hOld⟩
    · rintro (hStray | ⟨user, hStray, hUses⟩)
      · exact (hStray.2 (.inl rfl)).elim
      · exact ⟨user, hBefore.uses_iff.mpr ⟨hStray.not_gone, hUses⟩⟩
  refine ⟨fun {gone} hLeft => ?_, fun {gone} hKept => ?_⟩
  · cases hObject : s.device.object gone with
    | none =>
        by_cases hGone : gone ∈ goneBefore s ∪ {gone | gone = s.pd ∧ ¬ u.device.Busy s.pd}
        · exact hLast.gone hGone
        · rw [hLast.kept hGone, hObject]
    | some value =>
        apply hLast.gone
        by_cases hSame : gone = s.pd
        · exact .inr ⟨hSame, fun hBusy => hLeft (hSame ▸ hDomain.mp hBusy)⟩
        · exact .inl (gone_of_not_left h hObject hSame hLeft)
  · apply hLast.kept
    have hLeft : Left s gone := not_not.mp hKept
    rintro (hGone | ⟨rfl, hIdle⟩)
    · rcases hLeft with hStray | ⟨user, hStray, hUses⟩
      · exact hStray.not_gone hGone
      · exact used_not_gone h hFree hStray hUses hGone
    · exact hIdle (hDomain.mpr hLeft)

/-- The three parts of the destructor in order: the queue pairs, the shared receive
queues, and what belongs to the base class. -/
theorem destructor_ensures (h : Consistent s) :
    Ensures destructor s
      (fun _ t => ¬ Blocked s ∧ s.device.Without {gone | ¬ Left s gone} t.device)
      (fun e _ => e = srqMessage ∧ Blocked s) := by
  refine .bind (destroyQPs_ensures h) ?_
  intro _ t ht
  have hFree : ¬ Blocked s := fun ⟨_, hRq, _, hUses, hStored⟩ => hStored (ht.unused hRq hUses)
  have hClear : Ensures (modify fun t => { t with qps := [] } : RDMACall Unit) t
      (fun _ u => u = { t with qps := [] }) (fun e _ => e = srqMessage ∧ Blocked s) := .modify rfl
  refine .bind hClear ?_
  rintro _ _ rfl
  exact (destroyBase_ensures h hFree ht).weaken (fun _ _ hLeft => ⟨hFree, hLeft⟩) fun _ _ hE => hE

end Leaving

/-- No call and no destructor touches a destroyed object, whatever failed before.
The destructor throws, which terminates the process, exactly if a shared receive
queue is still used from outside `m_qps`, and otherwise leaves the strays and what
they use, and no more. -/
theorem destructor_leaves_strays (h : lifeMachine.Reachable s) :
    (∀ a call, perform s a = some call → ∃ result t, call.outcome s = some (result, t)) ∧
      ∃ result t, destructor.outcome s = some (result, t) ∧
        (Blocked s → result = .error "ReliableRDMASRQ::destroyQPs: ibv_destroy_srq() failed") ∧
        (¬ Blocked s → result = .ok () ∧ s.device.Without {gone | ¬ Left s gone} t.device) := by
  have hConsistent := reachable_consistent h
  constructor
  · intro a call hCall
    obtain ⟨result, t, hOutcome, -⟩ := perform_keeps hConsistent hCall
    exact ⟨result, t, hOutcome⟩
  · obtain ⟨result, t, hOutcome, hPost⟩ := destructor_ensures hConsistent
    refine ⟨result, t, hOutcome, ?_, ?_⟩
    · intro hBlocked
      cases result with
      | ok value => exact (hPost.1 hBlocked).elim
      | error e => rw [hPost.1, srqMessage]
    · intro hFree
      cases result with
      | ok value => exact ⟨rfl, hPost.2⟩
      | error e => exact (hFree hPost.2).elim

/-- A server with a shared receive queue that connects to itself. -/
def selfConnect : List Action :=
  [.createSharedReceiveQueue none, .initQPForSRQWithSuppliedID 0 1 none,
    .initQPForSRQWithSuppliedID 0 1 none]

def selfConnected : ReliableRDMA := (lifeMachine.replay createBuffer selfConnect).getD createBuffer

/-- The queue pair that was stored over keeps the queue busy, and the process
terminates in the destructor. -/
theorem destructor_leaves_strays_selfConnected : ∃ t, destructor.outcome selfConnected =
    some (.error "ReliableRDMASRQ::destroyQPs: ibv_destroy_srq() failed", t) := by
  have hReachable : lifeMachine.Reachable selfConnected :=
    @Machine.reachable_of_replay _ _ lifeMachine _ selfConnect rfl
  obtain ⟨-, result, t, hOutcome, hBlocked, -⟩ := destructor_leaves_strays hReachable
  have hUsed : Blocked selfConnected := by
    refine ⟨⟨2, 3⟩, by decide, 5, ⟨_, rfl, .srq, by decide⟩, ?_⟩
    rintro ⟨q, hMem, hSame⟩
    obtain rfl : q = ⟨7, 6, 3⟩ := by simpa using (show some q ∈ [none, some ⟨7, 6, 3⟩] from hMem)
    cases hSame
  exact ⟨t, by rw [hOutcome, hBlocked hUsed]⟩

/-- After a run without failures in which each call of `connect` got its answer and
each shared receive queue got a queue pair, nothing is left. -/
theorem orderly_teardown {visits : List (ReliableRDMA × Action)}
    (run : lifeMachine.RunsTo visits s) (hOrderly : ∀ visit ∈ visits, Orderly visit.1 visit.2)
    (hEnded : ∀ call, s.waiting call = none)
    (hUsed : ∀ rq ∈ s.srqs, ∃ q, some q ∈ s.qps ∧ q.recvCq = rq.recvCq) :
    ∃ t, destructor.outcome s = some (.ok (), t) ∧ ∀ handle, t.device.object handle = none := by
  obtain ⟨hConsistent, hTidy⟩ := orderly_tidy run hOrderly
  have hSlots : ∀ {place q}, s.slot place = some q → some q ∈ s.qps := by
    intro place q hSlot
    cases place with
    | stored rdmaConnID => exact mem_qps.mpr ⟨rdmaConnID, hSlot⟩
    | waiting call => exact absurd hSlot (by simp [ReliableRDMA.slot, hEnded])
  have hNoStray : ∀ {handle}, ¬ Stray s handle := by
    rintro handle ⟨⟨value, hObject⟩, hOther⟩
    apply hOther
    refine (hTidy hObject).imp_right (Or.imp_right ?_)
    rintro (⟨place, q, hSlot, hHas⟩ | ⟨rq, hRq, hSame | hSame⟩)
    · exact .inl ⟨q, hSlots hSlot, hHas⟩
    · exact .inr ⟨rq, hRq, hSame⟩
    · obtain ⟨q, hMem, hRecv⟩ := hUsed rq hRq
      exact .inl ⟨q, hMem, .inr (.inr (hSame.trans hRecv.symm))⟩
  have hLeft : ∀ {handle}, ¬ Left s handle := by
    rintro handle (hStray | ⟨user, hStray, -⟩) <;> exact hNoStray hStray
  obtain ⟨result, t, hOutcome, hPost⟩ := destructor_ensures hConsistent
  cases result with
  | ok value => exact ⟨t, hOutcome, fun handle => hPost.2.gone hLeft⟩
  | error e =>
      exfalso
      obtain ⟨-, rq, hRq, user, hUses, hStored⟩ := hPost
      obtain ⟨pd, sendCq, recvCq, hQp⟩ := (uses_srq (hConsistent.srqs hRq).1).mp hUses
      have hOther : user ≠ s.pd := by
        rintro rfl
        cases hQp.symm.trans hConsistent.pd
      rcases gone_of_not_left hConsistent hQp hOther hLeft with hGone | hSame
      · exact hStored ((stored_uses hConsistent hUses hRq rfl).mpr hGone)
      · rw [Set.mem_singleton_iff.mp hSame] at hQp
        cases hQp.symm.trans hConsistent.mr

theorem waiting_none (h : ∀ entry ∈ s.calls, entry = none) (call : Nat) :
    s.waiting call = none := by
  rw [ReliableRDMA.waiting]
  cases hEntry : s.calls[call]? with
  | none => rfl
  | some entry => exact h entry (List.mem_of_getElem? hEntry)

/-- Two accepted connections, a rejected one, and a client on a shared receive queue. -/
def orderlyActions : List Action :=
  [.createSharedReceiveQueue none, .initQPForSRQWithSuppliedID 0 4 none, .connect none,
    .connect none, .connect none, .accepted 2 1, .rejected 0, .accepted 1 3, .initQP none]

def orderlyState : ReliableRDMA :=
  (lifeMachine.replay createBuffer orderlyActions).getD createBuffer

/-- A shared receive queue with its queue pair, three calls of `connect`, one of them
rejected, and a queue pair of the own choice of the node. -/
theorem orderly_teardown_replayed : ∃ t, destructor.outcome orderlyState = some (.ok (), t) ∧
    ∀ handle, t.device.object handle = none := by
  have hRun : lifeMachine.RunsTo (lifeMachine.record createBuffer orderlyActions) orderlyState :=
    @Machine.runsTo_of_replay _ _ lifeMachine _ orderlyActions rfl
  have hOrderly : ∀ visit ∈ lifeMachine.record createBuffer orderlyActions,
      Orderly visit.1 visit.2 := by decide +kernel
  have hCalls : ∀ entry ∈ orderlyState.calls, entry = none := by decide +kernel
  have hSrqs : ∀ rq ∈ orderlyState.srqs, rq.recvCq = 3 := by decide +kernel
  have hStored : some ⟨5, 4, 3⟩ ∈ orderlyState.qps := by decide +kernel
  exact orderly_teardown hRun hOrderly (waiting_none hCalls)
    fun rq hRq => ⟨⟨5, 4, 3⟩, hStored, (hSrqs rq hRq).symm⟩

end VerbObjects
