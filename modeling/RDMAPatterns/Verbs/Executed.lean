import RDMAPatterns.Verbs.SendQueue

/-! Which request a completion belongs to. Completions are taken in posting
order, so the one taken next is the oldest outstanding signaled request. -/
namespace Verbs
namespace SendQueue

/-- The outstanding signaled requests, oldest first. -/
def signaledIds (q : SendQueue) : List Nat :=
  (q.outstanding.filter WorkRequest.signaled).map WorkRequest.id

/-- The hardware has executed the request. -/
def Executed (q : SendQueue) (id : Nat) : Prop :=
  id < q.posted ∧ ∀ wr ∈ q.pending, wr.id ≠ id

/-- Numbers are given out in posting order, each of them once. -/
structure Numbered (q : SendQueue) : Prop where
  ordered : q.outstanding.Pairwise (fun first second => first.id < second.id)
  below : ∀ wr ∈ q.outstanding, wr.id < q.posted

theorem signaledIds_post (q : SendQueue) (signaled : Bool) :
    (q.post signaled).signaledIds = q.signaledIds ++ if signaled then [q.posted] else [] := by
  cases signaled with
  | true => simp [signaledIds, request]
  | false => simp [signaledIds, request]

/-- The hardware keeps the order of the signaled requests. -/
theorem signaledIds_complete {q next : SendQueue} (hNext : q.complete = some next) :
    next.signaledIds = q.signaledIds := by
  rw [signaledIds, signaledIds, outstanding_complete hNext]

/-- What is reclaimed ends with the first signaled request. -/
theorem filter_reclaim {list rest : List WorkRequest} {wr : WorkRequest}
    (hReclaim : reclaim list = some (wr, rest)) :
    list.filter WorkRequest.signaled = wr :: rest.filter WorkRequest.signaled := by
  induction list with
  | nil => simp [reclaim] at hReclaim
  | cons first others ih =>
      rw [reclaim] at hReclaim
      split at hReclaim
      case isTrue hSignaled =>
          obtain ⟨rfl, rfl⟩ := Prod.mk.inj (Option.some.inj hReclaim)
          exact List.filter_cons_of_pos hSignaled
      case isFalse hSilent =>
          rw [List.filter_cons_of_neg hSilent]
          exact ih hReclaim

theorem signaledIds_poll {q next : SendQueue} {wr : WorkRequest}
    (hPoll : q.poll = some (wr, next)) : q.signaledIds = wr.id :: next.signaledIds := by
  rw [poll, Option.map_eq_some_iff] at hPoll
  obtain ⟨⟨found, rest⟩, hReclaim, hPair⟩ := hPoll
  obtain ⟨rfl, rfl⟩ := Prod.mk.inj hPair
  simp [signaledIds, outstanding, filter_reclaim hReclaim]

theorem numbered_empty : Numbered {} := ⟨List.Pairwise.nil, by simp [outstanding]⟩

theorem Numbered.post {q : SendQueue} (h : q.Numbered) (signaled : Bool) :
    (q.post signaled).Numbered := by
  constructor
  · rw [outstanding_post, List.pairwise_append]
    refine ⟨h.ordered, List.pairwise_singleton _ _, fun wr hWr own hOwn => ?_⟩
    rw [List.mem_singleton.mp hOwn]
    exact h.below wr hWr
  · intro wr hWr
    rw [outstanding_post, List.mem_append, List.mem_singleton] at hWr
    rcases hWr with hOld | rfl
    · exact Nat.lt_succ_of_lt (h.below wr hOld)
    · exact Nat.lt_succ_self q.posted

theorem posted_complete {q next : SendQueue} (hNext : q.complete = some next) :
    next.posted = q.posted := by
  rw [complete] at hNext
  split at hNext
  · cases hNext
  · obtain rfl := Option.some.inj hNext
    rfl

/-- The numbers stay in order when a request is performed. -/
theorem Numbered.complete {q next : SendQueue} (h : q.Numbered)
    (hNext : q.complete = some next) : next.Numbered := by
  constructor
  · rw [outstanding_complete hNext]
    exact h.ordered
  · rw [outstanding_complete hNext, posted_complete hNext]
    exact h.below

theorem posted_poll {q next : SendQueue} {wr : WorkRequest} (hPoll : q.poll = some (wr, next)) :
    next.posted = q.posted := by
  obtain ⟨found, _, hPair⟩ := Option.map_eq_some_iff.mp hPoll
  obtain ⟨_, rfl⟩ := Prod.mk.inj hPair
  rfl

/-- The numbers stay in order when requests are reclaimed. -/
theorem Numbered.poll {q next : SendQueue} {wr : WorkRequest} (h : q.Numbered)
    (hPoll : q.poll = some (wr, next)) : next.Numbered := by
  obtain ⟨_, before, hSplit⟩ := poll_eq_some hPoll
  have hSublist : next.outstanding.Sublist q.outstanding := by
    rw [hSplit]
    exact (List.sublist_cons_self wr _).trans (List.sublist_append_right before _)
  constructor
  · exact h.ordered.sublist hSublist
  · rw [posted_poll hPoll]
    exact fun own hOwn => h.below own (hSublist.subset hOwn)

/-- A request whose completion is found has been executed. -/
theorem Numbered.executed {q next : SendQueue} {wr : WorkRequest} (h : q.Numbered)
    (hPoll : q.poll = some (wr, next)) : q.Executed wr.id := by
  rw [SendQueue.poll, Option.map_eq_some_iff] at hPoll
  obtain ⟨⟨found, rest⟩, hReclaim, hPair⟩ := hPoll
  obtain ⟨rfl, _⟩ := Prod.mk.inj hPair
  obtain ⟨_, before, hDone⟩ := reclaim_eq_some hReclaim
  have hFound : found ∈ q.done := by simp [hDone]
  have hOrdered := (List.pairwise_append.mp h.ordered).2.2
  exact ⟨h.below found (List.mem_append_left _ hFound),
    fun own hOwn => Nat.ne_of_gt (hOrdered found hFound own hOwn)⟩

/-- Taking a completion makes room. -/
theorem depth_poll {q next : SendQueue} {wr : WorkRequest} (hPoll : q.poll = some (wr, next)) :
    next.depth < q.depth := by
  obtain ⟨_, before, hSplit⟩ := poll_eq_some hPoll
  have hLength := congrArg List.length hSplit
  rw [List.length_append, List.length_cons] at hLength
  simp only [depth]
  omega

end SendQueue
end Verbs
