import RDMAPatterns.Verbs.SendQueue

/-! What a queue holds on to depends on the requests posted and on the number
of completions consumed, not on when the hardware executes what. A queue is
seen here as the list of its signal flags. -/
namespace Verbs

/-- Drop flags up to and including the first signaled one. -/
def dropThrough : List Bool → List Bool
  | [] => []
  | signaled :: rest => if signaled then rest else dropThrough rest

/-- The flags posted since the signaled one that `unclaimed` other signaled
ones followed. The history starts with the newest flag. -/
def sinceSignaled : Nat → List Bool → List Bool
  | _, [] => []
  | unclaimed, false :: older => false :: sinceSignaled unclaimed older
  | 0, true :: _ => []
  | unclaimed + 1, true :: older => true :: sinceSignaled unclaimed older

/-- If there is a signaled request, what is dropped is among the earlier ones. -/
theorem dropThrough_append {flags : List Bool} (hSignaled : true ∈ flags) (later : List Bool) :
    dropThrough (flags ++ later) = dropThrough flags ++ later := by
  induction flags with
  | nil => cases hSignaled
  | cons signaled rest ih =>
      cases signaled with
      | true => rfl
      | false =>
          have hRest : true ∈ rest := by simpa using hSignaled
          simpa [dropThrough] using ih hRest

/-- Requests that are not signaled are dropped with the first one that is. -/
theorem dropThrough_silent_append {flags : List Bool} (hSilent : true ∉ flags)
    (later : List Bool) : dropThrough (flags ++ later) = dropThrough later := by
  induction flags with
  | nil => rfl
  | cons signaled rest ih =>
      cases signaled with
      | true => exact absurd List.mem_cons_self hSilent
      | false => exact ih fun hRest => hSilent (List.mem_cons_of_mem _ hRest)

/-- Newer flags are kept, and their signaled ones are not counted. -/
theorem sinceSignaled_append (flags history : List Bool) (unclaimed : Nat) :
    sinceSignaled (unclaimed + flags.count true) (flags ++ history) =
      flags ++ sinceSignaled unclaimed history := by
  induction flags with
  | nil => rfl
  | cons signaled rest ih =>
      cases signaled with
      | true =>
          rw [List.count_cons_self, ← Nat.add_assoc]
          exact congrArg (true :: ·) ih
      | false => simpa [sinceSignaled] using ih

/-- Behind the last signaled request there is none. -/
theorem sinceSignaled_silent (history : List Bool) : true ∉ sinceSignaled 0 history := by
  induction history with
  | nil => simp [sinceSignaled]
  | cons signaled older ih =>
      cases signaled with
      | true => simp [sinceSignaled]
      | false => simpa [sinceSignaled] using ih

theorem mem_sinceSignaled {unclaimed : Nat} {history : List Bool}
    (hEnough : unclaimed < history.count true) :
    true ∈ sinceSignaled (unclaimed + 1) history := by
  induction history with
  | nil => simp at hEnough
  | cons signaled older ih =>
      cases signaled with
      | true => simp [sinceSignaled]
      | false =>
          have hOlder : unclaimed < older.count true := by simpa using hEnough
          simpa [sinceSignaled] using ih hOlder

/-- Consuming a completion leaves one signaled request less. -/
theorem dropThrough_sinceSignaled {unclaimed : Nat} {history : List Bool}
    (hEnough : unclaimed < history.count true) :
    dropThrough (sinceSignaled (unclaimed + 1) history).reverse =
      (sinceSignaled unclaimed history).reverse := by
  induction history generalizing unclaimed with
  | nil => simp at hEnough
  | cons signaled older ih =>
      cases signaled with
      | false =>
          have hOlder : unclaimed < older.count true := by simpa using hEnough
          have hSignaled : true ∈ (sinceSignaled (unclaimed + 1) older).reverse :=
            List.mem_reverse.mpr (mem_sinceSignaled hOlder)
          simp only [sinceSignaled, List.reverse_cons]
          rw [dropThrough_append hSignaled, ih hOlder]
      | true =>
          simp only [sinceSignaled, List.reverse_cons]
          cases unclaimed with
          | zero =>
              -- the newest flag is the only signaled one
              have hSilent : true ∉ (sinceSignaled 0 older).reverse := by
                rw [List.mem_reverse]
                exact sinceSignaled_silent older
              rw [dropThrough_silent_append hSilent]
              rfl
          | succ unclaimed =>
              have hOlder : unclaimed < older.count true := by simpa using hEnough
              have hSignaled : true ∈ (sinceSignaled (unclaimed + 1) older).reverse :=
                List.mem_reverse.mpr (mem_sinceSignaled hOlder)
              rw [dropThrough_append hSignaled, ih hOlder]
              simp [sinceSignaled]

namespace SendQueue

/-- The signal flags of what is outstanding, oldest first. -/
def flags (q : SendQueue) : List Bool := q.outstanding.map WorkRequest.signaled

/-- Post a linked list of requests. -/
def postAll (q : SendQueue) (flags : List Bool) : SendQueue := flags.foldl post q

theorem length_flags (q : SendQueue) : q.flags.length = q.depth := List.length_map _

@[simp] theorem flags_post (q : SendQueue) (signaled : Bool) :
    (q.post signaled).flags = q.flags ++ [signaled] := by
  simp [flags, request]

@[simp] theorem flags_postAll (q : SendQueue) (flags : List Bool) :
    (q.postAll flags).flags = q.flags ++ flags := by
  induction flags generalizing q with
  | nil => simp [postAll]
  | cons signaled rest ih =>
      have hRest := ih (q.post signaled)
      simpa [postAll] using hRest

/-- The hardware does not change the order of the requests. -/
theorem flags_complete {q next : SendQueue} (hNext : q.complete = some next) :
    next.flags = q.flags := by
  rw [flags, flags, outstanding_complete hNext]

/-- Polling a completion drops everything up to its request. -/
theorem dropThrough_reclaim {list rest : List WorkRequest} {wr : WorkRequest}
    (hReclaim : reclaim list = some (wr, rest)) (later : List WorkRequest) :
    dropThrough ((list ++ later).map WorkRequest.signaled) =
      (rest ++ later).map WorkRequest.signaled := by
  induction list with
  | nil => simp [reclaim] at hReclaim
  | cons first others ih =>
      rw [reclaim] at hReclaim
      split at hReclaim
      case isTrue hSignaled =>
          obtain ⟨_, rfl⟩ := Prod.mk.inj (Option.some.inj hReclaim)
          simp [dropThrough, hSignaled]
      case isFalse hSilent =>
          simpa [dropThrough, hSilent] using ih hReclaim

/-- A poll reclaims the requests up to the first signaled one. -/
theorem flags_poll {q next : SendQueue} {wr : WorkRequest} (hPoll : q.poll = some (wr, next)) :
    next.flags = dropThrough q.flags := by
  rw [poll, Option.map_eq_some_iff] at hPoll
  obtain ⟨⟨found, rest⟩, hReclaim, hPair⟩ := hPoll
  obtain ⟨_, rfl⟩ := Prod.mk.inj hPair
  exact (dropThrough_reclaim hReclaim q.pending).symm

end SendQueue
end Verbs
