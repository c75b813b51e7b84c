import Mathlib.Data.List.Basic

/-! Send queues with selective signaling. The requests of one queue complete
in the order in which they were posted. Only a signaled request leaves a
completion behind; polling it reclaims that request and all earlier ones. -/
namespace Verbs

/-- Requests are numbered in posting order. -/
structure WorkRequest where
  id : Nat
  signaled : Bool
deriving DecidableEq, Repr

/-- The requests a queue holds on to, oldest first. Those in `done` have been
executed by the hardware, those in `pending` have not. -/
structure SendQueue where
  posted : Nat := 0
  done : List WorkRequest := []
  pending : List WorkRequest := []
deriving DecidableEq, Repr

namespace SendQueue

/-- Posted and not yet reclaimed. -/
def outstanding (q : SendQueue) : List WorkRequest := q.done ++ q.pending

def depth (q : SendQueue) : Nat := q.outstanding.length

/-- The unpolled entries of the completion queue. -/
def completions (q : SendQueue) : List WorkRequest := q.done.filter WorkRequest.signaled

/-- The request the next post adds. -/
def request (q : SendQueue) (signaled : Bool) : WorkRequest := ⟨q.posted, signaled⟩

def post (q : SendQueue) (signaled : Bool) : SendQueue :=
  { q with posted := q.posted + 1, pending := q.pending ++ [q.request signaled] }

/-- The hardware executes the oldest pending request. -/
def complete (q : SendQueue) : Option SendQueue :=
  match q.pending with
  | [] => none
  | wr :: rest => some { q with done := q.done ++ [wr], pending := rest }

/-- Drop requests up to and including the first signaled one. -/
def reclaim : List WorkRequest → Option (WorkRequest × List WorkRequest)
  | [] => none
  | wr :: rest => if wr.signaled then some (wr, rest) else reclaim rest

/-- Take one entry off the completion queue. -/
def poll (q : SendQueue) : Option (WorkRequest × SendQueue) :=
  (reclaim q.done).map fun (wr, rest) => (wr, { q with done := rest })

@[simp] theorem outstanding_post (q : SendQueue) (signaled : Bool) :
    (q.post signaled).outstanding = q.outstanding ++ [q.request signaled] := by
  simp [outstanding, post]

/-- Execution reclaims nothing. -/
theorem outstanding_complete {q next : SendQueue} (hNext : q.complete = some next) :
    next.outstanding = q.outstanding := by
  obtain ⟨posted, done, pending⟩ := q
  cases pending with
  | nil => simp [complete] at hNext
  | cons wr rest =>
      obtain rfl := Option.some.inj hNext
      simp [outstanding]

theorem reclaim_eq_some {list rest : List WorkRequest} {wr : WorkRequest}
    (hReclaim : reclaim list = some (wr, rest)) :
    wr.signaled = true ∧ ∃ before, list = before ++ wr :: rest := by
  induction list with
  | nil => simp [reclaim] at hReclaim
  | cons first others ih =>
      by_cases hSignaled : first.signaled = true
      · rw [reclaim, if_pos hSignaled] at hReclaim
        obtain ⟨rfl, rfl⟩ := Prod.mk.inj (Option.some.inj hReclaim)
        exact ⟨hSignaled, [], rfl⟩
      · rw [reclaim, if_neg hSignaled] at hReclaim
        obtain ⟨hWr, before, hBefore⟩ := ih hReclaim
        exact ⟨hWr, first :: before, by rw [hBefore, List.cons_append]⟩

/-- A polled completion belongs to an outstanding signaled request. It and
everything in front of it are reclaimed. -/
theorem poll_eq_some {q next : SendQueue} {wr : WorkRequest}
    (hPoll : q.poll = some (wr, next)) :
    wr.signaled = true ∧ ∃ before, q.outstanding = before ++ wr :: next.outstanding := by
  rw [poll, Option.map_eq_some_iff] at hPoll
  obtain ⟨⟨found, rest⟩, hReclaim, hPair⟩ := hPoll
  obtain ⟨rfl, rfl⟩ := Prod.mk.inj hPair
  obtain ⟨hSignaled, before, hDone⟩ := reclaim_eq_some hReclaim
  exact ⟨hSignaled, before, by simp [outstanding, hDone]⟩

/-- No outstanding request will ever leave a completion. -/
def Quiet (q : SendQueue) : Prop := ∀ wr ∈ q.outstanding, wr.signaled = false

/-- The request posted last is signaled, and no other one is. -/
def Awaits (q : SendQueue) (own : WorkRequest) : Prop :=
  own.signaled = true ∧
    ∃ before, q.outstanding = before ++ [own] ∧ ∀ wr ∈ before, wr.signaled = false

theorem quiet_empty : Quiet {} := by simp [Quiet, outstanding]

theorem Quiet.completions_eq {q : SendQueue} (h : q.Quiet) : q.completions = [] := by
  rw [completions, List.filter_eq_nil_iff]
  intro wr hWr
  have hSilent := h wr (List.mem_append_left _ hWr)
  simp [hSilent]

theorem Quiet.post {q : SendQueue} (h : q.Quiet) : (q.post false).Quiet := by
  intro wr hWr
  rw [outstanding_post, List.mem_append, List.mem_singleton] at hWr
  rcases hWr with hOld | rfl
  · exact h wr hOld
  · rfl

theorem Quiet.awaits {q : SendQueue} (h : q.Quiet) :
    (q.post true).Awaits (q.request true) :=
  ⟨rfl, q.outstanding, outstanding_post q true, h⟩

/-- The only completion to come is the awaited one, and it empties the queue. -/
theorem Awaits.poll {q next : SendQueue} {own wr : WorkRequest} (h : q.Awaits own)
    (hPoll : q.poll = some (wr, next)) : wr = own ∧ next.outstanding = [] := by
  obtain ⟨_, before, hOwn, hSilent⟩ := h
  obtain ⟨hSignaled, earlier, hSplit⟩ := poll_eq_some hPoll
  rw [hOwn] at hSplit
  rcases List.append_eq_append_iff.mp hSplit with ⟨tail, hEarlier, hTail⟩ | ⟨tail, hBefore, hTail⟩
  · -- the polled request is not among the silent ones
    cases tail with
    | nil =>
        obtain ⟨rfl, hRest⟩ := List.cons.inj hTail
        exact ⟨rfl, hRest.symm⟩
    | cons first others =>
        have hLength := congrArg List.length hTail
        simp only [List.length_cons, List.length_append, List.length_nil] at hLength
        omega
  · cases tail with
    | nil =>
        obtain ⟨rfl, hRest⟩ := List.cons.inj hTail
        exact ⟨rfl, hRest⟩
    | cons first others =>
        obtain ⟨rfl, _⟩ := List.cons.inj hTail
        have hNot := hSilent wr (by simp [hBefore])
        simp [hNot] at hSignaled

end SendQueue
end Verbs
