import Mathlib.Data.List.Perm.Basic

/-! Shared receive queues. A message that arrives on any connection of the queue
takes one of the posted receives. Its completion names the connection and the
work request. -/
namespace Verbs

/-- `completed` is the completion queue, oldest entry first. An entry holds the
connection and the id of the work request. -/
structure SharedReceiveQueue where
  posted : List Nat := []
  completed : List (Nat × Nat) := []
deriving DecidableEq, Repr

namespace SharedReceiveQueue

def post (q : SharedReceiveQueue) (wrId : Nat) : SharedReceiveQueue :=
  { q with posted := q.posted ++ [wrId] }

/-- A message takes the posted receive `wrId`. Without one it cannot arrive. -/
def arrive (q : SharedReceiveQueue) (conn wrId : Nat) : Option SharedReceiveQueue :=
  if wrId ∈ q.posted then
    some ⟨q.posted.erase wrId, q.completed ++ [(conn, wrId)]⟩
  else none

/-- Take the oldest completion. -/
def poll (q : SharedReceiveQueue) : Option ((Nat × Nat) × SharedReceiveQueue) :=
  match q.completed with
  | [] => none
  | entry :: rest => some (entry, { q with completed := rest })

/-- Take the oldest completions, at most `limit` many. -/
def pollBatch (q : SharedReceiveQueue) (limit : Nat) : List (Nat × Nat) × SharedReceiveQueue :=
  (q.completed.take limit, { q with completed := q.completed.drop limit })

/-- The work requests the queue holds on to. -/
def held (q : SharedReceiveQueue) : List Nat := q.posted ++ q.completed.map Prod.snd

theorem arrive_eq_some {q next : SharedReceiveQueue} {conn wrId : Nat}
    (hArrive : q.arrive conn wrId = some next) :
    wrId ∈ q.posted ∧ next.posted = q.posted.erase wrId ∧
      next.completed = q.completed ++ [(conn, wrId)] := by
  rw [arrive, Option.ite_none_right_eq_some] at hArrive
  obtain ⟨hPosted, hNext⟩ := hArrive
  obtain rfl := Option.some.inj hNext
  exact ⟨hPosted, rfl, rfl⟩

theorem poll_eq_some {q next : SharedReceiveQueue} {entry : Nat × Nat}
    (hPoll : q.poll = some (entry, next)) :
    q.completed = entry :: next.completed ∧ next.posted = q.posted := by
  obtain ⟨posted, completed⟩ := q
  cases completed with
  | nil => cases hPoll
  | cons first rest =>
      obtain ⟨rfl, rfl⟩ := Prod.mk.inj (Option.some.inj hPoll)
      exact ⟨rfl, rfl⟩

theorem foldl_post (q : SharedReceiveQueue) (ids : List Nat) :
    ids.foldl post q = ⟨q.posted ++ ids, q.completed⟩ := by
  induction ids generalizing q with
  | nil => rw [List.foldl_nil, List.append_nil]
  | cons wrId rest ih =>
      rw [List.foldl_cons, ih]
      simp [post]

theorem held_post (q : SharedReceiveQueue) (wrId : Nat) :
    (q.post wrId).held.Perm (wrId :: q.held) := by
  simp only [held, post, List.append_assoc, List.singleton_append]
  exact List.perm_middle

/-- An arrival moves a work request from the posted to the completed ones. -/
theorem held_arrive {q next : SharedReceiveQueue} {conn wrId : Nat}
    (hArrive : q.arrive conn wrId = some next) : next.held.Perm q.held := by
  obtain ⟨hPosted, hRest, hCompleted⟩ := arrive_eq_some hArrive
  have hFront : next.held.Perm (wrId :: (q.posted.erase wrId ++ q.completed.map Prod.snd)) := by
    rw [held, hRest, hCompleted, List.map_append, ← List.append_assoc]
    exact List.perm_append_singleton _ _
  exact hFront.trans ((List.perm_cons_erase hPosted).symm.append_right _)

/-- A polled work request is the queue's no longer. -/
theorem held_poll {q next : SharedReceiveQueue} {entry : Nat × Nat}
    (hPoll : q.poll = some (entry, next)) : q.held.Perm (entry.2 :: next.held) := by
  obtain ⟨hCompleted, hPosted⟩ := poll_eq_some hPoll
  rw [held, held, hCompleted, hPosted, List.map_cons]
  exact List.perm_middle

theorem pollBatch_completed (q : SharedReceiveQueue) (limit : Nat) :
    q.completed = (q.pollBatch limit).1 ++ (q.pollBatch limit).2.completed :=
  (List.take_append_drop limit q.completed).symm

theorem held_pollBatch (q : SharedReceiveQueue) (limit : Nat) :
    q.held.Perm ((q.pollBatch limit).1.map Prod.snd ++ (q.pollBatch limit).2.held) := by
  rw [held, held, pollBatch_completed q limit, List.map_append, ← List.append_assoc,
    ← List.append_assoc]
  exact List.perm_append_comm.append_right _

end SharedReceiveQueue
end Verbs
