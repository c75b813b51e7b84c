import Mathlib.Data.List.Induction
import RDMAPatterns.Verbs.Accounting

/-! The atomic verbs never count their requests. Mixed with the calls that do,
they overrun the send queue as soon as `RDMA_MAX_WR` requests in a row leave
no completion behind. -/
namespace SendPath

open Transition Verbs

/-- Single posts that wait for what they signal. -/
def Call.postsOne : Call → Bool
  | .write _ | .writeImm _ | .read _ | .send _ => true
  | .fetchAndAdd _ | .fetchAndAddValue _ | .compareAndSwap _ => true
  | .requestRead | .sendBatch _ _ | .pollSend => false

/-- If the recorded step is a post, it does not meet a full queue. -/
def HasRoom (maxWR : Nat) (visit : Connection × Action) : Prop :=
  visit.2 = .ibvPostSend → visit.1.queue.depth < maxWR

instance (maxWR : Nat) (visit : Connection × Action) : Decidable (HasRoom maxWR visit) :=
  inferInstanceAs (Decidable (visit.2 = .ibvPostSend → visit.1.queue.depth < maxWR))

/-- Fewer than `maxWR` requests were posted since the last signaled one when
the call about to post was made. -/
def SignaledRecently (maxWR : Nat) (visit : Connection × Action) : Prop :=
  visit.2 = .ibvPostSend →
    (sinceSignaled 0 (tally maxWR visit.1.calls.dropLast).history).length < maxWR

/-- Calls that wait for what they signal leave nothing to poll for. -/
theorem unclaimed_eq_zero {maxWR : Nat} {calls : List Call}
    (hOne : ∀ call ∈ calls, call.postsOne = true) : (tally maxWR calls).unclaimed = 0 := by
  induction calls using List.reverseRecOn with
  | nil => rfl
  | append_singleton calls call ih =>
      have hEarlier := ih fun other hOther => hOne other (List.mem_append_left _ hOther)
      have hLast := hOne call (by simp)
      rw [tally_append]
      cases call with
      | requestRead | sendBatch messages signaled | pollSend => cases hLast
      | _ => exact hEarlier

theorem backlog_eq {maxWR : Nat} {calls : List Call} {call : Call}
    (hOne : ∀ call ∈ calls, call.postsOne = true) :
    (tally maxWR calls).backlog call = sinceSignaled 0 (tally maxWR calls).history := by
  rw [Tally.backlog, unclaimed_eq_zero hOne, Nat.zero_sub]

/-- For every depth of the send queue and every sequence of calls: no post
meets a full queue exactly if every post comes with fewer than `maxWR` requests
since the last signaled one. -/
theorem atomics_have_room_iff {maxWR : Nat} {visits : List (Connection × Action)} {c : Connection}
    (run : (connectionMachine maxWR Call.postsOne).RunsTo visits c) :
    (∀ visit ∈ visits, HasRoom maxWR visit) ↔
      ∀ visit ∈ visits, SignaledRecently maxWR visit := by
  refine forall₂_congr fun visit hVisit => imp_congr_right fun hPost => ?_
  obtain ⟨earlier, call, hCalls, _, hDepth⟩ := post_spec run hVisit hPost
  obtain ⟨before, after, _, hPrefix⟩ := run.visit_split hVisit
  have hOne := run_permitted hPrefix
  rw [hCalls] at hOne
  rw [backlog_eq fun other hOther => (hOne other (List.mem_append_left _ hOther)).1] at hDepth
  rw [hDepth, hCalls, List.dropLast_concat]

/-- An unsignaled add, then a signaled one that reclaims both. -/
def signaledAddActions : List Action :=
  [.call (.fetchAndAdd false), .ibvPostSend, .call (.fetchAndAddValue true), .ibvPostSend,
    .complete, .complete, .ibvPollCq, .call (.compareAndSwap false), .ibvPostSend]

theorem atomics_have_room_iff_two :
    ∃ visits c, (connectionMachine 2 Call.postsOne).RunsTo visits c ∧ c.queue.posted = 3 ∧
      (∀ visit ∈ visits, SignaledRecently 2 visit) := by
  obtain ⟨c, hReplay, hPosted⟩ : ∃ c, (connectionMachine 2 Call.postsOne).replay {}
      signaledAddActions = some c ∧ c.queue.posted = 3 := ⟨_, rfl, rfl⟩
  have run := Machine.runsTo_of_replay signaledAddActions hReplay
  have hRoom : ∀ visit ∈ (connectionMachine 2 Call.postsOne).record {} signaledAddActions,
      HasRoom 2 visit := by decide
  exact ⟨_, c, run, hPosted, (atomics_have_room_iff run).mp hRoom⟩

/-- Nothing stops unsignaled adds from piling up. -/
theorem adds_pile_up (maxWR count : Nat) :
    ∃ visits c, (connectionMachine maxWR Call.postsOne).RunsTo visits c ∧
      c.control = .idle ∧ c.queue.depth = count := by
  induction count with
  | zero => exact ⟨[], {}, Machine.RunsTo.zero, rfl, rfl⟩
  | succ count ih =>
      obtain ⟨visits, c, run, hIdle, hDepth⟩ := ih
      have hCalled := run.succ (next_call hIdle rfl rfl rfl : _ = some
        { fetchAndAdd c false with calls := c.calls ++ [.fetchAndAdd false] })
      refine ⟨_, _, hCalled.succ (a := .ibvPostSend) rfl, rfl, ?_⟩
      rw [← SendQueue.length_flags] at hDepth ⊢
      show (c.queue.postAll [false]).flags.length = count + 1
      simp [hDepth]

/-- One more add than the send queue holds, all of them unsignaled. -/
theorem atomics_overrun :
    ∃ visits c, (connectionMachine 4096 Call.postsOne).RunsTo visits c ∧
      ∃ visit ∈ visits, ¬HasRoom 4096 visit := by
  obtain ⟨visits, c, run, hIdle, hDepth⟩ := adds_pile_up 4096 4096
  have hCalled := run.succ (next_call hIdle rfl rfl rfl : _ = some
    { fetchAndAdd c false with calls := c.calls ++ [.fetchAndAdd false] })
  refine ⟨_, _, hCalled.succ (a := .ibvPostSend) rfl, (_, .ibvPostSend),
    List.mem_append_right _ (List.mem_singleton_self _), fun hRoom => ?_⟩
  have hLess : c.queue.depth < 4096 := hRoom rfl
  omega

end SendPath
