import Mathlib.Data.List.Induction
import RDMAPatterns.Verbs.Accounting

/-! Batches and single sends on one connection. Every batch but the first
polls before it posts, so one signaled request is always left outstanding, and
`m_countWR` knows nothing of the messages of a batch. -/
namespace SendPath

open Transition Verbs
open SelectiveSignaling (countRequest)

def Call.sends : Call → Bool
  | .send _ | .sendBatch _ _ => true
  | _ => false

/-- If the recorded step polls for a batch, a completion is there or is going
to come. -/
def BatchPollCovered (visit : Connection × Action) : Prop :=
  visit.2 = .ibvPollCq → ∀ flags, visit.1.control = .pollingBatch flags →
    ∃ wr ∈ visit.1.queue.outstanding, wr.signaled = true

/-- The requests since the last signaled one leave room for those of a call;
since the one before it, if the completion of a batch is still to be polled for
when the call posts. -/
def LeavesRoom (maxWR : Nat) (earlier : List Call) : Call → Prop
  | .sendBatch messages _ =>
      (sinceSignaled
        ((tally maxWR earlier).opened - if (tally maxWR earlier).batches = 0 then 0 else 1)
        (tally maxWR earlier).history).length + messages ≤ maxWR
  | _ =>
      (sinceSignaled (tally maxWR earlier).opened (tally maxWR earlier).history).length < maxWR

instance (maxWR : Nat) (earlier : List Call) : DecidablePred (LeavesRoom maxWR earlier)
  | .sendBatch _ _ => inferInstanceAs (Decidable (_ + _ ≤ _))
  | .write _ | .writeImm _ | .read _ | .requestRead | .send _ | .fetchAndAdd _
  | .fetchAndAddValue _ | .compareAndSwap _ | .pollSend => inferInstanceAs (Decidable (_ < _))

/-- If the recorded step is a post, the call made last had room. -/
def CallHasRoom (maxWR : Nat) (visit : Connection × Action) : Prop :=
  visit.2 = .ibvPostSend →
    ∀ call ∈ visit.1.calls.getLast?, LeavesRoom maxWR visit.1.calls.dropLast call

instance (maxWR : Nat) (visit : Connection × Action) : Decidable (CallHasRoom maxWR visit) :=
  inferInstanceAs (Decidable (visit.2 = .ibvPostSend →
    ∀ call ∈ visit.1.calls.getLast?, LeavesRoom maxWR visit.1.calls.dropLast call))

theorem reads_eq_zero (maxWR : Nat) {calls : List Call}
    (hSends : ∀ call ∈ calls, call.sends = true) : (tally maxWR calls).reads = 0 := by
  induction calls using List.reverseRecOn with
  | nil => rfl
  | append_singleton calls call ih =>
      have hEarlier := ih fun other hOther => hSends other (List.mem_append_left _ hOther)
      have hLast := hSends call (by simp)
      rw [tally_append]
      cases call with
      | send signaled | sendBatch messages signaled => exact hEarlier
      | _ => cases hLast

theorem length_batchFlags {messages : Nat} (hOne : 1 ≤ messages) :
    (batchFlags messages).length = messages := by
  simp only [batchFlags, List.length_append, List.length_replicate, List.length_singleton]
  omega

/-- What a call adds to its backlog fits exactly if there is room for it. -/
theorem leavesRoom_iff {maxWR : Nat} {earlier : List Call} {call : Call}
    (hReads : (tally maxWR earlier).reads = 0) (hSends : call.sends = true)
    (hFits : call.fits = true) :
    ((tally maxWR earlier).backlog call).length +
      ((tally maxWR earlier).requests maxWR call).length ≤ maxWR ↔
    LeavesRoom maxWR earlier call := by
  have hUnclaimed : (tally maxWR earlier).unclaimed = (tally maxWR earlier).opened := by
    rw [Tally.unclaimed, hReads, Nat.zero_add]
  cases call with
  | send signaled =>
      rw [Tally.backlog, hUnclaimed]
      exact Iff.rfl
  | sendBatch messages signaled =>
      have hLength : ((tally maxWR earlier).requests maxWR (.sendBatch messages signaled)).length =
          messages := length_batchFlags (of_decide_eq_true hFits).1
      rw [Tally.backlog, hUnclaimed, hLength, Tally.polls, LeavesRoom]
      by_cases hFirst : (tally maxWR earlier).batches = 0
      · simp [hFirst]
      · simp [hFirst]
  | _ => cases hSends

section Runs

variable {maxWR : Nat} {visits : List (Connection × Action)} {c : Connection}
  (run : (connectionMachine maxWR Call.sends).RunsTo visits c)

include run

/-- A batch polls only when the completion of an earlier batch, or of a send
that took that one's, is left. -/
theorem batchPoll_covered {visit : Connection × Action} (hVisit : visit ∈ visits) :
    BatchPollCovered visit := by
  intro _ flags hControl
  have hOutstanding := (visit_accounted run hVisit).outstanding
  rw [hControl] at hOutstanding
  obtain ⟨earlier, call, hUnderway, _, _, _, hOne, hFlags⟩ := hOutstanding
  obtain ⟨left, hLeft⟩ := Nat.exists_eq_add_of_le' hOne
  have hEnough := hUnderway.sound.enough
  have hSignaled : true ∈ visit.1.queue.flags := by
    rw [hFlags, hLeft, List.mem_reverse]
    exact mem_sinceSignaled (by omega)
  obtain ⟨wr, hWr, hFlag⟩ := List.mem_map.mp hSignaled
  exact ⟨wr, hWr, hFlag⟩

theorem postFits_iff {visit : Connection × Action} (hVisit : visit ∈ visits) :
    PostFits maxWR visit ↔ CallHasRoom maxWR visit := by
  refine imp_congr_right fun hPost => ?_
  obtain ⟨earlier, call, hCalls, hControl, hDepth⟩ := post_spec run hVisit hPost
  obtain ⟨before, after, _, hPrefix⟩ := run.visit_split hVisit
  have hPermitted := run_permitted hPrefix
  rw [hCalls] at hPermitted
  obtain ⟨hSends, hFits⟩ := hPermitted call (by simp)
  have hReads := reads_eq_zero maxWR fun other hOther =>
    (hPermitted other (List.mem_append_left _ hOther)).1
  have hRoom := leavesRoom_iff hReads hSends hFits
  rw [hCalls, List.getLast?_concat, List.dropLast_concat]
  constructor
  · intro hPostFits last hLast
    obtain rfl := Option.some.inj hLast
    rw [← hRoom, ← hDepth]
    exact hPostFits _ _ hControl
  · intro hCallHasRoom flags wait hPosting
    rw [hControl] at hPosting
    obtain ⟨rfl, rfl⟩ := Control.posting.inj hPosting
    rw [hDepth, hRoom]
    exact hCallHasRoom call rfl

/-- A batch never waits for a completion that cannot come, and every post fits
exactly if every call has room. -/
theorem batches_fit_iff :
    (∀ visit ∈ visits, BatchPollCovered visit ∧ PostFits maxWR visit) ↔
      ∀ visit ∈ visits, CallHasRoom maxWR visit := by
  refine forall₂_congr fun visit hVisit => ?_
  rw [← postFits_iff run hVisit]
  exact and_iff_right (batchPoll_covered run hVisit)

end Runs

/-- Two batches with a send between them. -/
def sendBetweenBatchesActions : List Action :=
  [.call (.sendBatch 2 false), .ibvPostSend, .call (.send false), .ibvPostSend, .complete,
    .complete, .call (.sendBatch 1 false), .ibvPollCq, .ibvPostSend]

theorem batches_fit_iff_sendBetween :
    ∃ visits c, (connectionMachine 256 Call.sends).RunsTo visits c ∧ c.queue.posted = 4 ∧
      ∀ visit ∈ visits, BatchPollCovered visit ∧ PostFits 256 visit := by
  obtain ⟨c, hReplay, hPosted⟩ : ∃ c, (connectionMachine 256 Call.sends).replay {}
      sendBetweenBatchesActions = some c ∧ c.queue.posted = 4 := ⟨_, rfl, rfl⟩
  have run := Machine.runsTo_of_replay sendBetweenBatchesActions hReplay
  have hRoom : ∀ visit ∈ (connectionMachine 256 Call.sends).record {} sendBetweenBatchesActions,
      CallHasRoom 256 visit := by decide
  exact ⟨_, c, run, hPosted, (batches_fit_iff run).mpr hRoom⟩

/-- Unsignaled sends pile up until one is signaled automatically. -/
theorem sends_pile_up {maxWR count : Nat} (hBelow : count < maxWR) :
    ∃ visits c, (connectionMachine maxWR Call.sends).RunsTo visits c ∧ c.control = .idle ∧
      c.countWR = count ∧ c.batches = 0 ∧ c.queue.depth = count := by
  induction count with
  | zero => exact ⟨[], {}, Machine.RunsTo.zero, rfl, rfl, rfl, rfl⟩
  | succ count ih =>
      obtain ⟨visits, c, run, hIdle, hCount, hBatches, hDepth⟩ := ih (by omega)
      have hRun : (Call.send false).run maxWR c =
          some { c with countWR := count + 1, control := .posting [false] false } := by
        have hNotYet : count + 1 ≠ maxWR := by omega
        simp [Call.run, SendPath.send, checkSignaled, countRequest, hCount, hNotYet]
      have hCalled := run.succ (next_call hIdle rfl rfl hRun)
      have hPosted := hCalled.succ (a := .ibvPostSend) rfl
      refine ⟨_, _, hPosted, rfl, rfl, hBatches, ?_⟩
      rw [← SendQueue.length_flags] at hDepth ⊢
      show (c.queue.postAll [false]).flags.length = count + 1
      simp [hDepth]

/-- One send less than makes the counter signal, then a batch of two. -/
theorem batch_overruns :
    2 * maxPostlist ≤ 4096 ∧
      ∃ visits c, (connectionMachine 4096 Call.sends).RunsTo visits c ∧
        ∃ visit ∈ visits, ¬PostFits 4096 visit := by
  refine ⟨by decide, ?_⟩
  obtain ⟨visits, c, run, hIdle, _, hBatches, hDepth⟩ :=
    sends_pile_up (show 4095 < 4096 by decide)
  have hRun : (Call.sendBatch 2 false).run 4096 c =
      some { c with batches := 2, control := .posting [false, true] false } := by
    simp [Call.run, SendPath.sendBatch, batchFlags, hBatches]
  have hCalled := run.succ (next_call hIdle rfl rfl hRun)
  refine ⟨_, _, hCalled.succ (a := .ibvPostSend) rfl, (_, .ibvPostSend),
    List.mem_append_right _ (List.mem_singleton_self _), fun hFits => ?_⟩
  have hBound : c.queue.depth + 2 ≤ 4096 := hFits rfl _ _ rfl
  omega

end SendPath
