import Mathlib.Algebra.Group.Action.Defs
import Mathlib.Algebra.Order.BigOperators.Group.Finset
import RDMAPatterns.Concurrency.Barrier
import RDMAPatterns.Transition.Potential

/-! Nobody is stuck in the barrier: if all threads call `wait` equally often, all of
these calls return, and apart from the loop each of them takes at most five steps. -/
namespace Barrier

open Transition

section Measure

/-- How far a call of `wait` has got. -/
def Control.position : Control → Nat
  | .idle => 0
  | .loaded _ => 1
  | .spinning _ | .last => 2
  | .finalizing => 3
  | .advancing _ => 4

/-- The steps that a thread may have taken, with five for each call that has returned. -/
def Party.taken (p : Party) : Nat := 5 * p.results.length + p.control.position

def taken (threadCount : Nat) (party : Nat → Party) : Nat :=
  (Finset.range threadCount).sum fun t => (party t).taken

/-- A step of `wait` that is not another round of the loop. -/
def moves (visit : State × (Nat × Action)) : Bool :=
  match (visit.1.party visit.2.1).control, visit.2.2 with
  | .spinning prevRound, .spin => visit.1.round != prevRound
  | _, _ => true

variable {threadCount t : Nat} {party : Nat → Party} {p : Party}

/-- If one thread gets further and the others stay, all together get further. -/
theorem taken_lt (hT : t < threadCount) (hMore : (party t).taken < p.taken) :
    taken threadCount party < taken threadCount (Function.update party t p) := by
  have hSum := sum_update (Finset.range threadCount) party Party.taken (Finset.mem_range.mpr hT) p
  rw [taken, taken]
  omega

/-- A return makes up for the steps that the thread did not have to take. -/
theorem taken_return (b : Bool) : (p.return b).taken = p.taken + (5 - p.control.position) := by
  show 5 * (p.results ++ [b]).length + 0 = 5 * p.results.length + p.control.position + _
  rw [List.length_append, List.length_singleton]
  cases p.control <;> simp only [Control.position] <;> omega

/-- A call takes at most five steps, the passes of its loop apart. -/
theorem Party.InRound.taken_le {rounds : Nat} (h : p.InRound rounds) :
    p.taken ≤ 5 * p.entered := by
  unfold Party.InRound at h
  split at h
  case h_3 hControl =>
    rw [Party.taken, hControl, Control.position]
    rcases h with ⟨-, hEntered, hReturned⟩ | ⟨before, hRounds, -, hEntered, hReturned⟩
    · omega
    · omega
  all_goals
    rename_i hControl
    rw [Party.taken, hControl, Control.position]
    omega

/-- The calls bound the steps. -/
theorem Inv.taken_le {s : State} (h : Inv threadCount s) : taken threadCount s.party ≤
    (Finset.range threadCount).sum fun t => 5 * (s.party t).entered :=
  Finset.sum_le_sum fun u hU => (h.parties u (Finset.mem_range.mp hU)).taken_le

end Measure

section Steps

variable {threadCount : Nat} {s s' : State} {t : Nat} {a : Action}

theorem step_party (hStep : step threadCount s t a = some s') {u : Nat} (hNe : u ≠ t) :
    s'.party u = s.party u := by
  cases step_cases hStep with
  | stay => rfl
  | load | fetchSub | storeCntr | finalizer | advance | leave => exact become_party_of_ne s _ hNe

/-- A pass of the loop that finds the old round changes nothing. -/
theorem step_stays (hStep : step threadCount s t a = some s')
    (hStays : moves (s, (t, a)) = false) : s' = s := by
  unfold moves at hStays
  split at hStays
  case h_1 prevRound hControl hSpin =>
    obtain rfl : a = .spin := hSpin
    have hHere : (s.party t).control = .spinning prevRound := hControl
    have hRound : s.round = prevRound := bne_eq_false_iff_eq.mp hStays
    simp only [step, hHere, if_pos hRound] at hStep
    exact (Option.some_inj.mp hStep).symm
  case h_2 => cases hStays

theorem leave_taken {prevRound : BitVec 8} (hT : t < threadCount)
    (hControl : (s.party t).control = .spinning prevRound) : taken threadCount s.party <
      taken threadCount (s.become t ((s.party t).return false)).party := by
  refine taken_lt hT ?_
  rw [taken_return, hControl, Control.position]
  omega

/-- A step outside the loop gets its thread further, and the others stay where they are. -/
theorem step_taken (hT : t < threadCount) (hStep : step threadCount s t a = some s')
    (hMoves : moves (s, (t, a)) = true) :
    taken threadCount s.party < taken threadCount s'.party := by
  cases step_cases hStep with
  | load hControl =>
      refine taken_lt hT ?_
      rw [Party.taken, hControl]
      exact Nat.lt_succ_self _
  | fetchSub hControl =>
      refine taken_lt hT ?_
      rw [Party.taken, hControl]
      show _ < 5 * (s.party t).results.length + Control.position _
      split <;> exact Nat.lt_succ_self _
  | storeCntr hControl | finalizer hControl =>
      refine taken_lt hT ?_
      rw [Party.taken, hControl]
      exact Nat.lt_succ_self _
  | advance hControl =>
      refine taken_lt hT ?_
      rw [taken_return, hControl]
      exact Nat.lt_succ_self _
  | @stay prevRound hControl =>
      -- the loop is left, so this is no other state than in the case below
      have hRound : s.round ≠ prevRound := by simpa only [moves, hControl, bne_iff_ne] using hMoves
      have hLeaves := hStep
      simp only [step, hControl, if_neg hRound, Option.some_inj] at hLeaves
      have hLess := leave_taken hT hControl
      rwa [hLeaves] at hLess
  | leave hControl => exact leave_taken hT hControl

end Steps

/-- No thread has made more than its calls, and nobody else calls `wait`. -/
structure Bounded (threadCount calls : Nat) (s : State) : Prop where
  inv : Inv threadCount s
  entered : ∀ t < threadCount, (s.party t).entered ≤ calls
  outside : ∀ t, threadCount ≤ t → (s.party t).control = .idle

/-- All threads have returned from all their calls. -/
def AllReturned (threadCount calls : Nat) (s : State) : Prop :=
  ∀ t < threadCount, (s.party t).control = .idle ∧ (s.party t).entered = calls ∧
    (s.party t).results.length = calls

section Progress

variable {threadCount calls : Nat} {s : State} {t : Nat} (h : Bounded threadCount calls s)

include h

/-- All calls together take at most so many steps. -/
theorem Bounded.taken_le : taken threadCount s.party ≤ threadCount * (5 * calls) := by
  have hSum : ((Finset.range threadCount).sum fun t => 5 * (s.party t).entered) ≤
      (Finset.range threadCount).sum fun _ => 5 * calls :=
    Finset.sum_le_sum fun t hT => Nat.mul_le_mul_left 5 (h.entered t (Finset.mem_range.mp hT))
  rw [Finset.sum_const, Finset.card_range, smul_eq_mul] at hSum
  exact h.inv.taken_le.trans hSum

variable (hLt : threadCount < 2 ^ 64) (hT : t < threadCount)

include hLt hT

/-- A step that moves its thread gets closer to the end, as long as no call too many was
begun. -/
theorem Bounded.step {a : Action} {s' : State} (hStep : step threadCount s t a = some s')
    (hMoves : moves (s, (t, a)) = true) (hEntered : (s'.party t).entered ≤ calls) :
    ∃ u, (barrierMachine threadCount).Leads s u ∧ Bounded threadCount calls u ∧
      taken threadCount s.party < taken threadCount u.party := by
  have hNext : (barrierMachine threadCount).next s (t, a) = some s' := (if_pos hT).trans hStep
  refine ⟨s', .single hNext, ⟨step_inv h.inv hT hLt hStep, fun u hU => ?_, fun u hU => ?_⟩,
    step_taken hT hStep hMoves⟩
  · by_cases hSame : u = t
    · rwa [hSame]
    · rw [step_party hStep hSame]
      exact h.entered u hU
  · rw [step_party hStep (by omega)]
    exact h.outside u hU

/-- A thread that is not waiting for the others can go on. -/
theorem Bounded.step_ahead (hWaits : ¬(s.party t).Waits s.rounds)
    (hCalls : (s.party t).control = .idle → (s.party t).results.length < calls) :
    ∃ u, (barrierMachine threadCount).Leads s u ∧ Bounded threadCount calls u ∧
      taken threadCount s.party < taken threadCount u.party := by
  have hIn := h.inv.parties t hT
  have hEntered := h.entered t hT
  rw [Party.InRound] at hIn
  cases hControl : (s.party t).control with
  | idle =>
      have hMore := hCalls hControl
      simp only [hControl] at hIn
      have hStep : Barrier.step threadCount s t .load =
          some (s.become t ((s.party t).enter s.round)) := by
        simp only [Barrier.step, hControl]
      refine h.step hLt hT hStep (by simp only [moves, hControl]) ?_
      rw [become_party_self]
      show (s.party t).entered + 1 ≤ calls
      omega
  | loaded prevRound =>
      have hStep : Barrier.step threadCount s t .fetchSub = some
          { s.become t ((s.party t).moveTo (if s.cntr = 1 then .last else .spinning prevRound)) with
            cntr := s.cntr - 1 } := by
        simp only [Barrier.step, hControl]
      refine h.step hLt hT hStep (by simp only [moves, hControl]) ?_
      rwa [become_party_self]
  | last =>
      have hStep : Barrier.step threadCount s t .storeCntr = some
          { s.become t ((s.party t).moveTo .finalizing) with
            cntr := BitVec.ofNat 64 threadCount } := by
        simp only [Barrier.step, hControl]
      refine h.step hLt hT hStep (by simp only [moves, hControl]) ?_
      rwa [become_party_self]
  | finalizing =>
      have hStep : Barrier.step threadCount s t (.finalizer true) = some
          { s.become t ((s.party t).moveTo (.advancing true)) with
            finalized := s.finalized ++ [(t, true)] } := by
        simp only [Barrier.step, hControl]
      refine h.step hLt hT hStep (by simp only [moves, hControl]) ?_
      rwa [become_party_self]
  | advancing r =>
      have hStep : Barrier.step threadCount s t .advance = some
          { s.become t ((s.party t).return r) with
            round := s.round + 1
            rounds := s.rounds + 1 } := by
        simp only [Barrier.step, hControl]
      refine h.step hLt hT hStep (by simp only [moves, hControl]) ?_
      rwa [become_party_self]
  | spinning prevRound =>
      simp only [hControl] at hIn
      rcases hIn with ⟨-, hLate, -⟩ | ⟨before, hRounds, hPrev, -⟩
      · exact absurd ⟨⟨prevRound, hControl⟩, hLate⟩ hWaits
      · -- two rounds that follow each other differ, also around the wrap of the counter
        have hRound : s.round ≠ prevRound := by
          rw [h.inv.round, hPrev, hRounds]
          intro hSame
          have hNat := congrArg BitVec.toNat hSame
          rw [BitVec.toNat_ofNat, BitVec.toNat_ofNat] at hNat
          omega
        have hStep : Barrier.step threadCount s t .spin =
            some (s.become t ((s.party t).return false)) := by
          simp only [Barrier.step, hControl, if_neg hRound]
        refine h.step hLt hT hStep (by simpa only [moves, hControl, bne_iff_ne]) ?_
        rwa [become_party_self]

omit hT

/-- If nobody can go on, all calls have returned. -/
theorem Bounded.progress (hGoal : ¬AllReturned threadCount calls s) :
    ∃ u, (barrierMachine threadCount).Leads s u ∧ Bounded threadCount calls u ∧
      taken threadCount s.party < taken threadCount u.party := by
  by_cases hAhead : ∃ t < threadCount, ¬(s.party t).Waits s.rounds ∧
      ((s.party t).control = .idle → (s.party t).results.length < calls)
  · obtain ⟨t, hT, hWaits, hCalls⟩ := hAhead
    exact h.step_ahead hLt hT hWaits hCalls
  · push Not at hAhead
    have hIdle : ∀ t < threadCount, ¬(s.party t).Waits s.rounds → (s.party t).control = .idle ∧
        (s.party t).entered = calls ∧ (s.party t).results.length = calls ∧ s.rounds = calls := by
      intro t hT hWaits
      obtain ⟨hControl, hDone⟩ := hAhead t hT hWaits
      have hIn := h.inv.parties t hT
      have hEntered := h.entered t hT
      simp only [Party.InRound, hControl] at hIn
      exact ⟨hControl, by omega, by omega, by omega⟩
    exfalso
    by_cases hSome : ∃ t < threadCount, (s.party t).Waits s.rounds
    · -- one that waits has made a call more than there are rounds
      obtain ⟨t, hT, hWaits⟩ := hSome
      have hEntered := h.entered t hT
      rw [hWaits.2] at hEntered
      have hAll : ∀ u < threadCount, (s.party u).Waits s.rounds := by
        intro u hU
        by_contra hNot
        have hRounds := (hIdle u hU hNot).2.2.2
        omega
      cases h.inv.stage with
      | gathering gathers arrived missing finalized =>
          have hFull : waiters threadCount s.rounds s.party = Finset.range threadCount := by
            ext u
            rw [mem_waiters, Finset.mem_range]
            exact and_iff_left_of_imp (hAll u)
          rw [hFull, Finset.card_range] at arrived
          omega
      | closing last others closing =>
          have hLast : last < threadCount := by
            by_contra hOutside
            rw [h.outside last (Nat.le_of_not_lt hOutside)] at closing
            exact closing
          obtain ⟨⟨prevRound, hSpins⟩, -⟩ := hAll last hLast
          rw [hSpins] at closing
          exact closing
    · push Not at hSome
      apply hGoal
      intro t hT
      obtain ⟨hControl, hEntered, hReturned, -⟩ := hIdle t hT (hSome t hT)
      exact ⟨hControl, hEntered, hReturned⟩

end Progress

section Runs

variable {threadCount : Nat} {visits : List (State × (Nat × Action))} {s : State}
  (run : (barrierMachine threadCount).RunsTo visits s)

include run

theorem run_outside : ∀ t, threadCount ≤ t → (s.party t).control = .idle := by
  induction run with
  | zero => exact fun _ _ => rfl
  | @succ visits s s' visit prior last ih =>
      intro t hT
      obtain ⟨hParty, hStep⟩ := barrierMachine_next last
      rw [step_party hStep (Nat.ne_of_gt (hParty.trans_le hT))]
      exact ih t hT

/-- Each step outside the loop is counted where its thread is. -/
theorem run_taken : visits.countP moves ≤ taken threadCount s.party := by
  apply @Machine.RunsTo.countP_le_potential _ _ _ _ _ (fun s => taken threadCount s.party) run
  rintro s ⟨t, a⟩ s' hNext
  obtain ⟨hT, hStep⟩ := barrierMachine_next hNext
  split
  case isTrue hMoves => exact step_taken hT hStep hMoves
  case isFalse hStays => rw [step_stays hStep (Bool.eq_false_of_not_eq_true hStays), Nat.add_zero]

end Runs

/-- In every run a thread takes at most five steps a call, the rounds in the loop apart.
And from each of its states some steps lead to one in which all threads have returned
from all calls, however many there are to be, if each thread makes as many. The wrap of
the counter of rounds keeps nobody in the loop. -/
theorem barrier_completes {threadCount : Nat} {visits : List (State × (Nat × Action))} {s : State}
    (hPos : 1 ≤ threadCount) (hLt : threadCount < 2 ^ 64)
    (run : (barrierMachine threadCount).RunsTo visits s) :
    visits.countP moves ≤ ((Finset.range threadCount).sum fun t => 5 * (s.party t).entered) ∧
    ∀ calls, (∀ t < threadCount, (s.party t).entered ≤ calls) →
      ∃ u, (barrierMachine threadCount).Leads s u ∧ AllReturned threadCount calls u := by
  have hInv := run_inv hPos hLt run
  refine ⟨(run_taken run).trans hInv.taken_le, fun calls hCalls => ?_⟩
  have hBounded : Bounded threadCount calls s := ⟨hInv, hCalls, run_outside run⟩
  refine Machine.leads_to_goal_within
    (fun s => threadCount * (5 * calls) - taken threadCount s.party) ?_ hBounded
  intro s hWithin hGoal
  obtain ⟨u, hLeads, hThere, hMore⟩ := hWithin.progress hLt hGoal
  exact ⟨u, hLeads, hThere, Nat.sub_lt_sub_left (hMore.trans_le hThere.taken_le) hMore⟩

/-- Two threads that are to call `wait` twice. The first is in the loop, and the second has
yet to call. -/
theorem barrier_completes_twoThreads :
    ∃ s, (barrierMachine 2).Reachable s ∧ (s.party 0).control = .spinning 0 ∧
      (s.party 1).entered = 0 ∧ ∃ u, (barrierMachine 2).Leads s u ∧ AllReturned 2 2 u := by
  have run := Machine.runsTo_of_replay (M := barrierMachine 2)
    [(0, .load), (0, .fetchSub), (0, .spin)] rfl
  refine ⟨_, ⟨_, run⟩, rfl, rfl, ?_⟩
  refine (barrier_completes (by decide) (by decide) run).2 2 fun t hT => ?_
  have hSome : t = 0 ∨ t = 1 := by omega
  rcases hSome with rfl | rfl
  · decide
  · decide

end Barrier
