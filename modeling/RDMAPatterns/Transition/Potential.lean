import Mathlib.Algebra.BigOperators.Group.Finset.Basic
import RDMAPatterns.Transition.Progress

/-! What a run costs. A potential that every step raises by one counts the steps of a
run, in whatever order the parties take them. -/
namespace Transition

section Sums

variable {Party Value : Type*} [DecidableEq Party]

/-- One party's share changes the sum by as much as it changes itself. -/
theorem sum_update (parties : Finset Party) (values : Party → Value) (share : Value → Nat)
    {self : Party} (hSelf : self ∈ parties) (value : Value) :
    (parties.sum fun party => share (Function.update values self value party)) +
        share (values self) =
      (parties.sum fun party => share (values party)) + share value := by
  have hRest : ((parties.erase self).sum fun party =>
      share (Function.update values self value party)) =
        (parties.erase self).sum fun party => share (values party) := by
    apply Finset.sum_congr rfl
    intro party hParty
    rw [Function.update_of_ne (Finset.ne_of_mem_erase hParty)]
  rw [← Finset.add_sum_erase parties _ hSelf, ← Finset.add_sum_erase parties _ hSelf, hRest,
    Function.update_self]
  omega

end Sums

namespace Machine

variable {State Action : Type*} {M : Machine State Action} {visits : List (State × Action)}
  {s : State} {potential : State → Nat}

/-- If every step raises the potential by one, it tells how long the run is. -/
theorem RunsTo.length_eq_potential (run : M.RunsTo visits s) (hInit : potential M.init = 0)
    (hStep : ∀ s a t, M.Reachable s → M.next s a = some t → potential t = potential s + 1) :
    visits.length = potential s := by
  induction run with
  | zero => exact hInit.symm
  | @succ visits s t a prior last ih =>
      rw [List.length_append, List.length_singleton, ih, hStep s a t ⟨visits, prior⟩ last]

/-- If every step that counts raises the potential, there are no more of them. -/
theorem RunsTo.countP_le_potential (run : M.RunsTo visits s) {counts : State × Action → Bool}
    (hStep : ∀ s a t, M.next s a = some t →
      potential s + (if counts (s, a) then 1 else 0) ≤ potential t) :
    visits.countP counts ≤ potential s := by
  induction run with
  | zero => exact Nat.zero_le _
  | @succ visits s t a prior last ih =>
      rw [List.countP_append, List.countP_singleton]
      exact (Nat.add_le_add_right ih _).trans (hStep s a t last)

/-- If the potential is bounded and some action is enabled short of the goal, the goal
can be reached from everywhere. -/
theorem leads_to_goal_of_bounded {bound : Nat} {goal : State → Prop}
    (hStep : ∀ s a t, M.Reachable s → M.next s a = some t → potential t = potential s + 1)
    (hBound : ∀ s, M.Reachable s → potential s ≤ bound)
    (hEnabled : ∀ s, M.Reachable s → ¬goal s → ∃ a, (M.next s a).isSome = true)
    (h : M.Reachable s) : ∃ t, M.Leads s t ∧ goal t := by
  refine leads_to_goal (fun s => bound - potential s) (fun s hReachable hGoal => ?_) h
  obtain ⟨a, hSome⟩ := hEnabled s hReachable hGoal
  obtain ⟨t, hNext⟩ := Option.isSome_iff_exists.mp hSome
  have hMore := hStep s a t hReachable hNext
  have hLe := hBound t (hReachable.step hNext)
  exact ⟨t, .single hNext, by omega⟩

end Machine
end Transition
