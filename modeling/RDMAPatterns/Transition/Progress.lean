import Mathlib.Order.WellFounded
import RDMAPatterns.Transition.Runs

/-! What a machine can still come to. A goal can be reached from everywhere if every
other reachable state leads to a smaller one. -/
namespace Transition.Machine

variable {State Action : Type*} (M : Machine State Action)

/-- Some actions lead from one state to the other. -/
def Leads (s t : State) : Prop := ∃ actions, M.replay s actions = some t

variable {M} {s t u : State}

theorem Leads.refl (s : State) : M.Leads s s := ⟨[], rfl⟩

theorem Leads.head {a : Action} (hNext : M.next s a = some t) (h : M.Leads t u) : M.Leads s u := by
  obtain ⟨actions, hReplay⟩ := h
  exact ⟨a :: actions, by rw [replay, hNext, Option.bind_some, hReplay]⟩

theorem Leads.single {a : Action} (hNext : M.next s a = some t) : M.Leads s t :=
  .head hNext (.refl t)

theorem Leads.trans (h : M.Leads s t) (hNext : M.Leads t u) : M.Leads s u := by
  obtain ⟨actions, hReplay⟩ := h
  induction actions generalizing s with
  | nil =>
      obtain rfl : s = t := Option.some.inj hReplay
      exact hNext
  | cons a rest ih =>
      rw [replay, Option.bind_eq_some_iff] at hReplay
      obtain ⟨middle, hFirst, hRest⟩ := hReplay
      exact .head hFirst (ih hRest)

theorem Leads.reachable (h : M.Leads s t) (hReachable : M.Reachable s) : M.Reachable t := by
  obtain ⟨visits, run⟩ := hReachable
  obtain ⟨actions, hReplay⟩ := h
  exact ⟨_, run.append_replay actions hReplay⟩

/-- The goal can be reached within an invariant. -/
theorem leads_to_goal_within {α : Type*} [LT α] [WellFoundedLT α] (measure : State → α)
    {inv goal : State → Prop}
    (hProgress : ∀ s, inv s → ¬ goal s → ∃ t, M.Leads s t ∧ inv t ∧ measure t < measure s)
    (h : inv s) : ∃ t, M.Leads s t ∧ goal t := by
  induction hLevel : measure s using WellFoundedLT.induction generalizing s with
  | ind level ih =>
      by_cases hGoal : goal s
      · exact ⟨s, .refl s, hGoal⟩
      · obtain ⟨middle, hFirst, hMiddle, hLess⟩ := hProgress s h hGoal
        obtain ⟨t, hRest, hT⟩ := ih (measure middle) (hLevel ▸ hLess) hMiddle rfl
        exact ⟨t, hFirst.trans hRest, hT⟩

theorem leads_to_goal {α : Type*} [LT α] [WellFoundedLT α] (measure : State → α)
    {goal : State → Prop}
    (hProgress : ∀ s, M.Reachable s → ¬ goal s → ∃ t, M.Leads s t ∧ measure t < measure s)
    (h : M.Reachable s) : ∃ t, M.Leads s t ∧ goal t := by
  refine leads_to_goal_within measure (fun s hReachable hGoal => ?_) h
  obtain ⟨t, hLeads, hLess⟩ := hProgress s hReachable hGoal
  exact ⟨t, hLeads, hLeads.reachable hReachable, hLess⟩

end Transition.Machine
