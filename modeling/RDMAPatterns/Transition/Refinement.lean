import RDMAPatterns.Transition.Progress

/-! Two machines that take the same steps. One of them may hold some of them back, or
may be seen through a function of the other one's states. -/
namespace Transition.Machine

variable {State Action State' Action' : Type*} {M : Machine State Action}
  {N : Machine State' Action'}

section Guards

variable {guard : State → Action → Prop} [∀ s a, Decidable (guard s a)] {s t : State} {a : Action}

/-- The machine that takes only the steps which the guard admits. -/
def guarded (M : Machine State Action) (guard : State → Action → Prop)
    [∀ s a, Decidable (guard s a)] : Machine State Action where
  init := M.init
  next s a := if guard s a then M.next s a else none

theorem guarded_next (hGuard : guard s a) (hNext : M.next s a = some t) :
    (M.guarded guard).next s a = some t :=
  (if_pos hGuard).trans hNext

theorem next_of_guarded (hNext : (M.guarded guard).next s a = some t) : M.next s a = some t :=
  (Option.ite_none_right_eq_some.mp hNext).2

theorem Leads.of_guarded (h : (M.guarded guard).Leads s t) : M.Leads s t := by
  obtain ⟨actions, hReplay⟩ := h
  induction actions generalizing s with
  | nil =>
      obtain rfl : s = t := Option.some.inj hReplay
      exact .refl s
  | cons a rest ih =>
      rw [replay, Option.bind_eq_some_iff] at hReplay
      obtain ⟨middle, hFirst, hRest⟩ := hReplay
      exact .head (next_of_guarded hFirst) (ih hRest)

end Guards

/-- If every step that is seen can be taken, so can every sequence of them. -/
theorem Leads.lift {view : State → State'} {follows : State → Prop}
    (hLift : ∀ s b v, follows s → N.next (view s) b = some v →
      ∃ a t, M.next s a = some t ∧ view t = v ∧ follows t)
    {s : State} {v : State'} (h : N.Leads (view s) v) (hFollows : follows s) :
    ∃ t, M.Leads s t ∧ view t = v ∧ follows t := by
  obtain ⟨actions, hReplay⟩ := h
  induction actions generalizing s with
  | nil =>
      obtain rfl : view s = v := Option.some.inj hReplay
      exact ⟨s, .refl s, rfl, hFollows⟩
  | cons b rest ih =>
      rw [replay, Option.bind_eq_some_iff] at hReplay
      obtain ⟨middle, hFirst, hRest⟩ := hReplay
      obtain ⟨a, t, hNext, rfl, hThere⟩ := hLift s b middle hFollows hFirst
      obtain ⟨u, hLeads, hView, hEnd⟩ := ih hThere hRest
      exact ⟨u, .head hNext hLeads, hView, hEnd⟩

end Transition.Machine
