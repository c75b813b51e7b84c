import Mathlib.Data.List.Basic

/-! Guarded executable machines and their finite runs. `next s a` is `none`
when the action is not enabled, so the guards used in proofs are exactly the
guards used when a run is replayed. -/
namespace Transition

/-- A start state and a partial step function. -/
structure Machine (State Action : Type*) where
  init : State
  next : State → Action → Option State

namespace Machine

variable {State Action : Type*} (M : Machine State Action)

/-- A finite run from the start state. Every step is recorded with the state
it was taken in, so a condition on steps is a condition on the record. -/
inductive RunsTo : List (State × Action) → State → Prop where
  | zero : RunsTo [] M.init
  | succ {visits : List (State × Action)} {s t : State} {a : Action}
      (prior : RunsTo visits s) (last : M.next s a = some t) :
      RunsTo (visits ++ [(s, a)]) t

/-- Some finite run ends in this state. -/
def Reachable (s : State) : Prop := ∃ visits, M.RunsTo visits s

/-- Execute actions in order; `none` as soon as one of them is not enabled. -/
def replay (s : State) : List Action → Option State
  | [] => some s
  | a :: rest => (M.next s a).bind fun t => replay t rest

/-- The recorded steps of a replay, up to the first disabled action. -/
def record (s : State) : List Action → List (State × Action)
  | [] => []
  | a :: rest => (s, a) :: ((M.next s a).map fun t => record t rest).getD []

variable {M}

/-- An invariant that each step preserves as long as the step meets `guard`
holds at the end of every run whose steps all meet `guard`. -/
theorem RunsTo.invariant_of_guard {guard : State → Action → Prop} {inv : State → Prop}
    {visits : List (State × Action)} {s : State} (run : M.RunsTo visits s)
    (hInit : inv M.init)
    (hStep : ∀ s a t, inv s → guard s a → M.next s a = some t → inv t)
    (hGuard : ∀ visit ∈ visits, guard visit.1 visit.2) : inv s := by
  induction run with
  | zero => exact hInit
  | @succ visits s t a prior last ih =>
      have hPrior : inv s := ih fun visit hVisit => hGuard visit (List.mem_append_left _ hVisit)
      exact hStep s a t hPrior (hGuard (s, a) (by simp)) last

/-- The induction rule for unconditional invariants. -/
theorem RunsTo.invariant {inv : State → Prop} {visits : List (State × Action)} {s : State}
    (run : M.RunsTo visits s) (hInit : inv M.init)
    (hStep : ∀ s a t, inv s → M.next s a = some t → inv t) : inv s := by
  apply @RunsTo.invariant_of_guard State Action M (fun _ _ => True) inv visits s run hInit
  · exact fun s a t hInv _ hNext => hStep s a t hInv hNext
  · exact fun _ _ => trivial

theorem Reachable.invariant {inv : State → Prop} {s : State} (h : M.Reachable s)
    (hInit : inv M.init) (hStep : ∀ s a t, inv s → M.next s a = some t → inv t) : inv s := by
  obtain ⟨visits, run⟩ := h
  exact run.invariant hInit hStep

theorem Reachable.step {s t : State} {a : Action} (h : M.Reachable s)
    (hNext : M.next s a = some t) : M.Reachable t := by
  obtain ⟨visits, run⟩ := h
  exact ⟨visits ++ [(s, a)], run.succ hNext⟩

/-- A recorded step starts in a state that a prefix of the run reaches. -/
theorem RunsTo.visit_split {visits : List (State × Action)} {s : State}
    (run : M.RunsTo visits s) {visit : State × Action} (hVisit : visit ∈ visits) :
    ∃ before after, visits = before ++ visit :: after ∧ M.RunsTo before visit.1 := by
  induction run with
  | zero => simp at hVisit
  | @succ visits s t a prior last ih =>
      rcases List.mem_append.mp hVisit with hOld | hLast
      · obtain ⟨before, after, hSplit, hRun⟩ := ih hOld
        exact ⟨before, after ++ [(s, a)], by simp [hSplit], hRun⟩
      · obtain rfl : visit = (s, a) := by simpa using hLast
        exact ⟨visits, [], rfl, prior⟩

theorem RunsTo.visit_enabled {visits : List (State × Action)} {s : State}
    (run : M.RunsTo visits s) {visit : State × Action} (hVisit : visit ∈ visits) :
    ∃ t, M.next visit.1 visit.2 = some t := by
  induction run with
  | zero => simp at hVisit
  | @succ visits s t a prior last ih =>
      rcases List.mem_append.mp hVisit with hOld | hLast
      · exact ih hOld
      · obtain rfl : visit = (s, a) := by simpa using hLast
        exact ⟨t, last⟩

/-- A successful replay extends a run by exactly its own record. -/
theorem RunsTo.append_replay {visits : List (State × Action)} {s t : State}
    (run : M.RunsTo visits s) (actions : List Action) (hReplay : M.replay s actions = some t) :
    M.RunsTo (visits ++ M.record s actions) t := by
  induction actions generalizing s visits with
  | nil =>
      obtain rfl : s = t := by simpa [replay] using hReplay
      simpa [record] using run
  | cons a rest ih =>
      rw [replay, Option.bind_eq_some_iff] at hReplay
      obtain ⟨middle, hNext, hRest⟩ := hReplay
      have hRun := ih (run.succ hNext) hRest
      simpa [record, hNext] using hRun

/-- A successful replay from the start state is a run. -/
theorem runsTo_of_replay {s : State} (actions : List Action)
    (hReplay : M.replay M.init actions = some s) : M.RunsTo (M.record M.init actions) s := by
  simpa using RunsTo.zero.append_replay actions hReplay

/-- A record holds no other actions than those replayed. -/
theorem action_mem_of_record (actions : List Action) (s : State) {visit : State × Action}
    (hVisit : visit ∈ M.record s actions) : visit.2 ∈ actions := by
  induction actions generalizing s with
  | nil => cases hVisit
  | cons a rest ih =>
      rcases List.mem_cons.mp hVisit with rfl | hRest
      · exact List.mem_cons_self ..
      · cases hNext : M.next s a with
        | none => simp [hNext] at hRest
        | some t => exact List.mem_cons_of_mem _ (ih t (by simpa [hNext] using hRest))

theorem reachable_of_replay {s : State} (actions : List Action)
    (hReplay : M.replay M.init actions = some s) : M.Reachable s :=
  ⟨M.record M.init actions, runsTo_of_replay actions hReplay⟩

end Machine
end Transition
