import Mathlib.Data.Set.Basic

/-! Operations on a shared memory. An operation reads and changes only its
footprint. Parties post operations and have them performed later, each party's
in the order in which it posted them. What a party's operations return then
depends on its own part of the memory only. -/
namespace Accesses

variable {Loc Val Op Result : Type*}

/-- What an operation returns and what it leaves in the memory. Both are
decided by the values in its footprint, and it changes no other value. -/
structure Semantics (Loc Val Op Result : Type*) where
  footprint : Op → Set Loc
  perform : Op → (Loc → Val) → Result × (Loc → Val)
  frame : ∀ op mem x, x ∉ footprint op → (perform op mem).2 x = mem x
  agree : ∀ op mem other, (∀ x ∈ footprint op, mem x = other x) →
    (perform op mem).1 = (perform op other).1 ∧
      ∀ x ∈ footprint op, (perform op mem).2 x = (perform op other).2 x

namespace Semantics

variable (S : Semantics Loc Val Op Result)

/-- Perform operations one after the other. -/
def performAll : List Op → (Loc → Val) → List Result × (Loc → Val)
  | [], mem => ([], mem)
  | op :: rest, mem =>
      let (result, mem) := S.perform op mem
      let (results, mem) := performAll rest mem
      (result :: results, mem)

/-- All footprints lie in the region. -/
def Within (region : Set Loc) (ops : List Op) : Prop := ∀ op ∈ ops, S.footprint op ⊆ region

variable {S} {region : Set Loc} {op : Op} {ops : List Op} {mem other : Loc → Val}

theorem Within.mono {larger : Set Loc} (h : S.Within region ops) (hSub : region ⊆ larger) :
    S.Within larger ops := fun op hOp => Set.Subset.trans (h op hOp) hSub

theorem Within.append (h : S.Within region ops) (hOp : S.footprint op ⊆ region) :
    S.Within region (ops ++ [op]) := by
  intro found hFound
  rcases List.mem_append.mp hFound with hOld | hNew
  · exact h found hOld
  · obtain rfl := List.mem_singleton.mp hNew
    exact hOp

theorem Within.head (h : S.Within region (op :: ops)) : S.footprint op ⊆ region :=
  h op (List.mem_cons_self ..)

theorem Within.tail (h : S.Within region (op :: ops)) : S.Within region ops :=
  fun found hFound => h found (List.mem_cons_of_mem _ hFound)

/-- On a region around its footprint an operation is decided by the region. -/
theorem perform_congr (hOp : S.footprint op ⊆ region) (hAgree : ∀ x ∈ region, mem x = other x) :
    (S.perform op mem).1 = (S.perform op other).1 ∧
      ∀ x ∈ region, (S.perform op mem).2 x = (S.perform op other).2 x := by
  obtain ⟨hResult, hInside⟩ := S.agree op mem other fun x hx => hAgree x (hOp hx)
  refine ⟨hResult, fun x hx => ?_⟩
  by_cases hFoot : x ∈ S.footprint op
  · exact hInside x hFoot
  · rw [S.frame op mem x hFoot, S.frame op other x hFoot]
    exact hAgree x hx

/-- Nor does a sequence of operations depend on anything else. -/
theorem performAll_congr (h : S.Within region ops) (hAgree : ∀ x ∈ region, mem x = other x) :
    (S.performAll ops mem).1 = (S.performAll ops other).1 ∧
      ∀ x ∈ region, (S.performAll ops mem).2 x = (S.performAll ops other).2 x := by
  induction ops generalizing mem other with
  | nil => exact ⟨rfl, hAgree⟩
  | cons op rest ih =>
      obtain ⟨hResult, hAfter⟩ := perform_congr h.head hAgree
      obtain ⟨hResults, hEnd⟩ := ih h.tail hAfter
      exact ⟨by simp only [performAll, hResult, hResults], hEnd⟩

/-- A sequence of operations leaves the rest of the memory alone. -/
theorem performAll_frame (h : S.Within region ops) {x : Loc} (hx : x ∉ region) :
    (S.performAll ops mem).2 x = mem x := by
  induction ops generalizing mem with
  | nil => rfl
  | cons op rest ih =>
      have hRest : (S.performAll rest (S.perform op mem).2).2 x = (S.perform op mem).2 x :=
        ih h.tail
      exact hRest.trans (S.frame op mem x fun hFoot => hx (h.head hFoot))

theorem performAll_append (ops : List Op) (op : Op) (mem : Loc → Val) :
    S.performAll (ops ++ [op]) mem =
      ((S.performAll ops mem).1 ++ [(S.perform op (S.performAll ops mem).2).1],
        (S.perform op (S.performAll ops mem).2).2) := by
  induction ops generalizing mem with
  | nil => rfl
  | cons first rest ih => simp only [List.cons_append, performAll, ih]

end Semantics

/-- What happens to a party on its own: it gets values, or has an operation
performed at once. -/
inductive Event (Loc Val Op : Type*) where
  | obtained (contents : Loc → Option Val)
  | accessed (op : Op)

namespace Semantics

variable (S : Semantics Loc Val Op Result)

/-- One event on the party's own memory. -/
def privately (state : List Result × (Loc → Val)) : Event Loc Val Op → List Result × (Loc → Val)
  | .obtained contents => (state.1, fun x => (contents x).getD (state.2 x))
  | .accessed op => (state.1 ++ [(S.perform op state.2).1], (S.perform op state.2).2)

/-- The results of a party that has the memory for itself. -/
def alone (mem : Loc → Val) (events : List (Event Loc Val Op)) : List Result × (Loc → Val) :=
  events.foldl S.privately ([], mem)

/-- The party's operations, those performed and those still pending, return
what they return to a party on its own, and on its region it has the values
that its pending operations are going to leave. -/
structure Isolated (region : Set Loc) (pending : List Op) (results : List Result)
    (mem : Loc → Val) (own : List Result × (Loc → Val)) : Prop where
  within : S.Within region pending
  results_eq : own.1 = results ++ (S.performAll pending mem).1
  view : ∀ x ∈ region, own.2 x = (S.performAll pending mem).2 x

namespace Isolated

variable {S} {region : Set Loc} {pending : List Op} {results : List Result} {mem : Loc → Val}
  {own : List Result × (Loc → Val)}

/-- Changes elsewhere are not noticed. -/
theorem elsewhere (h : S.Isolated region pending results mem own) {other : Loc → Val}
    (hAgree : ∀ x ∈ region, other x = mem x) : S.Isolated region pending results other own := by
  obtain ⟨hResults, hView⟩ := performAll_congr h.within hAgree
  refine ⟨h.within, ?_, ?_⟩
  · rw [hResults]
    exact h.results_eq
  · intro x hx
    rw [hView x hx]
    exact h.view x hx

/-- Posting an operation is having it performed. -/
theorem post (h : S.Isolated region pending results mem own) {op : Op}
    (hOp : S.footprint op ⊆ region) :
    S.Isolated region (pending ++ [op]) results mem (S.privately own (.accessed op)) := by
  obtain ⟨hResult, hView⟩ := perform_congr hOp h.view
  refine ⟨h.within.append hOp, ?_, ?_⟩
  · rw [performAll_append, privately, h.results_eq, hResult, List.append_assoc]
  · intro x hx
    rw [performAll_append]
    exact hView x hx

/-- The oldest pending operation is performed. -/
theorem perform {op : Op} (h : S.Isolated region (op :: pending) results mem own) :
    S.Isolated region pending (results ++ [(S.perform op mem).1]) (S.perform op mem).2 own where
  within := h.within.tail
  results_eq := by
    rw [h.results_eq, List.append_assoc]
    rfl
  view := h.view

/-- The region grows by locations that no pending operation touches. -/
theorem obtain (h : S.Isolated region pending results mem own) {larger : Set Loc}
    {contents : Loc → Option Val}
    (hOld : ∀ x ∈ region, x ∈ larger ∧ contents x = none)
    (hNew : ∀ x ∈ larger, x ∉ region → contents x = some (mem x)) :
    S.Isolated larger pending results mem (S.privately own (.obtained contents)) := by
  refine ⟨h.within.mono fun x hx => (hOld x hx).1, h.results_eq, fun x hx => ?_⟩
  change (contents x).getD (own.2 x) = _
  by_cases hRegion : x ∈ region
  · rw [(hOld x hRegion).2]
    exact h.view x hRegion
  · rw [performAll_frame h.within hRegion, hNew x hx hRegion]
    rfl

/-- The region shrinks around the pending operations. -/
theorem restrict (h : S.Isolated region pending results mem own) {smaller : Set Loc}
    (hSub : smaller ⊆ region) (hWithin : S.Within smaller pending) :
    S.Isolated smaller pending results mem own :=
  ⟨hWithin, h.results_eq, fun x hx => h.view x (hSub hx)⟩

end Isolated
end Semantics
end Accesses
