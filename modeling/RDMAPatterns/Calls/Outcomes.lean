import Mathlib.Data.List.Basic

/-! Calls on a state that return or throw, and that have no outcome where they
are undefined. An exception keeps what the call did to the state before. -/
namespace Calls

variable {σ ε α β : Type}

/-- A call of an object with state `σ` that may throw `ε`. -/
abbrev Call (σ ε α : Type) := ExceptT ε (StateT σ Option) α

/-- What the call ends with and the state it leaves; `none` where it is undefined. -/
def Call.outcome (m : Call σ ε α) (s : σ) : Option (Except ε α × σ) := (ExceptT.run m).run s

/-- An operation that does not throw but is not defined everywhere. -/
def Call.operation (f : σ → Option (α × σ)) : Call σ ε α :=
  ExceptT.mk fun s => (f s).map fun found => (.ok found.1, found.2)

/-- The guard before a `throw`. -/
def throwIf (p : Prop) [Decidable p] (e : ε) : Call σ ε Unit := if p then throw e else pure ()

/-- The call has an outcome, which is as said for a return or for an exception. -/
def Ensures (m : Call σ ε α) (s : σ) (ok : α → σ → Prop) (failed : ε → σ → Prop) : Prop :=
  ∃ result t, m.outcome s = some (result, t) ∧
    match result with
    | .ok value => ok value t
    | .error e => failed e t

namespace Ensures

variable {m : Call σ ε α} {f : α → Call σ ε β} {s : σ} {ok mid : α → σ → Prop}
  {failed : ε → σ → Prop}

theorem pure {value : α} (h : ok value s) : Ensures (pure value) s ok failed :=
  ⟨.ok value, s, rfl, h⟩

theorem throw {e : ε} (h : failed e s) : Ensures (throw e : Call σ ε α) s ok failed :=
  ⟨.error e, s, rfl, h⟩

theorem operation {g : σ → Option (α × σ)} {value : α} {t : σ} (h : g s = some (value, t))
    (hOk : ok value t) : Ensures (.operation g) s ok failed :=
  ⟨.ok value, t, congrArg (Option.map _) h, hOk⟩

theorem modify {ok : PUnit → σ → Prop} {g : σ → σ} (h : ok ⟨⟩ (g s)) :
    Ensures (modify g : Call σ ε PUnit) s ok failed :=
  ⟨.ok ⟨⟩, g s, rfl, h⟩

theorem throwIf {p : Prop} [Decidable p] {e : ε} {ok : Unit → σ → Prop} (hThrow : p → failed e s)
    (hPass : ¬ p → ok () s) : Ensures (throwIf p e) s ok failed := by
  by_cases hP : p
  · rw [Calls.throwIf, if_pos hP]
    exact throw (hThrow hP)
  · rw [Calls.throwIf, if_neg hP]
    exact pure (hPass hP)

/-- One call after the other. If the first one throws, so do both. -/
theorem bind {ok : β → σ → Prop} (h : Ensures m s mid failed)
    (hNext : ∀ value t, mid value t → Ensures (f value) t ok failed) :
    Ensures (m >>= f) s ok failed := by
  obtain ⟨result, t, hRun, hResult⟩ := h
  have hBind : (m >>= f).outcome s = match (result, t) with
      | (.ok value, t) => (f value).outcome t
      | (.error e, t) => some (.error e, t) := by
    show (m.outcome s).bind _ = _
    rw [hRun]
    cases result <;> rfl
  cases result with
  | ok value =>
      obtain ⟨last, u, hLast, hPost⟩ := hNext value t hResult
      exact ⟨last, u, hBind.trans hLast, hPost⟩
  | error e => exact ⟨.error e, t, hBind, hResult⟩

/-- What follows a guard runs in the state in which the guard passed. -/
theorem guard {p : Prop} [Decidable p] {e : ε} {f : Unit → Call σ ε β} {ok : β → σ → Prop}
    (hThrow : p → failed e s) (hPass : ¬ p → Ensures (f ()) s ok failed) :
    Ensures (Calls.throwIf p e >>= f) s ok failed := by
  have hGuard : Ensures (Calls.throwIf p e) s (fun _ t => ¬ p ∧ t = s) failed :=
    throwIf hThrow fun hP => ⟨hP, rfl⟩
  apply bind hGuard
  rintro _ _ ⟨hP, rfl⟩
  exact hPass hP

theorem get {g : σ → Call σ ε β} {ok : β → σ → Prop} (h : Ensures (g s) s ok failed) :
    Ensures (MonadState.get >>= g) s ok failed := by
  have hGet : Ensures (MonadState.get : Call σ ε σ) s (fun value t => value = s ∧ t = s) failed :=
    ⟨.ok s, s, rfl, rfl, rfl⟩
  apply bind hGet
  rintro _ _ ⟨rfl, rfl⟩
  exact h

/-- The rule of consequence. -/
theorem weaken {ok' : α → σ → Prop} {failed' : ε → σ → Prop} (h : Ensures m s ok failed)
    (hOk : ∀ value t, ok value t → ok' value t) (hFailed : ∀ e t, failed e t → failed' e t) :
    Ensures m s ok' failed' := by
  obtain ⟨result, t, hRun, hResult⟩ := h
  refine ⟨result, t, hRun, ?_⟩
  cases result with
  | ok value => exact hOk value t hResult
  | error e => exact hFailed e t hResult

/-- A loop over a list whose invariant speaks about the items already done. -/
theorem forM {list : List α} {body : α → Call σ ε PUnit} (inv : List α → σ → Prop)
    (hStart : inv [] s)
    (hStep : ∀ done item rest t, list = done ++ item :: rest → inv done t →
      Ensures (body item) t (fun _ u => inv (done ++ [item]) u) failed) :
    Ensures (list.forM body) s (fun _ t => inv list t) failed := by
  suffices ∀ rest done t, list = done ++ rest → inv done t →
      Ensures (rest.forM body) t (fun _ u => inv list u) failed from this list [] s rfl hStart
  intro rest
  induction rest with
  | nil =>
      intro done t hList hInv
      exact pure (by rwa [hList, List.append_nil])
  | cons item rest ih =>
      intro done t hList hInv
      show Ensures (body item >>= fun _ => rest.forM body) t _ _
      apply bind (hStep done item rest t hList hInv)
      intro _ u hDone
      exact ih (done ++ [item]) u (by simp [hList]) hDone

end Ensures
end Calls
