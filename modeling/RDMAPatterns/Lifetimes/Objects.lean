import Mathlib.Data.List.Basic
import Mathlib.Data.Set.Insert
import Mathlib.Logic.Function.Basic

/-! Objects behind typed handles, where a live object may use others. An object
is destroyed only while no live object uses it, so what is used is always live. -/
namespace Lifetimes

variable {α κ : Type*} {kind : α → κ} {uses : α → List (κ × Nat)}

/-- A live object of the kind is behind the handle. -/
def Holds (kind : α → κ) (object : Nat → Option α) (k : κ) (handle : Nat) : Prop :=
  ∃ value, object handle = some value ∧ kind value = k

/-- Everything ever created. Handles are not used again, and what a live object
uses is an earlier object, and a live one of the kind it expects. -/
structure Store (kind : α → κ) (uses : α → List (κ × Nat)) where
  object : Nat → Option α
  created : Nat
  fresh : ∀ {handle}, created ≤ handle → object handle = none
  earlier : ∀ {user value}, object user = some value → ∀ {used}, used ∈ uses value →
    used.2 < user
  closed : ∀ {user value}, object user = some value → ∀ {used}, used ∈ uses value →
    Holds kind object used.1 used.2

namespace Store

def empty : Store kind uses where
  object _ := none
  created := 0
  fresh _ := rfl
  earlier hUser := by cases hUser
  closed hUser := by cases hUser

def Holds (s : Store kind uses) (k : κ) (handle : Nat) : Prop :=
  Lifetimes.Holds kind s.object k handle

/-- The object behind the first handle is live and uses the other. -/
def Uses (s : Store kind uses) (user handle : Nat) : Prop :=
  ∃ value, s.object user = some value ∧ ∃ k, (k, handle) ∈ uses value

def Busy (s : Store kind uses) (handle : Nat) : Prop := ∃ user, s.Uses user handle

variable {s t u : Store kind uses} {value : α} {k : κ} {handle user : Nat}

theorem lt_created (h : s.object handle = some value) : handle < s.created := by
  by_contra hLate
  rw [s.fresh (Nat.le_of_not_lt hLate)] at h
  cases h

theorem holds_of_uses (h : s.Uses user handle) : ∃ k, s.Holds k handle := by
  obtain ⟨value, hValue, k, hUsed⟩ := h
  exact ⟨k, s.closed hValue hUsed⟩

theorem lt_of_uses (h : s.Uses user handle) : handle < user := by
  obtain ⟨value, hValue, k, hUsed⟩ := h
  exact s.earlier hValue hUsed

instance [DecidableEq κ] (s : Store kind uses) (k : κ) (handle : Nat) :
    Decidable (s.Holds k handle) :=
  match h : s.object handle with
  | none => isFalse fun ⟨_, hValue, _⟩ => nomatch h.symm.trans hValue
  | some value =>
      decidable_of_iff (kind value = k)
        ⟨fun hKind => ⟨value, h, hKind⟩,
          fun ⟨_, hValue, hKind⟩ => Option.some.inj (h.symm.trans hValue) ▸ hKind⟩

instance (s : Store kind uses) (user handle : Nat) : Decidable (s.Uses user handle) :=
  match h : s.object user with
  | none => isFalse fun ⟨_, hValue, _⟩ => nomatch h.symm.trans hValue
  | some value =>
      decidable_of_iff (∃ used ∈ uses value, used.2 = handle)
        ⟨fun ⟨used, hUsed, hHandle⟩ => ⟨value, h, used.1, hHandle ▸ hUsed⟩,
          fun ⟨_, hValue, k, hUsed⟩ =>
            ⟨(k, handle), Option.some.inj (h.symm.trans hValue) ▸ hUsed, rfl⟩⟩

instance (s : Store kind uses) (handle : Nat) : Decidable (s.Busy handle) :=
  decidable_of_iff (∃ user, user < s.created ∧ s.Uses user handle)
    ⟨fun ⟨user, _, hUses⟩ => ⟨user, hUses⟩,
      fun ⟨user, hUses⟩ => ⟨user, lt_created hUses.choose_spec.1, hUses⟩⟩

/-- A new object. What it uses must be live. -/
def add (s : Store kind uses) (value : α)
    (h : ∀ used ∈ uses value, s.Holds used.1 used.2) : Store kind uses where
  object := Function.update s.object s.created (some value)
  created := s.created + 1
  fresh {handle} hLate := by
    have hOther : handle ≠ s.created := fun hSame => by omega
    rw [Function.update_of_ne hOther]
    exact s.fresh (Nat.le_of_succ_le hLate)
  earlier {user found} hFound used hUsed := by
    by_cases hNew : user = s.created
    · rw [hNew, Function.update_self] at hFound
      obtain ⟨target, hTarget, -⟩ := h used (Option.some.inj hFound ▸ hUsed)
      rw [hNew]
      exact lt_created hTarget
    · rw [Function.update_of_ne hNew] at hFound
      exact s.earlier hFound hUsed
  closed {user found} hFound used hUsed := by
    have hHolds : s.Holds used.1 used.2 := by
      by_cases hNew : user = s.created
      · rw [hNew, Function.update_self] at hFound
        exact h used (Option.some.inj hFound ▸ hUsed)
      · rw [Function.update_of_ne hNew] at hFound
        exact s.closed hFound hUsed
    obtain ⟨target, hTarget, hKind⟩ := hHolds
    have hOld : used.2 ≠ s.created := (lt_created hTarget).ne
    exact ⟨target, by rw [Function.update_of_ne hOld, hTarget], hKind⟩

theorem live_of_update {found : α}
    (h : Function.update s.object handle none user = some found) : s.object user = some found := by
  by_cases hSame : user = handle
  · rw [hSame, Function.update_self] at h
    cases h
  · rwa [Function.update_of_ne hSame] at h

/-- A live object that nothing uses goes. -/
def remove (s : Store kind uses) (handle : Nat) (h : ¬ s.Busy handle) : Store kind uses where
  object := Function.update s.object handle none
  created := s.created
  fresh {other} hLate := by
    by_cases hSame : other = handle
    · rw [hSame, Function.update_self]
    · rw [Function.update_of_ne hSame, s.fresh hLate]
  earlier hFound used hUsed := s.earlier (live_of_update hFound) hUsed
  closed {user found} hFound used hUsed := by
    have hFound := live_of_update hFound
    obtain ⟨target, hTarget, hKind⟩ := s.closed hFound hUsed
    have hKept : used.2 ≠ handle := fun hSame => h ⟨user, found, hFound, used.1, hSame ▸ hUsed⟩
    exact ⟨target, by rw [Function.update_of_ne hKept, hTarget], hKind⟩

/-- The second store has one more object than the first. -/
structure Grown (s : Store kind uses) (value : α) (t : Store kind uses) : Prop where
  object : t.object = Function.update s.object s.created (some value)
  created : t.created = s.created + 1

theorem Grown.new (h : s.Grown value t) : t.object s.created = some value := by
  rw [h.object, Function.update_self]

theorem Grown.old (h : s.Grown value t) {found : α} (hFound : s.object handle = some found) :
    t.object handle = some found := by
  rw [h.object, Function.update_of_ne (lt_created hFound).ne, hFound]

theorem Grown.cases (h : s.Grown value t) {found : α} (hFound : t.object handle = some found) :
    (handle = s.created ∧ found = value) ∨ s.object handle = some found := by
  rw [h.object] at hFound
  by_cases hNew : handle = s.created
  · rw [hNew, Function.update_self] at hFound
    exact .inl ⟨hNew, (Option.some.inj hFound).symm⟩
  · rw [Function.update_of_ne hNew] at hFound
    exact .inr hFound

theorem Grown.uses_cases (h : s.Grown value t) (hUses : t.Uses user handle) :
    (user = s.created ∧ ∃ k, (k, handle) ∈ uses value) ∨ s.Uses user handle := by
  obtain ⟨found, hFound, hUsed⟩ := hUses
  rcases h.cases hFound with ⟨rfl, rfl⟩ | hOld
  · exact .inl ⟨rfl, hUsed⟩
  · exact .inr ⟨found, hOld, hUsed⟩

/-- The second store has further objects, behind new handles. -/
structure Extended (s : Store kind uses) (new : List Nat) (t : Store kind uses) : Prop where
  later : s.created ≤ t.created
  old : ∀ {handle value}, s.object handle = some value → t.object handle = some value
  cases : ∀ {handle value}, t.object handle = some value →
    s.object handle = some value ∨ handle ∈ new
  fresh : ∀ {handle}, handle ∈ new → s.created ≤ handle

theorem Extended.refl (s : Store kind uses) : s.Extended [] s :=
  ⟨Nat.le_refl _, id, .inl, nofun⟩

/-- What two extensions have created one after the other. -/
theorem Extended.trans {new more : List Nat} (h : s.Extended new t) (hNext : t.Extended more u) :
    s.Extended (new ++ more) u where
  later := h.later.trans hNext.later
  old hOld := hNext.old (h.old hOld)
  cases hFound := by
    rcases hNext.cases hFound with hMiddle | hMore
    · exact (h.cases hMiddle).imp_right (List.mem_append_left more)
    · exact .inr (List.mem_append_right new hMore)
  fresh hNew := by
    rcases List.mem_append.mp hNew with hFirst | hMore
    · exact h.fresh hFirst
    · exact h.later.trans (hNext.fresh hMore)

theorem Grown.extended (h : s.Grown value t) : s.Extended [s.created] t where
  later := by
    rw [h.created]
    exact Nat.le_succ _
  old := h.old
  cases hFound := (h.cases hFound).symm.imp_right fun hNew => List.mem_singleton.mpr hNew.1
  fresh hNew := (List.mem_singleton.mp hNew).ge

/-- What uses a new object is new as well. -/
theorem Extended.uses_new {new : List Nat} (h : s.Extended new t) (hNew : handle ∈ new)
    (hUses : t.Uses user handle) : user ∈ new := by
  obtain ⟨value, hValue, k, hUsed⟩ := hUses
  rcases h.cases hValue with hOld | hUser
  · obtain ⟨target, hTarget, -⟩ := s.closed hOld hUsed
    exact absurd (lt_created hTarget) (Nat.not_lt_of_le (h.fresh hNew))
  · exact hUser

/-- The second store is the first without some of its objects. -/
structure Without (s : Store kind uses) (lost : Set Nat) (t : Store kind uses) : Prop where
  gone : ∀ {handle}, handle ∈ lost → t.object handle = none
  kept : ∀ {handle}, handle ∉ lost → t.object handle = s.object handle

variable {lost more : Set Nat}

theorem Without.refl (s : Store kind uses) : s.Without ∅ s := ⟨fun h => h.elim, fun _ => rfl⟩

theorem Without.congr (h : s.Without lost t) (hSame : ∀ handle, handle ∈ more ↔ handle ∈ lost) :
    s.Without more t where
  gone hMore := h.gone ((hSame _).mp hMore)
  kept hKept := h.kept fun hLost => hKept ((hSame _).mpr hLost)

/-- What is lost one after the other is lost together. -/
theorem Without.trans (h : s.Without lost t) (hNext : t.Without more u) :
    s.Without (lost ∪ more) u where
  gone {handle} hGone := by
    by_cases hMore : handle ∈ more
    · exact hNext.gone hMore
    · rw [hNext.kept hMore]
      exact h.gone (hGone.resolve_right hMore)
  kept {handle} hKept := by
    rw [hNext.kept fun hMore => hKept (.inr hMore), h.kept fun hLost => hKept (.inl hLost)]

theorem Without.object_iff (h : s.Without lost t) :
    t.object handle = some value ↔ handle ∉ lost ∧ s.object handle = some value := by
  by_cases hLost : handle ∈ lost
  · simp [h.gone hLost, hLost]
  · simp [h.kept hLost, hLost]

theorem Without.uses_iff (h : s.Without lost t) :
    t.Uses user handle ↔ user ∉ lost ∧ s.Uses user handle := by
  simp only [Uses, h.object_iff, and_assoc, exists_and_left]

theorem Without.holds_iff (h : s.Without lost t) :
    t.Holds k handle ↔ handle ∉ lost ∧ s.Holds k handle := by
  simp only [Holds, Lifetimes.Holds, h.object_iff, and_assoc, exists_and_left]

variable [DecidableEq κ]

/-- The handle of a new object; `none` if it is to use one that is not live. -/
def create (s : Store kind uses) (value : α) : Option (Nat × Store kind uses) :=
  if h : ∀ used ∈ uses value, s.Holds used.1 used.2 then some (s.created, s.add value h) else none

/-- `none` if there is no live object of the kind; otherwise whether it was
destroyed, which it is not while another uses it. -/
def destroy (s : Store kind uses) (k : κ) (handle : Nat) : Option (Bool × Store kind uses) :=
  if s.Holds k handle then
    if h : s.Busy handle then some (false, s) else some (true, s.remove handle h)
  else none

/-- An object can be created if all that it refers to is alive. -/
theorem create_ok (h : ∀ used ∈ uses value, s.Holds used.1 used.2) :
    ∃ t, s.create value = some (s.created, t) ∧ s.Grown value t :=
  ⟨s.add value h, dif_pos h, rfl, rfl⟩

/-- An object that nothing uses can be destroyed. -/
theorem destroy_ok (h : s.Holds k handle) (hBusy : ¬ s.Busy handle) :
    ∃ t, s.destroy k handle = some (true, t) ∧ s.Without {handle} t := by
  refine ⟨s.remove handle hBusy, ?_, ?_⟩
  · rw [destroy, if_pos h, dif_neg hBusy]
  · refine ⟨fun hSame => ?_, fun hOther => Function.update_of_ne hOther ..⟩
    rw [Set.mem_singleton_iff.mp hSame]
    exact Function.update_self ..

theorem destroy_busy (h : s.Holds k handle) (hBusy : s.Busy handle) :
    s.destroy k handle = some (false, s) := by
  rw [destroy, if_pos h, dif_pos hBusy]

/-- Whether or not it was in use, the store is the old one without what was destroyed. -/
theorem destroy_live (h : s.Holds k handle) : ∃ ended t, s.destroy k handle = some (ended, t) ∧
    s.Without {gone | gone = handle ∧ ¬ s.Busy handle} t := by
  by_cases hBusy : s.Busy handle
  · refine ⟨false, s, destroy_busy h hBusy, (Without.refl s).congr fun other => ?_⟩
    simp [hBusy]
  · obtain ⟨t, hDestroy, hWithout⟩ := destroy_ok h hBusy
    refine ⟨true, t, hDestroy, hWithout.congr fun other => ?_⟩
    simp [hBusy]

end Store
end Lifetimes
