import Mathlib.Logic.Function.Basic

/-! Objects behind handles. A heap hands out consecutive handles, and places
hold on to some of them. While no two places hold the same handle, a change
made through one place is invisible at every other one, so each place can be
read as if it held the object itself. -/
namespace References

/-- The cells from `created` on have not been handed out. -/
structure Heap (Value : Type*) where
  cell : Nat → Value
  created : Nat

namespace Heap

variable {Value : Type*}

/-- The new object gets the handle `created`. -/
def alloc (heap : Heap Value) (value : Value) : Heap Value :=
  ⟨Function.update heap.cell heap.created value, heap.created + 1⟩

def modify (heap : Heap Value) (handle : Nat) (f : Value → Value) : Heap Value :=
  { heap with cell := Function.update heap.cell handle (f (heap.cell handle)) }

@[simp] theorem alloc_created (heap : Heap Value) (value : Value) :
    (heap.alloc value).created = heap.created + 1 := rfl

@[simp] theorem modify_created (heap : Heap Value) (handle : Nat) (f : Value → Value) :
    (heap.modify handle f).created = heap.created := rfl

@[simp] theorem alloc_cell_self (heap : Heap Value) (value : Value) :
    (heap.alloc value).cell heap.created = value := Function.update_self _ _ _

theorem alloc_cell_of_lt (heap : Heap Value) (value : Value) {handle : Nat}
    (hOld : handle < heap.created) : (heap.alloc value).cell handle = heap.cell handle :=
  Function.update_of_ne (Nat.ne_of_lt hOld) _ _

@[simp] theorem modify_cell_self (heap : Heap Value) (handle : Nat) (f : Value → Value) :
    (heap.modify handle f).cell handle = f (heap.cell handle) := Function.update_self _ _ _

/-- A change to one cell leaves the others alone. -/
theorem modify_cell_of_ne (heap : Heap Value) {handle other : Nat} (f : Value → Value)
    (hNe : other ≠ handle) : (heap.modify handle f).cell other = heap.cell other :=
  Function.update_of_ne hNe _ _

/-- What is done to a new object can be done before it is put on the heap. -/
@[simp] theorem alloc_modify (heap : Heap Value) (value : Value) (f : Value → Value) :
    (heap.alloc value).modify heap.created f = heap.alloc (f value) := by
  simp [alloc, modify]

/-- Two changes of one object are one change. -/
@[simp] theorem modify_modify (heap : Heap Value) (handle : Nat) (f g : Value → Value) :
    (heap.modify handle f).modify handle g = heap.modify handle (g ∘ f) := by
  simp [modify]

end Heap

variable {Place Value : Type*}

/-- Every handle held was handed out, and is held at one place only. -/
structure Exclusive (heap : Heap Value) (held : Place → Option Nat) : Prop where
  below : ∀ place handle, held place = some handle → handle < heap.created
  distinct : ∀ place other handle, held place = some handle → held other = some handle →
    place = other

/-- The object a place holds on to. -/
def view (heap : Heap Value) (held : Place → Option Nat) (place : Place) : Option Value :=
  (held place).map heap.cell

theorem view_of_held {heap : Heap Value} {held : Place → Option Nat} {place : Place}
    {handle : Nat} (hHeld : held place = some handle) :
    view heap held place = some (heap.cell handle) := by
  rw [view, hHeld, Option.map_some]

namespace Exclusive

variable {heap : Heap Value} {held : Place → Option Nat}

theorem empty (heap : Heap Value) : Exclusive heap fun _ : Place => none where
  below _ _ hHeld := by cases hHeld
  distinct _ _ _ hHeld _ := by cases hHeld

/-- An object nobody holds on to may be created. -/
theorem alloc (h : Exclusive heap held) (value : Value) : Exclusive (heap.alloc value) held where
  below place handle hHeld := Nat.lt_succ_of_lt (h.below place handle hHeld)
  distinct := h.distinct

/-- Changing a cell does not change who refers to it. -/
theorem modify (h : Exclusive heap held) (handle : Nat) (f : Value → Value) :
    Exclusive (heap.modify handle f) held where
  below := h.below
  distinct := h.distinct

/-- Creating an object is invisible everywhere. -/
theorem view_alloc (h : Exclusive heap held) (value : Value) (place : Place) :
    view (heap.alloc value) held place = view heap held place := by
  cases hHeld : held place with
  | none => simp [view, hHeld]
  | some handle =>
      have hOld := h.below place handle hHeld
      rw [view_of_held hHeld, view_of_held hHeld, heap.alloc_cell_of_lt value hOld]

/-- Changing the object held at one place is invisible at any other one. -/
theorem view_modify_of_ne (h : Exclusive heap held) {place other : Place} {handle : Nat}
    (hHeld : held place = some handle) (hNe : other ≠ place) (f : Value → Value) :
    view (heap.modify handle f) held other = view heap held other := by
  cases hOther : held other with
  | none => simp [view, hOther]
  | some otherHandle =>
      have hHandle : otherHandle ≠ handle := by
        intro hSame
        rw [hSame] at hOther
        exact hNe (h.distinct other place handle hOther hHeld)
      rw [view_of_held hOther, view_of_held hOther, heap.modify_cell_of_ne f hHandle]

/-- The place that refers to the cell sees the change. -/
theorem view_modify_self {place : Place} {handle : Nat} (hHeld : held place = some handle)
    (f : Value → Value) :
    view (heap.modify handle f) held place = (view heap held place).map f := by
  rw [view_of_held hHeld, view_of_held hHeld, heap.modify_cell_self, Option.map_some]

variable [DecidableEq Place]

/-- A place may let go of its object. -/
theorem clear (h : Exclusive heap held) (place : Place) :
    Exclusive heap (Function.update held place none) := by
  have hOf : ∀ other handle, Function.update held place none other = some handle →
      held other = some handle := by
    intro other handle hHeld
    by_cases hSame : other = place
    · simp [hSame] at hHeld
    · rwa [Function.update_of_ne hSame] at hHeld
  constructor
  · exact fun other handle hHeld => h.below other handle (hOf other handle hHeld)
  · exact fun one other handle hOne hOther =>
      h.distinct one other handle (hOf one handle hOne) (hOf other handle hOther)

/-- A place may take a handle that no other place holds. -/
theorem assign (h : Exclusive heap held) {place : Place} {handle : Nat}
    (hBelow : handle < heap.created)
    (hFree : ∀ other, other ≠ place → held other ≠ some handle) :
    Exclusive heap (Function.update held place (some handle)) := by
  constructor
  · intro other taken hHeld
    by_cases hSame : other = place
    · obtain rfl : handle = taken := by simpa [hSame] using hHeld
      exact hBelow
    · rw [Function.update_of_ne hSame] at hHeld
      exact h.below other taken hHeld
  · intro one other taken hOne hOther
    by_cases hFirst : one = place
    · by_cases hSecond : other = place
      · rw [hFirst, hSecond]
      · obtain rfl : handle = taken := by simpa [hFirst] using hOne
        rw [Function.update_of_ne hSecond] at hOther
        exact absurd hOther (hFree other hSecond)
    · by_cases hSecond : other = place
      · obtain rfl : handle = taken := by simpa [hSecond] using hOther
        rw [Function.update_of_ne hFirst] at hOne
        exact absurd hOne (hFree one hFirst)
      · rw [Function.update_of_ne hFirst] at hOne
        rw [Function.update_of_ne hSecond] at hOther
        exact h.distinct one other taken hOne hOther

/-- A new object may be held at any place. -/
theorem alloc_assign (h : Exclusive heap held) (value : Value) (place : Place) :
    Exclusive (heap.alloc value) (Function.update held place (some heap.created)) := by
  apply (h.alloc value).assign (Nat.lt_succ_self _)
  intro other _ hHeld
  exact Nat.lt_irrefl _ (h.below other heap.created hHeld)

/-- A handle may move from one place to another one. -/
theorem move (h : Exclusive heap held) {source target : Place} {handle : Nat}
    (hHeld : held source = some handle) :
    Exclusive heap
      (Function.update (Function.update held source none) target (some handle)) := by
  apply (h.clear source).assign (h.below source handle hHeld)
  intro other hNe hOther
  by_cases hSame : other = source
  · simp [hSame] at hOther
  · rw [Function.update_of_ne hSame] at hOther
    exact hSame (h.distinct other source handle hOther hHeld)

end Exclusive

section Updates

variable [DecidableEq Place] (heap : Heap Value) (held : Place → Option Nat)

theorem view_update_of_ne {place other : Place} (hNe : other ≠ place) (taken : Option Nat) :
    view heap (Function.update held place taken) other = view heap held other := by
  rw [view, view, Function.update_of_ne hNe]

theorem view_update_self (place : Place) (taken : Option Nat) :
    view heap (Function.update held place taken) place = taken.map heap.cell := by
  rw [view, Function.update_self]

end Updates
end References
