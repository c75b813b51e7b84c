import Mathlib.Data.List.Nodup
import Mathlib.Data.List.Range

/-! The stretch of a sequence that a first-in-first-out queue holds: it grows at
one end and shrinks at the other. -/
namespace Journal

variable {α : Type*} {f : Nat → α} {a b : Nat}

/-- The entries number `a` to `b - 1`. -/
def window (f : Nat → α) (a b : Nat) : List α := (List.range' a (b - a)).map f

@[simp] theorem window_self : window f a a = [] := by
  simp [window]

@[simp] theorem window_length : (window f a b).length = b - a := by
  simp [window]

theorem mem_window {x : α} : x ∈ window f a b ↔ ∃ i, a ≤ i ∧ i < b ∧ f i = x := by
  rw [window, List.mem_map]
  constructor
  · intro ⟨i, hMem, hAt⟩
    rw [List.mem_range'_1] at hMem
    exact ⟨i, hMem.1, by omega, hAt⟩
  · intro ⟨i, hFrom, hTo, hAt⟩
    exact ⟨i, List.mem_range'_1.mpr ⟨hFrom, by omega⟩, hAt⟩

/-- The queue grows by the next entry of the sequence. -/
theorem window_snoc (h : a ≤ b) : window f a (b + 1) = window f a b ++ [f b] := by
  rw [window, show b + 1 - a = (b - a) + 1 by omega, List.range'_concat, List.map_append,
    List.map_singleton, show a + 1 * (b - a) = b by omega]
  rfl

/-- The queue shrinks by its oldest entry. -/
theorem window_cons (h : a < b) : window f a b = f a :: window f (a + 1) b := by
  rw [window, show b - a = (b - (a + 1)) + 1 by omega, List.range'_succ, List.map_cons]
  rfl

theorem window_eq_cons {x : α} {rest : List α} (h : window f a b = x :: rest) :
    a < b ∧ x = f a ∧ rest = window f (a + 1) b := by
  have hLt : a < b := by
    have hLength := congrArg List.length h
    rw [window_length, List.length_cons] at hLength
    omega
  rw [window_cons hLt] at h
  obtain ⟨hHead, hTail⟩ := List.cons.inj h
  exact ⟨hLt, hHead.symm, hTail.symm⟩

theorem nodup_window (hInj : ∀ i j, a ≤ i → i < j → j < b → f i ≠ f j) :
    (window f a b).Nodup := by
  refine List.Nodup.map_on ?_ List.nodup_range'
  intro i hI j hJ hSame
  rw [List.mem_range'_1] at hI hJ
  rcases Nat.lt_trichotomy i j with hLt | hEq | hGt
  · exact absurd hSame (hInj i j hI.1 hLt (by omega))
  · exact hEq
  · exact absurd hSame.symm (hInj j i hJ.1 hGt (by omega))

end Journal
