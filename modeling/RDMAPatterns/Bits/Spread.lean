import Mathlib.Algebra.GroupWithZero.Nat
import Mathlib.Data.Nat.Size
import Mathlib.Order.Bounds.Basic

/-! Spreading the set bits of a number to the positions below them by or-ing
shifted copies, and when that fills everything below the highest bit. -/
namespace Bits

/-- The bits of `y` are those of `x` and the `n - 1` positions below each. -/
def Spreads (n x y : Nat) : Prop :=
  ∀ i, y.testBit i = true ↔ ∃ d < n, x.testBit (i + d) = true

/-- Below the highest bit of `x` there are no `n` zeros in a row. -/
def Dense (n x : Nat) : Prop := ∀ i, 2 ^ i ≤ x → x / 2 ^ i % 2 ^ n ≠ 0

theorem spreads_one (x : Nat) : Spreads 1 x x := by
  intro i
  constructor
  · intro hBit
    exact ⟨0, Nat.one_pos, hBit⟩
  · intro ⟨d, hD, hBit⟩
    obtain rfl : d = 0 := by omega
    exact hBit

/-- Each shifted copy doubles the reach. -/
theorem Spreads.or_shiftRight {n x y : Nat} (h : Spreads n x y) :
    Spreads (n + n) x (y ||| y >>> n) := by
  intro i
  rw [Nat.testBit_or, Bool.or_eq_true, Nat.testBit_shiftRight, h i, h (n + i)]
  constructor
  · rintro (⟨d, hD, hBit⟩ | ⟨d, hD, hBit⟩)
    · exact ⟨d, by omega, hBit⟩
    · exact ⟨n + d, by omega, by rwa [Nat.add_left_comm, ← Nat.add_assoc]⟩
  · intro ⟨d, hD, hBit⟩
    by_cases hNear : d < n
    · exact .inl ⟨d, hNear, hBit⟩
    · refine .inr ⟨d - n, by omega, ?_⟩
      rwa [show n + i + (d - n) = i + d by omega]

section Top

variable {n x y : Nat}

theorem testBit_eq_false_of_size_le {i : Nat} (hSize : x.size ≤ i) : x.testBit i = false :=
  Nat.testBit_lt_two_pow (Nat.size_le.mp hSize)

theorem Spreads.lt_two_pow_size (h : Spreads n x y) : y < 2 ^ x.size := by
  apply Nat.lt_pow_two_of_testBit
  intro i hI
  rw [← Bool.not_eq_true, h i]
  intro ⟨d, _, hBit⟩
  rw [testBit_eq_false_of_size_le (Nat.le_trans hI (Nat.le_add_right i d))] at hBit
  cases hBit

/-- No bit is lost. -/
theorem Spreads.le (h : Spreads n x y) (hN : 0 < n) : x ≤ y := by
  apply Nat.le_of_testBit
  intro i hBit
  exact (h i).mpr ⟨0, hN, hBit⟩

theorem dense_iff :
    Dense n x ↔ ∀ i, i < x.size → ∃ d < n, x.testBit (i + d) = true := by
  refine forall_congr' fun i => ?_
  rw [Nat.lt_size]
  refine imp_congr_right fun _ => ?_
  constructor
  · intro hNonzero
    obtain ⟨d, hBit⟩ := Nat.exists_testBit_of_ne_zero hNonzero
    rw [Nat.testBit_mod_two_pow, Nat.testBit_div_two_pow, Bool.and_eq_true,
      decide_eq_true_eq, Nat.add_comm d i] at hBit
    exact ⟨d, hBit.1, hBit.2⟩
  · intro ⟨d, hD, hBit⟩ hZero
    have hSame : (x / 2 ^ i % 2 ^ n).testBit d = true := by
      rw [Nat.testBit_mod_two_pow, Nat.testBit_div_two_pow, Nat.add_comm d i, hBit,
        decide_eq_true hD, Bool.and_self]
    rw [hZero, Nat.zero_testBit] at hSame
    cases hSame

/-- A number of at most `n` bits has no room for `n` zeros. -/
theorem dense_of_lt (hLt : x < 2 ^ n) : Dense n x := by
  intro i hI hZero
  have hDiv : x / 2 ^ i < 2 ^ n := Nat.lt_of_le_of_lt (Nat.div_le_self x _) hLt
  rw [Nat.mod_eq_of_lt hDiv] at hZero
  have hPos : 0 < x / 2 ^ i := Nat.div_pos hI (Nat.two_pow_pos i)
  omega

/-- Everything below the highest bit is filled exactly if no gap is longer than
the reach. -/
theorem Spreads.add_one_eq_iff (h : Spreads n x y) : y + 1 = 2 ^ x.size ↔ Dense n x := by
  rw [dense_iff]
  constructor
  · intro hFull i hI
    have hFilled : y.testBit i = true := by
      rw [show y = 2 ^ x.size - 1 by omega, Nat.testBit_two_pow_sub_one, decide_eq_true hI]
    exact (h i).mp hFilled
  · intro hReached
    have hFull : y = 2 ^ x.size - 1 := by
      apply Nat.eq_of_testBit_eq
      intro i
      rw [Nat.testBit_two_pow_sub_one, Bool.eq_iff_iff, h i, decide_eq_true_eq]
      constructor
      · intro ⟨d, _, hBit⟩
        by_contra hAbove
        rw [testBit_eq_false_of_size_le (by omega)] at hBit
        cases hBit
      · exact hReached i
    have hPos : 0 < 2 ^ x.size := Nat.two_pow_pos _
    omega

end Top

/-- The powers of two from `n` on. -/
def PowersFrom (n : Nat) : Set Nat := {p | ∃ k, p = 2 ^ k ∧ n ≤ p}

theorem isLeast_two_pow_size (x : Nat) : IsLeast (PowersFrom (x + 1)) (2 ^ x.size) := by
  refine ⟨⟨x.size, rfl, Nat.lt_size_self x⟩, ?_⟩
  rintro p ⟨k, rfl, hLe⟩
  exact Nat.pow_le_pow_right Nat.two_pos (Nat.size_le.mpr hLe)

/-- The spread number and one is the least power of two above `x` exactly if no
gap in `x` is longer than the reach. -/
theorem Spreads.isLeast_iff {n x y : Nat} (h : Spreads n x y) :
    IsLeast (PowersFrom (x + 1)) (y + 1) ↔ Dense n x := by
  rw [← h.add_one_eq_iff]
  constructor
  · intro hLeast
    exact hLeast.unique (isLeast_two_pow_size x)
  · intro hFull
    rw [hFull]
    exact isLeast_two_pow_size x

end Bits
