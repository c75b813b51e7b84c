import Mathlib.Algebra.Order.Group.Nat
import Mathlib.Tactic.Ring

/-! `BenchmarkReceiver::partition`, with the conversions between `size_t` and
`int` that its results go through. -/
namespace Benchmark

/-- The conversion of an integer to `size_t`. -/
def sizeT (z : Int) : Nat := (z % 2 ^ 64).toNat

/-- The conversion of a `size_t` to `int`. -/
def int (n : Nat) : Int := (n : Int).bmod (2 ^ 32)

/-- Small numbers survive the conversion to `size_t`. -/
theorem sizeT_of_lt {n : Nat} (h : n < 2 ^ 64) : sizeT n = n := by
  have hMod : (n : Int) % 2 ^ 64 = n := Int.emod_eq_of_lt (by omega) (by omega)
  rw [sizeT, hMod, Int.toNat_natCast]

/-- The width of a range that does not overflow. -/
theorem sizeT_add_sub {first width : Nat} (h : width < 2 ^ 64) :
    sizeT ((first + width : Nat) - (first : Nat)) = width := by
  have hWidth : ((first + width : Nat) - (first : Nat) : Int) = width := by omega
  rw [hWidth, sizeT_of_lt h]

/-- Small numbers survive the conversion to `int`. -/
theorem int_of_lt {n : Nat} (h : n < 2 ^ 31) : int n = n :=
  Int.bmod_eq_of_le (by omega) (by omega)

section Blocks

variable {N m i j x : Nat}

/-- A number below `N` belongs to one of `m` blocks of `N / m` numbers. The last
block takes what is left over. -/
def InBlock (N m i x : Nat) : Prop :=
  i * (N / m) ≤ x ∧ x < if i = m - 1 then N else (i + 1) * (N / m)

/-- The block that a number belongs to. -/
def blockOf (N m x : Nat) : Nat := min (x / (N / m)) (m - 1)

theorem width_pos (hPos : 1 ≤ m) (hLe : m ≤ N) : 0 < N / m := Nat.div_pos hLe hPos

theorem blockOf_lt (hPos : 1 ≤ m) : blockOf N m x < m := by
  have hLe : blockOf N m x ≤ m - 1 := Nat.min_le_right _ _
  omega

/-- The blocks do not reach beyond `N`. -/
theorem mul_width_le (hI : i ≤ m) : i * (N / m) ≤ N :=
  (Nat.mul_le_mul_right _ hI).trans (Nat.mul_div_le N m)

/-- The blocks are a partition: each number has its block. -/
theorem inBlock_iff (hPos : 1 ≤ m) (hLe : m ≤ N) (hI : i < m) :
    InBlock N m i x ↔ x < N ∧ blockOf N m x = i := by
  have hWidth : 0 < N / m := width_pos hPos hLe
  by_cases hLast : i = m - 1
  · rw [InBlock, if_pos hLast, blockOf, ← Nat.le_div_iff_mul_le hWidth]
    omega
  · rw [InBlock, if_neg hLast, blockOf, ← Nat.le_div_iff_mul_le hWidth,
      ← Nat.div_lt_iff_lt_mul hWidth]
    have hInside : x / (N / m) < i + 1 → x < N := by
      intro hBefore
      have hStop : x < (i + 1) * (N / m) := (Nat.div_lt_iff_lt_mul hWidth).mp hBefore
      exact Nat.lt_of_lt_of_le hStop (mul_width_le hI)
    omega

theorem InBlock.unique (hPos : 1 ≤ m) (hLe : m ≤ N) (hI : i < m) (hJ : j < m)
    (hInI : InBlock N m i x) (hInJ : InBlock N m j x) : i = j := by
  rw [inBlock_iff hPos hLe hI] at hInI
  rw [inBlock_iff hPos hLe hJ] at hInJ
  exact hInI.2.symm.trans hInJ.2

theorem exists_inBlock_iff (hPos : 1 ≤ m) (hLe : m ≤ N) :
    (∃ i < m, InBlock N m i x) ↔ x < N := by
  constructor
  · intro ⟨i, hI, hIn⟩
    exact ((inBlock_iff hPos hLe hI).mp hIn).1
  · intro hX
    have hBlock : blockOf N m x < m := blockOf_lt hPos
    exact ⟨blockOf N m x, hBlock, (inBlock_iff hPos hLe hBlock).mpr ⟨hX, rfl⟩⟩

/-- The first number after the start of a block, up to the width, is in it. -/
theorem inBlock_start_add (hI : i < m) (hX : x < N / m) : InBlock N m i (i * (N / m) + x) := by
  have hNext : (i + 1) * (N / m) = i * (N / m) + N / m := by ring
  have hStop : (i + 1) * (N / m) ≤ N := mul_width_le hI
  refine ⟨Nat.le_add_right _ _, ?_⟩
  split <;> omega

end Blocks
end Benchmark

namespace BenchmarkReceiver

open Benchmark

/-- `BenchmarkReceiver::partition`, for a buffer of `numberPreparedResponses`.
The products are of type `size_t`, the results of type `int`. -/
def partition (numberPreparedResponses currentNodeId maxNodeId : Nat) : Int × Int :=
  let first := int (sizeT (currentNodeId * (numberPreparedResponses / maxNodeId) : Nat))
  let last :=
    int (sizeT (((currentNodeId + 1) * (numberPreparedResponses / maxNodeId) : Nat) - 1))
  if currentNodeId = sizeT (maxNodeId - 1) then
    (first, int (sizeT (numberPreparedResponses - 1)))
  else (first, last)

/-- Nothing is truncated as long as the buffer has less than `2 ^ 31` slots. -/
theorem partition_eq {N m i : Nat} (hSmall : N < 2 ^ 31) (hPos : 1 ≤ m) (hLe : m ≤ N)
    (hI : i < m) :
    partition N i m = (((i * (N / m) : Nat) : Int),
      (((if i = m - 1 then N else (i + 1) * (N / m)) - 1 : Nat) : Int)) := by
  have hWidth : 0 < N / m := width_pos hPos hLe
  have hFirst : i * (N / m) ≤ N := mul_width_le (Nat.le_of_lt hI)
  have hStop : (i + 1) * (N / m) ≤ N := mul_width_le hI
  have hStopPos : 0 < (i + 1) * (N / m) := Nat.mul_pos (Nat.succ_pos i) hWidth
  have hMax : sizeT ((m : Int) - 1) = m - 1 := by
    rw [← Int.natCast_pred_of_pos hPos]
    exact sizeT_of_lt (by omega)
  have hEnd : int (sizeT ((N : Int) - 1)) = (N - 1 : Nat) := by
    rw [← Int.natCast_pred_of_pos (Nat.lt_of_lt_of_le hPos hLe), sizeT_of_lt (by omega),
      int_of_lt (by omega)]
  have hLast : int (sizeT (((i + 1) * (N / m) : Nat) - 1)) = ((i + 1) * (N / m) - 1 : Nat) := by
    rw [← Int.natCast_pred_of_pos hStopPos, sizeT_of_lt (by omega), int_of_lt (by omega)]
  rw [partition, hMax, hEnd, hLast, sizeT_of_lt (by omega), int_of_lt (by omega)]
  split <;> rfl

end BenchmarkReceiver
