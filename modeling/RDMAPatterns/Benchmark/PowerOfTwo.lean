import RDMAPatterns.Bits.Spread

/-! `upper_power_of_two`, which rounds the capacity of a ring buffer up. Its chain
of shifts ends at 16, so it reaches 31 positions down on a 64-bit word. -/
namespace BenchmarkDispatcher

open Bits

/-- `upper_power_of_two`. An `unsigned long` has 64 bits. -/
def upperPowerOfTwo (v : BitVec 64) : BitVec 64 :=
  let v := v - 1
  let v := v ||| v >>> 1
  let v := v ||| v >>> 2
  let v := v ||| v >>> 4
  let v := v ||| v >>> 8
  let v := v ||| v >>> 16
  v + 1

/-- What the chain of shifts makes of a number. -/
def shiftChain (x : Nat) : Nat :=
  let x := x ||| x >>> 1
  let x := x ||| x >>> 2
  let x := x ||| x >>> 4
  let x := x ||| x >>> 8
  x ||| x >>> 16

theorem spreads_shiftChain (x : Nat) : Spreads 32 x (shiftChain x) := by
  have h1 := spreads_one x
  have h2 := h1.or_shiftRight
  have h4 := h2.or_shiftRight
  have h8 := h4.or_shiftRight
  have h16 := h8.or_shiftRight
  exact h16.or_shiftRight

theorem toNat_upperPowerOfTwo {v : BitVec 64} (hPos : 1 ≤ v.toNat) :
    (upperPowerOfTwo v).toNat = (shiftChain (v.toNat - 1) + 1) % 2 ^ 64 := by
  have hPred : (v - 1).toNat = v.toNat - 1 := by bv_omega
  simp only [upperPowerOfTwo, shiftChain, BitVec.toNat_add, BitVec.toNat_or,
    BitVec.toNat_ushiftRight, hPred]
  rfl

/-- Nothing overflows up to `2 ^ 63`. -/
theorem toNat_upperPowerOfTwo_of_le {v : BitVec 64} (hPos : 1 ≤ v.toNat) (hLe : v.toNat ≤ 2 ^ 63) :
    (upperPowerOfTwo v).toNat = shiftChain (v.toNat - 1) + 1 := by
  have hBelow : shiftChain (v.toNat - 1) < 2 ^ (v.toNat - 1).size :=
    (spreads_shiftChain _).lt_two_pow_size
  have hSize : 2 ^ (v.toNat - 1).size ≤ 2 ^ 63 :=
    Nat.pow_le_pow_right Nat.two_pos (Nat.size_le.mpr (by omega))
  rw [toNat_upperPowerOfTwo hPos, Nat.mod_eq_of_lt (by omega)]

/-- The result is the least power of two from `v` on exactly if `v - 1` has no 32
zeros in a row below its highest bit. -/
theorem upperPowerOfTwo_isLeast_iff {v : BitVec 64} (hPos : 1 ≤ v.toNat)
    (hLe : v.toNat ≤ 2 ^ 63) :
    IsLeast (PowersFrom v.toNat) (upperPowerOfTwo v).toNat ↔ Dense 32 (v.toNat - 1) := by
  have hChain := (spreads_shiftChain (v.toNat - 1)).isLeast_iff
  rwa [Nat.sub_add_cancel hPos, ← toNat_upperPowerOfTwo_of_le hPos hLe] at hChain

theorem upperPowerOfTwo_isLeast_iff_five :
    IsLeast (PowersFrom 5) (upperPowerOfTwo 5).toNat ∧ (upperPowerOfTwo 5).toNat = 8 :=
  ⟨(upperPowerOfTwo_isLeast_iff (v := 5) (by decide) (by decide)).mpr (dense_of_lt (by decide)), rfl⟩

/-- Of the 32 bits below the highest one of `2 ^ 32` the lowest is out of reach. -/
theorem upperPowerOfTwo_not_power :
    (upperPowerOfTwo 4294967297).toNat = 8589934591 ∧
      ¬IsLeast (PowersFrom (4294967297 : BitVec 64).toNat) (upperPowerOfTwo 4294967297).toNat := by
  refine ⟨rfl, ?_⟩
  rintro ⟨⟨k, hPower, _⟩, _⟩
  have hOdd : (2 : Nat) ^ k = 8589934591 := hPower.symm
  cases k with
  | zero => cases hOdd
  | succ k => omega

end BenchmarkDispatcher
