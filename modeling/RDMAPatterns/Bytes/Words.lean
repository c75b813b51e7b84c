import Mathlib.Algebra.GroupWithZero.Nat
import Mathlib.Data.UInt

/-! Words in a memory of bytes, least significant byte first. -/
namespace Bytes

/-- The number in the `n` bytes from an address on. -/
def load (mem : Nat → UInt8) (addr : Nat) : Nat → Nat
  | 0 => 0
  | n + 1 => (mem addr).toNat + 256 * load mem (addr + 1) n

/-- The lowest `n` bytes of a number, put at an address. -/
def store (mem : Nat → UInt8) (addr n value : Nat) : Nat → UInt8 := fun x =>
  if addr ≤ x ∧ x < addr + n then UInt8.ofNat (value / 256 ^ (x - addr)) else mem x

variable {mem other : Nat → UInt8} {addr n value x : Nat}

theorem load_lt (mem : Nat → UInt8) (addr n : Nat) : load mem addr n < 256 ^ n := by
  induction n generalizing addr with
  | zero => simp [load]
  | succ n ih =>
      have hByte := (mem addr).toNat_lt
      have hRest := ih (addr + 1)
      rw [load, Nat.pow_succ]
      omega

theorem load_congr (h : ∀ x, addr ≤ x → x < addr + n → mem x = other x) :
    load mem addr n = load other addr n := by
  induction n generalizing addr with
  | zero => rfl
  | succ n ih =>
      have hRest : load mem (addr + 1) n = load other (addr + 1) n :=
        ih fun x hFirst hLast => h x (by omega) (by omega)
      rw [load, load, h addr (Nat.le_refl _) (by omega), hRest]

theorem store_outside (h : ¬(addr ≤ x ∧ x < addr + n)) : store mem addr n value x = mem x :=
  if_neg h

theorem store_inside (hFirst : addr ≤ x) (hLast : x < addr + n) :
    store mem addr n value x = UInt8.ofNat (value / 256 ^ (x - addr)) := if_pos ⟨hFirst, hLast⟩

/-- What is stored does not depend on what was there. -/
theorem store_congr (hFirst : addr ≤ x) (hLast : x < addr + n) :
    store mem addr n value x = store other addr n value x := by
  rw [store_inside hFirst hLast, store_inside hFirst hLast]

/-- A word that was stored is read back, cut to its width. -/
theorem load_store (mem : Nat → UInt8) (addr n value : Nat) :
    load (store mem addr n value) addr n = value % 256 ^ n := by
  induction n generalizing mem addr value with
  | zero => simp [load, Nat.mod_one]
  | succ n ih =>
      have hRest : load (store mem addr (n + 1) value) (addr + 1) n =
          load (store mem (addr + 1) n (value / 256)) (addr + 1) n := by
        apply load_congr
        intro x hFirst hLast
        rw [store_inside (by omega) (by omega), store_inside hFirst hLast, Nat.div_div_eq_div_mul,
          ← Nat.pow_succ', show (x - (addr + 1)).succ = x - addr by omega]
      have hSplit : value % 256 ^ (n + 1) = value % 256 + 256 * (value / 256 % 256 ^ n) := by
        rw [Nat.pow_succ', Nat.mod_mul]
      rw [load, hRest, ih, hSplit, store_inside (Nat.le_refl _) (by omega), Nat.sub_self,
        Nat.pow_zero, Nat.div_one, UInt8.toNat_ofNat']

/-- The bytes from an address on. -/
def read (mem : Nat → UInt8) (addr size : Nat) : List UInt8 :=
  (List.range size).map fun i => mem (addr + i)

/-- Bytes put at an address. -/
def write (mem : Nat → UInt8) (addr : Nat) (data : List UInt8) : Nat → UInt8 := fun x =>
  if addr ≤ x then (data[x - addr]?).getD (mem x) else mem x

theorem read_congr {size : Nat} (h : ∀ x, addr ≤ x → x < addr + size → mem x = other x) :
    read mem addr size = read other addr size := by
  apply List.map_congr_left
  intro i hi
  exact h _ (Nat.le_add_right _ _) (by rw [List.mem_range] at hi; omega)

theorem write_outside {data : List UInt8} (h : ¬(addr ≤ x ∧ x < addr + data.length)) :
    write mem addr data x = mem x := by
  rw [write]
  split
  · rw [List.getElem?_eq_none (by omega)]
    rfl
  · rfl

/-- What was written does not depend on what was there before. -/
theorem write_congr {data : List UInt8} (hFirst : addr ≤ x) (hLast : x < addr + data.length) :
    write mem addr data x = write other addr data x := by
  rw [write, write, if_pos hFirst, if_pos hFirst, List.getElem?_eq_getElem (by omega)]
  rfl

end Bytes
