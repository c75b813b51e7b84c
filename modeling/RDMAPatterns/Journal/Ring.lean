import Mathlib.Data.List.Range
import Mathlib.Data.Nat.ModEq
import Mathlib.Logic.Function.Basic

/-! A queue in a ring of cells: it starts at a cell, its entries follow one
another, and behind the last cell comes the first one. -/
namespace Journal

variable {α : Type*} {n front count : Nat} {data : Nat → α}

/-- The entries of the queue, oldest first. -/
def ring (n front count : Nat) (data : Nat → α) : List α :=
  (List.range count).map fun k => data ((front + k) % n)

@[simp] theorem ring_zero : ring n front 0 data = [] := rfl

@[simp] theorem ring_length : (ring n front count data).length = count := by
  simp [ring]

theorem getElem?_ring {k : Nat} (hK : k < count) :
    (ring n front count data)[k]? = some (data ((front + k) % n)) := by
  simp [ring, hK]

/-- Less than a turn apart there are different cells. -/
theorem ring_cell_ne {k l : Nat} (hK : k < l) (hL : l < n + k) :
    (front + k) % n ≠ (front + l) % n := by
  intro hSame
  have hDvd : n ∣ (front + l) - (front + k) := (Nat.modEq_iff_dvd' (by omega)).mp hSame
  have hLe := Nat.le_of_dvd (by omega) hDvd
  omega

/-- A cell that is not used does not matter. -/
theorem ring_update (hRoom : count < n) (a : α) :
    ring n front count (Function.update data ((front + count) % n) a) =
      ring n front count data := by
  apply List.map_congr_left
  intro k hK
  rw [List.mem_range] at hK
  exact Function.update_of_ne (ring_cell_ne hK (by omega)) _ _

theorem ring_succ : ring n front (count + 1) data =
    ring n front count data ++ [data ((front + count) % n)] := by
  rw [ring, List.range_succ, List.map_append, List.map_singleton]
  rfl

/-- Put an entry behind the last one. -/
theorem ring_push (hRoom : count < n) (a : α) :
    ring n front (count + 1) (Function.update data ((front + count) % n) a) =
      ring n front count data ++ [a] := by
  rw [ring_succ, ring_update hRoom, Function.update_self]

/-- Take the oldest entry. -/
theorem ring_pop :
    ring n front (count + 1) data = data (front % n) :: ring n (front + 1) count data := by
  rw [ring, List.range_succ_eq_map, List.map_cons, List.map_map]
  refine congrArg (data (front % n) :: ·) (List.map_congr_left fun k _ => ?_)
  show data ((front + (k + 1)) % n) = data ((front + 1 + k) % n)
  rw [Nat.add_right_comm, Nat.add_assoc]

theorem ring_front_mod : ring n (front % n) count data = ring n front count data := by
  refine List.map_congr_left fun k _ => ?_
  rw [Nat.mod_add_mod]

end Journal
