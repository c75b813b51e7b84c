import RDMAPatterns.Benchmark.PowerOfTwo
import RDMAPatterns.Journal.Ring
import RDMAPatterns.Transition.Runs

/-! `CircBuf`, the ring buffer of the dispatcher, as the queue its adds and
removes make of it. -/
namespace BenchmarkDispatcher

open Bits Journal Transition

variable {T : Type}

/-- `CircBuf`. An `int` has 32 bits; the array is read and written at indices that
are not negative. -/
structure CircBuf (T : Type) where
  size : BitVec 32
  data : Nat → T
  front : BitVec 32
  count : BitVec 32

namespace CircBuf

/-- The constructor. The cells of `new T[sz]` are those of a default value, and a
negative length is refused by `new`. -/
def make [Inhabited T] (sz : BitVec 32) : Except String (CircBuf T) :=
  if sz = 0 then .error "size cannot be zero"
  else if sz.slt 0 then .error "std::bad_array_new_length"
  else .ok { size := sz, data := fun _ => default, front := 0, count := 0 }

def empty (buf : CircBuf T) : Bool := buf.count == 0

def full (buf : CircBuf T) : Bool := buf.count == buf.size

/-- `getSize`, from an `int` to a `size_t`. -/
def getSize (buf : CircBuf T) : BitVec 64 := buf.count.signExtend 64

def getCurrentIndex (buf : CircBuf T) : BitVec 32 := (buf.front + buf.count) &&& (buf.size - 1)

/-- Whether there is room is for the caller to ask. -/
def add (buf : CircBuf T) (t : T) : Bool × CircBuf T :=
  let last := (buf.front + buf.count) &&& (buf.size - 1)
  (true, { buf with data := Function.update buf.data last.toNat t, count := buf.count + 1 })

def remove (buf : CircBuf T) : T × CircBuf T :=
  (buf.data buf.front.toNat,
    { buf with front := (buf.front + 1) &&& (buf.size - 1), count := buf.count - 1 })

end CircBuf

/-- A buffer with what was added to it, the cells the adds wrote, and what was
removed from it, all in the order of the calls. -/
structure Buffered (T : Type) where
  buf : CircBuf T
  added : List T
  written : List Nat
  removed : List T

inductive BufferCall (T : Type)
  | add (t : T)
  | remove

/-- An `add` is issued only when the buffer is not full, a `remove` only when it is
not empty. -/
def Buffered.next (s : Buffered T) : BufferCall T → Option (Buffered T)
  | .add t =>
      if s.buf.full then none
      else some { s with
        buf := (s.buf.add t).2
        added := s.added ++ [t]
        written := s.written ++ [s.buf.getCurrentIndex.toNat] }
  | .remove =>
      if s.buf.empty then none
      else some { s with
        buf := s.buf.remove.2
        removed := s.removed ++ [s.buf.remove.1] }

def bufferMachine (buf : CircBuf T) : Machine (Buffered T) (BufferCall T) where
  init := { buf := buf, added := [], written := [], removed := [] }
  next := Buffered.next

/-- The numbers of a buffer whose size is a power of two in the range of an `int`,
even twice. -/
structure CircBuf.Sized (buf : CircBuf T) : Prop where
  power : ∃ k ≤ 30, buf.size.toNat = 2 ^ k
  front_lt : buf.front.toNat < buf.size.toNat
  count_le : buf.count.toNat ≤ buf.size.toNat

namespace CircBuf.Sized

variable {buf : CircBuf T}

/-- The sizes are small enough for the sum of front and count not to overflow. -/
theorem size_le (h : buf.Sized) : buf.size.toNat ≤ 2 ^ 30 := by
  obtain ⟨k, hK, hSize⟩ := h.power
  rw [hSize]
  exact Nat.pow_le_pow_right Nat.two_pos hK

/-- The mask is a modulus. -/
theorem toNat_and_mask (h : buf.Sized) (index : BitVec 32) :
    (index &&& (buf.size - 1)).toNat = index.toNat % buf.size.toNat := by
  obtain ⟨k, _, hSize⟩ := h.power
  have hPos : 0 < 2 ^ k := Nat.two_pow_pos k
  have hMask : (buf.size - 1).toNat = 2 ^ k - 1 := by bv_omega
  rw [BitVec.toNat_and, hMask, hSize, Nat.and_two_pow_sub_one_eq_mod]

/-- The mask computes the remainder, as the size is a power of two. -/
theorem toNat_getCurrentIndex (h : buf.Sized) :
    buf.getCurrentIndex.toNat = (buf.front.toNat + buf.count.toNat) % buf.size.toNat := by
  have hSize := h.size_le
  have hFront := h.front_lt
  have hCount := h.count_le
  have hSum : (buf.front + buf.count).toNat = buf.front.toNat + buf.count.toNat := by bv_omega
  rw [getCurrentIndex, h.toNat_and_mask, hSum]

/-- The buffer is full when it holds as many elements as it has slots. -/
theorem full_iff : buf.full = true ↔ buf.count.toNat = buf.size.toNat := by
  rw [full, beq_iff_eq, BitVec.toNat_inj]

theorem empty_iff : buf.empty = true ↔ buf.count.toNat = 0 := by
  rw [empty, beq_iff_eq, ← BitVec.toNat_inj]
  rfl

/-- The size that is reported is the number of elements. -/
theorem toNat_getSize (h : buf.Sized) : buf.getSize.toNat = buf.count.toNat := by
  have hSize := h.size_le
  have hCount := h.count_le
  have hSign : buf.count.msb = false := by
    rw [BitVec.msb_eq_false_iff_two_mul_lt]
    omega
  rw [getSize, BitVec.signExtend_eq_setWidth_of_msb_false hSign, BitVec.toNat_setWidth]
  omega

/-- Adding to a buffer with room keeps its bounds. -/
theorem add (h : buf.Sized) (hRoom : buf.full = false) (t : T) : (buf.add t).2.Sized where
  power := h.power
  front_lt := h.front_lt
  count_le := by
    have hSize := h.size_le
    have hCount := h.count_le
    rw [← Bool.not_eq_true, full_iff] at hRoom
    show (buf.count + 1).toNat ≤ buf.size.toNat
    bv_omega

theorem remove (h : buf.Sized) (hSome : buf.empty = false) : buf.remove.2.Sized where
  power := h.power
  front_lt := by
    show ((buf.front + 1) &&& (buf.size - 1)).toNat < buf.size.toNat
    rw [h.toNat_and_mask]
    exact Nat.mod_lt _ (Nat.zero_lt_of_lt h.front_lt)
  count_le := by
    have hCount := h.count_le
    rw [← Bool.not_eq_true, empty_iff] at hSome
    show (buf.count - 1).toNat ≤ buf.size.toNat
    bv_omega

end CircBuf.Sized

/-- The entries of the ring are what was added and not yet removed, and they lie in
the cells their adds wrote. -/
structure Buffered.Fifo (s : Buffered T) : Prop where
  sized : s.buf.Sized
  added_eq : s.added = s.removed ++
    ring s.buf.size.toNat s.buf.front.toNat s.buf.count.toNat s.buf.data
  written_eq : ∃ left : List Nat, left.length = s.removed.length ∧
    s.written = left ++ ring s.buf.size.toNat s.buf.front.toNat s.buf.count.toNat id

namespace Buffered.Fifo

variable {s s' : Buffered T}

theorem add (h : s.Fifo) (hRoom : s.buf.full = false) (t : T) :
    Fifo { s with
      buf := (s.buf.add t).2
      added := s.added ++ [t]
      written := s.written ++ [s.buf.getCurrentIndex.toNat] } := by
  have hSized := h.sized
  have hLt : s.buf.count.toNat < s.buf.size.toNat := by
    rw [← Bool.not_eq_true, CircBuf.Sized.full_iff] at hRoom
    exact Nat.lt_of_le_of_ne hSized.count_le hRoom
  have hCell := hSized.toNat_getCurrentIndex
  have hCount : (s.buf.count + 1).toNat = s.buf.count.toNat + 1 := by
    have := hSized.size_le
    bv_omega
  refine ⟨hSized.add hRoom t, ?_, ?_⟩
  · show s.added ++ [t] = s.removed ++ ring s.buf.size.toNat s.buf.front.toNat
      (s.buf.count + 1).toNat (Function.update s.buf.data s.buf.getCurrentIndex.toNat t)
    rw [hCount, hCell, ring_push hLt, ← List.append_assoc, ← h.added_eq]
  · obtain ⟨left, hLeft, hWritten⟩ := h.written_eq
    refine ⟨left, hLeft, ?_⟩
    show s.written ++ [s.buf.getCurrentIndex.toNat] = left ++ ring s.buf.size.toNat
      s.buf.front.toNat (s.buf.count + 1).toNat id
    rw [hCount, hCell, ring_succ, ← List.append_assoc, ← hWritten]
    rfl

theorem remove (h : s.Fifo) (hSome : s.buf.empty = false) :
    Fifo { s with
      buf := s.buf.remove.2
      removed := s.removed ++ [s.buf.remove.1] } := by
  have hSized := h.sized
  have hPos : s.buf.count.toNat = (s.buf.count - 1).toNat + 1 := by
    rw [← Bool.not_eq_true, CircBuf.Sized.empty_iff] at hSome
    bv_omega
  have hFront : (s.buf.front + 1).toNat = s.buf.front.toNat + 1 := by
    have := hSized.size_le
    have := hSized.front_lt
    bv_omega
  have hHere : s.buf.front.toNat % s.buf.size.toNat = s.buf.front.toNat :=
    Nat.mod_eq_of_lt hSized.front_lt
  refine ⟨hSized.remove hSome, ?_, ?_⟩
  · show s.added = s.removed ++ [s.buf.data s.buf.front.toNat] ++
      ring s.buf.size.toNat ((s.buf.front + 1) &&& (s.buf.size - 1)).toNat
        (s.buf.count - 1).toNat s.buf.data
    rw [hSized.toNat_and_mask, ring_front_mod, hFront, h.added_eq, hPos, ring_pop, hHere,
      List.append_assoc, List.singleton_append]
  · obtain ⟨left, hLeft, hWritten⟩ := h.written_eq
    refine ⟨left ++ [s.buf.front.toNat], by simp [hLeft], ?_⟩
    show s.written = left ++ [s.buf.front.toNat] ++
      ring s.buf.size.toNat ((s.buf.front + 1) &&& (s.buf.size - 1)).toNat
        (s.buf.count - 1).toNat id
    rw [hSized.toNat_and_mask, ring_front_mod, hFront, hWritten, hPos, ring_pop, hHere,
      List.append_assoc, List.singleton_append]
    rfl

theorem next {c : BufferCall T} (h : s.Fifo) (hNext : s.next c = some s') : s'.Fifo := by
  cases c with
  | add t =>
      obtain ⟨hRoom, rfl⟩ : s.buf.full = false ∧ _ := by simpa [Buffered.next] using hNext
      exact h.add hRoom t
  | remove =>
      obtain ⟨hSome, rfl⟩ : s.buf.empty = false ∧ _ := by simpa [Buffered.next] using hNext
      exact h.remove hSome

end Buffered.Fifo

/-- A size in the range of an `int` comes from a `v` within the reach of the chain. -/
theorem upperPowerOfTwo_eq_two_pow {v : BitVec 64} (hPos : 1 ≤ v.toNat)
    (hSize : (upperPowerOfTwo v).toNat ≤ 2 ^ 30) (hNonzero : (upperPowerOfTwo v).toNat ≠ 0) :
    ∃ k ≤ 30, (upperPowerOfTwo v).toNat = 2 ^ k := by
  have hSpreads := spreads_shiftChain (v.toNat - 1)
  have hBelow : shiftChain (v.toNat - 1) < 2 ^ (v.toNat - 1).size := hSpreads.lt_two_pow_size
  have hWord : 2 ^ (v.toNat - 1).size ≤ 2 ^ 64 :=
    Nat.pow_le_pow_right Nat.two_pos (Nat.size_le.mpr (by omega))
  have hUpper := toNat_upperPowerOfTwo hPos
  have hSmall : (upperPowerOfTwo v).toNat = shiftChain (v.toNat - 1) + 1 := by omega
  have hFilled : v.toNat - 1 < 2 ^ 32 := by
    have := hSpreads.le (by decide)
    omega
  have hPower := hSpreads.add_one_eq_iff.mpr (dense_of_lt hFilled)
  refine ⟨(v.toNat - 1).size, ?_, hSmall.trans hPower⟩
  rw [← Nat.pow_le_pow_iff_right Nat.one_lt_two, ← hPower, ← hSmall]
  exact hSize

theorem CircBuf.make_ok [Inhabited T] {sz : BitVec 32} {buf : CircBuf T}
    (hMake : CircBuf.make sz = .ok buf) :
    sz ≠ 0 ∧ buf.size = sz ∧ buf.front = 0 ∧ buf.count = 0 := by
  unfold CircBuf.make at hMake
  split at hMake
  · cases hMake
  · rename_i hNonzero
    split at hMake
    · cases hMake
    · cases hMake
      exact ⟨hNonzero, rfl, rfl, rfl⟩

theorem Buffered.fifo_of_make [Inhabited T] {v : BitVec 64} (hPos : 1 ≤ v.toNat)
    (hSize : (upperPowerOfTwo v).toNat ≤ 2 ^ 30) {buf : CircBuf T}
    (hMake : CircBuf.make ((upperPowerOfTwo v).setWidth 32) = .ok buf) :
    (bufferMachine buf).init.Fifo := by
  obtain ⟨hNonzero, hSz, hFront, hCount⟩ := CircBuf.make_ok hMake
  have hNat : buf.size.toNat = (upperPowerOfTwo v).toNat := by
    rw [hSz, BitVec.toNat_setWidth]
    omega
  have hUpper : (upperPowerOfTwo v).toNat ≠ 0 := by
    intro hZero
    exact hNonzero (BitVec.eq_of_toNat_eq (by rw [← hSz, hNat, hZero]; rfl))
  obtain ⟨k, hK, hPower⟩ := upperPowerOfTwo_eq_two_pow hPos hSize hUpper
  have hSized : buf.Sized := by
    refine ⟨⟨k, hK, hNat.trans hPower⟩, ?_, ?_⟩
    · rw [hFront, hNat]
      exact Nat.pos_of_ne_zero hUpper
    · rw [hCount]
      exact Nat.zero_le _
  have hNothing : ∀ {α : Type} (data : Nat → α),
      ring buf.size.toNat buf.front.toNat buf.count.toNat data = [] := by
    intro α data
    rw [hCount]
    exact ring_zero
  exact ⟨hSized, (hNothing buf.data).symm, [], rfl, (hNothing id).symm⟩

namespace Buffered.Fifo

variable {s : Buffered T} (h : s.Fifo)
include h

theorem getSize_eq : s.buf.getSize.toNat = s.added.length - s.removed.length := by
  rw [h.sized.toNat_getSize, h.added_eq, List.length_append, ring_length, Nat.add_sub_cancel_left]

theorem written_length : s.written.length = s.added.length := by
  obtain ⟨left, hLeft, hWritten⟩ := h.written_eq
  rw [hWritten, h.added_eq, List.length_append, List.length_append, ring_length, ring_length, hLeft]

/-- An entry that is still there lies in the cell its add wrote, and the next add
writes another one. -/
theorem written_cell {k cell : Nat} (hLeft : s.removed.length ≤ k)
    (hCell : s.written[k]? = some cell) :
    s.added[k]? = some (s.buf.data cell) ∧
      (s.buf.full = false → cell ≠ s.buf.getCurrentIndex.toNat) := by
  obtain ⟨left, hLength, hWritten⟩ := h.written_eq
  have hBound : k - s.removed.length < s.buf.count.toNat := by
    obtain ⟨hLt, _⟩ := List.getElem?_eq_some_iff.mp hCell
    rw [hWritten, List.length_append, ring_length] at hLt
    omega
  rw [hWritten, List.getElem?_append_right (by omega), hLength, getElem?_ring hBound] at hCell
  have hHere : (s.buf.front.toNat + (k - s.removed.length)) % s.buf.size.toNat = cell :=
    Option.some_inj.mp hCell
  constructor
  · rw [h.added_eq, List.getElem?_append_right hLeft, getElem?_ring hBound, hHere]
  · intro hRoom
    have hLt : s.buf.count.toNat < s.buf.size.toNat := by
      rw [← Bool.not_eq_true, CircBuf.Sized.full_iff] at hRoom
      exact Nat.lt_of_le_of_ne h.sized.count_le hRoom
    rw [h.sized.toNat_getCurrentIndex, ← hHere]
    exact ring_cell_ne hBound (by omega)

end Buffered.Fifo

/-- A buffer of a rounded size is a queue: it gives out what it took in, in that
order, it counts what is left, and the next add writes at the current index, which
is no cell of an entry that is still there. -/
theorem circBuf_fifo [Inhabited T] {v : BitVec 64} (hPos : 1 ≤ v.toNat)
    (hSize : (upperPowerOfTwo v).toNat ≤ 2 ^ 30) {buf : CircBuf T}
    (hMake : CircBuf.make ((upperPowerOfTwo v).setWidth 32) = .ok buf)
    {visits : List (Buffered T × BufferCall T)} {s : Buffered T}
    (run : (bufferMachine buf).RunsTo visits s) :
    s.removed <+: s.added ∧ s.buf.getSize.toNat = s.added.length - s.removed.length ∧
      s.buf.getCurrentIndex.toNat < s.buf.size.toNat ∧
      (∀ t, (s.buf.add t).2.data =
        Function.update s.buf.data s.buf.getCurrentIndex.toNat t) ∧
      s.written.length = s.added.length ∧
      ∀ k cell, s.removed.length ≤ k → s.written[k]? = some cell →
        s.added[k]? = some (s.buf.data cell) ∧
          (s.buf.full = false → cell ≠ s.buf.getCurrentIndex.toNat) := by
  have hFifo : s.Fifo := run.invariant (Buffered.fifo_of_make hPos hSize hMake)
    fun _ _ _ hPrior hNext => hPrior.next hNext
  refine ⟨?_, hFifo.getSize_eq, ?_, fun _ => rfl, hFifo.written_length, ?_⟩
  · rw [hFifo.added_eq]
    exact List.prefix_append _ _
  · rw [hFifo.sized.toNat_getCurrentIndex]
    exact Nat.mod_lt _ (Nat.zero_lt_of_lt hFifo.sized.front_lt)
  · exact fun _ _ => hFifo.written_cell

/-- Three adds into two cells, the last of them around the end. -/
theorem circBuf_fifo_wrapped :
    ∃ (buf : CircBuf Nat) (visits : List (Buffered Nat × BufferCall Nat)) (s : Buffered Nat),
      CircBuf.make ((upperPowerOfTwo 2).setWidth 32) = .ok buf ∧
      (bufferMachine buf).RunsTo visits s ∧ s.added = [7, 8, 9] ∧ s.written = [0, 1, 0] ∧
      s.removed = [7] ∧ s.removed <+: s.added ∧
      s.buf.getSize.toNat = s.added.length - s.removed.length := by
  refine ⟨_, _, _, rfl,
    Machine.runsTo_of_replay [.add 7, .add 8, .remove, .add 9] rfl, rfl, rfl, rfl, ?_⟩
  have hFifo := circBuf_fifo (v := 2) (by decide) (by decide) rfl
    (Machine.runsTo_of_replay [.add (7 : Nat), .add 8, .remove, .add 9] rfl)
  exact ⟨hFifo.1, hFifo.2.1⟩

end BenchmarkDispatcher
