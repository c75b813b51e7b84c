import Mathlib.Data.List.AList
import RDMAPatterns.Extents.Recut

/-! The memory management of `BaseRDMA`: a linked free list searched first
fit, a map of the blocks handed out, and coalescing on free. Arithmetic on
`size_t` is taken modulo `2 ^ 64`. -/
namespace BaseRDMA

open Extents

/-- A `size_t` sum, as the 64-bit machine computes it. -/
def sizeT (n : Nat) : Nat := n % 2 ^ 64

theorem sizeT_of_lt {n : Nat} (h : n < 2 ^ 64) : sizeT n = n := Nat.mod_eq_of_lt h

/-- `rdma_mem_t`. -/
structure RdmaMem where
  size : Nat
  free : Bool
  offset : Nat
  isnull : Bool
deriving DecidableEq, Repr

namespace RdmaMem

/-- The three-argument constructor. -/
def make (initSize : Nat) (initFree : Bool) (initOffset : Nat) : RdmaMem :=
  { size := initSize, free := initFree, offset := initOffset, isnull := false }

/-- The default constructor. -/
def null : RdmaMem := { size := 0, free := false, offset := 0, isnull := true }

def extent (b : RdmaMem) : Extent := ⟨b.offset, b.size⟩

@[simp] theorem extent_make (size : Nat) (free : Bool) (offset : Nat) :
    (make size free offset).extent = ⟨offset, size⟩ := rfl

@[simp] theorem extent_start (b : RdmaMem) : b.extent.start = b.offset := rfl

@[simp] theorem extent_length (b : RdmaMem) : b.extent.length = b.size := rfl

@[simp] theorem extent_stop (b : RdmaMem) : b.extent.stop = b.offset + b.size := rfl

end RdmaMem

/-- `unordered_map<size_t, rdma_mem_t>`. -/
abbrev UsedMem := AList (fun _ : Nat => RdmaMem)

/-- The two members the allocator works on. -/
structure Memory where
  rdmaMem : List RdmaMem
  usedRdmaMem : UsedMem
deriving DecidableEq

/-- The state the constructor leaves. -/
def Memory.initial (memSize : Nat) : Memory :=
  { rdmaMem := [RdmaMem.make memSize true 0], usedRdmaMem := ∅ }

/-- A `std::list` iterator: the elements before it, last first, and the
elements from it on. An empty `rest` is `end()`. -/
structure Cursor where
  before : List RdmaMem
  rest : List RdmaMem
deriving DecidableEq, Repr

def Cursor.toList (iter : Cursor) : List RdmaMem := iter.before.reverse ++ iter.rest

/-- The first half of `mergeFreeMem`: grow the previous element over the
handed-in one where they touch. Returns the iterator and `freeSpace`. -/
def mergePrev (iter : Cursor) : Cursor × Nat :=
  match iter.rest, iter.before with
  | el :: after, prev :: before =>
      if sizeT (prev.offset + prev.size) = el.offset then
        let freeSpace := sizeT (el.size + prev.size)
        (⟨before, { prev with size := freeSpace } :: after⟩, freeSpace)
      else (iter, el.size)
  | el :: _, [] => (iter, el.size)
  | [], _ => (iter, 0)

/-- The second half: swallow the following element where it starts at `stop`. -/
def mergeNext (iter : Cursor) (freeSpace stop : Nat) : Cursor :=
  match iter.rest with
  | cur :: next :: after =>
      if stop = next.offset then
        { iter with rest := { cur with size := sizeT (freeSpace + next.size) } :: after }
      else iter
  | _ => iter

/-- `BaseRDMA::mergeFreeMem`. `offset` and `size` keep the handed-in values. -/
def mergeFreeMem (iter : Cursor) : Cursor :=
  match iter.rest with
  | [] => iter
  | el :: _ =>
      let (moved, freeSpace) := mergePrev iter
      mergeNext moved freeSpace (sizeT (el.offset + el.size))

/-- The loop of `internalFree`: `lastOffset` accumulates the offsets passed.
`none` when the loop runs off the end of the list. -/
def freeScan (offset : Nat) (memResFree : RdmaMem) (lastOffset : Nat) (before : List RdmaMem) :
    List RdmaMem → Option (List RdmaMem)
  | [] => none
  | memRes :: rest =>
      if lastOffset ≤ offset ∧ offset < memRes.offset then
        some (mergeFreeMem ⟨before, memResFree :: memRes :: rest⟩).toList
      else freeScan offset memResFree (sizeT (lastOffset + memRes.offset)) (memRes :: before) rest

def didNotFree : String := "Did not free any internal memory!"

/-- `m_usedRdmaMem[offset]`, marked free. `operator[]` default-inserts. -/
def memResFree (used : UsedMem) (offset : Nat) : RdmaMem :=
  { (used.lookup offset).getD RdmaMem.null with free := true }

/-- `BaseRDMA::internalFree`. The map entry is read and erased before the
list is searched; a throw keeps that change. -/
def internalFree (m : Memory) (offset : Nat) : Except String Unit × Memory :=
  let used := m.usedRdmaMem.erase offset
  match m.rdmaMem with
  | [] => (.ok (), ⟨[memResFree m.usedRdmaMem offset], used⟩)
  | list =>
      match freeScan offset (memResFree m.usedRdmaMem offset) 0 [] list with
      | some merged => (.ok (), ⟨merged, used⟩)
      | none => (.error didNotFree, ⟨list, used⟩)

/-- The map loses the entry, whether the call returns or throws. -/
theorem internalFree_used (m : Memory) (offset : Nat) :
    (internalFree m offset).2.usedRdmaMem = m.usedRdmaMem.erase offset := by
  unfold internalFree
  split
  · rfl
  · split <;> rfl

/-- The loop of `internalAlloc`: the block handed out and the list left. -/
def allocScan (size : Nat) : List RdmaMem → Option (RdmaMem × List RdmaMem)
  | [] => none
  | memRes :: rest =>
      if memRes.free = true ∧ size ≤ memRes.size then
        let memResUsed := RdmaMem.make size false memRes.offset
        if size < memRes.size then
          some (memResUsed,
            RdmaMem.make (memRes.size - size) true (sizeT (memRes.offset + size)) :: rest)
        else some (memResUsed, rest)
      else (allocScan size rest).map fun found => (found.1, memRes :: found.2)

/-- `BaseRDMA::internalAlloc`. -/
def internalAlloc (m : Memory) (size : Nat) : RdmaMem × Memory :=
  match allocScan size m.rdmaMem with
  | some (memResUsed, list) =>
      (memResUsed, ⟨list, m.usedRdmaMem.insert memResUsed.offset memResUsed⟩)
  | none => (RdmaMem.null, m)

/-- The values of the map. -/
def blocks (used : UsedMem) : List RdmaMem := used.entries.map Sigma.snd

/-- The blocks in `m_usedRdmaMem`. -/
def Memory.liveBlocks (m : Memory) : List RdmaMem := blocks m.usedRdmaMem

/-- The bytes on the free list. -/
def Memory.freeBytes (m : Memory) : Finset Nat := covered (m.rdmaMem.map RdmaMem.extent)

/-- The combined size of the live blocks and of the free list. -/
def Memory.totalSize (m : Memory) : Nat :=
  (m.liveBlocks.map RdmaMem.size).sum + (m.rdmaMem.map RdmaMem.size).sum

/-- `internalFree` returned instead of throwing. -/
def FreesNormally (m : Memory) (offset : Nat) : Prop := (internalFree m offset).1 = .ok ()

instance (m : Memory) (offset : Nat) : Decidable (FreesNormally m offset) :=
  match h : (internalFree m offset).1 with
  | .ok () => .isTrue h
  | .error _ => .isFalse (by simp [FreesNormally, h])

/-- Some entry lies behind the block, and the offsets of the entries before
it, summed up in 64 bits, do not exceed the block's offset. -/
def SlotIn (offset lastOffset : Nat) : List RdmaMem → Prop
  | [] => False
  | memRes :: rest =>
      (lastOffset ≤ offset ∧ offset < memRes.offset) ∨
        SlotIn offset (sizeT (lastOffset + memRes.offset)) rest

instance decidableSlotIn (offset : Nat) :
    (lastOffset : Nat) → (list : List RdmaMem) → Decidable (SlotIn offset lastOffset list)
  | _, [] => .isFalse id
  | lastOffset, memRes :: rest =>
      have : Decidable (SlotIn offset (sizeT (lastOffset + memRes.offset)) rest) :=
        decidableSlotIn offset _ rest
      inferInstanceAs (Decidable (_ ∨ _))

/-- The free list has a place for a block at `offset`. -/
def HasSlot (m : Memory) (offset : Nat) : Prop := m.rdmaMem = [] ∨ SlotIn offset 0 m.rdmaMem

instance (m : Memory) (offset : Nat) : Decidable (HasSlot m offset) :=
  inferInstanceAs (Decidable (_ ∨ _))

end BaseRDMA
