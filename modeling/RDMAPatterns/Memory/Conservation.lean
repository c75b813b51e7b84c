import RDMAPatterns.Memory.Safety

/-! Where the bytes go. Allocations and frees that return keep the combined
size of live and free blocks; a free that throws loses its block for good.
The loop of `internalFree` returns exactly when the list has a place. -/
namespace BaseRDMA

open Extents Transition

theorem freeScan_isSome_iff (offset : Nat) (block : RdmaMem) (lastOffset : Nat)
    (before list : List RdmaMem) :
    (freeScan offset block lastOffset before list).isSome ↔ SlotIn offset lastOffset list := by
  induction list generalizing lastOffset before with
  | nil => simp [freeScan, SlotIn]
  | cons memRes rest ih =>
      by_cases hHere : lastOffset ≤ offset ∧ offset < memRes.offset
      · simp [freeScan, SlotIn, hHere]
      · rw [freeScan, if_neg hHere, ih, SlotIn, or_iff_right hHere]

/-- `internalFree` returns if and only if the free list has a place for the
offset. The block itself plays no part. -/
theorem freesNormally_iff (m : Memory) (offset : Nat) :
    FreesNormally m offset ↔ HasSlot m offset := by
  obtain ⟨list, used⟩ := m
  cases list with
  | nil => simp [FreesNormally, internalFree, HasSlot]
  | cons memRes rest =>
      have hScan := freeScan_isSome_iff offset (memResFree used offset) 0 [] (memRes :: rest)
      cases hFound : freeScan offset (memResFree used offset) 0 [] (memRes :: rest) with
      | some merged => simpa [FreesNormally, internalFree, HasSlot, hFound] using hScan
      | none => simpa [FreesNormally, internalFree, HasSlot, hFound] using hScan

theorem totalSize_eq (m : Memory) :
    m.totalSize = total (extentsOf m.liveBlocks) + total (extentsOf m.rdmaMem) := by
  have hSum (list : List RdmaMem) : total (extentsOf list) = (list.map RdmaMem.size).sum := by
    simp [total, extentsOf, Function.comp_def]
  simp [Memory.totalSize, hSum]

theorem total_live_erase {m : Memory} {offset : Nat} {block : RdmaMem}
    (hLookup : m.usedRdmaMem.lookup offset = some block) :
    total (extentsOf m.liveBlocks) =
      block.size + total (extentsOf (blocks (m.usedRdmaMem.erase offset))) := by
  have hPerm := (blocks_perm_of_lookup hLookup).map RdmaMem.extent
  exact (Recut.perm hPerm).total_eq

section Steps

variable {memSize : Nat} (hSize : memSize < 2 ^ 64) {m : Memory} (h : Sound memSize m)

include hSize h

/-- Under a fresh key nothing is overwritten, so the split keeps the total. -/
theorem internalAlloc_total (hLive : LiveNonempty m) {size : Nat} (hPos : 1 ≤ size) :
    (internalAlloc m size).2.totalSize = m.totalSize := by
  rcases internalAlloc_cases hSize h size with ⟨_, hNone⟩ | ⟨block, left, hSome, hScan, _, hRecut, _⟩
  · rw [hNone]
  · have hFresh := allocScan_fresh hSize h hLive hPos hScan
    have hErase := erase_of_lookup_none (AList.lookup_eq_none.mpr hFresh)
    have hTotal := hRecut.total_eq
    simp only [hSome, totalSize_eq, Memory.liveBlocks, blocks_insert, hErase, extentsOf_cons,
      total_cons] at hTotal ⊢
    omega

/-- A free of a live block that returns moves its bytes to the free list. -/
theorem internalFree_total {offset : Nat} (hLive : offset ∈ m.usedRdmaMem)
    (hReturns : FreesNormally m offset) : (internalFree m offset).2.totalSize = m.totalSize := by
  obtain ⟨block, hLookup⟩ := Option.isSome_iff_exists.mp (AList.lookup_isSome.mpr hLive)
  rcases internalFree_cases hSize h offset with ⟨_, merged, hState, hRecut, _⟩ | ⟨hThrows, _⟩
  · have hMoved := hRecut.total_eq
    have hTaken := total_live_erase hLookup
    simp only [hState, totalSize_eq, Memory.liveBlocks, extentsOf_cons, total_cons,
      memResFree_of_lookup hLookup] at hMoved hTaken ⊢
    omega
  · exact absurd hReturns hThrows

end Steps

/-- If the recorded step is an `internalFree`, its state and offset satisfy `P`. -/
def FreeMeets (P : Memory → Nat → Prop) (visit : Memory × MemoryOp) : Prop :=
  match visit.2 with
  | .internalAlloc _ => True
  | .internalFree offset => P visit.1 offset

instance (P : Memory → Nat → Prop) [∀ m offset, Decidable (P m offset)]
    (visit : Memory × MemoryOp) : Decidable (FreeMeets P visit) :=
  match visit with
  | (_, .internalAlloc _) => .isTrue trivial
  | (m, .internalFree offset) => inferInstanceAs (Decidable (P m offset))

/-- Each `internalFree` of a run satisfied `P` in the state it was called in. -/
def EveryFree (P : Memory → Nat → Prop) (visits : List (Memory × MemoryOp)) : Prop :=
  ∀ visit ∈ visits, FreeMeets P visit

instance (P : Memory → Nat → Prop) [∀ m offset, Decidable (P m offset)]
    (visits : List (Memory × MemoryOp)) : Decidable (EveryFree P visits) :=
  inferInstanceAs (Decidable (∀ visit ∈ visits, FreeMeets P visit))

/-- No free of the run threw, and no state of it misses a byte. -/
def KeepsMemory (memSize : Nat) (visits : List (Memory × MemoryOp)) (m : Memory) : Prop :=
  EveryFree FreesNormally visits ∧ (∀ visit ∈ visits, visit.1.totalSize = memSize) ∧
    m.totalSize = memSize

theorem totalSize_initial (memSize : Nat) : (Memory.initial memSize).totalSize = memSize := by
  simp [Memory.totalSize, Memory.initial, Memory.liveBlocks, blocks, RdmaMem.make]

/-- While every free finds a place, the total is the buffer size. -/
theorem totalSize_of_slots {memSize : Nat} (hSize : memSize < 2 ^ 64)
    {visits : List (Memory × MemoryOp)} {m : Memory}
    (run : (memoryMachine memSize).RunsTo visits m) (hSlots : EveryFree HasSlot visits) :
    m.totalSize = memSize := by
  induction run with
  | zero => exact totalSize_initial memSize
  | @succ visits s t op prior last ih =>
      have hPrior := ih fun visit hVisit => hSlots visit (List.mem_append_left _ hVisit)
      obtain ⟨hSound, hLive⟩ := reachable_liveNonempty hSize ⟨visits, prior⟩
      obtain ⟨hProper, rfl⟩ := memoryMachine_next last
      rw [← hPrior]
      cases op with
      | internalAlloc size => exact internalAlloc_total hSize hSound hLive hProper
      | internalFree offset =>
          have hSlot : HasSlot s offset := hSlots (s, .internalFree offset) (by simp)
          exact internalFree_total hSize hSound hProper ((freesNormally_iff s offset).mpr hSlot)

/-- A run keeps all memory if and only if each of its frees found a place on
the list. From the end of such a run a live block can be given back exactly
when there is a place for it, and then nothing is lost either. -/
theorem keepsMemory_iff {memSize : Nat} (hSize : memSize < 2 ^ 64)
    {visits : List (Memory × MemoryOp)} {m : Memory}
    (run : (memoryMachine memSize).RunsTo visits m) :
    (KeepsMemory memSize visits m ↔ EveryFree HasSlot visits) ∧
      (EveryFree HasSlot visits → ∀ offset ∈ m.usedRdmaMem,
        (FreesNormally m offset ∧ (internalFree m offset).2.totalSize = memSize ↔
          HasSlot m offset)) := by
  have hSame : FreesNormally = HasSlot := by
    funext m offset
    exact propext (freesNormally_iff m offset)
  constructor
  · rw [KeepsMemory, hSame]
    refine ⟨And.left, fun hSlots => ⟨hSlots, ?_, totalSize_of_slots hSize run hSlots⟩⟩
    intro visit hVisit
    obtain ⟨before, after, hSplit, hPrefix⟩ := run.visit_split hVisit
    apply totalSize_of_slots hSize hPrefix
    intro earlier hEarlier
    exact hSlots earlier (by simp [hSplit, hEarlier])
  · intro hSlots offset hOffset
    rw [← freesNormally_iff]
    refine ⟨And.left, fun hReturns => ⟨hReturns, ?_⟩⟩
    have hSound := (reachable_liveNonempty hSize ⟨visits, run⟩).1
    rw [internalFree_total hSize hSound hOffset hReturns, totalSize_of_slots hSize run hSlots]

/-- Blocks given back in an order that finds a place each time. -/
def returningOps : List MemoryOp :=
  [.internalAlloc 2, .internalAlloc 2, .internalFree 2, .internalFree 0]

theorem keepsMemory_returning :
    KeepsMemory 4 ((memoryMachine 4).record (Memory.initial 4) returningOps)
      (Memory.initial 4) :=
  (keepsMemory_iff (by decide) (@Machine.runsTo_of_replay _ _ (memoryMachine 4) _
    returningOps rfl)).1.mpr (by decide)

/-- Two blocks fill the buffer and are given back in allocation order. The
second one has no free entry behind it, so `internalFree` throws and its
byte is in neither container any more. -/
theorem internalFree_loses_last_block :
    ∃ m, (memoryMachine 2).Reachable m ∧ 1 ∈ m.usedRdmaMem ∧
      (internalFree m 1).1 = .error didNotFree ∧ (internalFree m 1).2.totalSize = 1 :=
  ⟨_, @Machine.reachable_of_replay _ _ (memoryMachine 2) _
    [.internalAlloc 1, .internalAlloc 1, .internalFree 0] rfl, by decide, rfl, rfl⟩

end BaseRDMA
