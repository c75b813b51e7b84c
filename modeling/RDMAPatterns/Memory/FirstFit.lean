import RDMAPatterns.Memory.Coalescing

/-! What the allocator promises over an ordered and coalesced free list: it finds
the lowest free run that is long enough, gives back exactly the bytes of a block,
and does not depend on the order of the frees. -/
namespace BaseRDMA

open Extents Transition

section Answers

variable {memSize : Nat} (hSize : memSize < 2 ^ 64) {m : Memory} (h : Sound memSize m)

include h in
/-- First fit finds nothing exactly if no entry is long enough. -/
theorem allocScan_eq_none_iff (size : Nat) :
    allocScan size m.rdmaMem = none ↔ ∀ e ∈ m.rdmaMem, e.size < size := by
  rw [allocScan_none_iff, List.find?_eq_none]
  constructor
  · intro hNone e hMem
    have hUnfit := hNone e hMem
    rw [h.allFree e hMem] at hUnfit
    simpa using hUnfit
  · intro hShort e hMem
    simp [hShort e hMem]

include hSize h in
theorem internalAlloc_null_iff (hTidy : Tidy memSize m) {size : Nat} (hPos : 1 ≤ size) :
    internalAlloc m size = (RdmaMem.null, m) ↔ ¬HasRun m.freeBytes size := by
  have hEnough : HasRun m.freeBytes size ↔ ∃ e ∈ m.rdmaMem, size ≤ e.size := by
    simpa [extentsOf, Memory.freeBytes] using
      ((ordered_iff m.rdmaMem).mp hTidy.ordered).hasRun_iff hPos
  have hScan : internalAlloc m size = (RdmaMem.null, m) ↔ allocScan size m.rdmaMem = none := by
    rcases internalAlloc_cases hSize h size with ⟨hNone, hNull⟩ | ⟨block, left, hSome, hFound, _⟩
    · exact iff_of_true hNull hNone
    · obtain ⟨e, _, hBlock⟩ := allocScan_some_find size m.rdmaMem left block hFound
      have hNotNull : internalAlloc m size ≠ (RdmaMem.null, m) := by
        rw [hSome, hBlock]
        intro hEq
        have hFlag : false = true := congrArg RdmaMem.isnull (Prod.mk.inj hEq).1
        exact Bool.false_ne_true hFlag
      exact iff_of_false hNotNull (by rw [hFound]; intro hEq; cases hEq)
  rw [hScan, allocScan_eq_none_iff h, hEnough, not_exists]
  simp only [not_and, Nat.not_le]

include hSize h in
theorem internalAlloc_lowest (hTidy : Tidy memSize m) {size : Nat} (hPos : 1 ≤ size)
    (hRun : HasRun m.freeBytes size) :
    (internalAlloc m size).1.isnull = false ∧
      LowestRun m.freeBytes size (internalAlloc m size).1.offset := by
  rcases internalAlloc_cases hSize h size with ⟨_, hNull⟩ | ⟨block, left, hSome, hFound, _⟩
  · exact absurd hRun ((internalAlloc_null_iff hSize h hTidy hPos).mp hNull)
  · obtain ⟨e, hFind, hBlock⟩ := allocScan_some_find size m.rdmaMem left block hFound
    obtain ⟨hFits, before, after, hSplit, hUnfit⟩ := List.find?_eq_some_iff_append.mp hFind
    have hLong : size ≤ e.size := by
      rw [Bool.and_eq_true, decide_eq_true_eq] at hFits
      exact hFits.2
    have hShort : ∀ f ∈ extentsOf before, f.length < size := by
      intro f hMem
      obtain ⟨b, hB, rfl⟩ := List.mem_map.mp hMem
      have hFree : b.free = true := h.allFree b (by rw [hSplit]; exact List.mem_append_left _ hB)
      have hNot := hUnfit b hB
      rw [hFree] at hNot
      simpa using hNot
    have hCoalesced := (ordered_iff m.rdmaMem).mp hTidy.ordered
    rw [hSplit, extentsOf_append, extentsOf_cons] at hCoalesced
    have hLowest := hCoalesced.lowestRun hPos hLong hShort
    rw [hSome, hBlock]
    refine ⟨rfl, ?_⟩
    show LowestRun (covered (extentsOf m.rdmaMem)) size e.offset
    rw [hSplit, extentsOf_append, extentsOf_cons]
    exact hLowest

include hSize h in
/-- A free of a live block that returns adds the bytes of the block. -/
theorem internalFree_freeBytes {offset : Nat} {block : RdmaMem}
    (hLookup : m.usedRdmaMem.lookup offset = some block) (hReturns : FreesNormally m offset) :
    (internalFree m offset).2.freeBytes = block.extent.bytes ∪ m.freeBytes ∧
      Disjoint block.extent.bytes m.freeBytes := by
  rcases internalFree_cases hSize h offset with ⟨_, merged, hState, hRecut, _⟩ | ⟨hThrows, _⟩
  · rw [hState, Memory.freeBytes]
    refine ⟨?_, ?_⟩
    · have hCovered := hRecut.covered_eq
      rw [memResFree_of_lookup hLookup] at hCovered
      exact hCovered.symm
    · rw [Finset.disjoint_left]
      intro x hBlock hFree
      have hPacked := (packed_memResFree h offset).sublist
        (((List.sublist_append_right _ _).cons_cons _).map _)
      rw [memResFree_of_lookup hLookup] at hPacked
      exact Packed.notMem_covered hPacked hBlock hFree
  · exact absurd hReturns hThrows

end Answers

/-- Free entries with the same ranges are the same entries. -/
theorem eq_of_extentsOf_eq {list other : List RdmaMem} (hFree : AllFree list)
    (hOtherFree : AllFree other) (hPlain : ∀ e ∈ list, e.Plain) (hOtherPlain : ∀ e ∈ other, e.Plain)
    (hSame : extentsOf list = extentsOf other) : list = other := by
  induction list generalizing other with
  | nil =>
      cases other with
      | nil => rfl
      | cons f rest => cases hSame
  | cons e list ih =>
      cases other with
      | nil => cases hSame
      | cons f rest =>
          obtain ⟨hHead, hTail⟩ := List.cons.inj hSame
          obtain ⟨hFreeE, hFreeList⟩ := allFree_cons.mp hFree
          obtain ⟨hFreeF, hFreeRest⟩ := allFree_cons.mp hOtherFree
          obtain ⟨hPlainE, hPlainList⟩ := List.forall_mem_cons.mp hPlain
          obtain ⟨hPlainF, hPlainRest⟩ := List.forall_mem_cons.mp hOtherPlain
          have hEq : e = f := by
            obtain ⟨size, free, offset, isnull⟩ := e
            obtain ⟨size', free', offset', isnull'⟩ := f
            obtain ⟨rfl, rfl⟩ : offset = offset' ∧ size = size' := by
              simpa [RdmaMem.extent] using hHead
            obtain rfl : free = true := hFreeE
            obtain rfl : free' = true := hFreeF
            obtain rfl : isnull = false := hPlainE.notNull
            obtain rfl : isnull' = false := hPlainF.notNull
            rfl
          rw [hEq, ih hFreeList hFreeRest hPlainList hPlainRest hTail]

/-- What one step of the machine preserves, for a free that took exact sums. -/
structure Kept (memSize : Nat) (m : Memory) : Prop where
  sound : Sound memSize m
  live : LiveNonempty m
  tidy : Tidy memSize m

theorem Kept.internalFree {memSize : Nat} (hSize : memSize < 2 ^ 64) {m : Memory}
    (h : Kept memSize m) {offset : Nat} (hOffset : offset ∈ m.usedRdmaMem)
    (hExact : SumsExact offset 0 m.rdmaMem) : Kept memSize (internalFree m offset).2 where
  sound := internalFree_sound hSize h.sound offset
  live := apply_liveNonempty hSize h.sound h.live
    (show MemoryOp.Proper m (.internalFree offset) from hOffset)
  tidy := internalFree_tidy hSize h.sound h.tidy h.live hOffset hExact

/-- Over the same bytes there is only one free list. -/
theorem Kept.rdmaMem_eq {memSize : Nat} {m other : Memory} (h : Kept memSize m)
    (hOther : Kept memSize other) (hPos : 1 ≤ memSize) (hBytes : m.freeBytes = other.freeBytes) :
    m.rdmaMem = other.rdmaMem := by
  have hPlain := h.tidy.plain hPos
  have hOtherPlain := hOther.tidy.plain hPos
  apply eq_of_extentsOf_eq h.sound.allFree hOther.sound.allFree hPlain hOtherPlain
  apply Coalesced.eq_of_covered_eq
  · exact (ordered_iff _).mp h.tidy.ordered
  · exact (ordered_iff _).mp hOther.tidy.ordered
  · intro e hMem
    obtain ⟨b, hB, rfl⟩ := List.mem_map.mp hMem
    exact (hPlain b hB).nonempty
  · intro e hMem
    obtain ⟨b, hB, rfl⟩ := List.mem_map.mp hMem
    exact (hOtherPlain b hB).nonempty
  · exact hBytes

/-- Freeing two live blocks, in this order, takes exact sums and returns twice. -/
def FreesBoth (m : Memory) (first second : Nat) : Prop :=
  (SumsExact first 0 m.rdmaMem ∧ FreesNormally m first) ∧
    SumsExact second 0 (internalFree m first).2.rdmaMem ∧
    FreesNormally (internalFree m first).2 second

section Commuting

variable {memSize : Nat} (hSize : memSize < 2 ^ 64) {m : Memory} (h : Kept memSize m)

include hSize h

/-- The bytes after two frees, whichever comes first. -/
theorem freesBoth_freeBytes {first second : Nat} (hNe : second ≠ first) {block other : RdmaMem}
    (hFirst : m.usedRdmaMem.lookup first = some block)
    (hSecond : m.usedRdmaMem.lookup second = some other) (hBoth : FreesBoth m first second) :
    Kept memSize (internalFree (internalFree m first).2 second).2 ∧
      (internalFree (internalFree m first).2 second).2.freeBytes =
        other.extent.bytes ∪ (block.extent.bytes ∪ m.freeBytes) := by
  obtain ⟨⟨hExact, hReturns⟩, hExactSecond, hReturnsSecond⟩ := hBoth
  have hUsed := internalFree_used m first
  have hStill : (internalFree m first).2.usedRdmaMem.lookup second = some other := by
    rw [hUsed, AList.lookup_erase_ne hNe]
    exact hSecond
  have hKept := h.internalFree hSize (AList.lookup_isSome.mp (by rw [hFirst]; rfl)) hExact
  refine ⟨hKept.internalFree hSize (AList.lookup_isSome.mp (by rw [hStill]; rfl)) hExactSecond, ?_⟩
  rw [(internalFree_freeBytes hSize hKept.sound hStill hReturnsSecond).1,
    (internalFree_freeBytes hSize h.sound hFirst hReturns).1]

theorem internalFree_comm {first second : Nat} (hNe : second ≠ first)
    (hFirst : first ∈ m.usedRdmaMem) (hSecond : second ∈ m.usedRdmaMem)
    (hBoth : FreesBoth m first second) (hOther : FreesBoth m second first) :
    (internalFree (internalFree m first).2 second).2.rdmaMem =
      (internalFree (internalFree m second).2 first).2.rdmaMem := by
  obtain ⟨block, hBlock⟩ := Option.isSome_iff_exists.mp (AList.lookup_isSome.mpr hFirst)
  obtain ⟨other, hOtherBlock⟩ := Option.isSome_iff_exists.mp (AList.lookup_isSome.mpr hSecond)
  obtain ⟨hKept, hBytes⟩ := freesBoth_freeBytes hSize h hNe hBlock hOtherBlock hBoth
  obtain ⟨hKeptOther, hBytesOther⟩ :=
    freesBoth_freeBytes hSize h hNe.symm hOtherBlock hBlock hOther
  apply hKept.rdmaMem_eq hKeptOther (one_le_memSize h.sound h.live hFirst)
  rw [hBytes, hBytesOther, Finset.union_left_comm]

end Commuting

/-- First fit over a coalesced free list, in every state that proper callers reach
while the offset sums are exact. -/
theorem first_fit_coalesced {memSize : Nat} (hSize : memSize < 2 ^ 64)
    {visits : List (Memory × MemoryOp)} {m : Memory}
    (run : (memoryMachine memSize).RunsTo visits m)
    (hExact : EveryFree (fun m offset => SumsExact offset 0 m.rdmaMem) visits) :
    m.rdmaMem.Pairwise (fun e f => e.offset < f.offset ∧ e.offset + e.size < f.offset) ∧
    (∀ size, 1 ≤ size →
      (internalAlloc m size = (RdmaMem.null, m) ↔ ¬HasRun m.freeBytes size) ∧
      (HasRun m.freeBytes size → (internalAlloc m size).1.isnull = false ∧
        LowestRun m.freeBytes size (internalAlloc m size).1.offset)) ∧
    (∀ offset block, m.usedRdmaMem.lookup offset = some block → FreesNormally m offset →
      (internalFree m offset).2.freeBytes = block.extent.bytes ∪ m.freeBytes ∧
        Disjoint block.extent.bytes m.freeBytes) ∧
    ∀ first ∈ m.usedRdmaMem, ∀ second ∈ m.usedRdmaMem, second ≠ first →
      FreesBoth m first second → FreesBoth m second first →
      (internalFree (internalFree m first).2 second).2.rdmaMem =
        (internalFree (internalFree m second).2 first).2.rdmaMem := by
  obtain ⟨hSound, hLive⟩ := reachable_liveNonempty hSize ⟨visits, run⟩
  have hTidy := run_tidy hSize run hExact
  refine ⟨?_, ?_, ?_, ?_⟩
  · apply hTidy.ordered.imp
    intro e f hGap
    exact ⟨(Nat.le_add_right _ _).trans_lt hGap, hGap⟩
  · intro size hPos
    exact ⟨internalAlloc_null_iff hSize hSound hTidy hPos,
      internalAlloc_lowest hSize hSound hTidy hPos⟩
  · intro offset block hLookup hReturns
    exact internalFree_freeBytes hSize hSound hLookup hReturns
  · intro first hFirst second hSecond hNe hBoth hOther
    exact internalFree_comm hSize ⟨hSound, hLive, hTidy⟩ hNe hFirst hSecond hBoth hOther

/-- Three blocks, of which the second is given back. -/
def threeBlocks : List MemoryOp :=
  [.internalAlloc 2, .internalAlloc 3, .internalAlloc 1, .internalFree 2]

theorem first_fit_coalesced_threeBlocks :
    ∃ m, (memoryMachine 8).Reachable m ∧ m.rdmaMem.length = 2 ∧
      (internalFree (internalFree m 0).2 5).2.rdmaMem =
        (internalFree (internalFree m 5).2 0).2.rdmaMem := by
  have hReplay : (memoryMachine 8).replay (memoryMachine 8).init threeBlocks = some _ := rfl
  have run := Machine.runsTo_of_replay threeBlocks hReplay
  have hFirstFit := first_fit_coalesced (by decide) run (by decide)
  refine ⟨_, ⟨_, run⟩, rfl, ?_⟩
  exact hFirstFit.2.2.2 0 (by decide) 5 (by decide) (by decide)
    ⟨⟨by decide, rfl⟩, by decide, rfl⟩ ⟨⟨by decide, rfl⟩, by decide, rfl⟩

end BaseRDMA
