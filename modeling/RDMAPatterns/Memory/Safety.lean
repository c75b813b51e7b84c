import RDMAPatterns.Memory.Recutting
import RDMAPatterns.Transition.Runs

/-! The allocator as a state machine. The byte ranges of live and free
blocks stay disjoint and inside the registered buffer in every reachable
state, whatever sizes and offsets the callers pass. -/
namespace BaseRDMA

open Extents Transition

section UsedMap

variable {used : UsedMem} {key : Nat} {block : RdmaMem}

/-- A live block can be taken out of the map to the front. -/
theorem blocks_perm_of_lookup (h : used.lookup key = some block) :
    (blocks used).Perm (block :: blocks (used.erase key)) := by
  have hKey : key ∈ used.entries.keys := AList.lookup_isSome.mp (by simp [h])
  obtain ⟨found, before, after, _, hEntries, hErased⟩ := List.exists_of_kerase hKey
  have hFound : used.lookup key = some found :=
    AList.mem_lookup_iff.mpr (by rw [hEntries]; simp)
  obtain rfl : found = block := Option.some.inj (hFound.symm.trans h)
  have hErase : (used.erase key).entries = before ++ after := hErased
  simp only [blocks, hEntries, hErase, List.map_append, List.map_cons]
  exact List.perm_middle

/-- The block of a key is replaced by an insertion. -/
theorem blocks_insert : blocks (used.insert key block) = block :: blocks (used.erase key) := by
  simp only [blocks, AList.entries_insert, List.map_cons]
  rfl

theorem blocks_erase_sublist : (blocks (used.erase key)).Sublist (blocks used) :=
  (List.kerase_sublist key used.entries).map _

/-- Erasing a key that is not there does nothing. -/
theorem erase_of_lookup_none (h : used.lookup key = none) : used.erase key = used := by
  apply AList.ext
  exact List.kerase_of_notMem_keys (AList.lookup_eq_none.mp h)

end UsedMap

/-- What holds between two operations, whoever called them. -/
structure Sound (memSize : Nat) (m : Memory) : Prop where
  packed : Packed memSize (extentsOf (m.liveBlocks ++ m.rdmaMem))
  keyed : ∀ key block, m.usedRdmaMem.lookup key = some block → block.offset = key
  allFree : AllFree m.rdmaMem

/-- Cutting a block off the free list moves no byte of a live one. -/
theorem Sound.cut {memSize : Nat} {m : Memory} (h : Sound memSize m) {block : RdmaMem}
    {left : List RdmaMem} (hRecut : Recut (extentsOf m.rdmaMem) (extentsOf (block :: left))) :
    Packed memSize (extentsOf m.liveBlocks ++ extentsOf (block :: left)) := by
  apply Packed.recut _ (hRecut.append_left (extentsOf m.liveBlocks))
  simpa using h.packed

theorem sound_initial (memSize : Nat) : Sound memSize (Memory.initial memSize) := by
  refine ⟨⟨?_, ?_⟩, ?_, ?_⟩
  · simp [Memory.initial, Memory.liveBlocks, blocks, Inside, RdmaMem.make, Extent.stop]
  · simp [Memory.initial, Memory.liveBlocks, blocks]
  · simp [Memory.initial]
  · simp [Memory.initial, AllFree, RdmaMem.make]

/-- Marking a live block as free changes nothing else about it. -/
theorem memResFree_of_lookup {used : UsedMem} {offset : Nat} {block : RdmaMem}
    (h : used.lookup offset = some block) :
    memResFree used offset = { block with free := true } := by
  simp [memResFree, h]

/-- What `operator[]` read and `erase` dropped is a range of its own: a live
block, or an empty default entry. -/
theorem packed_memResFree {memSize : Nat} {m : Memory} (h : Sound memSize m) (offset : Nat) :
    Packed memSize (extentsOf (memResFree m.usedRdmaMem offset ::
      (blocks (m.usedRdmaMem.erase offset) ++ m.rdmaMem))) := by
  cases hLookup : m.usedRdmaMem.lookup offset with
  | some block =>
      rw [memResFree_of_lookup hLookup]
      apply h.packed.perm
      exact ((blocks_perm_of_lookup hLookup).append_right m.rdmaMem).map RdmaMem.extent
  | none =>
      have hSub : (extentsOf (blocks (m.usedRdmaMem.erase offset) ++ m.rdmaMem)).Sublist
          (extentsOf (m.liveBlocks ++ m.rdmaMem)) :=
        (blocks_erase_sublist.append_right _).map _
      apply (h.packed.sublist hSub).cons_empty
      · simp [memResFree, hLookup, RdmaMem.null, Extent.stop]
      · simp [memResFree, hLookup, RdmaMem.null]

section Steps

variable {memSize : Nat} (hSize : memSize < 2 ^ 64) {m : Memory} (h : Sound memSize m)

include hSize h

/-- A successful `internalAlloc` cuts its block off the free list. -/
theorem internalAlloc_cases (size : Nat) :
    (allocScan size m.rdmaMem = none ∧ internalAlloc m size = (RdmaMem.null, m)) ∨
    ∃ block left, internalAlloc m size =
        (block, ⟨left, m.usedRdmaMem.insert block.offset block⟩) ∧
      allocScan size m.rdmaMem = some (block, left) ∧ block.size = size ∧
      Recut (extentsOf m.rdmaMem) (extentsOf (block :: left)) ∧ AllFree left := by
  cases hScan : allocScan size m.rdmaMem with
  | none => exact .inl ⟨rfl, by simp [internalAlloc, hScan]⟩
  | some found =>
      obtain ⟨block, left⟩ := found
      have hIn : Inside memSize (extentsOf m.rdmaMem) := fun e he =>
        h.packed.inside e (by simp [he])
      obtain ⟨hRecut, hBlock, hFree⟩ := allocScan_recut hSize size m.rdmaMem left block hIn hScan
      exact .inr ⟨block, left, by simp [internalAlloc, hScan], rfl, hBlock, hRecut,
        hFree h.allFree⟩

/-- `internalFree` always drops the map entry. When it returns, the range of
that entry is on the free list; when it throws, it is nowhere. -/
theorem internalFree_cases (offset : Nat) :
    (FreesNormally m offset ∧ ∃ merged, (internalFree m offset).2 =
        ⟨merged, m.usedRdmaMem.erase offset⟩ ∧
      Recut (extentsOf (memResFree m.usedRdmaMem offset :: m.rdmaMem))
        (extentsOf merged) ∧ AllFree merged) ∨
    (¬ FreesNormally m offset ∧ (internalFree m offset).1 = .error didNotFree ∧
      (internalFree m offset).2 = ⟨m.rdmaMem, m.usedRdmaMem.erase offset⟩) := by
  obtain ⟨list, used⟩ := m
  cases list with
  | nil =>
      refine .inl ⟨rfl, _, rfl, Recut.refl _, ?_⟩
      exact allFree_cons.mpr ⟨rfl, h.allFree⟩
  | cons memRes rest =>
      have hPacked := packed_memResFree h offset
      have hIn : Inside memSize (extentsOf (memResFree used offset :: memRes :: rest)) := by
        intro e he
        apply hPacked.inside e
        simp only [extentsOf_cons, extentsOf_append, List.mem_cons, List.mem_append] at he ⊢
        tauto
      cases hScan : freeScan offset (memResFree used offset) 0 [] (memRes :: rest) with
      | some merged =>
          have hMerged := freeScan_recut hSize offset _ 0 [] (memRes :: rest) merged hIn hScan
          refine .inl ⟨by simp [FreesNormally, internalFree, hScan], merged,
            by simp [internalFree, hScan], hMerged.1, hMerged.2 ?_⟩
          exact allFree_cons.mpr ⟨rfl, h.allFree⟩
      | none =>
          refine .inr ⟨by simp [FreesNormally, internalFree, hScan], ?_, ?_⟩
          · simp [internalFree, hScan]
          · simp [internalFree, hScan]

/-- An allocation cuts a free block and keeps the blocks apart. -/
theorem internalAlloc_sound (size : Nat) : Sound memSize (internalAlloc m size).2 := by
  rcases internalAlloc_cases hSize h size with ⟨_, hNone⟩ | ⟨block, left, hSome, _, _, hRecut, hFree⟩
  · simpa [hNone] using h
  · rw [hSome]
    refine ⟨?_, ?_, hFree⟩
    · have hSub : (extentsOf (blocks (m.usedRdmaMem.erase block.offset)) ++
          extentsOf (block :: left)).Sublist (extentsOf m.liveBlocks ++ extentsOf (block :: left)) :=
        (blocks_erase_sublist.map _).append_right _
      apply ((h.cut hRecut).sublist hSub).perm
      simp [Memory.liveBlocks, blocks_insert]
    · intro key found hLookup
      by_cases hKey : key = block.offset
      · subst hKey
        rw [AList.lookup_insert, Option.some.injEq] at hLookup
        rw [← hLookup]
      · rw [AList.lookup_insert_ne hKey] at hLookup
        exact h.keyed key found hLookup

/-- A free puts the block back or, if it throws, loses it. Neither brings two blocks
together. -/
theorem internalFree_sound (offset : Nat) : Sound memSize (internalFree m offset).2 := by
  have hKeyed : ∀ key block, (m.usedRdmaMem.erase offset).lookup key = some block →
      block.offset = key := by
    intro key block hLookup
    by_cases hKey : key = offset
    · rw [hKey, AList.lookup_erase] at hLookup
      cases hLookup
    · rw [AList.lookup_erase_ne hKey] at hLookup
      exact h.keyed key block hLookup
  have hPacked := packed_memResFree h offset
  rcases internalFree_cases hSize h offset with ⟨_, merged, hState, hRecut, hFree⟩ | ⟨_, _, hState⟩
  · rw [hState]
    refine ⟨?_, hKeyed, hFree⟩
    have hMoved : Packed memSize (extentsOf (blocks (m.usedRdmaMem.erase offset)) ++
        extentsOf (memResFree m.usedRdmaMem offset :: m.rdmaMem)) := by
      apply hPacked.perm
      simpa using List.perm_middle.symm
    simpa [Memory.liveBlocks] using hMoved.recut (hRecut.append_left _)
  · rw [hState]
    exact ⟨(Packed.cons_iff.mp hPacked).2.2, hKeyed, h.allFree⟩

end Steps

/-- The operations of `BaseRDMA` on the two members. -/
inductive MemoryOp where
  | internalAlloc (size : Nat)
  | internalFree (offset : Nat)
deriving DecidableEq, Repr

/-- The state after an operation, whether it returned or threw. -/
def MemoryOp.apply (m : Memory) : MemoryOp → Memory
  | .internalAlloc size => (BaseRDMA.internalAlloc m size).2
  | .internalFree offset => (BaseRDMA.internalFree m offset).2

/-- A caller in its right mind: nonempty blocks, and frees of live ones. -/
def MemoryOp.Proper (m : Memory) : MemoryOp → Prop
  | .internalAlloc size => 1 ≤ size
  | .internalFree offset => offset ∈ m.usedRdmaMem

instance (m : Memory) (op : MemoryOp) : Decidable (op.Proper m) :=
  match op with
  | .internalAlloc size => inferInstanceAs (Decidable (1 ≤ size))
  | .internalFree offset => decidable_of_iff _ (AList.lookup_isSome (a := offset))

/-- The allocator under proper callers only. -/
def memoryMachine (memSize : Nat) : Machine Memory MemoryOp where
  init := Memory.initial memSize
  next m op := if op.Proper m then some (op.apply m) else none

theorem memoryMachine_next {memSize : Nat} {m t : Memory} {op : MemoryOp}
    (hNext : (memoryMachine memSize).next m op = some t) : op.Proper m ∧ t = op.apply m := by
  simp only [memoryMachine, Option.ite_none_right_eq_some, Option.some.injEq] at hNext
  exact ⟨hNext.1, hNext.2.symm⟩

/-- Every call keeps the blocks apart, proper or not. -/
theorem apply_sound {memSize : Nat} (hSize : memSize < 2 ^ 64) {m : Memory}
    (h : Sound memSize m) (op : MemoryOp) : Sound memSize (op.apply m) := by
  cases op with
  | internalAlloc size => exact internalAlloc_sound hSize h size
  | internalFree offset => exact internalFree_sound hSize h offset

/-- Proper callers never hold an empty block. -/
def LiveNonempty (m : Memory) : Prop := ∀ block ∈ m.liveBlocks, 1 ≤ block.size

/-- First fit never hands out the key of a nonempty live block, since both
ranges would contain that byte. -/
theorem allocScan_fresh {memSize : Nat} (hSize : memSize < 2 ^ 64) {m : Memory}
    (h : Sound memSize m) (hLive : LiveNonempty m) {size : Nat} (hPos : 1 ≤ size)
    {block : RdmaMem} {left : List RdmaMem}
    (hScan : allocScan size m.rdmaMem = some (block, left)) : block.offset ∉ m.usedRdmaMem := by
  have hIn : Inside memSize (extentsOf m.rdmaMem) := fun e he => h.packed.inside e (by simp [he])
  obtain ⟨hRecut, hBlock, _⟩ := allocScan_recut hSize size m.rdmaMem left block hIn hScan
  have hCut : Packed memSize (extentsOf (block :: (m.liveBlocks ++ left))) := by
    apply (h.cut hRecut).perm
    simp
  intro hKey
  obtain ⟨other, hOther⟩ := Option.isSome_iff_exists.mp (AList.lookup_isSome.mpr hKey)
  have hMem : other ∈ m.liveBlocks :=
    (blocks_perm_of_lookup hOther).mem_iff.mpr (List.mem_cons_self ..)
  have hDisjoint := (Packed.cons_iff.mp hCut).2.1 other.extent
    (List.mem_map_of_mem (List.mem_append_left _ hMem))
  apply Extent.start_ne_of_disjoint hDisjoint
  · show 0 < block.size
    omega
  · exact hLive other hMem
  · exact (h.keyed _ _ hOther).symm

theorem apply_liveNonempty {memSize : Nat} (hSize : memSize < 2 ^ 64) {m : Memory}
    (h : Sound memSize m) (hLive : LiveNonempty m) {op : MemoryOp} (hProper : op.Proper m) :
    LiveNonempty (op.apply m) := by
  have hErased : ∀ key, ∀ block ∈ blocks (m.usedRdmaMem.erase key), 1 ≤ block.size :=
    fun key block hBlock => hLive block (blocks_erase_sublist.subset hBlock)
  cases op with
  | internalAlloc size =>
      change LiveNonempty (internalAlloc m size).2
      rcases internalAlloc_cases hSize h size with ⟨_, hNone⟩ | ⟨block, left, hSome, _, hBlock, _⟩
      · rwa [hNone]
      · rw [hSome]
        intro found hFound
        rw [Memory.liveBlocks, blocks_insert] at hFound
        rcases List.mem_cons.mp hFound with rfl | hFound
        · exact hBlock ▸ hProper
        · exact hErased _ found hFound
  | internalFree offset =>
      change LiveNonempty (internalFree m offset).2
      rcases internalFree_cases hSize h offset with ⟨_, merged, hState, _⟩ | ⟨_, _, hState⟩
      · rw [hState]
        exact hErased offset
      · rw [hState]
        exact hErased offset

/-- In every state that proper callers can reach the blocks are apart and no live one is
empty. -/
theorem reachable_liveNonempty {memSize : Nat} (hSize : memSize < 2 ^ 64) {m : Memory}
    (h : (memoryMachine memSize).Reachable m) : Sound memSize m ∧ LiveNonempty m := by
  apply h.invariant ⟨sound_initial memSize, by simp [LiveNonempty, memoryMachine, Memory.initial,
    Memory.liveBlocks, blocks]⟩
  rintro s op t ⟨hSound, hLive⟩ hNext
  obtain ⟨hProper, rfl⟩ := memoryMachine_next hNext
  exact ⟨apply_sound hSize hSound op, apply_liveNonempty hSize hSound hLive hProper⟩

/-- No two live allocations overlap and no live byte is on the free list, in
every state proper callers can reach, throwing frees included. -/
theorem allocator_safety {memSize : Nat} (hSize : memSize < 2 ^ 64) {m : Memory}
    (h : (memoryMachine memSize).Reachable m) :
    (m.liveBlocks ++ m.rdmaMem).Pairwise
        (fun b c => Disjoint b.extent.bytes c.extent.bytes) ∧
      (∀ b ∈ m.liveBlocks ++ m.rdmaMem, b.offset + b.size ≤ memSize) ∧
      (∀ b ∈ m.liveBlocks, Disjoint b.extent.bytes m.freeBytes) ∧
      (∀ offset b, m.usedRdmaMem.lookup offset = some b → b.offset = offset ∧ 1 ≤ b.size) := by
  obtain ⟨hSound, hLive⟩ := reachable_liveNonempty hSize h
  have hApart := List.pairwise_map.mp hSound.packed.apart
  refine ⟨hApart, ?_, ?_, ?_⟩
  · intro b hb
    exact hSound.packed.inside b.extent (List.mem_map_of_mem hb)
  · intro b hb
    rw [Finset.disjoint_left]
    intro x hx hFree
    obtain ⟨e, he, hxe⟩ := mem_covered.mp hFree
    obtain ⟨c, hc, rfl⟩ := List.mem_map.mp he
    exact Finset.disjoint_left.mp ((List.pairwise_append.mp hApart).2.2 b hb c hc) hx hxe
  · intro offset b hLookup
    refine ⟨hSound.keyed offset b hLookup, hLive b ?_⟩
    exact (blocks_perm_of_lookup hLookup).mem_iff.mpr (List.mem_cons_self ..)

/-- Two splits, a free in front, a reuse of its bytes, and a free that throws. -/
def fragmentingOps : List MemoryOp :=
  [.internalAlloc 2, .internalAlloc 3, .internalFree 0, .internalAlloc 1, .internalAlloc 3,
    .internalFree 5]

/-- The free list is in two pieces, with a live block in between. -/
theorem allocator_safety_fragmented :
    ∃ m, (memoryMachine 8).replay (Memory.initial 8) fragmentingOps = some m ∧
      m.liveBlocks.length = 2 ∧ (m.liveBlocks ++ m.rdmaMem).Pairwise
        (fun b c => Disjoint b.extent.bytes c.extent.bytes) :=
  ⟨_, rfl, rfl, (@allocator_safety 8 (by decide) _
    (@Machine.reachable_of_replay _ _ (memoryMachine 8) _ fragmentingOps rfl)).1⟩

end BaseRDMA
