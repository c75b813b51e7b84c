import RDMAPatterns.Memory.FreeList

/-! Every allocator loop only recuts byte ranges: splitting on allocation,
joining on free. Nothing here needs the free list to be sorted, so a
`lastOffset` that wraps around does no harm to the bytes. -/
namespace BaseRDMA

open Extents

/-- The byte ranges of list elements. -/
def extentsOf (list : List RdmaMem) : List Extent := list.map RdmaMem.extent

@[simp] theorem extentsOf_nil : extentsOf [] = [] := rfl

@[simp] theorem extentsOf_cons (b : RdmaMem) (list : List RdmaMem) :
    extentsOf (b :: list) = ⟨b.offset, b.size⟩ :: extentsOf list := rfl

@[simp] theorem extentsOf_append (list rest : List RdmaMem) :
    extentsOf (list ++ rest) = extentsOf list ++ extentsOf rest := List.map_append

/-- Every element is marked free. -/
def AllFree (list : List RdmaMem) : Prop := ∀ e ∈ list, e.free = true

@[simp] theorem allFree_cons {b : RdmaMem} {list : List RdmaMem} :
    AllFree (b :: list) ↔ b.free = true ∧ AllFree list := List.forall_mem_cons

@[simp] theorem allFree_append {list rest : List RdmaMem} :
    AllFree (list ++ rest) ↔ AllFree list ∧ AllFree rest := List.forall_mem_append

section Recutting

variable {memSize : Nat} (hSize : memSize < 2 ^ 64)

include hSize

/-- Growing the previous element over the handed-in one joins two adjacent
ranges. The end of the element at the cursor stays where it was. -/
theorem mergePrev_recut (before rest : List RdmaMem) (el : RdmaMem)
    (hIn : Inside memSize (extentsOf (before.reverse ++ el :: rest))) :
    ∃ beforeNew cur, mergePrev ⟨before, el :: rest⟩ = (⟨beforeNew, cur :: rest⟩, cur.size) ∧
      cur.offset + cur.size = el.offset + el.size ∧
      Recut (extentsOf (before.reverse ++ el :: rest))
        (extentsOf (beforeNew.reverse ++ cur :: rest)) ∧
      (AllFree (before.reverse ++ el :: rest) → AllFree (beforeNew.reverse ++ cur :: rest)) := by
  cases before with
  | nil => exact ⟨[], el, rfl, rfl, Recut.refl _, fun h => h⟩
  | cons prev before =>
      have hPrev : prev.offset + prev.size ≤ memSize :=
        hIn ⟨prev.offset, prev.size⟩ (by simp)
      have hSum : sizeT (prev.offset + prev.size) = prev.offset + prev.size :=
        sizeT_of_lt (by omega)
      by_cases hTouch : prev.offset + prev.size = el.offset
      · have hEl : el.offset + el.size ≤ memSize := hIn ⟨el.offset, el.size⟩ (by simp)
        have hGrown : sizeT (el.size + prev.size) = prev.size + el.size := by
          rw [sizeT_of_lt (by omega), Nat.add_comm]
        refine ⟨before, { prev with size := prev.size + el.size }, ?_, ?_, ?_, ?_⟩
        · simp [mergePrev, hSum.trans hTouch, hGrown]
        · simp only
          omega
        · have hJoin := Recut.join prev.offset prev.size el.size (extentsOf rest)
          rw [hTouch] at hJoin
          simpa using hJoin.append_left (extentsOf before.reverse)
        · simp only [List.reverse_cons, allFree_append, allFree_cons]
          tauto
      · refine ⟨prev :: before, el, ?_, rfl, Recut.refl _, fun h => h⟩
        simp [mergePrev, hSum, hTouch]

/-- Swallowing the following element joins two adjacent ranges. -/
theorem mergeNext_recut (before rest : List RdmaMem) (cur : RdmaMem)
    (hIn : Inside memSize (extentsOf (before.reverse ++ cur :: rest))) :
    let merged := mergeNext ⟨before, cur :: rest⟩ cur.size (cur.offset + cur.size)
    Recut (extentsOf (before.reverse ++ cur :: rest)) (extentsOf merged.toList) ∧
      (AllFree (before.reverse ++ cur :: rest) → AllFree merged.toList) := by
  cases rest with
  | nil => exact ⟨Recut.refl _, fun h => h⟩
  | cons next after =>
      by_cases hTouch : cur.offset + cur.size = next.offset
      · have hNext : next.offset + next.size ≤ memSize :=
          hIn ⟨next.offset, next.size⟩ (by simp)
        have hGrown : sizeT (cur.size + next.size) = cur.size + next.size :=
          sizeT_of_lt (by omega)
        simp only [mergeNext, hTouch, if_true, hGrown, Cursor.toList]
        constructor
        · have hJoin := Recut.join cur.offset cur.size next.size (extentsOf after)
          rw [hTouch] at hJoin
          simpa using hJoin.append_left (extentsOf before.reverse)
        · simp only [allFree_append, allFree_cons]
          tauto
      · simp only [mergeNext, hTouch, if_false, Cursor.toList]
        exact ⟨Recut.refl _, fun h => h⟩

/-- `mergeFreeMem` changes neither the bytes on the list nor their number,
wherever the element was inserted. -/
theorem mergeFreeMem_recut (before rest : List RdmaMem) (el : RdmaMem)
    (hIn : Inside memSize (extentsOf (before.reverse ++ el :: rest))) :
    Recut (extentsOf (before.reverse ++ el :: rest))
        (extentsOf (mergeFreeMem ⟨before, el :: rest⟩).toList) ∧
      (AllFree (before.reverse ++ el :: rest) →
        AllFree (mergeFreeMem ⟨before, el :: rest⟩).toList) := by
  obtain ⟨beforeNew, cur, hPrev, hStop, hRecut, hFree⟩ := mergePrev_recut hSize before rest el hIn
  have hEl : el.offset + el.size ≤ memSize := hIn ⟨el.offset, el.size⟩ (by simp)
  have hMerge : mergeFreeMem ⟨before, el :: rest⟩ =
      mergeNext ⟨beforeNew, cur :: rest⟩ cur.size (cur.offset + cur.size) := by
    simp only [mergeFreeMem, hPrev, hStop]
    rw [sizeT_of_lt (by omega)]
  have hNext := mergeNext_recut hSize beforeNew rest cur (hRecut.inside hIn)
  rw [hMerge]
  exact ⟨hRecut.trans hNext.1, fun h => hNext.2 (hFree h)⟩

/-- A scan that finds a place puts exactly the freed range on the list. -/
theorem freeScan_recut (offset : Nat) (block : RdmaMem) (lastOffset : Nat)
    (before rest merged : List RdmaMem)
    (hIn : Inside memSize (extentsOf (block :: (before.reverse ++ rest))))
    (hScan : freeScan offset block lastOffset before rest = some merged) :
    Recut (extentsOf (block :: (before.reverse ++ rest))) (extentsOf merged) ∧
      (AllFree (block :: (before.reverse ++ rest)) → AllFree merged) := by
  induction rest generalizing lastOffset before with
  | nil => simp [freeScan] at hScan
  | cons memRes rest ih =>
      by_cases hHere : lastOffset ≤ offset ∧ offset < memRes.offset
      · rw [freeScan, if_pos hHere, Option.some.injEq] at hScan
        subst hScan
        have hPlace : (extentsOf (block :: (before.reverse ++ memRes :: rest))).Perm
            (extentsOf (before.reverse ++ block :: memRes :: rest)) := by
          simpa using List.perm_middle.symm
        have hMerge := mergeFreeMem_recut hSize before (memRes :: rest) block
          ((Recut.perm hPlace).inside hIn)
        refine ⟨(Recut.perm hPlace).trans hMerge.1, fun hFree => hMerge.2 ?_⟩
        simp only [allFree_append, allFree_cons] at hFree ⊢
        tauto
      · rw [freeScan, if_neg hHere] at hScan
        simpa using ih (sizeT (lastOffset + memRes.offset)) (memRes :: before)
          (by simpa using hIn) hScan

/-- A first-fit hit cuts the block handed out off one free element. -/
theorem allocScan_recut (size : Nat) (list left : List RdmaMem) (block : RdmaMem)
    (hIn : Inside memSize (extentsOf list)) (hScan : allocScan size list = some (block, left)) :
    Recut (extentsOf list) (extentsOf (block :: left)) ∧ block.size = size ∧
      (AllFree list → AllFree left) := by
  induction list generalizing left with
  | nil => simp [allocScan] at hScan
  | cons memRes rest ih =>
      have hMem : memRes.offset + memRes.size ≤ memSize :=
        hIn ⟨memRes.offset, memRes.size⟩ (by simp)
      by_cases hFit : memRes.free = true ∧ size ≤ memRes.size
      · by_cases hRest : size < memRes.size
        · have hCut : sizeT (memRes.offset + size) = memRes.offset + size :=
            sizeT_of_lt (by omega)
          rw [allocScan, if_pos hFit] at hScan
          simp only [hRest, if_true, Option.some.injEq, Prod.mk.injEq, hCut] at hScan
          obtain ⟨rfl, rfl⟩ := hScan
          have hSplit := Recut.split memRes.offset size (memRes.size - size) (extentsOf rest)
          rw [Nat.add_sub_cancel' hFit.2] at hSplit
          refine ⟨hSplit, rfl, ?_⟩
          simp only [allFree_cons]
          exact fun hFree => ⟨rfl, hFree.2⟩
        · rw [allocScan, if_pos hFit] at hScan
          simp only [hRest, if_false, Option.some.injEq, Prod.mk.injEq] at hScan
          obtain ⟨rfl, rfl⟩ := hScan
          have hWhole : memRes.size = size := by omega
          refine ⟨?_, rfl, fun hFree => (allFree_cons.mp hFree).2⟩
          simpa [RdmaMem.make, hWhole] using
            Recut.refl (⟨memRes.offset, size⟩ :: extentsOf rest)
      · rw [allocScan, if_neg hFit, Option.map_eq_some_iff] at hScan
        simp only [Prod.mk.injEq] at hScan
        obtain ⟨⟨found, foundLeft⟩, hFound, rfl, rfl⟩ := hScan
        have hTail : Inside memSize (extentsOf rest) := fun e he => hIn e (by simp [he])
        obtain ⟨hRecut, hFoundSize, hFree⟩ := ih foundLeft hTail hFound
        refine ⟨?_, hFoundSize, ?_⟩
        · exact (hRecut.cons _).trans (Recut.perm (List.Perm.swap _ _ _))
        · simp only [allFree_cons]
          exact fun h => ⟨h.1, hFree h.2⟩

end Recutting

/-- The search fails if no free block is large enough. -/
theorem allocScan_none_iff (size : Nat) (list : List RdmaMem) :
    allocScan size list = none ↔
      list.find? (fun e => e.free && decide (size ≤ e.size)) = none := by
  induction list with
  | nil => simp [allocScan]
  | cons memRes rest ih =>
      by_cases hFit : memRes.free = true ∧ size ≤ memRes.size
      · rw [allocScan, if_pos hFit]
        split <;> simp [hFit]
      · rw [allocScan, if_neg hFit, Option.map_eq_none_iff, ih, List.find?_cons_of_neg]
        simpa using hFit

/-- The search takes the first free block that is large enough. -/
theorem allocScan_some_find (size : Nat) (list left : List RdmaMem) (block : RdmaMem)
    (hScan : allocScan size list = some (block, left)) :
    ∃ e, list.find? (fun e => e.free && decide (size ≤ e.size)) = some e ∧
      block = RdmaMem.make size false e.offset := by
  induction list generalizing left with
  | nil => simp [allocScan] at hScan
  | cons memRes rest ih =>
      by_cases hFit : memRes.free = true ∧ size ≤ memRes.size
      · refine ⟨memRes, by simp [hFit], ?_⟩
        rw [allocScan, if_pos hFit] at hScan
        split at hScan <;> simp_all
      · rw [allocScan, if_neg hFit, Option.map_eq_some_iff] at hScan
        obtain ⟨⟨found, foundLeft⟩, hFound, hEq⟩ := hScan
        simp only [Prod.mk.injEq] at hEq
        obtain ⟨rfl, _⟩ := hEq
        obtain ⟨e, hFind, hBlock⟩ := ih foundLeft hFound
        refine ⟨e, ?_, hBlock⟩
        rw [List.find?_cons_of_neg, hFind]
        simpa using hFit

end BaseRDMA
