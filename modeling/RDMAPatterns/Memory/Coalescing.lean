import RDMAPatterns.Extents.Coalesced
import RDMAPatterns.Memory.Conservation

/-! The free list stays ordered and coalesced, as long as the offsets that
`internalFree` sums up fit into 64 bits. -/
namespace BaseRDMA

open Extents Transition

/-- The loop of `internalFree` computes the sums of the offsets it passes exactly. -/
def SumsExact (offset lastOffset : Nat) : List RdmaMem → Prop
  | [] => True
  | memRes :: rest =>
      (lastOffset ≤ offset ∧ offset < memRes.offset) ∨
        (lastOffset + memRes.offset < 2 ^ 64 ∧ SumsExact offset (lastOffset + memRes.offset) rest)

instance decidableSumsExact (offset : Nat) :
    (lastOffset : Nat) → (list : List RdmaMem) → Decidable (SumsExact offset lastOffset list)
  | _, [] => .isTrue trivial
  | lastOffset, memRes :: rest =>
      have : Decidable (SumsExact offset (lastOffset + memRes.offset) rest) :=
        decidableSumsExact offset _ rest
      inferInstanceAs (Decidable (_ ∨ _))

/-- The entries are in order, and none touches the next one. -/
def Ordered (list : List RdmaMem) : Prop :=
  list.Pairwise fun e f => e.offset + e.size < f.offset

/-- An entry of a list that the constructor or a free put there. -/
structure RdmaMem.Plain (e : RdmaMem) : Prop where
  nonempty : 1 ≤ e.size
  notNull : e.isnull = false

theorem ordered_iff (list : List RdmaMem) : Ordered list ↔ Coalesced (extentsOf list) := by
  rw [Coalesced, extentsOf, List.pairwise_map]
  rfl

section Merging

variable {memSize : Nat} (hSize : memSize < 2 ^ 64)

include hSize

/-- Before the element at the cursor everything ends with a gap. Its own end
stays where it was. -/
theorem mergePrev_ordered (before rest : List RdmaMem) (el : RdmaMem)
    (hIn : Inside memSize (extentsOf (before.reverse ++ el :: rest)))
    (hBefore : Ordered before.reverse) (hEnd : ∀ l ∈ before, l.offset + l.size ≤ el.offset) :
    ∃ beforeNew cur, mergePrev ⟨before, el :: rest⟩ = (⟨beforeNew, cur :: rest⟩, cur.size) ∧
      cur.offset + cur.size = el.offset + el.size ∧ Ordered beforeNew.reverse ∧
      (∀ l ∈ beforeNew, l ∈ before ∧ l.offset + l.size < cur.offset) ∧
      ((∀ e ∈ before, e.Plain) → el.Plain → cur.Plain) := by
  cases before with
  | nil =>
      refine ⟨[], el, rfl, rfl, List.Pairwise.nil, ?_, fun _ h => h⟩
      intro l hMem
      cases hMem
  | cons prev before =>
      have hPrevIn : prev.offset + prev.size ≤ memSize :=
        hIn ⟨prev.offset, prev.size⟩ (by simp)
      have hElIn : el.offset + el.size ≤ memSize := hIn ⟨el.offset, el.size⟩ (by simp)
      have hPrev : prev.offset + prev.size ≤ el.offset := hEnd prev (List.mem_cons_self ..)
      have hSum : sizeT (prev.offset + prev.size) = prev.offset + prev.size :=
        sizeT_of_lt (by omega)
      have hEarlier : ∀ l ∈ before, l.offset + l.size < prev.offset := by
        intro l hMem
        rw [Ordered, List.reverse_cons] at hBefore
        exact (List.pairwise_append.mp hBefore).2.2 l (List.mem_reverse.mpr hMem) prev (by simp)
      by_cases hTouch : prev.offset + prev.size = el.offset
      · have hGrown : sizeT (el.size + prev.size) = prev.size + el.size := by
          rw [sizeT_of_lt (by omega), Nat.add_comm]
        refine ⟨before, { prev with size := prev.size + el.size }, ?_, ?_, ?_, ?_, ?_⟩
        · simp [mergePrev, hSum.trans hTouch, hGrown]
        · show prev.offset + (prev.size + el.size) = _
          omega
        · rw [Ordered, List.reverse_cons] at hBefore
          exact (List.pairwise_append.mp hBefore).1
        · intro l hMem
          exact ⟨List.mem_cons_of_mem _ hMem, hEarlier l hMem⟩
        · intro hPlain _
          have hPrevPlain := hPlain prev (List.mem_cons_self ..)
          exact ⟨hPrevPlain.nonempty.trans (Nat.le_add_right _ _), hPrevPlain.notNull⟩
      · refine ⟨prev :: before, el, ?_, rfl, hBefore, ?_, fun _ h => h⟩
        · simp [mergePrev, hSum, hTouch]
        · intro l hMem
          refine ⟨hMem, ?_⟩
          rcases List.mem_cons.mp hMem with rfl | hOld
          · exact Nat.lt_of_le_of_ne hPrev hTouch
          · have hLt := hEarlier l hOld
            omega

/-- After the second half there is a gap behind the element, too. -/
theorem mergeNext_ordered (before rest : List RdmaMem) (cur : RdmaMem)
    (hIn : Inside memSize (extentsOf (before.reverse ++ cur :: rest)))
    (hBefore : Ordered before.reverse) (hRest : Ordered rest)
    (hGap : ∀ l ∈ before, l.offset + l.size < cur.offset)
    (hEnd : ∀ r ∈ rest, cur.offset + cur.size ≤ r.offset) :
    let merged := mergeNext ⟨before, cur :: rest⟩ cur.size (cur.offset + cur.size)
    Ordered merged.toList ∧
      ((∀ e ∈ before, e.Plain) → cur.Plain → (∀ e ∈ rest, e.Plain) →
        ∀ e ∈ merged.toList, e.Plain) := by
  -- Whatever stands at the cursor, the list is ordered if it has gaps on both sides.
  have hOrdered (el : RdmaMem) (after : List RdmaMem) (hSame : el.offset = cur.offset)
      (hAfter : Ordered after) (hBehind : ∀ r ∈ after, el.offset + el.size < r.offset) :
      Ordered (before.reverse ++ el :: after) := by
    refine List.pairwise_append.mpr ⟨hBefore, List.pairwise_cons.mpr ⟨hBehind, hAfter⟩, ?_⟩
    intro l hL r hR
    have hLeft : l.offset + l.size < el.offset := hSame ▸ hGap l (List.mem_reverse.mp hL)
    rcases List.mem_cons.mp hR with rfl | hR
    · exact hLeft
    · have hRight := hBehind r hR
      omega
  have hPlainAll (el : RdmaMem) (after : List RdmaMem) (hB : ∀ e ∈ before, e.Plain)
      (hEl : el.Plain) (hA : ∀ e ∈ after, e.Plain) :
      ∀ e ∈ before.reverse ++ el :: after, e.Plain := by
    intro e hMem
    rcases List.mem_append.mp hMem with hMem | hMem
    · exact hB e (List.mem_reverse.mp hMem)
    · rcases List.mem_cons.mp hMem with rfl | hMem
      · exact hEl
      · exact hA e hMem
  cases rest with
  | nil =>
      refine ⟨hOrdered cur [] rfl List.Pairwise.nil ?_, fun hB hC hR => hPlainAll cur [] hB hC hR⟩
      intro r hMem
      cases hMem
  | cons next after =>
      obtain ⟨hNext, hAfter⟩ := List.pairwise_cons.mp hRest
      have hNextIn : next.offset + next.size ≤ memSize :=
        hIn ⟨next.offset, next.size⟩ (by simp)
      by_cases hTouch : cur.offset + cur.size = next.offset
      · have hGrown : sizeT (cur.size + next.size) = cur.size + next.size :=
          sizeT_of_lt (by omega)
        simp only [mergeNext, hTouch, if_true, hGrown, Cursor.toList]
        constructor
        · apply hOrdered { cur with size := cur.size + next.size } after rfl hAfter
          intro r hMem
          have hFar := hNext r hMem
          show cur.offset + (cur.size + next.size) < r.offset
          omega
        · intro hB hC hR
          have hGrownPlain : { cur with size := cur.size + next.size }.Plain :=
            ⟨hC.nonempty.trans (Nat.le_add_right _ _), hC.notNull⟩
          exact hPlainAll _ after hB hGrownPlain fun e hMem => hR e (List.mem_cons_of_mem _ hMem)
      · simp only [mergeNext, hTouch, if_false, Cursor.toList]
        refine ⟨hOrdered cur (next :: after) rfl hRest ?_,
          fun hB hC hR => hPlainAll cur (next :: after) hB hC hR⟩
        have hFirst : cur.offset + cur.size ≤ next.offset := hEnd next (List.mem_cons_self ..)
        intro r hMem
        rcases List.mem_cons.mp hMem with rfl | hMem
        · exact Nat.lt_of_le_of_ne hFirst hTouch
        · have hFar := hNext r hMem
          omega

/-- A block that is inserted between its neighbours leaves an ordered list. -/
theorem mergeFreeMem_ordered (before rest : List RdmaMem) (el : RdmaMem)
    (hIn : Inside memSize (extentsOf (before.reverse ++ el :: rest)))
    (hBefore : Ordered before.reverse) (hRest : Ordered rest)
    (hLeft : ∀ l ∈ before, l.offset + l.size ≤ el.offset)
    (hRight : ∀ r ∈ rest, el.offset + el.size ≤ r.offset) :
    Ordered (mergeFreeMem ⟨before, el :: rest⟩).toList ∧
      ((∀ e ∈ before, e.Plain) → el.Plain → (∀ e ∈ rest, e.Plain) →
        ∀ e ∈ (mergeFreeMem ⟨before, el :: rest⟩).toList, e.Plain) := by
  obtain ⟨beforeNew, cur, hPrev, hStop, hBeforeNew, hGap, hPlain⟩ :=
    mergePrev_ordered hSize before rest el hIn hBefore hLeft
  obtain ⟨_, _, hPrev', _, hRecut, _⟩ := mergePrev_recut hSize before rest el hIn
  rw [hPrev] at hPrev'
  obtain ⟨⟨rfl, rfl⟩, _⟩ : (_ ∧ _) ∧ _ := by simpa using hPrev'
  have hElIn : el.offset + el.size ≤ memSize := hIn ⟨el.offset, el.size⟩ (by simp)
  have hMerge : mergeFreeMem ⟨before, el :: rest⟩ =
      mergeNext ⟨beforeNew, cur :: rest⟩ cur.size (cur.offset + cur.size) := by
    simp only [mergeFreeMem, hPrev, hStop]
    rw [sizeT_of_lt (by omega)]
  rw [hMerge]
  have hNext := mergeNext_ordered hSize beforeNew rest cur (hRecut.inside hIn) hBeforeNew hRest
    (fun l hMem => (hGap l hMem).2) (fun r hMem => hStop ▸ hRight r hMem)
  refine ⟨hNext.1, ?_⟩
  intro hB hEl hR
  exact hNext.2 (fun e hMem => hB e (hGap e hMem).1) (hPlain hB hEl) hR

/-- As long as its sums are exact, the loop stops at the place in the order. -/
theorem freeScan_ordered {block : RdmaMem} (hBlock : block.Plain) (lastOffset : Nat)
    (before rest merged : List RdmaMem)
    (hIn : Inside memSize (extentsOf (block :: (before.reverse ++ rest))))
    (hApart : ∀ e ∈ before.reverse ++ rest, Disjoint block.extent.bytes e.extent.bytes)
    (hOrdered : Ordered (before.reverse ++ rest)) (hPlain : ∀ e ∈ before.reverse ++ rest, e.Plain)
    (hPassed : ∀ l ∈ before, l.offset ≤ lastOffset)
    (hExact : SumsExact block.offset lastOffset rest)
    (hScan : freeScan block.offset block lastOffset before rest = some merged) :
    Ordered merged ∧ ∀ e ∈ merged, e.Plain := by
  induction rest generalizing lastOffset before with
  | nil => cases hScan
  | cons memRes rest ih =>
      by_cases hHere : lastOffset ≤ block.offset ∧ block.offset < memRes.offset
      · rw [freeScan, if_pos hHere, Option.some.injEq] at hScan
        subst hScan
        obtain ⟨hBefore, hRest, _⟩ := List.pairwise_append.mp hOrdered
        have hPlainLeft : ∀ l ∈ before, l.Plain := fun l hMem => hPlain l (by simp [hMem])
        have hPlainRight : ∀ r ∈ memRes :: rest, r.Plain :=
          fun r hMem => hPlain r (List.mem_append_right _ hMem)
        have hLeft : ∀ l ∈ before, l.offset + l.size ≤ block.offset := by
          intro l hMem
          exact Extent.stop_le_of_disjoint (hApart l (by simp [hMem])).symm
            ((hPassed l hMem).trans hHere.1) hBlock.nonempty
        have hRight : ∀ r ∈ memRes :: rest, block.offset + block.size ≤ r.offset := by
          intro r hMem
          have hBehind : block.offset ≤ r.offset := by
            rcases List.mem_cons.mp hMem with rfl | hLater
            · exact Nat.le_of_lt hHere.2
            · have hLt := (List.pairwise_cons.mp hRest).1 r hLater
              omega
          exact Extent.stop_le_of_disjoint (hApart r (List.mem_append_right _ hMem)) hBehind
            (hPlainRight r hMem).nonempty
        have hInHere : Inside memSize (extentsOf (before.reverse ++ block :: memRes :: rest)) := by
          intro e hMem
          apply hIn e
          simp only [extentsOf_cons, extentsOf_append, List.mem_cons, List.mem_append] at hMem ⊢
          tauto
        have hMerged := mergeFreeMem_ordered hSize before (memRes :: rest) block hInHere
          hBefore hRest hLeft hRight
        exact ⟨hMerged.1, hMerged.2 hPlainLeft hBlock hPlainRight⟩
      · rw [freeScan, if_neg hHere] at hScan
        obtain ⟨hFits, hExactRest⟩ := hExact.resolve_left hHere
        have hSum : sizeT (lastOffset + memRes.offset) = lastOffset + memRes.offset :=
          sizeT_of_lt hFits
        rw [hSum] at hScan
        apply ih (lastOffset + memRes.offset) (memRes :: before) _ _ _ _ _ hExactRest hScan
        · simpa using hIn
        · simpa using hApart
        · simpa using hOrdered
        · simpa using hPlain
        · intro l hMem
          rcases List.mem_cons.mp hMem with rfl | hOld
          · exact Nat.le_add_left _ _
          · exact (hPassed l hOld).trans (Nat.le_add_right _ _)

/-- Taking a block off the front of an entry leaves an ordered list. -/
theorem allocScan_ordered (size : Nat) (list left : List RdmaMem) (block : RdmaMem)
    (hIn : Inside memSize (extentsOf list)) (hOrdered : Ordered list)
    (hPlain : ∀ e ∈ list, e.Plain) (hScan : allocScan size list = some (block, left)) :
    Ordered left ∧ (∀ e ∈ left, e.Plain) ∧ ∀ e ∈ left, ∃ f ∈ list, f.offset ≤ e.offset := by
  induction list generalizing left with
  | nil => cases hScan
  | cons memRes rest ih =>
      obtain ⟨hBehind, hRest⟩ := List.pairwise_cons.mp hOrdered
      have hPlainRest : ∀ e ∈ rest, e.Plain := fun e hMem => hPlain e (List.mem_cons_of_mem _ hMem)
      have hSelf : ∀ e ∈ rest, ∃ f ∈ memRes :: rest, f.offset ≤ e.offset :=
        fun e hMem => ⟨e, List.mem_cons_of_mem _ hMem, Nat.le_refl _⟩
      by_cases hFit : memRes.free = true ∧ size ≤ memRes.size
      · rw [allocScan, if_pos hFit] at hScan
        by_cases hCut : size < memRes.size
        · have hMem : memRes.offset + memRes.size ≤ memSize :=
            hIn ⟨memRes.offset, memRes.size⟩ (by simp)
          have hSum : sizeT (memRes.offset + size) = memRes.offset + size :=
            sizeT_of_lt (by omega)
          simp only [hCut, if_true, hSum, Option.some.injEq, Prod.mk.injEq] at hScan
          obtain ⟨_, rfl⟩ := hScan
          refine ⟨List.pairwise_cons.mpr ⟨?_, hRest⟩, ?_, ?_⟩
          · intro e hE
            have hFar := hBehind e hE
            show memRes.offset + size + (memRes.size - size) < e.offset
            omega
          · intro e hE
            rcases List.mem_cons.mp hE with rfl | hE
            · exact ⟨Nat.sub_pos_of_lt hCut, rfl⟩
            · exact hPlainRest e hE
          · intro e hE
            rcases List.mem_cons.mp hE with rfl | hE
            · exact ⟨memRes, List.mem_cons_self .., Nat.le_add_right _ _⟩
            · exact hSelf e hE
        · simp only [hCut, if_false, Option.some.injEq, Prod.mk.injEq] at hScan
          obtain ⟨_, rfl⟩ := hScan
          exact ⟨hRest, hPlainRest, hSelf⟩
      · rw [allocScan, if_neg hFit, Option.map_eq_some_iff] at hScan
        obtain ⟨⟨found, foundLeft⟩, hFound, hEq⟩ := hScan
        obtain ⟨rfl, rfl⟩ := Prod.mk.inj hEq
        have hInRest : Inside memSize (extentsOf rest) := fun e he => hIn e (by simp [he])
        obtain ⟨hLeft, hPlainLeft, hFrom⟩ := ih foundLeft hInRest hRest hPlainRest hFound
        refine ⟨List.pairwise_cons.mpr ⟨?_, hLeft⟩, ?_, ?_⟩
        · intro e hE
          obtain ⟨f, hF, hLe⟩ := hFrom e hE
          exact Nat.lt_of_lt_of_le (hBehind f hF) hLe
        · intro e hE
          rcases List.mem_cons.mp hE with rfl | hE
          · exact hPlain _ (List.mem_cons_self ..)
          · exact hPlainLeft e hE
        · intro e hE
          rcases List.mem_cons.mp hE with rfl | hE
          · exact ⟨_, List.mem_cons_self .., Nat.le_refl _⟩
          · obtain ⟨f, hF, hLe⟩ := hFrom e hE
            exact ⟨f, List.mem_cons_of_mem _ hF, hLe⟩

end Merging

/-- The free list is ordered and coalesced. Only an empty buffer has an empty entry. -/
structure Tidy (memSize : Nat) (m : Memory) : Prop where
  ordered : Ordered m.rdmaMem
  plain : 1 ≤ memSize → ∀ e ∈ m.rdmaMem, e.Plain
  live : ∀ block ∈ m.liveBlocks, block.isnull = false

theorem tidy_initial (memSize : Nat) : Tidy memSize (Memory.initial memSize) where
  ordered := List.pairwise_singleton _ _
  plain := by
    intro hPos e hMem
    obtain rfl := List.mem_singleton.mp hMem
    exact ⟨hPos, rfl⟩
  live := by
    intro block hMem
    cases hMem

section Steps

variable {memSize : Nat} (hSize : memSize < 2 ^ 64) {m : Memory} (h : Sound memSize m)

include hSize h

theorem internalAlloc_tidy (hTidy : Tidy memSize m) {size : Nat} (hPos : 1 ≤ size) :
    Tidy memSize (internalAlloc m size).2 := by
  rcases internalAlloc_cases hSize h size with
    ⟨_, hNone⟩ | ⟨block, left, hSome, hScan, hBlockSize, hRecut, _⟩
  · rwa [hNone]
  · have hIn : Inside memSize (extentsOf m.rdmaMem) := fun e he => h.packed.inside e (by simp [he])
    have hBlockIn : block.offset + block.size ≤ memSize :=
      hRecut.inside hIn ⟨block.offset, block.size⟩ (by simp)
    have hPlain : ∀ e ∈ m.rdmaMem, e.Plain := hTidy.plain (by omega)
    obtain ⟨hOrdered, hPlainLeft, _⟩ :=
      allocScan_ordered hSize size m.rdmaMem left block hIn hTidy.ordered hPlain hScan
    obtain ⟨e, _, hBlock⟩ := allocScan_some_find size m.rdmaMem left block hScan
    rw [hSome]
    refine ⟨hOrdered, fun _ => hPlainLeft, ?_⟩
    intro found hFound
    rw [Memory.liveBlocks, blocks_insert] at hFound
    rcases List.mem_cons.mp hFound with rfl | hOld
    · rw [hBlock]
      rfl
    · exact hTidy.live found (blocks_erase_sublist.subset hOld)

omit hSize in
theorem one_le_memSize (hLive : LiveNonempty m) {offset : Nat} (hOffset : offset ∈ m.usedRdmaMem) :
    1 ≤ memSize := by
  obtain ⟨block, hLookup⟩ := Option.isSome_iff_exists.mp (AList.lookup_isSome.mpr hOffset)
  have hMem : block ∈ m.liveBlocks :=
    (blocks_perm_of_lookup hLookup).mem_iff.mpr (List.mem_cons_self ..)
  have hIn : block.offset + block.size ≤ memSize :=
    h.packed.inside block.extent (List.mem_map_of_mem (List.mem_append_left _ hMem))
  have hPos := hLive block hMem
  omega

theorem internalFree_tidy (hTidy : Tidy memSize m) (hLive : LiveNonempty m) {offset : Nat}
    (hOffset : offset ∈ m.usedRdmaMem) (hExact : SumsExact offset 0 m.rdmaMem) :
    Tidy memSize (internalFree m offset).2 := by
  obtain ⟨block, hLookup⟩ := Option.isSome_iff_exists.mp (AList.lookup_isSome.mpr hOffset)
  have hMem : block ∈ m.liveBlocks :=
    (blocks_perm_of_lookup hLookup).mem_iff.mpr (List.mem_cons_self ..)
  have hLiveLeft : ∀ other ∈ blocks (m.usedRdmaMem.erase offset), other.isnull = false :=
    fun other hOther => hTidy.live other (blocks_erase_sublist.subset hOther)
  have hPlain : ∀ e ∈ m.rdmaMem, e.Plain := hTidy.plain (one_le_memSize h hLive hOffset)
  have hFreed := memResFree_of_lookup hLookup
  have hBlock : (memResFree m.usedRdmaMem offset).Plain := by
    rw [hFreed]
    exact ⟨hLive block hMem, hTidy.live block hMem⟩
  have hBlockOffset : (memResFree m.usedRdmaMem offset).offset = offset := by
    rw [hFreed]
    exact h.keyed offset block hLookup
  have hPacked : Packed memSize
      (extentsOf (memResFree m.usedRdmaMem offset :: m.rdmaMem)) := by
    apply (packed_memResFree h offset).sublist
    exact ((List.sublist_append_right _ _).cons_cons _).map _
  obtain ⟨list, used⟩ := m
  cases list with
  | nil =>
      refine ⟨List.pairwise_singleton _ _, fun _ => ?_, hLiveLeft⟩
      intro e hE
      obtain rfl := List.mem_singleton.mp hE
      exact hBlock
  | cons memRes rest =>
      cases hScan : freeScan offset (memResFree used offset) 0 [] (memRes :: rest) with
      | none =>
          simp only [internalFree, hScan]
          exact ⟨hTidy.ordered, fun _ => hPlain, hLiveLeft⟩
      | some merged =>
          simp only [internalFree, hScan]
          rw [← hBlockOffset] at hExact
          have hScan' : freeScan (memResFree used offset).offset (memResFree used offset) 0 []
              (memRes :: rest) = some merged := by
            rw [hBlockOffset]
            exact hScan
          have hApart : ∀ e ∈ memRes :: rest,
              Disjoint (memResFree used offset).extent.bytes e.extent.bytes :=
            fun e hE => (Packed.cons_iff.mp hPacked).2.1 e.extent (List.mem_map_of_mem hE)
          obtain ⟨hOrdered, hPlainMerged⟩ := freeScan_ordered hSize hBlock 0 []
            (memRes :: rest) merged hPacked.inside hApart hTidy.ordered hPlain
            (fun l hL => absurd hL List.not_mem_nil) hExact hScan'
          exact ⟨hOrdered, fun _ => hPlainMerged, hLiveLeft⟩

end Steps

/-- In every run whose frees took exact sums the list is ordered at the end. -/
theorem run_tidy {memSize : Nat} (hSize : memSize < 2 ^ 64) {visits : List (Memory × MemoryOp)}
    {m : Memory} (run : (memoryMachine memSize).RunsTo visits m)
    (hExact : EveryFree (fun m offset => SumsExact offset 0 m.rdmaMem) visits) :
    Tidy memSize m := by
  induction run with
  | zero => exact tidy_initial memSize
  | @succ visits s t op prior last ih =>
      have hTidy := ih fun visit hVisit => hExact visit (List.mem_append_left _ hVisit)
      obtain ⟨hSound, hLive⟩ := reachable_liveNonempty hSize ⟨visits, prior⟩
      obtain ⟨hProper, rfl⟩ := memoryMachine_next last
      cases op with
      | internalAlloc size => exact internalAlloc_tidy hSize hSound hTidy hProper
      | internalFree offset =>
          have hLast : SumsExact offset 0 s.rdmaMem := hExact (s, .internalFree offset) (by simp)
          exact internalFree_tidy hSize hSound hTidy hLive hProper hLast

end BaseRDMA
