import Mathlib.Data.List.Nodup
import Mathlib.Data.List.Perm.Subperm
import RDMAPatterns.Extents.Recut

/-! Ordered lists of ranges with a gap between any two. Such a list is the list of
the maximal runs of the bytes it covers, so it is determined by these bytes. -/
namespace Extents

/-- Of two disjoint ranges the one that starts first ends first. -/
theorem Extent.stop_le_of_disjoint {e f : Extent} (hDisjoint : Disjoint e.bytes f.bytes)
    (hStart : e.start ≤ f.start) (hPos : 0 < f.length) : e.stop ≤ f.start := by
  by_contra hOverlap
  have hE : f.start ∈ e.bytes := mem_bytes.mpr ⟨hStart, Nat.lt_of_not_le hOverlap⟩
  have hF : f.start ∈ f.bytes := mem_bytes.mpr ⟨Nat.le_refl _, Nat.lt_add_of_pos_right hPos⟩
  exact Finset.disjoint_left.mp hDisjoint hE hF

/-- A stretch of bytes that cannot be extended at either end. -/
structure MaximalRun (bytes : Finset Nat) (start stop : Nat) : Prop where
  nonempty : start < stop
  inside : ∀ x, start ≤ x → x < stop → x ∈ bytes
  before : ∀ x, x + 1 = start → x ∉ bytes
  after : stop ∉ bytes

/-- There are `size` bytes in a row. -/
def HasRun (bytes : Finset Nat) (size : Nat) : Prop :=
  ∃ start, ∀ x, start ≤ x → x < start + size → x ∈ bytes

/-- The lowest maximal run of at least `size` bytes starts at `start`. -/
structure LowestRun (bytes : Finset Nat) (size start : Nat) : Prop where
  run : ∃ stop, MaximalRun bytes start stop ∧ start + size ≤ stop
  lowest : ∀ otherStart otherStop, MaximalRun bytes otherStart otherStop →
    otherStart + size ≤ otherStop → start ≤ otherStart

/-- In order, and with a gap in between. -/
def Coalesced (es : List Extent) : Prop := es.Pairwise fun e f => e.stop < f.start

namespace Coalesced

variable {es fs : List Extent} {e f : Extent} {start stop size : Nat}

/-- Two ranges of the list are the same, or one ends before the other starts. -/
theorem apart (h : Coalesced es) (hE : e ∈ es) (hF : f ∈ es) :
    e = f ∨ e.stop < f.start ∨ f.stop < e.start := by
  induction es with
  | nil => cases hE
  | cons g es ih =>
      obtain ⟨hHead, hTail⟩ := List.pairwise_cons.mp h
      rcases List.mem_cons.mp hE with rfl | hETail
      · rcases List.mem_cons.mp hF with rfl | hFTail
        · exact .inl rfl
        · exact .inr (.inl (hHead f hFTail))
      · rcases List.mem_cons.mp hF with rfl | hFTail
        · exact .inr (.inr (hHead e hETail))
        · exact ih hTail hETail hFTail

/-- The byte behind a range is not covered. -/
theorem stop_notMem (h : Coalesced es) (hE : e ∈ es) : e.stop ∉ covered es := by
  rw [mem_covered]
  rintro ⟨f, hF, hByte⟩
  rw [Extent.mem_bytes] at hByte
  have hApart := h.apart hE hF
  simp only [Extent.stop] at hApart hByte
  rcases hApart with rfl | hBelow | hAbove <;> omega

theorem before_notMem (h : Coalesced es) (hE : e ∈ es) {x : Nat} (hX : x + 1 = e.start) :
    x ∉ covered es := by
  rw [mem_covered]
  rintro ⟨f, hF, hByte⟩
  rw [Extent.mem_bytes] at hByte
  have hApart := h.apart hE hF
  simp only [Extent.stop] at hApart
  rcases hApart with rfl | hBelow | hAbove <;> omega

/-- A nonempty range is a maximal run. -/
theorem maximalRun (h : Coalesced es) (hE : e ∈ es) (hPos : 0 < e.length) :
    MaximalRun (covered es) e.start e.stop where
  nonempty := Nat.lt_add_of_pos_right hPos
  inside := by
    intro x hFrom hTo
    exact mem_covered.mpr ⟨e, hE, Extent.mem_bytes.mpr ⟨hFrom, hTo⟩⟩
  before := by
    intro x hX
    exact h.before_notMem hE hX
  after := h.stop_notMem hE

/-- Covered bytes in a row lie in one range. -/
theorem exists_containing (h : Coalesced es) (hPos : start < stop)
    (hInside : ∀ x, start ≤ x → x < stop → x ∈ covered es) :
    ∃ e ∈ es, e.start ≤ start ∧ stop ≤ e.stop := by
  obtain ⟨e, hE, hByte⟩ := mem_covered.mp (hInside start (Nat.le_refl start) hPos)
  rw [Extent.mem_bytes] at hByte
  refine ⟨e, hE, hByte.1, ?_⟩
  by_contra hShort
  have hBeyond : e.stop < stop := Nat.lt_of_not_le hShort
  exact h.stop_notMem hE (hInside e.stop (Nat.le_of_lt hByte.2) hBeyond)

/-- The maximal runs are ranges of the list. -/
theorem exists_of_maximalRun (h : Coalesced es) (hRun : MaximalRun (covered es) start stop) :
    ∃ e ∈ es, e.start = start ∧ e.stop = stop := by
  obtain ⟨e, hE, hStart, hStop⟩ := h.exists_containing hRun.nonempty hRun.inside
  have hInside (x : Nat) (hFrom : e.start ≤ x) (hTo : x < e.stop) : x ∈ covered es :=
    mem_covered.mpr ⟨e, hE, Extent.mem_bytes.mpr ⟨hFrom, hTo⟩⟩
  have hNonempty := hRun.nonempty
  refine ⟨e, hE, ?_, ?_⟩
  · by_contra hLonger
    have hLt : e.start < start := Nat.lt_of_le_of_ne hStart hLonger
    exact hRun.before (start - 1) (by omega) (hInside _ (by omega) (by omega))
  · by_contra hLonger
    have hLt : stop < e.stop := Nat.lt_of_le_of_ne hStop (Ne.symm hLonger)
    exact hRun.after (hInside stop (by omega) hLt)

theorem hasRun_iff (h : Coalesced es) (hPos : 0 < size) :
    HasRun (covered es) size ↔ ∃ e ∈ es, size ≤ e.length := by
  constructor
  · rintro ⟨start, hInside⟩
    obtain ⟨e, hE, hStart, hStop⟩ :=
      h.exists_containing (Nat.lt_add_of_pos_right hPos) hInside
    simp only [Extent.stop] at hStop
    exact ⟨e, hE, by omega⟩
  · rintro ⟨e, hE, hLong⟩
    refine ⟨e.start, ?_⟩
    intro x hFrom hTo
    exact mem_covered.mpr ⟨e, hE, Extent.mem_bytes.mpr ⟨hFrom, by omega⟩⟩

/-- First fit in list order finds the lowest run that is long enough. -/
theorem lowestRun {before after : List Extent} (h : Coalesced (before ++ e :: after))
    (hPos : 0 < size) (hLong : size ≤ e.length) (hShort : ∀ f ∈ before, f.length < size) :
    LowestRun (covered (before ++ e :: after)) size e.start where
  run := ⟨e.stop, h.maximalRun (by simp) (Nat.lt_of_lt_of_le hPos hLong),
    Nat.add_le_add_left hLong _⟩
  lowest := by
    intro otherStart otherStop hRun hEnough
    obtain ⟨f, hMem, rfl, rfl⟩ := h.exists_of_maximalRun hRun
    have hFits : size ≤ f.length := Nat.le_of_add_le_add_left hEnough
    rcases List.mem_append.mp hMem with hBefore | hFrom
    · exact absurd hFits (Nat.not_le_of_lt (hShort f hBefore))
    · rcases List.mem_cons.mp hFrom with rfl | hAfter
      · exact Nat.le_refl _
      · have hGap := (List.pairwise_cons.mp (List.pairwise_append.mp h).2.1).1 f hAfter
        exact (Nat.le_add_right _ _).trans (Nat.le_of_lt hGap)

theorem nodup (h : Coalesced es) : es.Nodup := by
  apply List.Pairwise.imp _ h
  intro e f hBelow hSame
  rw [hSame, Extent.stop] at hBelow
  omega

/-- Every nonempty range of one list is in any other list over the same bytes. -/
theorem subset_of_covered_eq (hE : Coalesced es) (hF : Coalesced fs)
    (hPos : ∀ e ∈ es, 0 < e.length) (hCovered : covered es = covered fs) : es ⊆ fs := by
  intro e hMem
  have hRun := hE.maximalRun hMem (hPos e hMem)
  rw [hCovered] at hRun
  obtain ⟨f, hFMem, hStart, hStop⟩ := hF.exists_of_maximalRun hRun
  have hSame : f = e := by
    obtain ⟨fStart, fLength⟩ := f
    obtain ⟨eStart, eLength⟩ := e
    simp only [Extent.stop, Extent.mk.injEq] at hStart hStop ⊢
    omega
  exact hSame ▸ hFMem

/-- The bytes determine the list. -/
theorem eq_of_covered_eq (hE : Coalesced es) (hF : Coalesced fs)
    (hPosE : ∀ e ∈ es, 0 < e.length) (hPosF : ∀ f ∈ fs, 0 < f.length)
    (hCovered : covered es = covered fs) : es = fs := by
  have hPerm : es.Perm fs :=
    (hE.nodup.subperm (hE.subset_of_covered_eq hF hPosE hCovered)).antisymm
      (hF.nodup.subperm (hF.subset_of_covered_eq hE hPosF hCovered.symm))
  apply hPerm.eq_of_pairwise _ hE hF
  intro e f _ _ hBelow hAbove
  simp only [Extent.stop] at hBelow hAbove
  omega

end Coalesced
end Extents
