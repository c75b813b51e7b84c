import Mathlib.Algebra.GroupWithZero.Nat
import Mathlib.Data.Finset.Union
import Mathlib.Order.Interval.Finset.Nat
import Mathlib.Algebra.BigOperators.Group.List.Basic

/-! Half-open ranges of bytes and the ways of cutting one region into them.
Splitting a range, joining two adjacent ranges and reordering them change
neither the bytes covered nor the total length. -/
namespace Extents

/-- The bytes from `start` on, `length` of them. -/
structure Extent where
  start : Nat
  length : Nat
deriving DecidableEq, Repr

namespace Extent

def stop (e : Extent) : Nat := e.start + e.length

def bytes (e : Extent) : Finset Nat := Finset.Ico e.start e.stop

@[simp] theorem mem_bytes {e : Extent} {x : Nat} :
    x ∈ e.bytes ↔ e.start ≤ x ∧ x < e.start + e.length := by
  simp [bytes, stop]

theorem disjoint_of_length_zero {e f : Extent} (h : e.length = 0) : Disjoint e.bytes f.bytes := by
  have hEmpty : e.bytes = ∅ := by simp [bytes, stop, h]
  simp [hEmpty]

/-- A byte range covers exactly the bytes of its two parts. -/
theorem bytes_split (start left right : Nat) :
    (⟨start, left + right⟩ : Extent).bytes =
      (⟨start, left⟩ : Extent).bytes ∪ (⟨start + left, right⟩ : Extent).bytes := by
  ext x
  simp only [mem_bytes, Finset.mem_union]
  omega

/-- Cutting a range gives two that do not overlap. -/
theorem disjoint_parts (start left right : Nat) :
    Disjoint (⟨start, left⟩ : Extent).bytes (⟨start + left, right⟩ : Extent).bytes := by
  rw [Finset.disjoint_left]
  intro x hLeft hRight
  simp only [mem_bytes] at hLeft hRight
  omega

/-- Two nonempty disjoint ranges cannot start at the same byte. -/
theorem start_ne_of_disjoint {e f : Extent} (hDisjoint : Disjoint e.bytes f.bytes)
    (hLeft : 0 < e.length) (hRight : 0 < f.length) : e.start ≠ f.start := by
  intro hEq
  have hMem : e.start ∈ e.bytes := by simpa using hLeft
  have hOther : e.start ∈ f.bytes := by simp [hEq, hRight]
  exact Finset.disjoint_left.mp hDisjoint hMem hOther

end Extent

/-- Same bytes, cut differently. -/
inductive Recut : List Extent → List Extent → Prop where
  | perm {es fs : List Extent} (h : es.Perm fs) : Recut es fs
  | split (start left right : Nat) (es : List Extent) :
      Recut (⟨start, left + right⟩ :: es) (⟨start, left⟩ :: ⟨start + left, right⟩ :: es)
  | join (start left right : Nat) (es : List Extent) :
      Recut (⟨start, left⟩ :: ⟨start + left, right⟩ :: es) (⟨start, left + right⟩ :: es)
  | trans {es fs gs : List Extent} (first : Recut es fs) (second : Recut fs gs) : Recut es gs

/-- The combined length of a list of ranges. -/
def total (es : List Extent) : Nat := (es.map Extent.length).sum

/-- The bytes covered by a list of ranges. -/
def covered (es : List Extent) : Finset Nat := es.foldr (fun e acc => e.bytes ∪ acc) ∅

/-- Ranges that end by `limit`. -/
def Inside (limit : Nat) (es : List Extent) : Prop := ∀ e ∈ es, e.stop ≤ limit

/-- Ranges inside `[0, limit)` that do not overlap. -/
structure Packed (limit : Nat) (es : List Extent) : Prop where
  inside : Inside limit es
  apart : es.Pairwise fun e f => Disjoint e.bytes f.bytes

@[simp] theorem total_nil : total [] = 0 := rfl

@[simp] theorem total_cons (e : Extent) (es : List Extent) :
    total (e :: es) = e.length + total es := by
  simp [total]

@[simp] theorem total_append (es fs : List Extent) : total (es ++ fs) = total es + total fs := by
  simp [total]

@[simp] theorem mem_covered {es : List Extent} {x : Nat} :
    x ∈ covered es ↔ ∃ e ∈ es, x ∈ e.bytes := by
  induction es with
  | nil => simp [covered]
  | cons e es ih =>
      change x ∈ e.bytes ∪ covered es ↔ _
      rw [Finset.mem_union, ih, List.exists_mem_cons_iff]

namespace Recut

theorem refl (es : List Extent) : Recut es es := perm (List.Perm.refl es)

/-- Recutting a part leaves the remaining ranges alone. -/
theorem cons (e : Extent) {es fs : List Extent} (h : Recut es fs) :
    Recut (e :: es) (e :: fs) := by
  induction h with
  | perm h => exact perm (h.cons e)
  | split start left right es =>
      refine (perm (List.Perm.swap _ _ _)).trans ((split start left right (e :: es)).trans ?_)
      exact perm (((List.Perm.swap e _ es).cons _).trans (List.Perm.swap e _ _))
  | join start left right es =>
      refine Recut.trans (perm ?_) ((join start left right (e :: es)).trans ?_)
      · exact (List.Perm.swap _ e _).trans ((List.Perm.swap _ e es).cons _)
      · exact perm (List.Perm.swap e _ es)
  | trans _ _ ihFirst ihSecond => exact trans ihFirst ihSecond

theorem append_left (es : List Extent) {fs gs : List Extent} (h : Recut fs gs) :
    Recut (es ++ fs) (es ++ gs) := by
  induction es with
  | nil => exact h
  | cons e es ih => exact ih.cons e

/-- Cutting never moves the last byte. -/
theorem inside {limit : Nat} {es fs : List Extent} (h : Recut es fs) (hIn : Inside limit es) :
    Inside limit fs := by
  induction h with
  | perm h => exact fun e he => hIn e (h.mem_iff.mpr he)
  | split start left right es =>
      simp only [Inside, List.forall_mem_cons, Extent.stop] at hIn ⊢
      exact ⟨by omega, by omega, hIn.2⟩
  | join start left right es =>
      simp only [Inside, List.forall_mem_cons, Extent.stop] at hIn ⊢
      exact ⟨by omega, hIn.2.2⟩
  | trans _ _ ihFirst ihSecond => exact ihSecond (ihFirst hIn)

/-- Cutting and joining keep the number of bytes. -/
theorem total_eq {es fs : List Extent} (h : Recut es fs) : total es = total fs := by
  induction h with
  | perm h => exact (h.map Extent.length).sum_eq
  | split start left right es => simp; omega
  | join start left right es => simp; omega
  | trans _ _ ihFirst ihSecond => exact ihFirst.trans ihSecond

theorem covered_eq {es fs : List Extent} (h : Recut es fs) : covered es = covered fs := by
  induction h with
  | @perm es fs h => ext x; simp only [mem_covered, h.mem_iff]
  | split start left right es =>
      change _ ∪ covered es = _ ∪ (_ ∪ covered es)
      rw [Extent.bytes_split, Finset.union_assoc]
  | join start left right es =>
      change _ ∪ (_ ∪ covered es) = _ ∪ covered es
      rw [Extent.bytes_split, Finset.union_assoc]
  | trans _ _ ihFirst ihSecond => exact ihFirst.trans ihSecond

end Recut

namespace Packed

theorem cons_iff {limit : Nat} {e : Extent} {es : List Extent} :
    Packed limit (e :: es) ↔
      e.stop ≤ limit ∧ (∀ f ∈ es, Disjoint e.bytes f.bytes) ∧ Packed limit es := by
  constructor
  · intro h
    obtain ⟨hHead, hTail⟩ := List.pairwise_cons.mp h.apart
    exact ⟨h.inside e (by simp), hHead, fun f hf => h.inside f (by simp [hf]), hTail⟩
  · rintro ⟨hStop, hHead, hTail⟩
    refine ⟨?_, List.pairwise_cons.mpr ⟨hHead, hTail.apart⟩⟩
    intro f hf
    rcases List.mem_cons.mp hf with rfl | hf
    · exact hStop
    · exact hTail.inside f hf

theorem perm {limit : Nat} {es fs : List Extent} (h : Packed limit es) (hPerm : es.Perm fs) :
    Packed limit fs :=
  ⟨fun e he => h.inside e (hPerm.mem_iff.mpr he),
    (hPerm.pairwise_iff fun hDisjoint => hDisjoint.symm).mp h.apart⟩

theorem sublist {limit : Nat} {es fs : List Extent} (h : Packed limit fs)
    (hSub : es.Sublist fs) : Packed limit es :=
  ⟨fun e he => h.inside e (hSub.subset he), h.apart.sublist hSub⟩

/-- An empty range may be added anywhere inside the limit. -/
theorem cons_empty {limit : Nat} {e : Extent} {es : List Extent} (h : Packed limit es)
    (hStop : e.stop ≤ limit) (hEmpty : e.length = 0) : Packed limit (e :: es) :=
  cons_iff.mpr ⟨hStop, fun _ _ => Extent.disjoint_of_length_zero hEmpty, h⟩

private theorem split {limit start left right : Nat} {es : List Extent}
    (h : Packed limit (⟨start, left + right⟩ :: es)) :
    Packed limit (⟨start, left⟩ :: ⟨start + left, right⟩ :: es) := by
  obtain ⟨hStop, hHead, hTail⟩ := cons_iff.mp h
  simp only [Extent.bytes_split, Finset.disjoint_union_left] at hHead
  simp only [Extent.stop] at hStop
  refine cons_iff.mpr ⟨by simp [Extent.stop]; omega, ?_, cons_iff.mpr ⟨?_, ?_, hTail⟩⟩
  · intro f hf
    rcases List.mem_cons.mp hf with rfl | hf
    · exact Extent.disjoint_parts start left right
    · exact (hHead f hf).1
  · simp only [Extent.stop]
    omega
  · exact fun f hf => (hHead f hf).2

private theorem join {limit start left right : Nat} {es : List Extent}
    (h : Packed limit (⟨start, left⟩ :: ⟨start + left, right⟩ :: es)) :
    Packed limit (⟨start, left + right⟩ :: es) := by
  obtain ⟨_, hLeft, hRest⟩ := cons_iff.mp h
  obtain ⟨hStop, hRight, hTail⟩ := cons_iff.mp hRest
  refine cons_iff.mpr ⟨by simpa [Extent.stop, Nat.add_assoc] using hStop, ?_, hTail⟩
  intro f hf
  rw [Extent.bytes_split, Finset.disjoint_union_left]
  exact ⟨hLeft f (by simp [hf]), hRight f hf⟩

theorem recut {limit : Nat} {es fs : List Extent} (h : Packed limit es) (hRecut : Recut es fs) :
    Packed limit fs := by
  induction hRecut with
  | perm hPerm => exact h.perm hPerm
  | split start left right es => exact h.split
  | join start left right es => exact h.join
  | trans _ _ ihFirst ihSecond => exact ihSecond (ihFirst h)

/-- Bytes of one range are covered by no other range of a packed list. -/
theorem notMem_covered {limit : Nat} {e : Extent} {es : List Extent}
    (h : Packed limit (e :: es)) {x : Nat} (hx : x ∈ e.bytes) : x ∉ covered es := by
  rw [mem_covered]
  rintro ⟨f, hf, hxf⟩
  exact Finset.disjoint_left.mp ((cons_iff.mp h).2.1 f hf) hx hxf

end Packed
end Extents
