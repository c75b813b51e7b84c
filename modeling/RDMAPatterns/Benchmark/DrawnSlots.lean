import RDMAPatterns.Benchmark.ResponseRanges

/-! Which slots of its range a worker of the dispatcher ever asks for. The end of
the range is its last slot, and the draw takes it for the slot behind the last. -/
namespace BenchmarkDispatcher

open Benchmark BenchmarkReceiver

namespace RecvInfo

/-- The modulus of `benchmarkPhase`, of type `size_t`. -/
def modulus (info : RecvInfo) : Nat := sizeT (info.last - info.first)

/-- The id of a request, from a number of `rand_r`. -/
def drawnId (info : RecvInfo) (randNumber : Nat) : Nat :=
  sizeT (randNumber % info.modulus + info.first : Nat)

/-- The draws divide by something and give the slots of the range and no others. -/
def WholeRangeDrawn (info : RecvInfo) : Prop :=
  info.modulus ≠ 0 ∧
    ∀ slot, (∃ randNumber, info.drawnId randNumber = slot) ↔ info.first ≤ slot ∧ slot ≤ info.last

end RecvInfo

/-- The slot in a request of a dispatcher worker is drawn so. -/
theorem Setup.request_id (x : Setup) (worker k : Nat) :
    (x.request worker k).id = (x.pickedReceiverID worker k).drawnId (x.rand worker k) :=
  rfl

namespace RecvInfo

variable {info : RecvInfo}

/-- The last slot is one step of the modulus away from the first, also when the
subtraction wraps around. -/
theorem drawnId_ne_last (hModulus : info.modulus ≠ 0) (randNumber : Nat) :
    info.drawnId randNumber ≠ info.last := by
  have hDraw : randNumber % info.modulus < info.modulus :=
    Nat.mod_lt _ (Nat.pos_of_ne_zero hModulus)
  have hModulusEq : (info.modulus : Int) = ((info.last : Int) - info.first) % 2 ^ 64 :=
    Int.toNat_of_nonneg (Int.emod_nonneg _ (by decide))
  rw [drawnId, sizeT]
  omega

theorem not_wholeRangeDrawn : ¬info.WholeRangeDrawn := by
  intro ⟨hModulus, hDrawn⟩
  by_cases hEmpty : info.last < info.first
  · have hIn := (hDrawn (info.drawnId 0)).mp ⟨0, rfl⟩
    omega
  · obtain ⟨randNumber, hId⟩ := (hDrawn info.last).mpr ⟨by omega, Nat.le_refl _⟩
    exact drawnId_ne_last hModulus randNumber hId

/-- Drawn is every slot of the range but its last. -/
theorem exists_drawnId_iff (hLast : info.last < 2 ^ 64) (hSome : info.first < info.last)
    (slot : Nat) :
    (∃ randNumber, info.drawnId randNumber = slot) ↔ info.first ≤ slot ∧ slot < info.last := by
  have hModulus : info.modulus = info.last - info.first := by
    rw [modulus, ← Nat.cast_sub (by omega)]
    exact sizeT_of_lt (by omega)
  have hId (randNumber : Nat) : info.drawnId randNumber =
      randNumber % (info.last - info.first) + info.first := by
    have hDraw : randNumber % (info.last - info.first) < info.last - info.first :=
      Nat.mod_lt _ (by omega)
    rw [drawnId, hModulus]
    exact sizeT_of_lt (by omega)
  constructor
  · intro ⟨randNumber, hSlot⟩
    have hDraw : randNumber % (info.last - info.first) < info.last - info.first :=
      Nat.mod_lt _ (by omega)
    rw [hId] at hSlot
    omega
  · intro ⟨hFirst, hBelow⟩
    refine ⟨slot - info.first, ?_⟩
    rw [hId, Nat.mod_eq_of_lt (by omega)]
    omega

end RecvInfo

/-- No sender can use its whole partition: its last slot is never drawn, and if it
is the only one the draw divides by zero. -/
theorem partition_never_drawn_whole (N m i receiver msgOffset : Nat) :
    ¬(RecvInfo.ofReply receiver (initReply N i m msgOffset)).WholeRangeDrawn :=
  RecvInfo.not_wholeRangeDrawn

/-- Three of ten slots, and one of three. -/
theorem partition_not_drawn_whole_ten :
    partition 10 0 3 = (0, 2) ∧
      (RecvInfo.ofReply 3 (initReply 10 0 3 0)).modulus = 2 ∧
      ¬(RecvInfo.ofReply 3 (initReply 10 0 3 0)).WholeRangeDrawn ∧
      partition 3 0 3 = (0, 0) ∧ (RecvInfo.ofReply 3 (initReply 3 0 3 0)).modulus = 0 := by
  refine ⟨by decide, by decide, ?_, by decide, by decide⟩
  intro ⟨hModulus, hDrawn⟩
  obtain ⟨randNumber, hId⟩ := (hDrawn 2).mpr (by decide)
  exact RecvInfo.drawnId_ne_last hModulus randNumber hId

end BenchmarkDispatcher
