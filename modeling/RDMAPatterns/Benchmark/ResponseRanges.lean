import RDMAPatterns.Benchmark.Dispatcher

/-! The ranges of response slots that the init phase hands out, and the requests
that workers of a dispatcher draw from them. -/
namespace BenchmarkReceiver

open Benchmark

/-- The reply of `initPhase` to a sender. The ends of the range travel in fields
of type `size_t`. -/
def initReply (numberPreparedResponses nodeId maxNodeId msgOffset : Nat) : MessageBase where
  msgId := sizeT (partition numberPreparedResponses nodeId maxNodeId).1
  id := sizeT (partition numberPreparedResponses nodeId maxNodeId).2
  rdmaPtr := msgOffset
  type := .initExp

end BenchmarkReceiver

namespace BenchmarkDispatcher

open Benchmark BenchmarkReceiver

/-- `BenchmarkSender::initPhase`, on the reply of a receiver. -/
def RecvInfo.ofReply (nodeId : Nat) (recvMsg : MessageBase) : RecvInfo where
  nodeId := nodeId
  msgOffset := recvMsg.rdmaPtr
  first := recvMsg.msgId
  last := recvMsg.id

section Range

variable {N m i j : Nat}

/-- The range of a sender, both ends included, as `partition` computes it. -/
def InRange (N m i : Nat) (slot : Int) : Prop :=
  (partition N i m).1 ≤ slot ∧ slot ≤ (partition N i m).2

theorem inRange_iff (hSmall : N < 2 ^ 31) (hPos : 1 ≤ m) (hLe : m ≤ N) (hI : i < m) (x : Nat) :
    InRange N m i x ↔ InBlock N m i x := by
  have hWidth : 0 < N / m := width_pos hPos hLe
  have hStopPos : 0 < (i + 1) * (N / m) := Nat.mul_pos (Nat.succ_pos i) hWidth
  rw [InRange, InBlock, partition_eq hSmall hPos hLe hI]
  split <;> omega

theorem InRange.nonneg (hSmall : N < 2 ^ 31) (hPos : 1 ≤ m) (hLe : m ≤ N) (hI : i < m)
    {slot : Int} (h : InRange N m i slot) : 0 ≤ slot := by
  rw [InRange, partition_eq hSmall hPos hLe hI] at h
  exact (Int.natCast_nonneg _).trans h.1

/-- The reply gives the two ends unchanged. -/
theorem ofReply_range (hSmall : N < 2 ^ 31) (hPos : 1 ≤ m) (hLe : m ≤ N) (hI : i < m)
    (receiver msgOffset : Nat) :
    (RecvInfo.ofReply receiver (initReply N i m msgOffset)).first = i * (N / m) ∧
    (RecvInfo.ofReply receiver (initReply N i m msgOffset)).last =
      (if i = m - 1 then N else (i + 1) * (N / m)) - 1 := by
  have hFirst : i * (N / m) ≤ N := mul_width_le (Nat.le_of_lt hI)
  have hStop : (i + 1) * (N / m) ≤ N := mul_width_le hI
  simp only [RecvInfo.ofReply, initReply, partition_eq hSmall hPos hLe hI]
  rw [sizeT_of_lt (by omega), sizeT_of_lt (by split <;> omega)]
  exact ⟨rfl, rfl⟩

/-- A request to a receiver names a slot in the range that it replied with. -/
theorem request_inBlock (hSmall : N < 2 ^ 31) (hPos : 1 ≤ m) (hWide : 2 ≤ N / m) (hI : i < m)
    {x : Setup} {worker k receiver msgOffset : Nat}
    (hPicked : x.pickedReceiverID worker k =
      RecvInfo.ofReply receiver (initReply N i m msgOffset)) :
    InBlock N m i (x.request worker k).id := by
  have hLe : m ≤ N := by
    have hPosDiv : 0 < N / m := by omega
    exact (Nat.div_pos_iff.mp hPosDiv).2
  have hFirst : i * (N / m) ≤ N := mul_width_le (Nat.le_of_lt hI)
  have hStop : (i + 1) * (N / m) ≤ N := mul_width_le hI
  have hNext : (i + 1) * (N / m) = i * (N / m) + N / m := Nat.succ_mul i (N / m)
  obtain ⟨hInfoFirst, hInfoLast⟩ := ofReply_range hSmall hPos hLe hI receiver msgOffset
  -- The draw is taken modulo one less than the length of the range.
  generalize hStopEq : (if i = m - 1 then N else (i + 1) * (N / m)) = stop at hInfoLast
  have hStopLe : stop ≤ N ∧ i * (N / m) + N / m ≤ stop := by
    rw [← hStopEq]
    split <;> omega
  have hSpan : sizeT (((stop - 1 : Nat) : Int) - (i * (N / m) : Nat)) =
      stop - 1 - i * (N / m) := by
    rw [← Nat.cast_sub (by omega)]
    exact sizeT_of_lt (by omega)
  have hId : (x.request worker k).id =
      sizeT ((x.rand worker k % (stop - 1 - i * (N / m)) + i * (N / m) : Nat)) := by
    simp only [Setup.request, hPicked, hInfoFirst, hInfoLast]
    rw [hSpan]
  have hDraw : x.rand worker k % (stop - 1 - i * (N / m)) < stop - 1 - i * (N / m) :=
    Nat.mod_lt _ (by omega)
  rw [hId, sizeT_of_lt (by omega), InBlock, hStopEq]
  omega

/-- The ranges of all senders divide the response buffer, and the requests of two
senders to one receiver never name the same slot. -/
theorem response_ranges_apart (hSmall : N < 2 ^ 31) (hPos : 1 ≤ m) (hLe : m ≤ N) :
    (∀ i < m, (partition N i m).1 ≤ (partition N i m).2) ∧
    (∀ i < m, ∀ j < m, i ≠ j → ∀ slot, ¬(InRange N m i slot ∧ InRange N m j slot)) ∧
    (∀ slot : Int, (∃ i < m, InRange N m i slot) ↔ 0 ≤ slot ∧ slot ≤ N - 1) ∧
    (2 ≤ N / m →
      (∀ (x : Setup) (worker k i receiver msgOffset : Nat), i < m →
        x.pickedReceiverID worker k = RecvInfo.ofReply receiver (initReply N i m msgOffset) →
        InRange N m i (x.request worker k).id ∧ (x.request worker k).id < N) ∧
      (∀ (x y : Setup) (worker other k l i j receiver msgOffset otherOffset : Nat),
        i < m → j < m → i ≠ j →
        x.pickedReceiverID worker k = RecvInfo.ofReply receiver (initReply N i m msgOffset) →
        y.pickedReceiverID other l = RecvInfo.ofReply receiver (initReply N j m otherOffset) →
        (x.request worker k).id ≠ (y.request other l).id)) := by
  have hToNat {i : Nat} (hI : i < m) {slot : Int} (h : InRange N m i slot) :
      InBlock N m i slot.toNat := by
    rw [← inRange_iff hSmall hPos hLe hI, Int.toNat_of_nonneg (h.nonneg hSmall hPos hLe hI)]
    exact h
  refine ⟨?_, ?_, ?_, ?_⟩
  · intro i hI
    have hStart := inBlock_start_add hI (width_pos hPos hLe)
    have hIn := (inRange_iff hSmall hPos hLe hI _).mpr hStart
    exact hIn.1.trans hIn.2
  · intro i hI j hJ hNe slot hBoth
    exact hNe (InBlock.unique hPos hLe hI hJ (hToNat hI hBoth.1) (hToNat hJ hBoth.2))
  · intro slot
    constructor
    · intro ⟨i, hI, hIn⟩
      have hNonneg : 0 ≤ slot := hIn.nonneg hSmall hPos hLe hI
      have hBelow : slot.toNat < N := (exists_inBlock_iff hPos hLe).mp ⟨i, hI, hToNat hI hIn⟩
      omega
    · intro ⟨hNonneg, hBelow⟩
      obtain ⟨i, hI, hIn⟩ := (exists_inBlock_iff (x := slot.toNat) hPos hLe).mpr (by omega)
      refine ⟨i, hI, ?_⟩
      rw [← Int.toNat_of_nonneg hNonneg]
      exact (inRange_iff hSmall hPos hLe hI _).mpr hIn
  · intro hWide
    constructor
    · intro x worker k i receiver msgOffset hI hPicked
      have hIn := request_inBlock hSmall hPos hWide hI hPicked
      exact ⟨(inRange_iff hSmall hPos hLe hI _).mpr hIn, ((inBlock_iff hPos hLe hI).mp hIn).1⟩
    · intro x y worker other k l i j receiver msgOffset otherOffset hI hJ hNe hX hY hSame
      have hInX := request_inBlock hSmall hPos hWide hI hX
      have hInY := request_inBlock hSmall hPos hWide hJ hY
      rw [hSame] at hInX
      exact hNe (InBlock.unique hPos hLe hI hJ hInX hInY)

end Range

/-- What a receiver with ten slots replies to three senders. -/
def threeRanges (worker : Nat) : RecvInfo :=
  RecvInfo.ofReply 3 (initReply 10 worker 3 (worker * sizeofMessageBase))

/-- Three workers with the node ids 0, 1 and 2, and one receiver with ten slots. -/
def tenSlots : Setup where
  poll := .srq
  localSender := 3
  requests worker := if worker < 3 then 5 else 0
  rand worker i := 12345 + 7 * i + worker
  recvIds worker := [threeRanges worker]
  sharedNodeId := 4
  respBase := 0
  sizeofResponse := 64
  sizeofResponse_pos := by decide
  recvIds_ne_nil _ _ := List.cons_ne_nil _ _
  range_pos worker hRequests info hInfo := by
    obtain rfl := List.mem_singleton.mp hInfo
    have hWorker : worker < 3 := by
      by_contra hOther
      rw [if_neg hOther] at hRequests
      exact Nat.lt_irrefl 0 hRequests
    have hWide : ∀ worker < 3,
        0 < sizeT ((threeRanges worker).last - (threeRanges worker).first) := by decide
    exact hWide worker hWorker

theorem response_ranges_apart_tenSlots :
    partition 10 2 3 = (6, 9) ∧ (tenSlots.request 2 4).id < 10 ∧
      (tenSlots.request 2 4).id ≠ (tenSlots.request 0 1).id := by
  have hApart :=
    (response_ranges_apart (N := 10) (m := 3) (by decide) (by decide) (by decide)).2.2.2 (by decide)
  have hIn := hApart.1 tenSlots 2 4 2 3 (2 * sizeofMessageBase) (by decide) rfl
  have hOther := hApart.2 tenSlots tenSlots 2 0 4 1 2 0 3 (2 * sizeofMessageBase)
    (0 * sizeofMessageBase) (by decide) (by decide) (by decide) rfl rfl
  exact ⟨by decide, hIn.2, hOther⟩

end BenchmarkDispatcher
