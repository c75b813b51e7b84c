import RDMAPatterns.Memory.Safety
import RDMAPatterns.Verbs.Signaling

/-! `localAlloc` and the two forms of `localFree`, which callers use instead of the
allocator itself. A pointer is its address, and `buffer` is the address of the
registered buffer. -/

/-- The conversion of a pointer difference to `size_t`. -/
def BaseRDMA.sizeTOfDiff (diff : Int) : Nat := (diff % 2 ^ 64).toNat

def BaseRDMA.convertOffsetToPointer (buffer offset : Nat) : Nat := buffer + offset

def BaseRDMA.convertPointerToOffset (buffer ptr : Nat) : Nat :=
  BaseRDMA.sizeTOfDiff ((ptr : Int) - buffer)

/-- `ibv_sge`. The length has 32 bits. -/
structure Verbs.Sge where
  addr : Nat
  length : Nat
deriving DecidableEq, Repr

namespace ReliableRDMA

open BaseRDMA Verbs

def localAlloc (buffer : Nat) (m : Memory) (size : Nat) : Except String Nat × Memory :=
  let (memRes, m) := internalAlloc m size
  if !memRes.isnull then (.ok (buffer + memRes.offset), m)
  else (.error "Could not allocate local rdma memory", m)

/-- `localFree(const size_t&)`. -/
def localFreeOffset (m : Memory) (offset : Nat) : Except String Unit × Memory :=
  internalFree m offset

/-- `localFree(const void*)`. -/
def localFree (buffer : Nat) (m : Memory) (ptr : Nat) : Except String Unit × Memory :=
  internalFree m (sizeTOfDiff ((ptr : Int) - buffer))

/-- The memory that `receive` posts. -/
def receive (memAddr size : Nat) : Sge where
  addr := memAddr
  length := size % 2 ^ 32

end ReliableRDMA

namespace UnreliableRDMA

open BaseRDMA Verbs

/-- `Config::RDMA_UD_OFFSET`. -/
def RDMA_UD_OFFSET : Nat := 40

def localAlloc (buffer : Nat) (m : Memory) (size : Nat) : Except String Nat × Memory :=
  let (memRes, m) := internalAlloc m (sizeT (size + RDMA_UD_OFFSET))
  if !memRes.isnull then (.ok (buffer + memRes.offset + RDMA_UD_OFFSET), m)
  else (.error ("UnreliableRDMA allocating local memory failed! Size: " ++ toString size), m)

/-- `localFree(const size_t&)`. -/
def localFreeOffset (m : Memory) (offset : Nat) : Except String Unit × Memory :=
  internalFree m offset

/-- `localFree(const void*)`. -/
def localFree (buffer : Nat) (m : Memory) (ptr : Nat) : Except String Unit × Memory :=
  internalFree m (sizeTOfDiff ((ptr : Int) - buffer - RDMA_UD_OFFSET))

/-- The memory that `receive` posts, from the header on. -/
def receive (memAddr size : Nat) : Sge where
  addr := memAddr - RDMA_UD_OFFSET
  length := sizeT (size + RDMA_UD_OFFSET) % 2 ^ 32

end UnreliableRDMA

namespace BaseRDMA

open Transition Verbs UnreliableRDMA
open SelectiveSignaling (Transport)

section Virtual

variable (transport : Transport)

def localAlloc (buffer : Nat) (m : Memory) (size : Nat) : Except String Nat × Memory :=
  match transport with
  | .reliableRDMA => ReliableRDMA.localAlloc buffer m size
  | .unreliableRDMA => UnreliableRDMA.localAlloc buffer m size

def localFreeOffset (m : Memory) (offset : Nat) : Except String Unit × Memory :=
  match transport with
  | .reliableRDMA => ReliableRDMA.localFreeOffset m offset
  | .unreliableRDMA => UnreliableRDMA.localFreeOffset m offset

def localFree (buffer : Nat) (m : Memory) (ptr : Nat) : Except String Unit × Memory :=
  match transport with
  | .reliableRDMA => ReliableRDMA.localFree buffer m ptr
  | .unreliableRDMA => UnreliableRDMA.localFree buffer m ptr

def receive (memAddr size : Nat) : Sge :=
  match transport with
  | .reliableRDMA => ReliableRDMA.receive memAddr size
  | .unreliableRDMA => UnreliableRDMA.receive memAddr size

/-- What the call of `internalAlloc` in `localAlloc` asks for. -/
def requested (size : Nat) : Nat :=
  match transport with
  | .reliableRDMA => size
  | .unreliableRDMA => sizeT (size + RDMA_UD_OFFSET)

/-- The bytes between the start of the block and the pointer. -/
def header : Nat :=
  match transport with
  | .reliableRDMA => 0
  | .unreliableRDMA => RDMA_UD_OFFSET

/-- The block that `localAlloc` reserves. -/
def reserved (m : Memory) (size : Nat) : RdmaMem := (internalAlloc m (requested transport size)).1

end Virtual

/-- The allocator under callers of any kind. -/
def anyCallerMachine (memSize : Nat) : Machine Memory MemoryOp where
  init := Memory.initial memSize
  next m op := some (op.apply m)

/-- The bytes from an address on lie inside a block. -/
def BytesInside (buffer : Nat) (block : RdmaMem) (addr length : Nat) : Prop :=
  ∀ x, addr ≤ x → x < addr + length →
    convertOffsetToPointer buffer block.offset ≤ x ∧
      x < convertOffsetToPointer buffer block.offset + block.size

/-- The bytes that the caller gets, and those in front of them that `receive` posts,
lie inside the block, and in the state `now` both forms of `localFree` free it. -/
structure Undoes (transport : Transport) (buffer : Nat) (block : RdmaMem) (size ptr : Nat)
    (now : Memory) : Prop where
  bytes : BytesInside buffer block ptr size
  posted : BytesInside buffer block (receive transport ptr size).addr
    (ptr - (receive transport ptr size).addr)
  pointer : (localFree transport buffer now ptr).2 = (internalFree now block.offset).2
  offset : (localFreeOffset transport now (convertPointerToOffset buffer ptr)).2 =
    (internalFree now block.offset).2

/-- The blocks are apart whatever the callers ask for. -/
theorem reachable_anyCaller_sound {memSize : Nat} (hSize : memSize < 2 ^ 64) {m : Memory}
    (h : (anyCallerMachine memSize).Reachable m) : Sound memSize m := by
  apply h.invariant (sound_initial memSize)
  intro s op t hSound hNext
  obtain rfl : op.apply s = t := Option.some.inj hNext
  exact apply_sound hSize hSound op

theorem sizeTOfDiff_natCast (n : Nat) : sizeTOfDiff n = n % 2 ^ 64 := by
  rw [sizeTOfDiff]
  omega

/-- To free another key is not to free this one. -/
theorem internalFree_ne {now : Memory} {key other : Nat} (hHeld : key ∈ now.usedRdmaMem)
    (hNe : other ≠ key) : (internalFree now other).2 ≠ (internalFree now key).2 := by
  intro hSame
  have hUsed := congrArg Memory.usedRdmaMem hSame
  rw [internalFree_used, internalFree_used] at hUsed
  have hGone : key ∉ now.usedRdmaMem.erase key := by simp [AList.mem_erase]
  rw [← hUsed, AList.mem_erase] at hGone
  exact hGone ⟨hNe.symm, hHeld⟩

/-- The header fits in front of what was asked for. -/
theorem requested_eq {transport : Transport} {size : Nat}
    (hFits : size + header transport < 2 ^ 64) :
    requested transport size = size + header transport := by
  cases transport with
  | reliableRDMA => rfl
  | unreliableRDMA => exact sizeT_of_lt hFits

theorem receive_addr (transport : Transport) (memAddr size : Nat) :
    (receive transport memAddr size).addr = memAddr - header transport := by
  cases transport with
  | reliableRDMA => rfl
  | unreliableRDMA => rfl

section Returned

variable {transport : Transport} {memSize buffer size ptr : Nat} {m after : Memory}
  (hSize : memSize < 2 ^ 64) (h : Sound memSize m)
  (hReturns : localAlloc transport buffer m size = (.ok ptr, after))

include hReturns in
/-- A call that returns has reserved a block, and points behind its header. -/
theorem localAlloc_ok : (reserved transport m size).isnull = false ∧
    ptr = buffer + (reserved transport m size).offset + header transport ∧
    after = (internalAlloc m (requested transport size)).2 := by
  cases transport with
  | reliableRDMA =>
      simp only [localAlloc, ReliableRDMA.localAlloc] at hReturns
      split at hReturns
      case isTrue hBlock =>
        cases hReturns
        exact ⟨by simpa [reserved, requested] using hBlock, rfl, rfl⟩
      case isFalse => cases hReturns
  | unreliableRDMA =>
      simp only [localAlloc, UnreliableRDMA.localAlloc] at hReturns
      split at hReturns
      case isTrue hBlock =>
        cases hReturns
        exact ⟨by simpa [reserved, requested] using hBlock, rfl, rfl⟩
      case isFalse => cases hReturns

include hSize h hReturns

/-- The block that was reserved lies inside the buffer and is live. -/
theorem reserved_spec : (reserved transport m size).size = requested transport size ∧
    (reserved transport m size).offset + requested transport size ≤ memSize ∧
    (reserved transport m size).offset ∈ after.usedRdmaMem := by
  obtain ⟨hBlock, _, hAfter⟩ := localAlloc_ok hReturns
  rw [reserved] at hBlock ⊢
  rcases internalAlloc_cases hSize h (requested transport size) with
    ⟨_, hNone⟩ | ⟨block, left, hSome, _, hLength, hRecut, _⟩
  · rw [hNone] at hBlock
    cases hBlock
  · rw [hAfter, hSome]
    have hInside := (h.cut hRecut).inside block.extent
      (List.mem_append_right _ (List.mem_map_of_mem (List.mem_cons_self ..)))
    refine ⟨hLength, ?_, (AList.mem_insert _).mpr (.inl rfl)⟩
    rw [← hLength]
    exact hInside

/-- The pointer form finds the block on both transports, whatever the size. -/
theorem localFree_pointer (now : Memory) : localFree transport buffer now ptr =
    internalFree now (reserved transport m size).offset := by
  obtain ⟨_, hPtr, _⟩ := localAlloc_ok hReturns
  obtain ⟨_, hInside, _⟩ := reserved_spec hSize h hReturns
  have hKey : sizeTOfDiff (reserved transport m size).offset =
      (reserved transport m size).offset := by
    rw [sizeTOfDiff_natCast]
    omega
  cases transport with
  | reliableRDMA =>
      rw [localFree, ReliableRDMA.localFree, ← hKey, hPtr]
      congr 2
      show ((buffer + _ + 0 : Nat) : Int) - buffer = _
      omega
  | unreliableRDMA =>
      rw [localFree, UnreliableRDMA.localFree, ← hKey, hPtr]
      congr 2
      show ((buffer + _ + RDMA_UD_OFFSET : Nat) : Int) - buffer - RDMA_UD_OFFSET = _
      omega

/-- The bytes behind the pointer are the block's, unless the size and the header
together overflow. -/
theorem bytesInside_pointer (hFits : size + header transport < 2 ^ 64) :
    BytesInside buffer (reserved transport m size) ptr size := by
  obtain ⟨_, hPtr, _⟩ := localAlloc_ok hReturns
  obtain ⟨hLength, _, _⟩ := reserved_spec hSize h hReturns
  rw [requested_eq hFits] at hLength
  intro x hFirst hLast
  rw [convertOffsetToPointer, hLength]
  omega

/-- What a posted receive may write is inside the block. -/
theorem bytesInside_posted (hFits : size + header transport < 2 ^ 64) :
    BytesInside buffer (reserved transport m size) (receive transport ptr size).addr
      (ptr - (receive transport ptr size).addr) := by
  obtain ⟨_, hPtr, _⟩ := localAlloc_ok hReturns
  obtain ⟨hLength, _, _⟩ := reserved_spec hSize h hReturns
  rw [requested_eq hFits] at hLength
  intro x hFirst hLast
  rw [receive_addr] at hFirst hLast
  rw [convertOffsetToPointer, hLength]
  omega

/-- On an `UnreliableRDMA` the offset of the pointer is not the key of the block. -/
theorem convertPointerToOffset_ne (hTransport : transport = .unreliableRDMA) :
    convertPointerToOffset buffer ptr ≠ (reserved transport m size).offset := by
  obtain ⟨_, hPtr, _⟩ := localAlloc_ok hReturns
  obtain ⟨_, hInside, _⟩ := reserved_spec hSize h hReturns
  subst hTransport
  have hShifted : ptr = buffer + (reserved .unreliableRDMA m size).offset + 40 := hPtr
  rw [convertPointerToOffset, sizeTOfDiff]
  omega

end Returned

/-- While the block is held, the offset form of an `UnreliableRDMA` does not free it:
it does not take the header into account. -/
theorem not_undoes_unreliable {memSize : Nat} (hSize : memSize < 2 ^ 64) {m : Memory}
    (h : Sound memSize m) {buffer size ptr : Nat} {after : Memory}
    (hReturns : localAlloc .unreliableRDMA buffer m size = (.ok ptr, after)) {now : Memory}
    (hHeld : (reserved .unreliableRDMA m size).offset ∈ now.usedRdmaMem) :
    ¬Undoes .unreliableRDMA buffer (reserved .unreliableRDMA m size) size ptr now := by
  intro hUndoes
  have hOther := convertPointerToOffset_ne hSize h hReturns rfl
  exact internalFree_ne hHeld hOther hUndoes.offset

/-- The header of a `ReliableRDMA` is empty. -/
theorem undoes_reliable {memSize : Nat} (hSize : memSize < 2 ^ 64) {m : Memory}
    (h : Sound memSize m) {buffer size ptr : Nat} (hFits : size < 2 ^ 64) {after : Memory}
    (hReturns : localAlloc .reliableRDMA buffer m size = (.ok ptr, after)) (now : Memory) :
    Undoes .reliableRDMA buffer (reserved .reliableRDMA m size) size ptr now := by
  have hPointer := localFree_pointer hSize h hReturns now
  exact {
    bytes := bytesInside_pointer hSize h hReturns hFits
    posted := bytesInside_posted hSize h hReturns hFits
    pointer := congrArg Prod.snd hPointer
    offset := congrArg Prod.snd hPointer }

/-- Both forms of `localFree` undo `localAlloc` exactly on a `ReliableRDMA`. -/
theorem localAlloc_undone_iff {memSize : Nat} (hSize : memSize < 2 ^ 64) {m : Memory}
    (hReach : (anyCallerMachine memSize).Reachable m) {transport : Transport}
    {buffer size ptr : Nat} (hFits : size < 2 ^ 64) {after : Memory}
    (hReturns : localAlloc transport buffer m size = (.ok ptr, after)) :
    ((∀ now, Undoes transport buffer (reserved transport m size) size ptr now) ↔
      transport = .reliableRDMA) ∧
    ∀ now : Memory, (reserved transport m size).offset ∈ now.usedRdmaMem →
      (Undoes transport buffer (reserved transport m size) size ptr now ↔
        transport = .reliableRDMA) := by
  have hSound := reachable_anyCaller_sound hSize hReach
  have hHeldAfter := (reserved_spec hSize hSound hReturns).2.2
  cases transport with
  | reliableRDMA =>
      have hUndoes := undoes_reliable hSize hSound hFits hReturns
      exact ⟨iff_of_true hUndoes rfl, fun now _ => iff_of_true (hUndoes now) rfl⟩
  | unreliableRDMA =>
      constructor
      · refine iff_of_false (fun hUndoes => ?_) (by decide)
        exact not_undoes_unreliable hSize hSound hReturns hHeldAfter (hUndoes after)
      · intro now hHeld
        exact iff_of_false (not_undoes_unreliable hSize hSound hReturns hHeld) (by decide)

/-- A second block of a buffer of 100 bytes. -/
theorem localAlloc_undone_iff_second :
    Undoes .reliableRDMA 4096 (RdmaMem.make 10 false 20) 10 4116
      (localAlloc .reliableRDMA 4096 (internalAlloc (Memory.initial 100) 20).2 10).2 := by
  have hSize : 100 < 2 ^ 64 := by decide
  have hReach : (anyCallerMachine 100).Reachable (internalAlloc (Memory.initial 100) 20).2 :=
    Machine.reachable_of_replay [.internalAlloc 20] rfl
  have hReturns : localAlloc .reliableRDMA 4096 (internalAlloc (Memory.initial 100) 20).2 10 =
      (.ok 4116, (localAlloc .reliableRDMA 4096 (internalAlloc (Memory.initial 100) 20).2 10).2) :=
    rfl
  exact (localAlloc_undone_iff hSize hReach (by decide) hReturns).1.mpr rfl _

/-- The first block of such a buffer, on an `UnreliableRDMA`: it stays in the map. -/
theorem localAlloc_not_undone_unreliable :
    ∃ after, localAlloc .unreliableRDMA 4096 (Memory.initial 100) 10 = (.ok 4136, after) ∧
      reserved .unreliableRDMA (Memory.initial 100) 10 = RdmaMem.make 50 false 0 ∧
      (localFreeOffset .unreliableRDMA after
        (convertPointerToOffset 4096 4136)).2.usedRdmaMem.lookup 0 =
          some (RdmaMem.make 50 false 0) ∧
      (internalFree after 0).2.usedRdmaMem.lookup 0 = none ∧
      ¬Undoes .unreliableRDMA 4096 (RdmaMem.make 50 false 0) 10 4136 after := by
  have hSize : 100 < 2 ^ 64 := by decide
  have hReturns : localAlloc .unreliableRDMA 4096 (Memory.initial 100) 10 =
      (.ok 4136, (localAlloc .unreliableRDMA 4096 (Memory.initial 100) 10).2) := rfl
  refine ⟨_, hReturns, rfl, rfl, rfl, ?_⟩
  exact not_undoes_unreliable hSize (sound_initial 100) hReturns
    ((AList.mem_insert _).mpr (.inl rfl))

end BaseRDMA
