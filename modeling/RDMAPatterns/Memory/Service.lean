import RDMAPatterns.Memory.Conservation

/-! The remote memory service of `RDMAServer`: requests with unchecked fields
from other nodes, answered by the allocator. A truthful answer either
reports success and the block changed hands, or reports an error and nothing
changed. -/
namespace RDMAServer

open BaseRDMA Extents Transition

/-- `MessageErrors`. -/
inductive MessageErrors where
  | noError
  | invalidMessage
  | memoryNotAvailable
  | memoryReleaseFailed
  | nodeidNotFound
deriving DecidableEq, Repr

/-- The value sent in a `return` field. -/
def MessageErrors.code : MessageErrors → Nat
  | .noError => 0
  | .invalidMessage => 1
  | .memoryNotAvailable => 100
  | .memoryReleaseFailed => 101
  | .nodeidNotFound => 200

@[simp] theorem MessageErrors.code_eq_zero {e : MessageErrors} : e.code = 0 ↔ e = .noError := by
  cases e <;> simp [code]

/-- `MemoryResourceType`. The field on the wire is a plain `uint32`. -/
def memoryResourceRequest : Nat := 0

def memoryResourceRelease : Nat := 1

@[simp] theorem request_ne_release : memoryResourceRequest ≠ memoryResourceRelease := by decide

/-- The fields of `MemoryResourceRequest` that the handler reads. -/
structure MemoryResourceRequest where
  size : Nat
  offset : Nat
  type : Nat
deriving DecidableEq, Repr

/-- `MemoryResourceResponse`. Fields never set are zero. -/
structure MemoryResourceResponse where
  offset : Nat := 0
  return_ : Nat := 0
deriving DecidableEq, Repr

/-- `RDMAServer::requestMemoryResource`. -/
def requestMemoryResource (m : Memory) (size : Nat) : MessageErrors × Nat × Memory :=
  let (memRes, after) := internalAlloc m size
  if memRes.isnull = false then (.noError, memRes.offset, after)
  else (.memoryNotAvailable, memRes.offset, after)

/-- `RDMAServer::releaseMemoryResource`. -/
def releaseMemoryResource (m : Memory) (offset : Nat) : MessageErrors × Memory :=
  match internalFree m offset with
  | (.ok (), after) => (.noError, after)
  | (.error _, after) => (.memoryReleaseFailed, after)

/-- The `MemoryResourceRequest` branch of `RDMAServer::handle`. -/
def handleMemoryResource (m : Memory) (reqMsg : MemoryResourceRequest) :
    MemoryResourceResponse × Memory :=
  if reqMsg.type = memoryResourceRelease then
    let (return_, after) := releaseMemoryResource m reqMsg.offset
    ({ offset := reqMsg.offset, return_ := return_.code }, after)
  else if reqMsg.type = memoryResourceRequest then
    let (return_, offset, after) := requestMemoryResource m reqMsg.size
    ({ offset := offset, return_ := return_.code }, after)
  else ({}, m)

/-- A block of this size came off the free bytes, under a key no live block had. -/
def Reserved (m after : Memory) (size offset : Nat) : Prop :=
  offset ∉ m.usedRdmaMem ∧ ∃ block, block.offset = offset ∧ block.size = size ∧
    after.usedRdmaMem = m.usedRdmaMem.insert offset block ∧
    block.extent.bytes ⊆ m.freeBytes ∧ after.freeBytes = m.freeBytes \ block.extent.bytes

/-- The block that was live at this offset went back to the free bytes. -/
def Released (m after : Memory) (offset : Nat) : Prop :=
  ∃ block, m.usedRdmaMem.lookup offset = some block ∧
    after.usedRdmaMem = m.usedRdmaMem.erase offset ∧
    after.freeBytes = m.freeBytes ∪ block.extent.bytes

def TookEffect (m after : Memory) (reqMsg : MemoryResourceRequest)
    (respMsg : MemoryResourceResponse) : Prop :=
  (reqMsg.type = memoryResourceRequest ∧ Reserved m after reqMsg.size respMsg.offset) ∨
    (reqMsg.type = memoryResourceRelease ∧ Released m after reqMsg.offset)

/-- Success is reported only for a request that took effect, and an error
leaves both containers exactly as they were. -/
def AnswersTruthfully (m : Memory) (reqMsg : MemoryResourceRequest) : Prop :=
  let (respMsg, after) := handleMemoryResource m reqMsg
  (respMsg.return_ = MessageErrors.noError.code → TookEffect m after reqMsg respMsg) ∧
    (respMsg.return_ ≠ MessageErrors.noError.code → after = m)

/-- The free element a first-fit search stops at. -/
def firstFitting (m : Memory) (size : Nat) : Option RdmaMem :=
  m.rdmaMem.find? fun e => e.free && decide (size ≤ e.size)

/-- The requests the service can answer truthfully: a block is asked for and
the first element that fits does not start at a live key, or a block is given
back and the key is live exactly if the free list has a place for it. -/
def Answerable (m : Memory) (reqMsg : MemoryResourceRequest) : Prop :=
  (reqMsg.type = memoryResourceRequest ∧
      ∀ e, firstFitting m reqMsg.size = some e → e.offset ∉ m.usedRdmaMem) ∨
    (reqMsg.type = memoryResourceRelease ∧
      (reqMsg.offset ∈ m.usedRdmaMem ↔ HasSlot m reqMsg.offset))

/-- A release is answered with what `internalFree` has returned. -/
theorem handle_release (m : Memory) {reqMsg : MemoryResourceRequest}
    (hType : reqMsg.type = memoryResourceRelease) :
    handleMemoryResource m reqMsg =
      ({ offset := reqMsg.offset,
         return_ := (releaseMemoryResource m reqMsg.offset).1.code },
        (releaseMemoryResource m reqMsg.offset).2) := by
  rw [handleMemoryResource, if_pos hType]

/-- A request is answered with what `internalAlloc` has returned. -/
theorem handle_request (m : Memory) {reqMsg : MemoryResourceRequest}
    (hType : reqMsg.type = memoryResourceRequest) :
    handleMemoryResource m reqMsg =
      ({ offset := (requestMemoryResource m reqMsg.size).2.1,
         return_ := (requestMemoryResource m reqMsg.size).1.code },
        (requestMemoryResource m reqMsg.size).2.2) := by
  have hNotRelease : reqMsg.type ≠ memoryResourceRelease := by
    rw [hType]
    decide
  rw [handleMemoryResource, if_neg hNotRelease, if_pos hType]

/-- A success is truthful if the effect it reports took place. -/
theorem truthful_of_success {m after : Memory} {reqMsg : MemoryResourceRequest}
    {respMsg : MemoryResourceResponse} (hHandle : handleMemoryResource m reqMsg = (respMsg, after))
    (hSuccess : respMsg.return_ = 0) :
    AnswersTruthfully m reqMsg ↔ TookEffect m after reqMsg respMsg := by
  simp [AnswersTruthfully, hHandle, hSuccess, MessageErrors.code]

theorem truthful_of_error {m after : Memory} {reqMsg : MemoryResourceRequest}
    {respMsg : MemoryResourceResponse} (hHandle : handleMemoryResource m reqMsg = (respMsg, after))
    (hError : respMsg.return_ ≠ 0) : AnswersTruthfully m reqMsg ↔ after = m := by
  simp [AnswersTruthfully, hHandle, hError, MessageErrors.code]

/-- A message of another type is reported as a success, and nothing is done. -/
theorem not_truthful_unknown_type {m : Memory} {reqMsg : MemoryResourceRequest}
    (hRequest : reqMsg.type ≠ memoryResourceRequest)
    (hRelease : reqMsg.type ≠ memoryResourceRelease) : ¬ AnswersTruthfully m reqMsg := by
  have hHandle : handleMemoryResource m reqMsg = ({}, m) := by
    simp [handleMemoryResource, hRequest, hRelease]
  rw [truthful_of_success hHandle rfl, TookEffect]
  simp [hRequest, hRelease]

section Answers

variable {memSize : Nat} (hSize : memSize < 2 ^ 64) {m : Memory} (h : Sound memSize m)

include hSize h

/-- A hit that does not land on a live key is a reservation. -/
theorem reserved_of_hit {size : Nat} {block : RdmaMem} {left : List RdmaMem}
    (hScan : allocScan size m.rdmaMem = some (block, left)) (hFresh : block.offset ∉ m.usedRdmaMem) :
    Reserved m ⟨left, m.usedRdmaMem.insert block.offset block⟩ size block.offset := by
  have hIn : Inside memSize (extentsOf m.rdmaMem) := fun e he => h.packed.inside e (by simp [he])
  obtain ⟨hRecut, hBlock, _⟩ := allocScan_recut hSize size m.rdmaMem left block hIn hScan
  have hCovered : m.freeBytes = block.extent.bytes ∪ covered (extentsOf left) := hRecut.covered_eq
  have hFree : Packed memSize (extentsOf m.rdmaMem) :=
    h.packed.sublist (by simp)
  have hApart := (hFree.recut hRecut)
  refine ⟨hFresh, block, rfl, hBlock, rfl, ?_, ?_⟩
  · rw [hCovered]
    exact Finset.subset_union_left
  · show covered (extentsOf left) = _
    rw [hCovered, Finset.union_sdiff_cancel_left]
    rw [Finset.disjoint_left]
    exact fun x hx => hApart.notMem_covered hx

/-- A request is answered truthfully exactly when first fit does not land on
a live key. -/
theorem request_truthful_iff {reqMsg : MemoryResourceRequest}
    (hType : reqMsg.type = memoryResourceRequest) :
    AnswersTruthfully m reqMsg ↔
      ∀ e, firstFitting m reqMsg.size = some e → e.offset ∉ m.usedRdmaMem := by
  have hHandle := handle_request m hType
  rcases internalAlloc_cases hSize h reqMsg.size with ⟨hScan, hNone⟩ | ⟨block, left, hSome, hScan, _⟩
  · have hFind : firstFitting m reqMsg.size = none := (allocScan_none_iff _ _).mp hScan
    have hAnswer : requestMemoryResource m reqMsg.size = (.memoryNotAvailable, 0, m) := by
      simp [requestMemoryResource, hNone, RdmaMem.null]
    rw [hAnswer] at hHandle
    rw [truthful_of_error hHandle (by show (100 : Nat) ≠ 0; decide), hFind]
    simp
  · obtain ⟨e, hFind, hBlock⟩ := allocScan_some_find _ _ _ _ hScan
    have hOffset : block.offset = e.offset := by rw [hBlock]; rfl
    have hAnswer : requestMemoryResource m reqMsg.size =
        (.noError, block.offset, ⟨left, m.usedRdmaMem.insert block.offset block⟩) := by
      have hNotNull : block.isnull = false := by rw [hBlock]; rfl
      simp [requestMemoryResource, hSome, hNotNull]
    have hFitting : firstFitting m reqMsg.size = some e := hFind
    rw [hAnswer] at hHandle
    rw [truthful_of_success hHandle rfl]
    constructor
    · rintro (⟨_, hFresh, _⟩ | ⟨hRelease, _⟩) found hFound
      · obtain rfl : e = found := Option.some.inj (hFitting.symm.trans hFound)
        rwa [← hOffset]
      · rw [hType] at hRelease
        cases hRelease
    · intro hFresh
      exact .inl ⟨hType, reserved_of_hit hSize h hScan (hOffset ▸ hFresh e hFitting)⟩

/-- A release is answered truthfully exactly when liveness of the key and a
place on the free list go together. -/
theorem release_truthful_iff {reqMsg : MemoryResourceRequest}
    (hType : reqMsg.type = memoryResourceRelease) :
    AnswersTruthfully m reqMsg ↔
      (reqMsg.offset ∈ m.usedRdmaMem ↔ HasSlot m reqMsg.offset) := by
  have hHandle := handle_release m hType
  rw [← freesNormally_iff]
  rcases internalFree_cases hSize h reqMsg.offset with
    ⟨hReturns, merged, hState, hRecut, _⟩ | ⟨hThrows, hError, hState⟩
  · have hFree : internalFree m reqMsg.offset =
        (.ok (), ⟨merged, m.usedRdmaMem.erase reqMsg.offset⟩) := Prod.ext hReturns hState
    have hAnswer : releaseMemoryResource m reqMsg.offset =
        (.noError, ⟨merged, m.usedRdmaMem.erase reqMsg.offset⟩) := by
      rw [releaseMemoryResource, hFree]
    rw [hAnswer] at hHandle
    rw [truthful_of_success hHandle rfl, iff_true_right hReturns]
    constructor
    · rintro (⟨hRequest, _⟩ | ⟨_, block, hLookup, _⟩)
      · rw [hType] at hRequest
        cases hRequest
      · exact AList.lookup_isSome.mp (by simp [hLookup])
    · intro hLive
      obtain ⟨block, hLookup⟩ := Option.isSome_iff_exists.mp (AList.lookup_isSome.mpr hLive)
      refine .inr ⟨hType, block, hLookup, rfl, ?_⟩
      have hCovered := hRecut.covered_eq
      rw [memResFree_of_lookup hLookup] at hCovered
      rw [Finset.union_comm]
      exact hCovered.symm
  · have hFree : internalFree m reqMsg.offset =
        (.error didNotFree, ⟨m.rdmaMem, m.usedRdmaMem.erase reqMsg.offset⟩) :=
      Prod.ext hError hState
    have hAnswer : releaseMemoryResource m reqMsg.offset =
        (.memoryReleaseFailed, ⟨m.rdmaMem, m.usedRdmaMem.erase reqMsg.offset⟩) := by
      rw [releaseMemoryResource, hFree]
    rw [hAnswer] at hHandle
    rw [truthful_of_error hHandle (by show (101 : Nat) ≠ 0; decide), iff_false_right hThrows]
    constructor
    · intro hSame hLive
      have hUsed : m.usedRdmaMem.erase reqMsg.offset = m.usedRdmaMem :=
        congrArg Memory.usedRdmaMem hSame
      rw [← hUsed, AList.mem_erase] at hLive
      exact hLive.1 rfl
    · intro hDead
      rw [erase_of_lookup_none (AList.lookup_eq_none.mpr hDead)]

end Answers

/-- What a server's allocator is put through: its own allocations and frees,
and requests from other nodes. None of the values is checked. -/
inductive ServerOp where
  | own (op : MemoryOp)
  | handle (reqMsg : MemoryResourceRequest)
deriving DecidableEq, Repr

def ServerOp.apply (m : Memory) : ServerOp → Memory
  | .own op => op.apply m
  | .handle reqMsg => (handleMemoryResource m reqMsg).2

def serverMachine (memSize : Nat) : Machine Memory ServerOp where
  init := Memory.initial memSize
  next m op := some (op.apply m)

/-- Whatever is asked for, one of the two allocator operations runs, or none. -/
theorem handleMemoryResource_state (m : Memory) (reqMsg : MemoryResourceRequest) :
    (handleMemoryResource m reqMsg).2 = (internalFree m reqMsg.offset).2 ∨
      (handleMemoryResource m reqMsg).2 = (internalAlloc m reqMsg.size).2 ∨
      (handleMemoryResource m reqMsg).2 = m := by
  by_cases hRelease : reqMsg.type = memoryResourceRelease
  · left
    rw [handle_release m hRelease]
    simp only [releaseMemoryResource]
    split <;> simp_all
  · right
    by_cases hRequest : reqMsg.type = memoryResourceRequest
    · left
      rw [handle_request m hRequest]
      simp only [requestMemoryResource]
      split <;> rfl
    · right
      simp [handleMemoryResource, hRelease, hRequest]

/-- The blocks of the server are apart in every state, whatever clients ask for. -/
theorem server_reachable_sound {memSize : Nat} (hSize : memSize < 2 ^ 64) {m : Memory}
    (h : (serverMachine memSize).Reachable m) : Sound memSize m := by
  apply h.invariant (sound_initial memSize)
  intro s op t hSound hNext
  obtain rfl : op.apply s = t := Option.some.inj hNext
  cases op with
  | own op => exact apply_sound hSize hSound op
  | handle reqMsg =>
      show Sound memSize (handleMemoryResource s reqMsg).2
      rcases handleMemoryResource_state s reqMsg with hState | hState | hState
      · rw [hState]
        exact internalFree_sound hSize hSound reqMsg.offset
      · rw [hState]
        exact internalAlloc_sound hSize hSound reqMsg.size
      · rwa [hState]

/-- In every state a server can get into, the answerable requests are exactly
the ones answered truthfully. -/
theorem answersTruthfully_iff {memSize : Nat} (hSize : memSize < 2 ^ 64) {m : Memory}
    (h : (serverMachine memSize).Reachable m) (reqMsg : MemoryResourceRequest) :
    AnswersTruthfully m reqMsg ↔ Answerable m reqMsg := by
  have hSound := server_reachable_sound hSize h
  by_cases hRequest : reqMsg.type = memoryResourceRequest
  · rw [request_truthful_iff hSize hSound hRequest, Answerable]
    simp [hRequest]
  · by_cases hRelease : reqMsg.type = memoryResourceRelease
    · rw [release_truthful_iff hSize hSound hRelease, Answerable]
      simp [hRelease, request_ne_release.symm]
    · rw [iff_false_left (not_truthful_unknown_type hRequest hRelease), Answerable]
      simp [hRequest, hRelease]

/-- One block is live when two requests come in: one for two more bytes, one
to give the block back. -/
theorem answersTruthfully_live_block :
    ∃ m, (serverMachine 8).Reachable m ∧ AnswersTruthfully m ⟨2, 0, memoryResourceRequest⟩ ∧
      AnswersTruthfully m ⟨0, 0, memoryResourceRelease⟩ := by
  have hReachable := @Machine.reachable_of_replay _ _ (serverMachine 8) _
    [.handle ⟨3, 0, memoryResourceRequest⟩] rfl
  refine ⟨_, hReachable, ?_, ?_⟩
  · exact (answersTruthfully_iff (by decide) hReachable _).mpr (.inl ⟨rfl, by decide⟩)
  · exact (answersTruthfully_iff (by decide) hReachable _).mpr (.inr ⟨rfl, by decide⟩)

/-- The release of an offset that no block has, with a free element behind it. -/
theorem not_truthful_dead_offset : ∃ m, (serverMachine 8).Reachable m ∧ 1 ∉ m.usedRdmaMem ∧
    (handleMemoryResource m ⟨0, 1, memoryResourceRelease⟩).1.return_ = 0 ∧
    ¬ AnswersTruthfully m ⟨0, 1, memoryResourceRelease⟩ := by
  have hReachable := @Machine.reachable_of_replay _ _ (serverMachine 8) _
    [.handle ⟨3, 0, memoryResourceRequest⟩] rfl
  refine ⟨_, hReachable, by decide, rfl, ?_⟩
  rw [release_truthful_iff (by decide) (server_reachable_sound (by decide) hReachable) rfl]
  decide

/-- The release of the block at the end of the buffer. -/
theorem not_truthful_last_block : ∃ m, (serverMachine 8).Reachable m ∧ 3 ∈ m.usedRdmaMem ∧
    (handleMemoryResource m ⟨0, 3, memoryResourceRelease⟩).1.return_ = 101 ∧
    ¬ AnswersTruthfully m ⟨0, 3, memoryResourceRelease⟩ := by
  have hReachable := @Machine.reachable_of_replay _ _ (serverMachine 8) _
    [.handle ⟨3, 0, memoryResourceRequest⟩, .handle ⟨5, 0, memoryResourceRequest⟩,
      .handle ⟨0, 0, memoryResourceRelease⟩] rfl
  refine ⟨_, hReachable, by decide, rfl, ?_⟩
  rw [release_truthful_iff (by decide) (server_reachable_sound (by decide) hReachable) rfl]
  decide

/-- Three requests that are not answered truthfully. A release of an offset
that no block has reports success; the release of the last block is refused
and loses it; a request of a type that does not exist reports success. -/
theorem answersTruthfully_fails :
    (∃ m, (serverMachine 8).Reachable m ∧ 1 ∉ m.usedRdmaMem ∧
      (handleMemoryResource m ⟨0, 1, memoryResourceRelease⟩).1.return_ = 0 ∧
      ¬ AnswersTruthfully m ⟨0, 1, memoryResourceRelease⟩) ∧
    (∃ m, (serverMachine 8).Reachable m ∧ 3 ∈ m.usedRdmaMem ∧
      (handleMemoryResource m ⟨0, 3, memoryResourceRelease⟩).1.return_ = 101 ∧
      ¬ AnswersTruthfully m ⟨0, 3, memoryResourceRelease⟩) ∧
    (handleMemoryResource (Memory.initial 8) ⟨0, 0, 2⟩).1.return_ = 0 ∧
      ¬ AnswersTruthfully (Memory.initial 8) ⟨0, 0, 2⟩ :=
  ⟨not_truthful_dead_offset, not_truthful_last_block, rfl,
    not_truthful_unknown_type (by decide) (by decide)⟩

end RDMAServer
