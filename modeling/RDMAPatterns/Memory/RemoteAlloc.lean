import RDMAPatterns.Memory.LocalAlloc
import RDMAPatterns.Memory.Service
import RDMAPatterns.Ownership.Claims

/-! The registered buffer of a server as its clients use it. `remoteAlloc` and
`remoteFree` exchange one request and one response with the server, which also
hands blocks to its own threads. Any number of clients, in any order. The
handler of the server holds `m_memLock`, but `localAlloc` and `localFree` take no
lock: here the server's own calls are serialised with the handler. -/
namespace RemoteMemory

open BaseRDMA Extents Ownership RDMAServer Transition

/-- `ProtoMessageFactory::createMemoryResourceRequest`. -/
def createMemoryResourceRequest (size : Nat) : MemoryResourceRequest :=
  { size := size, offset := 0, type := memoryResourceRequest }

/-- `ProtoMessageFactory::createMemoryResourceRelease`. -/
def createMemoryResourceRelease (size offset : Nat) : MemoryResourceRequest :=
  { size := size, offset := offset, type := memoryResourceRelease }

/-- The two calls of `RDMAClient` that talk to the memory service. -/
inductive Call where
  | remoteAlloc (size : Nat)
  | remoteFree (size offset : Nat)
deriving DecidableEq, Repr

def Call.message : Call → MemoryResourceRequest
  | .remoteAlloc size => createMemoryResourceRequest size
  | .remoteFree size offset => createMemoryResourceRelease size offset

/-- The exchange that a client waits in: no response yet, or a response that
it has not read. -/
inductive Exchange where
  | idle
  | requested (call : Call)
  | answered (call : Call) (respMsg : MemoryResourceResponse)
deriving DecidableEq, Repr

/-- `held` are the blocks that `remoteAlloc` returned and that were not passed
to `remoteFree` since. -/
structure Client where
  connected : Bool := false
  exchange : Exchange := .idle
  held : List Extent := []
deriving DecidableEq, Repr

/-- `own` are the blocks of the server's own threads. -/
structure State (Node : Type*) where
  memory : Memory
  client : Node → Client := fun _ => {}
  own : List Extent := []

/-- The end of `remoteAlloc`: the offset, if the call returns true. -/
def remoteAllocReturns (respMsg : MemoryResourceResponse) : Option Nat :=
  if respMsg.return_ = MessageErrors.noError.code then some respMsg.offset else none

/-- The list without the block at this offset. -/
def without (blocks : List Extent) (offset : Nat) : List Extent :=
  blocks.eraseP fun e => decide (e.start = offset)

/-- Both calls up to their exchange. A client that is not connected sends
nothing. A block that is to be freed is not used any more. -/
def Client.send (c : Client) (call : Call) : Client :=
  if c.connected then
    match call with
    | .remoteAlloc size => { c with exchange := .requested (.remoteAlloc size) }
    | .remoteFree size offset =>
        { c with exchange := .requested (.remoteFree size offset), held := without c.held offset }
  else c

/-- Both calls behind their exchange. -/
def Client.finish (c : Client) (call : Call) (respMsg : MemoryResourceResponse) : Client :=
  match call with
  | .remoteAlloc size =>
      match remoteAllocReturns respMsg with
      | some offset => { c with exchange := .idle, held := ⟨offset, size⟩ :: c.held }
      | none => { c with exchange := .idle }
  | .remoteFree _ _ => { c with exchange := .idle }

inductive Action (Node : Type*) where
  | connectProto (node : Node)
  | call (node : Node) (call : Call)
  | handle (node : Node)
  | receive (node : Node)
  | localAlloc (size : Nat)
  | localFree (offset : Nat)
deriving DecidableEq, Repr

/-- Callers ask for at least one byte and give back what they hold. -/
def Call.Proper (held : List Extent) : Call → Prop
  | .remoteAlloc size => 1 ≤ size
  | .remoteFree _ offset => ∃ e ∈ held, e.start = offset

instance (held : List Extent) : DecidablePred (Call.Proper held)
  | .remoteAlloc size => inferInstanceAs (Decidable (1 ≤ size))
  | .remoteFree _ offset => inferInstanceAs (Decidable (∃ e ∈ held, e.start = offset))

section Steps

variable {Node : Type*} [DecidableEq Node]

def State.setClient (s : State Node) (node : Node) (c : Client) : State Node :=
  { s with client := Function.update s.client node c }

/-- A server whose buffer lies at the address `buffer`. Requests are handled
one at a time. So are the calls of the server's own threads, as those have to
see to themselves: a local call and the handler never run at the same time. -/
def next (buffer : Nat) (s : State Node) : Action Node → Option (State Node)
  | .connectProto node => some (s.setClient node { s.client node with connected := true })
  | .call node call =>
      if (s.client node).exchange = .idle ∧ call.Proper (s.client node).held then
        some (s.setClient node ((s.client node).send call))
      else none
  | .handle node =>
      match (s.client node).exchange with
      | .requested call =>
          let (respMsg, memory) := handleMemoryResource s.memory call.message
          some { s.setClient node { s.client node with exchange := .answered call respMsg } with
            memory := memory }
      | .idle | .answered _ _ => none
  | .receive node =>
      match (s.client node).exchange with
      | .answered call respMsg => some (s.setClient node ((s.client node).finish call respMsg))
      | .idle | .requested _ => none
  | .localAlloc size =>
      if 1 ≤ size then
        match ReliableRDMA.localAlloc buffer s.memory size with
        | (.ok ptr, memory) =>
            some { s with
              memory := memory, own := ⟨convertPointerToOffset buffer ptr, size⟩ :: s.own }
        | (.error _, memory) => some { s with memory := memory }
      else none
  | .localFree offset =>
      if ∃ e ∈ s.own, e.start = offset then
        some { s with
          memory := (ReliableRDMA.localFreeOffset s.memory offset).2, own := without s.own offset }
      else none

variable (Node) in
def remoteMemoryMachine (memSize buffer : Nat) : Machine (State Node) (Action Node) where
  init := { memory := Memory.initial memSize }
  next := next buffer

end Steps

/-- The block a response has granted, until the client reads the response. -/
def Exchange.granted : Exchange → List Extent
  | .answered (.remoteAlloc size) respMsg =>
      ((remoteAllocReturns respMsg).map fun offset => ⟨offset, size⟩).toList
  | _ => []

/-- The key a request gives back, until the server handles the request. -/
def Exchange.returning : Exchange → List Nat
  | .requested (.remoteFree _ offset) => [offset]
  | _ => []

def Client.blocks (c : Client) : List Extent := c.exchange.granted ++ c.held

/-- The keys of the server's map that stand for this client. -/
def Client.claims (c : Client) : List Nat :=
  c.exchange.returning ++ c.blocks.map Extent.start

/-- The owners are the clients, and the server itself. -/
def State.blocks {Node : Type*} (s : State Node) : Option Node → List Extent
  | none => s.own
  | some node => (s.client node).blocks

def State.claims {Node : Type*} (s : State Node) : Option Node → List Nat
  | none => s.own.map Extent.start
  | some node => (s.client node).claims

/-- The keys of the live blocks. -/
def keys (m : Memory) : Set Nat := {key | key ∈ m.usedRdmaMem}

/-- The block is live under its offset, with its size. -/
def Live (m : Memory) (e : Extent) : Prop :=
  ∃ block, m.usedRdmaMem.lookup e.start = some block ∧ block.size = e.length

/-- Every block has one owner: two owners never share a byte, no block of an
owner shares one with the free list, and every live key of the server stands
for one block of one owner, held, or on its way in one message. -/
structure Exclusive {Node : Type*} (memSize : Nat) (s : State Node) : Prop where
  live : ∀ owner, ∀ e ∈ s.blocks owner, Live s.memory e
  inside : ∀ owner, ∀ e ∈ s.blocks owner, 1 ≤ e.length ∧ e.stop ≤ memSize
  apart : ∀ owner, (s.blocks owner).Pairwise fun e f => Disjoint e.bytes f.bytes
  others : ∀ owner other, owner ≠ other → ∀ e ∈ s.blocks owner, ∀ f ∈ s.blocks other,
    Disjoint e.bytes f.bytes
  reserved : ∀ owner, ∀ e ∈ s.blocks owner, Disjoint e.bytes s.memory.freeBytes
  divided : Divided s.claims (keys s.memory)

/-- The operation of the allocator behind a call. -/
def Call.op : Call → MemoryOp
  | .remoteAlloc size => .internalAlloc size
  | .remoteFree _ offset => .internalFree offset

/-- The handler makes one call of the allocator for each message. -/
theorem handle_memory (m : Memory) (call : Call) :
    (handleMemoryResource m call.message).2 = call.op.apply m := by
  cases call with
  | remoteAlloc size =>
      rw [handle_request m rfl]
      show (requestMemoryResource m size).2.2 = (internalAlloc m size).2
      simp only [requestMemoryResource]
      split <;> rfl
  | remoteFree size offset =>
      rw [handle_release m rfl]
      show (releaseMemoryResource m offset).2 = (internalFree m offset).2
      simp only [releaseMemoryResource]
      split <;> simp_all

section Allocator

variable {memSize : Nat} (hSize : memSize < 2 ^ 64) {m : Memory} (hSound : Sound memSize m)
  (hNonempty : LiveNonempty m)

include hSize hSound hNonempty

/-- Allocations of proper callers find nothing, or reserve a block under a key
that no live block has. -/
theorem internalAlloc_reserves {size : Nat} (hPos : 1 ≤ size) :
    internalAlloc m size = (RdmaMem.null, m) ∨
      ∃ block after, internalAlloc m size = (block, after) ∧ block.isnull = false ∧
        Reserved m after size block.offset := by
  rcases internalAlloc_cases hSize hSound size with ⟨_, hNone⟩ | ⟨block, left, hSome, hScan, _⟩
  · exact .inl hNone
  · right
    have hFresh := allocScan_fresh hSize hSound hNonempty hPos hScan
    obtain ⟨e, _, hBlock⟩ := allocScan_some_find _ _ _ _ hScan
    exact ⟨block, _, hSome, by rw [hBlock]; rfl, reserved_of_hit hSize hSound hScan hFresh⟩

/-- The same behind the service: an error, or a block for the client. -/
theorem handle_remoteAlloc {size : Nat} (hPos : 1 ≤ size) {respMsg : MemoryResourceResponse}
    {after : Memory} (hHandle : handleMemoryResource m (createMemoryResourceRequest size) =
      (respMsg, after)) :
    (remoteAllocReturns respMsg = none ∧ after = m) ∨
      ∃ offset, remoteAllocReturns respMsg = some offset ∧ Reserved m after size offset := by
  have hRequest : requestMemoryResource m size =
      (requestMemoryResource m (createMemoryResourceRequest size).size) := rfl
  rw [handle_request m rfl, ← hRequest, Prod.mk.injEq] at hHandle
  obtain ⟨rfl, rfl⟩ := hHandle
  rcases internalAlloc_reserves hSize hSound hNonempty hPos with
    hNone | ⟨block, after, hSome, hBlock, hReserved⟩
  · left
    have hAnswer : requestMemoryResource m size = (.memoryNotAvailable, 0, m) := by
      simp [requestMemoryResource, hNone, RdmaMem.null]
    rw [hAnswer]
    exact ⟨rfl, rfl⟩
  · right
    have hAnswer : requestMemoryResource m size = (.noError, block.offset, after) := by
      simp [requestMemoryResource, hSome, hBlock]
    rw [hAnswer]
    exact ⟨block.offset, rfl, hReserved⟩

end Allocator

theorem keys_reserved {m after : Memory} {size offset : Nat}
    (h : Reserved m after size offset) : keys after = insert offset (keys m) := by
  obtain ⟨_, block, _, _, hUsed, _⟩ := h
  ext key
  simp [keys, hUsed, AList.mem_insert]

/-- A reservation shows the new block, and leaves the others alone. -/
theorem live_reserved {m after : Memory} {size offset : Nat} (h : Reserved m after size offset) :
    Live after ⟨offset, size⟩ ∧ ∀ e, Live m e → Live after e := by
  obtain ⟨hFresh, block, hOffset, hBlock, hUsed, _⟩ := h
  constructor
  · exact ⟨block, by rw [hUsed, AList.lookup_insert], hBlock⟩
  · rintro e ⟨other, hLookup, hLength⟩
    have hNe : e.start ≠ offset := by
      intro hSame
      apply hFresh
      rw [← hSame]
      exact AList.lookup_isSome.mp (by simp [hLookup])
    exact ⟨other, by rw [hUsed, AList.lookup_insert_ne hNe, hLookup], hLength⟩

/-- A live block ends inside the buffer. -/
theorem stop_le_of_live {memSize : Nat} {m : Memory} (hSound : Sound memSize m) {e : Extent}
    (h : Live m e) : e.stop ≤ memSize := by
  obtain ⟨block, hLookup, hLength⟩ := h
  have hInside := hSound.packed.inside block.extent (List.mem_map_of_mem (List.mem_append_left _
    ((blocks_perm_of_lookup hLookup).mem_iff.mpr (List.mem_cons_self ..))))
  have hOffset := hSound.keyed _ _ hLookup
  rw [RdmaMem.extent_stop, hOffset, hLength] at hInside
  exact hInside

/-- A free takes its key out of the map, also if it throws. -/
theorem keys_internalFree (m : Memory) (offset : Nat) :
    keys (internalFree m offset).2 = keys m \ {offset} := by
  ext key
  simp [keys, internalFree_used, AList.mem_erase, and_comm]

theorem live_internalFree {m : Memory} {offset : Nat} {e : Extent} (hNe : e.start ≠ offset)
    (h : Live m e) : Live (internalFree m offset).2 e := by
  obtain ⟨block, hLookup, hLength⟩ := h
  refine ⟨block, ?_, hLength⟩
  rw [internalFree_used, AList.lookup_erase_ne hNe, hLookup]

/-- Without the block at `offset`, the rest keeps its starts. -/
theorem perm_without {blocks : List Extent} {offset : Nat} (h : ∃ e ∈ blocks, e.start = offset) :
    (offset :: (without blocks offset).map Extent.start).Perm (blocks.map Extent.start) := by
  obtain ⟨e, hMem, hStart⟩ := h
  obtain ⟨found, before, after, _, hFound, hSplit, hErased⟩ :=
    List.exists_of_eraseP (p := fun e : Extent => decide (e.start = offset)) hMem (by simpa using hStart)
  have hOffset : found.start = offset := by simpa using hFound
  rw [without, hErased, hSplit]
  simp only [List.map_append, List.map_cons, hOffset]
  exact List.perm_middle.symm

theorem without_subset (blocks : List Extent) (offset : Nat) : without blocks offset ⊆ blocks :=
  List.eraseP_subset

section Invariant

variable {Node : Type*}

/-- The division of the live blocks, and what carries it through a run. -/
structure Kept (memSize : Nat) (s : State Node) : Prop where
  sound : Sound memSize s.memory
  nonempty : LiveNonempty s.memory
  divided : Divided s.claims (keys s.memory)
  live : ∀ owner, ∀ e ∈ s.blocks owner, Live s.memory e
  pending : ∀ node size, (s.client node).exchange = .requested (.remoteAlloc size) → 1 ≤ size

theorem kept_initial (memSize : Nat) :
    Kept memSize ({ memory := Memory.initial memSize } : State Node) where
  sound := sound_initial memSize
  nonempty := by simp [LiveNonempty, Memory.initial, Memory.liveBlocks, blocks]
  divided := by
    have hClaims : State.claims ({ memory := Memory.initial memSize } : State Node) =
        fun _ => [] := by
      funext owner
      cases owner <;> rfl
    have hKeys : keys (Memory.initial memSize) = ∅ := by
      ext key
      simp [keys, Memory.initial]
    rw [hClaims, hKeys]
    exact Divided.nothing
  live owner e he := by cases owner <;> cases he
  pending _ _ hExchange := by cases hExchange

/-- The two states differ at one owner, and in the memory. -/
structure DifferAt (s t : State Node) (owner : Option Node) : Prop where
  claims : ∀ other, other ≠ owner → t.claims other = s.claims other
  blocks : ∀ other, other ≠ owner → t.blocks other = s.blocks other

variable {s t : State Node} {owner : Option Node}

/-- If only one owner's blocks change, only these have to be looked at. -/
theorem DifferAt.live {m : Memory} (hDiffer : DifferAt s t owner)
    (hOthers : ∀ other, other ≠ owner → ∀ e ∈ s.blocks other, Live m e)
    (hOwn : ∀ e ∈ t.blocks owner, Live m e) : ∀ other, ∀ e ∈ t.blocks other, Live m e := by
  intro other e he
  by_cases hSame : other = owner
  · subst hSame
    exact hOwn e he
  · rw [hDiffer.blocks other hSame] at he
    exact hOthers other hSame e he

/-- A local call changes the blocks of the server only. -/
theorem differAt_own (s : State Node) (own : List Extent) (memory : Memory) :
    DifferAt s { s with own := own, memory := memory } none := by
  constructor
  · rintro (_ | other) hNe
    · exact absurd rfl hNe
    · rfl
  · rintro (_ | other) hNe
    · exact absurd rfl hNe
    · rfl

/-- A block is claimed under its offset. -/
theorem start_mem_claims {e : Extent} (he : e ∈ s.blocks owner) : e.start ∈ s.claims owner := by
  cases owner with
  | none => exact List.mem_map_of_mem he
  | some node => exact List.mem_append_right _ (List.mem_map_of_mem he)

variable [DecidableEq Node]

theorem DifferAt.claims_eq (hDiffer : DifferAt s t owner) :
    t.claims = Function.update s.claims owner (t.claims owner) := by
  funext other
  by_cases hSame : other = owner
  · subst hSame
    rw [Function.update_self]
  · rw [Function.update_of_ne hSame, hDiffer.claims other hSame]

/-- A step of a client changes its own blocks only. -/
theorem differAt_setClient (s : State Node) (node : Node) (c : Client) (memory : Memory) :
    DifferAt s { s.setClient node c with memory := memory } (some node) := by
  constructor
  · rintro (_ | other) hNe
    · rfl
    · have hOther : other ≠ node := fun hSame => hNe (by rw [hSame])
      show (Function.update s.client node c other).claims = (s.client other).claims
      rw [Function.update_of_ne hOther]
  · rintro (_ | other) hNe
    · rfl
    · have hOther : other ≠ node := fun hSame => hNe (by rw [hSame])
      show (Function.update s.client node c other).blocks = (s.client other).blocks
      rw [Function.update_of_ne hOther]

@[simp] theorem setClient_claims (s : State Node) (node : Node) (c : Client) (memory : Memory) :
    State.claims { s.setClient node c with memory := memory } (some node) = c.claims := by
  simp [State.claims, State.setClient]

@[simp] theorem setClient_blocks (s : State Node) (node : Node) (c : Client) (memory : Memory) :
    State.blocks { s.setClient node c with memory := memory } (some node) = c.blocks := by
  simp [State.blocks, State.setClient]

/-- A request that is on its way asks for at least one byte. -/
theorem pending_setClient {memSize : Nat} (h : Kept memSize s) (node : Node) (c : Client)
    (memory : Memory)
    (hCall : ∀ size, c.exchange = .requested (.remoteAlloc size) → 1 ≤ size) :
    ∀ other size, (State.client { s.setClient node c with memory := memory } other).exchange =
      .requested (.remoteAlloc size) → 1 ≤ size := by
  intro other size hExchange
  by_cases hSame : other = node
  · subst hSame
    simp only [State.setClient, Function.update_self] at hExchange
    exact hCall size hExchange
  · simp only [State.setClient, Function.update_of_ne hSame] at hExchange
    exact h.pending other size hExchange

section Effects

variable {memSize : Nat} (h : Kept memSize s) (hDiffer : DifferAt s t owner)
  (hPending : ∀ node size, (t.client node).exchange = .requested (.remoteAlloc size) → 1 ≤ size)

include h hDiffer hPending

/-- An owner moves what it has from one place to another. -/
theorem Kept.moved (hMemory : t.memory = s.memory) (hPerm : (t.claims owner).Perm (s.claims owner))
    (hBlocks : t.blocks owner ⊆ s.blocks owner) : Kept memSize t where
  sound := hMemory ▸ h.sound
  nonempty := hMemory ▸ h.nonempty
  divided := by
    rw [hDiffer.claims_eq, hMemory]
    exact h.divided.reorder hPerm
  live := by
    apply hDiffer.live
    · intro other _ e he
      rw [hMemory]
      exact h.live other e he
    · intro e he
      rw [hMemory]
      exact h.live owner e (hBlocks he)
  pending := hPending

/-- An owner gets a block. -/
theorem Kept.granted (hSize : memSize < 2 ^ 64) {size offset : Nat} (hPos : 1 ≤ size)
    (hApplied : t.memory = (MemoryOp.internalAlloc size).apply s.memory)
    (hReserved : Reserved s.memory t.memory size offset)
    (hPerm : (t.claims owner).Perm (offset :: s.claims owner))
    (hBlocks : t.blocks owner ⊆ ⟨offset, size⟩ :: s.blocks owner) : Kept memSize t where
  sound := hApplied ▸ apply_sound hSize h.sound _
  nonempty := hApplied ▸ apply_liveNonempty hSize h.sound h.nonempty hPos
  divided := by
    rw [hDiffer.claims_eq, keys_reserved hReserved]
    exact h.divided.grant hReserved.1 hPerm
  live := by
    obtain ⟨hNew, hOld⟩ := live_reserved hReserved
    apply hDiffer.live
    · exact fun other _ e he => hOld e (h.live other e he)
    · intro e he
      rcases List.mem_cons.mp (hBlocks he) with rfl | he
      · exact hNew
      · exact hOld e (h.live owner e he)
  pending := hPending

/-- The server takes a block back, whether or not it finds a place for it. -/
theorem Kept.returned (hSize : memSize < 2 ^ 64) {offset : Nat}
    (hApplied : t.memory = (MemoryOp.internalFree offset).apply s.memory)
    (hPerm : (offset :: t.claims owner).Perm (s.claims owner))
    (hBlocks : t.blocks owner ⊆ s.blocks owner) : Kept memSize t where
  sound := hApplied ▸ apply_sound hSize h.sound _
  nonempty := by
    rw [hApplied]
    apply apply_liveNonempty hSize h.sound h.nonempty
    exact h.divided.mem (hPerm.mem_iff.mp (List.mem_cons_self ..))
  divided := by
    have hKeys : keys t.memory = keys s.memory \ {offset} := by
      rw [hApplied]
      exact keys_internalFree s.memory offset
    rw [hDiffer.claims_eq, hKeys]
    exact h.divided.release hPerm
  live := by
    have hOffset : offset ∈ s.claims owner := hPerm.mem_iff.mp (List.mem_cons_self ..)
    have hGone : offset ∉ t.claims owner :=
      (List.nodup_cons.mp (hPerm.nodup_iff.mpr (h.divided.nodup owner))).1
    rw [hApplied]
    apply hDiffer.live
    · intro other hNe e he
      apply live_internalFree _ (h.live other e he)
      intro hSame
      exact hNe (h.divided.unique (hSame ▸ start_mem_claims he) hOffset)
    · intro e he
      apply live_internalFree _ (h.live owner e (hBlocks he))
      intro hSame
      exact hGone (hSame ▸ start_mem_claims he)
  pending := hPending

end Effects

/-- What a step of the system does. -/
inductive Step (buffer : Nat) (s : State Node) : Action Node → State Node → Prop where
  | connected (node : Node) :
      Step buffer s (.connectProto node)
        (s.setClient node { s.client node with connected := true })
  | called (node : Node) (call : Call) (hIdle : (s.client node).exchange = .idle)
      (hProper : call.Proper (s.client node).held) :
      Step buffer s (.call node call) (s.setClient node ((s.client node).send call))
  | handled (node : Node) (call : Call) (respMsg : MemoryResourceResponse) (memory : Memory)
      (hRequested : (s.client node).exchange = .requested call)
      (hHandle : handleMemoryResource s.memory call.message = (respMsg, memory)) :
      Step buffer s (.handle node)
        { s.setClient node { s.client node with exchange := .answered call respMsg } with
          memory := memory }
  | received (node : Node) (call : Call) (respMsg : MemoryResourceResponse)
      (hAnswered : (s.client node).exchange = .answered call respMsg) :
      Step buffer s (.receive node) (s.setClient node ((s.client node).finish call respMsg))
  | allocated (size ptr : Nat) (memory : Memory) (hPos : 1 ≤ size)
      (hAlloc : ReliableRDMA.localAlloc buffer s.memory size = (.ok ptr, memory)) :
      Step buffer s (.localAlloc size)
        { s with memory := memory, own := ⟨convertPointerToOffset buffer ptr, size⟩ :: s.own }
  | refused (size : Nat) (error : String) (memory : Memory) (hPos : 1 ≤ size)
      (hAlloc : ReliableRDMA.localAlloc buffer s.memory size = (.error error, memory)) :
      Step buffer s (.localAlloc size) { s with memory := memory }
  | freed (offset : Nat) (hHeld : ∃ e ∈ s.own, e.start = offset) :
      Step buffer s (.localFree offset)
        { s with memory := (internalFree s.memory offset).2, own := without s.own offset }

/-- What one step does: the calls of the server, and the four parts of an exchange. -/
theorem step_cases {buffer : Nat} {a : Action Node} (hNext : next buffer s a = some t) :
    Step buffer s a t := by
  cases a with
  | connectProto node =>
      obtain rfl := Option.some.inj hNext
      exact .connected node
  | call node call =>
      rw [next, Option.ite_none_right_eq_some] at hNext
      obtain ⟨⟨hIdle, hProper⟩, hSent⟩ := hNext
      obtain rfl := Option.some.inj hSent
      exact .called node call hIdle hProper
  | handle node =>
      rw [next] at hNext
      split at hNext
      · case h_1 call hRequested =>
        obtain rfl := Option.some.inj hNext
        exact .handled node call _ _ hRequested rfl
      · cases hNext
      · cases hNext
  | receive node =>
      rw [next] at hNext
      split at hNext
      · case h_1 call respMsg hAnswered =>
        obtain rfl := Option.some.inj hNext
        exact .received node call respMsg hAnswered
      · cases hNext
      · cases hNext
  | localAlloc size =>
      rw [next, Option.ite_none_right_eq_some] at hNext
      obtain ⟨hPos, hAllocated⟩ := hNext
      split at hAllocated
      · case h_1 ptr memory hAlloc =>
        obtain rfl := Option.some.inj hAllocated
        exact .allocated size ptr memory hPos hAlloc
      · case h_2 error memory hAlloc =>
        obtain rfl := Option.some.inj hAllocated
        exact .refused size error memory hPos hAlloc
  | localFree offset =>
      rw [next, Option.ite_none_right_eq_some] at hNext
      obtain ⟨hHeld, hFreed⟩ := hNext
      obtain rfl := Option.some.inj hFreed
      exact .freed offset hHeld

section Steps

variable {memSize : Nat} (h : Kept memSize s)

include h

/-- The first exchange of a client connects it, and moves no block. -/
theorem kept_connectProto (node : Node) :
    Kept memSize (s.setClient node { s.client node with connected := true }) := by
  apply h.moved (differAt_setClient s node { s.client node with connected := true } s.memory)
    (pending_setClient h node _ s.memory (h.pending node)) rfl
  · rw [setClient_claims]
    exact List.Perm.refl _
  · rw [setClient_blocks]
    exact List.Subset.refl _

/-- A request for memory changes no claim yet. A block that is given back is
claimed by the request. -/
theorem kept_send (node : Node) {call : Call} (hIdle : (s.client node).exchange = .idle)
    (hProper : call.Proper (s.client node).held) :
    Kept memSize (s.setClient node ((s.client node).send call)) := by
  have hBefore : (s.client node).claims = (s.client node).held.map Extent.start := by
    rw [Client.claims, Client.blocks, hIdle]
    rfl
  by_cases hConnected : (s.client node).connected
  · cases call with
    | remoteAlloc size =>
        have hSend : (s.client node).send (.remoteAlloc size) =
            { s.client node with exchange := .requested (.remoteAlloc size) } := by
          rw [Client.send, if_pos hConnected]
        rw [hSend]
        apply h.moved (differAt_setClient s node _ s.memory) _ rfl
        · rw [setClient_claims]
          exact List.Perm.of_eq hBefore.symm
        · rw [setClient_blocks]
          exact List.subset_append_right _ _
        · apply pending_setClient h node _ s.memory
          rintro asked hAsked
          cases hAsked
          exact hProper
    | remoteFree size offset =>
        have hSend : (s.client node).send (.remoteFree size offset) =
            { s.client node with
              exchange := .requested (.remoteFree size offset)
              held := without (s.client node).held offset } := by
          rw [Client.send, if_pos hConnected]
        rw [hSend]
        apply h.moved (differAt_setClient s node _ s.memory) _ rfl
        · rw [setClient_claims]
          exact (perm_without hProper).trans (List.Perm.of_eq hBefore.symm)
        · rw [setClient_blocks]
          exact List.Subset.trans (without_subset _ offset) (List.subset_append_right _ _)
        · apply pending_setClient h node _ s.memory
          rintro asked hAsked
          cases hAsked
  · have hSend : (s.client node).send call = s.client node := by
      rw [Client.send.eq_def, if_neg hConnected]
    rw [hSend]
    apply h.moved (differAt_setClient s node _ s.memory)
      (pending_setClient h node _ s.memory (h.pending node)) rfl
    · rw [setClient_claims]
      exact List.Perm.refl _
    · rw [setClient_blocks]
      exact List.Subset.refl _

/-- A block that was granted in a response is held from now on. -/
theorem kept_receive (node : Node) {call : Call} {respMsg : MemoryResourceResponse}
    (hAnswered : (s.client node).exchange = .answered call respMsg) :
    Kept memSize (s.setClient node ((s.client node).finish call respMsg)) := by
  have hBlocks : (s.client node).blocks =
      ((s.client node).finish call respMsg).blocks := by
    rw [Client.blocks, hAnswered]
    cases call with
    | remoteAlloc size =>
        cases hReturns : remoteAllocReturns respMsg with
        | none => simp [Client.blocks, Client.finish, Exchange.granted, hReturns]
        | some offset => simp [Client.blocks, Client.finish, Exchange.granted, hReturns]
    | remoteFree size offset => rfl
  have hIdle : ((s.client node).finish call respMsg).exchange = .idle := by
    cases call with
    | remoteAlloc size =>
        simp only [Client.finish]
        split <;> rfl
    | remoteFree size offset => rfl
  apply h.moved (differAt_setClient s node _ s.memory) _ rfl
  · rw [setClient_claims, Client.claims, hIdle, ← hBlocks]
    show List.Perm _ (s.client node).claims
    rw [Client.claims, hAnswered]
    exact List.Perm.refl _
  · rw [setClient_blocks, ← hBlocks]
    exact List.Subset.refl _
  · apply pending_setClient h node _ s.memory
    intro size hAsked
    rw [hIdle] at hAsked
    cases hAsked

variable (hSize : memSize < 2 ^ 64)

include hSize

/-- The server grants a block in its response, or takes one back. -/
theorem kept_handle (node : Node) {call : Call} {respMsg : MemoryResourceResponse}
    {memory : Memory} (hRequested : (s.client node).exchange = .requested call)
    (hHandle : handleMemoryResource s.memory call.message = (respMsg, memory)) :
    Kept memSize { s.setClient node { s.client node with exchange := .answered call respMsg } with
      memory := memory } := by
  have hDiffer := differAt_setClient s node
    { s.client node with exchange := .answered call respMsg } memory
  have hPending := pending_setClient h node
    { s.client node with exchange := .answered call respMsg } memory
    (by rintro _ hAsked; cases hAsked)
  have hApplied : memory = call.op.apply s.memory := by
    rw [← handle_memory, hHandle]
  cases call with
  | remoteAlloc size =>
      have hPos := h.pending node size hRequested
      rcases handle_remoteAlloc hSize h.sound h.nonempty hPos hHandle with
        ⟨hNone, rfl⟩ | ⟨offset, hSome, hReserved⟩
      · apply h.moved hDiffer hPending rfl
        · rw [setClient_claims]
          show List.Perm _ (s.client node).claims
          rw [Client.claims, Client.claims, Client.blocks, Client.blocks, hRequested]
          simp [Exchange.granted, Exchange.returning, hNone]
        · rw [setClient_blocks]
          show _ ⊆ (s.client node).blocks
          rw [Client.blocks, Client.blocks, hRequested]
          simp [Exchange.granted, hNone]
      · apply h.granted hDiffer hPending hSize hPos hApplied hReserved
        · rw [setClient_claims]
          show List.Perm _ (offset :: (s.client node).claims)
          rw [Client.claims, Client.claims, Client.blocks, Client.blocks, hRequested]
          simp [Exchange.granted, Exchange.returning, hSome]
        · rw [setClient_blocks]
          show _ ⊆ _ :: (s.client node).blocks
          rw [Client.blocks, Client.blocks, hRequested]
          simp [Exchange.granted, hSome]
  | remoteFree size offset =>
      apply h.returned hDiffer hPending hSize hApplied
      · rw [setClient_claims]
        show List.Perm _ (s.client node).claims
        rw [Client.claims, Client.claims, Client.blocks, Client.blocks, hRequested]
        exact List.Perm.refl _
      · rw [setClient_blocks]
        show _ ⊆ (s.client node).blocks
        rw [Client.blocks, Client.blocks, hRequested]
        exact List.Subset.refl _

/-- A block that the server takes comes off the free list, so nobody else has it. -/
theorem kept_localAlloc {buffer size ptr : Nat} {memory : Memory} (hPos : 1 ≤ size)
    (hAlloc : ReliableRDMA.localAlloc buffer s.memory size = (.ok ptr, memory)) :
    Kept memSize { s with
      memory := memory, own := ⟨convertPointerToOffset buffer ptr, size⟩ :: s.own } := by
  rcases internalAlloc_reserves hSize h.sound h.nonempty hPos with
    hNone | ⟨block, after, hSome, hBlock, hReserved⟩
  · simp [ReliableRDMA.localAlloc, hNone, RdmaMem.null] at hAlloc
  · simp only [ReliableRDMA.localAlloc, hSome, hBlock, Bool.not_false, if_true, Prod.mk.injEq,
      Except.ok.injEq] at hAlloc
    obtain ⟨rfl, rfl⟩ := hAlloc
    have hApplied : after = (MemoryOp.internalAlloc size).apply s.memory := by
      show after = (internalAlloc s.memory size).2
      rw [hSome]
    have hOffset : convertPointerToOffset buffer (buffer + block.offset) = block.offset := by
      have hAfter : Sound memSize after := hApplied ▸ apply_sound hSize h.sound _
      have hStop : block.offset + size ≤ memSize :=
        stop_le_of_live hAfter (live_reserved hReserved).1
      rw [convertPointerToOffset, sizeTOfDiff]
      omega
    rw [hOffset]
    apply h.granted (differAt_own s _ after) h.pending hSize hPos hApplied hReserved
    · exact List.Perm.refl _
    · exact List.Subset.refl _

/-- A block that the server gives back belongs to nobody any more. -/
theorem kept_localFree {offset : Nat} (hHeld : ∃ e ∈ s.own, e.start = offset) :
    Kept memSize { s with
      memory := (internalFree s.memory offset).2, own := without s.own offset } := by
  apply h.returned (differAt_own s (without s.own offset) (internalFree s.memory offset).2)
    h.pending hSize rfl
  · exact perm_without hHeld
  · exact without_subset s.own offset

end Steps

theorem next_kept {memSize buffer : Nat} (hSize : memSize < 2 ^ 64) (h : Kept memSize s)
    {a : Action Node} (hNext : next buffer s a = some t) : Kept memSize t := by
  cases step_cases hNext with
  | connected node => exact kept_connectProto h node
  | called node call hIdle hProper => exact kept_send h node hIdle hProper
  | handled node call respMsg memory hRequested hHandle =>
      exact kept_handle h hSize node hRequested hHandle
  | received node call respMsg hAnswered => exact kept_receive h node hAnswered
  | allocated size ptr memory hPos hAlloc => exact kept_localAlloc h hSize hPos hAlloc
  | refused size error memory hPos hAlloc =>
      rcases internalAlloc_reserves hSize h.sound h.nonempty hPos with
        hNone | ⟨block, after, hSome, hBlock, _⟩
      · obtain rfl : s.memory = memory := by
          simpa [ReliableRDMA.localAlloc, hNone, RdmaMem.null] using congrArg Prod.snd hAlloc
        exact h
      · simp [ReliableRDMA.localAlloc, hSome, hBlock] at hAlloc
  | freed offset hHeld => exact kept_localFree h hSize hHeld

theorem run_kept {memSize buffer : Nat} (hSize : memSize < 2 ^ 64)
    (h : (remoteMemoryMachine Node memSize buffer).Reachable s) : Kept memSize s :=
  h.invariant (kept_initial memSize) fun _ _ _ hKept hNext => next_kept hSize hKept hNext

end Invariant

section Disjointness

variable {memSize : Nat} {m : Memory}

/-- A live extent is the range of its block. -/
theorem extent_of_live (hSound : Sound memSize m) {e : Extent} (h : Live m e) :
    ∃ block, m.usedRdmaMem.lookup e.start = some block ∧ block.extent = e := by
  obtain ⟨block, hLookup, hLength⟩ := h
  have hOffset := hSound.keyed _ _ hLookup
  exact ⟨block, hLookup, by rw [RdmaMem.extent, hOffset, hLength]⟩

theorem length_pos_of_live (hNonempty : LiveNonempty m) {e : Extent} (h : Live m e) :
    1 ≤ e.length := by
  obtain ⟨block, hLookup, hLength⟩ := h
  rw [← hLength]
  exact hNonempty block ((blocks_perm_of_lookup hLookup).mem_iff.mpr (List.mem_cons_self ..))

/-- A live block shares no byte with a block under another key. -/
theorem disjoint_of_live (hSound : Sound memSize m) {e f : Extent} (hFirst : Live m e)
    (hSecond : Live m f) (hNe : e.start ≠ f.start) : Disjoint e.bytes f.bytes := by
  obtain ⟨block, hLookup, rfl⟩ := extent_of_live hSound hFirst
  obtain ⟨other, hOther, rfl⟩ := extent_of_live hSound hSecond
  have hRest : (m.usedRdmaMem.erase block.extent.start).lookup other.extent.start = some other := by
    rw [AList.lookup_erase_ne hNe.symm, hOther]
  have hPerm : m.liveBlocks.Perm (block :: blocks (m.usedRdmaMem.erase block.extent.start)) :=
    blocks_perm_of_lookup hLookup
  have hApart := List.pairwise_map.mp (hSound.packed.sublist
    (List.Sublist.map RdmaMem.extent (List.sublist_append_left _ m.rdmaMem))).apart
  have hSplit := (hPerm.pairwise_iff fun hDisjoint => hDisjoint.symm).mp hApart
  exact (List.pairwise_cons.mp hSplit).1 other
    ((blocks_perm_of_lookup hRest).mem_iff.mpr (List.mem_cons_self ..))

/-- A live block shares no byte with the free list. -/
theorem disjoint_freeBytes_of_live (hSound : Sound memSize m) {e : Extent} (h : Live m e) :
    Disjoint e.bytes m.freeBytes := by
  obtain ⟨block, hLookup, rfl⟩ := extent_of_live hSound h
  have hApart := List.pairwise_append.mp (List.pairwise_map.mp hSound.packed.apart)
  rw [Finset.disjoint_left]
  intro x hx hFree
  obtain ⟨free, hMem, hxFree⟩ := mem_covered.mp hFree
  obtain ⟨element, hElement, rfl⟩ := List.mem_map.mp hMem
  have hBlock : block ∈ m.liveBlocks :=
    (blocks_perm_of_lookup hLookup).mem_iff.mpr (List.mem_cons_self ..)
  exact Finset.disjoint_left.mp (hApart.2.2 block hBlock element hElement) hx hxFree

end Disjointness

/-- Blocks of different owners do not overlap, since they are different live blocks of
the server. -/
theorem exclusive_of_kept {Node : Type*} {memSize : Nat} {s : State Node} (h : Kept memSize s) :
    Exclusive memSize s := by
  refine ⟨h.live, ?_, ?_, ?_, ?_, h.divided⟩
  · intro owner e he
    have hLive := h.live owner e he
    exact ⟨length_pos_of_live h.nonempty hLive, stop_le_of_live h.sound hLive⟩
  · intro owner
    have hStarts : ((s.blocks owner).map Extent.start).Nodup := by
      have hClaims := h.divided.nodup owner
      cases owner with
      | none => exact hClaims
      | some node => exact (List.nodup_append.mp hClaims).2.1
    apply (List.pairwise_map.mp hStarts).imp_of_mem
    intro e f he hf hNe
    exact disjoint_of_live h.sound (h.live owner e he) (h.live owner f hf) hNe
  · intro owner other hNe e he f hf
    apply disjoint_of_live h.sound (h.live owner e he) (h.live other f hf)
    intro hSame
    exact hNe (h.divided.unique (start_mem_claims he) (hSame ▸ start_mem_claims hf))
  · exact fun owner e he => disjoint_freeBytes_of_live h.sound (h.live owner e he)

/-- No byte of the buffer ever has two owners, in any interleaving of the
calls of all clients with the server's threads. -/
theorem remote_memory_exclusive {Node : Type*} [DecidableEq Node] {memSize buffer : Nat}
    (hSize : memSize < 2 ^ 64) {s : State Node}
    (h : (remoteMemoryMachine Node memSize buffer).Reachable s) : Exclusive memSize s :=
  exclusive_of_kept (run_kept hSize h)

/-- Two clients and the server take blocks, one is given back and its bytes are
granted again while the response to the free is still on its way. -/
def sharedBufferActions : List (Action Bool) :=
  [.connectProto false, .connectProto true, .call false (.remoteAlloc 4),
    .call true (.remoteAlloc 3), .handle true, .handle false, .receive true, .receive false,
    .localAlloc 5, .call true (.remoteFree 3 0), .handle true, .call false (.remoteAlloc 2),
    .handle false]

/-- The second client frees its block, which is split between the first client and the
server. -/
theorem remote_memory_exclusive_shared :
    ∃ s, (remoteMemoryMachine Bool 16 4096).Reachable s ∧
      s.blocks (some false) = [⟨0, 2⟩, ⟨3, 4⟩] ∧ s.blocks none = [⟨7, 5⟩] ∧
      s.blocks (some true) = [] ∧ Exclusive 16 s := by
  have hReplay := @Machine.reachable_of_replay _ _ (remoteMemoryMachine Bool 16 4096) _
    sharedBufferActions rfl
  exact ⟨_, hReplay, rfl, rfl, rfl, remote_memory_exclusive (by decide) hReplay⟩

end RemoteMemory
