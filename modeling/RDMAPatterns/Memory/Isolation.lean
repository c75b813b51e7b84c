import RDMAPatterns.Memory.RemoteAlloc
import RDMAPatterns.Verbs.OneSided

/-! Remote blocks in use. Clients and the server's threads access the blocks
they hold through their own queues, while blocks change hands. What an owner
reads is decided by its own accesses alone, if the server's threads allocate
and free only while the handler does not, and nobody changes the local bytes of
a long write that is not performed yet. -/
namespace RemoteMemory

open Accesses BaseRDMA Extents OneSided Transition

/-- The memory service, and the requests on the buffer it manages. -/
structure Store (Node : Type*) where
  service : State Node
  network : Network (Option Node) := {}

inductive StoreAction (Node : Type*) where
  | service (a : RemoteMemory.Action Node)
  | network (a : OneSided.Action (Option Node))
deriving DecidableEq, Repr

section Blocks

variable {Node : Type*}

/-- The blocks an owner accesses. -/
def State.usable (s : State Node) : Option Node → List Extent
  | none => s.own
  | some node => (s.client node).held

/-- The block that an owner is going to have after this step. -/
def obtained (buffer : Nat) (s : State Node) :
    RemoteMemory.Action Node → Option (Option Node × Extent)
  | .receive node => (s.client node).exchange.granted.head?.map fun e => (some node, e)
  | .localAlloc size =>
      match ReliableRDMA.localAlloc buffer s.memory size with
      | (.ok ptr, _) => some (none, ⟨convertPointerToOffset buffer ptr, size⟩)
      | (.error _, _) => none
  | _ => none

/-- The block that an owner gives back. -/
def givesBack : RemoteMemory.Action Node → Option (Option Node × Nat)
  | .call node (.remoteFree _ offset) => some (some node, offset)
  | .localFree offset => some (none, offset)
  | _ => none

end Blocks

/-- The bytes of the access are bytes of one of the blocks. -/
def InsideOne (buffer : Nat) (blocks : List Extent) (access : Access) : Prop :=
  ∃ e ∈ blocks, buffer + e.start ≤ access.addr ∧
    access.addr + access.length ≤ buffer + e.start + e.length

instance (buffer : Nat) (blocks : List Extent) (access : Access) :
    Decidable (InsideOne buffer blocks access) := inferInstanceAs (Decidable (∃ e ∈ blocks, _))

section Machine

variable {Node : Type*} [DecidableEq Node]

/-- Nobody gives a block back while a request on it is outstanding. -/
def Settled (buffer : Nat) (s : Store Node) (a : RemoteMemory.Action Node) : Prop :=
  ∀ given ∈ givesBack a, ∀ access ∈ s.network.posted given.1,
    InsideOne buffer (without (s.service.usable given.1) given.2) access

instance (buffer : Nat) (s : Store Node) (a : RemoteMemory.Action Node) :
    Decidable (Settled buffer s a) :=
  inferInstanceAs (Decidable (∀ given ∈ givesBack a, _))

/-- Owners access the blocks they have. -/
def storeNext (buffer : Nat) (s : Store Node) : StoreAction Node → Option (Store Node)
  | .service a =>
      if Settled buffer s a then
        (RemoteMemory.next buffer s.service a).map fun service => { s with service := service }
      else none
  | .network (.post owner access) =>
      if InsideOne buffer (s.service.usable owner) access then
        (OneSided.next s.network (.post owner access)).map fun network =>
          { s with network := network }
      else none
  | .network (.perform owner) =>
      (OneSided.next s.network (.perform owner)).map fun network => { s with network := network }

variable (Node) in
def storeMachine (memSize buffer : Nat) : Machine (Store Node) (StoreAction Node) where
  init := { service := { memory := Memory.initial memSize } }
  next := storeNext buffer

/-- The present bytes of a block. -/
def contents (buffer : Nat) (bytes : Nat → UInt8) (e : Extent) (x : Nat) : Option UInt8 :=
  if buffer + e.start ≤ x ∧ x < buffer + e.start + e.length then some (bytes x) else none

/-- What a step of the run means to one owner: it got a block, with the bytes
that happened to be in it, or posted an access. -/
def ownEvents (buffer : Nat) (owner : Option Node) :
    Store Node × StoreAction Node → List (Event Nat UInt8 Access)
  | (s, .service a) =>
      match obtained buffer s.service a with
      | some (taker, e) =>
          if taker = owner then [.obtained (contents buffer s.network.bytes e)] else []
      | none => []
  | (_, .network (.post poster access)) => if poster = owner then [.accessed access] else []
  | (_, .network (.perform _)) => []

/-- A run as one owner sees it. -/
def history (buffer : Nat) (owner : Option Node) (visits : List (Store Node × StoreAction Node)) :
    List (Event Nat UInt8 Access) := visits.flatMap (ownEvents buffer owner)

/-- The owner on a memory that nobody else uses. -/
def onItsOwn (buffer : Nat) (owner : Option Node) (visits : List (Store Node × StoreAction Node)) :
    List Completion × (Nat → UInt8) :=
  semantics.alone (fun _ => 0) (history buffer owner visits)

/-- The addresses that an owner may access. -/
def region (buffer : Nat) (s : State Node) (owner : Option Node) : Set Nat :=
  {x | ∃ e ∈ s.usable owner, buffer + e.start ≤ x ∧ x < buffer + e.start + e.length}

/-- What a step of the service does to the blocks of an owner. -/
inductive UsableStep (buffer : Nat) (s t : State Node) (a : RemoteMemory.Action Node)
    (owner : Option Node) : Prop where
  | same (hUsable : t.usable owner = s.usable owner)
      (hNone : ∀ e, obtained buffer s a ≠ some (owner, e))
  | gained (e : Extent) (hObtained : obtained buffer s a = some (owner, e))
      (hUsable : t.usable owner = e :: s.usable owner)
  | gave (offset : Nat) (hGiven : givesBack a = some (owner, offset))
      (hUsable : t.usable owner = without (s.usable owner) offset)
      (hNone : ∀ e, obtained buffer s a ≠ some (owner, e))

/-- A step of one client leaves what the others may use. -/
theorem usable_setClient_of_ne (s : State Node) {node : Node} {owner : Option Node}
    (hNe : owner ≠ some node) (c : Client) :
    (s.setClient node c).usable owner = s.usable owner := by
  cases owner with
  | none => rfl
  | some other =>
      have hOther : other ≠ node := fun hSame => hNe (by rw [hSame])
      simp [State.usable, State.setClient, Function.update_of_ne hOther]

theorem usable_setClient_self (s : State Node) (node : Node) (c : Client) :
    (s.setClient node c).usable (some node) = c.held := by
  simp [State.usable, State.setClient]

/-- A block that is to be given back may not be used any more. -/
theorem usableStep_called (buffer : Nat) (s : State Node) (node : Node) (call : Call)
    (owner : Option Node) :
    UsableStep buffer s (s.setClient node ((s.client node).send call)) (.call node call) owner := by
  by_cases hOwner : owner = some node
  · subst hOwner
    by_cases hConnected : (s.client node).connected
    · cases call with
      | remoteAlloc size =>
          refine .same ?_ (by simp [obtained])
          rw [usable_setClient_self, Client.send, if_pos hConnected]
          rfl
      | remoteFree size offset =>
          refine .gave offset rfl ?_ (by simp [obtained])
          rw [usable_setClient_self, Client.send, if_pos hConnected]
          rfl
    · refine .same ?_ (by simp [obtained])
      rw [usable_setClient_self, Client.send.eq_def, if_neg hConnected]
      rfl
  · exact .same (usable_setClient_of_ne s hOwner _) (by simp [obtained])

/-- A block may be used when its response has been read. -/
theorem usableStep_received (buffer : Nat) (s : State Node) (node : Node) {call : Call}
    {respMsg : RDMAServer.MemoryResourceResponse}
    (hAnswered : (s.client node).exchange = .answered call respMsg) (owner : Option Node) :
    UsableStep buffer s (s.setClient node ((s.client node).finish call respMsg)) (.receive node)
      owner := by
  by_cases hOwner : owner = some node
  · subst hOwner
    cases call with
    | remoteAlloc size =>
        cases hReturns : remoteAllocReturns respMsg with
        | none =>
            refine .same ?_ ?_
            · rw [usable_setClient_self, Client.finish, hReturns]
              rfl
            · simp [obtained, hAnswered, Exchange.granted, hReturns]
        | some offset =>
            refine .gained ⟨offset, size⟩ ?_ ?_
            · simp [obtained, hAnswered, Exchange.granted, hReturns]
            · rw [usable_setClient_self, Client.finish, hReturns]
              rfl
    | remoteFree size offset =>
        refine .same ?_ ?_
        · rw [usable_setClient_self]
          rfl
        · simp [obtained, hAnswered, Exchange.granted]
  · refine .same (usable_setClient_of_ne s hOwner _) fun e hObtained => ?_
    obtain ⟨_, _, hPair⟩ := Option.map_eq_some_iff.mp hObtained
    exact hOwner (Prod.mk.inj hPair).1.symm

/-- What a step of the service does to what an owner may use. -/
theorem usableStep {buffer : Nat} {s t : State Node} {a : RemoteMemory.Action Node}
    (hNext : RemoteMemory.next buffer s a = some t) (owner : Option Node) :
    UsableStep buffer s t a owner := by
  cases RemoteMemory.step_cases hNext with
  | connected node =>
      refine .same ?_ (by simp [obtained])
      by_cases hOwner : owner = some node
      · subst hOwner
        exact usable_setClient_self s node _
      · exact usable_setClient_of_ne s hOwner _
  | called node call hIdle hProper => exact usableStep_called buffer s node call owner
  | handled node call respMsg memory hRequested hHandle =>
      refine .same ?_ (by simp [obtained])
      by_cases hOwner : owner = some node
      · subst hOwner
        exact usable_setClient_self s node _
      · exact usable_setClient_of_ne s hOwner _
  | received node call respMsg hAnswered => exact usableStep_received buffer s node hAnswered owner
  | allocated size ptr memory hPos hAlloc =>
      cases owner with
      | none => exact .gained _ (by simp [obtained, hAlloc]) rfl
      | some node => exact .same rfl (by simp [obtained, hAlloc])
  | refused size error memory hPos hAlloc =>
      exact .same (by cases owner <;> rfl) (by simp [obtained, hAlloc])
  | freed offset hHeld =>
      cases owner with
      | none => exact .gave offset rfl rfl (by simp [obtained])
      | some node => exact .same rfl (by simp [obtained])

end Machine

section Regions

variable {Node : Type*} {memSize buffer : Nat} {s : State Node}

theorem usable_subset (s : State Node) (owner : Option Node) : s.usable owner ⊆ s.blocks owner := by
  cases owner with
  | none => exact List.Subset.refl _
  | some node => exact List.subset_append_right _ _

/-- Addresses of disjoint blocks are different. -/
theorem address_ne {e f : Extent} (hDisjoint : Disjoint e.bytes f.bytes) {x : Nat}
    (hFirst : buffer + e.start ≤ x ∧ x < buffer + e.start + e.length) :
    ¬(buffer + f.start ≤ x ∧ x < buffer + f.start + f.length) := by
  intro hSecond
  have hIn : x - buffer ∈ e.bytes := Extent.mem_bytes.mpr (by omega)
  exact Finset.disjoint_left.mp hDisjoint hIn (Extent.mem_bytes.mpr (by omega))

/-- Two owners have no address in common. -/
theorem region_disjoint (h : Exclusive memSize s) {owner other : Option Node} (hNe : owner ≠ other)
    {x : Nat} (hx : x ∈ region buffer s owner) : x ∉ region buffer s other := by
  obtain ⟨e, he, hInside⟩ := hx
  rintro ⟨f, hf, hOther⟩
  have hDisjoint := h.others owner other hNe e (usable_subset s owner he) f
    (usable_subset s other hf)
  exact address_ne hDisjoint hInside hOther

/-- An access in an own block touches no byte of another owner. -/
theorem footprint_subset {owner : Option Node} {access : Access}
    (h : InsideOne buffer (s.usable owner) access) :
    semantics.footprint access ⊆ region buffer s owner := by
  obtain ⟨e, he, hFirst, hLast⟩ := h
  intro x hx
  have hTouches : access.addr ≤ x ∧ x < access.addr + access.length := hx
  exact ⟨e, he, by omega⟩

end Regions

section Runs

variable {Node : Type*} [DecidableEq Node] {memSize buffer : Nat}

/-- An owner has seen nothing of the others so far. -/
def Undisturbed (buffer : Nat) (s : Store Node) (owner : Option Node)
    (own : List Completion × (Nat → UInt8)) : Prop :=
  semantics.Isolated (region buffer s.service owner) (s.network.posted owner)
    (s.network.completions owner) s.network.bytes own

/-- What the private memory of an owner sees of one more step. -/
theorem onItsOwn_append (owner : Option Node) (visits : List (Store Node × StoreAction Node))
    (visit : Store Node × StoreAction Node) :
    onItsOwn buffer owner (visits ++ [visit]) =
      (ownEvents buffer owner visit).foldl semantics.privately (onItsOwn buffer owner visits) := by
  simp [onItsOwn, history, Semantics.alone, List.foldl_append]

section Steps

variable {s : Store Node} {owner : Option Node} {own : List Completion × (Nat → UInt8)}
  (hKept : Kept memSize s.service) (h : Undisturbed buffer s owner own)

include h

/-- Another owner posts a request, or this one does. -/
theorem undisturbed_post (poster : Option Node) {access : Access}
    (hInside : InsideOne buffer (s.service.usable poster) access) :
    Undisturbed buffer { s with network := { s.network with
      posted := Function.update s.network.posted poster (s.network.posted poster ++ [access]) } }
      owner ((ownEvents buffer owner (s, .network (.post poster access))).foldl
        semantics.privately own) := by
  by_cases hOwner : poster = owner
  · subst hOwner
    simp only [Undisturbed, ownEvents, if_true, Function.update_self]
    exact Semantics.Isolated.post h (footprint_subset hInside)
  · simp only [Undisturbed, ownEvents, if_neg hOwner, Function.update_of_ne (Ne.symm hOwner)]
    exact h

include hKept

/-- A request of another owner is performed outside the region. -/
theorem undisturbed_perform {performer : Option Node} {access : Access} {rest : List Access}
    (hPosted : s.network.posted performer = access :: rest)
    (hWithin : semantics.Within (region buffer s.service performer)
      (s.network.posted performer)) :
    Undisturbed buffer { s with network := {
      bytes := (access.perform s.network.bytes).2
      posted := Function.update s.network.posted performer rest
      completions := Function.update s.network.completions performer
        (s.network.completions performer ++ [⟨access, (access.perform s.network.bytes).1⟩]) } }
      owner own := by
  by_cases hOwner : performer = owner
  · subst hOwner
    rw [Undisturbed, hPosted] at h
    simp only [Undisturbed, Function.update_self]
    exact Semantics.Isolated.perform h
  · simp only [Undisturbed, Function.update_of_ne (Ne.symm hOwner)]
    apply Semantics.Isolated.elsewhere h
    intro x hx
    apply semantics.frame access
    intro hFoot
    rw [hPosted] at hWithin
    exact region_disjoint (exclusive_of_kept hKept) (Ne.symm hOwner) hx (hWithin.head hFoot)

omit hKept in
/-- Blocks change hands. A new block brings the bytes that are in it, a block
that is given back has no requests left. -/
theorem undisturbed_service {t : State Node} {a : RemoteMemory.Action Node}
    (hAfter : Kept memSize t) (hSettled : Settled buffer s a)
    (hNext : RemoteMemory.next buffer s.service a = some t) :
    Undisturbed buffer { s with service := t } owner
      ((ownEvents buffer owner (s, .service a)).foldl semantics.privately own) := by
  have hNothing : (∀ e, obtained buffer s.service a ≠ some (owner, e)) →
      ownEvents buffer owner (s, .service a) = [] := by
    intro hNone
    rw [ownEvents]
    split
    · case h_1 taker e hTaken =>
      rw [if_neg]
      rintro rfl
      exact hNone e hTaken
    · rfl
  cases usableStep hNext owner with
  | same hUsable hNone =>
      rw [hNothing hNone]
      have hRegion : region buffer t owner = region buffer s.service owner := by
        rw [region, hUsable, region]
      rw [Undisturbed, hRegion]
      exact h
  | gave offset hGiven hUsable hNone =>
      rw [hNothing hNone]
      apply Semantics.Isolated.restrict h
      · rintro x ⟨e, he, hInside⟩
        rw [hUsable] at he
        exact ⟨e, without_subset _ offset he, hInside⟩
      · intro access hAccess
        apply footprint_subset
        rw [hUsable]
        exact hSettled (owner, offset) hGiven access hAccess
  | gained e hObtained hUsable =>
      have hEvents : ownEvents buffer owner (s, .service a) =
          [.obtained (contents buffer s.network.bytes e)] := by
        simp [ownEvents, hObtained]
      rw [hEvents]
      have hApart : ∀ f ∈ s.service.usable owner, Disjoint e.bytes f.bytes := by
        have hPairwise := (exclusive_of_kept hAfter).apart owner
        have hSub : (t.usable owner).Sublist (t.blocks owner) := by
          cases owner with
          | none => exact List.Sublist.refl _
          | some node => exact List.sublist_append_right _ _
        rw [hUsable] at hSub
        exact (List.pairwise_cons.mp (hPairwise.sublist hSub)).1
      apply Semantics.Isolated.obtain h
      · rintro x ⟨f, hf, hInside⟩
        refine ⟨⟨f, by rw [hUsable]; exact List.mem_cons_of_mem _ hf, hInside⟩, ?_⟩
        exact if_neg (address_ne (hApart f hf).symm hInside)
      · rintro x ⟨f, hf, hInside⟩ hOld
        rw [hUsable] at hf
        rcases List.mem_cons.mp hf with rfl | hf
        · exact if_pos hInside
        · exact absurd ⟨f, hf, hInside⟩ hOld

end Steps

/-- In every run each owner's requests have had the results of the private memory. -/
theorem run_undisturbed (hSize : memSize < 2 ^ 64)
    {visits : List (Store Node × StoreAction Node)} {s : Store Node}
    (run : (storeMachine Node memSize buffer).RunsTo visits s) :
    Kept memSize s.service ∧
      ∀ owner, Undisturbed buffer s owner (onItsOwn buffer owner visits) := by
  induction run with
  | zero =>
      refine ⟨kept_initial memSize, fun owner => ⟨?_, rfl, ?_⟩⟩
      · intro access hAccess
        cases hAccess
      · rintro x ⟨e, he, _⟩
        cases owner <;> cases he
  | @succ visits s t a prior last ih =>
      obtain ⟨hKept, hOwners⟩ := ih
      cases a with
      | service a =>
          obtain ⟨hSettled, hMapped⟩ := Option.ite_none_right_eq_some.mp last
          obtain ⟨service, hNext, rfl⟩ := Option.map_eq_some_iff.mp hMapped
          have hAfter := next_kept hSize hKept hNext
          refine ⟨hAfter, fun owner => ?_⟩
          rw [onItsOwn_append]
          exact undisturbed_service (hOwners owner) hAfter hSettled hNext
      | network a =>
          cases a with
          | post poster access =>
              obtain ⟨hInside, hMapped⟩ := Option.ite_none_right_eq_some.mp last
              obtain rfl := Option.some.inj hMapped
              refine ⟨hKept, fun owner => ?_⟩
              rw [onItsOwn_append]
              exact undisturbed_post (hOwners owner) poster hInside
          | perform performer =>
              obtain ⟨network, hNext, rfl⟩ := Option.map_eq_some_iff.mp last
              cases OneSided.step_cases hNext with
              | performed _ access rest hPosted =>
                  refine ⟨hKept, fun owner => ?_⟩
                  rw [onItsOwn_append]
                  exact undisturbed_perform hKept (hOwners owner) hPosted (hOwners performer).within

end Runs

/-- One client writes a block, a second one gets the next block and writes it
while the first reads its own back. The first write is performed last. -/
def interleavedActions : List (StoreAction Bool) :=
  [.service (.connectProto false), .service (.connectProto true),
    .service (.call false (.remoteAlloc 2)), .service (.handle false), .service (.receive false),
    .service (.call true (.remoteAlloc 2)), .service (.handle true), .service (.receive true),
    .network (.post (some false) (write 4096 0 [7, 8])),
    .network (.post (some false) (read 4096 0 2)),
    .network (.post (some true) (write 4096 2 [1, 2])),
    .network (.perform (some true)), .network (.perform (some false)),
    .network (.perform (some false))]

end RemoteMemory
