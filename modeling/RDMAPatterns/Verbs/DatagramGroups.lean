import Mathlib.Data.Set.Function
import Mathlib.Tactic.Tauto
import RDMAPatterns.Ownership.Claims
import RDMAPatterns.Verbs.DatagramObjects

/-! The objects of `UnreliableRDMA` in groups: the queue pair of all connections,
and each multicast group that was joined. But for the domain of the object,
only objects of the same group use one. The address handles of the connections
and the address lists of the joins are in no group. -/
namespace DatagramObjects

open Calls Transition
open VerbObjects (IbQp createQueues destroyQueues storeQP)

variable {s t u : UnreliableRDMA} {d : Device} {value : Object}

inductive Owner where
  | base
  | udqp
  | mcast (rdmaConnID : Nat)
deriving DecidableEq

def udqpParts : Option IbQp → List Nat
  | none => []
  | some q => [q.qp, q.sendCq, q.recvCq]

/-- A group that was left, or whose number was never used, has no parts. -/
def groupParts : Option McastConn → List Nat
  | none => []
  | some conn => if conn.active then conn.parts.map Prod.snd else []

/-- What the members stand for. -/
def claims (s : UnreliableRDMA) : Owner → List Nat
  | .base => [s.pd, s.mr]
  | .udqp => udqpParts s.udqp
  | .mcast rdmaConnID => groupParts s.mcastConns[rdmaConnID]?

/-- The objects of a group, in the order in which they were created. -/
structure Joined (d : Device) (domain : Nat) (conn : McastConn) : Prop where
  channel : d.object conn.channel = some .channel
  id : d.object conn.id = some (.cmId conn.channel)
  pd : d.object conn.pd = some .pd
  mr : d.object conn.mr = some (.mr conn.pd)
  scq : d.object conn.scq = some .cq
  rcq : d.object conn.rcq = some .cq
  qp : d.object conn.qp = some (.cmQp conn.id conn.pd conn.scq conn.rcq)
  ah : d.object conn.ah = some (.ah domain)
  ordered : conn.channel < conn.id ∧ conn.id < conn.pd ∧ conn.pd < conn.mr ∧
    conn.mr < conn.scq ∧ conn.scq < conn.rcq ∧ conn.rcq < conn.qp ∧ conn.qp < conn.ah

/-- The queue pair of all connections. -/
structure Shared (d : Device) (domain : Nat) (q : IbQp) : Prop where
  send : d.object q.sendCq = some .cq
  recv : d.object q.recvCq = some .cq
  qp : d.object q.qp = some (.qp domain q.sendCq q.recvCq)
  distinct : q.sendCq ≠ q.recvCq

/-- The invariant of the calls. -/
structure Consistent (s : UnreliableRDMA) : Prop where
  pd : s.device.object s.pd = some .pd
  mr : s.device.object s.mr = some (.mr s.pd)
  udqp : ∀ {q}, s.udqp = some q → Shared s.device s.pd q
  joined : ∀ {key : Nat} {conn : McastConn}, s.mcastConns[key]? = some conn → conn.active = true →
    Joined s.device s.pd conn
  numbered : s.mcastConns.length ≤ s.lastMCastConnKey
  unique : ∀ {owner other handle}, handle ∈ claims s owner → handle ∈ claims s other →
    owner = other
  inside : ∀ {owner handle user}, handle ∈ claims s owner → handle ≠ s.pd →
    s.device.Uses user handle → user ∈ claims s owner

/-- What the members do not stand for. -/
def strays (s : UnreliableRDMA) : Set Nat :=
  {handle | (∃ value, s.device.object handle = some value) ∧ ∀ owner, handle ∉ claims s owner}

def straysOf (s : UnreliableRDMA) (value : Object) : Set Nat :=
  {handle | handle ∈ strays s ∧ s.device.object handle = some value}

/-- There is one handle for each number. -/
def Numbered (numbers handles : Set Nat) : Prop :=
  ∃ handleOf : Nat → Nat, Set.BijOn handleOf numbers handles

/-- Each connection has an address handle and each join a list of addresses, and nothing
else is a stray. `m_lastMCastConnKey` counts the joins. -/
structure Tidy (s : UnreliableRDMA) : Prop where
  kinds : ∀ handle ∈ strays s,
    s.device.object handle = some (.ah s.pd) ∨ s.device.object handle = some .addrInfo
  handles : Numbered {rdmaConnID | s.connected rdmaConnID = true} (straysOf s (.ah s.pd))
  lists : Numbered {key | key < s.lastMCastConnKey} (straysOf s .addrInfo)

theorem Numbered.insert {numbers handles : Set Nat} (h : Numbered numbers handles)
    {number handle : Nat} (hNumber : number ∉ numbers) (hHandle : handle ∉ handles) :
    Numbered (insert number numbers) (insert handle handles) := by
  obtain ⟨handleOf, hBij⟩ := h
  refine ⟨Function.update handleOf number handle, ?_⟩
  have hSame : Set.EqOn handleOf (Function.update handleOf number handle) numbers := by
    intro i hOld
    rw [Function.update_of_ne]
    rintro rfl
    exact hNumber hOld
  have hOld := (Set.BijOn.congr hBij hSame).insert
    (show Function.update handleOf number handle number ∉ handles by rwa [Function.update_self])
  rwa [Function.update_self] at hOld

section Groups

/-- A group stays joined as long as none of its own objects changes. -/
theorem Joined.mono {e : Device} {domain : Nat} {conn : McastConn} (h : Joined d domain conn)
    (hKept : ∀ {handle value}, handle ∈ conn.parts.map Prod.snd →
      d.object handle = some value → e.object handle = some value) : Joined e domain conn where
  channel := hKept (by simp [McastConn.parts]) h.channel
  id := hKept (by simp [McastConn.parts]) h.id
  pd := hKept (by simp [McastConn.parts]) h.pd
  mr := hKept (by simp [McastConn.parts]) h.mr
  scq := hKept (by simp [McastConn.parts]) h.scq
  rcq := hKept (by simp [McastConn.parts]) h.rcq
  qp := hKept (by simp [McastConn.parts]) h.qp
  ah := hKept (by simp [McastConn.parts]) h.ah
  ordered := h.ordered

/-- Every member of a joined group stands for an object of the right kind. -/
theorem Joined.holds {domain : Nat} {conn : McastConn} (h : Joined d domain conn) :
    ∀ found ∈ conn.parts, d.Holds found.1 found.2 := by
  simp only [McastConn.parts, List.forall_mem_cons]
  exact ⟨⟨_, h.ah, rfl⟩, ⟨_, h.qp, rfl⟩, ⟨_, h.scq, rfl⟩, ⟨_, h.rcq, rfl⟩, ⟨_, h.mr, rfl⟩,
    ⟨_, h.pd, rfl⟩, ⟨_, h.id, rfl⟩, ⟨_, h.channel, rfl⟩, nofun⟩

/-- An object that refers to nothing keeps nothing alive. -/
theorem not_uses_of_nil {handle user : Nat} (h : d.object user = some value)
    (hNil : value.uses = []) : ¬ d.Uses user handle := by
  rintro ⟨found, hFound, kind, hUsed⟩
  obtain rfl := Option.some.inj (h.symm.trans hFound)
  rw [hNil] at hUsed
  cases hUsed

/-- `leaveMCastGroup` destroys what uses others first. -/
theorem Joined.order {domain : Nat} {conn : McastConn} (h : Joined d domain conn) :
    conn.parts.Pairwise fun found later => ¬ d.Uses later.2 found.2 := by
  have hEarlier : conn.parts.Pairwise fun found later =>
      later.2 < found.2 ∨ d.object later.2 = some .cq := by
    have hOrdered := h.ordered
    simp [McastConn.parts, h.rcq]
    omega
  refine hEarlier.imp ?_
  rintro found later (hLess | hCq)
  · exact fun hUses => Nat.lt_asymm hLess (Lifetimes.Store.lt_of_uses hUses)
  · exact not_uses_of_nil hCq rfl

/-- The objects of a group have different kinds, and so are different. -/
theorem Joined.nodup {domain : Nat} {conn : McastConn} (h : Joined d domain conn) :
    (conn.parts.map Prod.snd).Nodup := by
  have hOrdered := h.ordered
  simp [McastConn.parts]
  omega

/-- A group that was not left stands for all of its objects. -/
theorem groupParts_active {conn : McastConn} (hActive : conn.active = true) :
    groupParts (some conn) = conn.parts.map Prod.snd :=
  if_pos hActive

/-- What is claimed is live. -/
theorem Consistent.live (h : Consistent s) {owner : Owner} {handle : Nat}
    (hClaimed : handle ∈ claims s owner) : ∃ value, s.device.object handle = some value := by
  cases owner with
  | base =>
      rcases List.mem_cons.mp hClaimed with rfl | hMr
      · exact ⟨_, h.pd⟩
      · obtain rfl := List.mem_singleton.mp hMr
        exact ⟨_, h.mr⟩
  | udqp =>
      cases hQp : s.udqp with
      | none => simp [claims, hQp, udqpParts] at hClaimed
      | some q =>
          have hShared := h.udqp hQp
          have hParts : handle = q.qp ∨ handle = q.sendCq ∨ handle = q.recvCq := by
            simpa [claims, hQp, udqpParts] using hClaimed
          rcases hParts with rfl | rfl | rfl
          · exact ⟨_, hShared.qp⟩
          · exact ⟨_, hShared.send⟩
          · exact ⟨_, hShared.recv⟩
  | mcast key =>
      cases hConn : s.mcastConns[key]? with
      | none => simp [claims, hConn, groupParts] at hClaimed
      | some conn =>
          have hActive : conn.active = true := by
            by_contra hLeft
            simp [claims, hConn, groupParts, hLeft] at hClaimed
          rw [claims, hConn, groupParts_active hActive] at hClaimed
          obtain ⟨found, hFound, rfl⟩ := List.mem_map.mp hClaimed
          obtain ⟨value, hValue, -⟩ := (h.joined hConn hActive).holds found hFound
          exact ⟨value, hValue⟩

/-- The strays, the connections and the number of joins stay what they are. -/
structure Kept (s t : UnreliableRDMA) : Prop where
  pd : t.pd = s.pd
  connected : t.connected = s.connected
  last : t.lastMCastConnKey = s.lastMCastConnKey
  strays : strays t = strays s
  object : ∀ {handle}, handle ∈ DatagramObjects.strays s →
    t.device.object handle = s.device.object handle

/-- Nothing becomes a stray if what a step keeps is all there is. -/
theorem Kept.straysOf (h : Kept s t) (value : Object) :
    DatagramObjects.straysOf t value = DatagramObjects.straysOf s value := by
  ext handle
  simp only [DatagramObjects.straysOf, h.strays, Set.mem_ofPred_eq]
  exact and_congr_right fun hStray => by rw [h.object hStray]

/-- A call that keeps the strays and the numbers keeps the order among them. -/
theorem Kept.tidy (h : Kept s t) (hTidy : Tidy s) : Tidy t where
  kinds handle hStray := by
    rw [h.strays] at hStray
    rw [h.object hStray, h.pd]
    exact hTidy.kinds handle hStray
  handles := by
    rw [h.pd, h.straysOf, h.connected]
    exact hTidy.handles
  lists := by
    rw [h.straysOf, h.last]
    exact hTidy.lists

/-- One stray more. -/
structure Strayed (s : UnreliableRDMA) (new : Nat) (value : Object) (t : UnreliableRDMA) :
    Prop where
  pd : t.pd = s.pd
  fresh : new ∉ strays s
  strays : strays t = insert new (DatagramObjects.strays s)
  object : t.device.object new = some value
  old : ∀ {handle}, handle ∈ DatagramObjects.strays s →
    t.device.object handle = s.device.object handle

/-- Of its kind, exactly the new object is added to the strays. -/
theorem Strayed.straysOf_same {new : Nat} (h : Strayed s new value t) :
    straysOf t value = insert new (straysOf s value) := by
  ext handle
  simp only [straysOf, h.strays, Set.mem_ofPred_eq, Set.mem_insert_iff]
  constructor
  · rintro ⟨rfl | hOld, hObject⟩
    · exact .inl rfl
    · exact .inr ⟨hOld, (h.old hOld).symm.trans hObject⟩
  · rintro (rfl | ⟨hOld, hObject⟩)
    · exact ⟨.inl rfl, h.object⟩
    · exact ⟨.inr hOld, (h.old hOld).trans hObject⟩

theorem Strayed.straysOf_other {new : Nat} (h : Strayed s new value t) {other : Object}
    (hOther : other ≠ value) : straysOf t other = straysOf s other := by
  ext handle
  simp only [straysOf, h.strays, Set.mem_ofPred_eq, Set.mem_insert_iff]
  constructor
  · rintro ⟨rfl | hOld, hObject⟩
    · exact (hOther (Option.some.inj (hObject.symm.trans h.object))).elim
    · exact ⟨hOld, (h.old hOld).symm.trans hObject⟩
  · rintro ⟨hOld, hObject⟩
    exact ⟨.inr hOld, (h.old hOld).trans hObject⟩

/-- The kinds of strays are right if that of the new one is. -/
theorem Strayed.kinds {new : Nat} (h : Strayed s new value t) (hTidy : Tidy s)
    (hValue : value = .ah s.pd ∨ value = .addrInfo) : ∀ handle ∈ DatagramObjects.strays t,
    t.device.object handle = some (.ah t.pd) ∨ t.device.object handle = some .addrInfo := by
  rw [h.strays, h.pd]
  rintro handle (rfl | hOld)
  · rw [h.object]
    exact hValue.imp (congrArg some) (congrArg some)
  · rw [h.old hOld]
    exact hTidy.kinds handle hOld

theorem Strayed.not_mem {new : Nat} (h : Strayed s new value t) (other : Object) :
    new ∉ straysOf s other := fun hOld => h.fresh hOld.1

/-- The list of addresses of one more join. -/
theorem Strayed.tidy_join {new : Nat} (h : Strayed s new .addrInfo t) (hTidy : Tidy s)
    (hConnected : t.connected = s.connected)
    (hLast : t.lastMCastConnKey = s.lastMCastConnKey + 1) : Tidy t where
  kinds := h.kinds hTidy (.inr rfl)
  handles := by
    rw [h.pd, h.straysOf_other (by simp), hConnected]
    exact hTidy.handles
  lists := by
    have hKeys : {key | key < t.lastMCastConnKey} =
        insert s.lastMCastConnKey {key | key < s.lastMCastConnKey} := by
      ext key
      simp only [hLast, Set.mem_ofPred_eq, Set.mem_insert_iff]
      omega
    rw [h.straysOf_same, hKeys]
    exact hTidy.lists.insert (Nat.lt_irrefl _) (h.not_mem _)

theorem connected_update (connected : Nat → Bool) (rdmaConnID : Nat) :
    {i | Function.update connected rdmaConnID true i = true} =
      insert rdmaConnID {i | connected i = true} := by
  ext i
  by_cases hSame : i = rdmaConnID <;> simp [Function.update_apply, hSame]

/-- The address handle of one more connection. -/
theorem Strayed.tidy_connect {new rdmaConnID : Nat} (h : Strayed s new (.ah s.pd) t)
    (hTidy : Tidy s) (hFirst : ¬ s.connected rdmaConnID = true)
    (hConnected : t.connected = Function.update s.connected rdmaConnID true)
    (hLast : t.lastMCastConnKey = s.lastMCastConnKey) : Tidy t where
  kinds := h.kinds hTidy (.inl rfl)
  handles := by
    rw [h.pd, h.straysOf_same, hConnected, connected_update]
    exact hTidy.handles.insert hFirst (h.not_mem _)
  lists := by
    rw [h.straysOf_other (by simp), hLast]
    exact hTidy.lists

end Groups

section Building

variable {made : List (Nat × Object)} {failed : String → UnreliableRDMA → Prop}

/-- New objects, in the order in which they were created. They use only each other
and the domain of the object. -/
structure Building (s : UnreliableRDMA) (made : List (Nat × Object)) (t : UnreliableRDMA) :
    Prop where
  added : keeper.Added s (made.map Prod.fst) t
  objects : ∀ found ∈ made, t.device.object found.1 = some found.2
  ordered : (made.map Prod.fst).Pairwise (· < ·)
  inner : ∀ {user handle}, user ∈ made.map Prod.fst → t.device.Uses user handle →
    handle = s.pd ∨ handle ∈ made.map Prod.fst

theorem Building.nil (s : UnreliableRDMA) : Building s [] s :=
  ⟨.refl s, nofun, .nil, nofun⟩

/-- The members do not change while objects are created. -/
theorem Building.rest (h : Building s made t) : t = { s with device := t.device } := h.added.same

/-- The device grows by what was made, and by nothing else. -/
theorem Building.device (h : Building s made t) :
    s.device.Extended (made.map Prod.fst) t.device :=
  h.added.store

theorem Building.same_claims (h : Building s made t) : claims t = claims s := by
  rw [h.rest]
  funext owner
  cases owner <;> rfl

/-- What is new is nobody's. -/
theorem Building.unclaimed (h : Building s made t) (hs : Consistent s) {owner : Owner}
    {handle : Nat} (hNew : handle ∈ made.map Prod.fst) : handle ∉ claims s owner := by
  intro hClaimed
  obtain ⟨value, hLive⟩ := hs.live hClaimed
  exact Nat.not_le_of_lt (Lifetimes.Store.lt_created hLive) (h.device.fresh hNew)

/-- A new object uses no old one but the protection domain, so what an owner stands for
is still used only by its own. -/
theorem Building.old_inside (h : Building s made t) (hs : Consistent s) {owner : Owner}
    {handle user : Nat} (hClaimed : handle ∈ claims s owner)
    (hOther : handle ≠ s.pd) (hUses : t.device.Uses user handle) :
    user ∈ claims s owner := by
  obtain ⟨found, hUser, kind, hUsed⟩ := hUses
  rcases h.device.cases hUser with hOld | hNew
  · exact hs.inside hClaimed hOther ⟨found, hOld, kind, hUsed⟩
  · rcases h.inner hNew ⟨found, hUser, kind, hUsed⟩ with hDomain | hInner
    · exact absurd hDomain hOther
    · exact absurd hClaimed (h.unclaimed hs hInner)

/-- What is being built does not concern the groups that are there. -/
theorem Building.consistent (h : Building s made t) (hs : Consistent s) : Consistent t where
  pd := by
    rw [h.rest]
    exact h.device.old hs.pd
  mr := by
    rw [h.rest]
    exact h.device.old hs.mr
  udqp {q} hQp := by
    rw [h.rest] at hQp
    have hShared := hs.udqp hQp
    rw [h.rest]
    exact ⟨h.device.old hShared.send, h.device.old hShared.recv, h.device.old hShared.qp,
      hShared.distinct⟩
  joined {key conn} hConn hActive := by
    rw [h.rest] at hConn
    have hJoined := hs.joined hConn hActive
    rw [h.rest]
    exact hJoined.mono fun _ hValue => h.device.old hValue
  numbered := by
    rw [h.rest]
    exact hs.numbered
  unique hOwner hOther := by
    rw [h.same_claims] at hOwner hOther
    exact hs.unique hOwner hOther
  inside hClaimed hOther hUses := by
    rw [h.same_claims] at hClaimed ⊢
    rw [h.rest] at hOther
    exact h.old_inside hs hClaimed hOther hUses

/-- The new objects become a group, but for those in `loose`, which use none of it. -/
theorem Building.grant (h : Building s made t) (hs : Consistent s) (chosen : Owner)
    {list loose : List Nat}
    (hList : ∀ handle, handle ∈ made.map Prod.fst ↔ handle ∈ list ∨ handle ∈ loose)
    (hLoose : ∀ user ∈ loose, ∀ handle ∈ list, ¬ t.device.Uses user handle) :
    (∀ {owner other handle}, handle ∈ Function.update (claims s) chosen list owner →
      handle ∈ Function.update (claims s) chosen list other → owner = other) ∧
    ∀ {owner handle user}, handle ∈ Function.update (claims s) chosen list owner →
      handle ≠ s.pd → t.device.Uses user handle →
        user ∈ Function.update (claims s) chosen list owner := by
  have hNewList : ∀ {handle}, handle ∈ list → handle ∈ made.map Prod.fst :=
    fun hNew => (hList _).mpr (.inl hNew)
  simp only [Ownership.Divided.mem_update]
  constructor
  · rintro owner other handle (⟨rfl, hNew⟩ | ⟨-, hOld⟩) (⟨rfl, hAlso⟩ | ⟨-, hOther⟩)
    · rfl
    · exact absurd hOther (h.unclaimed hs (hNewList hNew))
    · exact absurd hOld (h.unclaimed hs (hNewList hAlso))
    · exact hs.unique hOld hOther
  · rintro owner handle user (⟨rfl, hNew⟩ | ⟨hOwner, hOld⟩) hDomain hUses
    · have hUser := (hList user).mp (h.device.uses_new (hNewList hNew) hUses)
      exact .inl ⟨rfl, hUser.resolve_right fun hFree => hLoose user hFree handle hNew hUses⟩
    · exact .inr ⟨hOwner, h.old_inside hs hOld hDomain hUses⟩

/-- Once the new objects are a group, only those in `loose` are strays. -/
theorem Building.mem_strays (h : Building s made t) (hs : Consistent s) (chosen : Owner)
    {list loose : List Nat}
    (hList : ∀ handle, handle ∈ made.map Prod.fst ↔ handle ∈ list ∨ handle ∈ loose)
    (hApart : ∀ handle ∈ loose, handle ∉ list) (hEmpty : claims s chosen = [])
    (hDevice : u.device = t.device)
    (hClaims : claims u = Function.update (claims s) chosen list) (handle : Nat) :
    handle ∈ strays u ↔ handle ∈ strays s ∨ handle ∈ loose := by
  constructor
  · rintro ⟨⟨value, hLive⟩, hNobody⟩
    simp only [hClaims, Ownership.Divided.mem_update] at hNobody
    rw [hDevice] at hLive
    rcases h.device.cases hLive with hFirst | hNew
    · refine .inl ⟨⟨value, hFirst⟩, fun owner hClaimed => hNobody owner (.inr ⟨?_, hClaimed⟩)⟩
      rintro rfl
      simp [hEmpty] at hClaimed
    · exact .inr (((hList handle).mp hNew).resolve_left fun hMember =>
        hNobody chosen (.inl ⟨rfl, hMember⟩))
  · rintro (⟨⟨value, hLive⟩, hNobody⟩ | hFree)
    · refine ⟨⟨value, by rw [hDevice, h.device.old hLive]⟩, fun owner hClaimed => ?_⟩
      rw [hClaims, Ownership.Divided.mem_update] at hClaimed
      rcases hClaimed with ⟨-, hNew⟩ | ⟨-, hFirst⟩
      · exact Nat.not_le_of_lt (Lifetimes.Store.lt_created hLive)
          (h.device.fresh ((hList handle).mpr (.inl hNew)))
      · exact hNobody owner hFirst
    · have hNew := (hList handle).mpr (.inr hFree)
      obtain ⟨found, hFound, rfl⟩ := List.mem_map.mp hNew
      refine ⟨⟨found.2, by rw [hDevice, h.objects found hFound]⟩, fun owner hClaimed => ?_⟩
      rw [hClaims, Ownership.Divided.mem_update] at hClaimed
      rcases hClaimed with ⟨-, hMember⟩ | ⟨-, hOld⟩
      · exact hApart _ hFree hMember
      · exact h.unclaimed hs hNew hOld

theorem Building.fresh (h : Building s made t) {handle : Nat} (hNew : handle ∈ made.map Prod.fst) :
    handle ∉ strays s := by
  rintro ⟨⟨value, hOld⟩, -⟩
  exact Nat.not_le_of_lt (Lifetimes.Store.lt_created hOld) (h.device.fresh hNew)

/-- A stray is not touched when others are created. -/
theorem Building.old_strays (h : Building s made t) (hDevice : u.device = t.device) {handle : Nat}
    (hStray : handle ∈ strays s) : u.device.object handle = s.device.object handle := by
  obtain ⟨⟨value, hLive⟩, -⟩ := hStray
  rw [hDevice, hLive]
  exact h.device.old hLive

/-- An object on the domain or on what is being built is created. -/
theorem create_building (hs : Consistent s) (h : Building s made t)
    (hUses : ∀ used ∈ value.uses,
      used = (.pd, s.pd) ∨ ∃ found ∈ made, used = (found.2.kind, found.1)) :
    Ensures (create value) t (fun handle u => Building s (made ++ [(handle, value)]) u) failed := by
  have hPd : t.device.object s.pd = some .pd := h.device.old hs.pd
  apply keeper.create_ensures
  · intro used hUsed
    rcases hUses used hUsed with rfl | ⟨found, hFound, rfl⟩
    · exact ⟨_, hPd, rfl⟩
    · exact ⟨_, h.objects _ hFound, rfl⟩
  · intro e hGrown
    have hAdded := h.added.trans (Lifetimes.Keeper.added_of_grown hGrown)
    show Building s (made ++ [(t.device.created, value)]) { t with device := e }
    have hMem : ∀ {handle}, handle ∈ (made ++ [(t.device.created, value)]).map Prod.fst ↔
        handle ∈ made.map Prod.fst ∨ handle = t.device.created := by
      simp
    refine ⟨by rw [List.map_append]; exact hAdded, ?_, ?_, ?_⟩
    · intro found hFound
      rcases List.mem_append.mp hFound with hOld | hLast
      · exact hGrown.old (h.objects _ hOld)
      · obtain rfl := List.mem_singleton.mp hLast
        exact hGrown.new
    · rw [List.map_append, List.pairwise_append]
      refine ⟨h.ordered, List.pairwise_singleton _ _, fun handle hOld last hLast => ?_⟩
      obtain rfl : last = t.device.created := by simpa using hLast
      obtain ⟨found, hFound, rfl⟩ := List.mem_map.mp hOld
      exact Lifetimes.Store.lt_created (h.objects _ hFound)
    · intro user handle hUser hUsed
      rw [hMem]
      rcases hGrown.uses_cases hUsed with ⟨-, kind, hNew⟩ | hOld
      · rcases hUses _ hNew with hDomain | ⟨found, hFound, hSame⟩
        · exact .inl (congrArg Prod.snd hDomain)
        · refine .inr (.inl ?_)
          rw [show handle = found.1 from congrArg Prod.snd hSame]
          exact List.mem_map_of_mem hFound
      · rcases hMem.mp hUser with hMade | rfl
        · exact (h.inner hMade hOld).imp_right Or.inl
        · obtain ⟨found, hFound, -⟩ := hOld
          exact absurd (Lifetimes.Store.lt_created hFound) (Nat.lt_irrefl _)

end Building

section Joining

variable {made : List (Nat × Object)} {fault : Option Fault}
  {failed : String → UnreliableRDMA → Prop}

/-- A queue is created unless the verb fails. -/
theorem queue_building (hs : Consistent s) (h : Building s made t) (fails : Prop)
    [Decidable fails] :
    Ensures (createUnless fails .cq) t
      (fun cq u => ∃ more, Building s more u ∧ (¬ fails → more = made ++ [(cq, .cq)])) failed := by
  by_cases hFails : fails
  · rw [createUnless, if_pos hFails]
    exact .pure ⟨made, h, fun hNot => (hNot hFails).elim⟩
  · rw [createUnless, if_neg hFails]
    have hCreate : Ensures (create .cq) t (fun cq u => Building s (made ++ [(cq, .cq)]) u) failed :=
      create_building hs h (by simp [Object.uses])
    exact hCreate.weaken (fun cq u hu => ⟨_, hu, fun _ => rfl⟩) fun _ _ hFailed => hFailed

/-- The objects of a group up to the join, and the list of addresses. -/
def McastConn.objects (conn : McastConn) (info : Nat) : List (Nat × Object) :=
  [(conn.channel, .channel), (conn.id, .cmId conn.channel), (info, .addrInfo), (conn.pd, .pd),
    (conn.mr, .mr conn.pd), (conn.scq, .cq), (conn.rcq, .cq),
    (conn.qp, .cmQp conn.id conn.pd conn.scq conn.rcq)]

/-- A join that gets this far has created everything but the address handle, and the
address list of `rdma_getaddrinfo` besides. One that fails leaves what it has created so
far. -/
theorem createMCastConn_ensures (hs : Consistent s) :
    Ensures (createMCastConn fault) s (fun conn t => ∃ info, Building s (conn.objects info) t)
      (fun _ t => (∃ made, Building s made t) ∧ fault ≠ none) := by
  refine .guard (fun hFault => ⟨⟨_, .nil s⟩, by simp [hFault]⟩) fun _ => ?_
  refine .bind (create_building hs (.nil s) (by simp [Object.uses])) ?_
  intro channel s1 h1
  refine .guard (fun hFault => ⟨⟨_, h1⟩, by simp [hFault]⟩) fun _ => ?_
  refine .bind (create_building hs h1 (by simp [Object.uses, Object.kind])) ?_
  intro id s2 hId
  refine .guard (fun hFault => ⟨⟨_, hId⟩, by simp [hFault]⟩) fun _ => ?_
  refine .bind (create_building hs hId (by simp [Object.uses])) ?_
  intro info s2 h2
  refine .guard (fun hFault => ⟨⟨_, h2⟩, by simp [hFault]⟩) fun _ => ?_
  refine .guard (fun hFault => ⟨⟨_, h2⟩, by simp [hFault]⟩) fun _ => ?_
  refine .guard (fun hFault => ⟨⟨_, h2⟩, by simp [hFault]⟩) fun _ => ?_
  refine .bind (create_building hs h2 (by simp [Object.uses])) ?_
  intro pd s3 h3
  refine .guard (fun hFault => ⟨⟨_, h3⟩, by simp [hFault]⟩) fun _ => ?_
  refine .bind (create_building hs h3 (by simp [Object.uses, Object.kind])) ?_
  intro mr s4 h4
  refine .bind (queue_building hs h4 (fault = some .sendCq)) ?_
  rintro scq s5 ⟨made, h5, hSend⟩
  refine .bind (queue_building hs h5 (fault = some .recvCq)) ?_
  rintro rcq s6 ⟨more, h6, hRecv⟩
  refine .guard (fun hFault => ⟨⟨_, h6⟩, by rcases hFault with hFault | hFault <;> simp [hFault]⟩)
    fun hQueues => ?_
  obtain rfl := hSend fun hFault => hQueues (.inl hFault)
  obtain rfl := hRecv fun hFault => hQueues (.inr hFault)
  refine .guard (fun hFault => ⟨⟨_, h6⟩, by simp [hFault]⟩) fun _ => ?_
  refine .bind (create_building hs h6 (by simp [Object.uses, Object.kind])) ?_
  intro qp s7 h7
  exact .pure ⟨info, h7⟩

/-- The entries after `setMCastConn`. An entry in a gap is of no group. -/
theorem storeMCastConn_get (conns : List McastConn) (key : Nat) (conn : McastConn) (i : Nat) :
    (storeMCastConn conns key conn)[i]? = (if i = key then some conn else conns[i]?) ∨
      (i ≠ key ∧ conns[i]? = none ∧ (storeMCastConn conns key conn)[i]? = some {}) := by
  have hLength :
      key < (conns ++ List.replicate (key + 1 - conns.length) ({} : McastConn)).length := by
    rw [List.length_append, List.length_replicate]
    omega
  by_cases hSame : i = key
  · subst hSame
    exact .inl (by rw [storeMCastConn, List.getElem?_set_self hLength, if_pos rfl])
  · rw [storeMCastConn, List.getElem?_set_ne (Ne.symm hSame), if_neg hSame]
    by_cases hOld : i < conns.length
    · exact .inl (List.getElem?_append_left hOld)
    · have hNone := List.getElem?_eq_none (Nat.le_of_not_lt hOld)
      rw [List.getElem?_append_right (Nat.le_of_not_lt hOld), List.getElem?_replicate]
      split
      · exact .inr ⟨hSame, hNone, rfl⟩
      · exact .inl hNone.symm

theorem storeMCastConn_parts (conns : List McastConn) (key : Nat) (conn : McastConn) (i : Nat) :
    groupParts (storeMCastConn conns key conn)[i]? =
      if i = key then groupParts (some conn) else groupParts conns[i]? := by
  rcases storeMCastConn_get conns key conn i with hGet | ⟨hOther, hNone, hGap⟩
  · rw [hGet]
    split <;> rfl
  · rw [hGap, if_neg hOther, hNone]
    rfl

/-- The new number owns the objects of the group, whatever stood there before. -/
theorem claims_storeMCastConn {key : Nat} {conn : McastConn} :
    claims { s with mcastConns := storeMCastConn s.mcastConns key conn } =
      Function.update (claims s) (.mcast key) (groupParts (some conn)) := by
  funext owner
  cases owner with
  | base | udqp => rfl
  | mcast i =>
      rw [Function.update_apply]
      simp only [claims, storeMCastConn_parts, Owner.mcast.injEq]

/-- Of what a join creates all but the address list belongs to the group. -/
theorem mem_joined (conn : McastConn) (info ah domain handle : Nat) :
    handle ∈ (conn.objects info ++ [(ah, Object.ah domain)]).map Prod.fst ↔
      handle ∈ groupParts (some { conn with ah, active := true }) ∨ handle ∈ [info] := by
  simp [groupParts, McastConn.parts, McastConn.objects]
  tauto

/-- The list of addresses is no part of the group. -/
theorem Building.info_apart {conn : McastConn} {info ah : Nat}
    (h : Building s (conn.objects info ++ [(ah, .ah s.pd)]) t) :
    info ∉ groupParts (some { conn with ah, active := true }) := by
  have hOrdered := h.ordered
  simp [McastConn.objects] at hOrdered
  simp [groupParts, McastConn.parts]
  omega

/-- A group that was joined is stored under a number of its own. -/
theorem Building.join {conn : McastConn} {info ah : Nat} (hs : Consistent s)
    (h : Building s (conn.objects info ++ [(ah, .ah s.pd)]) t) {key : Nat}
    (hKey : s.mcastConns.length ≤ key) (hLast : key + 1 ≤ s.lastMCastConnKey) :
    Consistent { t with
      mcastConns := storeMCastConn t.mcastConns key { conn with ah, active := true } } := by
  have ht := h.consistent hs
  have hJoined : Joined t.device s.pd { conn with ah, active := true } := by
    have hObjects : ∀ found ∈ conn.objects info ++ [(ah, Object.ah s.pd)],
        t.device.object found.1 = some found.2 := h.objects
    have hOrdered := h.ordered
    simp only [McastConn.objects, List.cons_append, List.nil_append,
      List.forall_mem_cons] at hObjects
    obtain ⟨hChannel, hId, -, hPd, hMr, hScq, hRcq, hQp, hAh, -⟩ := hObjects
    refine ⟨hChannel, hId, hPd, hMr, hScq, hRcq, hQp, hAh, ?_⟩
    simp [McastConn.objects] at hOrdered
    tauto
  have hInfo : t.device.object info = some .addrInfo := by
    apply h.objects (info, .addrInfo)
    simp [McastConn.objects]
  obtain ⟨hUnique, hInside⟩ := h.grant hs (.mcast key) (mem_joined conn info ah s.pd)
    fun user hUser handle _ => by
      rw [List.mem_singleton.mp hUser]
      exact not_uses_of_nil hInfo rfl
  have hRest := h.rest
  exact
    { pd := ht.pd
      mr := ht.mr
      udqp := ht.udqp
      joined := fun {i other} hOther hActive => by
        rcases storeMCastConn_get t.mcastConns key { conn with ah, active := true } i with
          hGet | ⟨-, -, hGap⟩
        · rw [hGet] at hOther
          split at hOther
          · obtain rfl := Option.some.inj hOther
            rw [hRest]
            exact hJoined
          · exact ht.joined hOther hActive
        · obtain rfl := Option.some.inj (hGap.symm.trans hOther)
          cases hActive
      numbered := by
        show (storeMCastConn t.mcastConns key _).length ≤ t.lastMCastConnKey
        have hConns : t.mcastConns = s.mcastConns := by rw [hRest]
        have hCount : t.lastMCastConnKey = s.lastMCastConnKey := by rw [hRest]
        rw [storeMCastConn, List.length_set, List.length_append, List.length_replicate, hConns,
          hCount]
        omega
      unique := by
        rw [claims_storeMCastConn, h.same_claims]
        exact hUnique
      inside := by
        rw [claims_storeMCastConn, h.same_claims]
        rw [hRest]
        exact hInside }

end Joining

section Calls

variable {q : IbQp} {fault : Option Fault} {failed : String → UnreliableRDMA → Prop}

/-- What a call keeps that throws only if a verb fails. -/
def Keeps {α : Type} (s : UnreliableRDMA) (fault : Option Fault) (call : UDCall α) : Prop :=
  Ensures call s (fun _ t => Consistent t ∧ (fault = none → Tidy s → Tidy t))
    (fun _ t => Consistent t ∧ fault ≠ none)

/-- A join gives its objects to a new number. Only the address list is left without an
owner, one for each join. -/
theorem joinMCastGroup_keeps (hs : Consistent s) : Keeps s fault (joinMCastGroup fault) := by
  have hNext : Consistent { s with lastMCastConnKey := s.lastMCastConnKey + 1 } :=
    ⟨hs.pd, hs.mr, hs.udqp, hs.joined, Nat.le_succ_of_le hs.numbered, hs.unique, hs.inside⟩
  have hCount : Ensures (modify fun s : UnreliableRDMA =>
      { s with lastMCastConnKey := s.lastMCastConnKey + 1 } : UDCall Unit) s
      (fun _ t => t = { s with lastMCastConnKey := s.lastMCastConnKey + 1 })
      (fun _ t => Consistent t ∧ fault ≠ none) := .modify rfl
  refine .get (.bind hCount ?_)
  rintro _ _ rfl
  have hCreate := (@createMCastConn_ensures _ fault hNext).weaken
    (fun _ _ hB => hB) fun _ t hFailed =>
      (⟨hFailed.1.elim fun _ hB => hB.consistent hNext, hFailed.2⟩ : Consistent t ∧ fault ≠ none)
  refine .bind hCreate ?_
  rintro conn t ⟨info, ht⟩
  refine .guard (fun hFault => ⟨ht.consistent hNext, by simp [hFault]⟩) fun _ => ?_
  refine .guard (fun hFault => ⟨ht.consistent hNext, by simp [hFault]⟩) fun _ => ?_
  refine .guard (fun hFault => ⟨ht.consistent hNext, by simp [hFault]⟩) fun _ => ?_
  refine .bind (create_building hNext ht (by simp [Object.uses])) ?_
  intro ah u hu
  have hRest := hu.rest
  refine .bind (.modify ⟨hu.join hNext hs.numbered (Nat.le_refl _), fun _ hTidy => ?_⟩)
    fun _ _ hv => .pure hv
  have hNone : s.mcastConns[s.lastMCastConnKey]? = none := List.getElem?_eq_none hs.numbered
  have hApart : ∀ handle ∈ [info],
      handle ∉ groupParts (some { conn with ah, active := true }) := by
    intro handle hInfo
    rw [List.mem_singleton.mp hInfo]
    exact hu.info_apart
  have hStrays := hu.mem_strays (u := { u with
      mcastConns := storeMCastConn u.mcastConns s.lastMCastConnKey { conn with ah, active := true } })
    hNext (.mcast s.lastMCastConnKey) (mem_joined conn info ah s.pd) hApart
    (congrArg groupParts hNone) rfl (by rw [claims_storeMCastConn, hu.same_claims])
  have hMade : (info, Object.addrInfo) ∈ conn.objects info ++ [(ah, Object.ah s.pd)] := by
    simp [McastConn.objects]
  have hStrayed : Strayed s info .addrInfo { u with
      mcastConns := storeMCastConn u.mcastConns s.lastMCastConnKey
        { conn with ah, active := true } } := by
    refine ⟨by rw [hRest], hu.fresh (List.mem_map_of_mem hMade), ?_, hu.objects _ hMade,
      fun hOld => hu.old_strays rfl hOld⟩
    ext handle
    rw [hStrays handle, List.mem_singleton, or_comm]
    rfl
  exact hStrayed.tidy_join hTidy (by rw [hRest]) (by rw [hRest])

/-- The queues and the queue pair that are used for all connections. -/
def sharedObjects (domain : Nat) (q : IbQp) : List (Nat × Object) :=
  [(q.sendCq, .cq), (q.recvCq, .cq), (q.qp, .qp domain q.sendCq q.recvCq)]

/-- The shared queue pair owns all that was created for it. -/
theorem mem_shared (domain handle : Nat) : handle ∈ (sharedObjects domain q).map Prod.fst ↔
    handle ∈ [q.qp, q.sendCq, q.recvCq] ∨ handle ∈ [] := by
  simp [sharedObjects]
  tauto

/-- The shared queue pair and its completion queues have an owner of their own. -/
theorem claims_udqp : claims { s with udqp := some q } =
    Function.update (claims s) .udqp [q.qp, q.sendCq, q.recvCq] := by
  funext owner
  cases owner <;> rfl

/-- The shared queue pair is taken over by its member. -/
theorem Building.share (h : Building s (sharedObjects s.pd q) t) (hs : Consistent s) :
    Consistent { t with udqp := some q } := by
  have ht := h.consistent hs
  have hRest := h.rest
  obtain ⟨hUnique, hInside⟩ := h.grant hs .udqp (mem_shared s.pd) (by simp)
  have hShared : Shared t.device s.pd q := by
    have hObjects : ∀ found ∈ sharedObjects s.pd q, t.device.object found.1 = some found.2 :=
      h.objects
    have hOrdered := h.ordered
    simp only [sharedObjects, List.forall_mem_cons] at hObjects
    obtain ⟨hSend, hRecv, hQp, -⟩ := hObjects
    simp [sharedObjects] at hOrdered
    exact ⟨hSend, hRecv, hQp, hOrdered.1.1.ne⟩
  exact
    { pd := ht.pd
      mr := ht.mr
      udqp := fun {other} hOther => by
        obtain rfl := Option.some.inj hOther
        rw [hRest]
        exact hShared
      joined := ht.joined
      numbered := ht.numbered
      unique := by
        rw [claims_udqp, h.same_claims]
        exact hUnique
      inside := by
        rw [claims_udqp, h.same_claims]
        rw [hRest]
        exact hInside }

/-- The first shared queue pair leaves no stray behind. -/
theorem Building.share_kept (h : Building s (sharedObjects s.pd q) t) (hs : Consistent s)
    (hFirst : s.udqp = none) : Kept s { t with udqp := some q } := by
  have hRest := h.rest
  have hStrays := h.mem_strays (u := { t with udqp := some q }) hs .udqp (mem_shared s.pd)
    (by simp) (congrArg udqpParts hFirst) rfl (by rw [claims_udqp, h.same_claims])
  refine ⟨by rw [hRest], by rw [hRest], by rw [hRest], ?_, h.old_strays rfl⟩
  ext handle
  rw [hStrays handle]
  exact or_iff_left (List.not_mem_nil)

/-- The shared queue pair is created once; later calls find it. -/
theorem initQPUnstored_keeps (hs : Consistent s) : Keeps s fault (initQPUnstored fault) := by
  refine .get ?_
  cases hQp : s.udqp with
  | some q => exact .pure ⟨hs, fun _ => id⟩
  | none =>
      have hQueues : Ensures
          (createQueues (create .cq) (fault = some .sendCq) (fault = some .recvCq)) s
          (fun cqs t => Building s [(cqs.1, .cq), (cqs.2, .cq)] t)
          (fun _ t => Consistent t ∧ fault ≠ none) := by
        refine .guard (fun hFault => ⟨hs, by simp [of_decide_eq_true hFault]⟩) fun _ => ?_
        refine .bind (create_building hs (.nil s) (by simp [Object.uses])) ?_
        intro sendCq t ht
        refine .guard (fun hFault => ⟨ht.consistent hs, by simp [of_decide_eq_true hFault]⟩)
          fun _ => ?_
        refine .bind (create_building hs ht (by simp [Object.uses])) ?_
        intro recvCq u hu
        exact .pure hu
      refine .bind hQueues ?_
      rintro ⟨sendCq, recvCq⟩ t ht
      refine .guard (fun hFault => ⟨ht.consistent hs, by simp [hFault]⟩) fun _ => ?_
      refine .bind (create_building hs ht (by simp [Object.uses, Object.kind])) ?_
      intro qp u hu
      have hShare : Consistent { u with udqp := some ⟨qp, sendCq, recvCq⟩ } := hu.share hs
      have hStore : Ensures (modify fun s : UnreliableRDMA =>
          { s with udqp := some ⟨qp, sendCq, recvCq⟩ } : UDCall Unit) u
          (fun _ v => v = { u with udqp := some ⟨qp, sendCq, recvCq⟩ })
          (fun _ v => Consistent v ∧ fault ≠ none) := .modify rfl
      refine .bind hStore ?_
      rintro _ _ rfl
      refine .guard (fun hFault => ⟨hShare, by simp [hFault]⟩) fun _ => ?_
      refine .guard (fun hFault => ⟨hShare, by simp [hFault]⟩) fun _ => ?_
      refine .guard (fun hFault => ⟨hShare, by simp [hFault]⟩) fun _ => ?_
      refine .pure ⟨hShare, fun _ hTidy => ?_⟩
      exact (hu.share_kept hs hQp).tidy hTidy

/-- The entries of `m_qps` are copies of the shared queue pair, so they own nothing. -/
theorem Consistent.setQPs (h : Consistent s) (qps : List (Option IbQp)) :
    Consistent { s with qps := qps } :=
  ⟨h.pd, h.mr, h.udqp, h.joined, h.numbered, h.unique, h.inside⟩

/-- `setQP` only copies, so it creates and loses nothing. -/
theorem setQP_keeps (h : Consistent s) (rdmaConnID : Nat) (q : IbQp) :
    Keeps s fault (setQP rdmaConnID q) :=
  .modify ⟨h.setQPs _, fun _ => Kept.tidy ⟨rfl, rfl, rfl, rfl, fun _ => rfl⟩⟩

/-- Setting the remote data may enlarge `m_rconns`, and does not touch the device. -/
theorem setRemoteConnData_keeps (h : Consistent s) (rdmaConnID : Nat) :
    Keeps s fault (setRemoteConnData rdmaConnID) :=
  .modify ⟨⟨h.pd, h.mr, h.udqp, h.joined, h.numbered, h.unique, h.inside⟩,
    fun _ => Kept.tidy ⟨rfl, rfl, rfl, rfl, fun _ => rfl⟩⟩

/-- One call after the other. -/
theorem Keeps.seq {α β : Type} {call : UDCall α} {last : α → UDCall β} (h : Keeps s fault call)
    (hLast : ∀ value t, Consistent t → Keeps t fault (last value)) :
    Keeps s fault (call >>= last) := by
  refine .bind h ?_
  rintro value t ⟨ht, hTidy⟩
  exact (hLast value t ht).weaken
    (fun _ _ hu => ⟨hu.1, fun hNone hs => hu.2 hNone (hTidy hNone hs)⟩) fun _ _ hFailed => hFailed

/-- A call that returns at once keeps everything. -/
theorem Keeps.return {α : Type} (h : Consistent s) (value : α) :
    Keeps s fault (pure value : UDCall α) :=
  .pure ⟨h, fun _ => id⟩

/-- What is in no group is a stray. -/
theorem Building.strayed {new : Nat} (h : Building s [(new, value)] t) (hs : Consistent s) :
    Strayed s new value t := by
  have hNew : new ∈ [(new, value)].map Prod.fst := by simp
  have hLive : t.device.object new = some value := h.objects _ (List.mem_singleton_self _)
  refine ⟨by rw [h.rest], h.fresh hNew, ?_, hLive, fun hOld => h.old_strays rfl hOld⟩
  ext handle
  simp only [strays, h.same_claims, Set.mem_insert_iff, Set.mem_ofPred_eq]
  constructor
  · rintro ⟨⟨found, hFound⟩, hNobody⟩
    rcases h.device.cases hFound with hOld | hMade
    · exact .inr ⟨⟨found, hOld⟩, hNobody⟩
    · exact .inl (by simpa using hMade)
  · rintro (rfl | ⟨⟨found, hOld⟩, hNobody⟩)
    · exact ⟨⟨_, hLive⟩, fun owner => h.unclaimed hs hNew⟩
    · exact ⟨⟨found, h.device.old hOld⟩, hNobody⟩

/-- An address handle belongs to the connection it was made for. -/
theorem Building.connect {ah rdmaConnID : Nat} (h : Building s [(ah, .ah s.pd)] t)
    (hs : Consistent s) (hFirst : ¬ s.connected rdmaConnID = true) (hTidy : Tidy s) :
    Tidy { t with connected := Function.update t.connected rdmaConnID true } := by
  have hStrayed := h.strayed hs
  have hMarked : Strayed s ah (.ah s.pd)
      { t with connected := Function.update t.connected rdmaConnID true } :=
    ⟨hStrayed.pd, hStrayed.fresh, hStrayed.strays, hStrayed.object, hStrayed.old⟩
  exact hMarked.tidy_connect hTidy hFirst (by rw [h.rest]) (by rw [h.rest])

/-- Which connections are connected is no matter of ownership. -/
theorem Consistent.connect (h : Consistent s) (connected : Nat → Bool) :
    Consistent { s with connected := connected } :=
  ⟨h.pd, h.mr, h.udqp, h.joined, h.numbered, h.unique, h.inside⟩

/-- The entry of `m_rconns` has to be there. -/
theorem connectQP_keeps (hs : Consistent s) {rdmaConnID : Nat}
    (hReads : s.connected rdmaConnID = true ∨ rdmaConnID < s.rconnsSize) :
    Keeps s fault (connectQP rdmaConnID fault) := by
  refine .get ?_
  by_cases hConnected : s.connected rdmaConnID = true
  · rw [if_pos hConnected]
    exact Keeps.return hs ()
  · rw [if_neg hConnected, if_pos (hReads.resolve_left hConnected)]
    by_cases hFault : fault = some .ah
    · rw [createUnless, if_pos hFault]
      exact .modify ⟨hs.connect _, fun hNone => by simp [hNone] at hFault⟩
    · rw [createUnless, if_neg hFault]
      refine .bind (create_building hs (.nil s) (by simp [Object.uses])) ?_
      intro ah t ht
      exact .modify ⟨(ht.consistent hs).connect _, fun _ => ht.connect hs hConnected⟩

end Calls

end DatagramObjects
