import RDMAPatterns.Connection.ConnectResult
import RDMAPatterns.Sequencer.Registry

/-! Who is who. Processes register with the sequencer when they are first used
as a client, or started as a server, and ask it for the node ids behind the
addresses they connect to. Any number of processes, their exchanges with the
sequencer interleaved in any order. -/
namespace Identities

open Journal NodeIDSequencer Transition
open NodeIDSequencer.Registry (NO_ERROR NODEID_NOT_FOUND Request GetNodeIDForIpPortResponse Response
  handle entryAt ServerUnder Represents listing_length listing_getElem? represents_nil)
open RDMAClient (Client Variant isConnected connectProto isConnected_connectProto recordNodeID)

/-- `m_ownIpPort`, `m_name` and `m_nodeType` of a process, and its `connect`. -/
structure Profile where
  ip : String
  name : String
  nodeType : NodeType
  variant : Variant
deriving DecidableEq, Repr

/-- `ProtoMessageFactory::createNodeIDRequest`. -/
def Profile.request (profile : Profile) : NodeIDRequest :=
  ⟨profile.ip, profile.name, profile.nodeType⟩

/-- Where the thread of a process is. A goal is the address it is going to
connect to; without one it starts a server, or polls for receivers. -/
inductive Control where
  | idle
  | registering (goal : Option String)
  | lookingUp (ipPort : String) (i : Nat)
deriving DecidableEq, Repr

/-- The message a process has with the sequencer. -/
inductive Exchange where
  | none
  | requested (request : Request)
  | answered (response : Response)
deriving DecidableEq, Repr

structure Process where
  client : Client := {}
  control : Control := .idle
  exchange : Exchange := .none

/-- The rest of `connect` up to the lookup. An address that is connected already
is read from `m_connections`, where a missing key becomes zero. -/
def lookup (c : Client) (ipPort : String) : Process :=
  if isConnected c ipPort then
    { client := { c with
        connections := Function.update c.connections ipPort
          (some ((c.connections ipPort).getD 0)) } }
  else
    { client := connectProto c ipPort
      control := .lookingUp ipPort 0
      exchange := .requested (.getNodeIDForIpPort ipPort) }

/-- What follows the registration. -/
def proceed (c : Client) : Option String → Process
  | none => { client := c }
  | some ipPort => lookup c ipPort

/-- The top of `connect`, `startServer` and `queryReceiverInformation`. -/
def call (profile : Profile) (c : Client) (goal : Option String) : Process :=
  if isConnected c c.sequencerIpPort then proceed c goal
  else
    { client := connectProto c c.sequencerIpPort
      control := .registering goal
      exchange := .requested (.nodeID profile.request) }

/-- A reply to a lookup, `i` of which have been repeated. A thrown exception and
a `connect` that returns false leave the process idle. -/
def lookedUp (retries : Nat) (c : Client) (ipPort : String) (i : Nat)
    (connResp : GetNodeIDForIpPortResponse) : Process :=
  if connResp.return_ ≠ NO_ERROR then
    if i < retries then
      { client := c
        control := .lookingUp ipPort (i + 1)
        exchange := .requested (.getNodeIDForIpPort ipPort) }
    else { client := c }
  else if connResp.ip ≠ ipPort then { client := c }
  else { client := recordNodeID c ipPort connResp.nodeID }

/-- A process reads a reply. -/
def receive (retries : Nat) (p : Process) (response : Response) : Process :=
  match p.control with
  | .idle => p
  | .registering goal =>
      match response with
      | .nodeID nodeid _ => proceed { p.client with ownNodeID := nodeid } goal
      | _ => { client := p.client }
  | .lookingUp ipPort i =>
      match response with
      | .getNodeIDForIpPort connResp => lookedUp retries p.client ipPort i connResp
      | _ =>
          if i = 0 then { client := p.client }
          else lookedUp retries p.client ipPort i { return_ := NODEID_NOT_FOUND }

structure State (Node : Type*) where
  sequencer : Sequencer := {}
  process : Node → Process := fun _ => {}

inductive Action (Node : Type*) where
  | call (node : Node) (goal : Option String)
  | handle (node : Node)
  | receive (node : Node)
  | other (request : Request)
deriving DecidableEq, Repr

section Machine

variable {Node : Type*} [DecidableEq Node] (profile : Node → Profile)

def State.setProcess (s : State Node) (node : Node) (p : Process) : State Node :=
  { s with process := Function.update s.process node p }

/-- Nobody connects to the sequencer as if it were a server. Messages of other
processes do not register anybody. -/
def next (s : State Node) : Action Node → Option (State Node)
  | .call node goal =>
      if (s.process node).control = .idle ∧
          goal ≠ some (s.process node).client.sequencerIpPort then
        some (s.setProcess node (call (profile node) (s.process node).client goal))
      else none
  | .handle node =>
      match (s.process node).exchange with
      | .requested request =>
          (Registry.handle s.sequencer request).map fun reply =>
            { s.setProcess node { s.process node with exchange := .answered reply.1 } with
              sequencer := reply.2 }
      | .none | .answered _ => none
  | .receive node =>
      match (s.process node).exchange with
      | .answered response =>
          some (s.setProcess node
            (receive (profile node).variant.retries (s.process node) response))
      | .none | .requested _ => none
  | .other request =>
      if request.registration = none then
        (Registry.handle s.sequencer request).map fun reply => { s with sequencer := reply.2 }
      else none

def identitiesMachine : Machine (State Node) (Action Node) where
  init := {}
  next := next profile

end Machine

/-- The id of a process, from the sequencer's answer on. -/
def Process.identity (p : Process) : Option Nat :=
  if isConnected p.client p.client.sequencerIpPort then
    match p.control with
    | .registering _ =>
        match p.exchange with
        | .answered (.nodeID nodeid _) => some nodeid
        | _ => none
    | .idle | .lookingUp _ _ => some p.client.ownNodeID
  else none

/-- A server of this address has this id. -/
def Names {Node : Type*} (profile : Node → Profile) (s : State Node) (ipPort : String)
    (nodeID : Nat) : Prop :=
  ∃ node, (profile node).nodeType = .server ∧ (profile node).ip = ipPort ∧
    (s.process node).identity = some nodeID

/-- The reply that waits to be read ends a lookup that has run out of retries. -/
def Process.givesUp (retries : Nat) (p : Process) : Bool :=
  match p.control, p.exchange with
  | .lookingUp _ i, .answered (.getNodeIDForIpPort connResp) =>
      connResp.return_ ≠ NO_ERROR && retries ≤ i
  | _, _ => false

def GivesUp {Node : Type*} (profile : Node → Profile) : State Node × Action Node → Prop
  | (s, .receive node) => (s.process node).givesUp (profile node).variant.retries = true
  | _ => False

instance {Node : Type*} (profile : Node → Profile) : DecidablePred (GivesUp profile)
  | (_, .call _ _) | (_, .handle _) | (_, .other _) => inferInstanceAs (Decidable False)
  | (s, .receive node) => inferInstanceAs (Decidable ((s.process node).givesUp _ = true))

section Processes

/-- What `m_connections` says is right, and it knows every address that the
process is connected to, up to one that is being looked up. -/
structure Recorded (names : String → Nat → Prop) (pending : Option String) (c : Client) : Prop where
  connections : ∀ ipPort nodeID, c.connections ipPort = some nodeID → names ipPort nodeID
  known : ∀ ipPort, isConnected c ipPort = true → ipPort ≠ c.sequencerIpPort →
    some ipPort ≠ pending → ∃ nodeID, c.connections ipPort = some nodeID

/-- The states a process can be in. The addresses are right while `clean`. -/
inductive Sound (clean : Prop) (profile : Profile) (names : String → Nat → Prop) :
    Process → Prop where
  | idle {c : Client} (hClient : clean → Recorded names none c) :
      Sound clean profile names ⟨c, .idle, .none⟩
  | registering {c : Client} {goal : Option String} (hClient : clean → Recorded names none c)
      (hConnected : isConnected c c.sequencerIpPort = true) (hGoal : goal ≠ some c.sequencerIpPort) :
      Sound clean profile names ⟨c, .registering goal, .requested (.nodeID profile.request)⟩
  | registered {c : Client} {goal : Option String} {nodeid : Nat}
      (hClient : clean → Recorded names none c)
      (hConnected : isConnected c c.sequencerIpPort = true) (hGoal : goal ≠ some c.sequencerIpPort) :
      Sound clean profile names ⟨c, .registering goal, .answered (.nodeID nodeid NO_ERROR)⟩
  | lookingUp {c : Client} {ipPort : String} {i : Nat}
      (hClient : clean → Recorded names (some ipPort) c)
      (hConnected : isConnected c c.sequencerIpPort = true) (hOther : ipPort ≠ c.sequencerIpPort) :
      Sound clean profile names
        ⟨c, .lookingUp ipPort i, .requested (.getNodeIDForIpPort ipPort)⟩
  | lookedUp {c : Client} {ipPort : String} {i : Nat} {connResp : GetNodeIDForIpPortResponse}
      (hClient : clean → Recorded names (some ipPort) c)
      (hConnected : isConnected c c.sequencerIpPort = true) (hOther : ipPort ≠ c.sequencerIpPort)
      (hFound : connResp.return_ = NO_ERROR →
        connResp.ip = ipPort ∧ names ipPort connResp.nodeID) :
      Sound clean profile names
        ⟨c, .lookingUp ipPort i, .answered (.getNodeIDForIpPort connResp)⟩

variable {clean : Prop} {profile : Profile} {names more : String → Nat → Prop} {c : Client}
  {pending goal : Option String} {ipPort : String}

/-- More addresses may be known to the sequencer. -/
theorem Recorded.mono (h : Recorded names pending c)
    (hMore : ∀ ipPort nodeID, names ipPort nodeID → more ipPort nodeID) : Recorded more pending c :=
  ⟨fun ipPort nodeID hEntry => hMore ipPort nodeID (h.connections ipPort nodeID hEntry), h.known⟩

/-- What a process has read stays true when others register. -/
theorem Sound.mono {p : Process} (h : Sound clean profile names p)
    (hMore : ∀ ipPort nodeID, names ipPort nodeID → more ipPort nodeID) :
    Sound clean profile more p := by
  cases h with
  | idle hClient => exact .idle fun hClean => (hClient hClean).mono hMore
  | registering hClient hConnected hGoal =>
      exact .registering (fun hClean => (hClient hClean).mono hMore) hConnected hGoal
  | registered hClient hConnected hGoal =>
      exact .registered (fun hClean => (hClient hClean).mono hMore) hConnected hGoal
  | lookingUp hClient hConnected hOther =>
      exact .lookingUp (fun hClean => (hClient hClean).mono hMore) hConnected hOther
  | lookedUp hClient hConnected hOther hFound =>
      exact .lookedUp (fun hClean => (hClient hClean).mono hMore) hConnected hOther
        fun hOk => ⟨(hFound hOk).1, hMore _ _ (hFound hOk).2⟩

/-- A connected address is pending, until its id is known. -/
theorem Recorded.connectProto (h : Recorded names none c) (ipPort : String) :
    Recorded names (some ipPort) (connectProto c ipPort) where
  connections := h.connections
  known := by
    intro other hConnected hOther hPending
    rcases (isConnected_connectProto c ipPort other).mp hConnected with hOld | rfl
    · exact h.known other hOld hOther (by simp)
    · exact absurd rfl hPending

/-- The sequencer's own address is not looked up. -/
theorem Recorded.register (h : Recorded names none c) :
    Recorded names none (RDMAClient.connectProto c c.sequencerIpPort) where
  connections := h.connections
  known := by
    intro other hConnected hOther _
    rcases (isConnected_connectProto c c.sequencerIpPort other).mp hConnected with hOld | rfl
    · exact h.known other hOld hOther (by simp)
    · exact absurd rfl hOther

/-- An id that the sequencer gave may be entered. -/
theorem Recorded.recordNodeID {nodeID : Nat} (h : Recorded names (some ipPort) c)
    (hName : names ipPort nodeID) : Recorded names none (recordNodeID c ipPort nodeID) where
  connections := by
    intro other found hEntry
    by_cases hSame : other = ipPort
    · subst hSame
      obtain rfl : nodeID = found := by simpa [RDMAClient.recordNodeID] using hEntry
      exact hName
    · apply h.connections
      simpa [RDMAClient.recordNodeID, Function.update_of_ne hSame] using hEntry
  known := by
    intro other hConnected hOther _
    by_cases hSame : other = ipPort
    · subst hSame
      exact ⟨nodeID, by simp [RDMAClient.recordNodeID]⟩
    · obtain ⟨found, hFound⟩ := h.known other hConnected hOther (by simpa using hSame)
      exact ⟨found, by simpa [RDMAClient.recordNodeID, Function.update_of_ne hSame] using hFound⟩

/-- Reading the entry of a connected address changes nothing. -/
theorem Recorded.read (h : Recorded names none c) (hConnected : isConnected c ipPort = true)
    (hOther : ipPort ≠ c.sequencerIpPort) :
    Recorded names none { c with
      connections := Function.update c.connections ipPort
        (some ((c.connections ipPort).getD 0)) } := by
  obtain ⟨nodeID, hEntry⟩ := h.known ipPort hConnected hOther (by simp)
  have hSame : Function.update c.connections ipPort (some ((c.connections ipPort).getD 0)) =
      c.connections := by
    rw [hEntry, Option.getD_some, ← hEntry, Function.update_eq_self]
  rw [hSame]
  exact h

theorem lookup_sound (hClient : clean → Recorded names none c)
    (hConnected : isConnected c c.sequencerIpPort = true) (hOther : ipPort ≠ c.sequencerIpPort) :
    Sound clean profile names (lookup c ipPort) ∧
      (lookup c ipPort).identity = some c.ownNodeID := by
  by_cases hKnown : isConnected c ipPort = true
  · rw [lookup, if_pos hKnown]
    refine ⟨.idle fun hClean => (hClient hClean).read hKnown hOther, ?_⟩
    show (if isConnected c c.sequencerIpPort = true then some c.ownNodeID else none) = _
    rw [if_pos hConnected]
  · rw [lookup, if_neg hKnown]
    have hStill : isConnected (connectProto c ipPort) c.sequencerIpPort = true :=
      (isConnected_connectProto c ipPort _).mpr (.inl hConnected)
    refine ⟨.lookingUp (fun hClean => (hClient hClean).connectProto ipPort) hStill hOther, ?_⟩
    show (if isConnected (connectProto c ipPort) c.sequencerIpPort = true then
      some c.ownNodeID else none) = _
    rw [if_pos hStill]

theorem idle_identity (hConnected : isConnected c c.sequencerIpPort = true) :
    Process.identity ⟨c, .idle, .none⟩ = some c.ownNodeID := if_pos hConnected

/-- After the registration the call goes on to its lookup. -/
theorem proceed_sound (hClient : clean → Recorded names none c)
    (hConnected : isConnected c c.sequencerIpPort = true) (hGoal : goal ≠ some c.sequencerIpPort) :
    Sound clean profile names (proceed c goal) ∧
      (proceed c goal).identity = some c.ownNodeID := by
  cases goal with
  | none => exact ⟨.idle hClient, idle_identity hConnected⟩
  | some ipPort => exact lookup_sound hClient hConnected fun hSame => hGoal (by rw [hSame])

/-- A call keeps the id of a process, and gives it none yet. -/
theorem call_sound (hClient : clean → Recorded names none c) (hGoal : goal ≠ some c.sequencerIpPort) :
    Sound clean profile names (call profile c goal) ∧
      (call profile c goal).identity = Process.identity ⟨c, .idle, .none⟩ := by
  by_cases hConnected : isConnected c c.sequencerIpPort = true
  · rw [call, if_pos hConnected, idle_identity hConnected]
    exact proceed_sound hClient hConnected hGoal
  · rw [call, if_neg hConnected]
    have hNow : isConnected (connectProto c c.sequencerIpPort) c.sequencerIpPort = true :=
      (isConnected_connectProto c _ _).mpr (.inr rfl)
    refine ⟨.registering (fun hClean => (hClient hClean).register) hNow hGoal, ?_⟩
    have hBefore : Process.identity ⟨c, .idle, .none⟩ = none := if_neg hConnected
    rw [hBefore]
    exact if_pos hNow

/-- A reply to a lookup repeats it, ends it without success, or is recorded. -/
theorem lookedUp_sound {retries i : Nat} {connResp : GetNodeIDForIpPortResponse}
    (hClient : clean → Recorded names (some ipPort) c)
    (hConnected : isConnected c c.sequencerIpPort = true) (hOther : ipPort ≠ c.sequencerIpPort)
    (hFound : connResp.return_ = NO_ERROR → connResp.ip = ipPort ∧ names ipPort connResp.nodeID)
    (hRetried : clean → connResp.return_ ≠ NO_ERROR → i < retries) :
    Sound clean profile names (lookedUp retries c ipPort i connResp) ∧
      (lookedUp retries c ipPort i connResp).identity = some c.ownNodeID := by
  by_cases hError : connResp.return_ ≠ NO_ERROR
  · rw [lookedUp, if_pos hError]
    split
    case isTrue => exact ⟨.lookingUp hClient hConnected hOther, if_pos hConnected⟩
    case isFalse hLate =>
      refine ⟨.idle fun hClean => absurd (hRetried hClean hError) hLate, ?_⟩
      exact idle_identity hConnected
  · obtain ⟨hIp, hName⟩ := hFound (Decidable.not_not.mp hError)
    rw [lookedUp, if_neg hError, if_neg (fun hNe => hNe hIp)]
    exact ⟨.idle fun hClean => (hClient hClean).recordNodeID hName, idle_identity hConnected⟩

/-- Reading a reply keeps the id that the reply gave, or an earlier one. -/
theorem receive_sound {p : Process} {response : Response} (h : Sound clean profile names p)
    (hAnswered : p.exchange = .answered response)
    (hRetried : clean → ∀ ipPort i connResp, p.control = .lookingUp ipPort i →
      p.exchange = .answered (.getNodeIDForIpPort connResp) → connResp.return_ ≠ NO_ERROR →
        i < profile.variant.retries) :
    Sound clean profile names (receive profile.variant.retries p response) ∧
      (receive profile.variant.retries p response).identity = p.identity := by
  cases h with
  | idle hClient | registering hClient hConnected hGoal | lookingUp hClient hConnected hOther =>
      cases hAnswered
  | @registered c goal nodeid hClient hConnected hGoal =>
      cases hAnswered
      have hBefore : Process.identity
          ⟨c, .registering goal, .answered (.nodeID nodeid NO_ERROR)⟩ = some nodeid :=
        if_pos hConnected
      rw [hBefore]
      exact @proceed_sound clean profile names { c with ownNodeID := nodeid } goal
        (fun hClean => ⟨(hClient hClean).connections, (hClient hClean).known⟩) hConnected hGoal
  | @lookedUp c ipPort i connResp hClient hConnected hOther hFound =>
      cases hAnswered
      have hBefore : Process.identity
          ⟨c, .lookingUp ipPort i, .answered (.getNodeIDForIpPort connResp)⟩ =
            some c.ownNodeID := if_pos hConnected
      rw [hBefore]
      exact lookedUp_sound hClient hConnected hOther hFound
        fun hClean hError => hRetried hClean ipPort i connResp rfl rfl hError

/-- The ids of a process are those of the sequencer, unless a lookup ran out of retries. -/
theorem Sound.connections {p : Process} (h : Sound clean profile names p) (hClean : clean)
    (ipPort : String) (nodeID : Nat) (hEntry : p.client.connections ipPort = some nodeID) :
    names ipPort nodeID := by
  cases h with
  | idle hClient | registering hClient | registered hClient | lookingUp hClient
  | lookedUp hClient =>
      exact (hClient hClean).connections ipPort nodeID hEntry

end Processes

section Invariant

variable {Node : Type*} {profile : Node → Profile} {clean : Prop} {s t : State Node}

/-- The processes with an id and the entries of the sequencer are one to one,
and every process is in a state it can be in. -/
structure Identified (profile : Node → Profile) (clean : Prop) (s : State Node) : Prop where
  represents : ∃ history, Represents history s.sequencer
  injective : ∀ a b i, (s.process a).identity = some i → (s.process b).identity = some i → a = b
  entry : ∀ node i, (s.process node).identity = some i →
    s.sequencer.entries[i]? = some (entryAt (profile node).request i)
  claimed : ∀ i, i < s.sequencer.entries.length → ∃ node, (s.process node).identity = some i
  processes : ∀ node, Sound clean (profile node) (Names profile s) (s.process node)

theorem identified_init : Identified profile clean ({} : State Node) where
  represents := ⟨[], represents_nil⟩
  injective _ _ _ hFirst _ := by cases hFirst
  entry _ _ hIdentity := by cases hIdentity
  claimed _ hLess := by cases hLess
  processes _ := .idle fun _ => {
    connections := fun _ _ hEntry => by cases hEntry
    known := fun _ hConnected => by cases hConnected }

/-- A step that leaves all ids and entries alone. -/
theorem Identified.of_same (h : Identified profile clean s)
    (hRep : ∃ history, Represents history t.sequencer)
    (hEntries : t.sequencer.entries = s.sequencer.entries)
    (hIdentity : ∀ node, (t.process node).identity = (s.process node).identity)
    (hProcesses : ∀ node, Sound clean (profile node) (Names profile s) (t.process node)) :
    Identified profile clean t := by
  have hNames : Names profile t = Names profile s := by
    funext ipPort nodeID
    simp only [Names, hIdentity]
  refine ⟨hRep, ?_, ?_, ?_, ?_⟩
  · intro a b i hFirst hSecond
    rw [hIdentity] at hFirst hSecond
    exact h.injective a b i hFirst hSecond
  · intro node i hNode
    rw [hIdentity] at hNode
    rw [hEntries]
    exact h.entry node i hNode
  · intro i hLess
    rw [hEntries] at hLess
    obtain ⟨node, hNode⟩ := h.claimed i hLess
    exact ⟨node, (hIdentity node).trans hNode⟩
  · rw [hNames]
    exact hProcesses

/-- An id that the sequencer has given out as a server's names that server. -/
theorem Identified.names (h : Identified profile clean s) {history : List NodeIDRequest}
    (hRep : Represents history s.sequencer) {ipPort : String} {nodeID : Nat}
    (hLatest : IsLatest (ServerUnder ipPort) history nodeID) : Names profile s ipPort nodeID := by
  obtain ⟨connReq, hAt, hType, hIp⟩ := hLatest.meets
  have hEntry : s.sequencer.entries[nodeID]? = some (entryAt connReq nodeID) := by
    rw [hRep.entries, listing_getElem?, hAt]
    rfl
  obtain ⟨hLess, _⟩ := List.getElem?_eq_some_iff.mp hEntry
  obtain ⟨node, hNode⟩ := h.claimed nodeID hLess
  have hOwn := h.entry node nodeID hNode
  rw [hEntry, Option.some.injEq] at hOwn
  refine ⟨node, ?_, ?_, hNode⟩
  · exact (congrArg NodeEntry.nodeType hOwn).symm.trans hType
  · exact (congrArg NodeEntry.ip hOwn).symm.trans hIp

/-- A message that registers nobody leaves the entries as they are. -/
theorem identified_other (h : Identified profile clean s) {request : Request}
    (hRequest : request.registration = none) {reply : Response × Sequencer}
    (hHandle : Registry.handle s.sequencer request = some reply) :
    Identified profile clean { s with sequencer := reply.2 } := by
  obtain ⟨history, hRep⟩ := h.represents
  obtain ⟨response, q, hReply, hAfter, _⟩ := hRep.handle request
  rw [hHandle] at hReply
  obtain rfl := Option.some.inj hReply
  rw [hRequest, Option.toList_none, List.append_nil] at hAfter
  apply @Identified.of_same _ _ _ s ({ s with sequencer := q } : State Node) h ⟨history, hAfter⟩
  · exact hAfter.entries.trans hRep.entries.symm
  · exact fun _ => rfl
  · exact h.processes

variable [DecidableEq Node]

theorem process_setProcess (s : State Node) (node other : Node) (p : Process) :
    (s.setProcess node p).process other = if other = node then p else s.process other := by
  by_cases hSame : other = node
  · subst hSame
    simp [State.setProcess]
  · simp [State.setProcess, hSame]

/-- One process goes on, and keeps its id. -/
theorem Identified.setProcess (h : Identified profile clean s) {node : Node} {p : Process}
    (hSound : Sound clean (profile node) (Names profile s) p)
    (hIdentity : p.identity = (s.process node).identity) :
    Identified profile clean (s.setProcess node p) := by
  apply @Identified.of_same _ _ _ s (s.setProcess node p) h h.represents rfl
  · intro other
    rw [process_setProcess]
    split
    case isTrue hSame => rw [hSame, hIdentity]
    case isFalse => rfl
  · intro other
    rw [process_setProcess]
    split
    case isTrue hSame => exact hSame ▸ hSound
    case isFalse => exact h.processes other

/-- A lookup is answered with the id of the server at the address, if any. -/
theorem identified_lookup (h : Identified profile clean s) {node : Node} {ipPort : String}
    {i : Nat} {c : Client}
    (hClient : clean → Recorded (Names profile s) (some ipPort) c)
    (hConnected : isConnected c c.sequencerIpPort = true) (hOther : ipPort ≠ c.sequencerIpPort)
    (hProcess : s.process node = ⟨c, .lookingUp ipPort i, .requested (.getNodeIDForIpPort ipPort)⟩)
    {reply : Response × Sequencer}
    (hHandle : Registry.handle s.sequencer (.getNodeIDForIpPort ipPort) = some reply) :
    Identified profile clean
      { s.setProcess node { s.process node with exchange := .answered reply.1 } with
        sequencer := reply.2 } := by
  obtain ⟨history, hRep⟩ := h.represents
  have hIdentity : ∀ connResp, Process.identity
      ⟨c, .lookingUp ipPort i, .answered (.getNodeIDForIpPort connResp)⟩ =
        (s.process node).identity := by
    intro connResp
    rw [hProcess, Process.identity, Process.identity]
  rcases hRep.handle_lookup ipPort with ⟨_, hReply⟩ | ⟨entry, hLatest, hIp, hReply⟩
  · rw [hReply] at hHandle
    obtain rfl := Option.some.inj hHandle
    rw [hProcess]
    apply h.setProcess _ (hIdentity _)
    exact .lookedUp hClient hConnected hOther fun hOk => absurd hOk (by decide)
  · rw [hReply] at hHandle
    obtain rfl := Option.some.inj hHandle
    rw [hProcess]
    apply h.setProcess _ (hIdentity _)
    exact .lookedUp hClient hConnected hOther fun _ => ⟨hIp, h.names hRep hLatest⟩

/-- A registration is answered with an id that nobody has. -/
theorem identified_register (h : Identified profile clean s) {node : Node} {goal : Option String}
    {c : Client} (hClient : clean → Recorded (Names profile s) none c)
    (hConnected : isConnected c c.sequencerIpPort = true) (hGoal : goal ≠ some c.sequencerIpPort)
    (hProcess : s.process node =
      ⟨c, .registering goal, .requested (.nodeID (profile node).request)⟩) :
    Identified profile clean
      { s.setProcess node ⟨c, .registering goal,
          .answered (.nodeID s.sequencer.nextNodeID NO_ERROR)⟩ with
        sequencer := (handleNodeIDRequest s.sequencer (profile node).request).2 } := by
  obtain ⟨history, hRep⟩ := h.represents
  have hLength : s.sequencer.entries.length = s.sequencer.nextNodeID := by
    rw [hRep.entries, hRep.counter, listing_length]
  have hNew : Process.identity ⟨c, .registering goal,
      .answered (.nodeID s.sequencer.nextNodeID NO_ERROR)⟩ = some s.sequencer.nextNodeID :=
    if_pos hConnected
  have hBefore : (s.process node).identity = none := by
    rw [hProcess]
    exact if_pos hConnected
  have hOld : ∀ other i, (s.process other).identity = some i →
      i < s.sequencer.entries.length ∧ other ≠ node := by
    intro other i hOther
    obtain ⟨hLess, _⟩ := List.getElem?_eq_some_iff.mp (h.entry other i hOther)
    refine ⟨hLess, fun hSame => ?_⟩
    rw [hSame, hBefore] at hOther
    cases hOther
  have hIdentity : ∀ other i, (State.process (s.setProcess node ⟨c, .registering goal,
      .answered (.nodeID s.sequencer.nextNodeID NO_ERROR)⟩) other).identity = some i ↔
      (s.process other).identity = some i ∨ (other = node ∧ i = s.sequencer.nextNodeID) := by
    intro other i
    rw [process_setProcess]
    by_cases hSame : other = node
    · subst hSame
      rw [if_pos rfl, hNew, hBefore, Option.some.injEq]
      simp [eq_comm]
    · rw [if_neg hSame]
      simp [hSame]
  have hEntries : (handleNodeIDRequest s.sequencer (profile node).request).2.entries =
      s.sequencer.entries ++ [entryAt (profile node).request s.sequencer.nextNodeID] := rfl
  have hNames : ∀ ipPort nodeID, Names profile s ipPort nodeID → Names profile
      { s.setProcess node ⟨c, .registering goal,
          .answered (.nodeID s.sequencer.nextNodeID NO_ERROR)⟩ with
        sequencer := (handleNodeIDRequest s.sequencer (profile node).request).2 }
      ipPort nodeID := by
    rintro ipPort nodeID ⟨server, hType, hIp, hServer⟩
    exact ⟨server, hType, hIp, (hIdentity server nodeID).mpr (.inl hServer)⟩
  refine ⟨⟨_, hRep.handleNodeIDRequest (profile node).request⟩, ?_, ?_, ?_, ?_⟩
  · intro a b i hFirst hSecond
    rcases (hIdentity a i).mp hFirst with hA | ⟨rfl, rfl⟩
    · rcases (hIdentity b i).mp hSecond with hB | ⟨rfl, rfl⟩
      · exact h.injective a b i hA hB
      · exact absurd (hOld a _ hA).1 (by omega)
    · rcases (hIdentity b _).mp hSecond with hB | ⟨rfl, _⟩
      · exact absurd (hOld b _ hB).1 (by omega)
      · rfl
  · intro other i hOther
    show (s.sequencer.entries ++ [_])[i]? = _
    rcases (hIdentity other i).mp hOther with hOther | ⟨rfl, rfl⟩
    · rw [List.getElem?_append_left (hOld other i hOther).1]
      exact h.entry other i hOther
    · rw [← hLength, List.getElem?_concat_length]
      rfl
  · intro i hLess
    rw [hEntries, List.length_append, List.length_singleton] at hLess
    by_cases hLast : i = s.sequencer.nextNodeID
    · exact ⟨node, (hIdentity node i).mpr (.inr ⟨rfl, hLast⟩)⟩
    · obtain ⟨other, hOther⟩ := h.claimed i (by omega)
      exact ⟨other, (hIdentity other i).mpr (.inl hOther)⟩
  · intro other
    show Sound clean (profile other) _ (State.process (s.setProcess node _) other)
    rw [process_setProcess]
    split
    case isTrue hSame =>
      subst hSame
      exact (Sound.registered hClient hConnected hGoal).mono hNames
    case isFalse => exact (h.processes other).mono hNames

/-- A call begins with the registration, if there was none yet. -/
theorem identified_call (h : Identified profile clean s) {node : Node} {goal : Option String}
    (hIdle : (s.process node).control = .idle)
    (hGoal : goal ≠ some (s.process node).client.sequencerIpPort) :
    Identified profile clean
      (s.setProcess node (call (profile node) (s.process node).client goal)) := by
  have hProcess := h.processes node
  generalize hEq : s.process node = p at hProcess hIdle hGoal ⊢
  cases hProcess with
  | registering | registered | lookingUp | lookedUp => cases hIdle
  | idle hClient =>
      obtain ⟨hSound, hIdentity⟩ := call_sound hClient hGoal
      exact h.setProcess hSound (hIdentity.trans (congrArg Process.identity hEq.symm))

/-- The sequencer answers from its registry, and enters a new node. -/
theorem identified_handle (h : Identified profile clean s) {node : Node}
    (hNext : next profile s (.handle node) = some t) : Identified profile clean t := by
  have hProcess := h.processes node
  generalize hEq : s.process node = p at hProcess
  cases hProcess with
  | idle | registered | lookedUp => simp [next, hEq] at hNext
  | registering hClient hConnected hGoal =>
      simp only [next, hEq] at hNext
      obtain rfl := Option.some.inj hNext
      exact identified_register h hClient hConnected hGoal hEq
  | lookingUp hClient hConnected hOther =>
      simp only [next, hEq, Option.map_eq_some_iff] at hNext
      obtain ⟨reply, hHandle, rfl⟩ := hNext
      have hKept := identified_lookup h hClient hConnected hOther hEq hHandle
      rw [hEq] at hKept
      exact hKept

/-- An answer is entered as it is. One that found nothing is asked for again. -/
theorem identified_receive (h : Identified profile clean s) {node : Node} {response : Response}
    (hClean : clean → ¬GivesUp profile (s, .receive node))
    (hAnswered : (s.process node).exchange = .answered response) :
    Identified profile clean (s.setProcess node
      (receive (profile node).variant.retries (s.process node) response)) := by
  obtain ⟨hSound, hIdentity⟩ := receive_sound (h.processes node) hAnswered <| by
    intro hC ipPort i connResp hControl hExchange hError
    by_contra hLate
    apply hClean hC
    simp only [GivesUp, Process.givesUp, hControl, hExchange, Bool.and_eq_true, decide_eq_true_eq]
    exact ⟨hError, Nat.le_of_not_lt hLate⟩
  exact h.setProcess hSound hIdentity

/-- Each step of any process keeps the ids and the registry in agreement. -/
theorem next_identified (h : Identified profile clean s) {a : Action Node}
    (hClean : clean → ¬GivesUp profile (s, a)) (hNext : next profile s a = some t) :
    Identified profile clean t := by
  cases a with
  | call node goal =>
      obtain ⟨⟨hIdle, hGoal⟩, hSome⟩ := Option.ite_none_right_eq_some.mp hNext
      obtain rfl := Option.some.inj hSome
      exact identified_call h hIdle hGoal
  | handle node => exact identified_handle h hNext
  | receive node =>
      cases hExchange : (s.process node).exchange with
      | none => simp [next, hExchange] at hNext
      | requested request => simp [next, hExchange] at hNext
      | answered response =>
          simp only [next, hExchange] at hNext
          obtain rfl := Option.some.inj hNext
          exact identified_receive h hClean hExchange
  | other request =>
      obtain ⟨hRequest, hMap⟩ := Option.ite_none_right_eq_some.mp hNext
      obtain ⟨reply, hHandle, rfl⟩ := Option.map_eq_some_iff.mp hMap
      exact identified_other h hRequest hHandle

/-- A run that never gives up a lookup keeps the recorded addresses right. -/
theorem run_identified {visits : List (State Node × Action Node)}
    (run : (identitiesMachine profile).RunsTo visits s)
    (hClean : clean → ∀ visit ∈ visits, ¬GivesUp profile visit) : Identified profile clean s := by
  apply @Machine.RunsTo.invariant_of_guard _ _ _ (fun s a => clean → ¬GivesUp profile (s, a)) _ _ _
    run
  · exact identified_init
  · exact fun s a t h hGuard hNext => next_identified h hGuard hNext
  · exact fun visit hVisit hC => hClean hC visit hVisit

end Invariant

/-- The ids of the processes are the positions of their entries. -/
structure Numbered {Node : Type*} (profile : Node → Profile) (s : State Node) : Prop where
  distinct : ∀ a b i, (s.process a).identity = some i → (s.process b).identity = some i → a = b
  entry : ∀ node i, (s.process node).identity = some i →
    s.sequencer.entries[i]? = some (entryAt (profile node).request i)
  claimed : ∀ i, i < s.sequencer.entries.length → ∃ node, (s.process node).identity = some i

/-- Any two clients mean the same server by an address, and by a node id. -/
def Agree {Node : Type*} (s : State Node) : Prop :=
  ∀ a b ipPort ipPort' i j, (s.process a).client.connections ipPort = some i →
    (s.process b).client.connections ipPort' = some j → (ipPort = ipPort' ↔ i = j)

/-- No process has the id of another one. As long as no lookup has run out of
retries, an id in `m_connections` is the one of the server at the address. -/
theorem identities_agree {Node : Type*} [DecidableEq Node] {profile : Node → Profile}
    {visits : List (State Node × Action Node)} {s : State Node}
    (run : (identitiesMachine profile).RunsTo visits s) :
    Numbered profile s ∧
      ((∀ visit ∈ visits, ¬GivesUp profile visit) →
        (∀ client ipPort nodeID, (s.process client).client.connections ipPort = some nodeID →
          Names profile s ipPort nodeID) ∧
        ((∀ a b, (profile a).nodeType = .server → (profile b).nodeType = .server →
          (profile a).ip = (profile b).ip → a = b) → Agree s)) := by
  have h : Identified profile (∀ visit ∈ visits, ¬GivesUp profile visit) s :=
    run_identified run id
  refine ⟨⟨h.injective, h.entry, h.claimed⟩, fun hClean => ?_⟩
  have hNames : ∀ client ipPort nodeID,
      (s.process client).client.connections ipPort = some nodeID →
        Names profile s ipPort nodeID :=
    fun client => (h.processes client).connections hClean
  refine ⟨hNames, fun hServers a b ipPort ipPort' i j hFirst hSecond => ?_⟩
  obtain ⟨first, hType, hIp, hIdentity⟩ := hNames a ipPort i hFirst
  obtain ⟨second, hType', hIp', hIdentity'⟩ := hNames b ipPort' j hSecond
  constructor
  · intro hAddress
    obtain rfl := hServers first second hType hType' (by rw [hIp, hIp', hAddress])
    exact Option.some.inj (hIdentity.symm.trans hIdentity')
  · intro hId
    obtain rfl := h.injective first second i hIdentity (by rw [hIdentity', hId])
    exact hIp.symm.trans hIp'

/-- Two servers and a client that looks the second one up before it registers. -/
def threeProcesses : Fin 3 → Profile
  | 0 => ⟨"10.0.0.1:5000", "first", .server, .plain⟩
  | 1 => ⟨"10.0.0.2:5000", "second", .server, .plain⟩
  | 2 => ⟨"10.0.0.9:5000", "client", .client, .srq 0⟩

def retriedLookup : List (Action (Fin 3)) :=
  [.call 2 (some "10.0.0.2:5000"), .handle 2, .receive 2, .handle 2, .call 0 none, .handle 0,
    .receive 2, .call 1 none, .receive 0, .handle 1, .other .getAllNodeIDs, .handle 2, .receive 1,
    .receive 2, .call 2 (some "10.0.0.1:5000"), .handle 2, .receive 2]

/-- The second process looks for the third before that has registered, and tries again. -/
theorem identities_agree_retried : ∃ s,
    (identitiesMachine threeProcesses).replay (identitiesMachine threeProcesses).init
      retriedLookup = some s ∧
    (s.process 2).client.connections "10.0.0.2:5000" = some 2 ∧ Agree s := by
  have hRun := @Machine.runsTo_of_replay _ _ (identitiesMachine threeProcesses) _ retriedLookup rfl
  refine ⟨_, rfl, rfl, ?_⟩
  exact ((identities_agree hRun).2 (by decide)).2 (by decide)

end Identities
