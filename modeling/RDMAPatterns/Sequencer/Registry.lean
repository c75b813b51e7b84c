import RDMAPatterns.Connection.Connect
import RDMAPatterns.Journal.Growing
import RDMAPatterns.Sequencer.NodeIDs
import RDMAPatterns.Transition.Runs

/-! `NodeIDSequencer::handle` on every message, over whole runs. What a registry
means is a list of the registrations so far; the counter, the vector and the map
are three ways to read it. -/
namespace NodeIDSequencer.Registry

open Journal Transition

/-- `MessageErrors::NO_ERROR`. -/
def NO_ERROR : Nat := 0

/-- `MessageErrors::NODEID_NOT_FOUND`. -/
def NODEID_NOT_FOUND : Nat := 200

/-- What arrives. No handler reads a field of `GetAllNodeIDsRequest`. -/
inductive Request where
  | nodeID (connReq : NodeIDRequest)
  | getAllNodeIDs
  | getNodeIDForIpPort (ipPort : String)
  | unknown
deriving DecidableEq, Repr

/-- `GetNodeIDForIpPortResponse`. An unset field has its default. -/
structure GetNodeIDForIpPortResponse where
  ip : String := ""
  name : String := ""
  nodeID : Nat := 0
  nodeTypeEnum : NodeType := .server
  return_ : Nat := 0
deriving DecidableEq, Repr

/-- What is sent back. An unknown message is answered by an empty `Any`. -/
inductive Response where
  | nodeID (nodeid : Nat) (return_ : Nat)
  | getAllNodeIDs (nodeidEntries : List NodeEntry) (return_ : Nat)
  | getNodeIDForIpPort (connResp : GetNodeIDForIpPortResponse)
  | empty
deriving DecidableEq, Repr

/-- The reply to a lookup that finds this entry. -/
def foundReply (entry : NodeEntry) : GetNodeIDForIpPortResponse :=
  ⟨entry.ip, entry.name, entry.nodeID, entry.nodeType, NO_ERROR⟩

/-- `NodeIDSequencer::handle`. `none` stands for an access past the end of
`m_entries`, which the source does not check. -/
def handle (q : Sequencer) : Request → Option (Response × Sequencer)
  | .nodeID connReq =>
      let (newNodeID, q) := handleNodeIDRequest q connReq
      some (.nodeID newNodeID NO_ERROR, q)
  | .getAllNodeIDs => some (.getAllNodeIDs q.entries NO_ERROR, q)
  | .getNodeIDForIpPort ipPort =>
      match q.ipPortToNodeIDMapping ipPort with
      | none => some (.getNodeIDForIpPort { return_ := NODEID_NOT_FOUND }, q)
      | some nodeID =>
          (q.entries[nodeID]?).map fun entry => (.getNodeIDForIpPort (foundReply entry), q)
  | .unknown => some (.empty, q)

/-- The sequencer from its start, under any sequence of messages. -/
def sequencerMachine : Machine Sequencer Request where
  init := {}
  next q request := (handle q request).map Prod.snd

def Request.registration : Request → Option NodeIDRequest
  | .nodeID connReq => some connReq
  | _ => none

/-- The registrations among the messages of a run, in the order of their arrival. -/
def registrations (visits : List (Sequencer × Request)) : List NodeIDRequest :=
  visits.filterMap fun visit => visit.2.registration

def Response.issued : Response → Option Nat
  | .nodeID nodeid _ => some nodeid
  | _ => none

/-- The ids that the replies of a run gave out. -/
def issuedIDs (visits : List (Sequencer × Request)) : List Nat :=
  visits.filterMap fun visit => (handle visit.1 visit.2).bind fun reply => reply.1.issued

/-- The entry of the registration at position `i`. -/
def entryAt (connReq : NodeIDRequest) (i : Nat) : NodeEntry :=
  ⟨connReq.ip, connReq.name, i, connReq.nodeTypeEnum⟩

/-- All registrations once, in id order. -/
def listing (history : List NodeIDRequest) : List NodeEntry :=
  history.zipIdx.map fun numbered => entryAt numbered.1 numbered.2

/-- A server announced itself under this string. -/
def ServerUnder (ipPort : String) (connReq : NodeIDRequest) : Prop :=
  connReq.nodeTypeEnum = .server ∧ connReq.ip = ipPort

/-- The three structures of the sequencer are readings of one history. -/
structure Represents (history : List NodeIDRequest) (q : Sequencer) : Prop where
  counter : q.nextNodeID = history.length
  entries : q.entries = listing history
  mapping : ∀ ipPort nodeID, q.ipPortToNodeIDMapping ipPort = some nodeID ↔
    IsLatest (ServerUnder ipPort) history nodeID

section Listing

variable {history : List NodeIDRequest} {connReq : NodeIDRequest}

@[simp] theorem listing_length : (listing history).length = history.length := by
  simp [listing]

theorem listing_append :
    listing (history ++ [connReq]) = listing history ++ [entryAt connReq history.length] := by
  simp [listing, List.zipIdx_append]

/-- An entry stands at the id that its registration was given. -/
theorem listing_getElem? (i : Nat) :
    (listing history)[i]? = (history[i]?).map fun connReq => entryAt connReq i := by
  simp [listing, Option.map_map, Function.comp_def]

theorem listing_mono (l m : List NodeIDRequest) : listing l <+: listing (l ++ m) := by
  rw [listing, listing, List.zipIdx_append, List.map_append]
  exact List.prefix_append _ _

end Listing

section Mapping

variable {q : Sequencer} {connReq : NodeIDRequest} {ipPort : String}

/-- A server takes over its address, also from an earlier one. -/
theorem mapping_of_serverUnder (h : ServerUnder ipPort connReq) :
    (handleNodeIDRequest q connReq).2.ipPortToNodeIDMapping ipPort = some q.nextNodeID := by
  obtain ⟨hType, rfl⟩ := h
  simp only [handleNodeIDRequest, getNextNodeID, hType, Function.update_self]

/-- Clients and other addresses change nothing in the mapping. -/
theorem mapping_of_not_serverUnder (h : ¬ServerUnder ipPort connReq) :
    (handleNodeIDRequest q connReq).2.ipPortToNodeIDMapping ipPort =
      q.ipPortToNodeIDMapping ipPort := by
  simp only [handleNodeIDRequest, getNextNodeID]
  cases hType : connReq.nodeTypeEnum with
  | server =>
      have hOther : ipPort ≠ connReq.ip := fun hSame => h ⟨hType, hSame.symm⟩
      exact Function.update_of_ne hOther _ _
  | client => rfl
  | unnamed value => rfl

end Mapping

/-- Nothing registered yet. -/
theorem represents_nil : Represents [] {} where
  counter := rfl
  entries := rfl
  mapping := by
    intro ipPort nodeID
    constructor
    · intro h
      cases h
    · intro h
      exact absurd h not_isLatest_nil

/-- A registration is appended to what the three structures represent. -/
theorem Represents.handleNodeIDRequest {history : List NodeIDRequest} {q : Sequencer}
    (h : Represents history q) (connReq : NodeIDRequest) :
    Represents (history ++ [connReq]) (handleNodeIDRequest q connReq).2 where
  counter := by
    show q.nextNodeID + 1 = _
    rw [h.counter, List.length_append, List.length_singleton]
  entries := by
    show q.entries ++ [entryAt connReq q.nextNodeID] = _
    rw [h.entries, h.counter, listing_append]
  mapping := by
    intro ipPort nodeID
    by_cases hServer : ServerUnder ipPort connReq
    · rw [isLatest_append_of_pos hServer, mapping_of_serverUnder hServer, h.counter,
        Option.some.injEq]
      exact eq_comm
    · rw [isLatest_append_of_neg hServer, mapping_of_not_serverUnder hServer]
      exact h.mapping ipPort nodeID

section Lookup

variable {history : List NodeIDRequest} {q : Sequencer}

/-- The map never leads past the end of the vector, and what it leads to is the
latest registration of a server under the string. -/
theorem Represents.lookup_found (h : Represents history q) {ipPort : String} {nodeID : Nat}
    (hMapped : q.ipPortToNodeIDMapping ipPort = some nodeID) :
    ∃ entry, q.entries[nodeID]? = some entry ∧ entry.nodeType = .server ∧ entry.ip = ipPort ∧
      entry.nodeID = nodeID := by
  obtain ⟨connReq, hAt, hType, hIp⟩ := ((h.mapping ipPort nodeID).mp hMapped).meets
  refine ⟨entryAt connReq nodeID, ?_, hType, hIp, rfl⟩
  rw [h.entries, listing_getElem?, hAt]
  rfl

/-- A lookup finds the last server under the address, or no one. -/
theorem Represents.handle_lookup (h : Represents history q) (ipPort : String) :
    (q.ipPortToNodeIDMapping ipPort = none ∧
      handle q (.getNodeIDForIpPort ipPort) =
        some (.getNodeIDForIpPort { return_ := NODEID_NOT_FOUND }, q)) ∨
    ∃ entry, IsLatest (ServerUnder ipPort) history entry.nodeID ∧ entry.ip = ipPort ∧
      handle q (.getNodeIDForIpPort ipPort) = some (.getNodeIDForIpPort (foundReply entry), q) := by
  cases hMapped : q.ipPortToNodeIDMapping ipPort with
  | none =>
      left
      simp only [handle, hMapped, true_and]
  | some nodeID =>
      right
      obtain ⟨entry, hAt, _, hIp, rfl⟩ := h.lookup_found hMapped
      refine ⟨entry, (h.mapping ipPort entry.nodeID).mp hMapped, hIp, ?_⟩
      simp only [Registry.handle, hMapped, hAt]
      rfl

/-- Every message is answered, and only registrations change what is represented. -/
theorem Represents.handle (h : Represents history q) (request : Request) :
    ∃ response t, handle q request = some (response, t) ∧
      Represents (history ++ request.registration.toList) t ∧
      response.issued = request.registration.map fun _ => history.length := by
  cases request with
  | nodeID connReq =>
      refine ⟨_, _, rfl, h.handleNodeIDRequest connReq, ?_⟩
      show some q.nextNodeID = some history.length
      rw [h.counter]
  | getAllNodeIDs => exact ⟨_, _, rfl, by simpa [Request.registration] using h, rfl⟩
  | getNodeIDForIpPort ipPort =>
      have hSame : Represents (history ++ (Request.getNodeIDForIpPort ipPort).registration.toList)
          q := by simpa [Request.registration] using h
      rcases h.handle_lookup ipPort with ⟨_, hReply⟩ | ⟨entry, _, _, hReply⟩
      · exact ⟨_, q, hReply, hSame, rfl⟩
      · exact ⟨_, q, hReply, hSame, rfl⟩
  | unknown => exact ⟨_, _, rfl, by simpa [Request.registration] using h, rfl⟩

end Lookup

section Runs

variable {visits : List (Sequencer × Request)} {q : Sequencer}

theorem registrations_append (visit : Sequencer × Request) :
    registrations (visits ++ [visit]) =
      registrations visits ++ visit.2.registration.toList := by
  simp only [registrations, List.filterMap_append, List.filterMap_cons, List.filterMap_nil]
  cases visit.2.registration <;> rfl

/-- A run leaves a registry that represents its registrations. -/
theorem run_represents (run : sequencerMachine.RunsTo visits q) :
    Represents (registrations visits) q := by
  induction run with
  | zero => exact represents_nil
  | @succ visits s t request prior last ih =>
      obtain ⟨response, t', hHandle, hRep, _⟩ := ih.handle request
      rw [registrations_append]
      have hNext : (handle s request).map Prod.snd = some t := last
      rw [hHandle] at hNext
      obtain rfl : t' = t := Option.some.inj hNext
      exact hRep

/-- The ids that were given out are the positions of the registrations. -/
theorem run_issued (run : sequencerMachine.RunsTo visits q) :
    issuedIDs visits = List.range (registrations visits).length := by
  induction run with
  | zero => rfl
  | @succ visits s t request prior last ih =>
      obtain ⟨response, t', hHandle, _, hIssued⟩ := (run_represents prior).handle request
      rw [registrations_append, issuedIDs, List.filterMap_append]
      have hLast : [(s, request)].filterMap (fun visit =>
          (handle visit.1 visit.2).bind fun reply => reply.1.issued) =
          (request.registration.map fun _ => (registrations visits).length).toList := by
        rw [List.filterMap_cons, hHandle]
        simp only [Option.bind_some, hIssued]
        cases request.registration <;> rfl
      rw [hLast]
      show issuedIDs visits ++ _ = _
      rw [ih]
      cases request.registration with
      | none => simp
      | some connReq => simp [List.range_succ]

/-- What a state of a run lists, every later state lists in the same places. -/
theorem run_entries_mono (run : sequencerMachine.RunsTo visits q) :
    ∀ visit ∈ visits, visit.1.entries <+: q.entries := by
  intro visit hVisit
  obtain ⟨before, after, rfl, hBefore⟩ := run.visit_split hVisit
  have hSplit : registrations (before ++ visit :: after) =
      registrations before ++ registrations (visit :: after) := List.filterMap_append
  rw [(run_represents hBefore).entries, (run_represents run).entries, hSplit]
  exact listing_mono _ _

end Runs

section Client

variable {ipPort : String}

/-- The fields of a reply that `connect` reads. -/
def Response.toClient : Response → RDMAClient.SequencerReply
  | .getNodeIDForIpPort connResp =>
      .getNodeID ⟨connResp.ip, connResp.nodeID, connResp.return_⟩
  | _ => .other

/-- What a client receives that asks for an address in this state. -/
def lookupReply (q : Sequencer) (ipPort : String) : RDMAClient.SequencerReply :=
  ((handle q (.getNodeIDForIpPort ipPort)).map fun reply => reply.1.toClient).getD .other

/-- A lookup response that does not report an error carries the requested address. -/
def Matches (ipPort : String) (response : RDMAClient.GetNodeIDResponse) : Prop :=
  response.return_ = 0 → response.ip = ipPort

/-- What the sequencer replies matches the registry. -/
theorem Represents.lookupReply {history : List NodeIDRequest} {q : Sequencer}
    (h : Represents history q) :
    ∃ response, lookupReply q ipPort = .getNodeID response ∧ Matches ipPort response := by
  rcases h.handle_lookup ipPort with ⟨_, hReply⟩ | ⟨entry, _, hIp, hReply⟩
  · refine ⟨⟨"", 0, NODEID_NOT_FOUND⟩, by simp [Registry.lookupReply, hReply,
      Response.toClient], ?_⟩
    intro hFound
    exact absurd hFound (by decide)
  · refine ⟨⟨entry.ip, entry.nodeID, NO_ERROR⟩, by simp [Registry.lookupReply, hReply,
      Response.toClient, foundReply], ?_⟩
    exact fun _ => hIp

/-- Whatever the retries see, the last answer is one of the registry. -/
theorem retryLookup_matches {replies : Nat → RDMAClient.SequencerReply}
    (hReplies : ∀ i, ∃ response, replies i = .getNodeID response ∧ Matches ipPort response)
    {first : RDMAClient.GetNodeIDResponse} (hFirst : Matches ipPort first) (i left : Nat) :
    Matches ipPort (RDMAClient.retryLookup replies first i left) := by
  induction left generalizing first i with
  | zero => exact hFirst
  | succ left ih =>
      rw [RDMAClient.retryLookup]
      split
      case isTrue =>
        obtain ⟨response, hReply, hMatches⟩ := hReplies (i + 1)
        rw [hReply]
        exact ih hMatches (i + 1)
      case isFalse => exact hFirst

/-- None of the exceptions of the lookup is thrown over such replies. -/
theorem fetchNodeID_ne_error {replies : Nat → RDMAClient.SequencerReply}
    (hReplies : ∀ i, ∃ response, replies i = .getNodeID response ∧ Matches ipPort response)
    (retries : Nat) (message : String) :
    RDMAClient.fetchNodeID replies retries ipPort ≠ .error message := by
  obtain ⟨first, hReply, hFirst⟩ := hReplies 0
  have hMatches := retryLookup_matches hReplies hFirst 0 retries
  simp only [RDMAClient.fetchNodeID, hReply]
  split
  case isTrue =>
    intro hError
    cases hError
  case isFalse hFound =>
    rw [if_neg (fun hOther => hOther (hMatches (Decidable.not_not.mp hFound)))]
    intro hError
    cases hError

end Client

/-- The three structures fit each other and the number of registrations. -/
structure WellIndexed (count : Nat) (q : Sequencer) : Prop where
  counter : q.nextNodeID = count
  length : q.entries.length = count
  ids : ∀ (i : Nat) (entry : NodeEntry), q.entries[i]? = some entry → entry.nodeID = i
  mapping : ∀ ipPort nodeID, q.ipPortToNodeIDMapping ipPort = some nodeID →
    ∃ entry, q.entries[nodeID]? = some entry ∧ entry.nodeType = .server ∧ entry.ip = ipPort

/-- The handler never leaves the vector, a lookup is answered by the latest server
registered under the string, and the list names every registration once. -/
structure AnswersFrom (history : List NodeIDRequest) (q : Sequencer) : Prop where
  total : ∀ request, ∃ reply, handle q request = some reply
  lookup : ∀ ipPort, ∃ connResp,
    handle q (.getNodeIDForIpPort ipPort) = some (.getNodeIDForIpPort connResp, q) ∧
    (connResp.return_ = NO_ERROR ↔ ∃ connReq ∈ history, ServerUnder ipPort connReq) ∧
    (connResp.return_ = NO_ERROR → connResp.ip = ipPort ∧
      IsLatest (ServerUnder ipPort) history connResp.nodeID)
  all : handle q .getAllNodeIDs = some (.getAllNodeIDs (listing history) NO_ERROR, q)

theorem Represents.wellIndexed {history : List NodeIDRequest} {q : Sequencer}
    (h : Represents history q) : WellIndexed history.length q where
  counter := h.counter
  length := by rw [h.entries, listing_length]
  ids := by
    intro i entry hAt
    rw [h.entries, listing_getElem?, Option.map_eq_some_iff] at hAt
    obtain ⟨connReq, _, rfl⟩ := hAt
    rfl
  mapping := by
    intro ipPort nodeID hMapped
    obtain ⟨entry, hAt, hType, hIp, _⟩ := h.lookup_found hMapped
    exact ⟨entry, hAt, hType, hIp⟩

theorem Represents.answersFrom {history : List NodeIDRequest} {q : Sequencer}
    (h : Represents history q) : AnswersFrom history q where
  total := by
    intro request
    obtain ⟨response, t, hHandle, _⟩ := h.handle request
    exact ⟨(response, t), hHandle⟩
  lookup := by
    intro ipPort
    have hMissing : NODEID_NOT_FOUND ≠ NO_ERROR := by decide
    rcases h.handle_lookup ipPort with ⟨hUnmapped, hReply⟩ | ⟨entry, hLatest, hIp, hReply⟩
    · have hNone : ¬∃ connReq ∈ history, ServerUnder ipPort connReq := by
        rw [← exists_isLatest_iff]
        intro ⟨nodeID, hLatest⟩
        rw [← h.mapping, hUnmapped] at hLatest
        cases hLatest
      exact ⟨_, hReply, iff_of_false hMissing hNone, fun hFound => absurd hFound hMissing⟩
    · exact ⟨_, hReply, iff_of_true rfl (exists_isLatest_iff.mp ⟨_, hLatest⟩),
        fun _ => ⟨hIp, hLatest⟩⟩
  all := by
    rw [← h.entries]
    rfl

/-- The structures of the sequencer agree with the registrations of every run, no
id is issued twice, entries stay, the replies say what was registered, and no
client can throw over them. -/
theorem registry_consistent {visits : List (Sequencer × Request)} {q : Sequencer}
    (run : sequencerMachine.RunsTo visits q) :
    WellIndexed (registrations visits).length q ∧
    issuedIDs visits = List.range (registrations visits).length ∧
    (∀ visit ∈ visits, visit.1.entries <+: q.entries) ∧
    AnswersFrom (registrations visits) q ∧
    ∀ (polled : Nat → Sequencer) (retries : Nat) (ipPort message : String),
      (∀ i, sequencerMachine.Reachable (polled i)) →
      RDMAClient.fetchNodeID (fun i => lookupReply (polled i) ipPort) retries ipPort ≠
        .error message := by
  have hRep := run_represents run
  refine ⟨hRep.wellIndexed, run_issued run, run_entries_mono run, hRep.answersFrom, ?_⟩
  intro polled retries ipPort message hPolled
  apply fetchNodeID_ne_error
  intro i
  obtain ⟨before, hBefore⟩ := hPolled i
  exact (run_represents hBefore).lookupReply

/-- A server that registers twice, and a client that shares its address. -/
def sharedAddress : List Request :=
  [.nodeID ⟨"10.0.0.1:5000", "receiver", .server⟩, .unknown,
    .nodeID ⟨"10.0.0.1:5000", "sender", .client⟩, .getNodeIDForIpPort "10.0.0.1:5000",
    .nodeID ⟨"10.0.0.1:5000", "receiver", .server⟩, .getAllNodeIDs]

/-- Two servers register under one address, and the later one is found. -/
theorem registry_consistent_sharedAddress :
    ∃ q, sequencerMachine.RunsTo (sequencerMachine.record {} sharedAddress) q ∧
      WellIndexed 3 q ∧ q.ipPortToNodeIDMapping "10.0.0.1:5000" = some 2 := by
  have hReplay : sequencerMachine.replay {} sharedAddress =
      some (register [⟨"10.0.0.1:5000", "receiver", .server⟩,
        ⟨"10.0.0.1:5000", "sender", .client⟩, ⟨"10.0.0.1:5000", "receiver", .server⟩]) := rfl
  have run := Machine.runsTo_of_replay sharedAddress hReplay
  exact ⟨_, run, (registry_consistent run).1, rfl⟩

end NodeIDSequencer.Registry
