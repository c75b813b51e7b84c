import RDMAPatterns.Sequencer.Registry

/-! `queryReceiverInformation`, the polling loop of `BenchmarkSender` and of
`BenchmarkDispatcher`, over the replies of one sequencer. -/
namespace NodeIDSequencer.Registry

open Journal Transition

/-- One pass over the entries of a reply. -/
def collectReceivers (receiverConnectionStrings : List String) (nodeidEntries : List NodeEntry) :
    List String :=
  nodeidEntries.foldl (fun strings nodeidEntry =>
    if nodeidEntry.name = "receiver" then insertNew strings nodeidEntry.ip else strings)
    receiverConnectionStrings

/-- A response of another type leaves the list alone. -/
def readReply (receiverConnectionStrings : List String) : Response → List String
  | .getAllNodeIDs nodeidEntries _ => collectReceivers receiverConnectionStrings nodeidEntries
  | _ => receiverConnectionStrings

/-- The loop of `queryReceiverInformation`. `none` if it is still polling after
these replies. -/
def pollReceivers (expectedReceiver : Nat) (receiverConnectionStrings : List String) :
    List Response → Option (List String)
  | [] =>
      if receiverConnectionStrings.length ≠ expectedReceiver then none
      else some receiverConnectionStrings
  | rcvAny :: rest =>
      if receiverConnectionStrings.length ≠ expectedReceiver then
        pollReceivers expectedReceiver (readReply receiverConnectionStrings rcvAny) rest
      else some receiverConnectionStrings

end NodeIDSequencer.Registry

def BenchmarkSender.queryReceiverInformation (expectedReceiver : Nat)
    (replies : List NodeIDSequencer.Registry.Response) : Option (List String) :=
  NodeIDSequencer.Registry.pollReceivers expectedReceiver [] replies

def BenchmarkDispatcher.queryReceiverInformation (expectedReceiver : Nat)
    (replies : List NodeIDSequencer.Registry.Response) : Option (List String) :=
  NodeIDSequencer.Registry.pollReceivers expectedReceiver [] replies

namespace NodeIDSequencer.Registry

open Journal Transition

/-- The two classes that look for the receivers. -/
inductive Client where
  | sender
  | dispatcher
deriving DecidableEq, Repr

def Client.queryReceiverInformation : Client → Nat → List Response → Option (List String)
  | .sender => BenchmarkSender.queryReceiverInformation
  | .dispatcher => BenchmarkDispatcher.queryReceiverInformation

/-- The addresses of the entries named `receiver`, in registration order. -/
def receiverIps (nodeidEntries : List NodeEntry) : List String :=
  (nodeidEntries.filter fun nodeidEntry => nodeidEntry.name = "receiver").map NodeEntry.ip

/-- Every list of entries among these replies was sent in some state of the run,
at whatever time. -/
def PolledDuring (visits : List (Sequencer × Request)) (replies : List Response) : Prop :=
  ∀ nodeidEntries return_, .getAllNodeIDs nodeidEntries return_ ∈ replies →
    ∃ visit ∈ visits, visit.2 = .getAllNodeIDs ∧
      (handle visit.1 visit.2).map Prod.fst = some (.getAllNodeIDs nodeidEntries return_)

/-- The entries that a reply carries. -/
def Response.entries : Response → List NodeEntry
  | .getAllNodeIDs nodeidEntries _ => nodeidEntries
  | _ => []

theorem collectReceivers_eq (strings : List String) (nodeidEntries : List NodeEntry) :
    collectReceivers strings nodeidEntries = gather strings (receiverIps nodeidEntries) := by
  induction nodeidEntries generalizing strings with
  | nil => rfl
  | cons nodeidEntry rest ih =>
      rw [collectReceivers, List.foldl_cons]
      by_cases hName : nodeidEntry.name = "receiver"
      · rw [if_pos hName]
        rw [show receiverIps (nodeidEntry :: rest) = nodeidEntry.ip :: receiverIps rest by
          simp [receiverIps, hName]]
        exact ih _
      · rw [if_neg hName]
        rw [show receiverIps (nodeidEntry :: rest) = receiverIps rest by
          simp [receiverIps, hName]]
        exact ih _

theorem readReply_eq (strings : List String) (rcvAny : Response) :
    readReply strings rcvAny = gather strings (receiverIps rcvAny.entries) := by
  cases rcvAny with
  | getAllNodeIDs nodeidEntries return_ => exact collectReceivers_eq strings nodeidEntries
  | nodeID nodeid return_ => rfl
  | getNodeIDForIpPort connResp => rfl
  | empty => rfl

/-- What the loop returns has the expected length, and it was gathered from a
first part of the replies. -/
theorem pollReceivers_eq_some {expectedReceiver : Nat} {replies : List Response}
    {strings result : List String}
    (h : pollReceivers expectedReceiver strings replies = some result) :
    result.length = expectedReceiver ∧ ∃ consumed, consumed <+: replies ∧
      result = (consumed.map fun rcvAny => receiverIps rcvAny.entries).foldl gather strings := by
  induction replies generalizing strings with
  | nil =>
      rw [pollReceivers] at h
      split at h
      case isTrue => cases h
      case isFalse hLength =>
        obtain rfl := Option.some.inj h
        exact ⟨Decidable.not_not.mp hLength, [], List.nil_prefix, rfl⟩
  | cons rcvAny rest ih =>
      rw [pollReceivers] at h
      split at h
      case isTrue =>
        obtain ⟨hLength, consumed, hConsumed, hResult⟩ := ih h
        refine ⟨hLength, rcvAny :: consumed, ?_, ?_⟩
        · exact List.cons_prefix_cons.mpr ⟨rfl, hConsumed⟩
        · rw [hResult, readReply_eq, List.map_cons, List.foldl_cons]
      case isFalse hLength =>
        obtain rfl := Option.some.inj h
        exact ⟨Decidable.not_not.mp hLength, [], List.nil_prefix, rfl⟩

theorem receiverIps_mono {l m : List NodeEntry} (h : l <+: m) :
    receiverIps l <+: receiverIps m := (h.filter _).map _

/-- What was sent during a run is a first part of what is registered at its end. -/
theorem PolledDuring.entries_mono {visits : List (Sequencer × Request)} {q : Sequencer}
    (run : sequencerMachine.RunsTo visits q) {replies : List Response}
    (h : PolledDuring visits replies) {rcvAny : Response} (hMem : rcvAny ∈ replies) :
    rcvAny.entries <+: q.entries := by
  cases rcvAny with
  | getAllNodeIDs nodeidEntries return_ =>
      obtain ⟨visit, hVisit, hRequest, hReply⟩ := h nodeidEntries return_ hMem
      rw [hRequest] at hReply
      obtain ⟨hEntries, _⟩ := Response.getAllNodeIDs.inj (Option.some.inj hReply)
      show nodeidEntries <+: q.entries
      rw [← hEntries]
      exact run_entries_mono run visit hVisit
  | nodeID nodeid return_ => exact List.nil_prefix
  | getNodeIDForIpPort connResp => exact List.nil_prefix
  | empty => exact List.nil_prefix

/-- One client alone: it returns the first distinct addresses of the registry. -/
theorem pollReceivers_eq_take {visits : List (Sequencer × Request)} {q : Sequencer}
    (run : sequencerMachine.RunsTo visits q) {expectedReceiver : Nat} {replies : List Response}
    (hPolled : PolledDuring visits replies) {result : List String}
    (hReturns : pollReceivers expectedReceiver [] replies = some result) :
    result = (receiverIps q.entries).eraseDups.take expectedReceiver := by
  obtain ⟨rfl, consumed, hConsumed, hResult⟩ := pollReceivers_eq_some hReturns
  have hSnapshots : ∀ snapshot ∈ consumed.map (fun rcvAny => receiverIps rcvAny.entries),
      snapshot <+: receiverIps q.entries := by
    intro snapshot hSnapshot
    obtain ⟨rcvAny, hMem, rfl⟩ := List.mem_map.mp hSnapshot
    exact receiverIps_mono (hPolled.entries_mono run (hConsumed.subset hMem))
  obtain ⟨seen, hSeen, hGathered⟩ := foldl_gather_prefixes _ hSnapshots
  rw [hResult, hGathered]
  exact eraseDups_eq_take hSeen

theorem Client.queryReceiverInformation_eq (client : Client) (expectedReceiver : Nat)
    (replies : List Response) :
    client.queryReceiverInformation expectedReceiver replies =
      pollReceivers expectedReceiver [] replies := by
  cases client with
  | sender => rfl
  | dispatcher => rfl

/-- Two clients that expect equally many receivers return the same list, whatever
each of them saw of the registry and when. -/
theorem queryReceiverInformation_agree {visits : List (Sequencer × Request)} {q : Sequencer}
    (run : sequencerMachine.RunsTo visits q) (expectedReceiver : Nat)
    (client other : Client) {replies otherReplies : List Response}
    (hPolled : PolledDuring visits replies) (hOtherPolled : PolledDuring visits otherReplies)
    {list otherList : List String}
    (hReturns : client.queryReceiverInformation expectedReceiver replies = some list)
    (hOtherReturns :
      other.queryReceiverInformation expectedReceiver otherReplies = some otherList) :
    list = otherList ∧ list = (receiverIps q.entries).eraseDups.take expectedReceiver ∧
      list.length = expectedReceiver ∧ list.Nodup := by
  rw [Client.queryReceiverInformation_eq] at hReturns hOtherReturns
  have hList := pollReceivers_eq_take run hPolled hReturns
  have hOtherList := pollReceivers_eq_take run hOtherPolled hOtherReturns
  refine ⟨hList.trans hOtherList.symm, hList, (pollReceivers_eq_some hReturns).1, ?_⟩
  rw [hList]
  exact (nodup_eraseDups _).sublist (List.take_sublist _ _)

/-- All lists of entries that a run sends, in order. -/
def sentLists (visits : List (Sequencer × Request)) : List Response :=
  visits.filterMap fun visit =>
    if visit.2 = .getAllNodeIDs then (handle visit.1 visit.2).map Prod.fst else none

theorem polledDuring_sentLists (visits : List (Sequencer × Request)) {replies : List Response}
    (h : replies ⊆ sentLists visits) : PolledDuring visits replies := by
  intro nodeidEntries return_ hMem
  obtain ⟨visit, hVisit, hSent⟩ := List.mem_filterMap.mp (h hMem)
  split at hSent
  case isTrue hRequest => exact ⟨visit, hVisit, hRequest, hSent⟩
  case isFalse => cases hSent

/-- The first receiver registers twice, and the second only after the first poll. -/
def lateReceiver : List Request :=
  [.nodeID ⟨"10.0.0.1:5000", "receiver", .server⟩, .getAllNodeIDs,
    .nodeID ⟨"10.0.0.3:5000", "dispatcher", .client⟩,
    .nodeID ⟨"10.0.0.1:5000", "receiver", .server⟩,
    .nodeID ⟨"10.0.0.2:5000", "receiver", .server⟩, .getAllNodeIDs]

/-- What the sequencer replied to the polls of `lateReceiver`. -/
def lateReplies : List Response := sentLists (sequencerMachine.record {} lateReceiver)

/-- A sender that polls twice and a dispatcher that polls only at the end return
the same two receivers. -/
theorem queryReceiverInformation_agree_lateReceiver :
    lateReplies.length = 2 ∧ ∃ list otherList : List String,
      Client.sender.queryReceiverInformation 2 lateReplies = some list ∧
      Client.dispatcher.queryReceiverInformation 2 (lateReplies.drop 1) = some otherList ∧
      list = otherList ∧ list.Nodup ∧ list = ["10.0.0.1:5000", "10.0.0.2:5000"] := by
  have hReplay : sequencerMachine.replay {} lateReceiver =
      some (register (lateReceiver.filterMap Request.registration)) := rfl
  have run := Machine.runsTo_of_replay lateReceiver hReplay
  have hAll := polledDuring_sentLists (sequencerMachine.record {} lateReceiver)
    (List.Subset.refl _)
  have hLast := polledDuring_sentLists (sequencerMachine.record {} lateReceiver)
    (List.drop_subset 1 _)
  have hReturns : Client.sender.queryReceiverInformation 2 lateReplies =
      some ["10.0.0.1:5000", "10.0.0.2:5000"] := rfl
  have hOtherReturns : Client.dispatcher.queryReceiverInformation 2 (lateReplies.drop 1) =
      some ["10.0.0.1:5000", "10.0.0.2:5000"] := rfl
  have hAgree := queryReceiverInformation_agree run 2 .sender .dispatcher hAll hLast
    hReturns hOtherReturns
  exact ⟨rfl, _, _, hReturns, hOtherReturns, hAgree.1, hAgree.2.2.2, rfl⟩

end NodeIDSequencer.Registry
