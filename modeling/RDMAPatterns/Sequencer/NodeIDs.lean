import Mathlib.Data.List.Nodup
import Mathlib.Data.List.Range
import Mathlib.Logic.Function.Basic

/-! The registry that hands out node ids. -/
namespace NodeIDSequencer

/-- `NodeType::Enum`, and the numbers on the wire that it has no name for. -/
inductive NodeType where
  | server
  | client
  | unnamed (value : Nat)
deriving DecidableEq, Repr

structure NodeIDRequest where
  ip : String
  name : String
  nodeTypeEnum : NodeType
deriving DecidableEq, Repr

structure NodeEntry where
  ip : String
  name : String
  nodeID : Nat
  nodeType : NodeType
deriving DecidableEq, Repr

structure Sequencer where
  entries : List NodeEntry := []
  ipPortToNodeIDMapping : String → Option Nat := fun _ => none
  nextNodeID : Nat := 0

def getNextNodeID (q : Sequencer) : Nat × Sequencer :=
  (q.nextNodeID, { q with nextNodeID := q.nextNodeID + 1 })

/-- `handle`, on a `NodeIDRequest`. -/
def handleNodeIDRequest (q : Sequencer) (connReq : NodeIDRequest) : Nat × Sequencer :=
  let (newNodeID, q) := getNextNodeID q
  let entry := ⟨connReq.ip, connReq.name, newNodeID, connReq.nodeTypeEnum⟩
  let mapping := match connReq.nodeTypeEnum with
    | .server => Function.update q.ipPortToNodeIDMapping connReq.ip (some newNodeID)
    | _ => q.ipPortToNodeIDMapping
  (newNodeID, { q with entries := q.entries ++ [entry], ipPortToNodeIDMapping := mapping })

/-- The registry after these requests, in the order of their arrival. -/
def register (requests : List NodeIDRequest) : Sequencer :=
  requests.foldl (fun q connReq => (handleNodeIDRequest q connReq).2) {}

/-- Ids are issued in counting order. -/
structure Consecutive (q : Sequencer) : Prop where
  ids : q.entries.map NodeEntry.nodeID = List.range q.nextNodeID

theorem handleNodeIDRequest_consecutive {q : Sequencer} (h : Consecutive q)
    (connReq : NodeIDRequest) : Consecutive (handleNodeIDRequest q connReq).2 where
  ids := by
    show (q.entries ++ [_]).map NodeEntry.nodeID = List.range (q.nextNodeID + 1)
    rw [List.map_append, h.ids, List.range_succ]
    rfl

theorem register_consecutive (requests : List NodeIDRequest) : Consecutive (register requests) := by
  suffices hFold : ∀ q, Consecutive q →
      Consecutive (requests.foldl (fun q connReq => (handleNodeIDRequest q connReq).2) q) from
    hFold {} ⟨rfl⟩
  induction requests with
  | nil => exact fun q hQ => hQ
  | cons connReq rest ih =>
      intro q hQ
      exact ih _ (handleNodeIDRequest_consecutive hQ connReq)

/-- The ids of the entries that meet a condition. -/
def Sequencer.idsWhere (q : Sequencer) (p : NodeEntry → Bool) : List Nat :=
  (q.entries.filter p).map NodeEntry.nodeID

theorem idsWhere_nodup (requests : List NodeIDRequest) (p : NodeEntry → Bool) :
    ((register requests).idsWhere p).Nodup := by
  have hSub : List.Sublist ((register requests).idsWhere p)
      ((register requests).entries.map NodeEntry.nodeID) := List.filter_sublist.map _
  rw [(register_consecutive requests).ids] at hSub
  exact hSub.nodup List.nodup_range

/-- An id belongs to one entry, so no entry is on both sides of a condition. -/
theorem idsWhere_disjoint (requests : List NodeIDRequest) (p : NodeEntry → Bool) {id : Nat}
    (hId : id ∈ (register requests).idsWhere p) :
    id ∉ (register requests).idsWhere fun entry => !p entry := by
  have hNodup : ((register requests).entries.map NodeEntry.nodeID).Nodup := by
    rw [(register_consecutive requests).ids]
    exact List.nodup_range
  intro hOther
  obtain ⟨entry, hEntry, rfl⟩ := List.mem_map.mp hId
  obtain ⟨other, hOther, hSame⟩ := List.mem_map.mp hOther
  obtain ⟨hEntryMem, hMeets⟩ := List.mem_filter.mp hEntry
  obtain ⟨hOtherMem, hFails⟩ := List.mem_filter.mp hOther
  obtain rfl := List.inj_on_of_nodup_map hNodup hOtherMem hEntryMem hSame
  simp [hMeets] at hFails

/-- There are no gaps below an id. -/
theorem mem_idsWhere_of_le (requests : List NodeIDRequest) (p q : NodeEntry → Bool) {id other : Nat}
    (hOther : other ∈ (register requests).idsWhere q) (hLe : id ≤ other) :
    id ∈ (register requests).idsWhere p ∨
      id ∈ (register requests).idsWhere fun entry => !p entry := by
  have hIds := (register_consecutive requests).ids
  obtain ⟨later, hLater, rfl⟩ := List.mem_map.mp hOther
  have hBound : later.nodeID ∈ List.range (register requests).nextNodeID := by
    rw [← hIds]
    exact List.mem_map_of_mem (List.mem_of_mem_filter hLater)
  have hId : id ∈ (register requests).entries.map NodeEntry.nodeID := by
    rw [hIds]
    exact List.mem_range.mpr (Nat.lt_of_le_of_lt hLe (List.mem_range.mp hBound))
  obtain ⟨entry, hEntry, rfl⟩ := List.mem_map.mp hId
  cases hP : p entry with
  | true => exact .inl (List.mem_map_of_mem (List.mem_filter.mpr ⟨hEntry, hP⟩))
  | false => exact .inr (List.mem_map_of_mem (List.mem_filter.mpr ⟨hEntry, by rw [hP]; rfl⟩))

end NodeIDSequencer
