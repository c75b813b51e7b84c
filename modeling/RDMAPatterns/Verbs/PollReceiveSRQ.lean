import Mathlib.Data.List.Basic

/-! The calls that wait for a completion of a shared receive queue. `doPoll` tells
them to go on waiting, and another thread may change it at any time. -/
namespace ReliableRDMA

/-- `ibv_wc`. -/
structure Wc where
  wrId : Nat
  status : Nat
  qpNum : Nat
  immData : Nat
deriving DecidableEq, Repr

/-- What a call finds: the completions that are in the queue at each of its calls of
`ibv_poll_cq`, or `none` if that call fails, the values that it reads from `doPoll` one
after the other, and the map `m_qpNum2connID`. -/
structure Surroundings where
  cq : Nat → Option (List Wc)
  doPoll : Nat → Bool
  qpNum2connID : Nat → Option Nat

/-- The values a call has stored through its references and pointers, in order. -/
structure Written where
  retRdmaConnID : List Nat := []
  retMemoryIdx : List Nat := []
  imm : List Nat := []
deriving DecidableEq, Repr

/-- `indeterminate` if the call reads a completion that was never filled in. -/
inductive Ended where
  | returned (ne : Option Int)
  | threw (what : String)
  | indeterminate
deriving DecidableEq, Repr

structure Outcome where
  written : Written
  ended : Ended
deriving DecidableEq, Repr

def IBV_WC_SUCCESS : Nat := 0

def BATCH : Nat := 16

def completionError (status : Nat) : String :=
  "RDMA completion event in CQ with error! " ++ toString status

def pollingFailed : String := "RDMA polling from CQ failed!"

/-- `ibv_poll_cq`, the `i`-th time. -/
def ibvPollCq (x : Surroundings) (i numEntries : Nat) : Int × List Wc :=
  match x.cq i with
  | none => (-1, [])
  | some completions => ((completions.take numEntries).length, completions.take numEntries)

/-- What the loop leaves behind. `reads` counts the reads of `doPoll`. -/
structure Polled where
  ne : Int
  wc : List Wc
  reads : Nat

/-- `do … while (ne == 0 && doPoll)`. Every empty poll is followed by a read of
`doPoll`. `check` may throw after a poll. -/
def pollLoop (x : Surroundings) (numEntries : Nat) (check : List Wc → Option String) :
    Nat → Nat → Option (Except String Polled)
  | 0, _ => none
  | fuel + 1, i =>
      let (ne, wc) := ibvPollCq x i numEntries
      match check wc with
      | some what => some (.error what)
      | none =>
          if ne = 0 then
            if x.doPoll i then pollLoop x numEntries check fuel (i + 1)
            else some (.ok ⟨ne, wc, i + 1⟩)
          else some (.ok ⟨ne, wc, i⟩)

def checkStatus (wc : List Wc) : Option String :=
  (wc.find? fun wc => wc.status ≠ IBV_WC_SUCCESS).map fun wc => completionError wc.status

/-- What follows the loop, unless the loop threw. -/
def afterLoop (body : Polled → Outcome) : Option (Except String Polled) → Option Outcome
  | none => none
  | some (.error what) => some ⟨{}, .threw what⟩
  | some (.ok polled) => some (body polled)

/-- The stores of one completion: the connection first, then `fields`. -/
def deliver (x : Surroundings) (fields : Wc → Written) (ne : Option Int) : Option Wc → Outcome
  | none => ⟨{}, .indeterminate⟩
  | some wc =>
      match x.qpNum2connID wc.qpNum with
      | none => ⟨{}, .threw "std::out_of_range"⟩
      | some connID => ⟨{ fields wc with retRdmaConnID := [connID] }, .returned ne⟩

/-- The calls that read `doPoll` once more behind the loop, and look at the completion
only if it is set. `otherwise` is how they end if it is not. -/
def pollRereading (x : Surroundings) (fields : Wc → Written) (ret : Int → Option Int)
    (otherwise : Int → Ended) (fuel : Nat) : Option Outcome :=
  afterLoop (fun polled =>
    if x.doPoll polled.reads then
      if polled.ne < 0 then ⟨{}, .threw pollingFailed⟩
      else deliver x fields (ret polled.ne) polled.wc.head?
    else ⟨{}, otherwise polled.ne⟩) (pollLoop x 1 checkStatus fuel 0)

/-- The end of a call that returns nothing. -/
def voidOtherwise (ne : Int) : Ended :=
  if 0 < ne then .returned none else .threw "pollReceiveSRQ failed!"

/-- `pollReceiveSRQ(srq_id, retRdmaConnID, bool& doPoll)`. -/
def pollReceiveSRQ (x : Surroundings) (fuel : Nat) : Option Outcome :=
  pollRereading x (fun _ => {}) (fun _ => none) voidOtherwise fuel

/-- The loop over the completions of a batch. -/
def deliverBatch (x : Surroundings) (ne : Int) (written : Written) : List Wc → Outcome
  | [] => ⟨written, .returned (some ne)⟩
  | wc :: rest =>
      if wc.status ≠ IBV_WC_SUCCESS then ⟨written, .threw (completionError wc.status)⟩
      else
        let written := { written with retMemoryIdx := written.retMemoryIdx ++ [wc.wrId] }
        match x.qpNum2connID wc.qpNum with
        | none => ⟨written, .threw "std::out_of_range"⟩
        | some connID =>
            deliverBatch x ne { written with retRdmaConnID := written.retRdmaConnID ++ [connID] }
              rest

/-- `pollReceiveSRQBatch`. The status is checked behind the loop. -/
def pollReceiveSRQBatch (x : Surroundings) (fuel : Nat) : Option Outcome :=
  afterLoop (fun polled =>
    if polled.ne < 0 then ⟨{}, .threw pollingFailed⟩
    else deliverBatch x polled.ne {} polled.wc) (pollLoop x BATCH (fun _ => none) fuel 0)

/-- `pollReceiveSRQ(srq_id, retRdmaConnID, retMemoryIdx, std::atomic<bool>& doPoll)`. It
looks at `ne` behind the loop, not at `doPoll`. -/
def pollReceiveSRQIdxAtomic (x : Surroundings) (fuel : Nat) : Option Outcome :=
  afterLoop (fun polled =>
    if polled.ne < 0 then ⟨{}, .threw pollingFailed⟩
    else if 0 < polled.ne then
      deliver x (fun wc => { retMemoryIdx := [wc.wrId] }) (some polled.ne) polled.wc.head?
    else ⟨{}, .returned (some polled.ne)⟩) (pollLoop x 1 checkStatus fuel 0)

/-- `pollReceiveSRQ(srq_id, retRdmaConnID, retMemoryIdx, bool& doPoll)`. -/
def pollReceiveSRQIdx (x : Surroundings) (fuel : Nat) : Option Outcome :=
  pollRereading x (fun wc => { retMemoryIdx := [wc.wrId] }) (fun _ => none) voidOtherwise fuel

/-- `pollReceiveSRQ(srq_id, retRdmaConnID, std::atomic<bool>& doPoll)`. -/
def pollReceiveSRQAtomic (x : Surroundings) (fuel : Nat) : Option Outcome :=
  pollRereading x (fun _ => {}) some (fun ne => .returned (some ne)) fuel

/-- `pollReceiveSRQ(srq_id, retRdmaConnID, imm, std::atomic<bool>& doPoll)`. -/
def pollReceiveSRQImmAtomic (x : Surroundings) (fuel : Nat) : Option Outcome :=
  pollRereading x (fun wc => { imm := [wc.immData] }) some (fun ne => .returned (some ne)) fuel

/-- The overloads of `pollReceiveSRQ`, and `pollReceiveSRQBatch`. -/
inductive Overload where
  | bool
  | batch
  | idxAtomic
  | idxBool
  | atomic
  | immAtomic
deriving DecidableEq, Repr

namespace Overload

def poll : Overload → Surroundings → Nat → Option Outcome
  | .bool => pollReceiveSRQ
  | .batch => pollReceiveSRQBatch
  | .idxAtomic => pollReceiveSRQIdxAtomic
  | .idxBool => pollReceiveSRQIdx
  | .atomic => pollReceiveSRQAtomic
  | .immAtomic => pollReceiveSRQImmAtomic

def numEntries : Overload → Nat
  | .batch => BATCH
  | _ => 1

def hasMemoryIdx : Overload → Bool
  | .batch | .idxAtomic | .idxBool => true
  | _ => false

def hasImm : Overload → Bool
  | .immAtomic => true
  | _ => false

/-- The overloads that read `doPoll` again behind the loop. -/
def Rereads : Overload → Prop
  | .batch | .idxAtomic => False
  | _ => True

end Overload

namespace Surroundings

variable (x : Surroundings)

/-- No poll fails, and every completion is a successful one of a known queue pair. -/
def Healthy : Prop :=
  ∀ i, ∃ completions, x.cq i = some completions ∧
    ∀ wc ∈ completions, wc.status = IBV_WC_SUCCESS ∧ ∃ connID, x.qpNum2connID wc.qpNum = some connID

/-- The loop ends with poll `n`: the first that finds something, or the first after
which `doPoll` is not set. -/
def EndsAt (n : Nat) : Prop :=
  (∀ i < n, x.cq i = some [] ∧ x.doPoll i = true) ∧ (x.cq n ≠ some [] ∨ x.doPoll n = false)

/-- The completions that a call takes with poll `n`. -/
def consumed (n numEntries : Nat) : List Wc := (ibvPollCq x n numEntries).2

/-- The read of `doPoll` behind the loop gives true if there is a completion, and false
if there is none. -/
def RereadFits (n : Nat) : Prop :=
  if x.cq n = some [] then x.doPoll (n + 1) = false else x.doPoll n = true

end Surroundings

/-- A call that takes completions and returns has stored the sender of each, and what
else it has to tell of it; a call that takes none stores nothing and reads no
completion. -/
structure Reports (x : Surroundings) (n : Nat) (overload : Overload) (outcome : Outcome) :
    Prop where
  taken : x.consumed n overload.numEntries ≠ [] → (∃ ne, outcome.ended = .returned ne) →
    outcome.written.retRdmaConnID.map some =
      (x.consumed n overload.numEntries).map (fun wc => x.qpNum2connID wc.qpNum) ∧
    outcome.written.retMemoryIdx =
      (if overload.hasMemoryIdx then (x.consumed n overload.numEntries).map Wc.wrId else []) ∧
    outcome.written.imm =
      (if overload.hasImm then (x.consumed n overload.numEntries).map Wc.immData else [])
  nothing : x.consumed n overload.numEntries = [] →
    outcome.written = {} ∧ outcome.ended ≠ .indeterminate

/-- Two calls that store something of the same kind store the same. -/
structure Agrees (a b : Written) : Prop where
  retRdmaConnID : ∀ k v w : Nat, a.retRdmaConnID[k]? = some v → b.retRdmaConnID[k]? = some w → v = w
  retMemoryIdx : ∀ k v w : Nat, a.retMemoryIdx[k]? = some v → b.retMemoryIdx[k]? = some w → v = w
  imm : ∀ k v w : Nat, a.imm[k]? = some v → b.imm[k]? = some w → v = w

section Loop

variable {x : Surroundings} {n fuel : Nat}

/-- The verb takes as many completions as there are, up to the number asked for. -/
theorem ibvPollCq_of_some {completions : List Wc} (hCq : x.cq n = some completions)
    (numEntries : Nat) :
    ibvPollCq x n numEntries =
      (((completions.take numEntries).length : Int), completions.take numEntries) := by
  rw [ibvPollCq, hCq]

theorem consumed_of_some {completions : List Wc} (hCq : x.cq n = some completions)
    (numEntries : Nat) : x.consumed n numEntries = completions.take numEntries := by
  rw [Surroundings.consumed, ibvPollCq_of_some hCq]

/-- Without a failed completion nothing is thrown. -/
theorem checkStatus_eq_none {wc : List Wc} (h : ∀ entry ∈ wc, entry.status = IBV_WC_SUCCESS) :
    checkStatus wc = none := by
  rw [checkStatus, Option.map_eq_none_iff, List.find?_eq_none]
  intro entry hMem
  simp [h entry hMem]

/-- The loop stops at the poll at which it should, and what it read there is what is
handed on. -/
theorem pollLoop_eq (hHealthy : x.Healthy) (hEnds : x.EndsAt n) {numEntries : Nat}
    (hEntries : 0 < numEntries) {check : List Wc → Option String}
    (hCheck : ∀ wc, (∀ entry ∈ wc, entry.status = IBV_WC_SUCCESS) → check wc = none)
    {i : Nat} (hI : i ≤ n) (hFuel : n < fuel + i) :
    pollLoop x numEntries check fuel i =
      some (.ok ⟨(x.consumed n numEntries).length, x.consumed n numEntries,
        if x.cq n = some [] then n + 1 else n⟩) := by
  induction fuel generalizing i with
  | zero => omega
  | succ fuel ih =>
      obtain ⟨completions, hCq, hGood⟩ := hHealthy i
      have hNone : check (completions.take numEntries) = none :=
        hCheck _ fun entry hMem => (hGood entry (List.mem_of_mem_take hMem)).1
      simp only [pollLoop, ibvPollCq_of_some hCq, hNone]
      rcases Nat.lt_or_eq_of_le hI with hBefore | rfl
      · obtain ⟨hEmpty, hSet⟩ := hEnds.1 i hBefore
        obtain rfl : completions = [] := Option.some_inj.mp (hCq.symm.trans hEmpty)
        simp only [List.take_nil, List.length_nil, Int.natCast_zero, if_true, hSet]
        exact ih hBefore (by omega)
      · rw [consumed_of_some hCq, hCq]
        cases completions with
        | nil =>
            have hClear : x.doPoll i = false := hEnds.2.resolve_left (by simp [hCq])
            simp [hClear]
        | cons wc rest =>
            have hSome : (((wc :: rest).take numEntries).length : Int) ≠ 0 := by
              rw [List.length_take, List.length_cons]
              omega
            rw [if_neg hSome, if_neg (by simp)]

end Loop

theorem deliver_some {x : Surroundings} {wc : Wc} {connID : Nat}
    (hKnown : x.qpNum2connID wc.qpNum = some connID) (fields : Wc → Written) (ne : Option Int) :
    deliver x fields ne (some wc) =
      ⟨{ fields wc with retRdmaConnID := [connID] }, .returned ne⟩ := by
  rw [deliver, hKnown]

/-- A batch of good completions is stored in order. -/
theorem deliverBatch_eq {x : Surroundings} {wcs : List Wc}
    (hGood : ∀ wc ∈ wcs, wc.status = IBV_WC_SUCCESS ∧
      ∃ connID, x.qpNum2connID wc.qpNum = some connID) (ne : Int) (written : Written) :
    ∃ connIDs : List Nat, connIDs.map some = wcs.map (fun wc => x.qpNum2connID wc.qpNum) ∧
      deliverBatch x ne written wcs =
        ⟨{ written with
            retRdmaConnID := written.retRdmaConnID ++ connIDs
            retMemoryIdx := written.retMemoryIdx ++ wcs.map Wc.wrId },
          .returned (some ne)⟩ := by
  induction wcs generalizing written with
  | nil => exact ⟨[], rfl, by simp [deliverBatch]⟩
  | cons wc rest ih =>
      obtain ⟨hStatus, connID, hKnown⟩ := hGood wc (List.mem_cons_self ..)
      obtain ⟨connIDs, hMap, hRest⟩ := ih (fun wc hMem => hGood wc (List.mem_cons_of_mem _ hMem))
        { written with
          retMemoryIdx := written.retMemoryIdx ++ [wc.wrId]
          retRdmaConnID := written.retRdmaConnID ++ [connID] }
      refine ⟨connID :: connIDs, by simp [hMap, hKnown], ?_⟩
      rw [deliverBatch, if_neg (by simp [hStatus])]
      simp only [hKnown]
      rw [hRest]
      simp

section Members

variable {x : Surroundings} {n fuel : Nat} (hHealthy : x.Healthy) (hEnds : x.EndsAt n)
  (hFuel : n < fuel)

include hHealthy hEnds hFuel

/-- An overload that stops after one look finds nothing if nothing is there. -/
theorem pollLoop_one_nil (hCq : x.cq n = some []) :
    pollLoop x 1 checkStatus fuel 0 = some (.ok ⟨0, [], n + 1⟩) := by
  rw [pollLoop_eq hHealthy hEnds Nat.one_pos (fun _ => checkStatus_eq_none) (Nat.zero_le n) hFuel,
    consumed_of_some hCq, if_pos hCq]
  rfl

theorem pollLoop_one_cons {wc : Wc} {rest : List Wc} (hCq : x.cq n = some (wc :: rest)) :
    pollLoop x 1 checkStatus fuel 0 = some (.ok ⟨1, [wc], n⟩) := by
  rw [pollLoop_eq hHealthy hEnds Nat.one_pos (fun _ => checkStatus_eq_none) (Nat.zero_le n) hFuel,
    consumed_of_some hCq, if_neg (by simp [hCq])]
  rfl

/-- The calls that read `doPoll` again report exactly if that read fits what the loop
has found. -/
theorem pollRereading_reports_iff {overload : Overload} {fields : Wc → Written}
    {ret : Int → Option Int} {otherwise : Int → Ended}
    (hPoll : overload.poll x fuel = pollRereading x fields ret otherwise fuel)
    (hRereads : overload.Rereads) (hOne : overload.numEntries = 1)
    (hIdx : ∀ wc, (fields wc).retMemoryIdx = if overload.hasMemoryIdx then [wc.wrId] else [])
    (hImm : ∀ wc, (fields wc).imm = if overload.hasImm then [wc.immData] else [])
    (hQuiet : otherwise 0 ≠ .indeterminate) (hReturns : ∃ ne, otherwise 1 = .returned ne) :
    ∃ outcome, overload.poll x fuel = some outcome ∧
      (Reports x n overload outcome ↔ (overload.Rereads → x.RereadFits n)) ∧
      (x.cq n ≠ some [] → ∃ ne, outcome.ended = .returned ne) := by
  rw [hPoll, imp_iff_right hRereads]
  obtain ⟨completions, hCq, hGood⟩ := hHealthy n
  have hConsumed := consumed_of_some hCq overload.numEntries
  rw [hOne] at hConsumed
  cases completions with
  | nil =>
      rw [pollRereading, pollLoop_one_nil hHealthy hEnds hFuel hCq]
      refine ⟨_, rfl, ?_, fun hSome => absurd hCq hSome⟩
      rw [Surroundings.RereadFits, if_pos hCq]
      cases hReread : x.doPoll (n + 1) with
      | true =>
          refine iff_of_false (fun hReports => ?_) (by decide)
          exact (hReports.nothing (by rw [hOne, hConsumed]; rfl)).2 (by simp [hReread, deliver])
      | false =>
          refine iff_of_true ⟨fun hTaken => ?_, fun _ => ?_⟩ rfl
          · exact absurd (by rw [hOne, hConsumed]; rfl) hTaken
          · simp [hReread, hQuiet]
  | cons wc rest =>
      obtain ⟨_, connID, hKnown⟩ := hGood wc (List.mem_cons_self ..)
      rw [pollRereading, pollLoop_one_cons hHealthy hEnds hFuel hCq]
      have hSome : x.cq n ≠ some [] := by simp [hCq]
      rw [Surroundings.RereadFits, if_neg hSome]
      cases hReread : x.doPoll n with
      | true =>
          refine ⟨_, rfl, iff_of_true ⟨fun _ _ => ?_, fun hNothing => ?_⟩ rfl, fun _ => ?_⟩
          · simp [hReread, deliver_some hKnown, hOne, hConsumed, hKnown, hIdx, hImm]
          · rw [hOne, hConsumed] at hNothing
            cases hNothing
          · exact ⟨ret 1, by simp [hReread, deliver_some hKnown]⟩
      | false =>
          obtain ⟨ne, hReturned⟩ := hReturns
          refine ⟨_, rfl, iff_of_false (fun hReports => ?_) (by decide), fun _ => ?_⟩
          · have hTaken := hReports.taken (by rw [hOne, hConsumed]; simp)
              ⟨ne, by simp [hReread, hReturned]⟩
            simp [hReread, hOne, hConsumed] at hTaken
          · exact ⟨ne, by simp [hReread, hReturned]⟩

theorem pollReceiveSRQIdxAtomic_reports :
    ∃ outcome, pollReceiveSRQIdxAtomic x fuel = some outcome ∧ Reports x n .idxAtomic outcome ∧
      (x.cq n ≠ some [] → ∃ ne, outcome.ended = .returned ne) := by
  obtain ⟨completions, hCq, hGood⟩ := hHealthy n
  have hConsumed : x.consumed n Overload.idxAtomic.numEntries = completions.take 1 :=
    consumed_of_some hCq 1
  cases completions with
  | nil =>
      rw [pollReceiveSRQIdxAtomic, pollLoop_one_nil hHealthy hEnds hFuel hCq]
      refine ⟨_, rfl, ⟨fun hTaken => absurd hConsumed hTaken, fun _ => ?_⟩,
        fun hSome => absurd hCq hSome⟩
      exact ⟨rfl, by simp⟩
  | cons wc rest =>
      obtain ⟨_, connID, hKnown⟩ := hGood wc (List.mem_cons_self ..)
      rw [pollReceiveSRQIdxAtomic, pollLoop_one_cons hHealthy hEnds hFuel hCq]
      refine ⟨_, rfl, ⟨fun _ _ => ?_, fun hNothing => ?_⟩, fun _ => ?_⟩
      · simp [deliver_some hKnown, hConsumed, hKnown, Overload.hasMemoryIdx, Overload.hasImm]
      · rw [hConsumed] at hNothing
        cases hNothing
      · exact ⟨some 1, by simp [deliver_some hKnown]⟩

theorem pollReceiveSRQBatch_reports :
    ∃ outcome, pollReceiveSRQBatch x fuel = some outcome ∧ Reports x n .batch outcome ∧
      (x.cq n ≠ some [] → ∃ ne, outcome.ended = .returned ne) := by
  obtain ⟨completions, hCq, hGood⟩ := hHealthy n
  have hConsumed : x.consumed n Overload.batch.numEntries = completions.take BATCH :=
    consumed_of_some hCq BATCH
  have hTaken : ∀ wc ∈ completions.take BATCH, wc.status = IBV_WC_SUCCESS ∧
      ∃ connID, x.qpNum2connID wc.qpNum = some connID :=
    fun wc hMem => hGood wc (List.mem_of_mem_take hMem)
  obtain ⟨connIDs, hMap, hDelivered⟩ := deliverBatch_eq hTaken (completions.take BATCH).length {}
  have hPoll : pollReceiveSRQBatch x fuel = some
      ⟨{ retRdmaConnID := connIDs, retMemoryIdx := (completions.take BATCH).map Wc.wrId },
        .returned (some (completions.take BATCH).length)⟩ := by
    rw [pollReceiveSRQBatch, pollLoop_eq hHealthy hEnds (by decide) (fun _ _ => rfl)
      (Nat.zero_le n) hFuel, consumed_of_some hCq]
    simp only [afterLoop]
    rw [if_neg (by omega), hDelivered]
    rfl
  refine ⟨_, hPoll, ⟨fun _ _ => ?_, fun hNothing => ?_⟩, fun _ => ⟨_, rfl⟩⟩
  · rw [hConsumed]
    exact ⟨hMap, rfl, rfl⟩
  · rw [hConsumed] at hNothing
    rw [hNothing] at hMap ⊢
    rw [List.map_eq_nil_iff.mp hMap]
    exact ⟨rfl, by simp⟩

/-- Every overload ends with the same poll; those that do not read `doPoll` again always
report, the others if that read fits. -/
theorem Overload.reports_iff (overload : Overload) :
    ∃ outcome, overload.poll x fuel = some outcome ∧
      (Reports x n overload outcome ↔ (overload.Rereads → x.RereadFits n)) ∧
      (x.cq n ≠ some [] → ∃ ne, outcome.ended = .returned ne) := by
  cases overload with
  | batch =>
      obtain ⟨outcome, hPoll, hReports, hReturns⟩ :=
        pollReceiveSRQBatch_reports hHealthy hEnds hFuel
      exact ⟨outcome, hPoll, iff_of_true hReports False.elim, hReturns⟩
  | idxAtomic =>
      obtain ⟨outcome, hPoll, hReports, hReturns⟩ :=
        pollReceiveSRQIdxAtomic_reports hHealthy hEnds hFuel
      exact ⟨outcome, hPoll, iff_of_true hReports False.elim, hReturns⟩
  | bool =>
      have hPoll : poll .bool x fuel =
          pollRereading x (fun _ => {}) (fun _ => none) voidOtherwise fuel := rfl
      exact pollRereading_reports_iff hHealthy hEnds hFuel hPoll trivial rfl (fun _ => rfl)
        (fun _ => rfl) (by decide) ⟨none, rfl⟩
  | idxBool =>
      have hPoll : poll .idxBool x fuel =
          pollRereading x (fun wc => { retMemoryIdx := [wc.wrId] }) (fun _ => none) voidOtherwise
            fuel := rfl
      exact pollRereading_reports_iff hHealthy hEnds hFuel hPoll trivial rfl (fun _ => rfl)
        (fun _ => rfl) (by decide) ⟨none, rfl⟩
  | atomic =>
      have hPoll : poll .atomic x fuel =
          pollRereading x (fun _ => {}) some (fun ne => .returned (some ne)) fuel := rfl
      exact pollRereading_reports_iff hHealthy hEnds hFuel hPoll trivial rfl (fun _ => rfl)
        (fun _ => rfl) (by decide) ⟨some 1, rfl⟩
  | immAtomic =>
      have hPoll : poll .immAtomic x fuel =
          pollRereading x (fun wc => { imm := [wc.immData] }) some
            (fun ne => .returned (some ne)) fuel := rfl
      exact pollRereading_reports_iff hHealthy hEnds hFuel hPoll trivial rfl (fun _ => rfl)
        (fun _ => rfl) (by decide) ⟨some 1, rfl⟩

end Members

section Agreement

variable {x : Surroundings} {n : Nat} {completions : List Wc} (hCq : x.cq n = some completions)

/-- Whatever is stored at position `k` is told by the completion at position `k`. -/
structure Told (x : Surroundings) (completions : List Wc) (w : Written) : Prop where
  retRdmaConnID : ∀ k v : Nat, w.retRdmaConnID[k]? = some v →
    ∃ wc, completions[k]? = some wc ∧ x.qpNum2connID wc.qpNum = some v
  retMemoryIdx : ∀ k v : Nat, w.retMemoryIdx[k]? = some v →
    ∃ wc, completions[k]? = some wc ∧ wc.wrId = v
  imm : ∀ k v : Nat, w.imm[k]? = some v → ∃ wc, completions[k]? = some wc ∧ wc.immData = v

/-- A call that tells nothing tells nothing wrong. -/
theorem told_nothing : Told x completions {} where
  retRdmaConnID k v hAt := by simp at hAt
  retMemoryIdx k v hAt := by simp at hAt
  imm k v hAt := by simp at hAt

include hCq

/-- A call takes a first part of what is in the queue. -/
theorem getElem?_of_map_consumed {α : Type} {f : Wc → α} {numEntries k : Nat} {v : α}
    (hAt : ((x.consumed n numEntries).map f)[k]? = some v) :
    ∃ wc, completions[k]? = some wc ∧ f wc = v := by
  rw [List.getElem?_map, consumed_of_some hCq, List.getElem?_take] at hAt
  obtain ⟨wc, hWc, hValue⟩ := Option.map_eq_some_iff.mp hAt
  split at hWc
  · exact ⟨wc, hWc, hValue⟩
  · cases hWc

/-- An entry of what was taken is a completion of the queue. -/
theorem getElem?_of_ite {c : Bool} {f : Wc → Nat} {numEntries k v : Nat}
    (hAt : (if c then (x.consumed n numEntries).map f else [])[k]? = some v) :
    ∃ wc, completions[k]? = some wc ∧ f wc = v := by
  cases c with
  | true => exact getElem?_of_map_consumed hCq hAt
  | false => simp at hAt

/-- What the overloads write is about the completions they took. -/
theorem Reports.told {overload : Overload} {outcome : Outcome} (h : Reports x n overload outcome)
    (hReturns : x.cq n ≠ some [] → ∃ ne, outcome.ended = .returned ne) :
    Told x completions outcome.written := by
  by_cases hNothing : x.consumed n overload.numEntries = []
  · rw [(h.nothing hNothing).1]
    exact told_nothing
  · have hSome : x.cq n ≠ some [] := by
      intro hEmpty
      exact hNothing (by rw [consumed_of_some hEmpty, List.take_nil])
    obtain ⟨hConnIDs, hIdx, hImm⟩ := h.taken hNothing (hReturns hSome)
    constructor
    · intro k v hAt
      have hMap := congrArg (·[k]?) hConnIDs
      simp only [List.getElem?_map, hAt, Option.map_some] at hMap
      exact getElem?_of_map_consumed hCq (by rw [List.getElem?_map, ← hMap])
    · intro k v hAt
      exact getElem?_of_ite hCq (by rwa [← hIdx])
    · intro k v hAt
      exact getElem?_of_ite hCq (by rwa [← hImm])

omit hCq

/-- Two calls that tell the truth about the same completions do not contradict each
other. -/
theorem Told.agrees {a b : Written} (hA : Told x completions a) (hB : Told x completions b) :
    Agrees a b where
  retRdmaConnID k v w hV hW := by
    obtain ⟨wc, hWc, hKnown⟩ := hA.retRdmaConnID k v hV
    obtain ⟨other, hOther, hOtherKnown⟩ := hB.retRdmaConnID k w hW
    obtain rfl : wc = other := Option.some_inj.mp (hWc.symm.trans hOther)
    exact Option.some_inj.mp (hKnown.symm.trans hOtherKnown)
  retMemoryIdx k v w hV hW := by
    obtain ⟨wc, hWc, rfl⟩ := hA.retMemoryIdx k v hV
    obtain ⟨other, hOther, rfl⟩ := hB.retMemoryIdx k w hW
    rw [Option.some_inj.mp (hWc.symm.trans hOther)]
  imm k v w hV hW := by
    obtain ⟨wc, hWc, rfl⟩ := hA.imm k v hV
    obtain ⟨other, hOther, rfl⟩ := hB.imm k w hW
    rw [Option.some_inj.mp (hWc.symm.trans hOther)]

end Agreement

/-- A call reports what it takes, and nothing if it takes nothing, exactly if it does not
read `doPoll` again or that read fits. Calls that do so agree with each other. -/
theorem pollReceiveSRQ_reports_iff {x : Surroundings} (hHealthy : x.Healthy) {n : Nat}
    (hEnds : x.EndsAt n) {fuel : Nat} (hFuel : n < fuel) (overload : Overload) :
    ∃ outcome, overload.poll x fuel = some outcome ∧
      (Reports x n overload outcome ↔ (overload.Rereads → x.RereadFits n)) ∧
      ∀ (other : Overload) (otherOutcome : Outcome), other.poll x fuel = some otherOutcome →
        (overload.Rereads → x.RereadFits n) → (other.Rereads → x.RereadFits n) →
        Agrees outcome.written otherOutcome.written := by
  obtain ⟨completions, hCq, _⟩ := hHealthy n
  obtain ⟨outcome, hPoll, hReports, hReturns⟩ := overload.reports_iff hHealthy hEnds hFuel
  refine ⟨outcome, hPoll, hReports, ?_⟩
  intro other otherOutcome hOther hFits hOtherFits
  obtain ⟨found, hFound, hFoundReports, hFoundReturns⟩ :=
    other.reports_iff hHealthy hEnds hFuel
  obtain rfl : found = otherOutcome := Option.some_inj.mp (hFound.symm.trans hOther)
  have hTold := (hReports.mpr hFits).told hCq hReturns
  have hOtherTold := (hFoundReports.mpr hOtherFits).told hCq hFoundReturns
  exact hTold.agrees hOtherTold

/-- A message that arrives after an empty poll, from the queue pair 17 of connection 4. -/
def oneMessage (doPoll : Nat → Bool) : Surroundings where
  cq i := if i = 0 then some [] else some [⟨7, IBV_WC_SUCCESS, 17, 99⟩]
  doPoll := doPoll
  qpNum2connID qpNum := if qpNum = 17 then some 4 else none

/-- The message comes from a known queue pair and has not failed. -/
theorem oneMessage_healthy (doPoll : Nat → Bool) : (oneMessage doPoll).Healthy := by
  intro i
  by_cases hFirst : i = 0
  · exact ⟨[], by simp [oneMessage, hFirst], by simp⟩
  · exact ⟨_, if_neg hFirst, by simp [oneMessage]⟩

/-- The flag is looked at once more than the queue. -/
theorem oneMessage_endsAt {doPoll : Nat → Bool} (hFirst : doPoll 0 = true) :
    (oneMessage doPoll).EndsAt 1 := by
  refine ⟨fun i hI => ?_, .inl (by simp [oneMessage])⟩
  obtain rfl : i = 0 := by omega
  exact ⟨rfl, hFirst⟩

theorem pollReceiveSRQ_reports_iff_oneMessage :
    ∃ outcome, Overload.immAtomic.poll (oneMessage fun _ => true) 5 = some outcome ∧
      Reports (oneMessage fun _ => true) 1 .immAtomic outcome := by
  have hEnds : (oneMessage fun _ => true).EndsAt 1 := oneMessage_endsAt rfl
  have hFuel : 1 < 5 := by decide
  obtain ⟨outcome, hPoll, hReports, _⟩ :=
    pollReceiveSRQ_reports_iff (oneMessage_healthy _) hEnds hFuel .immAtomic
  exact ⟨outcome, hPoll, hReports.mpr fun _ => rfl⟩

/-- No message at all, from the queue of the same connection. -/
def noMessage (doPoll : Nat → Bool) : Surroundings :=
  { oneMessage doPoll with cq := fun _ => some [] }

/-- The handler thread takes a message while it is being stopped: `m_poll` is cleared
between the poll and the second read. The call tells of one message and of no sender.
If the flag is set again between the two reads, it reads a completion that is not there. -/
theorem pollReceiveSRQ_not_reports_stopped :
    ((oneMessage fun read => read == 0).Healthy ∧ (oneMessage fun read => read == 0).EndsAt 1 ∧
      Overload.atomic.poll (oneMessage fun read => read == 0) 5 =
        some ⟨{}, .returned (some 1)⟩ ∧
      Overload.idxAtomic.poll (oneMessage fun read => read == 0) 5 =
        some ⟨{ retRdmaConnID := [4], retMemoryIdx := [7] }, .returned (some 1)⟩ ∧
      ¬Reports (oneMessage fun read => read == 0) 1 .atomic ⟨{}, .returned (some 1)⟩) ∧
    (noMessage fun read => read == 1).Healthy ∧ (noMessage fun read => read == 1).EndsAt 0 ∧
      Overload.atomic.poll (noMessage fun read => read == 1) 5 = some ⟨{}, .indeterminate⟩ ∧
      ¬Reports (noMessage fun read => read == 1) 0 .atomic ⟨{}, .indeterminate⟩ := by
  refine ⟨⟨oneMessage_healthy _, oneMessage_endsAt rfl, rfl, rfl, fun hReports => ?_⟩,
    fun _ => ⟨[], rfl, by simp⟩, ⟨nofun, .inr rfl⟩, rfl, fun hReports => ?_⟩
  · have hTaken := hReports.taken (by decide) ⟨_, rfl⟩
    exact absurd hTaken.1 (by decide)
  · exact (hReports.nothing rfl).2 rfl

end ReliableRDMA
