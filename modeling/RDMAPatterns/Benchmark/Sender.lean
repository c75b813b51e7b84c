import Mathlib.Logic.Function.Basic
import RDMAPatterns.Benchmark.Messages
import RDMAPatterns.Channels.Logs
import RDMAPatterns.Sequencer.NodeIDs

/-! The sender of the benchmark: a closed loop of requests, then one last message
to every receiver. -/
namespace BenchmarkSender

open Benchmark Channels NodeIDSequencer

/-- How `queryReceiverInformation` recognizes a receiver. All other nodes of the
experiment are senders. -/
def isReceiver (entry : NodeEntry) : Bool := entry.name == "receiver"

/-- What a run of the benchmark is given: the registrations in the order in which
the sequencer handles them, the number of requests and the random numbers of
each sender, the size of a response (`FLAGS_payloadSize`), the places of the
buffers, and the order in which the senders report to each receiver. -/
structure Experiment where
  verbs : Verbs
  registrations : List NodeIDRequest
  requests : Nat → Nat
  rand : Nat → Nat → Nat
  sizeofResponse : Nat
  respBufferSize : Nat
  reqBufferOffset : Nat → Nat
  respRDMAOffset : Nat → Nat
  connectedSenderIds : Nat → List Nat
  allConnected : ∀ receiver, (connectedSenderIds receiver).Perm
    ((register registrations).idsWhere fun entry => !isReceiver entry)

namespace Experiment

variable (x : Experiment)

def senderIds : List Nat := (register x.registrations).idsWhere fun entry => !isReceiver entry

def recvIds : List Nat := (register x.registrations).idsWhere isReceiver

/-- `FLAGS_totalSender`. -/
def expectedClients : Nat := x.senderIds.length

def pickedReceiverID (sender i : Nat) : Option Nat :=
  x.recvIds[x.rand sender i % x.recvIds.length]?

/-- The offset that the reply of `initPhase` names: the slot of the sender. -/
def msgOffset (sender receiver : Nat) : Nat :=
  x.reqBufferOffset receiver + sender * sizeofMessageBase

/-- The slot that an offset in the request buffer of a receiver belongs to. -/
def slotOf (receiver offset : Nat) : Nat :=
  (offset - x.reqBufferOffset receiver) / sizeofMessageBase

/-- The offset in a reply leads back to the slot of the sender. -/
theorem slotOf_msgOffset (sender receiver : Nat) :
    x.slotOf receiver (x.msgOffset sender receiver) = sender := by
  rw [slotOf, msgOffset, Nat.add_sub_cancel_left, sizeofMessageBase]
  omega

def expMsg (sender i receiver : Nat) : MessageBase where
  type := .expMsg
  msgId := i
  id := x.rand sender i % x.respBufferSize
  rdmaPtr := x.respRDMAOffset sender
  destinationNodeID := sender
  paddingDestNodeID := receiver
  paddingDestRDMA := x.msgOffset sender receiver

/-- `write` and `send` post a response with `IBV_SEND_INLINE`. -/
def RespondsInline : Prop := x.sizeofResponse < 220

instance : Decidable x.RespondsInline := inferInstanceAs (Decidable (_ < _))

/-- The other fields are whatever the memory held. Nobody reads them. -/
def finishedExperimentMsg : MessageBase := { type := .finishedExp }

end Experiment

/-- In front of request `i`, waiting for its response, or in `finalizePhase` in
front of the message to `recvIds[next]`. -/
inductive Control where
  | loop (i : Nat)
  | await (i receiver : Nat)
  | finalizePhase (next : Nat)
deriving DecidableEq, Repr

/-- `receives` and `completed` are the posted and the completed receives of each
connection. -/
structure Sender where
  control : Control := .loop 0
  responseArea : Response := {}
  receives : Nat → Nat := fun _ => 0
  completed : Nat → Nat := fun _ => 0

/-- Request `i` of `benchmarkPhase`. -/
def request (x : Experiment) (self i : Nat) (snd : Sender) : Option (Sender × Nat × MessageBase) :=
  (x.pickedReceiverID self i).map fun receiver =>
    ({ control := .await i receiver
       responseArea := { snd.responseArea with transferFlag := 0 }
       receives := match x.verbs.senderP with
        | .rq => Function.update snd.receives receiver (snd.receives receiver + 1)
        | _ => snd.receives
       completed := snd.completed }, receiver, x.expMsg self i receiver)

/-- One look for the response. -/
def awaitResponse (x : Experiment) (i receiver : Nat) (snd : Sender) : Option Sender :=
  match x.verbs.senderP with
  | .rq =>
      if 0 < snd.completed receiver then
        some { snd with
          control := .loop (i + 1)
          completed := Function.update snd.completed receiver (snd.completed receiver - 1) }
      else none
  | .buf =>
      if snd.responseArea.transferFlag = 1 then
        some { snd with
          control := .loop (i + 1), responseArea := { snd.responseArea with transferFlag := 0 } }
      else none
  | .srq => some { snd with control := .loop (i + 1) }

/-- One step, and the message it transfers. -/
def step (x : Experiment) (self : Nat) (snd : Sender) :
    Option (Sender × Option (Nat × MessageBase)) :=
  match snd.control with
  | .loop i =>
      if i < x.requests self then
        (request x self i snd).map fun (snd, receiver, m) => (snd, some (receiver, m))
      else some ({ snd with control := .finalizePhase 0 }, none)
  | .await i receiver => (awaitResponse x i receiver snd).map fun snd => (snd, none)
  | .finalizePhase next => x.recvIds[next]?.map fun receiver =>
      ({ snd with control := .finalizePhase (next + 1) },
        some (receiver, Experiment.finishedExperimentMsg))

/-- A response is written to the offset that the request named, or takes a posted
receive of the connection, whose buffer is the response area. -/
def responseArrives (x : Experiment) (self receiver : Nat) (snd : Sender) (answer : Answer) :
    Option Sender :=
  match x.verbs.receiverT with
  | .write =>
      if answer.rdmaPtr = x.respRDMAOffset self then
        some { snd with responseArea := answer.response }
      else some snd
  | .send =>
      if 0 < snd.receives receiver then
        some { snd with
          responseArea := answer.response
          receives := Function.update snd.receives receiver (snd.receives receiver - 1)
          completed := Function.update snd.completed receiver (snd.completed receiver + 1) }
      else none

def Control.awaits : Control → Nat → Bool
  | .await _ receiver, other => receiver = other
  | _, _ => false

@[simp] theorem Control.awaits_loop (i receiver : Nat) :
    (Control.loop i).awaits receiver = false := rfl

@[simp] theorem Control.awaits_await (i receiver other : Nat) :
    (Control.await i receiver).awaits other = decide (receiver = other) := rfl

@[simp] theorem Control.awaits_finalizePhase (next receiver : Nat) :
    (Control.finalizePhase next).awaits receiver = false := rfl

/-- The responses of a receiver that have arrived and have not been noticed. -/
def Sender.ready (x : Experiment) (snd : Sender) (receiver : Nat) : Nat :=
  match x.verbs.senderP with
  | .rq => snd.completed receiver
  | .buf => if snd.control.awaits receiver ∧ snd.responseArea.transferFlag = 1 then 1 else 0
  | .srq => 0

/-- The requests to a receiver among the first `n`. -/
def requestsTo (x : Experiment) (self receiver n : Nat) : List MessageBase :=
  ((List.range n).filter fun i => x.pickedReceiverID self i = some receiver).map
    fun i => x.expMsg self i receiver

/-- What a sender has sent to a receiver when it is at this point. -/
def sentTo (x : Experiment) (self receiver : Nat) : Control → List MessageBase
  | .loop i => requestsTo x self receiver i
  | .await i _ => requestsTo x self receiver (i + 1)
  | .finalizePhase next => requestsTo x self receiver (x.requests self) ++
      if receiver ∈ x.recvIds.take next then [Experiment.finishedExperimentMsg] else []

section Sent

variable {x : Experiment} {self receiver : Nat}

/-- One more request goes to the receiver that was drawn for it. -/
theorem requestsTo_succ (n : Nat) : requestsTo x self receiver (n + 1) =
    requestsTo x self receiver n ++
      if x.pickedReceiverID self n = some receiver then [x.expMsg self n receiver] else [] := by
  rw [requestsTo, List.range_succ, List.filter_append, List.map_append]
  congr 1
  by_cases hPicked : x.pickedReceiverID self n = some receiver
  · simp [hPicked]
  · simp [hPicked]

/-- A request names its sender as the destination of the response. -/
theorem mem_requestsTo {n : Nat} {m : MessageBase} (hMem : m ∈ requestsTo x self receiver n) :
    m.type = .expMsg ∧ m.destinationNodeID = self := by
  obtain ⟨i, _, rfl⟩ := List.mem_map.mp hMem
  exact ⟨rfl, rfl⟩

/-- The message numbers tell the requests apart. -/
theorem requestsTo_nodup (n : Nat) : (requestsTo x self receiver n).Nodup := by
  apply List.Nodup.map_on
  · intro i _ j _ hSame
    exact congrArg MessageBase.msgId hSame
  · exact List.nodup_range.filter _

/-- A sender sends requests, and last messages once it is in `finalizePhase`. -/
theorem mem_sentTo {control : Control} {m : MessageBase}
    (hMem : m ∈ sentTo x self receiver control) :
    m.type = .expMsg ∧ m.destinationNodeID = self ∨
      m.type = .finishedExp ∧ ∃ next, control = .finalizePhase next := by
  cases control with
  | loop i | await i _ => exact .inl (mem_requestsTo hMem)
  | finalizePhase next =>
      rw [sentTo, List.mem_append] at hMem
      rcases hMem with hRequest | hLast
      · exact .inl (mem_requestsTo hRequest)
      · split at hLast
        · obtain rfl := List.mem_singleton.mp hLast
          exact .inr ⟨rfl, next, rfl⟩
        · cases hLast

/-- The last message comes after all requests. -/
theorem sentTo_finished {control : Control} {m : MessageBase}
    (hMem : m ∈ sentTo x self receiver control) (hType : m.type = .finishedExp) :
    sentTo x self receiver control =
      requestsTo x self receiver (x.requests self) ++ [Experiment.finishedExperimentMsg] := by
  rcases mem_sentTo hMem with ⟨hRequest, _⟩ | ⟨_, next, rfl⟩
  · rw [hType] at hRequest
    cases hRequest
  · rw [sentTo] at hMem ⊢
    split
    case isTrue => rfl
    case isFalse hNotSent =>
      rw [if_neg hNotSent, List.append_nil] at hMem
      rw [(mem_requestsTo hMem).1] at hType
      cases hType

theorem sentTo_nodup (control : Control) : (sentTo x self receiver control).Nodup := by
  cases control with
  | loop i | await i _ => exact requestsTo_nodup _
  | finalizePhase next =>
      rw [sentTo]
      split
      · apply List.Nodup.append (requestsTo_nodup _) (List.nodup_singleton _)
        intro m hRequest hLast
        obtain rfl := List.mem_singleton.mp hLast
        cases (mem_requestsTo hRequest).1
      · rw [List.append_nil]
        exact requestsTo_nodup _

end Sent

section Steps

variable {x : Experiment} {self receiver : Nat} {snd next : Sender}
  {out : Option (Nat × MessageBase)}

/-- The four kinds of steps. None makes a response ready. -/
inductive Step (x : Experiment) (self : Nat) (snd next : Sender) :
    Option (Nat × MessageBase) → Prop where
  | request {i receiver : Nat} (hControl : snd.control = .loop i) (hMore : i < x.requests self)
      (hPicked : x.pickedReceiverID self i = some receiver)
      (hNext : next.control = .await i receiver) :
      Step x self snd next (some (receiver, x.expMsg self i receiver))
  | leave {i : Nat} (hControl : snd.control = .loop i) (hDone : x.requests self ≤ i)
      (hNext : next.control = .finalizePhase 0) : Step x self snd next none
  | noticed {i receiver : Nat} (hControl : snd.control = .await i receiver)
      (hNext : next.control = .loop (i + 1))
      (hReady : next.ready x receiver < snd.ready x receiver) : Step x self snd next none
  | finish {sent receiver : Nat} (hControl : snd.control = .finalizePhase sent)
      (hReceiver : x.recvIds[sent]? = some receiver)
      (hNext : next.control = .finalizePhase (sent + 1)) :
      Step x self snd next (some (receiver, Experiment.finishedExperimentMsg))

theorem awaitResponse_ready {i : Nat} (hControl : snd.control = .await i receiver)
    (hNext : awaitResponse x i receiver snd = some next) :
    next.control = .loop (i + 1) ∧ next.ready x receiver < snd.ready x receiver ∧
      ∀ other, next.ready x other ≤ snd.ready x other := by
  rw [awaitResponse] at hNext
  split at hNext
  case h_1 hP =>
    rw [Option.ite_none_right_eq_some] at hNext
    obtain ⟨hReady, hNext⟩ := hNext
    obtain rfl := Option.some.inj hNext
    refine ⟨rfl, ?_, ?_⟩
    · simp only [Sender.ready, hP, Function.update_self]
      omega
    · intro other
      by_cases hOther : other = receiver
      · simp [Sender.ready, hP, hOther]
      · simp [Sender.ready, hP, Function.update_of_ne hOther]
  case h_2 hP =>
    rw [Option.ite_none_right_eq_some] at hNext
    obtain ⟨hReady, hNext⟩ := hNext
    obtain rfl := Option.some.inj hNext
    refine ⟨rfl, ?_, ?_⟩
    · simp [Sender.ready, hP, hControl, Control.awaits, hReady]
    · intro other
      simp [Sender.ready, hP]
  case h_3 hP =>
    cases hVerbs : x.verbs with
    | _ => rw [hVerbs] at hP; cases hP

/-- A request makes no response ready. The flag in the response area is cleared first. -/
theorem request_ready {i : Nat} {m : MessageBase}
    (hNext : request x self i snd = some (next, receiver, m)) :
    x.pickedReceiverID self i = some receiver ∧ m = x.expMsg self i receiver ∧
      next.control = .await i receiver ∧ ∀ other, next.ready x other ≤ snd.ready x other := by
  obtain ⟨picked, hPicked, hPair⟩ := Option.map_eq_some_iff.mp hNext
  obtain ⟨rfl, hRest⟩ := Prod.mk.inj hPair
  obtain ⟨rfl, rfl⟩ := Prod.mk.inj hRest
  refine ⟨hPicked, rfl, rfl, ?_⟩
  intro other
  cases hP : x.verbs.senderP with
  | rq | buf | srq => simp [Sender.ready, hP]

theorem step_cases (hNext : step x self snd = some (next, out)) :
    Step x self snd next out ∧ ∀ other, next.ready x other ≤ snd.ready x other := by
  rw [step] at hNext
  split at hNext
  case h_1 i hControl =>
    split at hNext
    case isTrue hMore =>
      obtain ⟨⟨found, receiver, m⟩, hRequest, hPair⟩ := Option.map_eq_some_iff.mp hNext
      obtain ⟨rfl, rfl⟩ := Prod.mk.inj hPair
      obtain ⟨hPicked, rfl, hAwait, hReady⟩ := request_ready hRequest
      exact ⟨.request hControl hMore hPicked hAwait, hReady⟩
    case isFalse hDone =>
      obtain ⟨rfl, rfl⟩ := Prod.mk.inj (Option.some.inj hNext)
      refine ⟨.leave hControl (by omega) rfl, ?_⟩
      intro other
      cases hP : x.verbs.senderP with
      | rq | buf | srq => simp [Sender.ready, hP, Control.awaits]
  case h_2 i receiver hControl =>
    obtain ⟨found, hAwait, hPair⟩ := Option.map_eq_some_iff.mp hNext
    obtain ⟨rfl, rfl⟩ := Prod.mk.inj hPair
    obtain ⟨hLoop, hLess, hReady⟩ := awaitResponse_ready hControl hAwait
    exact ⟨.noticed hControl hLoop hLess, hReady⟩
  case h_3 sent hControl =>
    obtain ⟨receiver, hReceiver, hPair⟩ := Option.map_eq_some_iff.mp hNext
    obtain ⟨rfl, rfl⟩ := Prod.mk.inj hPair
    refine ⟨.finish hControl hReceiver rfl, ?_⟩
    intro other
    cases hP : x.verbs.senderP with
    | rq | buf | srq => simp [Sender.ready, hP, Control.awaits]

/-- The loop counter stays in its range. -/
def Control.Within (x : Experiment) (self : Nat) : Control → Prop
  | .loop i => i ≤ x.requests self
  | .await i _ => i < x.requests self
  | .finalizePhase _ => True

theorem Step.within (h : Step x self snd next out) (hWithin : snd.control.Within x self) :
    next.control.Within x self := by
  cases h with
  | request hControl hMore hPicked hNext =>
      rw [hNext]
      exact hMore
  | leave hControl hDone hNext =>
      rw [hNext]
      trivial
  | noticed hControl hNext hReady =>
      rw [hControl] at hWithin
      rw [hNext]
      exact hWithin
  | finish hControl hReceiver hNext =>
      rw [hNext]
      trivial

/-- A request that was sent is one of those that the sender has to send. -/
theorem request_of_sentTo {control : Control} (hWithin : control.Within x self) {m : MessageBase}
    (hMem : m ∈ sentTo x self receiver control) (hType : m.type = .expMsg) :
    ∃ i, i < x.requests self ∧ x.pickedReceiverID self i = some receiver := by
  have hFound : ∀ n, n ≤ x.requests self → m ∈ requestsTo x self receiver n →
      ∃ i, i < x.requests self ∧ x.pickedReceiverID self i = some receiver := by
    intro n hLe hRequest
    obtain ⟨i, hFiltered, _⟩ := List.mem_map.mp hRequest
    obtain ⟨hRange, hPicked⟩ := List.mem_filter.mp hFiltered
    exact ⟨i, Nat.lt_of_lt_of_le (List.mem_range.mp hRange) hLe, of_decide_eq_true hPicked⟩
  cases control with
  | loop i => exact hFound i hWithin hMem
  | await i _ => exact hFound (i + 1) hWithin hMem
  | finalizePhase next =>
      rw [sentTo, List.mem_append] at hMem
      rcases hMem with hRequest | hLast
      · exact hFound (x.requests self) (Nat.le_refl _) hRequest
      · split at hLast
        · obtain rfl := List.mem_singleton.mp hLast
          cases hType
        · cases hLast

/-- `finalizePhase` reaches each receiver once. -/
theorem mem_take_succ {sent picked : Nat} (hPicked : x.recvIds[sent]? = some picked) :
    picked ∉ x.recvIds.take sent ∧ ∀ other,
      other ∈ x.recvIds.take (sent + 1) ↔ other ∈ x.recvIds.take sent ∨ other = picked := by
  have hTake : x.recvIds.take (sent + 1) = x.recvIds.take sent ++ [picked] := by
    rw [List.take_add_one, hPicked]
    rfl
  have hNodup : (x.recvIds.take (sent + 1)).Nodup :=
    (idsWhere_nodup x.registrations isReceiver).sublist (List.take_sublist _ _)
  rw [hTake] at hNodup
  constructor
  · intro hMem
    exact (List.nodup_append.mp hNodup).2.2 picked hMem picked (List.mem_singleton_self _) rfl
  · intro other
    rw [hTake, List.mem_append, List.mem_singleton]

/-- A step sends what it transfers, and nothing else. -/
theorem Step.sentTo_eq (h : Step x self snd next out) (hWithin : snd.control.Within x self)
    (receiver : Nat) :
    sentTo x self receiver next.control =
      sentTo x self receiver snd.control ++ outgoing receiver out := by
  cases h with
  | @request i picked hControl hMore hPicked hNext =>
      rw [hControl, hNext, sentTo, sentTo, requestsTo_succ, hPicked, outgoing]
      by_cases hSame : picked = receiver
      · simp [hSame]
      · simp [hSame]
  | @leave i hControl hDone hNext =>
      rw [hControl] at hWithin
      have hAll : i = x.requests self := Nat.le_antisymm hWithin hDone
      rw [hControl, hNext, sentTo, sentTo, hAll, outgoing]
      simp
  | noticed hControl hNext =>
      rw [hControl, hNext, sentTo, sentTo, outgoing, List.append_nil]
  | @finish sent picked hControl hReceiver hNext =>
      obtain ⟨hFresh, hTake⟩ := mem_take_succ hReceiver
      rw [hControl, hNext, sentTo, sentTo, List.append_assoc, outgoing]
      congr 1
      by_cases hSame : picked = receiver
      · rw [if_pos ((hTake receiver).mpr (.inr hSame.symm)), if_neg (hSame ▸ hFresh)]
        simp [hSame]
      · have hOther : receiver ∈ x.recvIds.take (sent + 1) ↔ receiver ∈ x.recvIds.take sent := by
          rw [hTake]
          exact or_iff_left (Ne.symm hSame)
        simp [hOther, hSame]

/-- A response makes at most itself ready. -/
theorem responseArrives_ready {answer : Answer} (hNotReady : snd.ready x receiver = 0)
    (hNext : responseArrives x self receiver snd answer = some next) :
    next.control = snd.control ∧ next.ready x receiver ≤ 1 ∧
      ∀ other, other ≠ receiver → snd.control.awaits other = false →
        next.ready x other ≤ snd.ready x other := by
  rw [responseArrives] at hNext
  split at hNext
  case h_1 =>
    have hBuffer : next.control = snd.control ∧ next.completed = snd.completed := by
      split at hNext
      all_goals
        obtain rfl := Option.some.inj hNext
        exact ⟨rfl, rfl⟩
    obtain ⟨hControl, hCompleted⟩ := hBuffer
    refine ⟨hControl, ?_, ?_⟩
    · cases hP : x.verbs.senderP with
      | rq =>
          simp only [Sender.ready, hP] at hNotReady ⊢
          rw [hCompleted, hNotReady]
          exact Nat.zero_le 1
      | buf =>
          simp only [Sender.ready, hP]
          split
          all_goals omega
      | srq => simp [Sender.ready, hP]
    · intro other _ hAwaits
      cases hP : x.verbs.senderP with
      | rq => simp [Sender.ready, hP, hCompleted]
      | buf | srq => simp [Sender.ready, hP, hControl, hAwaits]
  case h_2 =>
    rw [Option.ite_none_right_eq_some] at hNext
    obtain ⟨_, hNext⟩ := hNext
    obtain rfl := Option.some.inj hNext
    refine ⟨rfl, ?_, ?_⟩
    · cases hP : x.verbs.senderP with
      | rq =>
          simp only [Sender.ready, hP, Function.update_self] at hNotReady ⊢
          omega
      | buf =>
          simp only [Sender.ready, hP]
          split
          all_goals omega
      | srq => simp [Sender.ready, hP]
    · intro other hOther hAwaits
      cases hP : x.verbs.senderP with
      | rq => simp [Sender.ready, hP, Function.update_of_ne hOther]
      | buf | srq => simp [Sender.ready, hP, hAwaits]

end Steps

end BenchmarkSender
