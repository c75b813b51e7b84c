import Mathlib.Data.Nat.Find
import Mathlib.Order.Monotone.Basic
import RDMAPatterns.Sequencer.ReceiverInformation

/-! When the polling loop of `queryReceiverInformation` ends. It tests for the exact
number of receivers, and only between two replies. -/
namespace NodeIDSequencer.Registry

open Journal

/-- The lists of entries that one client is sent, poll after poll, while the
registry grows. -/
structure Polls where
  entries : Nat → List NodeEntry
  grows : ∀ i, entries i <+: entries (i + 1)

namespace Polls

variable (polls : Polls)

/-- The first replies. -/
def replies (n : Nat) : List Response :=
  (List.range n).map fun i => .getAllNodeIDs (polls.entries i) NO_ERROR

/-- The distinct addresses of receivers that the first replies show. -/
def shown : Nat → List String
  | 0 => []
  | n + 1 => (receiverIps (polls.entries n)).eraseDups

/-- Some poll falls into the time in which exactly so many are registered. -/
def ShowsExactly (expectedReceiver : Nat) : Prop :=
  ∃ n, (polls.shown n).length = expectedReceiver

/-- The loop ends at the first reply that shows enough receivers, and returns
exactly as many distinct addresses as it expects. -/
def EndsAtFirst (client : Client) (expectedReceiver : Nat) : Prop :=
  ∃ n result, expectedReceiver ≤ (polls.shown n).length ∧
    (∀ k < n, (polls.shown k).length < expectedReceiver ∧
      client.queryReceiverInformation expectedReceiver (polls.replies k) = none) ∧
    client.queryReceiverInformation expectedReceiver (polls.replies n) = some result ∧
    result.length = expectedReceiver ∧ result.Nodup

/-- At every loop test that is reached there are at most as many addresses as
expected. -/
def NeverBeyond (client : Client) (expectedReceiver : Nat) : Prop :=
  ∀ n, (∀ k < n, client.queryReceiverInformation expectedReceiver (polls.replies k) = none) →
    ((polls.replies n).foldl readReply []).length ≤ expectedReceiver

theorem replies_succ (n : Nat) :
    polls.replies (n + 1) = polls.replies n ++ [.getAllNodeIDs (polls.entries n) NO_ERROR] := by
  rw [replies, List.range_succ, List.map_append]
  rfl

/-- The registry only grows, so later polls show more. -/
theorem shown_mono (n : Nat) : polls.shown n <+: polls.shown (n + 1) := by
  cases n with
  | zero => exact List.nil_prefix
  | succ n => exact eraseDups_mono (receiverIps_mono (polls.grows n))

theorem shown_length_mono : Monotone fun n => (polls.shown n).length :=
  monotone_nat_of_le_succ fun n => (polls.shown_mono n).length_le

theorem nodup_shown (n : Nat) : (polls.shown n).Nodup := by
  cases n with
  | zero => exact List.nodup_nil
  | succ n => exact nodup_eraseDups _

/-- What the loop holds at a test is what the replies so far have shown. -/
theorem foldl_readReply (n : Nat) : (polls.replies n).foldl readReply [] = polls.shown n := by
  induction n with
  | zero => rfl
  | succ n ih =>
      rw [replies_succ, List.foldl_append, ih, List.foldl_cons, List.foldl_nil, readReply_eq]
      show gather (polls.shown n) (receiverIps (polls.entries n)) = _
      cases n with
      | zero => exact gather_eraseDups [] _
      | succ n =>
          rw [shown, gather_eraseDups]
          exact eraseDups_append_of_prefix (receiverIps_mono (polls.grows n))

end Polls

/-- One more reply matters only to a loop that is still polling. -/
theorem pollReceivers_append_singleton (expectedReceiver : Nat) (strings : List String)
    (replies : List Response) (rcvAny : Response) :
    pollReceivers expectedReceiver strings (replies ++ [rcvAny]) =
      (pollReceivers expectedReceiver strings replies).or
        (pollReceivers expectedReceiver ((replies ++ [rcvAny]).foldl readReply strings) []) := by
  induction replies generalizing strings with
  | nil =>
      simp only [List.nil_append, pollReceivers, List.foldl_cons, List.foldl_nil]
      split <;> rfl
  | cons reply rest ih =>
      by_cases hLength : strings.length ≠ expectedReceiver
      · simp only [List.cons_append, pollReceivers, if_pos hLength, List.foldl_cons]
        exact ih _
      · simp only [List.cons_append, pollReceivers, if_neg hLength]
        rfl

namespace Polls

variable (polls : Polls) {client : Client} {expectedReceiver n : Nat}

/-- The loop ends with the first poll that shows exactly what is expected, whatever
comes later. -/
theorem query_succ : client.queryReceiverInformation expectedReceiver (polls.replies (n + 1)) =
    (client.queryReceiverInformation expectedReceiver (polls.replies n)).or
      (if (polls.shown (n + 1)).length ≠ expectedReceiver then none
        else some (polls.shown (n + 1))) := by
  rw [Client.queryReceiverInformation_eq, Client.queryReceiverInformation_eq, replies_succ,
    pollReceivers_append_singleton, ← replies_succ, foldl_readReply, pollReceivers]

/-- The loop is still polling exactly if no test found the expected number. -/
theorem query_eq_none_iff :
    client.queryReceiverInformation expectedReceiver (polls.replies n) = none ↔
      ∀ k ≤ n, (polls.shown k).length ≠ expectedReceiver := by
  induction n with
  | zero =>
      rw [Client.queryReceiverInformation_eq, replies, List.range_zero, List.map_nil,
        pollReceivers]
      simp [shown]
  | succ n ih =>
      rw [query_succ, Option.or_eq_none_iff, ih, ite_eq_left_iff]
      constructor
      · rintro ⟨hBefore, hHere⟩ k hK
        rcases Nat.lt_or_eq_of_le hK with hLt | rfl
        · exact hBefore k (by omega)
        · intro hLength
          cases hHere (by simpa using hLength)
      · intro hAll
        refine ⟨fun k hK => hAll k (by omega), fun hLength => ?_⟩
        exact absurd (Decidable.not_not.mp hLength) (hAll (n + 1) (Nat.le_refl _))

/-- The first test that finds the expected number ends the loop. -/
theorem query_eq_some (hBefore : ∀ k < n, (polls.shown k).length ≠ expectedReceiver)
    (hHere : (polls.shown n).length = expectedReceiver) :
    client.queryReceiverInformation expectedReceiver (polls.replies n) =
      some (polls.shown n) := by
  cases n with
  | zero =>
      rw [Client.queryReceiverInformation_eq, replies, List.range_zero, List.map_nil,
        pollReceivers]
      exact if_neg (Decidable.not_not.mpr hHere)
  | succ n =>
      have hPolling : client.queryReceiverInformation expectedReceiver (polls.replies n) = none :=
        polls.query_eq_none_iff.mpr fun k hK => hBefore k (by omega)
      rw [query_succ, hPolling, Option.none_or, if_neg (Decidable.not_not.mpr hHere)]

/-- If some poll shows exactly the expected number, the loop ends at the first such
poll. -/
theorem ShowsExactly.endsAtFirst {polls : Polls} (h : polls.ShowsExactly expectedReceiver)
    (client : Client) : polls.EndsAtFirst client expectedReceiver := by
  classical
  have hBefore : ∀ k < Nat.find h, (polls.shown k).length ≠ expectedReceiver :=
    fun k hK => Nat.find_min h hK
  have hHere := Nat.find_spec h
  refine ⟨Nat.find h, polls.shown (Nat.find h), hHere.ge, ?_,
    polls.query_eq_some hBefore hHere, hHere, polls.nodup_shown _⟩
  intro k hK
  have hLe := polls.shown_length_mono (Nat.le_of_lt hK)
  refine ⟨Nat.lt_of_le_of_ne (hLe.trans hHere.le) (hBefore k hK), ?_⟩
  exact polls.query_eq_none_iff.mpr fun l hL => hBefore l (Nat.lt_of_le_of_lt hL hK)

/-- If some poll shows exactly the expected number, the loop never waits beyond the poll
that shows enough. -/
theorem ShowsExactly.neverBeyond {polls : Polls} (h : polls.ShowsExactly expectedReceiver)
    (client : Client) : polls.NeverBeyond client expectedReceiver := by
  obtain ⟨m, hLength⟩ := h
  intro n hPolling
  rw [polls.foldl_readReply, ← hLength]
  -- A test behind the one that finds the expected number is never reached.
  have hLe : n ≤ m := by
    by_contra hBehind
    have hStill := hPolling m (by omega)
    exact polls.query_eq_none_iff.mp hStill m (Nat.le_refl _) hLength
  exact polls.shown_length_mono hLe

/-- If it never waits beyond that poll, no poll has skipped the number. -/
theorem NeverBeyond.showsExactly {polls : Polls} (h : polls.NeverBeyond client expectedReceiver)
    (hEnough : ∃ n, expectedReceiver ≤ (polls.shown n).length) :
    polls.ShowsExactly expectedReceiver := by
  classical
  have hFew : ∀ k < Nat.find hEnough, (polls.shown k).length < expectedReceiver :=
    fun k hK => Nat.lt_of_not_le (Nat.find_min hEnough hK)
  have hAtMost := h (Nat.find hEnough) fun k hK => polls.query_eq_none_iff.mpr
    fun l hL => Nat.ne_of_lt (hFew l (Nat.lt_of_le_of_lt hL hK))
  rw [polls.foldl_readReply] at hAtMost
  exact ⟨Nat.find hEnough, Nat.le_antisymm hAtMost (Nat.find_spec hEnough)⟩

/-- A loop that ever returns has seen exactly the expected number. -/
theorem showsExactly_of_query {result : List String}
    (h : client.queryReceiverInformation expectedReceiver (polls.replies n) = some result) :
    polls.ShowsExactly expectedReceiver := by
  by_contra hNever
  have hPolling : client.queryReceiverInformation expectedReceiver (polls.replies n) = none :=
    polls.query_eq_none_iff.mpr fun k _ hLength => hNever ⟨k, hLength⟩
  rw [hPolling] at h
  cases h

end Polls

/-- In a registry that comes to have enough receivers, the discovery ends as it
should, or ends at all, exactly if some poll finds neither fewer nor more. -/
theorem discovery_ends_iff (client : Client) (polls : Polls) (expectedReceiver : Nat)
    (hEnough : ∃ n, expectedReceiver ≤ (polls.shown n).length) :
    (polls.EndsAtFirst client expectedReceiver ↔ polls.ShowsExactly expectedReceiver) ∧
      (polls.NeverBeyond client expectedReceiver ↔ polls.ShowsExactly expectedReceiver) ∧
      ((∃ n result, client.queryReceiverInformation expectedReceiver (polls.replies n) =
        some result) ↔ polls.ShowsExactly expectedReceiver) := by
  refine ⟨⟨?_, fun h => h.endsAtFirst client⟩, ⟨?_, fun h => h.neverBeyond client⟩, ?_, ?_⟩
  · intro ⟨n, result, _, _, hReturns, _⟩
    exact polls.showsExactly_of_query hReturns
  · intro hNever
    exact hNever.showsExactly hEnough
  · intro ⟨n, result, hReturns⟩
    exact polls.showsExactly_of_query hReturns
  · intro h
    obtain ⟨n, result, _, _, hReturns, _⟩ := h.endsAtFirst client
    exact ⟨n, result, hReturns⟩

/-- One receiver is registered at the first poll of a client, and two more come
before its second. -/
def lateTwo : Polls where
  entries i := [⟨"10.0.0.1:5000", "receiver", 0, .server⟩, ⟨"10.0.0.2:5000", "receiver", 1, .server⟩,
    ⟨"10.0.0.3:5000", "receiver", 2, .server⟩].take (2 * i + 1)
  grows i := List.take_prefix_take_left (by omega)

theorem discovery_ends_iff_lateTwo :
    (∃ result, Client.sender.queryReceiverInformation 3 (lateTwo.replies 2) = some result ∧
      result.length = 3) ∧ lateTwo.EndsAtFirst .dispatcher 3 := by
  have hEnds := discovery_ends_iff .dispatcher lateTwo 3 ⟨2, by decide⟩
  exact ⟨⟨_, rfl, rfl⟩, hEnds.1.mpr ⟨2, rfl⟩⟩

/-- A client that expects two of them polls for ever. -/
theorem discovery_never_ends_lateTwo :
    2 ≤ (lateTwo.shown 2).length ∧
      (∀ n, Client.sender.queryReceiverInformation 2 (lateTwo.replies n) = none) ∧
      ¬lateTwo.EndsAtFirst .sender 2 ∧ ¬lateTwo.NeverBeyond .sender 2 := by
  have hPolling (n : Nat) :
      Client.sender.queryReceiverInformation 2 (lateTwo.replies n) = none := by
    refine lateTwo.query_eq_none_iff.mpr fun k _ => ?_
    match k with
    | 0 => decide
    | 1 => decide
    | k + 2 =>
        have hAll : lateTwo.entries (k + 1) = lateTwo.entries 1 :=
          List.take_of_length_le (show 3 ≤ 2 * (k + 1) + 1 by omega)
        rw [Polls.shown, hAll]
        decide
  refine ⟨by decide, hPolling, ?_, ?_⟩
  · intro ⟨n, result, _, _, hReturns, _⟩
    rw [hPolling] at hReturns
    cases hReturns
  · intro hNever
    exact absurd (hNever 2 fun k _ => hPolling k) (by decide)

end NodeIDSequencer.Registry
