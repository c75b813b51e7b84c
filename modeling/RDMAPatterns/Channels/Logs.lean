import Mathlib.Algebra.GroupWithZero.Nat
import Mathlib.Data.List.Basic
import Mathlib.Logic.Function.Basic

/-! Channels between many parties, and logs in which every message is kept with
the party it came from. -/
namespace Channels

section Wires

variable {Party Message : Type*} [DecidableEq Party]

/-- What of a transfer goes to `destination`. -/
def outgoing (destination : Party) : Option (Party × Message) → List Message
  | some (other, m) => if other = destination then [m] else []
  | none => []

/-- Put a transfer behind what is on its connection already. -/
def enqueue (channel : Party × Party → List Message) (self : Party) :
    Option (Party × Message) → Party × Party → List Message
  | some (destination, m) =>
      Function.update channel (self, destination) (channel (self, destination) ++ [m])
  | none => channel

/-- What is sent comes behind what is on the channel. -/
theorem enqueue_apply (channel : Party × Party → List Message) (self : Party)
    (out : Option (Party × Message)) (source destination : Party) :
    enqueue channel self out (source, destination) = channel (source, destination) ++
      if source = self then outgoing destination out else [] := by
  cases out with
  | none => simp [enqueue, outgoing]
  | some transfer =>
      obtain ⟨other, m⟩ := transfer
      by_cases hSame : (source, destination) = (self, other)
      · obtain ⟨rfl, rfl⟩ := Prod.mk.inj hSame
        simp [enqueue, outgoing]
      · rw [enqueue, Function.update_of_ne hSame]
        by_cases hSource : source = self
        · have hOther : other ≠ destination := fun hEq => hSame (by rw [hSource, hEq])
          simp [outgoing, hOther]
        · simp [hSource]

end Wires

section Logs

variable {Party Message : Type*} [DecidableEq Party]

/-- What a log holds of one party. -/
def logOf (log : List (Party × Message)) (party : Party) : List Message :=
  (log.filter fun entry => entry.1 = party).map Prod.snd

/-- The messages of a party, in the order of the log. -/
theorem logOf_append (log more : List (Party × Message)) (party : Party) :
    logOf (log ++ more) party = logOf log party ++ logOf more party := by
  rw [logOf, List.filter_append, List.map_append]
  rfl

theorem logOf_cons (party : Party) (m : Message) (log : List (Party × Message)) (other : Party) :
    logOf ((party, m) :: log) other =
      if party = other then m :: logOf log other else logOf log other := by
  by_cases hOther : party = other
  · simp [logOf, hOther]
  · simp [logOf, hOther]

theorem logOf_singleton (party : Party) (m : Message) (other : Party) :
    logOf [(party, m)] other = if party = other then [m] else [] :=
  logOf_cons party m [] other

/-- A message is logged with the party it came from. -/
theorem mem_logOf {log : List (Party × Message)} {party : Party} {m : Message} :
    m ∈ logOf log party ↔ (party, m) ∈ log := by
  simp [logOf]

/-- A party is named once for each of its messages. -/
theorem count_parties (log : List (Party × Message)) (party : Party) :
    (log.map Prod.fst).count party = (logOf log party).length := by
  induction log with
  | nil => rfl
  | cons entry rest ih =>
      obtain ⟨source, m⟩ := entry
      rw [List.map_cons, List.count_cons, ih, logOf_cons]
      by_cases hSource : source = party
      · simp [hSource]
      · simp [hSource]

theorem logOf_filter (log : List (Party × Message)) (p : Message → Bool) (party : Party) :
    logOf (log.filter fun entry => p entry.2) party = (logOf log party).filter p := by
  rw [logOf, logOf, List.filter_map, List.filter_filter, List.filter_filter]
  congr 2
  funext entry
  exact Bool.and_comm _ _

theorem logOf_erase [DecidableEq Message] (log : List (Party × Message)) (party : Party)
    (m : Message) (other : Party) :
    logOf (log.erase (party, m)) other =
      if party = other then (logOf log other).erase m else logOf log other := by
  induction log with
  | nil => simp [logOf]
  | cons entry rest ih =>
      obtain ⟨source, first⟩ := entry
      by_cases hEntry : (source, first) = (party, m)
      · obtain ⟨rfl, rfl⟩ := Prod.mk.inj hEntry
        rw [List.erase_cons_head, logOf_cons]
        by_cases hOther : source = other
        · simp [hOther]
        · simp [hOther]
      · rw [List.erase_cons_tail (by simpa using hEntry), logOf_cons, logOf_cons, ih]
        by_cases hOther : party = other
        · by_cases hSource : source = other
          · have hFirst : first ≠ m := fun hEq => hEntry (by rw [hSource, hOther, hEq])
            simp [hOther, hSource, hFirst]
          · simp [hOther, hSource]
        · simp [hOther]

/-- Entries of different parties are different. -/
theorem nodup_of_logOf {log : List (Party × Message)}
    (hEach : ∀ party, (logOf log party).Nodup) : log.Nodup := by
  induction log with
  | nil => exact List.nodup_nil
  | cons entry rest ih =>
      obtain ⟨party, m⟩ := entry
      rw [List.nodup_cons]
      constructor
      · intro hMem
        have hOwn := hEach party
        rw [logOf_cons, if_pos rfl] at hOwn
        exact (List.nodup_cons.mp hOwn).1 (mem_logOf.mpr hMem)
      · apply ih
        intro other
        have hOther := hEach other
        rw [logOf_cons] at hOther
        split at hOther
        · exact (List.nodup_cons.mp hOther).2
        · exact hOther

/-- Count a log party by party. -/
theorem length_eq_sum {parties : List Party} (hParties : parties.Nodup)
    (log : List (Party × Message)) (hLog : ∀ entry ∈ log, entry.1 ∈ parties) :
    log.length = (parties.map fun party => (logOf log party).length).sum := by
  induction parties generalizing log with
  | nil =>
      have hNil : log = [] := by
        apply List.eq_nil_iff_forall_not_mem.mpr
        intro entry hEntry
        exact List.not_mem_nil (hLog entry hEntry)
      rw [hNil]
      rfl
  | cons party rest ih =>
      obtain ⟨hFresh, hRest⟩ := List.nodup_cons.mp hParties
      have hOthers := ih hRest (log.filter fun entry => !decide (entry.1 = party)) (by
        intro entry hEntry
        obtain ⟨hMem, hNe⟩ := List.mem_filter.mp hEntry
        rcases List.mem_cons.mp (hLog entry hMem) with hSame | hOther
        · simp [hSame] at hNe
        · exact hOther)
      have hSame : ∀ other ∈ rest,
          logOf (log.filter fun entry => !decide (entry.1 = party)) other = logOf log other := by
        intro other hOther
        rw [logOf, logOf, List.filter_filter]
        congr 1
        apply List.filter_congr
        intro entry _
        by_cases hEntry : entry.1 = other
        · have hNe : other ≠ party := fun hEq => hFresh (hEq ▸ hOther)
          simp [hEntry, hNe]
        · simp [hEntry]
      rw [List.map_cons, List.sum_cons,
        List.length_eq_length_filter_add (fun entry => decide (entry.1 = party)), hOthers,
        List.map_congr_left fun other hOther => congrArg List.length (hSame other hOther)]
      congr 1
      rw [logOf, List.length_map]

end Logs
end Channels
