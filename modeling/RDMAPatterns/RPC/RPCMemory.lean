import Mathlib.Algebra.GroupWithZero.Nat
import Mathlib.Logic.Function.Basic
import RDMAPatterns.Journal.Window
import RDMAPatterns.Transition.Runs

/-! `RPCVoidHandlerThread` and the `RPCMemory` it takes its buffers from. The
thread never asks which buffer a completion is about: it counts on its own. -/
namespace RPCVoidHandlerThread

open Journal Transition

/-- The members of `RPCMemory`. The index is a `uint32_t`. -/
structure RPCMemory where
  localBuffer : Nat
  msgSize : Nat
  maxNumberMsgs : Nat
  index : Nat := 0
deriving DecidableEq, Repr

/-- The address of a slot of the buffer. -/
def RPCMemory.pointer (mem : RPCMemory) (slot : Nat) : Nat :=
  mem.localBuffer + mem.msgSize * slot

/-- `RPCMemory::getNext`. The first result is the slot the pointer leads to. -/
def RPCMemory.getNext (mem : RPCMemory) : Nat × RPCMemory :=
  (mem.index % mem.maxNumberMsgs, { mem with index := (mem.index + 1) % 2 ^ 32 })

/-- Where the thread is: in front of iteration `i` of `initMemory`, in front of
`pollReceiveSRQ`, or in the handler with a slot. -/
inductive Control where
  | initMemory (i : Nat)
  | run
  | handling (message : Nat)
deriving DecidableEq, Repr

/-- A call of `handleRDMARPCVoid`: the slot the message was received into, the slot
and the pointer that were passed, and the number of the message found there. -/
structure Handed where
  received : Nat
  passed : Nat
  pointer : Nat
  content : Option Nat
deriving DecidableEq, Repr

/-- `posted` and `completed` are the receive queue and its completions, oldest
first, as slots. `buffer` holds the number of the last message in each slot. -/
structure State where
  rpcMemory : RPCMemory
  control : Control := .initMemory 0
  posted : List Nat := []
  completed : List Nat := []
  buffer : Nat → Option Nat := fun _ => none
  arrivals : Nat := 0
  handed : List Handed := []

inductive Operation where
  | thread
  | arrive
deriving DecidableEq, Repr

/-- One iteration of `initMemory`, or one of the two halves of an iteration of
`run`. Polling an empty completion queue is no step. -/
def threadStep (s : State) : Option State :=
  match s.control with
  | .initMemory i =>
      if i < s.rpcMemory.maxNumberMsgs then
        let (ptr, rpcMemory) := s.rpcMemory.getNext
        some { s with
          rpcMemory := rpcMemory, posted := s.posted ++ [ptr], control := .initMemory (i + 1) }
      else some { s with control := .run }
  | .run =>
      match s.completed with
      | [] => none
      | received :: completed =>
          let (message, rpcMemory) := s.rpcMemory.getNext
          let handed := ⟨received, message, s.rpcMemory.pointer message, s.buffer message⟩
          some { s with
            rpcMemory := rpcMemory, completed := completed, control := .handling message
            handed := s.handed ++ [handed] }
  | .handling message => some { s with posted := s.posted ++ [message], control := .run }

/-- The next message takes the oldest posted receive. -/
def arrive (s : State) : Option State :=
  match s.posted with
  | [] => none
  | slot :: posted =>
      some { s with
        posted := posted, completed := s.completed ++ [slot]
        buffer := Function.update s.buffer slot (some s.arrivals), arrivals := s.arrivals + 1 }

def next (s : State) : Operation → Option State
  | .thread => threadStep s
  | .arrive => arrive s

/-- The thread from its constructor on, under any arrivals. -/
def rpcMachine (rpcMemory : RPCMemory) : Machine State Operation where
  init := { rpcMemory := { rpcMemory with index := 0 } }
  next := next

/-- The thread and the receive queue agree: the handler gets the pointer to the
message, every message once and in order, and no slot is posted twice or before
its message was handled. -/
structure Lockstep (s : State) : Prop where
  own : ∀ entry ∈ s.handed,
    entry.passed = entry.received ∧ entry.pointer = s.rpcMemory.pointer entry.received
  once : s.handed.map Handed.content = (List.range s.handed.length).map some
  apart : s.posted.Nodup
  handled : ∀ slot ∈ s.posted, slot ∉ s.completed ∧ s.control ≠ .handling slot

/-- The slot that call number `c` of `getNext` returns. -/
def slotAt (n c : Nat) : Nat := c % 2 ^ 32 % n

/-- The counter has not wrapped inside the buffer: it never does, or not yet. -/
def InStep (n handled : Nat) : Prop := n ∣ 2 ^ 32 ∨ n + handled ≤ 2 ^ 32

section Slots

variable {n c i j served : Nat}

theorem slotAt_eq (h : InStep n served) (hLt : c < n + served) : slotAt n c = c % n := by
  rcases h with hDvd | hFew
  · exact Nat.mod_mod_of_dvd c hDvd
  · rw [slotAt, Nat.mod_eq_of_lt (show c < 2 ^ 32 by omega)]

/-- The handler's call for message `c` returns the slot that was posted for it. -/
theorem slotAt_add (h : InStep n served) (hLt : c < served) : slotAt n (n + c) = slotAt n c := by
  rw [slotAt_eq h (by omega), slotAt_eq h (by omega), Nat.add_mod_left]

/-- Calls that are less than a round apart return different slots. -/
theorem slotAt_ne (h : InStep n served) (hIJ : i < j) (hNear : j < n + i) (hLt : j < n + served) :
    slotAt n i ≠ slotAt n j := by
  rw [slotAt_eq h (by omega), slotAt_eq h hLt]
  intro hSame
  have hDvd : n ∣ j - i :=
    Nat.dvd_of_mod_eq_zero (Nat.sub_mod_eq_zero_of_mod_eq hSame.symm)
  have hLe : n ≤ j - i := Nat.le_of_dvd (by omega) hDvd
  omega

/-- The first message that is handled after the counter wrapped was received elsewhere. -/
theorem slotAt_wrap (hPos : 1 ≤ n) (hSmall : n < 2 ^ 32) (hDvd : ¬n ∣ 2 ^ 32) :
    slotAt n (n + (2 ^ 32 - n)) ≠ slotAt n (2 ^ 32 - n) := by
  intro hSame
  rw [show n + (2 ^ 32 - n) = 2 ^ 32 by omega, slotAt, slotAt, Nat.mod_self, Nat.zero_mod,
    Nat.mod_eq_of_lt (show 2 ^ 32 - n < 2 ^ 32 by omega)] at hSame
  have hRest : n ∣ 2 ^ 32 - n := Nat.dvd_of_mod_eq_zero hSame.symm
  have hSum : n ∣ 2 ^ 32 - n + n := Nat.dvd_add hRest (Nat.dvd_refl n)
  rw [Nat.sub_add_cancel (Nat.le_of_lt hSmall)] at hSum
  exact hDvd hSum

end Slots
end RPCVoidHandlerThread
