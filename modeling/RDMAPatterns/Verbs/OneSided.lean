import RDMAPatterns.Accesses.Footprints
import RDMAPatterns.Bytes.Words
import RDMAPatterns.Memory.LocalAlloc

/-! The one-sided operations of `ReliableRDMA`: writes, reads and atomics on the
registered buffer at the other end. A queue pair performs its requests in the
order in which they were posted; requests of different queue pairs interleave. -/
namespace OneSided

open Accesses BaseRDMA Transition

/-- The fields of a posted `ibv_send_wr`, and for a write the bytes that its
`ibv_sge` describes. -/
inductive Access where
  | rdmaWrite (remoteAddr : Nat) (data : List UInt8)
  | rdmaRead (remoteAddr length : Nat)
  | atomicFetchAndAdd (remoteAddr compareAdd : Nat)
  | atomicCmpAndSwp (remoteAddr compareAdd swap : Nat)
deriving DecidableEq, Repr

section Calls

-- `buffer` is `remoteConn.buffer`, the start of the buffer at the other end
variable (buffer offset : Nat)

/-- `remoteConn.buffer + offset`, in 64 bits. -/
def remoteAddr : Nat := sizeT (buffer + offset)

/-- `sge.length` has 32 bits. The bytes are those at the time of the call. Below
220 bytes the request takes them with it (`IBV_SEND_INLINE`). A longer one is read
when it is performed, and it is this one if the caller leaves the bytes alone
until then. -/
def write (data : List UInt8) : Access :=
  .rdmaWrite (remoteAddr buffer offset) (data.take (data.length % 2 ^ 32))

def read (size : Nat) : Access := .rdmaRead (remoteAddr buffer offset) (size % 2 ^ 32)

def requestRead (size : Nat) : Access := read buffer offset size

/-- The form without a value adds `1ULL`. -/
def fetchAndAdd : Access := .atomicFetchAndAdd (remoteAddr buffer offset) 1

/-- The form with `value_to_add`. -/
def fetchAndAddValue (valueToAdd : Nat) : Access :=
  .atomicFetchAndAdd (remoteAddr buffer offset) valueToAdd

/-- Both values are `int`, and are cast to `uint64_t`. -/
def compareAndSwap (toCompare toSwap : Int) : Access :=
  .atomicCmpAndSwp (remoteAddr buffer offset) (sizeTOfDiff toCompare) (sizeTOfDiff toSwap)

end Calls

/-- What arrives in local memory: nothing, the bytes read, or the word that an
atomic operation found. -/
inductive Arrived where
  | nothing
  | bytes (data : List UInt8)
  | word (value : Nat)
deriving DecidableEq, Repr

/-- A request that was performed. -/
structure Completion where
  access : Access
  arrived : Arrived
deriving DecidableEq, Repr

def Access.addr : Access → Nat
  | .rdmaWrite remoteAddr _ | .rdmaRead remoteAddr _ => remoteAddr
  | .atomicFetchAndAdd remoteAddr _ | .atomicCmpAndSwp remoteAddr _ _ => remoteAddr

/-- Atomic operations work on eight bytes. -/
def Access.length : Access → Nat
  | .rdmaWrite _ data => data.length
  | .rdmaRead _ length => length
  | .atomicFetchAndAdd _ _ | .atomicCmpAndSwp _ _ _ => 8

def Access.touches (access : Access) (x : Nat) : Prop :=
  access.addr ≤ x ∧ x < access.addr + access.length

instance (access : Access) (x : Nat) : Decidable (access.touches x) :=
  inferInstanceAs (Decidable (_ ∧ _))

/-- What the hardware at the other end does. -/
def Access.perform (mem : Nat → UInt8) : Access → Arrived × (Nat → UInt8)
  | .rdmaWrite remoteAddr data => (.nothing, Bytes.write mem remoteAddr data)
  | .rdmaRead remoteAddr length => (.bytes (Bytes.read mem remoteAddr length), mem)
  | .atomicFetchAndAdd remoteAddr compareAdd =>
      let old := Bytes.load mem remoteAddr 8
      (.word old, Bytes.store mem remoteAddr 8 (old + compareAdd))
  | .atomicCmpAndSwp remoteAddr compareAdd swap =>
      let old := Bytes.load mem remoteAddr 8
      (.word old, if old = compareAdd then Bytes.store mem remoteAddr 8 swap else mem)

theorem Access.perform_frame (access : Access) (mem : Nat → UInt8) {x : Nat}
    (h : ¬access.touches x) : (access.perform mem).2 x = mem x := by
  cases access with
  | rdmaWrite remoteAddr data => exact Bytes.write_outside h
  | rdmaRead remoteAddr length => rfl
  | atomicFetchAndAdd remoteAddr compareAdd => exact Bytes.store_outside h
  | atomicCmpAndSwp remoteAddr compareAdd swap =>
      simp only [perform]
      split
      · exact Bytes.store_outside h
      · rfl

theorem Access.perform_agree (access : Access) (mem other : Nat → UInt8)
    (h : ∀ x, access.touches x → mem x = other x) :
    (access.perform mem).1 = (access.perform other).1 ∧
      ∀ x, access.touches x → (access.perform mem).2 x = (access.perform other).2 x := by
  cases access with
  | rdmaWrite remoteAddr data =>
      exact ⟨rfl, fun x hx => Bytes.write_congr hx.1 hx.2⟩
  | rdmaRead remoteAddr length =>
      have hRead : Bytes.read mem remoteAddr length = Bytes.read other remoteAddr length :=
        Bytes.read_congr fun x hFirst hLast => h x ⟨hFirst, hLast⟩
      exact ⟨by simp only [perform, hRead], h⟩
  | atomicFetchAndAdd remoteAddr compareAdd =>
      have hLoad : Bytes.load mem remoteAddr 8 = Bytes.load other remoteAddr 8 :=
        Bytes.load_congr fun x hFirst hLast => h x ⟨hFirst, hLast⟩
      simp only [perform, hLoad]
      exact ⟨trivial, fun x hx => Bytes.store_congr hx.1 hx.2⟩
  | atomicCmpAndSwp remoteAddr compareAdd swap =>
      have hLoad : Bytes.load mem remoteAddr 8 = Bytes.load other remoteAddr 8 :=
        Bytes.load_congr fun x hFirst hLast => h x ⟨hFirst, hLast⟩
      simp only [perform, hLoad]
      refine ⟨trivial, fun x hx => ?_⟩
      split
      · exact Bytes.store_congr hx.1 hx.2
      · exact h x hx

/-- The accesses as operations on the bytes at their addresses. -/
def semantics : Semantics Nat UInt8 Access Completion where
  footprint access := {x | access.touches x}
  perform access mem := (⟨access, (access.perform mem).1⟩, (access.perform mem).2)
  frame access mem _ hx := access.perform_frame mem hx
  agree access mem other h := by
    obtain ⟨hArrived, hAfter⟩ := access.perform_agree mem other h
    exact ⟨by rw [hArrived], hAfter⟩

/-- The registered buffer of one node, and the queue pairs that lead to it: the
requests posted, oldest first, and those performed. -/
structure Network (Owner : Type*) where
  bytes : Nat → UInt8 := fun _ => 0
  posted : Owner → List Access := fun _ => []
  completions : Owner → List Completion := fun _ => []

inductive Action (Owner : Type*) where
  | post (owner : Owner) (access : Access)
  | perform (owner : Owner)
deriving DecidableEq, Repr

variable {Owner : Type*} [DecidableEq Owner]

def next (s : Network Owner) : Action Owner → Option (Network Owner)
  | .post owner access =>
      some { s with posted := Function.update s.posted owner (s.posted owner ++ [access]) }
  | .perform owner =>
      match s.posted owner with
      | [] => none
      | access :: rest =>
          some {
            bytes := (access.perform s.bytes).2
            posted := Function.update s.posted owner rest
            completions := Function.update s.completions owner
              (s.completions owner ++ [⟨access, (access.perform s.bytes).1⟩]) }

variable (Owner) in
/-- Any number of queue pairs to one buffer. -/
def networkMachine (bytes : Nat → UInt8) : Machine (Network Owner) (Action Owner) where
  init := { bytes := bytes }
  next := next

/-- What a step does: a request joins a queue, or the oldest one of a queue is
performed. -/
inductive Step (s : Network Owner) : Action Owner → Network Owner → Prop where
  | posted (owner : Owner) (access : Access) :
      Step s (.post owner access)
        { s with posted := Function.update s.posted owner (s.posted owner ++ [access]) }
  | performed (owner : Owner) (access : Access) (rest : List Access)
      (hPosted : s.posted owner = access :: rest) :
      Step s (.perform owner)
        { bytes := (access.perform s.bytes).2
          posted := Function.update s.posted owner rest
          completions := Function.update s.completions owner
            (s.completions owner ++ [⟨access, (access.perform s.bytes).1⟩]) }

theorem step_cases {s t : Network Owner} {a : Action Owner} (hNext : next s a = some t) :
    Step s a t := by
  cases a with
  | post owner access =>
      obtain rfl := Option.some.inj hNext
      exact .posted owner access
  | perform owner =>
      rw [next] at hNext
      split at hNext
      · cases hNext
      · case h_2 access rest hPosted =>
        obtain rfl := Option.some.inj hNext
        exact .performed owner access rest hPosted

end OneSided
