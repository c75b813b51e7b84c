import Mathlib.Algebra.BigOperators.Group.List.Basic
import RDMAPatterns.Verbs.OneSided

/-! Words that several nodes change with `fetchAndAdd` and `compareAndSwap`. The
operations on one word take effect one after the other, whichever queue pairs
they come through, and each returns the word that the ones before it left. -/
namespace OneSided

open BaseRDMA Transition

/-- The eight bytes of the word at an address. -/
def InWord (addr x : Nat) : Prop := addr ≤ x ∧ x < addr + 8

def Network.word {Owner : Type*} (s : Network Owner) (addr : Nat) : Nat := Bytes.load s.bytes addr 8

/-- The access is an atomic operation on the word at `addr`. -/
def Access.atomicOn (addr : Nat) : Access → Bool
  | .atomicFetchAndAdd remoteAddr _ | .atomicCmpAndSwp remoteAddr _ _ => remoteAddr = addr
  | .rdmaWrite _ _ | .rdmaRead _ _ => false

/-- What an atomic operation makes of a word. -/
def Access.effect (word : Nat) : Access → Nat
  | .atomicFetchAndAdd _ compareAdd => (word + compareAdd) % 2 ^ 64
  | .atomicCmpAndSwp _ compareAdd swap => if word = compareAdd then swap % 2 ^ 64 else word
  | .rdmaWrite _ _ | .rdmaRead _ _ => word

/-- The access is an atomic operation on the word, or leaves its bytes alone. -/
def Access.Spares (addr : Nat) (access : Access) : Prop :=
  access.atomicOn addr = true ∨ (∃ from_ length, access = .rdmaRead from_ length) ∨
    ∀ x, access.touches x → ¬InWord addr x

/-- A word of eight bytes is read as it was written, modulo its size. -/
theorem store_eight (mem : Nat → UInt8) (addr value : Nat) :
    Bytes.load (Bytes.store mem addr 8 value) addr 8 = value % 2 ^ 64 := Bytes.load_store ..

theorem load_eight_lt (mem : Nat → UInt8) (addr : Nat) : Bytes.load mem addr 8 < 2 ^ 64 :=
  Bytes.load_lt mem addr 8

/-- An operation on the word returns it and changes it by its effect. -/
theorem Access.perform_atomicOn {addr : Nat} {access : Access} (h : access.atomicOn addr = true)
    (mem : Nat → UInt8) :
    (access.perform mem).1 = .word (Bytes.load mem addr 8) ∧
      Bytes.load (access.perform mem).2 addr 8 = access.effect (Bytes.load mem addr 8) := by
  cases access with
  | rdmaWrite remoteAddr data | rdmaRead remoteAddr length => cases h
  | atomicFetchAndAdd remoteAddr compareAdd =>
      obtain rfl : remoteAddr = addr := by simpa [atomicOn] using h
      exact ⟨rfl, store_eight ..⟩
  | atomicCmpAndSwp remoteAddr compareAdd swap =>
      obtain rfl : remoteAddr = addr := by simpa [atomicOn] using h
      refine ⟨rfl, ?_⟩
      simp only [perform, effect]
      split
      · exact store_eight ..
      · rfl

/-- Any other access that spares the word leaves it as it is. -/
theorem Access.perform_spares {addr : Nat} {access : Access} (hSpares : access.Spares addr)
    (hOther : access.atomicOn addr = false) (mem : Nat → UInt8) :
    Bytes.load (access.perform mem).2 addr 8 = Bytes.load mem addr 8 := by
  rcases hSpares with hAtomic | ⟨remoteAddr, length, rfl⟩ | hApart
  · rw [hOther] at hAtomic
    cases hAtomic
  · rfl
  · apply Bytes.load_congr
    intro x hFirst hLast
    exact access.perform_frame mem fun hTouches => hApart x hTouches ⟨hFirst, hLast⟩

/-- An operation on the word that was performed, by whom, and what it found. -/
structure Taken (Owner : Type*) where
  owner : Owner
  access : Access
  old : Nat
deriving DecidableEq, Repr

variable {Owner : Type*}

def takenAt (addr : Nat) : Network Owner × Action Owner → Option (Taken Owner)
  | (s, .perform owner) =>
      match s.posted owner with
      | access :: _ => if access.atomicOn addr then some ⟨owner, access, s.word addr⟩ else none
      | [] => none
  | (_, .post _ _) => none

/-- The operations on the word in the order in which they were performed. -/
def taken (addr : Nat) (visits : List (Network Owner × Action Owner)) : List (Taken Owner) :=
  visits.filterMap (takenAt addr)

/-- The word after these operations. -/
def after (word : Nat) (ops : List (Taken Owner)) : Nat :=
  ops.foldl (fun word op => op.access.effect word) word

@[simp] theorem after_append (word : Nat) (ops : List (Taken Owner)) (op : Taken Owner) :
    after word (ops ++ [op]) = op.access.effect (after word ops) := by
  simp [after, List.foldl_append]

/-- The words that atomic operations on this word returned to an owner. -/
def fetched (addr : Nat) (completions : List Completion) : List Nat :=
  completions.filterMap fun c =>
    match c.access.atomicOn addr, c.arrived with
    | true, .word value => some value
    | _, _ => none

/-- Every request of the run that is posted meets `P`. -/
def EveryPost (P : Access → Prop) (visits : List (Network Owner × Action Owner)) : Prop :=
  ∀ visit ∈ visits, ∀ owner access, visit.2 = .post owner access → P access

/-- What holds of all requests of a run holds of those before its last step. -/
theorem EveryPost.prior {P : Access → Prop} {visits : List (Network Owner × Action Owner)}
    {visit : Network Owner × Action Owner} (h : EveryPost P (visits ++ [visit])) :
    EveryPost P visits := fun found hFound => h found (List.mem_append_left _ hFound)

variable [DecidableEq Owner] {bytes : Nat → UInt8} {addr : Nat}
  {visits : List (Network Owner × Action Owner)} {s : Network Owner}

/-- What holds of every posted request holds of those that wait in a queue. -/
theorem posted_of_everyPost {P : Access → Prop}
    (run : (networkMachine Owner bytes).RunsTo visits s) (hPosts : EveryPost P visits) :
    ∀ owner, ∀ access ∈ s.posted owner, P access := by
  induction run with
  | zero =>
      intro owner access hAccess
      cases hAccess
  | @succ visits s t a prior last ih =>
      have hPrior := ih hPosts.prior
      intro owner access hAccess
      cases step_cases last with
      | posted poster new =>
          by_cases hOwner : owner = poster
          · subst hOwner
            simp only [Function.update_self, List.mem_append] at hAccess
            rcases hAccess with hOld | hNew
            · exact hPrior owner access hOld
            · obtain rfl := List.mem_singleton.mp hNew
              exact hPosts (s, .post owner access) (by simp) owner access rfl
          · simp only [Function.update_of_ne hOwner] at hAccess
            exact hPrior owner access hAccess
      | performed performer first rest hPosted =>
          by_cases hOwner : owner = performer
          · subst hOwner
            simp only [Function.update_self] at hAccess
            exact hPrior owner access (hPosted ▸ List.mem_cons_of_mem _ hAccess)
          · simp only [Function.update_of_ne hOwner] at hAccess
            exact hPrior owner access hAccess

/-- The history of a word is sequential: each operation finds what the earlier
ones left, the last one leaves the present word, and every owner was given
exactly the words its own operations found, in the order of its requests. -/
structure Sequential (addr init : Nat) (ops : List (Taken Owner)) (s : Network Owner) : Prop where
  finds : ∀ before op later, ops = before ++ op :: later → op.old = after init before
  leaves : s.word addr = after init ops
  fetches : ∀ owner, fetched addr (s.completions owner) =
    (ops.filter fun op => op.owner = owner).map Taken.old
  atomic : ∀ op ∈ ops, op.access.atomicOn addr = true

namespace Sequential

variable {init : Nat} {ops : List (Taken Owner)}

/-- One more operation on the word. -/
theorem take (h : Sequential addr init ops s) {owner : Owner} {access : Access}
    (hAtomic : access.atomicOn addr = true) (rest : List Access) :
    Sequential addr init (ops ++ [⟨owner, access, s.word addr⟩])
      { bytes := (access.perform s.bytes).2
        posted := Function.update s.posted owner rest
        completions := Function.update s.completions owner
          (s.completions owner ++ [⟨access, (access.perform s.bytes).1⟩]) } := by
  obtain ⟨hWord, hEffect⟩ := access.perform_atomicOn hAtomic s.bytes
  refine ⟨?_, ?_, ?_, ?_⟩
  · intro before op later hSplit
    rcases List.append_eq_append_iff.mp hSplit with ⟨tail, hBefore, hTail⟩ | ⟨tail, hOps, hTail⟩
    · cases tail with
      | nil =>
          obtain ⟨rfl, _⟩ := List.cons.inj hTail
          rw [hBefore, List.append_nil]
          exact h.leaves
      | cons first others =>
          have hLength := congrArg List.length hTail
          simp only [List.length_cons, List.length_append, List.length_nil] at hLength
          omega
    · cases tail with
      | nil =>
          obtain ⟨rfl, _⟩ := List.cons.inj hTail
          rw [List.append_nil] at hOps
          rw [← hOps]
          exact h.leaves
      | cons first others =>
          obtain ⟨rfl, _⟩ := List.cons.inj hTail
          exact h.finds before op others hOps
  · rw [after_append]
    show Bytes.load (access.perform s.bytes).2 addr 8 = access.effect (after init ops)
    rw [hEffect, ← h.leaves]
    rfl
  · intro other
    by_cases hOther : other = owner
    · subst hOther
      have hNew : fetched addr [⟨access, (access.perform s.bytes).1⟩] = [s.word addr] := by
        simp [fetched, hAtomic, hWord, Network.word]
      simp only [Function.update_self]
      rw [fetched, List.filterMap_append, ← fetched, h.fetches, ← fetched, hNew]
      simp
    · simp only [Function.update_of_ne hOther]
      rw [h.fetches, List.filter_append]
      simp [Ne.symm hOther]
  · intro op hOp
    rcases List.mem_append.mp hOp with hOld | hNew
    · exact h.atomic op hOld
    · obtain rfl := List.mem_singleton.mp hNew
      exact hAtomic

/-- An access that has nothing to do with the word. -/
theorem pass (h : Sequential addr init ops s) (owner : Owner) {access : Access}
    (hSpares : access.Spares addr) (hOther : access.atomicOn addr = false) (rest : List Access) :
    Sequential addr init ops
      { bytes := (access.perform s.bytes).2
        posted := Function.update s.posted owner rest
        completions := Function.update s.completions owner
          (s.completions owner ++ [⟨access, (access.perform s.bytes).1⟩]) } := by
  refine ⟨h.finds, ?_, ?_, h.atomic⟩
  · exact (access.perform_spares hSpares hOther s.bytes).trans h.leaves
  · intro other
    by_cases hSame : other = owner
    · subst hSame
      have hNone : fetched addr [⟨access, (access.perform s.bytes).1⟩] = [] := by
        simp [fetched, hOther]
      simp only [Function.update_self]
      rw [fetched, List.filterMap_append, ← fetched, h.fetches, ← fetched, hNone, List.append_nil]
    · simp only [Function.update_of_ne hSame]
      exact h.fetches other

end Sequential

/-- While every request spares the word, its history is sequential. -/
theorem run_sequential (run : (networkMachine Owner bytes).RunsTo visits s)
    (hPosts : EveryPost (Access.Spares addr) visits) :
    Sequential addr (Bytes.load bytes addr 8) (taken addr visits) s := by
  induction run with
  | zero =>
      refine ⟨?_, rfl, fun _ => rfl, by simp [taken]⟩
      intro before op later hSplit
      simp [taken] at hSplit
  | @succ visits s t a prior last ih =>
      have hPrior := ih hPosts.prior
      cases step_cases last with
      | posted poster new =>
          have hSame : taken addr (visits ++ [(s, .post poster new)]) = taken addr visits := by
            simp [taken, takenAt]
          rw [hSame]
          exact ⟨hPrior.finds, hPrior.leaves, hPrior.fetches, hPrior.atomic⟩
      | performed performer access rest hPosted =>
          cases hAtomic : access.atomicOn addr with
          | true =>
              have hNew : taken addr (visits ++ [(s, .perform performer)]) =
                  taken addr visits ++ [⟨performer, access, s.word addr⟩] := by
                simp [taken, takenAt, hPosted, hAtomic]
              rw [hNew]
              exact hPrior.take hAtomic rest
          | false =>
              have hSame : taken addr (visits ++ [(s, .perform performer)]) =
                  taken addr visits := by
                simp [taken, takenAt, hPosted, hAtomic]
              have hSpares := posted_of_everyPost prior hPosts.prior performer access
                (hPosted ▸ List.mem_cons_self ..)
              rw [hSame]
              exact hPrior.pass performer hSpares hAtomic rest

/-- What an operation adds. -/
def Taken.value (op : Taken Owner) : Nat :=
  match op.access with
  | .atomicFetchAndAdd _ compareAdd => compareAdd
  | _ => 0

/-- The request adds to the word, or has nothing to do with it. -/
def AddsAt (buffer offset : Nat) (access : Access) : Prop :=
  (∃ value, access = fetchAndAddValue buffer offset value) ∨
    (access.atomicOn (remoteAddr buffer offset) = false ∧
      access.Spares (remoteAddr buffer offset))

/-- An addition to the word, or an access beside it, leaves the rest of the word alone. -/
theorem AddsAt.spares {buffer offset : Nat} {access : Access} (h : AddsAt buffer offset access) :
    access.Spares (remoteAddr buffer offset) := by
  rcases h with ⟨value, rfl⟩ | ⟨_, hSpares⟩
  · exact .inl (by simp [fetchAndAddValue, Access.atomicOn])
  · exact hSpares

omit [DecidableEq Owner] in
/-- Additions add up, in 64 bits. -/
theorem after_adds {init : Nat} (hInit : init < 2 ^ 64) (ops : List (Taken Owner))
    (hAdds : ∀ op ∈ ops, ∃ remoteAddr compareAdd,
      op.access = .atomicFetchAndAdd remoteAddr compareAdd) :
    after init ops = (init + (ops.map Taken.value).sum) % 2 ^ 64 := by
  induction ops using List.reverseRecOn with
  | nil => exact (Nat.mod_eq_of_lt hInit).symm
  | append_singleton ops op ih =>
      obtain ⟨remoteAddr, compareAdd, hAccess⟩ := hAdds op (by simp)
      have hBefore := ih fun found hFound => hAdds found (List.mem_append_left _ hFound)
      have hValue : op.value = compareAdd := by simp [Taken.value, hAccess]
      rw [after_append, hBefore, hAccess, Access.effect, List.map_append, List.sum_append,
        List.map_singleton, List.sum_singleton, hValue]
      omega

/-- Operations that were taken had been posted. -/
theorem taken_of_everyPost {P : Access → Prop} (addr : Nat)
    (run : (networkMachine Owner bytes).RunsTo visits s) (hPosts : EveryPost P visits) :
    ∀ op ∈ taken addr visits, P op.access ∧ op.access.atomicOn addr = true := by
  intro op hOp
  obtain ⟨⟨prior, action⟩, hVisit, hTaken⟩ := List.mem_filterMap.mp hOp
  obtain ⟨before, later, hSplit, hRun⟩ := run.visit_split hVisit
  have hBefore : EveryPost P before := by
    intro visit hMem
    exact hPosts visit (hSplit ▸ List.mem_append_left _ hMem)
  cases action with
  | post owner access => cases hTaken
  | perform owner =>
      cases hPosted : prior.posted owner with
      | nil => simp [takenAt, hPosted] at hTaken
      | cons access rest =>
          have hAccess := posted_of_everyPost hRun hBefore owner access
            (hPosted ▸ List.mem_cons_self ..)
          simp only [takenAt, hPosted, Option.ite_none_right_eq_some, Option.some.injEq] at hTaken
          obtain ⟨hAtomic, rfl⟩ := hTaken
          exact ⟨hAccess, hAtomic⟩

/-- Distinct positions within 64 bits get distinct tickets. -/
theorem tickets_nodup {init n : Nat} (hFew : n ≤ 2 ^ 64) :
    ((List.range n).map fun k => (init + k) % 2 ^ 64).Nodup := by
  apply List.Nodup.map_on _ List.nodup_range
  intro i hi j hj hSame
  rw [List.mem_range] at hi hj
  omega

/-- Any number of nodes add to one word, in any interleaving. No addition is
lost: each finds the sum of those performed before it, the word holds the sum of
all, and while all add one, no two of fewer than `2 ^ 64` additions find the
same number. -/
theorem fetchAndAdd_counts {buffer offset : Nat}
    (run : (networkMachine Owner bytes).RunsTo visits s)
    (hPosts : EveryPost (AddsAt buffer offset) visits) :
    let addr := remoteAddr buffer offset
    let ops := taken addr visits
    let init := Bytes.load bytes addr 8
    s.word addr = (init + (ops.map Taken.value).sum) % 2 ^ 64 ∧
      (∀ before op later, ops = before ++ op :: later →
        op.old = (init + (before.map Taken.value).sum) % 2 ^ 64) ∧
      (∀ owner, fetched addr (s.completions owner) =
        (ops.filter fun op => op.owner = owner).map Taken.old) ∧
      ((∀ op ∈ ops, op.value = 1) → ops.length ≤ 2 ^ 64 → (ops.map Taken.old).Nodup) := by
  intro addr ops init
  have hSequential : Sequential addr init ops s :=
    run_sequential run fun visit hVisit owner access hPost =>
      (hPosts visit hVisit owner access hPost).spares
  have hAdds : ∀ op ∈ ops, ∃ remoteAddr compareAdd,
      op.access = .atomicFetchAndAdd remoteAddr compareAdd := by
    intro op hOp
    obtain ⟨hPost, hAtomic⟩ := taken_of_everyPost addr run hPosts op hOp
    rcases hPost with ⟨value, hAccess⟩ | ⟨hOther, _⟩
    · exact ⟨_, _, hAccess⟩
    · rw [hOther] at hAtomic
      cases hAtomic
  have hInit : init < 2 ^ 64 := load_eight_lt bytes addr
  have hFinds : ∀ before op later, ops = before ++ op :: later →
      op.old = (init + (before.map Taken.value).sum) % 2 ^ 64 := by
    intro before op later hSplit
    rw [hSequential.finds before op later hSplit]
    apply after_adds hInit
    exact fun found hFound => hAdds found (hSplit ▸ List.mem_append_left _ hFound)
  refine ⟨hSequential.leaves.trans (after_adds hInit ops hAdds), hFinds, hSequential.fetches, ?_⟩
  intro hOnes hFew
  have hTickets : ops.map Taken.old =
      (List.range ops.length).map fun k => (init + k) % 2 ^ 64 := by
    apply List.ext_getElem
    · simp
    · intro k hOld hRange
      have hLess : k < ops.length := by simpa using hOld
      have hSplit : ops = ops.take k ++ ops[k] :: ops.drop (k + 1) := by
        rw [List.cons_getElem_drop_succ, List.take_append_drop]
      have hSum : ((ops.take k).map Taken.value).sum = k := by
        rw [List.map_congr_left fun op hOp => hOnes op (List.mem_of_mem_take hOp)]
        simp [Nat.min_eq_left (Nat.le_of_lt hLess)]
      rw [List.getElem_map, List.getElem_map, List.getElem_range, hFinds _ _ _ hSplit, hSum]
  rw [hTickets]
  exact tickets_nodup hFew

/-- Two nodes draw tickets from a word that is about to wrap. The second node's
request is performed first. -/
def ticketActions : List (Action Bool) :=
  [.post false (fetchAndAdd 4096 8), .post true (fetchAndAdd 4096 8), .post true (read 4096 0 8),
    .perform true, .perform false, .perform true]

/-- Two nodes draw tickets from a word that wraps around. -/
theorem fetchAndAdd_counts_tickets :
    ∃ s, (networkMachine Bool fun _ => 255).RunsTo
        ((networkMachine Bool fun _ => 255).record { bytes := fun _ => 255 } ticketActions) s ∧
      fetched 4104 (s.completions true) = [2 ^ 64 - 1] ∧ fetched 4104 (s.completions false) = [0] ∧
      s.word 4104 = (2 ^ 64 - 1 + 2) % 2 ^ 64 := by
  have run := @Machine.runsTo_of_replay _ _ (networkMachine Bool fun _ => 255) _
    ticketActions rfl
  have hPosts : EveryPost (AddsAt 4096 8)
      ((networkMachine Bool fun _ => 255).record { bytes := fun _ => 255 }
        ticketActions) := by
    intro visit hVisit owner access hPost
    have hAction := Machine.action_mem_of_record ticketActions _ hVisit
    have hAccess : access = fetchAndAdd 4096 8 ∨ access = read 4096 0 8 := by
      simp only [hPost, ticketActions, List.mem_cons, Action.post.injEq, reduceCtorEq, or_false,
        List.not_mem_nil] at hAction
      tauto
    rcases hAccess with rfl | rfl
    · exact .inl ⟨1, rfl⟩
    · exact .inr ⟨rfl, .inr (.inl ⟨_, _, rfl⟩)⟩
  exact ⟨_, run, rfl, rfl, (fetchAndAdd_counts run hPosts).1⟩

/-- The values of an `int`. -/
def IsInt (n : Int) : Prop := -2 ^ 31 ≤ n ∧ n < 2 ^ 31

instance (n : Int) : Decidable (IsInt n) := inferInstanceAs (Decidable (_ ∧ _))

/-- The cast to `uint64_t` keeps different values apart. -/
theorem sizeTOfDiff_inj {a b : Int} (hFirst : IsInt a) (hSecond : IsInt b)
    (h : sizeTOfDiff a = sizeTOfDiff b) : a = b := by
  obtain ⟨_, _⟩ := hFirst
  obtain ⟨_, _⟩ := hSecond
  simp only [sizeTOfDiff] at h
  omega

theorem sizeTOfDiff_lt (n : Int) : sizeTOfDiff n < 2 ^ 64 := by
  rw [sizeTOfDiff]
  omega

/-- The request puts another value in the place of `toCompare`, or has nothing
to do with the word. -/
def SwapsAt (buffer offset : Nat) (toCompare : Int) (access : Access) : Prop :=
  (∃ toSwap, IsInt toSwap ∧ toSwap ≠ toCompare ∧
      access = compareAndSwap buffer offset toCompare toSwap) ∨
    (access.atomicOn (remoteAddr buffer offset) = false ∧
      access.Spares (remoteAddr buffer offset))

/-- A swap of the word, or an access beside it, leaves the rest of the word alone. -/
theorem SwapsAt.spares {buffer offset : Nat} {toCompare : Int} {access : Access}
    (h : SwapsAt buffer offset toCompare access) : access.Spares (remoteAddr buffer offset) := by
  rcases h with ⟨toSwap, _, _, rfl⟩ | ⟨_, hSpares⟩
  · exact .inl (by simp [compareAndSwap, Access.atomicOn])
  · exact hSpares

/-- What an operation swaps in. -/
def Taken.swap (op : Taken Owner) : Nat :=
  match op.access with
  | .atomicCmpAndSwp _ _ swap => swap
  | _ => 0

/-- The operation compares with one value, and swaps in another. -/
def Taken.Compares (compare : Nat) (op : Taken Owner) : Prop :=
  ∃ remoteAddr, op.access = .atomicCmpAndSwp remoteAddr compare op.swap ∧ op.swap ≠ compare ∧
    op.swap < 2 ^ 64

omit [DecidableEq Owner] in
/-- Once the word is another one, no comparison succeeds any more. -/
theorem after_compares {compare word : Nat} (hOther : word ≠ compare) (ops : List (Taken Owner))
    (hCompares : ∀ op ∈ ops, op.Compares compare) : after word ops = word := by
  induction ops using List.reverseRecOn with
  | nil => rfl
  | append_singleton ops op ih =>
      obtain ⟨remoteAddr, hAccess, _⟩ := hCompares op (by simp)
      have hBefore := ih fun found hFound => hCompares found (List.mem_append_left _ hFound)
      rw [after_append, hBefore, hAccess, Access.effect, if_neg hOther]

omit [DecidableEq Owner] in
/-- The first comparison succeeds, and the word stays what it swapped in. -/
theorem after_first {compare : Nat} {first : Taken Owner} {rest : List (Taken Owner)}
    (hFirst : first.Compares compare) (hRest : ∀ op ∈ rest, op.Compares compare) :
    after compare (first :: rest) = first.swap := by
  obtain ⟨remoteAddr, hAccess, hNe, hLt⟩ := hFirst
  have hSwapped : after compare [first] = first.swap := by
    show first.access.effect compare = first.swap
    rw [hAccess, Access.effect, if_pos rfl, Nat.mod_eq_of_lt hLt]
  have hSplit : after compare (first :: rest) = after (after compare [first]) rest := rfl
  rw [hSplit, hSwapped]
  exact after_compares hNe rest hRest

/-- Any number of nodes try to replace one value of a word, each by a value of
its own. The first one to be performed wins, whoever posted it: every other node
is given the winner's value, and the word keeps it. -/
theorem compareAndSwap_elects {buffer offset : Nat} {toCompare : Int} (hCompare : IsInt toCompare)
    (run : (networkMachine Owner bytes).RunsTo visits s)
    (hPosts : EveryPost (SwapsAt buffer offset toCompare) visits)
    (hInit : Bytes.load bytes (remoteAddr buffer offset) 8 = sizeTOfDiff toCompare) :
    let addr := remoteAddr buffer offset
    (taken addr visits = [] ∧ s.word addr = sizeTOfDiff toCompare) ∨
      ∃ first rest, taken addr visits = first :: rest ∧
        first.old = sizeTOfDiff toCompare ∧ first.swap ≠ sizeTOfDiff toCompare ∧
        s.word addr = first.swap ∧ (∀ op ∈ rest, op.old = first.swap) ∧
        ∀ owner, fetched addr (s.completions owner) =
          ((first :: rest).filter fun op => op.owner = owner).map Taken.old := by
  intro addr
  have hSequential : Sequential addr (sizeTOfDiff toCompare) (taken addr visits) s := by
    rw [← hInit]
    exact run_sequential run fun visit hVisit owner access hPost =>
      (hPosts visit hVisit owner access hPost).spares
  have hCompares : ∀ op ∈ taken addr visits, op.Compares (sizeTOfDiff toCompare) := by
    intro op hOp
    obtain ⟨hPost, hAtomic⟩ := taken_of_everyPost addr run hPosts op hOp
    rcases hPost with ⟨toSwap, hInt, hNe, hAccess⟩ | ⟨hOther, _⟩
    · have hSwap : op.swap = sizeTOfDiff toSwap := by simp [Taken.swap, hAccess, compareAndSwap]
      refine ⟨addr, by rw [hSwap, hAccess]; rfl, ?_, hSwap ▸ sizeTOfDiff_lt toSwap⟩
      rw [hSwap]
      exact fun hSame => hNe (sizeTOfDiff_inj hInt hCompare hSame)
    · rw [hOther] at hAtomic
      cases hAtomic
  cases hTaken : taken addr visits with
  | nil =>
      refine .inl ⟨rfl, ?_⟩
      rw [hSequential.leaves, hTaken]
      rfl
  | cons first rest =>
      rw [hTaken] at hSequential hCompares
      have hFirst := hCompares first (List.mem_cons_self ..)
      have hRest : ∀ op ∈ rest, op.Compares (sizeTOfDiff toCompare) :=
        fun op hOp => hCompares op (List.mem_cons_of_mem _ hOp)
      refine .inr ⟨first, rest, rfl, ?_, hFirst.choose_spec.2.1, ?_, ?_, hSequential.fetches⟩
      · exact hSequential.finds [] first rest rfl
      · rw [hSequential.leaves, after_first hFirst hRest]
      · intro op hOp
        obtain ⟨before, later, rfl⟩ := List.append_of_mem hOp
        rw [hSequential.finds (first :: before) op later rfl]
        exact after_first hFirst fun found hFound => hRest found (List.mem_append_left _ hFound)

/-- Two nodes put their own numbers in the place of `-1`. -/
def electionActions : List (Action Bool) :=
  [.post false (compareAndSwap 4096 8 (-1) 5), .post true (compareAndSwap 4096 8 (-1) 6),
    .perform true, .perform false]

/-- The node that asks second is performed first, and wins. -/
theorem compareAndSwap_elects_second :
    ∃ s, (networkMachine Bool fun _ => 255).RunsTo
        ((networkMachine Bool fun _ => 255).record { bytes := fun _ => 255 } electionActions) s ∧
      fetched 4104 (s.completions true) = [2 ^ 64 - 1] ∧ fetched 4104 (s.completions false) = [6] ∧
      ∃ first : Taken Bool, first.old = 2 ^ 64 - 1 ∧ s.word 4104 = first.swap := by
  have run := @Machine.runsTo_of_replay _ _ (networkMachine Bool fun _ => 255) _
    electionActions rfl
  have hPosts : EveryPost (SwapsAt 4096 8 (-1))
      ((networkMachine Bool fun _ => 255).record { bytes := fun _ => 255 }
        electionActions) := by
    intro visit hVisit owner access hPost
    have hAction := Machine.action_mem_of_record electionActions _ hVisit
    have hAccess : access = compareAndSwap 4096 8 (-1) 5 ∨
        access = compareAndSwap 4096 8 (-1) 6 := by
      simp only [hPost, electionActions, List.mem_cons, Action.post.injEq, reduceCtorEq, or_false,
        List.not_mem_nil] at hAction
      tauto
    rcases hAccess with rfl | rfl
    · exact .inl ⟨5, by decide, by decide, rfl⟩
    · exact .inl ⟨6, by decide, by decide, rfl⟩
  refine ⟨_, run, rfl, rfl, ?_⟩
  rcases compareAndSwap_elects (by decide) run hPosts rfl with
    ⟨_, hWord⟩ | ⟨first, rest, _, hOld, _, hWord, _⟩
  · cases hWord
  · exact ⟨first, hOld, hWord⟩

end OneSided
