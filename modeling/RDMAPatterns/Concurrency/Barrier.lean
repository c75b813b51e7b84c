import Mathlib.Algebra.GroupWithZero.Nat
import Mathlib.Data.Finset.Card
import Mathlib.Data.Finset.Range
import Mathlib.Logic.Function.Basic
import RDMAPatterns.Journal.Growing
import RDMAPatterns.Transition.Runs

/-! `Barrier`, the barrier of the worker groups. A fixed number of threads call `wait`
again and again, and every atomic operation is a step of its own. -/
namespace Barrier

open Journal Transition

/-- Where a thread is in `wait`: it has loaded the round, it waits for another one, or
it arrived last and is in front of the reset of `cntr`, of the finalizer, or of
`round++`. -/
inductive Control where
  | idle
  | loaded (prevRound : BitVec 8)
  | spinning (prevRound : BitVec 8)
  | last
  | finalizing
  | advancing (r : Bool)
deriving DecidableEq, Repr

/-- A thread, the number of its calls of `wait`, and the results of those that have
returned. -/
structure Party where
  control : Control := .idle
  entered : Nat := 0
  results : List Bool := []
deriving DecidableEq, Repr

/-- `rounds` counts the steps of `round`, and `finalized` lists the runs of finalizers,
each with its thread and its result. -/
structure State where
  cntr : BitVec 64
  round : BitVec 8
  party : Nat → Party
  rounds : Nat
  finalized : List (Nat × Bool)

/-- The steps of `wait`. What a finalizer returns is up to it. -/
inductive Action where
  | load
  | fetchSub
  | storeCntr
  | finalizer (r : Bool)
  | advance
  | spin
deriving DecidableEq, Repr

def State.become (s : State) (t : Nat) (p : Party) : State :=
  { s with party := Function.update s.party t p }

/-- The call of `wait`, up to the load of `round`. -/
def Party.enter (p : Party) (round : BitVec 8) : Party :=
  { p with control := .loaded round, entered := p.entered + 1 }

def Party.moveTo (p : Party) (control : Control) : Party := { p with control := control }

/-- The return from `wait`. -/
def Party.return (p : Party) (result : Bool) : Party :=
  { p with control := .idle, results := p.results ++ [result] }

/-- One step of a thread. -/
def step (threadCount : Nat) (s : State) (t : Nat) (a : Action) : Option State :=
  let p := s.party t
  match p.control, a with
  | .idle, .load => some (s.become t (p.enter s.round))
  | .loaded prevRound, .fetchSub =>
      some { s.become t (p.moveTo (if s.cntr = 1 then .last else .spinning prevRound)) with
        cntr := s.cntr - 1 }
  | .last, .storeCntr =>
      some { s.become t (p.moveTo .finalizing) with cntr := BitVec.ofNat 64 threadCount }
  | .finalizing, .finalizer r =>
      some { s.become t (p.moveTo (.advancing r)) with finalized := s.finalized ++ [(t, r)] }
  | .advancing r, .advance =>
      some { s.become t (p.return r) with
        round := s.round + 1
        rounds := s.rounds + 1 }
  | .spinning prevRound, .spin =>
      if s.round = prevRound then some s else some (s.become t (p.return false))
  | _, _ => none

/-- `threadCount` threads, none of them in `wait` at first. -/
def barrierMachine (threadCount : Nat) : Machine State (Nat × Action) where
  init :=
    { cntr := BitVec.ofNat 64 threadCount, round := 0, party := fun _ => {}, rounds := 0,
      finalized := [] }
  next s visit := if visit.1 < threadCount then step threadCount s visit.1 visit.2 else none

/-- What a thread does from where it is. -/
inductive Step (threadCount : Nat) (s : State) (t : Nat) : Action → State → Prop where
  | load (hControl : (s.party t).control = .idle) :
      Step threadCount s t .load (s.become t ((s.party t).enter s.round))
  | fetchSub {prevRound : BitVec 8} (hControl : (s.party t).control = .loaded prevRound) :
      Step threadCount s t .fetchSub
        { s.become t ((s.party t).moveTo (if s.cntr = 1 then .last else .spinning prevRound)) with
          cntr := s.cntr - 1 }
  | storeCntr (hControl : (s.party t).control = .last) :
      Step threadCount s t .storeCntr
        { s.become t ((s.party t).moveTo .finalizing) with cntr := BitVec.ofNat 64 threadCount }
  | finalizer {r : Bool} (hControl : (s.party t).control = .finalizing) :
      Step threadCount s t (.finalizer r)
        { s.become t ((s.party t).moveTo (.advancing r)) with
          finalized := s.finalized ++ [(t, r)] }
  | advance {r : Bool} (hControl : (s.party t).control = .advancing r) :
      Step threadCount s t .advance
        { s.become t ((s.party t).return r) with round := s.round + 1, rounds := s.rounds + 1 }
  | stay {prevRound : BitVec 8} (hControl : (s.party t).control = .spinning prevRound) :
      Step threadCount s t .spin s
  | leave {prevRound : BitVec 8} (hControl : (s.party t).control = .spinning prevRound)
      (hRound : s.round ≠ prevRound) :
      Step threadCount s t .spin (s.become t ((s.party t).return false))

/-- What one step of a thread does, by its place in `wait`. -/
theorem step_cases {threadCount t : Nat} {s s' : State} {a : Action}
    (hStep : step threadCount s t a = some s') : Step threadCount s t a s' := by
  simp only [step] at hStep
  split at hStep
  case h_1 hControl =>
    obtain rfl := Option.some_inj.mp hStep
    exact .load hControl
  case h_2 hControl =>
    obtain rfl := Option.some_inj.mp hStep
    exact .fetchSub hControl
  case h_3 hControl =>
    obtain rfl := Option.some_inj.mp hStep
    exact .storeCntr hControl
  case h_4 hControl =>
    obtain rfl := Option.some_inj.mp hStep
    exact .finalizer hControl
  case h_5 hControl =>
    obtain rfl := Option.some_inj.mp hStep
    exact .advance hControl
  case h_6 hControl =>
    split at hStep
    case isTrue =>
      obtain rfl := Option.some_inj.mp hStep
      exact .stay hControl
    case isFalse hRound =>
      obtain rfl := Option.some_inj.mp hStep
      exact .leave hControl hRound
  case h_7 => cases hStep

section Shape

@[simp] theorem become_party_self (s : State) (t : Nat) (p : Party) :
    (s.become t p).party t = p := by
  simp [State.become]

theorem become_party_of_ne (s : State) {t u : Nat} (p : Party) (hNe : u ≠ t) :
    (s.become t p).party u = s.party u := by
  simp [State.become, hNe]

/-- A fact about every thread, after a step of one of them. -/
theorem forall_become (P : Party → Prop) {threadCount t : Nat} {s : State} {p : Party}
    (hOld : ∀ u < threadCount, P (s.party u)) (hNew : P p) :
    ∀ u < threadCount, P ((s.become t p).party u) := by
  intro u hU
  by_cases hSelf : u = t
  · subst hSelf
    rwa [become_party_self]
  · rw [become_party_of_ne s p hSelf]
    exact hOld u hU

@[simp] theorem become_cntr (s : State) (t : Nat) (p : Party) : (s.become t p).cntr = s.cntr :=
  rfl

@[simp] theorem become_round (s : State) (t : Nat) (p : Party) : (s.become t p).round = s.round :=
  rfl

@[simp] theorem become_rounds (s : State) (t : Nat) (p : Party) :
    (s.become t p).rounds = s.rounds := rfl

@[simp] theorem become_finalized (s : State) (t : Nat) (p : Party) :
    (s.become t p).finalized = s.finalized := rfl

end Shape

/-- The thread waits for the end of the round that is going on. -/
def Party.Waits (rounds : Nat) (p : Party) : Prop :=
  (∃ prevRound, p.control = .spinning prevRound) ∧ p.entered = rounds + 1

/-- A thread that is not in the loop does not wait. -/
theorem Party.not_waits {rounds : Nat} {p : Party}
    (hControl : ∀ prevRound, p.control ≠ .spinning prevRound) : ¬p.Waits rounds := by
  rintro ⟨⟨prevRound, hSpins⟩, _⟩
  exact hControl prevRound hSpins

/-- A thread between rounds, in this round, or still in the loop of the last one. -/
def Party.InRound (rounds : Nat) (p : Party) : Prop :=
  match p.control with
  | .idle => p.entered = rounds ∧ p.results.length = rounds
  | .loaded prevRound =>
      prevRound = BitVec.ofNat 8 rounds ∧ p.entered = rounds + 1 ∧ p.results.length = rounds
  | .spinning prevRound =>
      (prevRound = BitVec.ofNat 8 rounds ∧ p.entered = rounds + 1 ∧ p.results.length = rounds) ∨
      ∃ before, rounds = before + 1 ∧ prevRound = BitVec.ofNat 8 before ∧
        p.entered = rounds ∧ p.results.length = before
  | .last | .finalizing | .advancing _ => p.entered = rounds + 1 ∧ p.results.length = rounds

/-- The thread did not arrive last. -/
def Control.Gathers : Control → Prop
  | .idle | .loaded _ | .spinning _ => True
  | .last | .finalizing | .advancing _ => False

/-- What the last thread has done. -/
def Closing (threadCount : Nat) (s : State) (t : Nat) : Control → Prop
  | .last => s.cntr = 0 ∧ s.finalized.length = s.rounds
  | .finalizing => s.cntr = BitVec.ofNat 64 threadCount ∧ s.finalized.length = s.rounds
  | .advancing r => s.cntr = BitVec.ofNat 64 threadCount ∧
      s.finalized.length = s.rounds + 1 ∧ s.finalized[s.rounds]? = some (t, r)
  | .idle | .loaded _ | .spinning _ => False

open scoped Classical in
/-- The threads that wait. -/
noncomputable def waiters (threadCount rounds : Nat) (party : Nat → Party) : Finset Nat :=
  (Finset.range threadCount).filter fun u => (party u).Waits rounds

/-- Either threads are still to arrive and `cntr` counts them, or the last one has
arrived and all others wait for it. -/
inductive Stage (threadCount : Nat) (s : State) : Prop where
  | gathering (gathers : ∀ u < threadCount, (s.party u).control.Gathers)
      (arrived : s.cntr.toNat + (waiters threadCount s.rounds s.party).card = threadCount)
      (missing : 1 ≤ s.cntr.toNat) (finalized : s.finalized.length = s.rounds)
  | closing (t : Nat) (others : ∀ u < threadCount, u ≠ t → (s.party u).Waits s.rounds)
      (closing : Closing threadCount s t (s.party t).control)

structure Inv (threadCount : Nat) (s : State) : Prop where
  round : s.round = BitVec.ofNat 8 s.rounds
  parties : ∀ t < threadCount, (s.party t).InRound s.rounds
  stage : Stage threadCount s
  winners : ∀ (r t : Nat) (res : Bool), s.finalized[r]? = some (t, res) →
    t < threadCount ∧ (r < s.rounds → r < (s.party t).results.length)
  results : ∀ t < threadCount, ∀ (r : Nat) (b : Bool), (s.party t).results[r]? = some b →
    ∃ u res, s.finalized[r]? = some (u, res) ∧ b = if t = u then res else false

section Waiting

variable {threadCount rounds t : Nat} {party : Nat → Party} {p : Party}

theorem mem_waiters {u : Nat} :
    u ∈ waiters threadCount rounds party ↔ u < threadCount ∧ (party u).Waits rounds := by
  simp [waiters]

/-- A step that neither begins nor ends the waiting of its thread. -/
theorem waiters_update_of_iff (h : p.Waits rounds ↔ (party t).Waits rounds) :
    waiters threadCount rounds (Function.update party t p) =
      waiters threadCount rounds party := by
  ext u
  rw [mem_waiters, mem_waiters]
  by_cases hSelf : u = t
  · subst hSelf
    rw [Function.update_self, h]
  · rw [Function.update_of_ne hSelf]

theorem card_waiters_update (hT : t < threadCount) (hBefore : ¬(party t).Waits rounds)
    (hAfter : p.Waits rounds) :
    (waiters threadCount rounds (Function.update party t p)).card =
      (waiters threadCount rounds party).card + 1 := by
  have hInsert : waiters threadCount rounds (Function.update party t p) =
      insert t (waiters threadCount rounds party) := by
    ext u
    rw [Finset.mem_insert, mem_waiters, mem_waiters]
    by_cases hSelf : u = t
    · subst hSelf
      rw [Function.update_self]
      exact iff_of_true ⟨hT, hAfter⟩ (.inl rfl)
    · rw [Function.update_of_ne hSelf]
      simp [hSelf]
  rw [hInsert, Finset.card_insert_of_notMem]
  rw [mem_waiters]
  exact fun hWaits => hBefore hWaits.2

/-- If all but one wait, and this one does not, the others do. -/
theorem waits_of_card (hT : t < threadCount) (hSelf : ¬(party t).Waits rounds)
    (hCard : 1 + (waiters threadCount rounds party).card = threadCount) {u : Nat}
    (hU : u < threadCount) (hNe : u ≠ t) : (party u).Waits rounds := by
  have hSub : waiters threadCount rounds party ⊆ (Finset.range threadCount).erase t := by
    intro v hV
    obtain ⟨hLt, hWaits⟩ := mem_waiters.mp hV
    refine Finset.mem_erase.mpr ⟨?_, Finset.mem_range.mpr hLt⟩
    rintro rfl
    exact hSelf hWaits
  have hAll : waiters threadCount rounds party = (Finset.range threadCount).erase t := by
    apply Finset.eq_of_subset_of_card_le hSub
    rw [Finset.card_erase_of_mem (Finset.mem_range.mpr hT), Finset.card_range]
    omega
  have hMem : u ∈ (Finset.range threadCount).erase t :=
    Finset.mem_erase.mpr ⟨hNe, Finset.mem_range.mpr hU⟩
  rw [← hAll] at hMem
  exact (mem_waiters.mp hMem).2

end Waiting

section Become

variable {threadCount : Nat} {s : State} {t : Nat}

/-- The others are still waiting after a step of the last thread. -/
theorem others_become (hOthers : ∀ u < threadCount, u ≠ t → (s.party u).Waits s.rounds) (p : Party) :
    ∀ u < threadCount, u ≠ t → ((s.become t p).party u).Waits s.rounds := by
  intro u hU hNe
  rw [become_party_of_ne s p hNe]
  exact hOthers u hU hNe

theorem results_become (p : Party) (hResults : p.results = (s.party t).results) (u : Nat) :
    ((s.become t p).party u).results = (s.party u).results := by
  by_cases hSelf : u = t
  · subst hSelf
    rw [become_party_self, hResults]
  · rw [become_party_of_ne s p hSelf]

theorem length_results_return (b : Bool) (u : Nat) :
    (s.party u).results.length ≤ ((s.become t ((s.party t).return b)).party u).results.length := by
  by_cases hSelf : u = t
  · subst hSelf
    rw [become_party_self, Party.return, List.length_append]
    exact Nat.le_add_right _ _
  · rw [become_party_of_ne s _ hSelf]

end Become

section Steps

variable {threadCount : Nat} {s : State} {t : Nat} (h : Inv threadCount s) (hT : t < threadCount)

theorem init_inv (hLt : threadCount < 2 ^ 64) (hPos : 1 ≤ threadCount) :
    Inv threadCount (barrierMachine threadCount).init where
  round := rfl
  parties _ _ := ⟨rfl, rfl⟩
  stage := by
    have hCntr : (BitVec.ofNat 64 threadCount).toNat = threadCount := by
      rw [BitVec.toNat_ofNat, Nat.mod_eq_of_lt hLt]
    have hNobody : waiters threadCount 0 (fun _ => {}) = ∅ := by
      ext u
      simp [mem_waiters, Party.Waits]
    refine .gathering (fun _ _ => trivial) ?_ ?_ rfl
    · show (BitVec.ofNat 64 threadCount).toNat + (waiters threadCount 0 fun _ => {}).card = _
      rw [hCntr, hNobody, Finset.card_empty, Nat.add_zero]
    · exact hCntr.symm ▸ hPos
  winners r t res hAt := by simp [barrierMachine] at hAt
  results t _ r b hAt := by simp [barrierMachine] at hAt

include h

/-- A step that neither ends a call nor a round keeps everything but the stage. -/
theorem Inv.become (p : Party) (hIn : p.InRound s.rounds)
    (hResults : p.results = (s.party t).results) (cntr : BitVec 64)
    (hStage : Stage threadCount { s.become t p with cntr := cntr }) :
    Inv threadCount { s.become t p with cntr := cntr } where
  round := h.round
  parties := forall_become (Party.InRound s.rounds) h.parties hIn
  stage := hStage
  winners r u res hAt := by
    show u < threadCount ∧ (r < s.rounds → r < ((s.become t p).party u).results.length)
    rw [results_become p hResults]
    exact h.winners r u res hAt
  results u hU r b hAt := by
    change ((s.become t p).party u).results[r]? = some b at hAt
    rw [results_become p hResults] at hAt
    exact h.results u hU r b hAt

/-- A result that fits the finalizer's run of its round. -/
theorem results_return {b : Bool} (hWinner : ∃ u res,
    s.finalized[(s.party t).results.length]? = some (u, res) ∧ b = if t = u then res else false) :
    ∀ u < threadCount, ∀ (r : Nat) (c : Bool),
      ((s.become t ((s.party t).return b)).party u).results[r]? = some c →
      ∃ v res, s.finalized[r]? = some (v, res) ∧ c = if u = v then res else false := by
  intro u hU r c hAt
  by_cases hSelf : u = t
  · subst hSelf
    rw [become_party_self] at hAt
    rcases getElem?_append_singleton hAt with hOld | ⟨rfl, rfl⟩
    · exact h.results u hU r c hOld
    · exact hWinner
  · rw [become_party_of_ne s _ hSelf] at hAt
    exact h.results u hU r c hAt

include hT

/-- As long as a thread has not arrived, the counter counts those that have not. -/
theorem Inv.gathering (hGathers : (s.party t).control.Gathers)
    (hNot : ¬(s.party t).Waits s.rounds) :
    (∀ u < threadCount, (s.party u).control.Gathers) ∧
      s.cntr.toNat + (waiters threadCount s.rounds s.party).card = threadCount ∧
      1 ≤ s.cntr.toNat ∧ s.finalized.length = s.rounds := by
  cases h.stage with
  | gathering gathers arrived missing finalized => exact ⟨gathers, arrived, missing, finalized⟩
  | closing last others closing =>
      by_cases hSelf : t = last
      · subst hSelf
        cases hControl : (s.party t).control <;> rw [hControl] at hGathers closing
        all_goals first | exact closing.elim | exact hGathers.elim
      · exact absurd (others t hT hSelf) hNot

/-- The last thread is alone behind its `fetch_sub`. -/
theorem Inv.closing (hLast : ¬(s.party t).control.Gathers) :
    (∀ u < threadCount, u ≠ t → (s.party u).Waits s.rounds) ∧
      Closing threadCount s t (s.party t).control := by
  cases h.stage with
  | gathering gathers _ _ _ => exact absurd (gathers t hT) hLast
  | closing last others closing =>
      obtain rfl : t = last := by
        by_contra hNe
        obtain ⟨⟨prevRound, hControl⟩, _⟩ := others t hT hNe
        rw [hControl] at hLast
        exact hLast trivial
      exact ⟨others, closing⟩

theorem load_inv (hControl : (s.party t).control = .idle) :
    Inv threadCount (s.become t ((s.party t).enter s.round)) := by
  have hIdle := h.parties t hT
  rw [Party.InRound, hControl] at hIdle
  have hNot : ¬(s.party t).Waits s.rounds := Party.not_waits (by simp [hControl])
  have hStill : ¬((s.party t).enter s.round).Waits s.rounds :=
    Party.not_waits fun _ hSpins => by cases hSpins
  obtain ⟨hGathers, hArrived, hMissing, hFinalized⟩ := h.gathering hT (by rw [hControl]; trivial) hNot
  have hIn : ((s.party t).enter s.round).InRound s.rounds :=
    ⟨h.round, congrArg (· + 1) hIdle.1, hIdle.2⟩
  refine h.become _ hIn rfl s.cntr (.gathering ?_ ?_ hMissing hFinalized)
  · exact forall_become (fun p => p.control.Gathers) hGathers trivial
  · show s.cntr.toNat + (waiters threadCount s.rounds (Function.update s.party t _)).card = _
    rw [waiters_update_of_iff (iff_of_false hStill hNot)]
    exact hArrived

/-- The decrement does not wrap around, since somebody is missing. -/
theorem fetchSub_inv {prevRound : BitVec 8} (hControl : (s.party t).control = .loaded prevRound) :
    Inv threadCount
      { s.become t ((s.party t).moveTo (if s.cntr = 1 then .last else .spinning prevRound)) with
        cntr := s.cntr - 1 } := by
  have hLoaded := h.parties t hT
  rw [Party.InRound, hControl] at hLoaded
  have hNot : ¬(s.party t).Waits s.rounds := Party.not_waits (by simp [hControl])
  obtain ⟨hGathers, hArrived, hMissing, hFinalized⟩ := h.gathering hT (by rw [hControl]; trivial) hNot
  by_cases hLast : s.cntr = 1
  · rw [if_pos hLast]
    have hIn : ((s.party t).moveTo .last).InRound s.rounds := hLoaded.2
    refine h.become _ hIn rfl _ (.closing t ?_ ?_)
    · have hOne : 1 + (waiters threadCount s.rounds s.party).card = threadCount := by
        rw [hLast] at hArrived
        exact hArrived
      exact others_become (fun u hU hNe => waits_of_card hT hNot hOne hU hNe) _
    · simp only [become_party_self]
      exact ⟨by rw [hLast]; rfl, hFinalized⟩
  · rw [if_neg hLast]
    have hIn : ((s.party t).moveTo (.spinning prevRound)).InRound s.rounds := .inl hLoaded
    have hWaits : ((s.party t).moveTo (.spinning prevRound)).Waits s.rounds :=
      ⟨⟨prevRound, rfl⟩, hLoaded.2.1⟩
    refine h.become _ hIn rfl _ (.gathering ?_ ?_ ?_ hFinalized)
    · exact forall_become (fun p => p.control.Gathers) hGathers trivial
    · have hCard := card_waiters_update hT hNot hWaits
      show (s.cntr - 1).toNat + (waiters threadCount s.rounds (Function.update s.party t _)).card = _
      rw [hCard]
      bv_omega
    · show 1 ≤ (s.cntr - 1).toNat
      bv_omega

/-- The last thread sets the counter up for the next round while all others still wait. -/
theorem storeCntr_inv (hControl : (s.party t).control = .last) :
    Inv threadCount { s.become t ((s.party t).moveTo .finalizing) with
      cntr := BitVec.ofNat 64 threadCount } := by
  have hLast := h.parties t hT
  rw [Party.InRound, hControl] at hLast
  obtain ⟨hOthers, hClosing⟩ := h.closing hT (by rw [hControl]; exact id)
  rw [hControl] at hClosing
  have hIn : ((s.party t).moveTo .finalizing).InRound s.rounds := hLast
  refine h.become _ hIn rfl _ (.closing t (others_become hOthers _) ?_)
  simp only [become_party_self]
  exact ⟨rfl, hClosing.2⟩

/-- The finalizer runs once for the round, in the last thread. -/
theorem finalizer_inv (hControl : (s.party t).control = .finalizing) (r : Bool) :
    Inv threadCount { s.become t ((s.party t).moveTo (.advancing r)) with
      finalized := s.finalized ++ [(t, r)] } := by
  have hFinalizing := h.parties t hT
  rw [Party.InRound, hControl] at hFinalizing
  obtain ⟨hOthers, hClosing⟩ := h.closing hT (by rw [hControl]; exact id)
  rw [hControl] at hClosing
  obtain ⟨hCntr, hLength⟩ := hClosing
  have hIn : ((s.party t).moveTo (.advancing r)).InRound s.rounds := hFinalizing
  refine ⟨h.round, forall_become (Party.InRound s.rounds) h.parties hIn,
    .closing t (others_become hOthers _) ?_, ?_, ?_⟩
  · simp only [become_party_self]
    exact ⟨hCntr, by simp [hLength], by simp [← hLength]⟩
  · intro i u res hAt
    show u < threadCount ∧ (i < s.rounds → i < ((s.become t _).party u).results.length)
    rw [results_become ((s.party t).moveTo (.advancing r)) rfl]
    rcases getElem?_append_singleton hAt with hOld | ⟨rfl, hNew⟩
    · exact h.winners i u res hOld
    · obtain ⟨rfl, rfl⟩ := Prod.mk.inj hNew
      exact ⟨hT, fun hBefore => absurd hLength (Nat.ne_of_lt hBefore)⟩
  · intro u hU i b hAt
    change ((s.become t _).party u).results[i]? = some b at hAt
    rw [results_become ((s.party t).moveTo (.advancing r)) rfl] at hAt
    obtain ⟨v, res, hOld, hValue⟩ := h.results u hU i b hAt
    exact ⟨v, res, List.getElem?_append_left (List.getElem?_eq_some_iff.mp hOld).1 ▸ hOld, hValue⟩

/-- The end of a round: everybody else is in the loop of a round that is over. -/
theorem advance_inv (hLt : threadCount < 2 ^ 64) {r : Bool}
    (hControl : (s.party t).control = .advancing r) :
    Inv threadCount { s.become t ((s.party t).return r) with
      round := s.round + 1, rounds := s.rounds + 1 } := by
  have hAdvancing := h.parties t hT
  rw [Party.InRound, hControl] at hAdvancing
  obtain ⟨hEntered, hReturned⟩ := hAdvancing
  obtain ⟨hOthers, hClosing⟩ := h.closing hT (by rw [hControl]; exact id)
  rw [hControl] at hClosing
  obtain ⟨hCntr, hLength, hRun⟩ := hClosing
  have hBehind : ∀ u < threadCount, u ≠ t → ∃ prevRound, (s.party u).control = .spinning prevRound ∧
      (s.party u).entered = s.rounds + 1 ∧ (s.party u).InRound (s.rounds + 1) := by
    intro u hU hNe
    obtain ⟨⟨prevRound, hSpins⟩, hWaits⟩ := hOthers u hU hNe
    have hSpinning := h.parties u hU
    rw [Party.InRound, hSpins] at hSpinning
    rcases hSpinning with ⟨hPrev, _, hLen⟩ | ⟨before, _, _, hBefore, _⟩
    · refine ⟨prevRound, hSpins, hWaits, ?_⟩
      rw [Party.InRound, hSpins]
      exact .inr ⟨s.rounds, rfl, hPrev, hWaits, hLen⟩
    · omega
  refine ⟨?_, ?_, .gathering ?_ ?_ ?_ hLength, ?_, ?_⟩
  · show s.round + 1 = BitVec.ofNat 8 (s.rounds + 1)
    rw [h.round, BitVec.ofNat_add]
    rfl
  · intro u hU
    show ((s.become t _).party u).InRound (s.rounds + 1)
    by_cases hSelf : u = t
    · subst hSelf
      rw [become_party_self]
      exact ⟨hEntered, by simp [Party.return, hReturned]⟩
    · rw [become_party_of_ne s _ hSelf]
      obtain ⟨_, _, _, hIn⟩ := hBehind u hU hSelf
      exact hIn
  · intro u hU
    show ((s.become t _).party u).control.Gathers
    by_cases hSelf : u = t
    · subst hSelf
      rw [become_party_self]
      trivial
    · rw [become_party_of_ne s _ hSelf]
      obtain ⟨_, hSpins, _⟩ := hBehind u hU hSelf
      rw [hSpins]
      trivial
  · have hNobody : waiters threadCount (s.rounds + 1) (s.become t ((s.party t).return r)).party =
        ∅ := by
      refine Finset.eq_empty_of_forall_notMem fun u hMem => ?_
      obtain ⟨hU, ⟨prevRound, hSpins⟩, hWaits⟩ := mem_waiters.mp hMem
      by_cases hSelf : u = t
      · subst hSelf
        rw [become_party_self] at hSpins
        cases hSpins
      · rw [become_party_of_ne s _ hSelf] at hWaits
        obtain ⟨_, _, hBefore, _⟩ := hBehind u hU hSelf
        omega
    show s.cntr.toNat + (waiters threadCount (s.rounds + 1)
      (s.become t ((s.party t).return r)).party).card = threadCount
    rw [hNobody, hCntr, BitVec.toNat_ofNat, Nat.mod_eq_of_lt hLt]
    rfl
  · show 1 ≤ s.cntr.toNat
    rw [hCntr, BitVec.toNat_ofNat, Nat.mod_eq_of_lt hLt]
    exact Nat.lt_of_le_of_lt (Nat.zero_le t) hT
  · intro i u res hAt
    obtain ⟨hU, hBefore⟩ := h.winners i u res hAt
    refine ⟨hU, fun hI => ?_⟩
    show i < ((s.become t ((s.party t).return r)).party u).results.length
    rcases Nat.lt_succ_iff_lt_or_eq.mp hI with hOld | rfl
    · exact Nat.lt_of_lt_of_le (hBefore hOld) (length_results_return r u)
    · obtain ⟨rfl, rfl⟩ := Prod.mk.inj (Option.some_inj.mp (hRun.symm.trans hAt))
      rw [become_party_self, Party.return, List.length_append, hReturned]
      exact Nat.lt_succ_self _
  · refine results_return h ⟨t, r, ?_, (if_pos rfl).symm⟩
    rw [hReturned]
    exact hRun

/-- Another round means that the own one is over, also when the 8 bits have wrapped
around: while a thread waits there is at most one step of `round`. -/
theorem spin_inv {prevRound : BitVec 8} (hControl : (s.party t).control = .spinning prevRound)
    (hRound : s.round ≠ prevRound) : Inv threadCount (s.become t ((s.party t).return false)) := by
  have hSpinning := h.parties t hT
  rw [Party.InRound, hControl] at hSpinning
  obtain ⟨hCurrent, _⟩ | ⟨before, hOver, _, hEntered, hReturned⟩ := hSpinning
  · exact absurd (h.round.trans hCurrent.symm) hRound
  have hNot : ¬(s.party t).Waits s.rounds := by
    intro hWaits
    exact absurd (hEntered.symm.trans hWaits.2) (by omega)
  have hStill : ¬((s.party t).return false).Waits s.rounds :=
    Party.not_waits fun _ hSpins => by cases hSpins
  obtain ⟨hGathers, hArrived, hMissing, hFinalized⟩ := h.gathering hT (by rw [hControl]; trivial) hNot
  have hIn : ((s.party t).return false).InRound s.rounds :=
    ⟨hEntered, by simp [Party.return, hReturned, hOver]⟩
  refine ⟨h.round, forall_become (Party.InRound s.rounds) h.parties hIn,
    .gathering ?_ ?_ hMissing hFinalized, ?_, ?_⟩
  · exact forall_become (fun p => p.control.Gathers) hGathers trivial
  · show s.cntr.toNat + (waiters threadCount s.rounds (Function.update s.party t _)).card = _
    rw [waiters_update_of_iff (iff_of_false hStill hNot)]
    exact hArrived
  · intro i u res hAt
    obtain ⟨hU, hBefore⟩ := h.winners i u res hAt
    exact ⟨hU, fun hI => Nat.lt_of_lt_of_le (hBefore hI) (length_results_return false u)⟩
  · refine results_return h ?_
    have hSome : before < s.finalized.length := by omega
    obtain ⟨⟨u, res⟩, hAt⟩ : ∃ run, s.finalized[before]? = some run :=
      ⟨_, List.getElem?_eq_getElem hSome⟩
    refine ⟨u, res, by rw [hReturned]; exact hAt, ?_⟩
    -- The thread that ran the finalizer has returned from that round.
    have hWinner := (h.winners before u res hAt).2 (by omega)
    rw [if_neg]
    rintro rfl
    omega

theorem step_inv (hLt : threadCount < 2 ^ 64) {a : Action} {s' : State}
    (hStep : step threadCount s t a = some s') : Inv threadCount s' := by
  cases step_cases hStep with
  | load hControl => exact load_inv h hT hControl
  | fetchSub hControl => exact fetchSub_inv h hT hControl
  | storeCntr hControl => exact storeCntr_inv h hT hControl
  | finalizer hControl => exact finalizer_inv h hT hControl _
  | advance hControl => exact advance_inv h hT hLt hControl
  | stay => exact h
  | leave hControl hRound => exact spin_inv h hT hControl hRound

end Steps

section Effects

variable {threadCount : Nat} {s s' : State} {t : Nat}

/-- The finalizer runs when all have entered the round and none has left it. -/
theorem Inv.finalizer_step (h : Inv threadCount s) (hT : t < threadCount) {r : Bool}
    (hStep : step threadCount s t (.finalizer r) = some s') :
    s'.finalized = s.finalized ++ [(t, r)] ∧ ∀ u < threadCount,
      (s.party u).entered = s.finalized.length + 1 ∧
      (s.party u).results.length = s.finalized.length := by
  cases step_cases hStep with
  | finalizer hControl =>
      refine ⟨rfl, fun u hU => ?_⟩
      obtain ⟨hOthers, hClosing⟩ := h.closing hT (by rw [hControl]; exact id)
      rw [hControl] at hClosing
      rw [hClosing.2]
      have hIn := h.parties u hU
      by_cases hSelf : u = t
      · subst hSelf
        rwa [Party.InRound, hControl] at hIn
      · obtain ⟨⟨prevRound, hSpins⟩, hWaits⟩ := hOthers u hU hSelf
        rw [Party.InRound, hSpins] at hIn
        rcases hIn with ⟨_, hIn⟩ | ⟨_, _, _, hBefore, _⟩
        · exact hIn
        · omega

/-- Nothing but the call of a finalizer is recorded. -/
theorem step_finalized {a : Action} (hNot : ∀ r, a ≠ .finalizer r)
    (hStep : step threadCount s t a = some s') : s'.finalized = s.finalized := by
  cases step_cases hStep with
  | finalizer => exact absurd rfl (hNot _)
  | load | fetchSub | storeCntr | advance | stay | leave => rfl

/-- The counter never goes below zero: it has room for everyone who has not arrived. -/
theorem Inv.fetchSub_step (h : Inv threadCount s) (hT : t < threadCount)
    (hStep : step threadCount s t .fetchSub = some s') : 1 ≤ s.cntr.toNat := by
  cases step_cases hStep with
  | fetchSub hControl =>
      have hNot : ¬(s.party t).Waits s.rounds := Party.not_waits (by simp [hControl])
      obtain ⟨_, _, hMissing, _⟩ := h.gathering hT (by rw [hControl]; trivial) hNot
      exact hMissing

/-- A thread has entered the round that is going on or is about to. -/
theorem Party.InRound.bounds {rounds : Nat} {p : Party} (h : p.InRound rounds) :
    rounds ≤ p.entered ∧ p.results.length ≤ rounds := by
  unfold Party.InRound at h
  split at h
  case h_3 =>
    rcases h with ⟨_, hEntered, hReturned⟩ | ⟨before, hOver, _, hEntered, hReturned⟩
    · omega
    · omega
  all_goals omega

end Effects

section Runs

variable {threadCount : Nat} (hPos : 1 ≤ threadCount) (hLt : threadCount < 2 ^ 64)
  {visits : List (State × (Nat × Action))} {s : State}
  (run : (barrierMachine threadCount).RunsTo visits s)

/-- A step of the barrier is a step of one of its threads. -/
theorem barrierMachine_next {s s' : State} {visit : Nat × Action}
    (hNext : (barrierMachine threadCount).next s visit = some s') :
    visit.1 < threadCount ∧ step threadCount s visit.1 visit.2 = some s' := by
  simpa only [barrierMachine, Option.ite_none_right_eq_some] using hNext

/-- The step runs the finalizer of a round, in the call of `wait` that belongs to it. -/
def finalizes (round : Nat) (visit : State × (Nat × Action)) : Bool :=
  match visit.2.2 with
  | .finalizer _ => (visit.1.party visit.2.1).entered == round + 1
  | _ => false

include hPos hLt run

/-- The invariant holds in every run of any length, although the round has only eight
bits. -/
theorem run_inv : Inv threadCount s :=
  run.invariant (init_inv hLt hPos) fun _ _ _ hInv hNext =>
    step_inv hInv (barrierMachine_next hNext).1 hLt (barrierMachine_next hNext).2

/-- Every round that has got as far has run its finalizer once. -/
theorem run_finalized (round : Nat) : visits.countP (finalizes round) =
    if round < s.finalized.length then 1 else 0 := by
  induction run with
  | zero => rfl
  | @succ visits s s' visit prior last ih =>
      have hInv := run_inv hPos hLt prior
      obtain ⟨hT, hStep⟩ := barrierMachine_next last
      obtain ⟨t, a⟩ := visit
      rw [List.countP_append, ih, List.countP_singleton]
      by_cases hFinalizer : ∃ r, a = .finalizer r
      · obtain ⟨r, rfl⟩ := hFinalizer
        obtain ⟨hAppend, hAll⟩ := hInv.finalizer_step hT hStep
        have hHere : finalizes round (s, (t, .finalizer r)) = true ↔ s.finalized.length = round := by
          simp [finalizes, (hAll t hT).1]
        rw [hAppend, List.length_append, List.length_singleton]
        simp only [hHere]
        split_ifs <;> omega
      · have hNot : ∀ r, a ≠ .finalizer r := fun r hSame => hFinalizer ⟨r, hSame⟩
        have hElse : finalizes round (s, (t, a)) = false := by
          cases a with
          | finalizer r => exact absurd rfl (hNot r)
          | load | fetchSub | storeCntr | advance | spin => rfl
        rw [step_finalized hNot hStep, hElse]
        rfl

/-- A step of the run, from a state that satisfies the invariant. -/
theorem visit_inv {visit : State × (Nat × Action)} (hVisit : visit ∈ visits) :
    Inv threadCount visit.1 ∧ visit.2.1 < threadCount ∧
      ∃ s', step threadCount visit.1 visit.2.1 visit.2.2 = some s' := by
  obtain ⟨before, _, _, prior⟩ := run.visit_split hVisit
  obtain ⟨s', hNext⟩ := run.visit_enabled hVisit
  obtain ⟨hT, hStep⟩ := barrierMachine_next hNext
  exact ⟨run_inv hPos hLt prior, hT, s', hStep⟩

/-- In every run no thread has returned from more calls than any other has made. The
finalizer of each round runs once, when all have entered the round and none has left it;
its result goes to the thread that ran it, and the others get false. The counter is never
decremented below zero. -/
theorem barrier_separates_rounds :
    (∀ t < threadCount, ∀ u < threadCount,
      (s.party t).results.length ≤ (s.party u).entered) ∧
    (∀ round, visits.countP (finalizes round) = if round < s.finalized.length then 1 else 0) ∧
    (∀ visit ∈ visits, ∀ round, finalizes round visit = true → ∀ u < threadCount,
      (visit.1.party u).entered = round + 1 ∧ (visit.1.party u).results.length = round) ∧
    (∀ t < threadCount, ∀ (round : Nat) (b : Bool), (s.party t).results[round]? = some b →
      ∃ u < threadCount, ∃ res, s.finalized[round]? = some (u, res) ∧
        b = if t = u then res else false) ∧
    (∀ visit ∈ visits, visit.2.2 = .fetchSub → 1 ≤ visit.1.cntr.toNat) := by
  have hInv := run_inv hPos hLt run
  refine ⟨?_, run_finalized hPos hLt run, ?_, ?_, ?_⟩
  · intro t hT u hU
    exact (hInv.parties t hT).bounds.2.trans (hInv.parties u hU).bounds.1
  · intro visit hVisit round hFinalizes u hU
    obtain ⟨hPrior, hT, s', hStep⟩ := visit_inv hPos hLt run hVisit
    unfold finalizes at hFinalizes
    split at hFinalizes
    case h_1 hAction =>
      rw [hAction] at hStep
      have hAll := (hPrior.finalizer_step hT hStep).2
      have hRound : (visit.1.party visit.2.1).entered = round + 1 := by simpa using hFinalizes
      have hHere := (hAll visit.2.1 hT).1
      obtain ⟨hEntered, hReturned⟩ := hAll u hU
      omega
    case h_2 => cases hFinalizes
  · intro t hT round b hAt
    obtain ⟨u, res, hRun, hValue⟩ := hInv.results t hT round b hAt
    exact ⟨u, (hInv.winners round u res hRun).1, res, hRun, hValue⟩
  · intro visit hVisit hAction
    obtain ⟨hPrior, hT, s', hStep⟩ := visit_inv hPos hLt run hVisit
    rw [hAction] at hStep
    exact hPrior.fetchSub_step hT hStep

end Runs

/-- Two threads and two rounds. The second thread is still in the loop of the first round
when the first one enters the next. -/
def twoRounds : List (Nat × Action) :=
  [(0, .load), (1, .load), (1, .fetchSub), (0, .fetchSub), (1, .spin), (0, .storeCntr),
    (0, .finalizer true), (0, .advance), (0, .load), (0, .fetchSub), (1, .spin), (1, .load),
    (1, .fetchSub), (1, .storeCntr), (1, .finalizer true), (1, .advance), (0, .spin)]

theorem barrier_separates_rounds_twoRounds :
    ∃ s, (barrierMachine 2).RunsTo ((barrierMachine 2).record (barrierMachine 2).init twoRounds) s ∧
      (s.party 0).results = [true, false] ∧ (s.party 1).results = [false, true] ∧
      s.finalized = [(0, true), (1, true)] ∧
      ((barrierMachine 2).record (barrierMachine 2).init twoRounds).countP (finalizes 1) = 1 := by
  have run := Machine.runsTo_of_replay (M := barrierMachine 2) twoRounds rfl
  refine ⟨_, run, rfl, rfl, rfl, ?_⟩
  rw [(barrier_separates_rounds (by decide) (by decide) run).2.1 1]
  rfl

end Barrier
