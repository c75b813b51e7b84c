import Mathlib.Data.List.Basic
import Mathlib.Data.List.Infix

/-! Lists that only grow at the end: the last entry of a kind, and the distinct
entries that readers gather who saw different prefixes. -/
namespace Journal

variable {α : Type*}

/-- An entry of a list that has just grown is an old one or the new one. -/
theorem getElem?_append_singleton {l : List α} {x y : α} {k : Nat}
    (h : (l ++ [x])[k]? = some y) : l[k]? = some y ∨ k = l.length ∧ y = x := by
  rw [List.getElem?_append] at h
  split at h
  case isTrue => exact .inl h
  case isFalse hGe =>
    rw [List.getElem?_singleton] at h
    split at h
    case isTrue hEnd => exact .inr ⟨by omega, (Option.some.inj h).symm⟩
    case isFalse => cases h

/-- The last entry that meets the condition stands at position `i`. -/
structure IsLatest (p : α → Prop) (l : List α) (i : Nat) : Prop where
  meets : ∃ a, l[i]? = some a ∧ p a
  last : ∀ j a, i < j → l[j]? = some a → ¬p a

section Latest

variable {p : α → Prop} {l : List α} {a : α} {i j : Nat}

theorem IsLatest.lt_length (h : IsLatest p l i) : i < l.length := by
  obtain ⟨a, hAt, _⟩ := h.meets
  exact (List.getElem?_eq_some_iff.mp hAt).1

theorem IsLatest.unique (hI : IsLatest p l i) (hJ : IsLatest p l j) : i = j := by
  obtain ⟨a, hAtI, hA⟩ := hI.meets
  obtain ⟨b, hAtJ, hB⟩ := hJ.meets
  rcases Nat.lt_trichotomy i j with hLt | hEq | hGt
  · exact absurd hB (hI.last j b hLt hAtJ)
  · exact hEq
  · exact absurd hA (hJ.last i a hGt hAtI)

theorem not_isLatest_nil : ¬IsLatest p [] i := by
  intro h
  exact Nat.not_lt_zero i h.lt_length

/-- A new entry of the kind is the latest one. -/
theorem isLatest_append_of_pos (hP : p a) : IsLatest p (l ++ [a]) i ↔ i = l.length := by
  have hSelf : IsLatest p (l ++ [a]) l.length := by
    refine ⟨⟨a, by simp, hP⟩, ?_⟩
    intro j b hLt hAt
    have hBound := (List.getElem?_eq_some_iff.mp hAt).1
    rw [List.length_append, List.length_singleton] at hBound
    omega
  constructor
  · intro h
    exact h.unique hSelf
  · rintro rfl
    exact hSelf

/-- An entry of another kind changes nothing. -/
theorem isLatest_append_of_neg (hP : ¬p a) : IsLatest p (l ++ [a]) i ↔ IsLatest p l i := by
  have hOld (k : Nat) (b : α) (hB : p b) : (l ++ [a])[k]? = some b ↔ l[k]? = some b := by
    constructor
    · intro hAt
      rcases getElem?_append_singleton hAt with hBefore | ⟨_, rfl⟩
      · exact hBefore
      · exact absurd hB hP
    · intro hAt
      rw [List.getElem?_append_left (List.getElem?_eq_some_iff.mp hAt).1, hAt]
  constructor
  · intro h
    obtain ⟨b, hAt, hB⟩ := h.meets
    refine ⟨⟨b, (hOld i b hB).mp hAt, hB⟩, ?_⟩
    intro j c hLt hAt hC
    exact h.last j c hLt ((hOld j c hC).mpr hAt) hC
  · intro h
    obtain ⟨b, hAt, hB⟩ := h.meets
    refine ⟨⟨b, (hOld i b hB).mpr hAt, hB⟩, ?_⟩
    intro j c hLt hAt hC
    exact h.last j c hLt ((hOld j c hC).mp hAt) hC

/-- There is a latest entry of a kind as soon as there is one of that kind. -/
theorem exists_isLatest_iff : (∃ i, IsLatest p l i) ↔ ∃ a ∈ l, p a := by
  induction l using List.reverseRecOn with
  | nil =>
      constructor
      · intro ⟨i, h⟩
        exact absurd h not_isLatest_nil
      · intro ⟨a, hMem, _⟩
        cases hMem
  | append_singleton l a ih =>
      by_cases hP : p a
      · simp only [isLatest_append_of_pos hP, exists_eq, true_iff]
        exact ⟨a, by simp, hP⟩
      · simp only [isLatest_append_of_neg hP, ih, List.mem_append, List.mem_singleton]
        constructor
        · intro ⟨b, hMem, hB⟩
          exact ⟨b, .inl hMem, hB⟩
        · intro ⟨b, hMem, hB⟩
          rcases hMem with hMem | rfl
          · exact ⟨b, hMem, hB⟩
          · exact absurd hB hP

end Latest

section Gather

variable [BEq α] [LawfulBEq α]

/-- Append what has not been seen. -/
def insertNew (seen : List α) (a : α) : List α :=
  if seen.contains a then seen else seen ++ [a]

/-- Append what has not been seen, entry by entry. -/
def gather (seen : List α) (l : List α) : List α := l.foldl insertNew seen

/-- Adding what is not there yet is the same as listing all without repetition. -/
theorem insertNew_eraseDups (l : List α) (a : α) :
    insertNew l.eraseDups a = (l ++ [a]).eraseDups := by
  rw [List.eraseDups_append]
  unfold insertNew
  cases hSeen : l.contains a with
  | true =>
      have hMem : a ∈ l := by simpa using hSeen
      simp [List.removeAll, hMem]
  | false =>
      have hNotMem : a ∉ l := by simpa using hSeen
      simp [List.removeAll, hNotMem, List.eraseDups_cons]

/-- Gathering keeps the first of equal entries. -/
theorem gather_eraseDups (l m : List α) : gather l.eraseDups m = (l ++ m).eraseDups := by
  induction m generalizing l with
  | nil => rw [List.append_nil]; rfl
  | cons a m ih =>
      show gather (insertNew l.eraseDups a) m = _
      rw [insertNew_eraseDups, ih, List.append_assoc]
      rfl

/-- Reading again what was read before adds nothing. -/
theorem eraseDups_append_of_subset {l m : List α} (h : m ⊆ l) :
    (l ++ m).eraseDups = l.eraseDups := by
  have hNone : m.removeAll l = [] := by
    rw [List.removeAll, List.filter_eq_nil_iff]
    intro a hMem
    simp [h hMem]
  rw [List.eraseDups_append, hNone]
  simp

theorem eraseDups_append_of_prefix {l m : List α} (h : l <+: m) :
    (l ++ m).eraseDups = m.eraseDups := by
  obtain ⟨rest, rfl⟩ := h
  rw [← List.append_assoc, List.eraseDups_append, eraseDups_append_of_subset (List.Subset.refl l),
    List.eraseDups_append]
  simp [List.removeAll]

theorem eraseDups_mono {l m : List α} (h : l <+: m) : l.eraseDups <+: m.eraseDups := by
  obtain ⟨rest, rfl⟩ := h
  rw [List.eraseDups_append]
  exact List.prefix_append _ _

theorem nodup_insertNew {seen : List α} (h : seen.Nodup) (a : α) : (insertNew seen a).Nodup := by
  unfold insertNew
  cases hSeen : seen.contains a with
  | true => exact h
  | false =>
      have hNotMem : a ∉ seen := by simpa using hSeen
      exact List.nodup_append.mpr ⟨h, by simp, by
        intro b hMem c hC
        rw [List.mem_singleton] at hC
        rintro rfl
        exact hNotMem (hC ▸ hMem)⟩

theorem nodup_eraseDups (l : List α) : l.eraseDups.Nodup := by
  induction l using List.reverseRecOn with
  | nil => exact List.nodup_nil
  | append_singleton l a ih =>
      rw [← insertNew_eraseDups]
      exact nodup_insertNew ih a

/-- Whoever gathers from prefixes of one list, in any order and as often as it
likes, holds the distinct entries of one of its prefixes. -/
theorem foldl_gather_prefixes {log : List α} (snapshots : List (List α))
    (h : ∀ snapshot ∈ snapshots, snapshot <+: log) :
    ∃ seen, seen <+: log ∧ snapshots.foldl gather [] = seen.eraseDups := by
  induction snapshots using List.reverseRecOn with
  | nil => exact ⟨[], List.nil_prefix, rfl⟩
  | append_singleton snapshots snapshot ih =>
      obtain ⟨seen, hSeen, hFold⟩ := ih fun s hMem => h s (List.mem_append_left _ hMem)
      have hSnapshot : snapshot <+: log := h snapshot (by simp)
      rw [List.foldl_append, hFold, List.foldl_cons, List.foldl_nil, gather_eraseDups]
      -- Of two prefixes of one list, one is a prefix of the other.
      rcases List.prefix_or_prefix_of_prefix hSeen hSnapshot with hOlder | hNewer
      · exact ⟨snapshot, hSnapshot, eraseDups_append_of_prefix hOlder⟩
      · exact ⟨seen, hSeen, eraseDups_append_of_subset hNewer.subset⟩

/-- The first entries that are gathered do not depend on who gathers. -/
theorem eraseDups_eq_take {seen log : List α} (h : seen <+: log) :
    seen.eraseDups = log.eraseDups.take seen.eraseDups.length :=
  List.prefix_iff_eq_take.mp (eraseDups_mono h)

end Gather
end Journal
