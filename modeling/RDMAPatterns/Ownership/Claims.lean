import Mathlib.Data.List.Perm.Basic
import Mathlib.Data.Set.Insert
import Mathlib.Logic.Function.Basic

/-! Items that are shared out among owners. Each item has one owner, who
claims it once. An item may be granted, given up, or kept in another place
by its owner, and the rest of the division stays as it was. -/
namespace Ownership

variable {Owner Item : Type*}

/-- The claims of all owners together are the items, each claimed once. -/
structure Divided (claims : Owner → List Item) (items : Set Item) : Prop where
  nodup : ∀ owner, (claims owner).Nodup
  unique : ∀ {owner other item}, item ∈ claims owner → item ∈ claims other → owner = other
  claimed : ∀ {item}, item ∈ items ↔ ∃ owner, item ∈ claims owner

namespace Divided

variable {claims : Owner → List Item} {items : Set Item} {owner : Owner} {item : Item}

theorem nothing : Divided (fun _ : Owner => ([] : List Item)) ∅ where
  nodup _ := List.nodup_nil
  unique hItem := by cases hItem
  claimed := by simp

theorem mem (h : Divided claims items) (hItem : item ∈ claims owner) : item ∈ items :=
  h.claimed.mpr ⟨owner, hItem⟩

variable [DecidableEq Owner]

/-- The claims after one owner's list was replaced. -/
theorem mem_update {list : List Item} {other : Owner} :
    item ∈ Function.update claims owner list other ↔
      (other = owner ∧ item ∈ list) ∨ (other ≠ owner ∧ item ∈ claims other) := by
  by_cases hSame : other = owner
  · subst hSame
    simp
  · simp [hSame]

theorem nodup_update {list : List Item} (h : Divided claims items) (hList : list.Nodup)
    (other : Owner) : (Function.update claims owner list other).Nodup := by
  by_cases hSame : other = owner
  · subst hSame
    simpa using hList
  · rw [Function.update_of_ne hSame]
    exact h.nodup other

/-- An owner may put its claims in another order. -/
theorem reorder (h : Divided claims items) {list : List Item} (hPerm : list.Perm (claims owner)) :
    Divided (Function.update claims owner list) items := by
  have hMem : ∀ {other found}, found ∈ Function.update claims owner list other ↔
      found ∈ claims other := by
    intro other found
    by_cases hSame : other = owner
    · subst hSame
      simpa using hPerm.mem_iff
    · rw [Function.update_of_ne hSame]
  refine ⟨h.nodup_update (hPerm.nodup_iff.mpr (h.nodup owner)), ?_, ?_⟩
  · intro one other found hOne hOther
    exact h.unique (hMem.mp hOne) (hMem.mp hOther)
  · intro found
    simp only [hMem]
    exact h.claimed

/-- An item that nobody claims goes to one owner. -/
theorem grant (h : Divided claims items) (hFresh : item ∉ items) {list : List Item}
    (hPerm : list.Perm (item :: claims owner)) :
    Divided (Function.update claims owner list) (insert item items) := by
  have hNobody : ∀ other, item ∉ claims other := fun other hItem => hFresh (h.mem hItem)
  have hMem : ∀ {other found}, found ∈ Function.update claims owner list other ↔
      (other = owner ∧ found = item) ∨ found ∈ claims other := by
    intro other found
    rw [mem_update, hPerm.mem_iff, List.mem_cons]
    by_cases hSame : other = owner
    · simp [hSame]
    · simp [hSame]
  have hNodup : list.Nodup :=
    hPerm.nodup_iff.mpr (List.nodup_cons.mpr ⟨hNobody owner, h.nodup owner⟩)
  refine ⟨h.nodup_update hNodup, ?_, ?_⟩
  · intro one other found hOne hOther
    rcases hMem.mp hOne with ⟨rfl, rfl⟩ | hOld
    · rcases hMem.mp hOther with ⟨rfl, _⟩ | hOther
      · rfl
      · exact absurd hOther (hNobody other)
    · rcases hMem.mp hOther with ⟨rfl, rfl⟩ | hOther
      · exact absurd hOld (hNobody one)
      · exact h.unique hOld hOther
  · intro found
    simp only [hMem, Set.mem_insert_iff, h.claimed]
    constructor
    · rintro (rfl | ⟨other, hOther⟩)
      · exact ⟨owner, .inl ⟨rfl, rfl⟩⟩
      · exact ⟨other, .inr hOther⟩
    · rintro ⟨other, ⟨_, rfl⟩ | hOther⟩
      · exact .inl rfl
      · exact .inr ⟨other, hOther⟩

/-- An owner gives one of its items up. -/
theorem release (h : Divided claims items) {list : List Item}
    (hPerm : (item :: list).Perm (claims owner)) :
    Divided (Function.update claims owner list) (items \ {item}) := by
  have hOwned : item ∈ claims owner := hPerm.mem_iff.mp (List.mem_cons_self ..)
  obtain ⟨hGone, hNodup⟩ := List.nodup_cons.mp (hPerm.nodup_iff.mpr (h.nodup owner))
  have hMem : ∀ {other found}, found ∈ Function.update claims owner list other ↔
      found ∈ claims other ∧ found ≠ item := by
    intro other found
    rw [mem_update]
    by_cases hSame : other = owner
    · subst hSame
      rw [← hPerm.mem_iff, List.mem_cons]
      constructor
      · rintro (⟨_, hFound⟩ | ⟨hNe, _⟩)
        · exact ⟨.inr hFound, fun hSame => hGone (hSame ▸ hFound)⟩
        · exact absurd rfl hNe
      · rintro ⟨hFound | hFound, hNe⟩
        · exact absurd hFound hNe
        · exact .inl ⟨rfl, hFound⟩
    · constructor
      · rintro (⟨hOwner, _⟩ | ⟨_, hFound⟩)
        · exact absurd hOwner hSame
        · refine ⟨hFound, fun hItem => hSame ?_⟩
          rw [hItem] at hFound
          exact h.unique hFound hOwned
      · rintro ⟨hFound, _⟩
        exact .inr ⟨hSame, hFound⟩
  refine ⟨h.nodup_update hNodup, ?_, ?_⟩
  · intro one other found hOne hOther
    exact h.unique (hMem.mp hOne).1 (hMem.mp hOther).1
  · intro found
    simp only [hMem, Set.mem_sdiff, Set.mem_singleton_iff, h.claimed]
    exact ⟨fun ⟨⟨other, hOther⟩, hNe⟩ => ⟨other, hOther, hNe⟩,
      fun ⟨other, hOther, hNe⟩ => ⟨⟨other, hOther⟩, hNe⟩⟩

end Divided
end Ownership
