import RDMAPatterns.Calls.Outcomes
import RDMAPatterns.Lifetimes.Objects

/-! Calls that create and destroy objects, for any state that keeps a store of
them. Objects of which each is used only by earlier ones in a list can be
destroyed in the order of the list. -/
namespace Lifetimes

open Calls

variable {σ ε α κ : Type} {kind : α → κ} {uses : α → List (κ × Nat)}

/-- A state with a store in it. -/
structure Keeper (σ : Type) (kind : α → κ) (uses : α → List (κ × Nat)) where
  store : σ → Store kind uses
  keep : σ → Store kind uses → σ
  store_keep : ∀ s d, store (keep s d) = d
  keep_keep : ∀ s d e, keep (keep s d) e = keep s e
  keep_store : ∀ s, keep s (store s) = s

namespace Keeper

/-- The second state has further objects, and is otherwise the first. -/
structure Added (K : Keeper σ kind uses) (s : σ) (new : List Nat) (t : σ) : Prop where
  same : t = K.keep s (K.store t)
  store : (K.store s).Extended new (K.store t)

/-- The second state is the first without some objects. -/
structure Dropped (K : Keeper σ kind uses) (s : σ) (lost : Set Nat) (t : σ) : Prop where
  same : t = K.keep s (K.store t)
  store : (K.store s).Without lost (K.store t)

variable {K : Keeper σ kind uses} {s t u : σ}

theorem keep_trans {d : Store kind uses} (h : t = K.keep s d) (hNext : u = K.keep t (K.store u)) :
    u = K.keep s (K.store u) := by
  rw [hNext, h, K.keep_keep, K.store_keep]

theorem Added.refl (s : σ) : K.Added s [] s := ⟨(K.keep_store s).symm, .refl _⟩

theorem Added.trans {new more : List Nat} (h : K.Added s new t) (hNext : K.Added t more u) :
    K.Added s (new ++ more) u :=
  ⟨keep_trans h.same hNext.same, h.store.trans hNext.store⟩

theorem Dropped.refl (s : σ) : K.Dropped s ∅ s := ⟨(K.keep_store s).symm, .refl _⟩

theorem Dropped.trans {lost more : Set Nat} (h : K.Dropped s lost t)
    (hNext : K.Dropped t more u) : K.Dropped s (lost ∪ more) u :=
  ⟨keep_trans h.same hNext.same, h.store.trans hNext.store⟩

theorem Dropped.congr {lost more : Set Nat} (h : K.Dropped s lost t)
    (hSame : ∀ gone, gone ∈ more ↔ gone ∈ lost) : K.Dropped s more t :=
  ⟨h.same, h.store.congr hSame⟩

variable {value : α}

/-- A creation changes only the store of the client. -/
theorem added_of_grown {d : Store kind uses} (h : (K.store s).Grown value d) :
    K.Added s [(K.store s).created] (K.keep s d) := by
  refine ⟨by rw [K.store_keep], ?_⟩
  rw [K.store_keep]
  exact h.extended

theorem dropped_of_without {d : Store kind uses} {lost : Set Nat}
    (h : (K.store s).Without lost d) : K.Dropped s lost (K.keep s d) := by
  refine ⟨by rw [K.store_keep], ?_⟩
  rwa [K.store_keep]

variable [DecidableEq κ]

/-- A call that creates an object and returns its handle. -/
def create (K : Keeper σ kind uses) (value : α) : Call σ ε Nat :=
  .operation fun s => ((K.store s).create value).map fun found => (found.1, K.keep s found.2)

/-- A call that destroys an object, and returns whether it was not busy. -/
def destroy (K : Keeper σ kind uses) (k : κ) (handle : Nat) : Call σ ε Bool :=
  .operation fun s => ((K.store s).destroy k handle).map fun found => (found.1, K.keep s found.2)

/-- One object after the other, whether or not it is busy. -/
def destroyEach (K : Keeper σ kind uses) (list : List (κ × Nat)) : Call σ ε PUnit :=
  list.forM fun found => do
    let _ ← K.destroy found.1 found.2
    return

variable {failed : ε → σ → Prop} {k : κ} {handle : Nat}

/-- A client may create an object if all that it refers to is alive. -/
theorem create_ensures {ok : Nat → σ → Prop}
    (hUses : ∀ used ∈ uses value, (K.store s).Holds used.1 used.2)
    (hOk : ∀ {d}, (K.store s).Grown value d → ok (K.store s).created (K.keep s d)) :
    Ensures (K.create value) s ok failed := by
  obtain ⟨d, hCreate, hGrown⟩ := Store.create_ok hUses
  exact .operation (by rw [hCreate]; rfl) (hOk hGrown)

/-- A client may destroy an object that is alive. Whether it goes depends on its users. -/
theorem destroy_ensures (hLive : (K.store s).Holds k handle) :
    Ensures (K.destroy k handle) s
      (fun _ t => K.Dropped s {gone | gone = handle ∧ ¬ (K.store s).Busy handle} t) failed := by
  obtain ⟨ended, d, hDestroy, hWithout⟩ := Store.destroy_live hLive
  exact .operation (by rw [hDestroy]; rfl) (dropped_of_without hWithout)

theorem destroy_idle (hLive : (K.store s).Holds k handle) (hIdle : ¬ (K.store s).Busy handle) :
    Ensures (K.destroy k handle) s
      (fun ended t => ended = true ∧ K.Dropped s {handle} t) failed := by
  obtain ⟨d, hDestroy, hWithout⟩ := Store.destroy_ok hLive hIdle
  exact .operation (by rw [hDestroy]; rfl) ⟨rfl, dropped_of_without hWithout⟩

theorem destroy_busy (hLive : (K.store s).Holds k handle) (hBusy : (K.store s).Busy handle) :
    Ensures (K.destroy k handle) s (fun ended t => ended = false ∧ t = s) failed :=
  .operation (by rw [Store.destroy_busy hLive hBusy]; rfl) ⟨rfl, K.keep_store s⟩

/-- Users first: then every object of the list is destroyed. -/
theorem destroyEach_ensures {list : List (κ × Nat)}
    (hLive : ∀ found ∈ list, (K.store s).Holds found.1 found.2)
    (hNodup : (list.map Prod.snd).Nodup)
    (hUsers : ∀ found ∈ list, ∀ user, (K.store s).Uses user found.2 → user ∈ list.map Prod.snd)
    (hOrder : list.Pairwise fun found later => ¬ (K.store s).Uses later.2 found.2) :
    Ensures (K.destroyEach list) s (fun _ t => K.Dropped s {gone | gone ∈ list.map Prod.snd} t)
      failed := by
  apply Ensures.forM (fun done t => K.Dropped s {gone | gone ∈ done.map Prod.snd} t)
  · exact (Dropped.refl s).congr fun gone => by simp
  · intro done found rest t hList ht
    have hNew : found.2 ∉ done.map Prod.snd := by
      rw [hList, List.map_append, List.nodup_append] at hNodup
      exact fun hOld => hNodup.2.2 _ hOld _ (by simp) rfl
    have hNow : (K.store t).Holds found.1 found.2 :=
      ht.store.holds_iff.mpr ⟨hNew, hLive found (by simp [hList])⟩
    have hIdle : ¬ (K.store t).Busy found.2 := by
      rintro ⟨user, hUses⟩
      obtain ⟨hKept, hOld⟩ := ht.store.uses_iff.mp hUses
      obtain ⟨other, hOther, rfl⟩ := List.mem_map.mp (hUsers found (by simp [hList]) user hOld)
      rw [hList, List.mem_append, List.mem_cons] at hOther
      rcases hOther with hDone | rfl | hRest
      · exact hKept (List.mem_map_of_mem hDone)
      · exact Nat.lt_irrefl _ (Store.lt_of_uses hOld)
      · rw [hList, List.pairwise_append, List.pairwise_cons] at hOrder
        exact hOrder.2.1.1 other hRest hOld
    refine .bind (destroy_idle hNow hIdle) ?_
    rintro _ u ⟨-, hu⟩
    exact .pure ((ht.trans hu).congr fun gone => by simp [or_comm])

end Keeper
end Lifetimes
