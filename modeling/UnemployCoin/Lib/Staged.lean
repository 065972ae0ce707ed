import UnemployCoin.Lib.StdMap
/-!
# Staged changes

Changes that wait to be written to a store: entries to add and entries to remove, keyed alike.
Staging an entry on one side takes the key off the other side.  When the key is staged on the
same side already, the entry there is kept or overwritten, as the first argument says.
-/

/-- Entries to add to a store, and entries to remove from it. -/
structure Staged (κ ν : Type) where
  toAdd : StdMap κ ν
  toRemove : StdMap κ ν
  deriving DecidableEq

namespace Staged

variable {κ ν : Type}

instance : EmptyCollection (Staged κ ν) := ⟨⟨∅, ∅⟩⟩

@[simp] theorem toAdd_empty : (∅ : Staged κ ν).toAdd = ∅ := rfl

@[simp] theorem toRemove_empty : (∅ : Staged κ ν).toRemove = ∅ := rfl

open StdMap

variable [DecidableEq κ]

def add (overwrite : Bool) (s : Staged κ ν) (k : κ) (v : ν) : Staged κ ν where
  toAdd := put overwrite s.toAdd k v
  toRemove := s.toRemove.erase k

def remove (overwrite : Bool) (s : Staged κ ν) (k : κ) (v : ν) : Staged κ ν where
  toAdd := s.toAdd.erase k
  toRemove := put overwrite s.toRemove k v

/-- Stages everything that `top` stages, first what it adds and then what it removes. -/
def flush (overwrite : Bool) (top bottom : Staged κ ν) : Staged κ ν :=
  top.toRemove.entries.foldl (fun s e => s.remove overwrite e.1 e.2)
    (top.toAdd.entries.foldl (fun s e => s.add overwrite e.1 e.2) bottom)

variable {overwrite : Bool} {s top bottom : Staged κ ν} {k k' : κ} {v : ν}

@[simp] theorem find?_add_toAdd : (s.add overwrite k v).toAdd.find? k' =
    if k' = k then some (putValue overwrite (s.toAdd.find? k) v) else s.toAdd.find? k' :=
  find?_put

@[simp] theorem find?_add_toRemove : (s.add overwrite k v).toRemove.find? k' =
    if k' = k then none else s.toRemove.find? k' :=
  StdMap.find?_erase s.toRemove k k'

@[simp] theorem find?_remove_toAdd : (s.remove overwrite k v).toAdd.find? k' =
    if k' = k then none else s.toAdd.find? k' :=
  StdMap.find?_erase s.toAdd k k'

@[simp] theorem find?_remove_toRemove : (s.remove overwrite k v).toRemove.find? k' =
    if k' = k then some (putValue overwrite (s.toRemove.find? k) v) else s.toRemove.find? k' :=
  find?_put

@[simp] theorem count_add_toAdd :
    (s.add overwrite k v).toAdd.count k' = (decide (k' = k) || s.toAdd.count k') := count_put

@[simp] theorem count_add_toRemove :
    (s.add overwrite k v).toRemove.count k' = (!decide (k' = k) && s.toRemove.count k') :=
  StdMap.count_erase s.toRemove k k'

@[simp] theorem count_remove_toAdd :
    (s.remove overwrite k v).toAdd.count k' = (!decide (k' = k) && s.toAdd.count k') :=
  StdMap.count_erase s.toAdd k k'

@[simp] theorem count_remove_toRemove :
    (s.remove overwrite k v).toRemove.count k' = (decide (k' = k) || s.toRemove.count k') :=
  count_put

def Exclusive (s : Staged κ ν) : Prop :=
  ∀ k, s.toAdd.find? k = none ∨ s.toRemove.find? k = none

theorem Exclusive.empty : Exclusive (∅ : Staged κ ν) := fun k => Or.inl (StdMap.find?_empty k)

theorem Exclusive.add (h : s.Exclusive) : (s.add overwrite k v).Exclusive := by
  intro k'
  by_cases hk : k' = k
  · right
    rw [find?_add_toRemove, if_pos hk]
  · rw [find?_add_toAdd, find?_add_toRemove, if_neg hk, if_neg hk]
    exact h k'

theorem Exclusive.remove (h : s.Exclusive) : (s.remove overwrite k v).Exclusive := by
  intro k'
  by_cases hk : k' = k
  · left
    rw [find?_remove_toAdd, if_pos hk]
  · rw [find?_remove_toAdd, find?_remove_toRemove, if_neg hk, if_neg hk]
    exact h k'

/-! ## Flushing -/

theorem toAdd_foldl_add (l : List (κ × ν)) (s : Staged κ ν) :
    (l.foldl (fun s e => s.add overwrite e.1 e.2) s).toAdd =
      l.foldl (fun m e => put overwrite m e.1 e.2) s.toAdd := by
  induction l generalizing s with
  | nil => rfl
  | cons e l ih => rw [List.foldl_cons, ih]; rfl

theorem toRemove_foldl_add (l : List (κ × ν)) (s : Staged κ ν) :
    (l.foldl (fun s e => s.add overwrite e.1 e.2) s).toRemove =
      l.foldl (fun m e => m.erase e.1) s.toRemove := by
  induction l generalizing s with
  | nil => rfl
  | cons e l ih => rw [List.foldl_cons, ih]; rfl

theorem toAdd_foldl_remove (l : List (κ × ν)) (s : Staged κ ν) :
    (l.foldl (fun s e => s.remove overwrite e.1 e.2) s).toAdd =
      l.foldl (fun m e => m.erase e.1) s.toAdd := by
  induction l generalizing s with
  | nil => rfl
  | cons e l ih => rw [List.foldl_cons, ih]; rfl

theorem toRemove_foldl_remove (l : List (κ × ν)) (s : Staged κ ν) :
    (l.foldl (fun s e => s.remove overwrite e.1 e.2) s).toRemove =
      l.foldl (fun m e => put overwrite m e.1 e.2) s.toRemove := by
  induction l generalizing s with
  | nil => rfl
  | cons e l ih => rw [List.foldl_cons, ih]; rfl

theorem find?_flush_toAdd : (flush overwrite top bottom).toAdd.find? k =
    if top.toRemove.count k then none
    else merge overwrite (top.toAdd.find? k) (bottom.toAdd.find? k) := by
  rw [flush, toAdd_foldl_remove, find?_foldl_erase, entries_find?_isSome, toAdd_foldl_add,
    find?_foldl_put _ _ _ (entries_nodup _), entries_find?]

theorem find?_flush_toRemove : (flush overwrite top bottom).toRemove.find? k =
    merge overwrite (top.toRemove.find? k)
      (if top.toAdd.count k then none else bottom.toRemove.find? k) := by
  rw [flush, toRemove_foldl_remove, find?_foldl_put _ _ _ (entries_nodup _), entries_find?,
    toRemove_foldl_add, find?_foldl_erase, entries_find?_isSome]

theorem count_flush_toAdd : (flush overwrite top bottom).toAdd.count k =
    (!top.toRemove.count k && (top.toAdd.count k || bottom.toAdd.count k)) := by
  rw [count, find?_flush_toAdd]
  cases top.toRemove.count k with
  | true => rfl
  | false => cases overwrite <;> simp [merge, count, Bool.or_comm]

theorem count_flush_toRemove : (flush overwrite top bottom).toRemove.count k =
    (top.toRemove.count k || !top.toAdd.count k && bottom.toRemove.count k) := by
  rw [count, find?_flush_toRemove]
  cases top.toAdd.count k with
  | true => cases overwrite <;> simp [merge, count]
  | false => cases overwrite <;> simp [merge, count, Bool.or_comm]

theorem of_find?_flush_toAdd (h : (flush overwrite top bottom).toAdd.find? k = some v) :
    top.toAdd.find? k = some v ∨ bottom.toAdd.find? k = some v := by
  rw [find?_flush_toAdd] at h
  split at h
  · cases h
  · exact of_merge_eq_some h

theorem of_find?_flush_toRemove (h : (flush overwrite top bottom).toRemove.find? k = some v) :
    top.toRemove.find? k = some v ∨ bottom.toRemove.find? k = some v := by
  rw [find?_flush_toRemove] at h
  rcases of_merge_eq_some h with htop | hbottom
  · exact Or.inl htop
  · split at hbottom
    · cases hbottom
    · exact Or.inr hbottom

theorem foldl_add_exclusive (l : List (κ × ν)) (h : s.Exclusive) :
    (l.foldl (fun s e => s.add overwrite e.1 e.2) s).Exclusive := by
  induction l generalizing s with
  | nil => exact h
  | cons e l ih => exact ih h.add

theorem foldl_remove_exclusive (l : List (κ × ν)) (h : s.Exclusive) :
    (l.foldl (fun s e => s.remove overwrite e.1 e.2) s).Exclusive := by
  induction l generalizing s with
  | nil => exact h
  | cons e l ih => exact ih h.remove

theorem Exclusive.flush (h : bottom.Exclusive) : (flush overwrite top bottom).Exclusive :=
  foldl_remove_exclusive _ (foldl_add_exclusive _ h)

/-! ## What is staged, whatever the order -/

/-- The same values are staged for the same keys. -/
structure Same (s s' : Staged κ ν) : Prop where
  toAdd : ∀ k, s.toAdd.find? k = s'.toAdd.find? k
  toRemove : ∀ k, s.toRemove.find? k = s'.toRemove.find? k

theorem Same.refl (s : Staged κ ν) : Same s s := ⟨fun _ => rfl, fun _ => rfl⟩

theorem Same.symm {s s' : Staged κ ν} (h : Same s s') : Same s' s :=
  ⟨fun k => (h.toAdd k).symm, fun k => (h.toRemove k).symm⟩

theorem Same.trans {s s' s'' : Staged κ ν} (h : Same s s') (h' : Same s' s'') : Same s s'' :=
  ⟨fun k => (h.toAdd k).trans (h'.toAdd k), fun k => (h.toRemove k).trans (h'.toRemove k)⟩

theorem Same.flush {top top' : Staged κ ν} (h : Same top top') (overwrite : Bool)
    (bottom : Staged κ ν) :
    Same (Staged.flush overwrite top bottom) (Staged.flush overwrite top' bottom) := by
  constructor
  · intro k
    rw [find?_flush_toAdd, find?_flush_toAdd, StdMap.count, StdMap.count, h.toAdd, h.toRemove]
  · intro k
    rw [find?_flush_toRemove, find?_flush_toRemove, StdMap.count, StdMap.count, h.toAdd, h.toRemove]

end Staged
