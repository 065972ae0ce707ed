import UnemployCoin.Lib.Staged
/-!
# A copy of staged changes

A layer of staged changes can be built up on a **copy** of the layer below, or on nothing.  The same
additions are made to both, and each is flushed into the layer below afterwards.
-/

namespace Staged

open StdMap

variable {κ ν : Type} [DecidableEq κ] {overwrite : Bool} {bottom top copy : Staged κ ν}

/-- `copy` has what `bottom` has and the additions that `top` has. -/
structure CopyOf (overwrite : Bool) (bottom top copy : Staged κ ν) : Prop where
  noRemoval : ∀ k, top.toRemove.find? k = none
  toAdd : ∀ k, copy.toAdd.find? k =
    StdMap.merge overwrite (top.toAdd.find? k) (bottom.toAdd.find? k)
  toRemove : ∀ k, copy.toRemove.find? k =
    if top.toAdd.count k then none else bottom.toRemove.find? k

namespace CopyOf

theorem start (overwrite : Bool) (bottom : Staged κ ν) : CopyOf overwrite bottom ∅ bottom where
  noRemoval k := find?_empty k
  toAdd k := by
    rw [toAdd_empty, find?_empty]
    cases overwrite with
    | true => rfl
    | false => exact (Option.or_none).symm
  toRemove k := by
    rw [toAdd_empty, count_empty, if_neg Bool.false_ne_true]

/-- **The same addition** to both. -/
theorem add (h : CopyOf overwrite bottom top copy) (k : κ) (v : ν) :
    CopyOf overwrite bottom (top.add overwrite k v) (copy.add overwrite k v) where
  noRemoval k' := by
    rw [find?_add_toRemove, h.noRemoval, ite_self]
  toAdd k' := by
    rw [find?_add_toAdd, find?_add_toAdd, h.toAdd, h.toAdd]
    by_cases hk : k' = k
    · rw [if_pos hk, if_pos hk, hk]
      cases overwrite with
      | true => rfl
      | false =>
        cases bottom.toAdd.find? k with
        | none => cases top.toAdd.find? k <;> rfl
        | some v' => rfl
    · rw [if_neg hk, if_neg hk]
  toRemove k' := by
    rw [find?_add_toRemove, count_add_toAdd, h.toRemove]
    by_cases hk : k' = k
    · rw [if_pos hk, decide_eq_true hk, Bool.true_or, if_pos rfl]
    · rw [if_neg hk, decide_eq_false hk, Bool.false_or]

theorem count_toAdd (h : CopyOf overwrite bottom top copy) (k : κ) :
    copy.toAdd.count k = (top.toAdd.count k || bottom.toAdd.count k) := by
  rw [StdMap.count, h.toAdd, StdMap.count, StdMap.count]
  cases overwrite <;> cases top.toAdd.find? k <;> cases bottom.toAdd.find? k <;> rfl

theorem toRemove_of_bottom (h : CopyOf overwrite bottom top copy) {k : κ}
    (hk : bottom.toRemove.find? k = none) : copy.toRemove.find? k = none := by
  rw [h.toRemove, hk, ite_self]

/-- **The removals after either flush** are the same. -/
theorem find?_flush_toRemove (h : CopyOf overwrite bottom top copy) (flushed : Bool) (k : κ) :
    (flush flushed copy bottom).toRemove.find? k = (flush flushed top bottom).toRemove.find? k := by
  rw [Staged.find?_flush_toRemove, Staged.find?_flush_toRemove, h.noRemoval, h.toRemove,
    h.count_toAdd]
  cases htop : top.toAdd.count k with
  | true => rfl
  | false =>
    rw [Bool.false_or, if_neg Bool.false_ne_true]
    cases bottom.toAdd.count k <;> cases flushed <;> cases bottom.toRemove.find? k <;> rfl

theorem find?_flush_toAdd (h : CopyOf overwrite bottom top copy) (hbottom : bottom.Exclusive)
    (flushed : Bool) (k : κ) : (flush flushed copy bottom).toAdd.find? k =
      StdMap.merge flushed (copy.toAdd.find? k) (bottom.toAdd.find? k) := by
  rw [Staged.find?_flush_toAdd]
  cases hremove : copy.toRemove.count k with
  | false => rw [if_neg Bool.false_ne_true]
  | true =>
    obtain ⟨v, hv⟩ := count_eq_true.1 hremove
    rw [h.toRemove] at hv
    split at hv
    · cases hv
    · rename_i htop
      rw [Bool.not_eq_true, count_eq_false] at htop
      have hnone : bottom.toAdd.find? k = none := by
        refine (hbottom k).resolve_right ?_
        rw [hv]
        exact Option.some_ne_none v
      rw [if_pos rfl, h.toAdd, htop, hnone]
      cases overwrite <;> cases flushed <;> rfl

theorem find?_flush_top (h : CopyOf overwrite bottom top copy) (flushed : Bool) (k : κ) :
    (flush flushed top bottom).toAdd.find? k =
      StdMap.merge flushed (top.toAdd.find? k) (bottom.toAdd.find? k) := by
  have hcount : top.toRemove.count k = false := count_eq_false.2 (h.noRemoval k)
  rw [Staged.find?_flush_toAdd, hcount, if_neg Bool.false_ne_true]

/-- **The additions after either flush** are the same, where the flush treats an entry that is there
as the additions do. -/
theorem find?_flush_eq (h : CopyOf overwrite bottom top copy) (hbottom : bottom.Exclusive)
    (k : κ) : (flush overwrite copy bottom).toAdd.find? k =
      (flush overwrite top bottom).toAdd.find? k := by
  rw [h.find?_flush_toAdd hbottom, h.find?_flush_top, h.toAdd]
  cases overwrite <;> cases top.toAdd.find? k <;> cases bottom.toAdd.find? k <;> rfl

end CopyOf

end Staged
