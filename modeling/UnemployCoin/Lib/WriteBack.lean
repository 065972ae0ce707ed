import Mathlib.Logic.Function.Basic
import Mathlib.Tactic.Common
/-!
# A write-back cache over a store

A cache keeps, for some keys, its own version of the value: a value, or none where the key has
been erased.  An entry is **dirty** when its version may differ from the one below, and **fresh**
when there is none below, so that an erased fresh entry can be dropped and need not be written.

A cache is read through a store of type `κ → Option ν`, which is all that the lemmas know about
what lies below; so the store may be a cache again.
-/

namespace WriteBack

variable {κ ν : Type*}

/-- A cached version of a value; `none` where it has been erased. -/
structure Entry (ν : Type*) where
  value : Option ν
  dirty : Bool
  fresh : Bool

def shows (below : Option ν) : Option (Entry ν) → Option ν
  | none => below
  | some entry => entry.value

/-- What the flags of a cache entry promise about the value below. -/
structure Entry.Sound (below : Option ν) (entry : Entry ν) : Prop where
  fresh : entry.fresh = true → below = none
  clean : entry.dirty = false → entry.value = below

def Sound (below : Option ν) (cell : Option (Entry ν)) : Prop :=
  ∀ entry ∈ cell, entry.Sound below

@[simp] theorem shows_none (below : Option ν) : shows below none = below := rfl

@[simp] theorem shows_some (below : Option ν) (entry : Entry ν) :
    shows below (some entry) = entry.value := rfl

@[simp] theorem sound_none (below : Option ν) : Sound below none := by
  intro entry h
  cases h

@[simp] theorem sound_some {below : Option ν} {entry : Entry ν} :
    Sound below (some entry) ↔ entry.Sound below := by
  constructor
  · intro h
    exact h entry rfl
  · intro h entry' hentry
    cases hentry
    exact h

variable {below : Option ν} {cell : Option (Entry ν)} {entry child : Entry ν}

/-! ## One key -/

def load (below : Option ν) : Entry ν := ⟨below, false, below.isNone⟩

theorem sound_load (below : Option ν) : (load below).Sound below where
  fresh h := Option.isNone_iff_eq_none.1 h
  clean _ := rfl

/-- A write over an entry.  It may be marked fresh when it is not an overwrite and the old
entry, if any, had nothing to write back. -/
def write (cell : Option (Entry ν)) (v : ν) (overwrite : Bool) : Entry ν :=
  ⟨some v, true,
    cell.any Entry.fresh || !overwrite && !cell.any Entry.dirty⟩

theorem sound_write {v : ν} {overwrite : Bool} (h : Sound below cell)
    (hfree : overwrite = false → shows below cell = none) :
    (write cell v overwrite).Sound below := by
  refine ⟨fun hfresh => ?_, fun hdirty => by cases hdirty⟩
  cases cell with
  | none =>
    have hno : overwrite = false := by simpa [write] using hfresh
    exact hfree hno
  | some entry =>
    have hentry := sound_some.1 h
    rcases Bool.eq_false_or_eq_true entry.fresh with hf | hf
    · exact hentry.fresh hf
    · have hclean : overwrite = false ∧ entry.dirty = false := by simpa [write, hf] using hfresh
      rw [← hentry.clean hclean.2]
      exact hfree hclean.1

def erase (entry : Entry ν) : Option (Entry ν) :=
  if entry.fresh then none else some ⟨none, true, entry.fresh⟩

theorem sound_erase (entry : Entry ν) : Sound below (erase entry) := by
  rw [erase]
  split
  · exact sound_none below
  · rename_i hfresh
    exact sound_some.2 ⟨fun h => absurd h hfresh, fun h => by cases h⟩

theorem shows_erase (h : entry.Sound below) : shows below (erase entry) = none := by
  rw [erase]
  split
  · rename_i hfresh
    exact h.fresh hfresh
  · rfl

theorem shows_drop (h : entry.Sound below) (hdirty : entry.dirty = false) :
    shows below none = shows below (some entry) := (h.clean hdirty).symm

/-! ## Writing back -/

/-- Writes an entry of the cache above into the one below.  It fails where a fresh entry meets
a value. -/
def merge (cell : Option (Entry ν)) (child : Entry ν) : Option (Option (Entry ν)) :=
  if child.dirty = false then some cell
  else if child.fresh && cell.any (·.value.isSome) then none
  else if cell.elim child.fresh Entry.fresh && child.value.isNone then some none
  else some (some ⟨child.value, true, cell.elim child.fresh Entry.fresh⟩)

theorem merge_eq_some {cell' : Option (Entry ν)} (h : merge cell child = some cell') :
    (child.dirty = false ∧ cell' = cell) ∨
    (child.dirty = true ∧ child.value = none ∧ cell.elim child.fresh Entry.fresh = true ∧
      cell' = none) ∨
    (child.dirty = true ∧ cell' = some ⟨child.value, true, cell.elim child.fresh Entry.fresh⟩) := by
  unfold merge at h
  split at h
  · rename_i hclean
    cases h
    exact .inl ⟨hclean, rfl⟩
  · rename_i hdirty
    rw [Bool.not_eq_false] at hdirty
    split at h
    · cases h
    · split at h
      · rename_i hdrop
        cases h
        rw [Bool.and_eq_true, Option.isNone_iff_eq_none] at hdrop
        exact .inr (.inl ⟨hdirty, hdrop.2, hdrop.1, rfl⟩)
      · cases h
        exact .inr (.inr ⟨hdirty, rfl⟩)

/-- **A sound fresh entry never meets a value.** -/
theorem merge_ne_none (hchild : child.Sound (shows below cell)) : merge cell child ≠ none := by
  unfold merge
  split
  · exact Option.some_ne_none _
  · split
    · rename_i h
      rw [Bool.and_eq_true] at h
      obtain ⟨hfresh, hvalue⟩ := h
      cases cell with
      | none => cases hvalue
      | some entry =>
        have hnone : entry.value = none := hchild.fresh hfresh
        rw [Option.any_some, hnone] at hvalue
        cases hvalue
    · split <;> exact Option.some_ne_none _

theorem fresh_merge (hcell : Sound below cell) (hchild : child.Sound (shows below cell))
    (h : cell.elim child.fresh Entry.fresh = true) : below = none := by
  cases cell with
  | none => exact hchild.fresh h
  | some entry => exact (sound_some.1 hcell).fresh h

/-- **The cache below then shows what the one above showed.** -/
theorem shows_merge {cell' : Option (Entry ν)} (hcell : Sound below cell)
    (hchild : child.Sound (shows below cell)) (h : merge cell child = some cell') :
    shows below cell' = child.value := by
  rcases merge_eq_some h with ⟨hclean, rfl⟩ | ⟨-, hvalue, hfresh, rfl⟩ | ⟨-, rfl⟩
  · exact (hchild.clean hclean).symm
  · rw [hvalue]
    exact fresh_merge hcell hchild hfresh
  · rfl

theorem sound_merge {cell' : Option (Entry ν)} (hcell : Sound below cell)
    (hchild : child.Sound (shows below cell)) (h : merge cell child = some cell') :
    Sound below cell' := by
  rcases merge_eq_some h with ⟨-, rfl⟩ | ⟨-, -, -, rfl⟩ | ⟨-, rfl⟩
  · exact hcell
  · exact sound_none below
  · exact sound_some.2 ⟨fresh_merge hcell hchild, fun h => by cases h⟩

end WriteBack
