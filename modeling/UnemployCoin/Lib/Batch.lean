import UnemployCoin.Lib.Toggles
/-!
# Batches of writes

A batch assigns values to keys of a store and erases keys, in order.
-/

namespace Batch

open StdMap Toggles

variable {κ ν : Type} [DecidableEq κ]

def write (m : StdMap κ ν) (e : κ × Option ν) : StdMap κ ν :=
  match e.2 with
  | some v => m.assign e.1 v
  | none => m.erase e.1

def writeAll (m : StdMap κ ν) (l : List (κ × Option ν)) : StdMap κ ν := l.foldl write m

def Same (m n : StdMap κ ν) : Prop := ∀ k, m.find? k = n.find? k

variable {m n o : StdMap κ ν} {l l' l₁ l₁' l₂ l₂' : List (κ × Option ν)} {k : κ}

theorem find?_write (e : κ × Option ν) :
    (write m e).find? k = if k = e.1 then e.2 else m.find? k := by
  rw [write]
  cases e.2 with
  | some v => exact find?_assign m e.1 k v
  | none => exact find?_erase m e.1 k

@[simp] theorem writeAll_nil : writeAll m [] = m := rfl

theorem writeAll_append : writeAll m (l ++ l') = writeAll (writeAll m l) l' := List.foldl_append

theorem find?_writeAll : (writeAll m l).find? k = (last? l k).getD (m.find? k) := by
  induction l using List.reverseRecOn with
  | nil => rfl
  | append_singleton l e ih =>
    rw [writeAll_append, last?_append_singleton]
    have hlast : writeAll (writeAll m l) [e] = write (writeAll m l) e := rfl
    rw [hlast, find?_write]
    by_cases hk : e.1 = k
    · rw [if_pos hk.symm, if_pos hk, Option.getD_some]
    · rw [if_neg fun h => hk h.symm, if_neg hk, ih]

theorem find?_writeAll_of_not_mem (h : k ∉ l.map Prod.fst) :
    (writeAll m l).find? k = m.find? k := by
  have hlast : last? l k = none := by
    rw [last?_eq_none]
    intro e he heq
    exact h (List.mem_map.2 ⟨e, he, heq⟩)
  rw [find?_writeAll, hlast, Option.getD_none]

/-- After the first batch, the second one brings back what was there. -/
def Undoes (m : StdMap κ ν) (l l' : List (κ × Option ν)) : Prop :=
  Same (writeAll (writeAll m l) l') m

theorem undoes_erasures_iff {ks : List κ} (hall : ∀ e ∈ l, e.1 ∈ ks) :
    Undoes m l (ks.map fun k => (k, none)) ↔ ∀ k ∈ ks, m.find? k = none := by
  have hfst : (ks.map fun k => ((k, none) : κ × Option ν)).map Prod.fst = ks := by
    rw [List.map_map]
    exact List.map_id ks
  have herased : ∀ k ∈ ks,
      (writeAll (writeAll m l) (ks.map fun k => (k, none))).find? k = none := by
    intro k hk
    rw [find?_writeAll]
    cases hlast : last? (ks.map fun k => ((k, none) : κ × Option ν)) k with
    | none => exact absurd rfl (last?_eq_none.1 hlast (k, none) (List.mem_map_of_mem hk))
    | some v =>
      obtain ⟨k', -, heq⟩ := List.mem_map.1 (mem_of_last? hlast)
      rw [← (Prod.mk.inj heq).2]
      rfl
  constructor
  · intro hundo k hk
    rw [← hundo k]
    exact herased k hk
  · intro hnew k
    by_cases hk : k ∈ ks
    · rw [herased k hk, hnew k hk]
    · rw [find?_writeAll_of_not_mem (by rw [hfst]; exact hk), find?_writeAll_of_not_mem]
      intro hmem
      obtain ⟨e, he, rfl⟩ := List.mem_map.1 hmem
      exact hk (hall e he)

end Batch
