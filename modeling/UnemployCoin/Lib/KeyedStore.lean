import UnemployCoin.Lib.StdMap
import Mathlib.Data.Set.Function
/-!
# Stores with computed keys

What belongs to an index is stored under a key that is computed from it.  The store does what a
function of the indexes would do, as long as no two indexes that are used have one key.
-/

namespace KeyedStore

inductive Write (ι ν : Type*) where
  | put (i : ι) (v : ν)
  | erase (i : ι)

variable {ι κ ν : Type*}

def Write.index : Write ι ν → ι
  | .put i _ => i
  | .erase i => i

def Write.value : Write ι ν → Option ν
  | .put _ v => some v
  | .erase _ => none

def Write.perform [DecidableEq κ] (key : ι → κ) (m : StdMap κ ν) : Write ι ν → StdMap κ ν
  | .put i v => m.assign (key i) v
  | .erase i => m.erase (key i)

def Write.record [DecidableEq ι] (f : ι → Option ν) (w : Write ι ν) : ι → Option ν :=
  Function.update f w.index w.value

variable [DecidableEq κ] {key : ι → κ}

theorem find?_perform (m : StdMap κ ν) (w : Write ι ν) (k : κ) :
    (w.perform key m).find? k = if k = key w.index then w.value else m.find? k := by
  cases w with
  | put i v => exact StdMap.find?_assign m (key i) k v
  | erase i => exact StdMap.find?_erase m (key i) k

variable [DecidableEq ι] {P : Set ι}

/-- **What was last written** for an index is there. -/
theorem find?_foldl_perform (hinj : Set.InjOn key P) {m : StdMap κ ν} {f : ι → Option ν}
    (hm : ∀ i ∈ P, m.find? (key i) = f i) {ws : List (Write ι ν)} (hws : ∀ w ∈ ws, w.index ∈ P)
    {i : ι} (hi : i ∈ P) :
    (ws.foldl (Write.perform key) m).find? (key i) = ws.foldl Write.record f i := by
  induction ws generalizing m f with
  | nil => exact hm i hi
  | cons w ws ih =>
    rw [List.forall_mem_cons] at hws
    refine ih (fun j hj => ?_) hws.2
    rw [find?_perform, Write.record]
    by_cases hjw : j = w.index
    · rw [hjw, if_pos rfl, Function.update_self]
    · rw [if_neg (fun heq => hjw (hinj hj hws.1 heq)), Function.update_of_ne hjw, hm j hj]

end KeyedStore
