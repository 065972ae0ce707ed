import UnemployCoin.Lib.StdMap
/-!
# A map that remembers values of a function

A map caches a function when every value in it is the one of the function.  Then a lookup may take
the place of a computation, and what is computed may be put into the map.
-/

namespace StdMap

variable {κ ν : Type*} [DecidableEq κ] {f : κ → ν} {m : StdMap κ ν} {k : κ} {v : ν}

def Caches (f : κ → ν) (m : StdMap κ ν) : Prop := ∀ k v, m.find? k = some v → v = f k

theorem Caches.empty : Caches f (∅ : StdMap κ ν) := by
  intro k v h
  rw [find?_empty] at h
  cases h

theorem Caches.assign (h : Caches f m) (hv : v = f k) : Caches f (m.assign k v) := by
  intro k' v' h'
  rw [find?_assign] at h'
  split at h'
  · rename_i heq
    cases h'
    rw [heq, hv]
  · exact h k' v' h'

end StdMap
