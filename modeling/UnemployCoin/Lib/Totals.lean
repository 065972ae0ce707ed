import UnemployCoin.Lib.StdMap
import Mathlib.Algebra.Order.BigOperators.Group.List
import Mathlib.Algebra.Order.Group.Unbundled.Int
/-!
# Totals by key in 64 bits

A list of keyed 64-bit amounts, added up by key in a map.  The addition wraps, so what the map
holds is the exact total modulo `2 ^ 64`.
-/

namespace Totals

variable {κ : Type} [DecidableEq κ]

/-- `if (m.count(k)) m.at(k) += n; else m.insert(make_pair(k, n));`. -/
def add (m : StdMap κ Int64) (k : κ) (n : Int64) : StdMap κ Int64 :=
  match m.find? k with
  | some total => m.assign k (total + n)
  | none => m.emplace k n

def exact (l : List (κ × Int64)) (k : κ) : ℤ :=
  (l.map fun e => if e.1 = k then e.2.toInt else 0).sum

def wraps (l : List (κ × Int64)) (k : κ) : ℤ := (exact l k + 2 ^ 63) / 2 ^ 64

variable {l : List (κ × Int64)} {m : StdMap κ Int64} {k k' : κ} {n : Int64}

@[simp] theorem exact_nil : exact ([] : List (κ × Int64)) k = 0 := rfl

theorem exact_cons (e : κ × Int64) :
    exact (e :: l) k = (if e.1 = k then e.2.toInt else 0) + exact l k := by
  rw [exact, List.map_cons, List.sum_cons, exact]

theorem find?_add : (add m k n).find? k' =
    if k' = k then some ((m.find? k).elim n (· + n)) else m.find? k' := by
  cases hk : m.find? k with
  | none => simp [add, hk, StdMap.find?_emplace]
  | some total => simp [add, hk, StdMap.find?_assign]

theorem count_add : (add m k n).count k' = (decide (k' = k) || m.count k') := by
  rw [StdMap.count, find?_add, StdMap.count]
  by_cases h : k' = k <;> simp [h]

theorem count_foldl_add :
    (l.foldl (fun m e => add m e.1 e.2) m).count k = (m.count k || l.any fun e => e.1 = k) := by
  induction l generalizing m with
  | nil => simp
  | cons e l ih =>
    rw [List.foldl_cons, ih, count_add, List.any_cons]
    by_cases h : k = e.1 <;> simp [h, eq_comm, Bool.or_comm]

/-- The value a map holds for a key, as an integer; zero when there is none. -/
def valueAt (m : StdMap κ Int64) (k : κ) : ℤ := ((m.find? k).getD 0).toInt

theorem valueAt_add : valueAt (add m k n) k' =
    if k' = k then (valueAt m k + n.toInt).bmod (2 ^ 64) else valueAt m k' := by
  rw [valueAt, find?_add]
  by_cases h : k' = k
  · rw [if_pos h, if_pos h, valueAt, Option.getD_some]
    cases m.find? k with
    | none => simp [Int64.toInt_bmod]
    | some total => simp [Int64.toInt_add]
  · rw [if_neg h, if_neg h, valueAt]

theorem toInt_foldl_add : valueAt (l.foldl (fun m e => add m e.1 e.2) m) k =
    (valueAt m k + exact l k).bmod (2 ^ 64) := by
  induction l generalizing m with
  | nil => simp [valueAt, Int64.toInt_bmod]
  | cons e l ih =>
    rw [List.foldl_cons, ih, valueAt_add, exact_cons]
    by_cases h : k = e.1
    · rw [if_pos h, if_pos h.symm, Int.bmod_add_bmod, h, Int.add_assoc]
    · rw [if_neg h, if_neg (Ne.symm h), Int.zero_add]

theorem bmod_eq (x : ℤ) : x.bmod (2 ^ 64) = x - 2 ^ 64 * ((x + 2 ^ 63) / 2 ^ 64) := by
  rw [Int.bmod_eq_emod]
  split <;> omega

theorem toInt_sum {l : List Int64} :
    l.sum.toInt = (l.map Int64.toInt).sum.bmod (2 ^ 64) := by
  induction l with
  | nil => rfl
  | cons n l ih =>
    rw [List.sum_cons, Int64.toInt_add, ih, List.map_cons, List.sum_cons, Int.add_bmod_bmod]

/-- **Below `2 ^ 63` a sum is exact.** -/
theorem toInt_sum_of_lt {l : List Int64} (hnonneg : ∀ n ∈ l, 0 ≤ n.toInt)
    (h : (l.map Int64.toInt).sum < 2 ^ 63) : l.sum.toInt = (l.map Int64.toInt).sum := by
  have hpos : 0 ≤ (l.map Int64.toInt).sum := List.sum_nonneg (List.forall_mem_map.2 hnonneg)
  rw [toInt_sum, bmod_eq]
  omega

theorem exact_eq_iff {l₁ l₂ : List (κ × Int64)}
    (h : (exact l₁ k).bmod (2 ^ 64) = (exact l₂ k).bmod (2 ^ 64)) :
    exact l₁ k = exact l₂ k ↔ wraps l₁ k = wraps l₂ k := by
  rw [bmod_eq, bmod_eq] at h
  rw [wraps, wraps]
  constructor
  · intro heq
    rw [heq]
  · intro hwraps
    rw [hwraps] at h
    omega

end Totals
