import Mathlib.Order.Lattice
import Mathlib.Data.List.MinMax
import Mathlib.Data.Finset.Card
import UnemployCoin.Lib.StdMap
/-!
# Sweeps over an ordered map

Iterators of a `std::map` are keys, in ascending order.  A sweep visits an entry after it has gone
on to the next one, and what it visits may be erased.  An iterator to an entry that is gone is
**stale**, and following it fails.
-/

namespace StdMap

variable {κ ν : Type*} [LinearOrder κ]

def leastKey (m : StdMap κ ν) (p : κ → Bool) : Option κ := (m.keys.filter p).min?

/-- `begin`. -/
def first (m : StdMap κ ν) : Option κ := m.leastKey fun _ => true

def lowerBound (m : StdMap κ ν) (k : κ) : Option κ := m.leastKey fun k' => decide (k ≤ k')

/-- `upper_bound`, the iterator after the one to `k`. -/
def upperBound (m : StdMap κ ν) (k : κ) : Option κ := m.leastKey fun k' => decide (k < k')

variable {m : StdMap κ ν} {p : κ → Bool} {k : κ}

theorem mem_leastKey : m.leastKey p = some k ↔
    m.count k = true ∧ p k = true ∧ ∀ k', m.count k' = true → p k' = true → k ≤ k' := by
  rw [leastKey, List.min?_eq_some_iff, List.mem_filter, mem_keys, and_assoc]
  simp only [List.mem_filter, mem_keys, and_imp]

theorem leastKey_eq_none : m.leastKey p = none ↔ ∀ k, m.count k = true → p k = false := by
  rw [leastKey, List.min?_eq_none_iff, List.filter_eq_nil_iff]
  simp only [mem_keys, Bool.not_eq_true]

theorem mem_upperBound {k' : κ} : m.upperBound k = some k' ↔
    m.count k' = true ∧ k < k' ∧ ∀ k'', m.count k'' = true → k < k'' → k' ≤ k'' := by
  rw [upperBound, mem_leastKey]
  simp only [decide_eq_true_eq]

theorem upperBound_eq_none : m.upperBound k = none ↔ ∀ k', m.count k' = true → k' ≤ k := by
  rw [upperBound, leastKey_eq_none]
  simp only [decide_eq_false_iff_not, not_lt]

end StdMap

namespace Sweep

open StdMap

variable {κ ν σ : Type*} [LinearOrder κ] (map : σ → StdMap κ ν) (visit : σ → κ → ν → σ)

def sweep : ℕ → Option κ → σ → Option σ
  | 0, _, _ => none
  | _ + 1, none, s => some s
  | n + 1, some k, s =>
    match (map s).find? k with
    | none => none
    | some v => sweep n ((map s).upperBound k) (visit s k v)

/-- The loop from `begin` on. -/
def sweepAll (s : σ) : Option σ := sweep map visit ((map s).size + 1) (map s).first s

variable {map visit} {n : ℕ} {s : σ} {iter : Option κ} {I : σ → Prop} {P : κ → ν → Prop}

structure Visits (map : σ → StdMap κ ν) (visit : σ → κ → ν → σ) (I : σ → Prop)
    (P : κ → ν → Prop) : Prop where
  keeps : ∀ s k v, I s → (map s).find? k = some v → I (visit s k v)
  /-- It leaves the entry as it is, or erases it. -/
  frame : ∀ s k v, I s → (map s).find? k = some v →
    map (visit s k v) = map s ∨ map (visit s k v) = (map s).erase k
  leaves : ∀ s k v, I s → (map s).find? k = some v → map (visit s k v) = map s → P k v

def ahead (m : StdMap κ ν) : Option κ → Finset κ
  | none => ∅
  | some k => m.keys.toFinset.filter fun k' => k ≤ k'

/-- The iterator is no stale one, and what it has left behind meets `P`. -/
def Passed (P : κ → ν → Prop) (m : StdMap κ ν) : Option κ → Prop
  | none => ∀ k v, m.find? k = some v → P k v
  | some k => m.count k = true ∧ ∀ k' v, m.find? k' = some v → k' < k → P k' v

theorem mem_ahead {m : StdMap κ ν} {k k' : κ} :
    k' ∈ ahead m (some k) ↔ m.count k' = true ∧ k ≤ k' := by
  rw [ahead, Finset.mem_filter, List.mem_toFinset, mem_keys]

/-- **The sweep ends**, and it leaves what the visits leave. -/
theorem sweep_total (hvisits : Visits map visit I P) (hI : I s) (hpassed : Passed P (map s) iter)
    (hn : (ahead (map s) iter).card < n) :
    ∃ t, sweep map visit n iter s = some t ∧ I t ∧ ∀ k v, (map t).find? k = some v → P k v := by
  induction n generalizing s iter with
  | zero => exact absurd hn (Nat.not_lt_zero _)
  | succ n ih =>
    cases iter with
    | none => exact ⟨s, rfl, hI, hpassed⟩
    | some k =>
      obtain ⟨hcount, hbehind⟩ := hpassed
      obtain ⟨v, hfind⟩ := count_eq_true.1 hcount
      rw [sweep, hfind]
      -- The other entries stay, and the visited one does if it meets `P`.
      have hother : ∀ k' v', (map (visit s k v)).find? k' = some v' →
          (map s).find? k' = some v' ∧ (k' = k → P k v) := by
        intro k' v' h
        rcases hvisits.frame s k v hI hfind with heq | heq
        · rw [heq] at h
          exact ⟨h, fun _ => hvisits.leaves s k v hI hfind heq⟩
        · rw [heq, find?_erase] at h
          split at h
          · cases h
          · rename_i hne
            exact ⟨h, fun hk => absurd hk hne⟩
      have hstays : ∀ k', k' ≠ k → (map s).count k' = true →
          (map (visit s k v)).count k' = true := by
        intro k' hne h
        rcases hvisits.frame s k v hI hfind with heq | heq
        · rwa [heq]
        · rw [heq, count_erase, h, Bool.and_true]
          simpa using hne
      have hkept : ∀ k' v', (map (visit s k v)).find? k' = some v' → k' ≤ k → P k' v' := by
        intro k' v' h hle
        obtain ⟨hold, hk⟩ := hother k' v' h
        rcases hle.lt_or_eq with hlt | rfl
        · exact hbehind k' v' hold hlt
        · rw [hfind] at hold
          cases hold
          exact hk rfl
      refine ih (hvisits.keeps s k v hI hfind) ?_ ?_
      · cases hnext : (map s).upperBound k with
        | none =>
          intro k' v' h
          refine hkept k' v' h ?_
          exact StdMap.upperBound_eq_none.1 hnext k' (count_of_find? (hother k' v' h).1)
        | some k'' =>
          obtain ⟨hcount', hlt, hleast⟩ := mem_upperBound.1 hnext
          refine ⟨hstays k'' hlt.ne' hcount', ?_⟩
          intro k' v' h hlt'
          refine hkept k' v' h ?_
          by_contra hgt
          have hle := hleast k' (count_of_find? (hother k' v' h).1) (not_le.1 hgt)
          exact absurd hlt' (not_lt.2 hle)
      · refine Nat.lt_of_lt_of_le (Finset.card_lt_card ?_) (Nat.le_of_lt_succ hn)
        rw [Finset.ssubset_iff_of_subset]
        · refine ⟨k, mem_ahead.2 ⟨hcount, le_rfl⟩, ?_⟩
          cases hnext : (map s).upperBound k with
          | none => exact Finset.notMem_empty k
          | some k'' =>
            intro hmem
            exact absurd (mem_ahead.1 hmem).2 (not_le.2 (mem_upperBound.1 hnext).2.1)
        · intro k' hk'
          cases hnext : (map s).upperBound k with
          | none =>
            rw [hnext] at hk'
            exact absurd hk' (Finset.notMem_empty k')
          | some k'' =>
            rw [hnext, mem_ahead] at hk'
            obtain ⟨v', hv'⟩ := count_eq_true.1 hk'.1
            refine mem_ahead.2 ⟨count_of_find? (hother k' v' hv').1, ?_⟩
            exact (mem_upperBound.1 hnext).2.1.le.trans hk'.2

theorem sweepAll_total (hvisits : Visits map visit I P) (hI : I s) :
    ∃ t, sweepAll map visit s = some t ∧ I t ∧ ∀ k v, (map t).find? k = some v → P k v := by
  refine sweep_total hvisits hI ?_ ?_
  · cases hfirst : (map s).first with
    | none =>
      intro k v h
      have hfalse := StdMap.leastKey_eq_none.1 hfirst k (count_of_find? h)
      cases hfalse
    | some k =>
      obtain ⟨hcount, -, hleast⟩ := mem_leastKey.1 hfirst
      refine ⟨hcount, ?_⟩
      intro k' v' h hlt
      exact absurd hlt (not_lt.2 (hleast k' (count_of_find? h) rfl))
  · rw [Nat.lt_succ_iff, size_eq_keys]
    cases (map s).first with
    | none => exact Nat.zero_le _
    | some k => exact (Finset.card_filter_le _ _).trans (List.toFinset_card_le _)

end Sweep
