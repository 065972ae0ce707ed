import Mathlib.Data.List.Range
import Mathlib.Tactic.Common
/-!
# Gaps

The positions of a list of options that are still empty, in ascending order.
-/

namespace Gaps

open List

variable {α : Type*}

/-- The empty positions of a list that starts at position `s`. -/
@[simp]
def gaps (s : ℕ) : List (Option α) → List ℕ
  | [] => []
  | none :: l => s :: gaps (s + 1) l
  | some _ :: l => gaps (s + 1) l

variable {s q : ℕ} {l : List (Option α)} {rest : List ℕ}

theorem mem_gaps : q ∈ gaps s l ↔ s ≤ q ∧ l[q - s]? = some none := by
  induction l generalizing s with
  | nil => simp [gaps]
  | cons a l ih =>
    have hnext : s + 1 ≤ q → (a :: l)[q - s]? = l[q - (s + 1)]? := by
      intro hle
      rw [show q - s = q - (s + 1) + 1 by omega, getElem?_cons_succ]
    cases a with
    | none =>
      rw [gaps, mem_cons, ih]
      constructor
      · rintro (rfl | ⟨hle, hget⟩)
        · simp
        · exact ⟨by omega, (hnext hle).trans hget⟩
      · rintro ⟨hle, hget⟩
        rcases Nat.eq_or_lt_of_le hle with heq | hlt
        · exact .inl heq.symm
        · exact .inr ⟨hlt, (hnext hlt).symm.trans hget⟩
    | some v =>
      rw [gaps, ih]
      constructor
      · rintro ⟨hle, hget⟩
        exact ⟨by omega, (hnext hle).trans hget⟩
      · rintro ⟨hle, hget⟩
        rcases Nat.eq_or_lt_of_le hle with rfl | hlt
        · simp at hget
        · exact ⟨hlt, (hnext hlt).symm.trans hget⟩

theorem gaps_cons (h : gaps s l = q :: rest) :
    s ≤ q ∧ l[q - s]? = some none ∧ gaps (q + 1) (l.drop (q + 1 - s)) = rest ∧
      ∀ p, s ≤ p → p < q → ∃ v, l[p - s]? = some (some v) := by
  induction l generalizing s with
  | nil => simp [gaps] at h
  | cons a l ih =>
    cases a with
    | none =>
      simp only [gaps, cons.injEq] at h
      obtain ⟨rfl, rfl⟩ := h
      refine ⟨le_rfl, by simp, by simp, ?_⟩
      intro p hle hlt
      omega
    | some v =>
      obtain ⟨hle, hget, hrest, hfilled⟩ := ih h
      have hsub : ∀ p, s + 1 ≤ p → p - s = p - (s + 1) + 1 := by
        intro p hp
        omega
      refine ⟨by omega, ?_, ?_, ?_⟩
      · rw [hsub q hle, getElem?_cons_succ, hget]
      · rw [show q + 1 - s = q + 1 - (s + 1) + 1 by omega, drop_succ_cons, hrest]
      · intro p hp hlt
        rcases Nat.eq_or_lt_of_le hp with rfl | hlt'
        · simp
        · rw [hsub p hlt', getElem?_cons_succ]
          exact hfilled p hlt' hlt

theorem pairwise_gaps (s : ℕ) (l : List (Option α)) : (gaps s l).Pairwise (· < ·) := by
  induction l generalizing s with
  | nil => exact .nil
  | cons a l ih =>
    cases a with
    | none =>
      rw [gaps, pairwise_cons]
      refine ⟨?_, ih (s + 1)⟩
      intro q hq
      exact (mem_gaps.1 hq).1
    | some v => exact ih (s + 1)

theorem length_gaps_set (i : ℕ) (v : α) :
    (gaps s l).length ≤ (gaps s (l.set i (some v))).length + 1 := by
  induction l generalizing s i with
  | nil => simp [gaps]
  | cons a l ih =>
    cases i with
    | zero => cases a <;> simp [gaps]
    | succ i =>
      have hrest := @ih (s + 1) i
      cases a with
      | none =>
        simp only [set_cons_succ, gaps, length_cons]
        omega
      | some w => exact hrest

theorem gaps_replicate (s n : ℕ) : gaps s (replicate n (none : Option α)) = range' s n := by
  induction n generalizing s with
  | zero => rfl
  | succ n ih => rw [replicate_succ, gaps, ih, range'_succ]

end Gaps
