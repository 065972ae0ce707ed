import Mathlib.Data.List.GetD
import Mathlib.Data.List.Sort
import Mathlib.Tactic.Common
/-!
# Medians of windows

The upper median of a list over any linear order, and what becomes of it when the list is a window
on a sequence.
-/

namespace Window

open List

variable {α : Type*} [LinearOrder α] {l : List α} {d v x : α} {k m : ℕ}

theorem le_getElem_iff (h : l.Pairwise (· ≤ ·)) (hk : k < l.length) :
    v ≤ l[k] ↔ l.length - k ≤ l.countP (fun y => decide (v ≤ y)) := by
  induction l generalizing k with
  | nil => simp at hk
  | cons y l ih =>
    rw [pairwise_cons] at h
    obtain ⟨hy, hl⟩ := h
    have hall : v ≤ y → l.countP (fun y => decide (v ≤ y)) = l.length := by
      intro hv
      rw [countP_eq_length]
      intro z hz
      exact decide_eq_true (hv.trans (hy z hz))
    have hle := countP_le_length (p := fun y => decide (v ≤ y)) (l := l)
    rw [countP_cons, length_cons]
    cases k with
    | zero =>
      rw [getElem_cons_zero]
      rw [Nat.sub_zero]
      by_cases hv : v ≤ y
      · simp [hv, hall hv]
      · simp only [hv, decide_false, Bool.false_eq_true, if_false, false_iff]
        omega
    | succ k =>
      have hk' : k < l.length := by simpa using hk
      rw [getElem_cons_succ, ih hl hk']
      by_cases hv : v ≤ y
      · rw [hall hv]
        simp only [hv, decide_true, if_true]
        omega
      · simp only [hv, decide_false, Bool.false_eq_true, if_false]
        omega

def median (l : List α) (d : α) : α := (l.mergeSort (· ≤ ·)).getD (l.length / 2) d

theorem le_median_iff (hl : l ≠ []) :
    v ≤ median l d ↔ l.length - l.length / 2 ≤ l.countP (fun y => decide (v ≤ y)) := by
  have hpos := length_pos_iff.2 hl
  have hlength : (l.mergeSort (· ≤ ·)).length = l.length := length_mergeSort l
  have hhalf : l.length / 2 < (l.mergeSort (· ≤ ·)).length := by omega
  have hsorted : (l.mergeSort (· ≤ ·)).Pairwise (· ≤ ·) := pairwise_mergeSort' (· ≤ ·) l
  have hcount := (mergeSort_perm l (· ≤ ·)).countP_eq (fun y => decide (v ≤ y))
  unfold median
  rw [getD_eq_getElem _ _ hhalf, le_getElem_iff hsorted hhalf, hlength, hcount]

theorem median_le_cons (hl : l ≠ []) (hx : median l d < x) : median l d ≤ median (x :: l) d := by
  have hcount := (le_median_iff (d := d) hl).1 (le_refl _)
  rw [le_median_iff (cons_ne_nil x l), countP_cons, length_cons]
  simp only [hx.le, decide_true, if_true]
  omega

theorem median_le_shift (hl : l.length = 2 * m + 1) (hx : median l d < x) :
    median l d ≤ median (x :: l.dropLast) d := by
  have hne : l ≠ [] := by
    rintro rfl
    simp at hl
  have hcount := (le_median_iff (d := d) hne).1 (le_refl _)
  have hsplit := congrArg (countP fun y => decide (median l d ≤ y)) (dropLast_append_getLast hne)
  have hlast := countP_le_length (p := fun y => decide (median l d ≤ y)) (l := [l.getLast hne])
  rw [countP_append] at hsplit
  rw [length_singleton] at hlast
  rw [le_median_iff (cons_ne_nil x _), countP_cons, length_cons, length_dropLast]
  simp only [hx.le, decide_true, if_true]
  omega

end Window
