import Mathlib.Data.List.Basic
import Mathlib.Tactic.Common
/-!
# Marks in three generations

Every key that is put into a table marks its places with the generation of the day.  After so many
keys the next generation begins, and the marks of the oldest one are wiped.  Keys may share places,
and a place has the mark of the last of them.
-/

namespace Generations

variable {α κ : Type*} (places : κ → α → Prop)

def nextGeneration (g : ℕ) : ℕ := if g + 1 = 4 then 1 else g + 1

def lastGeneration (g : ℕ) : ℕ := if g = 1 then 3 else g - 1

/-- A mark of this generation or of one of the last `d`. -/
def IsRecent (g : ℕ) : ℕ → ℕ → Prop
  | 0, mark => mark = g
  | d + 1, mark => mark = g ∨ IsRecent (lastGeneration g) d mark

/-- With `c` keys in this generation, so far out of `P`, the marks of the keys of the last `d`
generations are of these. -/
structure Keeps (P c g : ℕ) (mark : α → ℕ) (past : List κ) : Prop where
  generation : g = 1 ∨ g = 2 ∨ g = 3
  recent : ∀ d ≤ 2, ∀ j key, past[j]? = some key → j < c + d * P →
    ∀ a, places key a → IsRecent g d (mark a)

variable {places} {P c g d m : ℕ} {mark mark' : α → ℕ} {past : List κ} {key : κ}

theorem lastGeneration_next (hg : g = 1 ∨ g = 2 ∨ g = 3) :
    lastGeneration (nextGeneration g) = g := by
  rcases hg with rfl | rfl | rfl <;> rfl

theorem nextGeneration_mem (hg : g = 1 ∨ g = 2 ∨ g = 3) :
    nextGeneration g = 1 ∨ nextGeneration g = 2 ∨ nextGeneration g = 3 := by
  rcases hg with rfl | rfl | rfl
  · exact .inr (.inl rfl)
  · exact .inr (.inr rfl)
  · exact .inl rfl

theorem IsRecent.self (g d : ℕ) : IsRecent g d g := by
  cases d with
  | zero => rfl
  | succ d => exact .inl rfl

theorem IsRecent.ne_zero (hg : g = 1 ∨ g = 2 ∨ g = 3) (h : IsRecent g 2 m) : m ≠ 0 := by
  rcases hg with rfl | rfl | rfl <;> rcases h with rfl | rfl | rfl <;> decide

theorem IsRecent.ne_next (hg : g = 1 ∨ g = 2 ∨ g = 3) (hd : d ≤ 1) (h : IsRecent g d m) :
    m ≠ nextGeneration g := by
  have hone : IsRecent g 1 m := by
    cases d with
    | zero => exact .inl h
    | succ d =>
      have hzero : d = 0 := by omega
      subst hzero
      exact h
  rcases hg with rfl | rfl | rfl <;> rcases hone with rfl | rfl <;> decide

/-- **A key in the same generation.** -/
theorem Keeps.put (h : Keeps places P c g mark past)
    (hnew : ∀ a, places key a → mark' a = g)
    (hold : ∀ a, ¬places key a → mark' a = mark a) :
    Keeps places P (c + 1) g mark' (key :: past) where
  generation := h.generation
  recent := by
    intro d hd j key' hj hlt a ha
    by_cases hmem : places key a
    · rw [hnew a hmem]
      exact IsRecent.self g d
    · rw [hold a hmem]
      cases j with
      | zero =>
        cases hj
        exact absurd ha hmem
      | succ j => exact h.recent d hd j key' hj (by omega) a ha

/-- **The first key of the next generation.** -/
theorem Keeps.next (h : Keeps places P P g mark past)
    (hnew : ∀ a, places key a → mark' a = nextGeneration g)
    (hold : ∀ a, ¬places key a → mark a ≠ nextGeneration g → mark' a = mark a) :
    Keeps places P 1 (nextGeneration g) mark' (key :: past) where
  generation := nextGeneration_mem h.generation
  recent := by
    intro d hd j key' hj hlt a ha
    by_cases hmem : places key a
    · rw [hnew a hmem]
      exact IsRecent.self _ d
    · cases j with
      | zero =>
        cases hj
        exact absurd ha hmem
      | succ j =>
        -- A key of the generation that is complete now, or of the one before it.
        cases d with
        | zero => omega
        | succ d =>
          rw [Nat.succ_mul] at hlt
          have hrecent := h.recent d (by omega) j key' hj (by omega) a ha
          rw [hold a hmem (hrecent.ne_next h.generation (by omega))]
          refine .inr ?_
          rw [lastGeneration_next h.generation]
          exact hrecent

/-- **The last keys are marked**, as many as two generations have. -/
theorem Keeps.mark_ne_zero (h : Keeps places P c g mark past) {j : ℕ} (hj : past[j]? = some key)
    (hlt : j < c + 2 * P) {a : α} (ha : places key a) : mark a ≠ 0 :=
  (h.recent 2 (Nat.le_refl 2) j key hj hlt a ha).ne_zero h.generation

end Generations
