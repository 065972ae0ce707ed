import Mathlib.Tactic.Common
import Mathlib.Order.Basic
/-!
# Loops that go on or return

A round of a loop goes on with a new state or leaves the loop with a result.  `run` makes at most
so many rounds; what has to be shown of a loop is that this bound is never what ends it.
-/

namespace Loop

variable {σ ρ : Type*} (step : σ → σ ⊕ ρ)

def run : ℕ → σ → Option ρ
  | 0, _ => none
  | n + 1, s =>
    match step s with
    | .inl s' => run n s'
    | .inr r => some r

variable {step} {n : ℕ} {s s' : σ} {r : ρ} {I : σ → Prop} {Q : ρ → Prop} {m : σ → ℕ}

theorem run_inl (h : step s = .inl s') : run step (n + 1) s = run step n s' := by
  rw [run, h]

theorem run_inr (h : step s = .inr r) : run step (n + 1) s = some r := by
  rw [run, h]

theorem run_total (hgo : ∀ s s', I s → step s = .inl s' → I s' ∧ m s' < m s)
    (hend : ∀ s r, I s → step s = .inr r → Q r) (hs : I s) (hn : m s < n) :
    ∃ r, run step n s = some r ∧ Q r := by
  induction n generalizing s with
  | zero => exact absurd hn (Nat.not_lt_zero _)
  | succ n ih =>
    cases hstep : step s with
    | inl s' =>
      obtain ⟨hs', hlt⟩ := hgo s s' hs hstep
      rw [run_inl hstep]
      exact ih hs' (by omega)
    | inr r => exact ⟨r, run_inr hstep, hend s r hs hstep⟩

theorem run_isSome (hgo : ∀ s s', I s → step s = .inl s' → I s' ∧ m s' < m s) (hs : I s)
    (hn : m s < n) : (run step n s).isSome := by
  obtain ⟨r, hr, -⟩ := run_total (Q := fun _ => True) hgo (fun _ _ _ _ => trivial) hs hn
  exact Option.isSome_of_eq_some hr

theorem run_invariant (hgo : ∀ s s', I s → step s = .inl s' → I s')
    (hend : ∀ s r, I s → step s = .inr r → Q r) (hs : I s) (hr : run step n s = some r) : Q r := by
  induction n generalizing s with
  | zero => cases hr
  | succ n ih =>
    cases hstep : step s with
    | inl s' =>
      rw [run_inl hstep] at hr
      exact ih (hgo s s' hs hstep) hr
    | inr t =>
      rw [run_inr hstep] at hr
      cases hr
      exact hend s _ hs hstep

end Loop
