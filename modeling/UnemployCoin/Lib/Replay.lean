import Mathlib.Data.Set.Basic
import Mathlib.Tactic.Common
/-!
# Undoing and redoing writes that may be there already

A step from one state to another changes some keys.  Undoing or redoing it on a state of which
nothing is known **gives all these keys the values of a known state** and leaves the other keys
alone.
-/

/-- `d'` has the values of `f` at the keys in `T`, and those of `d` at all others. -/
structure Replaces {κ ν : Type*} (T : Set κ) (f d d' : κ → ν) : Prop where
  inside : ∀ k ∈ T, d' k = f k
  outside : ∀ k ∉ T, d' k = d k

namespace Replaces

variable {κ ν : Type*} {T U : Set κ} {f g d d' d'' : κ → ν}

theorem refl (f d : κ → ν) : Replaces ∅ f d d := ⟨fun _ h => h.elim, fun _ _ => rfl⟩

/-- **One step after the other**: the second one moves from `f` to `g`. -/
theorem trans (h : Replaces T f d d') (h' : Replaces U g d' d'') (hsame : ∀ k ∉ U, g k = f k) :
    Replaces (T ∪ U) g d d'' where
  inside := fun k hk => by
    by_cases hU : k ∈ U
    · exact h'.inside k hU
    · rw [h'.outside k hU, h.inside k (hk.resolve_right hU), hsame k hU]
  outside := fun k hk => by
    rw [Set.mem_union, not_or] at hk
    rw [h'.outside k hk.2, h.outside k hk.1]

theorem eq_of_agree (h : Replaces T f d d') (hd : ∀ k ∉ T, d k = f k) (k : κ) : d' k = f k := by
  by_cases hk : k ∈ T
  · exact h.inside k hk
  · rw [h.outside k hk, hd k hk]

end Replaces

/-- A step that changes the keys in `T`, and gives them values that it does not read from the
state. -/
structure Overwrites {κ ν : Type*} (T : Set κ) (step : (κ → ν) → κ → ν) : Prop where
  inside : ∀ k ∈ T, ∀ f g, step f k = step g k
  outside : ∀ k ∉ T, ∀ f, step f k = f k

namespace Overwrites

variable {κ ν α : Type*}

/-- **Redoing a step**: its result on any other state. -/
theorem replaces {T : Set κ} {step : (κ → ν) → κ → ν} (h : Overwrites T step) (f d : κ → ν) :
    Replaces T (step f) d (step d) :=
  ⟨fun k hk => h.inside k hk d f, fun k hk => h.outside k hk d⟩

theorem foldl {T : α → Set κ} {step : α → (κ → ν) → κ → ν}
    (h : ∀ a, Overwrites (T a) (step a)) (l : List α) :
    Overwrites {k | ∃ a ∈ l, k ∈ T a} (fun f => l.foldl (fun f a => step a f) f) := by
  have houtside : ∀ (l : List α) (k : κ), (¬∃ a ∈ l, k ∈ T a) → ∀ f,
      l.foldl (fun f a => step a f) f k = f k := by
    intro l
    induction l with
    | nil => exact fun _ _ _ => rfl
    | cons a l ih =>
      intro k hk f
      simp only [List.mem_cons, exists_eq_or_imp, not_or] at hk
      rw [List.foldl_cons, ih k hk.2, (h a).outside k hk.1]
  refine ⟨?_, houtside l⟩
  induction l with
  | nil =>
    rintro k ⟨a, hmem, -⟩
    cases hmem
  | cons a l ih =>
    intro k hk f g
    rw [List.foldl_cons, List.foldl_cons]
    by_cases hlater : ∃ b ∈ l, k ∈ T b
    · exact ih k hlater (step a f) (step a g)
    · have hka : k ∈ T a := by
        obtain ⟨b, hmem, hkb⟩ := hk
        rcases List.mem_cons.1 hmem with rfl | hmem
        · exact hkb
        · exact absurd ⟨b, hmem, hkb⟩ hlater
      rw [houtside l k hlater, houtside l k hlater, (h a).inside k hka f g]

end Overwrites
