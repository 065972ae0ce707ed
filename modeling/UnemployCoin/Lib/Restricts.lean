import UnemployCoin.Lib.Check
/-!
# Stricter routines

Of two validation routines, one restricts the other when it goes through on fewer inputs and then
gives the same value.  The relation is carried by the parts of which routines are made, so that two
routines are compared **part by part**: only the tests in which they differ need an argument.

`Ensures` says in the same way what holds of the value of one routine.
-/

namespace Check

variable {ρ α β σ : Type}

/-- Where `x` goes through, `y` goes through with the same value. -/
def Restricts (x y : Except ρ α) : Prop := ∀ a, x = .ok a → y = .ok a

theorem Restricts.refl (x : Except ρ α) : Restricts x x := fun _ h => h

theorem Restricts.bind {x y : Except ρ α} {f g : α → Except ρ β} (h : Restricts x y)
    (hfg : ∀ a, Restricts (f a) (g a)) : Restricts (x >>= f) (y >>= g) := by
  intro b hb
  obtain ⟨a, hx, hf⟩ := bind_ok.1 hb
  exact bind_ok.2 ⟨a, h a hx, hfg a b hf⟩

theorem Restricts.require {c c' : Bool} {reason reason' : ρ} (h : c = true → c' = true) :
    Restricts (require c reason) (require c' reason') := by
  intro a hc
  cases a
  exact require_ok.2 (h (require_ok.1 hc))

theorem Restricts.onlyIf {c c' : Bool} {v v' : Except ρ Unit} (h : c' = true → c = true)
    (hv : Restricts v v') : Restricts (onlyIf c v) (onlyIf c' v') := by
  intro a hc
  cases a
  rw [onlyIf_ok] at hc ⊢
  intro hc'
  exact hv () (hc (h hc'))

theorem Restricts.ite {c : Prop} [Decidable c] {x x' y y' : Except ρ α} (hx : Restricts x x')
    (hy : Restricts y y') : Restricts (if c then x else y) (if c then x' else y') := by
  split
  · exact hx
  · exact hy

/-- What holds of the value where `x` goes through. -/
def Ensures (x : Except ρ α) (P : α → Prop) : Prop := ∀ a, x = .ok a → P a

theorem Ensures.ok {a : α} {P : α → Prop} (h : P a) : Ensures (.ok a : Except ρ α) P := by
  intro b hb
  cases hb
  exact h

theorem Ensures.error (reason : ρ) (P : α → Prop) : Ensures (.error reason) P := by
  intro a h
  cases h

theorem Ensures.require (c : Bool) (reason : ρ) :
    Ensures (Check.require c reason) fun _ => c = true := fun _ h => require_ok.1 h

theorem Ensures.bind {x : Except ρ α} {f : α → Except ρ β} {P : β → Prop}
    (h : ∀ a, Ensures (f a) P) : Ensures (x >>= f) P := by
  intro b hb
  obtain ⟨a, -, hf⟩ := bind_ok.1 hb
  exact h a b hf

theorem Ensures.bind_of {x : Except ρ α} {f : α → Except ρ β} {P : β → Prop} {Q : α → Prop}
    (hx : Ensures x Q) (h : ∀ a, Q a → Ensures (f a) P) : Ensures (x >>= f) P := by
  intro b hb
  obtain ⟨a, ha, hf⟩ := bind_ok.1 hb
  exact h a (hx a ha) b hf

theorem Ensures.ite {c : Prop} [Decidable c] {x y : Except ρ α} {P : α → Prop} (hx : Ensures x P)
    (hy : Ensures y P) : Ensures (if c then x else y) P := by
  split
  · exact hx
  · exact hy

end Check
