import UnemployCoin.Lib.Check
/-!
# How a routine ends

`Ends F P x`: where `x` goes through `P` holds of its value, and where it fails `F` holds of the
failure.  With no failure allowed it says that `x` goes through.
-/

namespace Check

variable {ρ α β : Type} {F G : ρ → Prop} {P Q : α → Prop} {x : Except ρ α}

def Ends (F : ρ → Prop) (P : α → Prop) (x : Except ρ α) : Prop :=
  match x with
  | .ok a => P a
  | .error e => F e

def never (_ : ρ) : Prop := False

namespace Ends

theorem ok {a : α} (h : P a) : Ends F P (.ok a) := h

theorem error {e : ρ} (h : F e) : Ends F P (.error e) := h

theorem bind {f : α → Except ρ β} {R : β → Prop} (h : Ends F P x)
    (hf : ∀ a, x = .ok a → P a → Ends F R (f a)) : Ends F R (x >>= f) := by
  cases x with
  | ok a => exact hf a rfl h
  | error e => exact h

theorem mono (h : Ends F P x) (hF : ∀ e, F e → G e) (hP : ∀ a, P a → Q a) : Ends G Q x := by
  cases x with
  | ok a => exact hP a h
  | error e => exact hF e h

theorem of_never (h : Ends never P x) : Ends F P x :=
  h.mono (fun _ hnever => hnever.elim) (fun _ hP => hP)

theorem ite {c : Prop} [Decidable c] {y : Except ρ α} (hx : c → Ends F P x)
    (hy : ¬c → Ends F P y) : Ends F P (if c then x else y) := by
  split
  · exact hx ‹_›
  · exact hy ‹_›

theorem of_ok {a : α} (h : Ends F P x) (hx : x = .ok a) : P a := by
  rw [hx] at h
  exact h

theorem of_error {e : ρ} (h : Ends F P x) (hx : x = .error e) : F e := by
  rw [hx] at h
  exact h

theorem exists_ok (h : Ends never P x) : ∃ a, x = .ok a ∧ P a := by
  cases x with
  | ok a => exact ⟨a, rfl, h⟩
  | error e => exact h.elim

end Ends

end Check
