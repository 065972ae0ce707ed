import UnemployCoin.Lib.Check
/-!
# What a routine throws

A routine that can fail in many ways is compared with one that can fail in the ways that are meant
only: `expected` says what the caller makes of what is thrown, and of what must not be thrown it
says nothing.
-/

namespace Check

variable {ε ρ α β : Type} {expected : ε → Option ρ} {r : Except ε α} {v : Except ρ α}

/-- `r` goes through where `v` does, with the same result, and else throws what is made the failure
of `v`. -/
def Caught (expected : ε → Option ρ) (r : Except ε α) (v : Except ρ α) : Prop :=
  match r with
  | .ok a => v = .ok a
  | .error t => ∃ e, expected t = some e ∧ v = .error e

namespace Caught

theorem ok (a : α) : Caught expected (.ok a) (.ok a) := rfl

theorem error {t : ε} {e : ρ} (h : expected t = some e) :
    Caught expected (.error t : Except ε α) (.error e) := ⟨e, h, rfl⟩

theorem bind {f : α → Except ε β} {g : α → Except ρ β} (h : Caught expected r v)
    (hf : ∀ a, r = .ok a → Caught expected (f a) (g a)) :
    Caught expected (r >>= f) (v >>= g) := by
  cases r with
  | ok a =>
    change v = .ok a at h
    rw [h]
    exact hf a rfl
  | error t =>
    obtain ⟨e, he, rfl⟩ := h
    exact ⟨e, he, rfl⟩

theorem require {c : Bool} {t : ε} {e : ρ} (h : expected t = some e) :
    Caught expected (Check.require c t) (Check.require c e) := by
  cases c with
  | true => exact ok ()
  | false => exact error h

theorem ite {c : Prop} [Decidable c] {r' : Except ε α} {v' : Except ρ α}
    (h : c → Caught expected r v) (h' : ¬c → Caught expected r' v') :
    Caught expected (if c then r else r') (if c then v else v') := by
  split
  · exact h ‹_›
  · exact h' ‹_›

theorem expected_some {t : ε} (h : Caught expected r v) (ht : r = .error t) :
    ∃ e, expected t = some e := by
  rw [ht] at h
  obtain ⟨e, he, -⟩ := h
  exact ⟨e, he⟩

theorem ok_iff {a : α} (h : Caught expected r v) : r = .ok a ↔ v = .ok a := by
  cases r with
  | ok b =>
    change v = .ok b at h
    rw [h, Except.ok.injEq, Except.ok.injEq]
  | error t =>
    obtain ⟨e, -, rfl⟩ := h
    exact ⟨nofun, nofun⟩

end Caught

end Check
