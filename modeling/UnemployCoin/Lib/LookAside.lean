import Mathlib.Logic.Function.Basic
import Mathlib.Data.Option.Basic
import Mathlib.Tactic.Common
/-!
# A cache beside a store with pending writes

A lookup asks the pending writes first, then a cache, then a set of keys that are known to be
absent, and the store last.  A write is only kept as pending, and a flush carries the pending
writes to the store: **neither of them looks at the cache**.
-/

/-- The layers that a lookup goes through.  What a lookup sees of the pending writes and what
`next` flush writes may differ. -/
structure LookAside (κ ν : Type*) where
  pending : κ → Option (Option ν)
  next : κ → Option (Option ν)
  cached : κ → Option ν
  absent : κ → Bool
  stored : κ → Option ν

namespace LookAside

variable {κ ν : Type*}

def answer (L : LookAside κ ν) (k : κ) : Option ν :=
  (L.pending k).getD ((L.cached k).or (bif L.absent k then none else L.stored k))

/-- The pending writes are in the store, and the cache is what it was. -/
def flush (L : LookAside κ ν) : LookAside κ ν where
  pending := fun _ => none
  next := fun _ => none
  cached := L.cached
  absent := fun _ => false
  stored := fun k => (L.next k).getD (L.stored k)

/-- All lookups are right, and **a flush does not change that**. -/
structure Right (L : LookAside κ ν) (f : κ → Option ν) : Prop where
  now : ∀ k, L.answer k = f k
  flushed : ∀ k, L.flush.answer k = f k

/-- The layers agree with `f`, each by itself. -/
structure Sound (L : LookAside κ ν) (f : κ → Option ν) : Prop where
  seen : ∀ k, (L.pending k).getD (L.stored k) = f k
  next : ∀ k, (L.next k).getD (L.stored k) = f k
  cached : ∀ k v, L.cached k = some v → L.stored k = some v ∧ f k = some v
  absent : ∀ k, L.absent k = true → L.stored k = none

variable {L L' : LookAside κ ν} {f : κ → Option ν} {k : κ} {p : Option (Option ν)}
  {w w' : Option ν}

theorem answer_eq (hcached : ∀ v, L.cached k = some v → L.stored k = some v)
    (habsent : L.absent k = true → L.stored k = none) :
    L.answer k = (L.pending k).getD (L.stored k) := by
  have hstored : (bif L.absent k then none else L.stored k) = L.stored k := by
    cases h : L.absent k with
    | true => exact (habsent h).symm
    | false => rfl
  rw [answer, hstored]
  cases h : L.cached k with
  | none => rfl
  | some v => rw [Option.some_or, hcached v h]

theorem Sound.answer (h : L.Sound f) (k : κ) : L.answer k = f k := by
  rw [answer_eq (fun v hv => (h.cached k v hv).1) (h.absent k)]
  exact h.seen k

theorem Sound.flush (h : L.Sound f) : L.flush.Sound f where
  seen := h.next
  next := h.next
  cached := fun k v hv => by
    have hf := (h.cached k v hv).2
    exact ⟨(h.next k).trans hf, hf⟩
  absent := fun _ h => absurd h Bool.false_ne_true

theorem Sound.right (h : L.Sound f) : L.Right f := ⟨h.answer, h.flush.answer⟩

/-- The lookups are right exactly under a condition, and the layers agree then. -/
structure RightWhen (L : LookAside κ ν) (f : κ → Option ν) (P : Prop) : Prop where
  right_iff : L.Right f ↔ P
  sound : P → L.Sound f

theorem Sound.rightWhen (h : L.Sound f) : L.RightWhen f True where
  right_iff := ⟨fun _ => trivial, fun _ => h.right⟩
  sound := fun _ => h

theorem RightWhen.congr {P Q : Prop} (h : L.RightWhen f P) (hPQ : P ↔ Q) : L.RightWhen f Q where
  right_iff := h.right_iff.trans hPQ
  sound := fun hQ => h.sound (hPQ.2 hQ)

theorem Sound.load (h : L.Sound f) (hpending : L'.pending = L.pending) (hnext : L'.next = L.next)
    (hstored : L'.stored = L.stored)
    (hcached : ∀ k v, L'.cached k = some v →
      L.cached k = some v ∨ L.pending k = none ∧ L.stored k = some v)
    (habsent : ∀ k, L'.absent k = true → L.absent k = true ∨ L.stored k = none) : L'.Sound f where
  seen := fun k => by
    rw [hpending, hstored]
    exact h.seen k
  next := fun k => by
    rw [hnext, hstored]
    exact h.next k
  cached := fun k v hv => by
    rw [hstored]
    rcases hcached k v hv with hold | ⟨hnone, hv'⟩
    · exact h.cached k v hold
    · have hseen := h.seen k
      rw [hnone, Option.getD_none, hv'] at hseen
      exact ⟨hv', hseen.symm⟩
  absent := fun k hk => by
    rw [hstored]
    exact (habsent k hk).elim (h.absent k) id

section Write

variable [DecidableEq κ]

/-- One key has other pending writes, and nothing else is different. -/
structure Written (L L' : LookAside κ ν) (k : κ) (p : Option (Option ν)) (w : Option ν) :
    Prop where
  pending : ∀ k', L'.pending k' = if k' = k then p else L.pending k'
  next : ∀ k', L'.next k' = if k' = k then some w else L.next k'
  cached : L'.cached = L.cached
  absent : ∀ k', L'.absent k' = true → L.absent k' = true
  stored : L'.stored = L.stored

theorem Written.sound (hw : Written L L' k p w) (h : L.Sound f)
    (hcached : ∀ v, L.cached k = some v → w = some v) (hseen : p.getD (L.stored k) = w) :
    L'.Sound (Function.update f k w) where
  seen := fun k' => by
    rw [hw.pending, hw.stored, Function.update_apply]
    by_cases hk : k' = k
    · rw [if_pos hk, if_pos hk, hk]
      exact hseen
    · rw [if_neg hk, if_neg hk]
      exact h.seen k'
  next := fun k' => by
    rw [hw.next, hw.stored, Function.update_apply]
    by_cases hk : k' = k
    · rw [if_pos hk, if_pos hk, Option.getD_some]
    · rw [if_neg hk, if_neg hk]
      exact h.next k'
  cached := fun k' v hv => by
    rw [hw.cached] at hv
    rw [hw.stored, Function.update_apply]
    refine ⟨(h.cached k' v hv).1, ?_⟩
    by_cases hk : k' = k
    · rw [if_pos hk]
      rw [hk] at hv
      exact hcached v hv
    · rw [if_neg hk]
      exact (h.cached k' v hv).2
  absent := fun k' hk => by
    rw [hw.stored]
    exact h.absent k' (hw.absent k' hk)

/-- **When a write leaves the lookups right**, now and after a flush. -/
theorem Written.rightWhen (hw : Written L L' k p w) (h : L.Sound f) :
    L'.RightWhen (Function.update f k w)
      ((∀ v, L.cached k = some v → w = some v) ∧ p.getD (L.stored k) = w) := by
  refine ⟨⟨?_, fun hP => (hw.sound h hP.1 hP.2).right⟩, fun hP => hw.sound h hP.1 hP.2⟩
  intro hright
  have hnow := hright.now k
  have hflushed := hright.flushed k
  rw [Function.update_self] at hnow hflushed
  have hcached : ∀ v, L'.cached k = some v → L'.stored k = some v := by
    rw [hw.cached, hw.stored]
    exact fun v hv => (h.cached k v hv).1
  have habsent : L'.absent k = true → L'.stored k = none := by
    rw [hw.stored]
    exact fun hk => h.absent k (hw.absent k hk)
  rw [answer_eq hcached habsent, hw.pending, if_pos rfl, hw.stored] at hnow
  refine ⟨fun v hv => ?_, hnow⟩
  -- after the flush, the cache is asked first
  rw [answer, flush] at hflushed
  simp only [Option.getD_none] at hflushed
  rw [hw.cached, hv, Option.some_or] at hflushed
  exact hflushed.symm

end Write

end LookAside
