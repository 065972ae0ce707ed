import Mathlib.Tactic.Common
/-!
# Checks that stop at the first failure

A validation routine returns at its first failed test with the reason for it.  It is a value of
`Except ρ`, and `require` is one test.
-/

namespace Check

variable {ρ α β σ : Type}

/-- Goes on when `c` holds and stops with `reason` otherwise. -/
def require (c : Bool) (reason : ρ) : Except ρ Unit := if c then .ok () else .error reason

/-- Goes on with the value of `x` and stops with `reason` when there is none. -/
def demand (x : Option α) (reason : ρ) : Except ρ α :=
  match x with
  | some a => .ok a
  | none => .error reason

/-- A test that is made only when `c` holds. -/
def onlyIf (c : Bool) (v : Except ρ Unit) : Except ρ Unit := if c then v else .ok ()

def forEach (f : α → Except ρ Unit) : List α → Except ρ Unit
  | [] => .ok ()
  | a :: as => do
    f a
    forEach f as

@[simp] theorem require_ok {c : Bool} {reason : ρ} : require c reason = .ok () ↔ c = true := by
  cases c <;> simp [require]

@[simp] theorem demand_ok {x : Option α} {reason : ρ} {a : α} :
    demand x reason = .ok a ↔ x = some a := by
  cases x <;> simp [demand]

@[simp] theorem onlyIf_ok {c : Bool} {v : Except ρ Unit} :
    onlyIf c v = .ok () ↔ (c = true → v = .ok ()) := by
  cases c <;> simp [onlyIf]

theorem bind_ok {x : Except ρ α} {f : α → Except ρ β} {b : β} :
    (x >>= f) = .ok b ↔ ∃ a, x = .ok a ∧ f a = .ok b := by
  cases x with
  | error e => simp [bind, Except.bind]
  | ok a => simp [bind, Except.bind]

@[simp] theorem require_bind {c : Bool} {reason : ρ} {f : Unit → Except ρ β} {b : β} :
    (require c reason >>= f) = .ok b ↔ c = true ∧ f () = .ok b := by
  cases c <;> simp [require, bind, Except.bind]

@[simp] theorem demand_bind {x : Option α} {reason : ρ} {f : α → Except ρ β} {b : β} :
    (demand x reason >>= f) = .ok b ↔ ∃ a, x = some a ∧ f a = .ok b := by
  cases x <;> simp [demand, bind, Except.bind]

theorem unit_bind {x : Except ρ Unit} {f : Unit → Except ρ β} {b : β} :
    (x >>= f) = .ok b ↔ x = .ok () ∧ f () = .ok b := by
  rw [bind_ok]
  constructor
  · rintro ⟨⟨⟩, hx, hf⟩
    exact ⟨hx, hf⟩
  · rintro ⟨hx, hf⟩
    exact ⟨(), hx, hf⟩

@[simp] theorem onlyIf_bind {c : Bool} {v : Except ρ Unit} {f : Unit → Except ρ β} {b : β} :
    (onlyIf c v >>= f) = .ok b ↔ (c = true → v = .ok ()) ∧ f () = .ok b := by
  rw [unit_bind, onlyIf_ok]

@[simp] theorem mapError_ok {ρ' : Type} {g : ρ → ρ'} {x : Except ρ α} {a : α} :
    x.mapError g = .ok a ↔ x = .ok a := by
  cases x <;> simp [Except.mapError]

@[simp] theorem unit_map_ok {g : Unit → β} {x : Except ρ Unit} {b : β} :
    x.map g = .ok b ↔ x = .ok () ∧ g () = b := by
  cases x <;> simp [Except.map]

@[simp] theorem map_unit_ok {x : Except ρ α} :
    (x.map fun _ => ()) = .ok () ↔ ∃ a, x = .ok a := by
  cases x <;> simp [Except.map]

theorem pure_ok {a b : α} : (pure a : Except ρ α) = .ok b ↔ a = b := by
  simp [pure, Except.pure]

@[simp] theorem forEach_ok {f : α → Except ρ Unit} {l : List α} :
    forEach f l = .ok () ↔ ∀ a ∈ l, f a = .ok () := by
  induction l with
  | nil => simp [forEach]
  | cons a l ih => rw [forEach, unit_bind, ih, List.forall_mem_cons]

theorem foldl_keeps {f : σ → α → σ} {g : σ → β} (h : ∀ s a, g (f s a) = g s) (l : List α) (s : σ) :
    g (l.foldl f s) = g s := by
  induction l generalizing s with
  | nil => rfl
  | cons a l ih => rw [List.foldl_cons, ih, h]

theorem foldl_commutes {f : σ → α → σ} {g : σ → β} {f' : β → α → β} {l : List α}
    (h : ∀ s, ∀ a ∈ l, g (f s a) = f' (g s) a) (s : σ) : g (l.foldl f s) = l.foldl f' (g s) := by
  induction l generalizing s with
  | nil => rfl
  | cons a l ih =>
    rw [List.foldl_cons, List.foldl_cons, ih fun s b hb => h s b (List.mem_cons_of_mem a hb),
      h s a List.mem_cons_self]

theorem foldlM_invariant {f : σ → α → Except ρ σ} {I : σ → Prop} {l : List α} {s t : σ}
    (hround : ∀ s a s', a ∈ l → I s → f s a = .ok s' → I s') (hI : I s)
    (h : l.foldlM f s = .ok t) : I t := by
  induction l generalizing s with
  | nil =>
    cases h
    exact hI
  | cons a l ih =>
    rw [List.foldlM_cons, bind_ok] at h
    obtain ⟨s', hs', hrest⟩ := h
    exact ih (fun s b s'' hb => hround s b s'' (List.mem_cons_of_mem a hb))
      (hround s a s' List.mem_cons_self hI hs') hrest

theorem foldlM_forall_mem {f : σ → α → Except ρ σ} {l : List α} {s t : σ}
    (h : l.foldlM f s = .ok t) : ∀ a ∈ l, ∃ s s', f s a = .ok s' := by
  induction l generalizing s with
  | nil => exact fun a ha => nomatch ha
  | cons a l ih =>
    rw [List.foldlM_cons, bind_ok] at h
    obtain ⟨s', hs', hrest⟩ := h
    exact List.forall_mem_cons.2 ⟨⟨s, s', hs'⟩, ih hrest⟩

theorem foldlM_prefix_invariant {f : σ → α → Except ρ σ} {I : List α → σ → Prop} {l : List α}
    {s t : σ}
    (hround : ∀ pre a post s s', l = pre ++ a :: post → I pre s → f s a = .ok s' →
      I (pre ++ [a]) s')
    (hI : I [] s) (h : l.foldlM f s = .ok t) : I l t := by
  have hrest : ∀ (post pre : List α) (s : σ), l = pre ++ post → I pre s →
      post.foldlM f s = .ok t → I l t := by
    intro post
    induction post with
    | nil =>
      intro pre s hl hpre hs
      cases hs
      rw [hl, List.append_nil]
      exact hpre
    | cons a post ih =>
      intro pre s hl hpre hs
      rw [List.foldlM_cons, bind_ok] at hs
      obtain ⟨s', hs', hpost⟩ := hs
      exact ih (pre ++ [a]) s' (by rw [hl, List.append_assoc, List.singleton_append])
        (hround pre a post s s' hl hpre hs') hpost
  exact hrest l [] s rfl hI h

end Check
