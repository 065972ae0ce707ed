import UnemployCoin.Lib.Check
/-!
# Two folds side by side

Two fallible folds over one list, whose states are related.  The relation may tell what has been
folded already.
-/

namespace Check

variable {α σ τ ρ : Type} {f : σ → α → Except ρ σ} {g : τ → α → Except ρ τ}
  {R : List α → σ → τ → Prop} {l : List α} {s s' : σ} {t t' : τ}

/-- Two computations fail together, and their results are related. -/
structure Parallel {β γ : Type} (R : β → γ → Prop) (x : Except ρ β) (y : Except ρ γ) : Prop where
  left : ∀ b, x = .ok b → ∃ c, y = .ok c ∧ R b c
  right : ∀ c, y = .ok c → ∃ b, x = .ok b

namespace Parallel

variable {β γ β' γ' : Type} {Q : β → γ → Prop} {Q' : β' → γ' → Prop} {x : Except ρ β}
  {y : Except ρ γ}

theorem ok {b : β} {c : γ} (h : Q b c) : Parallel Q (.ok b : Except ρ β) (.ok c : Except ρ γ) :=
  ⟨fun _ hb => ⟨c, rfl, Except.ok.inj hb ▸ h⟩, fun _ _ => ⟨b, rfl⟩⟩

theorem of_eq {y : Except ρ β} (h : x = y) : Parallel Eq x y := by
  subst h
  exact ⟨fun b hb => ⟨b, hb, rfl⟩, fun b hb => ⟨b, hb⟩⟩

theorem bind {F : β → Except ρ β'} {G : γ → Except ρ γ'} (h : Parallel Q x y)
    (hrest : ∀ b c, x = .ok b → Q b c → Parallel Q' (F b) (G c)) :
    Parallel Q' (x >>= F) (y >>= G) := by
  constructor
  · intro b' hb'
    obtain ⟨b, hb, hF⟩ := bind_ok.1 hb'
    obtain ⟨c, hc, hQ⟩ := h.left b hb
    obtain ⟨c', hc', hQ'⟩ := (hrest b c hb hQ).left b' hF
    exact ⟨c', bind_ok.2 ⟨c, hc, hc'⟩, hQ'⟩
  · intro c' hc'
    obtain ⟨c, hc, hG⟩ := bind_ok.1 hc'
    obtain ⟨b, hb⟩ := h.right c hc
    obtain ⟨c₁, hc₁, hQ⟩ := h.left b hb
    rw [hc] at hc₁
    cases hc₁
    obtain ⟨b', hb'⟩ := (hrest b c hb hQ).right c' hG
    exact ⟨b', bind_ok.2 ⟨b, hb, hb'⟩⟩

theorem isOk_eq (h : Parallel Q x y) : y.isOk = x.isOk := by
  cases hx : x with
  | ok b =>
    obtain ⟨c, hc, -⟩ := h.left b hx
    rw [hc]
    rfl
  | error e =>
    cases hy : y with
    | ok c =>
      obtain ⟨b, hb⟩ := h.right c hy
      rw [hx] at hb
      cases hb
    | error e' => rfl

end Parallel

/-- **Two folds that fail together.** -/
theorem foldlM_parallel
    (hround : ∀ pre a post s t, l = pre ++ a :: post → R pre s t →
      Parallel (R (pre ++ [a])) (f s a) (g t a)) (h : R [] s t) :
    Parallel (R l) (l.foldlM f s) (l.foldlM g t) := by
  have hrest : ∀ (post pre : List α) (s : σ) (t : τ), l = pre ++ post → R pre s t →
      Parallel (R l) (post.foldlM f s) (post.foldlM g t) := by
    intro post
    induction post with
    | nil =>
      intro pre s t hsplit hR
      rw [List.append_nil] at hsplit
      subst hsplit
      exact Parallel.ok hR
    | cons a post ih =>
      intro pre s t hsplit hR
      rw [List.foldlM_cons, List.foldlM_cons]
      refine (hround pre a post s t hsplit hR).bind fun s' t' _ hR' => ?_
      exact ih (pre ++ [a]) s' t' (by rw [hsplit, List.append_assoc]; rfl) hR'
  exact hrest l [] s t rfl h

/-- **Two folds that go through.** -/
theorem foldlM_both
    (hround : ∀ pre a post s t s' t', l = pre ++ a :: post → R pre s t → f s a = .ok s' →
      g t a = .ok t' → R (pre ++ [a]) s' t') (h : R [] s t) (hs : l.foldlM f s = .ok s')
    (ht : l.foldlM g t = .ok t') : R l s' t' := by
  have hrest : ∀ (post pre : List α) (s : σ) (t : τ), l = pre ++ post → R pre s t →
      post.foldlM f s = .ok s' → post.foldlM g t = .ok t' → R l s' t' := by
    intro post
    induction post with
    | nil =>
      intro pre s t hsplit hR hs ht
      rw [List.append_nil] at hsplit
      subst hsplit
      cases hs
      cases ht
      exact hR
    | cons a post ih =>
      intro pre s t hsplit hR hs ht
      rw [List.foldlM_cons, bind_ok] at hs ht
      obtain ⟨s₁, hs₁, hs⟩ := hs
      obtain ⟨t₁, ht₁, ht⟩ := ht
      refine ih (pre ++ [a]) s₁ t₁ (by rw [hsplit, List.append_assoc]; rfl) ?_ hs ht
      exact hround pre a post s t s₁ t₁ hsplit hR hs₁ ht₁
  exact hrest l [] s t rfl h hs ht

end Check
