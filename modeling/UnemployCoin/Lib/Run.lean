import Mathlib.Tactic.Common
/-!
# Runs of a partial transition system

A system takes a step on an event, or refuses it.  `exec` runs a list of events and fails as
soon as one of them is refused.  `Along` says that every step a run takes meets a condition on
the state before it and the event.
-/

/-- A system that takes a step on an event or refuses it. -/
structure Machine (σ ε : Type*) where
  step : σ → ε → Option σ

namespace Machine

variable {σ ε : Type*} (M : Machine σ ε)

/-- The state after all events of a list, if none of them is refused. -/
def exec : σ → List ε → Option σ
  | s, [] => some s
  | s, e :: es => (M.step s e).bind fun s' => exec s' es

/-- Every step of the run from `s` meets `P`. -/
def Along (P : σ → ε → Prop) : σ → List ε → Prop
  | _, [] => True
  | s, e :: es => P s e ∧ ∀ s', M.step s e = some s' → Along P s' es

/-- A test at every step of the run. -/
def tests (p : σ → ε → Bool) : σ → List ε → Bool
  | _, [] => true
  | s, e :: es => p s e && (M.step s e).all fun s' => tests p s' es

variable {M} {P Q : σ → ε → Prop} {I J : σ → Prop} {s s' t : σ} {e : ε} {es fs : List ε}

@[simp] theorem exec_nil : M.exec s [] = some s := rfl

theorem exec_cons : M.exec s (e :: es) = some t ↔ ∃ s', M.step s e = some s' ∧
    M.exec s' es = some t := by
  rw [exec, Option.bind_eq_some_iff]

theorem exec_append : M.exec s (es ++ fs) = some t ↔ ∃ s', M.exec s es = some s' ∧
    M.exec s' fs = some t := by
  induction es generalizing s with
  | nil => simp
  | cons e es ih =>
    rw [List.cons_append, exec_cons]
    constructor
    · rintro ⟨u, hu, hrest⟩
      obtain ⟨v, hv, hfs⟩ := ih.1 hrest
      exact ⟨v, exec_cons.2 ⟨u, hu, hv⟩, hfs⟩
    · rintro ⟨v, hv, hfs⟩
      obtain ⟨u, hu, hes⟩ := exec_cons.1 hv
      exact ⟨u, hu, ih.2 ⟨v, hes, hfs⟩⟩

theorem Along.of_forall (h : ∀ e ∈ es, ∀ s, P s e) : M.Along P s es := by
  induction es generalizing s with
  | nil => trivial
  | cons e es ih =>
    rw [List.forall_mem_cons] at h
    exact ⟨h.1 s, fun s' _ => ih h.2⟩

theorem Along.of_tests {p : σ → ε → Bool} (hp : ∀ s e, p s e = true → P s e)
    (h : M.tests p s es = true) : M.Along P s es := by
  induction es generalizing s with
  | nil => trivial
  | cons e es ih =>
    rw [tests, Bool.and_eq_true, Option.all_eq_true] at h
    exact ⟨hp s e h.1, fun s' hs' => ih (h.2 s' hs')⟩

theorem Along.append (h : M.Along P s es) (hfs : ∀ t, M.exec s es = some t → M.Along P t fs) :
    M.Along P s (es ++ fs) := by
  induction es generalizing s with
  | nil => exact hfs s rfl
  | cons e es ih =>
    refine ⟨h.1, fun s' hs' => ih (h.2 s' hs') fun t ht => ?_⟩
    exact hfs t (exec_cons.2 ⟨s', hs', ht⟩)

theorem Along.of_append (h : M.Along P s (es ++ fs)) :
    M.Along P s es ∧ ∀ t, M.exec s es = some t → M.Along P t fs := by
  induction es generalizing s with
  | nil =>
    refine ⟨trivial, fun t ht => ?_⟩
    cases ht
    exact h
  | cons e es ih =>
    refine ⟨⟨h.1, fun s' hs' => (ih (h.2 s' hs')).1⟩, fun t ht => ?_⟩
    obtain ⟨s', hs', hrest⟩ := exec_cons.1 ht
    exact (ih (h.2 s' hs')).2 t hrest

theorem along_iff : M.Along P s es ↔
    ∀ pre e post t, es = pre ++ e :: post → M.exec s pre = some t → P t e := by
  induction es generalizing s with
  | nil =>
    refine ⟨fun _ pre e post t h => ?_, fun _ => trivial⟩
    cases (List.append_eq_nil_iff.1 h.symm).2
  | cons e es ih =>
    constructor
    · rintro ⟨hP, hrest⟩ pre e' post t hsplit ht
      cases pre with
      | nil =>
        obtain ⟨rfl, -⟩ := List.cons_eq_cons.1 hsplit
        cases ht
        exact hP
      | cons e'' pre =>
        obtain ⟨rfl, htail⟩ := List.cons_eq_cons.1 hsplit
        obtain ⟨s', hs', hpre⟩ := exec_cons.1 ht
        exact ih.1 (hrest s' hs') pre e' post t htail hpre
    · intro hall
      refine ⟨hall [] e es s rfl rfl, fun s' hs' => ih.2 fun pre e' post t hsplit ht => ?_⟩
      exact hall (e :: pre) e' post t (by rw [hsplit, List.cons_append])
        (exec_cons.2 ⟨s', hs', ht⟩)

theorem exec_progress (hstep : ∀ s e, I s → P s e → ∃ s', M.step s e = some s' ∧ I s') (hI : I s)
    (halong : M.Along P s es) : ∃ t, M.exec s es = some t ∧ I t := by
  induction es generalizing s with
  | nil => exact ⟨s, rfl, hI⟩
  | cons e es ih =>
    obtain ⟨s', hs', hI'⟩ := hstep s e hI halong.1
    obtain ⟨t, ht, hIt⟩ := ih hI' (halong.2 s' hs')
    exact ⟨t, exec_cons.2 ⟨s', hs', ht⟩, hIt⟩

/-- **Induction over a run.**  What each step that meets `P` preserves holds at the end of a
run along `P`. -/
theorem exec_invariant (hstep : ∀ s e s', I s → P s e → M.step s e = some s' → I s')
    (hI : I s) (halong : M.Along P s es) (hexec : M.exec s es = some t) : I t := by
  induction es generalizing s with
  | nil =>
    cases hexec
    exact hI
  | cons e es ih =>
    obtain ⟨s', hs', hrest⟩ := exec_cons.1 hexec
    exact ih (hstep s e s' hI halong.1 hs') (halong.2 s' hs') hrest

/-- **What every state of a run shows.**  `J` is what is asked of a state and `I` what carries the
induction; where a condition on a step says exactly when the step leaves a state with `J`, the run
meets the condition exactly when all its states have `J`. -/
theorem shown_iff (hIJ : ∀ s, I s → J s)
    (hstep : ∀ s e s', I s → M.step s e = some s' → (P s e ↔ J s') ∧ (P s e → I s')) (hI : I s)
    (hexec : M.exec s es = some t) :
    (∀ pre post u, es = pre ++ post → M.exec s pre = some u → J u) ↔ M.Along P s es := by
  induction es generalizing s with
  | nil =>
    refine ⟨fun _ => trivial, fun _ pre post u hsplit hu => ?_⟩
    obtain ⟨rfl, -⟩ := List.append_eq_nil_iff.1 hsplit.symm
    cases hu
    exact hIJ s hI
  | cons e es ih =>
    obtain ⟨s', hs', hrest⟩ := exec_cons.1 hexec
    obtain ⟨hiff, hkeep⟩ := hstep s e s' hI hs'
    constructor
    · intro hall
      have hP := hiff.2 (hall [e] es s' rfl (exec_cons.2 ⟨s', hs', rfl⟩))
      refine ⟨hP, fun u hu => ?_⟩
      cases hs'.symm.trans hu
      refine (ih (hkeep hP) hrest).1 fun pre post u hsplit hu => ?_
      exact hall (e :: pre) post u (by rw [hsplit, List.cons_append]) (exec_cons.2 ⟨s', hs', hu⟩)
    · rintro ⟨hP, halong⟩ pre post u hsplit hu
      cases pre with
      | nil =>
        cases hu
        exact hIJ s hI
      | cons e' pre =>
        obtain ⟨rfl, htail⟩ := List.cons_eq_cons.1 hsplit
        obtain ⟨u', hu', hpre⟩ := exec_cons.1 hu
        cases hs'.symm.trans hu'
        exact (ih (hkeep hP) hrest).2 (halong s' hs') pre post u htail hpre

/-- **A property of every state that a run reaches.**  Where a condition on a step says exactly
when the step preserves the property, the run meets the condition exactly when all its states have
the property. -/
theorem reached_iff (hstep : ∀ s e s', I s → M.step s e = some s' → (P s e ↔ I s')) (hI : I s)
    (hexec : M.exec s es = some t) :
    (∀ pre post u, es = pre ++ post → M.exec s pre = some u → I u) ↔ M.Along P s es :=
  shown_iff (fun _ h => h)
    (fun s e s' hs hs' => ⟨hstep s e s' hs hs', (hstep s e s' hs hs').1⟩) hI hexec

/-- **Induction over a run and its events.**  The property may speak of the events so far. -/
theorem exec_history {H : List ε → σ → Prop}
    (hstep : ∀ past s e s', H past s → P s e → M.step s e = some s' → H (past ++ [e]) s')
    (hH : H [] s) (halong : M.Along P s es) (hexec : M.exec s es = some t) : H es t := by
  have hrest : ∀ (es past : List ε) (s : σ), H past s → M.Along P s es →
      M.exec s es = some t → H (past ++ es) t := by
    intro es
    induction es with
    | nil =>
      intro past s hpast _ hexec
      cases hexec
      rw [List.append_nil]
      exact hpast
    | cons e es ih =>
      intro past s hpast halong hexec
      obtain ⟨s', hs', hrest⟩ := exec_cons.1 hexec
      have hall := ih (past ++ [e]) s' (hstep past s e s' hpast halong.1 hs')
        (halong.2 s' hs') hrest
      rw [List.append_assoc, List.singleton_append] at hall
      exact hall
  exact hrest es [] s hH halong hexec

/-- **What every step of a run shows.**  `K` is what is asked of a step, which may be refused, and
`H` what carries the induction; where a condition says exactly when a step is taken and has `K`, the
run meets the condition exactly when all its steps are taken and have `K`. -/
theorem passed_iff {H : List ε → σ → Prop} {K : List ε → σ → ε → σ → Prop}
    (hstep : ∀ past s e, H past s → (P s e ↔ ∃ s', M.step s e = some s' ∧ K past s e s'))
    (hkeep : ∀ past s e s', H past s → P s e → M.step s e = some s' → H (past ++ [e]) s')
    (hH : H [] s) :
    (∀ pre e post, es = pre ++ e :: post →
      ∃ u u', M.exec s pre = some u ∧ M.step u e = some u' ∧ K pre u e u') ↔ M.Along P s es := by
  have hrest : ∀ (es past : List ε) (s : σ), H past s →
      ((∀ pre e post, es = pre ++ e :: post →
        ∃ u u', M.exec s pre = some u ∧ M.step u e = some u' ∧ K (past ++ pre) u e u') ↔
          M.Along P s es) := by
    intro es
    induction es with
    | nil => exact fun past s _ => iff_of_true (fun pre e post h => by simp at h) trivial
    | cons e es ih =>
      intro past s hpast
      constructor
      · intro hall
        obtain ⟨u, u', hu, hu', hK⟩ := hall [] e es rfl
        cases hu
        rw [List.append_nil] at hK
        have hP := (hstep past s e hpast).2 ⟨u', hu', hK⟩
        refine ⟨hP, fun s' hs' => ?_⟩
        refine (ih (past ++ [e]) s' (hkeep past s e s' hpast hP hs')).1 fun pre e' post hsplit => ?_
        obtain ⟨v, v', hv, hv', hK'⟩ := hall (e :: pre) e' post (by rw [hsplit, List.cons_append])
        obtain ⟨t, ht, hpre⟩ := exec_cons.1 hv
        cases hs'.symm.trans ht
        rw [List.append_cons] at hK'
        exact ⟨v, v', hpre, hv', hK'⟩
      · rintro ⟨hP, halong⟩ pre e' post hsplit
        obtain ⟨s', hs', hK⟩ := (hstep past s e hpast).1 hP
        cases pre with
        | nil =>
          obtain ⟨rfl, -⟩ := List.cons_eq_cons.1 hsplit
          exact ⟨s, s', rfl, hs', by rwa [List.append_nil]⟩
        | cons e'' pre =>
          obtain ⟨rfl, htail⟩ := List.cons_eq_cons.1 hsplit
          obtain ⟨u, u', hu, hu', hK'⟩ := (ih (past ++ [e]) s'
            (hkeep past s e s' hpast hP hs')).2 (halong s' hs') pre e' post htail
          rw [List.append_cons]
          exact ⟨u, u', exec_cons.2 ⟨s', hs', hu⟩, hu', hK'⟩
  exact hrest es [] s hH

end Machine
