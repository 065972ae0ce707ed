import Mathlib.Data.List.Basic
/-!
# Lists that stop

A loop that collects elements may stop to collect once it has enough of them.
-/

namespace Stops

variable {α σ : Type*} {met : List α → Prop} {all found : List α}

/-- `found` is the prefix of `all` up to the first point, behind an element, where `met` holds. -/
structure StopsAt (met : List α → Prop) (all found : List α) : Prop where
  isPrefix : found <+: all
  met_of_ne : found ≠ all → found ≠ [] ∧ met found
  not_met : ∀ l, l <+: found → l ≠ [] → l ≠ found → ¬met l

theorem StopsAt.nil : StopsAt met ([] : List α) [] where
  isPrefix := List.prefix_rfl
  met_of_ne h := absurd rfl h
  not_met _ hl hne _ := absurd (List.prefix_nil.1 hl) hne

theorem StopsAt.congr {met' : List α → Prop} (h : StopsAt met all found)
    (hmet : ∀ l, l <+: all → (met l ↔ met' l)) : StopsAt met' all found where
  isPrefix := h.isPrefix
  met_of_ne hne := ⟨(h.met_of_ne hne).1, (hmet found h.isPrefix).1 (h.met_of_ne hne).2⟩
  not_met _ hl hne hlast hl' := h.not_met _ hl hne hlast ((hmet _ (hl.trans h.isPrefix)).2 hl')

theorem StopsAt.stop (h : StopsAt met all found) (hmet : found ≠ [] ∧ met found) (a : α) :
    StopsAt met (all ++ [a]) found where
  isPrefix := h.isPrefix.trans (List.prefix_append all [a])
  met_of_ne _ := hmet
  not_met := h.not_met

theorem StopsAt.concat (h : StopsAt met all found) (hmet : ¬(found ≠ [] ∧ met found)) (a : α) :
    StopsAt met (all ++ [a]) (found ++ [a]) := by
  have hall : found = all := Classical.byContradiction fun hne => hmet (h.met_of_ne hne)
  subst hall
  refine ⟨List.prefix_rfl, fun hne => absurd rfl hne, ?_⟩
  intro l hl hne hlast
  rcases List.prefix_concat_iff.1 hl with heq | hl
  · exact absurd heq hlast
  · by_cases hsame : l = found
    · subst hsame
      exact fun hl' => hmet ⟨hne, hl'⟩
    · exact h.not_met l hl hne hsame

theorem StopsAt.eq_all (h : StopsAt met all found) (hnever : ∀ l, ¬met l) : found = all :=
  Classical.byContradiction fun hne => hnever found (h.met_of_ne hne).2

theorem foldl_filter {f : σ → α → σ} {p : α → Bool} {P : List α → σ → Prop}
    (hstep : ∀ seen s a, P seen s → P (if p a then seen ++ [a] else seen) (f s a)) {l seen : List α}
    {s : σ} (h : P seen s) : P (seen ++ l.filter p) (l.foldl f s) := by
  induction l generalizing seen s with
  | nil => rwa [List.filter_nil, List.append_nil]
  | cons a l ih =>
    have hnext := ih (hstep seen s a h)
    cases hp : p a with
    | true =>
      rw [hp, if_pos rfl, List.append_assoc, List.singleton_append] at hnext
      rwa [List.filter_cons_of_pos hp]
    | false =>
      rw [hp, if_neg Bool.false_ne_true] at hnext
      rwa [List.filter_cons_of_neg (by rw [hp]; exact Bool.false_ne_true)]

end Stops
