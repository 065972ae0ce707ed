import Mathlib.Data.List.NodupEquivFin
import Mathlib.Data.List.Forall2
/-!
# Matching two lists in order

Each element of a list is to be matched with one of another list, in the same order and each of
these at most once.  `greedy` takes for each element the first one that is left and fits, and
`greedyEarly` gives up as soon as fewer are left than are needed.

* `greedy_iff`: **the first choice is good enough**, there is a matching if and only if `greedy`
  finds one.
* `greedyEarly_eq`: to give up early does not change the answer.

Where an element fits at most one of the other list, nothing has to be chosen: `firstFits` takes for
each of these the first element that fits it.
-/

namespace Matching

open List

variable {α β : Type*}

def greedy (R : α → β → Bool) : List α → List β → Bool
  | [], _ => true
  | _ :: _, [] => false
  | a :: as, b :: bs => if R a b then greedy R as bs else greedy R (a :: as) bs

/-- The same, up to the point where fewer are left than are needed. -/
def greedyEarly (R : α → β → Bool) : List α → List β → Bool
  | [], _ => true
  | _ :: _, [] => false
  | a :: as, b :: bs =>
    let as' := if R a b then as else a :: as
    if bs.length < as'.length then false else greedyEarly R as' bs

variable {R : α → β → Bool} {S : α → β → Prop} {a : α} {b : β} {as : List α} {bs : List β}

theorem SublistForall₂.tail (h : SublistForall₂ S (a :: as) bs) : SublistForall₂ S as bs := by
  induction bs with
  | nil => cases h
  | cons b bs ih =>
    cases h with
    | cons _ h => exact .cons_right h
    | cons_right h => exact .cons_right (ih h)

theorem SublistForall₂.length_le (h : SublistForall₂ S as bs) : as.length ≤ bs.length := by
  obtain ⟨l, hl, hsub⟩ := sublistForall₂_iff.1 h
  rw [hl.length_eq]
  exact hsub.length_le

theorem sublistForall₂_cons (hab : S a b) :
    SublistForall₂ S (a :: as) (b :: bs) ↔ SublistForall₂ S as bs := by
  constructor
  · intro h
    cases h with
    | cons _ h => exact h
    | cons_right h => exact SublistForall₂.tail h
  · exact .cons hab

theorem sublistForall₂_cons_right (hab : ¬S a b) :
    SublistForall₂ S (a :: as) (b :: bs) ↔ SublistForall₂ S (a :: as) bs := by
  constructor
  · intro h
    cases h with
    | cons hab' _ => exact absurd hab' hab
    | cons_right h => exact h
  · exact .cons_right

theorem greedy_iff : greedy R as bs = true ↔ SublistForall₂ (fun a b => R a b = true) as bs := by
  induction bs generalizing as with
  | nil =>
    cases as with
    | nil => exact ⟨fun _ => .nil, fun _ => rfl⟩
    | cons a as => exact ⟨nofun, nofun⟩
  | cons b bs ih =>
    cases as with
    | nil => exact ⟨fun _ => .nil, fun _ => rfl⟩
    | cons a as =>
      rw [greedy]
      by_cases hab : R a b = true
      · rw [if_pos hab, ih]
        exact (@sublistForall₂_cons _ _ (fun a b => R a b = true) _ _ _ _ hab).symm
      · rw [if_neg hab, ih]
        exact (@sublistForall₂_cons_right _ _ (fun a b => R a b = true) _ _ _ _ hab).symm

theorem greedy_eq_false (h : bs.length < as.length) : greedy R as bs = false := by
  rw [← Bool.not_eq_true, greedy_iff]
  exact fun hmatch => absurd (SublistForall₂.length_le hmatch) (Nat.not_le.2 h)

theorem greedyEarly_eq : greedyEarly R as bs = greedy R as bs := by
  induction bs generalizing as with
  | nil => cases as <;> rfl
  | cons b bs ih =>
    cases as with
    | nil => rfl
    | cons a as =>
      have hround : greedy R (a :: as) (b :: bs) =
          greedy R (if R a b then as else a :: as) bs := by
        rw [greedy]
        split <;> rfl
      rw [greedyEarly, hround]
      by_cases hlt : bs.length < (if R a b then as else a :: as).length
      · rw [if_pos hlt]
        exact (greedy_eq_false hlt).symm
      · rw [if_neg hlt]
        exact ih

/-- **A matching is a strictly increasing map of indexes.** -/
theorem sublistForall₂_iff_strictMono : SublistForall₂ S as bs ↔
    ∃ f : Fin as.length → Fin bs.length, StrictMono f ∧ ∀ i, S (as.get i) (bs.get (f i)) := by
  rw [sublistForall₂_iff]
  constructor
  · rintro ⟨l, hl, hsub⟩
    obtain ⟨f, hf⟩ := sublist_iff_exists_fin_orderEmbedding_get_eq.1 hsub
    have hlength := hl.length_eq
    refine ⟨fun i => f (i.cast hlength), fun i j hij => f.strictMono ?_, fun i => ?_⟩
    · exact hij
    · rw [← hf]
      exact hl.get i.2 (hlength ▸ i.2)
  · rintro ⟨f, hmono, hf⟩
    refine ⟨List.ofFn fun i => bs.get (f i), ?_, ?_⟩
    · rw [forall₂_iff_get]
      refine ⟨(length_ofFn).symm, fun i hi hi' => ?_⟩
      rw [get_ofFn]
      exact hf ⟨i, hi⟩
    · rw [sublist_iff_exists_fin_orderEmbedding_get_eq]
      refine ⟨(Fin.castOrderIso length_ofFn).toOrderEmbedding.trans
        (OrderEmbedding.ofStrictMono f hmono), fun i => ?_⟩
      rw [get_ofFn]
      rfl

/-! ## Elements that fit one -/

def fitting (R : α → β → Bool) (as : List α) (bs : List β) : List β :=
  bs.filter fun b => as.any fun a => R a b

def firstFits (R : α → β → Bool) (as : List α) (bs : List β) : List α :=
  bs.filterMap fun b => as.find? fun a => R a b

theorem forall₂_firstFits (R : α → β → Bool) (as : List α) (bs : List β) :
    Forall₂ (fun a b => R a b = true) (firstFits R as bs) (fitting R as bs) := by
  induction bs with
  | nil => exact .nil
  | cons b bs ih =>
    cases hfind : as.find? fun a => R a b with
    | none =>
      have hany : ¬(as.any fun a => R a b) = true := by
        rw [any_eq_true]
        rintro ⟨a, ha, hab⟩
        exact find?_eq_none.1 hfind a ha hab
      have hfirst : firstFits R as (b :: bs) = firstFits R as bs := filterMap_cons_none hfind
      have hfit : fitting R as (b :: bs) = fitting R as bs :=
        filter_cons_of_neg (p := fun b => as.any fun a => R a b) hany
      rw [hfirst, hfit]
      exact ih
    | some a =>
      have hab : R a b = true := find?_some (p := fun a => R a b) hfind
      have hany : (as.any fun a => R a b) = true :=
        any_eq_true.2 ⟨a, mem_of_find?_eq_some hfind, hab⟩
      have hfirst : firstFits R as (b :: bs) = a :: firstFits R as bs := filterMap_cons_some hfind
      have hfit : fitting R as (b :: bs) = b :: fitting R as bs :=
        filter_cons_of_pos (p := fun b => as.any fun a => R a b) hany
      rw [hfirst, hfit]
      exact .cons hab ih

theorem mem_of_mem_firstFits (ha : a ∈ firstFits R as bs) : a ∈ as := by
  obtain ⟨b, -, hfind⟩ := mem_filterMap.1 ha
  exact mem_of_find?_eq_some hfind

theorem fitting_congr {as' : List α} (h : ∀ b ∈ bs, ∀ a, R a b = true → (a ∈ as ↔ a ∈ as')) :
    fitting R as bs = fitting R as' bs := by
  refine filter_congr fun b hb => Bool.eq_iff_iff.2 ?_
  rw [any_eq_true, any_eq_true]
  exact exists_congr fun a => and_congr_left (h b hb a)

theorem filter_mem_of_sublist [DecidableEq β] {bs' : List β} (hsub : bs' <+ bs)
    (hnodup : bs.Nodup) : bs.filter (fun b => decide (b ∈ bs')) = bs' := by
  induction hsub with
  | slnil => rfl
  | @cons l₁ l₂ b hsub ih =>
    obtain ⟨hb, hnodup⟩ := nodup_cons.1 hnodup
    rw [filter_cons_of_neg (by rw [decide_eq_true_iff]; exact fun hmem => hb (hsub.subset hmem)),
      ih hnodup]
  | @cons_cons l₁ l₂ b hsub ih =>
    obtain ⟨hb, hnodup⟩ := nodup_cons.1 hnodup
    have hmem : decide (b ∈ b :: l₁) = true := decide_eq_true mem_cons_self
    rw [filter_cons_of_pos (p := fun b' => decide (b' ∈ b :: l₁)) hmem]
    conv_rhs => rw [← ih hnodup]
    refine congrArg (b :: ·) (filter_congr fun b' hb' => decide_eq_decide.2 ?_)
    exact mem_cons.trans (or_iff_right fun heq => hb (heq ▸ hb'))

theorem exists_of_mem_left {bs' : List β} (h : Forall₂ S as bs') (ha : a ∈ as) :
    ∃ b ∈ bs', S a b := by
  induction h with
  | nil => cases ha
  | @cons a' b as bs' hab h ih =>
    cases ha with
    | head => exact ⟨b, mem_cons_self, hab⟩
    | tail _ ha =>
      obtain ⟨b', hb', hab'⟩ := ih ha
      exact ⟨b', mem_cons_of_mem _ hb', hab'⟩

/-- **What is matched with elements that fit no other one fits these alone.** -/
theorem fitting_of_forall₂ {bs' : List β} (h : Forall₂ (fun a b => R a b = true) as bs')
    (hsub : bs' <+ bs) (hnodup : bs.Nodup)
    (hunique : ∀ a ∈ as, ∀ b ∈ bs, ∀ b' ∈ bs, R a b = true → R a b' = true → b = b') :
    fitting R as bs = bs' := by
  classical
  rw [← filter_mem_of_sublist hsub hnodup]
  refine filter_congr fun b hb => Bool.eq_iff_iff.2 ?_
  rw [any_eq_true, decide_eq_true_iff]
  constructor
  · rintro ⟨a, ha, hab⟩
    obtain ⟨b', hb', hab'⟩ := exists_of_mem_left h ha
    rwa [hunique a ha b hb b' (hsub.subset hb') hab hab']
  · intro hb'
    exact exists_of_mem_left h.flip hb'

end Matching
