import Mathlib.Tactic.Common
/-!
# Ancestors

A forest, given by the parent of each node and by its height.  A root has height zero, and a node
is one higher than its parent, so the ancestors of a node have the heights up to its own, each of
them once.
-/

namespace Ancestry

variable {ι : Type*}

@[simp]
def back (prev : ι → Option ι) : ℕ → ι → Option ι
  | 0, i => some i
  | n + 1, i => (prev i).bind (back prev n)

/-- The heights count the steps to the root. -/
structure Levelled (prev : ι → Option ι) (height : ι → ℕ) : Prop where
  root : ∀ i, prev i = none → height i = 0
  step : ∀ i j, prev i = some j → height i = height j + 1

def IsAncestor (prev : ι → Option ι) (a i : ι) : Prop := ∃ n, back prev n i = some a

def ancestorAt (prev : ι → Option ι) (height : ι → ℕ) (h : ℕ) (i : ι) : Option ι :=
  if h ≤ height i then back prev (height i - h) i else none

/-- A common ancestor that each common ancestor leads to. -/
structure IsDeepestCommon (prev : ι → Option ι) (a i j : ι) : Prop where
  left : IsAncestor prev a i
  right : IsAncestor prev a j
  deepest : ∀ b, IsAncestor prev b i → IsAncestor prev b j → IsAncestor prev b a

variable {prev prev' : ι → Option ι} {height : ι → ℕ} {a b i j i' j' : ι} {m n h : ℕ}

theorem back_add : back prev (m + n) i = (back prev m i).bind (back prev n) := by
  induction m generalizing i with
  | zero => rw [Nat.zero_add, back, Option.bind_some]
  | succ m ih =>
    rw [Nat.succ_add, back, back]
    cases prev i with
    | none => rfl
    | some j => exact ih

theorem back_congr {S : Set ι} (hclosed : ∀ i ∈ S, ∀ j, prev i = some j → j ∈ S)
    (heq : ∀ i ∈ S, prev' i = prev i) (hi : i ∈ S) : back prev' n i = back prev n i := by
  induction n generalizing i with
  | zero => rfl
  | succ n ih =>
    rw [back, back, heq i hi]
    cases hprev : prev i with
    | none => rfl
    | some j => exact ih (hclosed i hi j hprev)

theorem Levelled.exists_back (hl : Levelled prev height) (hn : n ≤ height i) :
    ∃ a, back prev n i = some a := by
  induction n generalizing i with
  | zero => exact ⟨i, rfl⟩
  | succ n ih =>
    cases hprev : prev i with
    | none =>
      have hroot := hl.root i hprev
      omega
    | some j =>
      have hstep := hl.step i j hprev
      obtain ⟨a, ha⟩ : ∃ a, back prev n j = some a := ih (by omega)
      refine ⟨a, ?_⟩
      rw [back, hprev, Option.bind_some, ha]

theorem Levelled.height_of_back (hl : Levelled prev height) (ha : back prev n i = some a) :
    height a + n = height i := by
  induction n generalizing i with
  | zero =>
    cases ha
    rfl
  | succ n ih =>
    rw [back, Option.bind_eq_some_iff] at ha
    obtain ⟨j, hprev, ha⟩ := ha
    have hstep := hl.step i j hprev
    have hrest := ih ha
    omega

/-! ## Ancestors -/

theorem IsAncestor.refl (prev : ι → Option ι) (i : ι) : IsAncestor prev i i := ⟨0, rfl⟩

theorem IsAncestor.trans (hb : IsAncestor prev b a) (ha : IsAncestor prev a i) :
    IsAncestor prev b i := by
  obtain ⟨n, hn⟩ := hb
  obtain ⟨m, hm⟩ := ha
  refine ⟨m + n, ?_⟩
  rw [back_add, hm, Option.bind_some, hn]

theorem isAncestor_of_prev (hprev : prev i = some j) : IsAncestor prev j i := by
  refine ⟨1, ?_⟩
  rw [back, hprev]
  rfl

theorem isAncestor_iff_prev :
    IsAncestor prev a i ↔ a = i ∨ ∃ j, prev i = some j ∧ IsAncestor prev a j := by
  constructor
  · rintro ⟨n, hn⟩
    cases n with
    | zero =>
      cases hn
      exact Or.inl rfl
    | succ n =>
      rw [back, Option.bind_eq_some_iff] at hn
      obtain ⟨j, hprev, hn⟩ := hn
      exact Or.inr ⟨j, hprev, n, hn⟩
  · rintro (rfl | ⟨j, hprev, ha⟩)
    · exact .refl prev a
    · exact ha.trans (isAncestor_of_prev hprev)

theorem IsAncestor.height_le (hl : Levelled prev height) (ha : IsAncestor prev a i) :
    height a ≤ height i := by
  obtain ⟨n, hn⟩ := ha
  have hheight := hl.height_of_back hn
  omega

theorem ancestorAt_eq_some (hl : Levelled prev height) :
    ancestorAt prev height h i = some a ↔ IsAncestor prev a i ∧ height a = h := by
  rw [ancestorAt]
  constructor
  · intro ha
    split at ha
    · have hheight := hl.height_of_back ha
      exact ⟨⟨_, ha⟩, by omega⟩
    · cases ha
  · rintro ⟨⟨n, hn⟩, rfl⟩
    have hheight := hl.height_of_back hn
    have hsteps : height i - height a = n := by omega
    rw [if_pos (by omega), hsteps, hn]

theorem Levelled.exists_ancestorAt (hl : Levelled prev height) (hh : h ≤ height i) :
    ∃ a, ancestorAt prev height h i = some a := by
  obtain ⟨a, ha⟩ := hl.exists_back (Nat.sub_le (height i) h)
  refine ⟨a, ?_⟩
  rw [ancestorAt, if_pos hh, ha]

theorem IsAncestor.eq_of_height (hl : Levelled prev height) (ha : IsAncestor prev a i)
    (hb : IsAncestor prev b i) (hheight : height a = height b) : a = b := by
  have hata := (ancestorAt_eq_some hl).2 ⟨ha, hheight⟩
  have hatb := (ancestorAt_eq_some hl).2 ⟨hb, rfl⟩
  rw [hata] at hatb
  exact Option.some.inj hatb

theorem IsAncestor.of_height_le (hl : Levelled prev height) (ha : IsAncestor prev a i)
    (hb : IsAncestor prev b i) (hheight : height a ≤ height b) : IsAncestor prev a b := by
  obtain ⟨c, hc⟩ := hl.exists_ancestorAt hheight
  obtain ⟨hanc, hsame⟩ := (ancestorAt_eq_some hl).1 hc
  rw [ha.eq_of_height hl (hanc.trans hb) hsame.symm]
  exact hanc

/-- **A walk may jump** to any ancestor that is not below the height it looks for. -/
theorem ancestorAt_of_isAncestor (hl : Levelled prev height) (ha : IsAncestor prev a i)
    (hh : h ≤ height a) : ancestorAt prev height h a = ancestorAt prev height h i := by
  obtain ⟨b, hb⟩ := hl.exists_ancestorAt hh
  obtain ⟨hanc, hheight⟩ := (ancestorAt_eq_some hl).1 hb
  rw [hb]
  symm
  rw [ancestorAt_eq_some hl]
  exact ⟨hanc.trans ha, hheight⟩

/-! ## Common ancestors -/

theorem IsDeepestCommon.congr (hsame : ∀ b, IsAncestor prev b i ∧ IsAncestor prev b j ↔
    IsAncestor prev b i' ∧ IsAncestor prev b j') (ha : IsDeepestCommon prev a i' j') :
    IsDeepestCommon prev a i j := by
  obtain ⟨hleft, hright⟩ := (hsame a).2 ⟨ha.left, ha.right⟩
  refine ⟨hleft, hright, fun b hbi hbj => ?_⟩
  obtain ⟨hbi', hbj'⟩ := (hsame b).1 ⟨hbi, hbj⟩
  exact ha.deepest b hbi' hbj'

theorem IsDeepestCommon.symm (ha : IsDeepestCommon prev a i j) : IsDeepestCommon prev a j i :=
  ⟨ha.right, ha.left, fun b hbj hbi => ha.deepest b hbi hbj⟩

theorem IsDeepestCommon.self (prev : ι → Option ι) (i : ι) : IsDeepestCommon prev i i i :=
  ⟨.refl prev i, .refl prev i, fun _ hb _ => hb⟩

theorem IsDeepestCommon.of_ancestorAt (hl : Levelled prev height)
    (hi : ancestorAt prev height (height j) i = some i') (ha : IsDeepestCommon prev a i' j) :
    IsDeepestCommon prev a i j := by
  obtain ⟨hanc, hheight⟩ := (ancestorAt_eq_some hl).1 hi
  refine ha.congr fun b => ?_
  constructor
  · rintro ⟨hbi, hbj⟩
    have hle : height b ≤ height i' := by
      have hle := hbj.height_le hl
      omega
    exact ⟨hbi.of_height_le hl hanc hle, hbj⟩
  · rintro ⟨hbi, hbj⟩
    exact ⟨hbi.trans hanc, hbj⟩

theorem IsDeepestCommon.of_prev (hl : Levelled prev height) (hne : i ≠ j)
    (hheight : height i = height j) (hi : prev i = some i') (hj : prev j = some j')
    (ha : IsDeepestCommon prev a i' j') : IsDeepestCommon prev a i j := by
  refine ha.congr fun b => ?_
  constructor
  · rintro ⟨hbi, hbj⟩
    rcases isAncestor_iff_prev.1 hbi with rfl | ⟨k, hk, hbk⟩
    · exact absurd (hbj.eq_of_height hl (.refl prev j) hheight) hne
    · rcases isAncestor_iff_prev.1 hbj with rfl | ⟨l, hl', hbl⟩
      · exact absurd (hbi.eq_of_height hl (.refl prev i) hheight.symm) hne.symm
      · rw [hi] at hk
        rw [hj] at hl'
        cases hk
        cases hl'
        exact ⟨hbk, hbl⟩
  · rintro ⟨hbi, hbj⟩
    exact ⟨hbi.trans (isAncestor_of_prev hi), hbj.trans (isAncestor_of_prev hj)⟩

theorem IsDeepestCommon.of_prev_left (hnot : ¬IsAncestor prev i j) (hi : prev i = some i')
    (ha : IsDeepestCommon prev a i' j) : IsDeepestCommon prev a i j := by
  refine ha.congr fun b => ?_
  constructor
  · rintro ⟨hbi, hbj⟩
    rcases isAncestor_iff_prev.1 hbi with rfl | ⟨k, hk, hbk⟩
    · exact absurd hbj hnot
    · rw [hi] at hk
      cases hk
      exact ⟨hbk, hbj⟩
  · rintro ⟨hbi, hbj⟩
    exact ⟨hbi.trans (isAncestor_of_prev hi), hbj⟩

end Ancestry
