import Mathlib.Data.Int.Notation
import Mathlib.Data.List.Nodup
import Mathlib.Logic.Function.Basic
import Mathlib.Tactic.Common
/-!
# Vectors whose elements know their position

A vector of different things, each of which records where it stands, so that it is found and
removed without a search.
-/

variable {ι : Type*}

/-- Each thing stands where its record says, and what has no record does not stand anywhere. -/
def Positions (v : List ι) (pos : ι → Option ℤ) : Prop :=
  ∀ i z, pos i = some z ↔ ∃ k : ℕ, z = k ∧ v[k]? = some i

namespace Positions

variable {v : List ι} {pos pos' : ι → Option ℤ} {i j : ι} {k l : ℕ}

theorem nil (h : ∀ i, pos i = none) : Positions [] pos := by
  intro i z
  simp [h i]

theorem congr (hv : Positions v pos) (h : ∀ i, pos' i = pos i) : Positions v pos' := by
  intro i z
  rw [h i]
  exact hv i z

theorem pos_of_getElem? (hv : Positions v pos) (h : v[k]? = some i) : pos i = some (k : ℤ) :=
  (hv i k).2 ⟨k, rfl, h⟩

theorem index_unique (hv : Positions v pos) (hk : v[k]? = some i) (hl : v[l]? = some i) :
    k = l := by
  have heq := (hv.pos_of_getElem? hk).symm.trans (hv.pos_of_getElem? hl)
  have hz := Option.some.inj heq
  omega

theorem nodup (hv : Positions v pos) : v.Nodup := by
  rw [List.nodup_iff_getElem?_ne_getElem?]
  intro k l hkl hl hsame
  have hget : v[l]? = some v[l] := List.getElem?_eq_getElem hl
  have := hv.index_unique (hsame.trans hget) hget
  omega

theorem mem_iff (hv : Positions v pos) : i ∈ v ↔ ∃ z, pos i = some z := by
  rw [List.mem_iff_getElem?]
  constructor
  · rintro ⟨k, hk⟩
    exact ⟨k, hv.pos_of_getElem? hk⟩
  · rintro ⟨z, hz⟩
    obtain ⟨k, -, hk⟩ := (hv i z).1 hz
    exact ⟨k, hk⟩

variable [DecidableEq ι]

theorem push (hv : Positions v pos) (hi : pos i = none) :
    Positions (v ++ [i]) (Function.update pos i (some (v.length : ℤ))) := by
  have hnot : ∀ k : ℕ, v[k]? ≠ some i := by
    intro k hk
    rw [hv.pos_of_getElem? hk] at hi
    cases hi
  intro j z
  by_cases hj : j = i
  · subst hj
    rw [Function.update_self]
    constructor
    · intro h
      exact ⟨v.length, (Option.some.inj h).symm, by simp⟩
    · rintro ⟨k, rfl, hk⟩
      rcases Nat.lt_trichotomy k v.length with hlt | rfl | hgt
      · rw [List.getElem?_append_left hlt] at hk
        exact absurd hk (hnot k)
      · rfl
      · rw [List.getElem?_eq_none (by simp; omega)] at hk
        cases hk
  · rw [Function.update_of_ne hj, hv j z]
    apply exists_congr
    intro k
    apply and_congr_right
    intro _
    rcases Nat.lt_trichotomy k v.length with hlt | rfl | hgt
    · rw [List.getElem?_append_left hlt]
    · simp [Ne.symm hj]
    · rw [List.getElem?_eq_none (by omega), List.getElem?_eq_none (by simp; omega)]

theorem swap (hv : Positions v pos) (hi : v[k]? = some i) (hj : v[l]? = some j) (hkl : k ≠ l) :
    Positions ((v.set k j).set l i)
      (Function.update (Function.update pos i (some (l : ℤ))) j (some (k : ℤ))) := by
  have hklen : k < v.length := (List.getElem?_eq_some_iff.1 hi).1
  have hllen : l < v.length := (List.getElem?_eq_some_iff.1 hj).1
  have hij : i ≠ j := by
    rintro rfl
    exact hkl (hv.index_unique hi hj)
  intro a z
  have hget : ∀ m : ℕ, ((v.set k j).set l i)[m]? =
      if m = l then some i else if m = k then some j else v[m]? := by
    intro m
    by_cases hml : m = l
    · subst hml
      rw [List.getElem?_set_self (by simpa using hllen), if_pos rfl]
    · rw [List.getElem?_set_ne (Ne.symm hml), if_neg hml]
      by_cases hmk : m = k
      · subst hmk
        rw [List.getElem?_set_self hklen, if_pos rfl]
      · rw [List.getElem?_set_ne (Ne.symm hmk), if_neg hmk]
  simp only [hget]
  by_cases haj : a = j
  · subst haj
    rw [Function.update_self]
    constructor
    · intro h
      refine ⟨k, (Option.some.inj h).symm, ?_⟩
      rw [if_neg hkl, if_pos rfl]
    · rintro ⟨m, rfl, hm⟩
      by_cases hml : m = l
      · rw [if_pos hml] at hm
        exact absurd (Option.some.inj hm) hij
      · rw [if_neg hml] at hm
        by_cases hmk : m = k
        · rw [hmk]
        · rw [if_neg hmk] at hm
          exact absurd (hv.index_unique hm hj) hml
  · rw [Function.update_of_ne haj]
    by_cases hai : a = i
    · subst hai
      rw [Function.update_self]
      constructor
      · intro h
        refine ⟨l, (Option.some.inj h).symm, ?_⟩
        rw [if_pos rfl]
      · rintro ⟨m, rfl, hm⟩
        by_cases hml : m = l
        · rw [hml]
        · rw [if_neg hml] at hm
          by_cases hmk : m = k
          · rw [if_pos hmk] at hm
            exact absurd (Option.some.inj hm).symm hij
          · rw [if_neg hmk] at hm
            exact absurd (hv.index_unique hm hi) hmk
    · -- Anything else stays where it is.
      rw [Function.update_of_ne hai, hv a z]
      apply exists_congr
      intro m
      apply and_congr_right
      intro _
      by_cases hml : m = l
      · rw [if_pos hml, hml, hj]
        simp [Ne.symm haj, Ne.symm hai]
      · rw [if_neg hml]
        by_cases hmk : m = k
        · rw [if_pos hmk, hmk, hi]
          simp [Ne.symm haj, Ne.symm hai]
        · rw [if_neg hmk]

theorem pop (hv : Positions v pos) (hi : v[v.length - 1]? = some i) :
    Positions v.dropLast (Function.update pos i none) := by
  intro j z
  have hget : ∀ k : ℕ, v.dropLast[k]? = if k < v.length - 1 then v[k]? else none := by
    intro k
    rw [List.getElem?_dropLast]
  simp only [hget]
  by_cases hj : j = i
  · subst hj
    rw [Function.update_self]
    constructor
    · intro h
      cases h
    · rintro ⟨k, rfl, hk⟩
      by_cases hlt : k < v.length - 1
      · rw [if_pos hlt] at hk
        have := hv.index_unique hk hi
        omega
      · rw [if_neg hlt] at hk
        cases hk
  · rw [Function.update_of_ne hj, hv j z]
    apply exists_congr
    intro k
    apply and_congr_right
    intro _
    by_cases hlt : k < v.length - 1
    · rw [if_pos hlt]
    · rw [if_neg hlt]
      constructor
      · intro hk
        have hlen := (List.getElem?_eq_some_iff.1 hk).1
        rw [show k = v.length - 1 by omega, hi] at hk
        exact absurd (Option.some.inj hk).symm hj
      · intro hk
        cases hk

end Positions
