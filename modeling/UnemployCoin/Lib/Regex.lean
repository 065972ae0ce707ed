import Mathlib.Tactic.Common
/-!
# Regular expressions over character classes

A matcher for the regular expressions that a `std::regex_match` call anchors at both ends.
A character class is a predicate, so a negated class costs what a plain one does.  The matcher
takes derivatives; `mkCat` and `mkAlt` drop the parts that match nothing, which keeps a
derivative about as large as the expression.
-/

/-- A regular expression over an alphabet `σ`. -/
inductive Regex (σ : Type*) where
  | empty
  | eps
  | chars (p : σ → Bool)
  | cat (r s : Regex σ)
  | alt (r s : Regex σ)
  | star (r : Regex σ)

namespace Regex

variable {σ : Type*}

@[simp]
def mkCat : Regex σ → Regex σ → Regex σ
  | empty, _ => empty
  | _, empty => empty
  | eps, s => s
  | r, s => cat r s

@[simp]
def mkAlt : Regex σ → Regex σ → Regex σ
  | empty, s => s
  | r, empty => r
  | r, s => alt r s

/-- `r` accepts the empty string. -/
@[simp]
def nullable : Regex σ → Bool
  | empty => false
  | eps => true
  | chars _ => false
  | cat r s => r.nullable && s.nullable
  | alt r s => r.nullable || s.nullable
  | star _ => true

/-- What may follow `c` in a string that `r` accepts. -/
@[simp]
def deriv (c : σ) : Regex σ → Regex σ
  | empty => empty
  | eps => empty
  | chars p => if p c then eps else empty
  | cat r s =>
    if r.nullable then mkAlt (mkCat (r.deriv c) s) (s.deriv c) else mkCat (r.deriv c) s
  | alt r s => mkAlt (r.deriv c) (s.deriv c)
  | star r => mkCat (r.deriv c) (star r)

/-- `std::regex_match`: the **whole** string is matched. -/
@[simp]
def regexMatch : List σ → Regex σ → Bool
  | [], r => r.nullable
  | c :: w, r => regexMatch w (r.deriv c)

/-- `r{n,}`. -/
@[simp]
def atLeast : ℕ → Regex σ → Regex σ
  | 0, r => star r
  | n + 1, r => cat r (atLeast n r)

/-- `r+`. -/
def plus (r : Regex σ) : Regex σ := atLeast 1 r

@[simp]
def lit [DecidableEq σ] : List σ → Regex σ
  | [] => eps
  | c :: w => cat (chars fun d => decide (d = c)) (lit w)

@[simp] theorem regexMatch_empty (w : List σ) : regexMatch w (empty : Regex σ) = false := by
  induction w with
  | nil => rfl
  | cons c w ih => exact ih

theorem regexMatch_mkAlt {w : List σ} {r s : Regex σ}
    (h : regexMatch w (alt r s) = (regexMatch w r || regexMatch w s)) :
    regexMatch w (mkAlt r s) = (regexMatch w r || regexMatch w s) := by
  unfold mkAlt
  split
  · rw [regexMatch_empty, Bool.false_or]
  · rw [regexMatch_empty, Bool.or_false]
  · exact h

theorem regexMatch_alt (w : List σ) (r s : Regex σ) :
    regexMatch w (alt r s) = (regexMatch w r || regexMatch w s) := by
  induction w generalizing r s with
  | nil => rfl
  | cons c w ih => exact regexMatch_mkAlt (ih (r.deriv c) (s.deriv c))

theorem head_of_lit [DecidableEq σ] {c : σ} {r : Regex σ} {w : List σ}
    (h : regexMatch w (cat (lit [c]) r) = true) : ∃ v, w = c :: v := by
  cases w with
  | nil => cases h
  | cons d v =>
    by_cases hd : d = c
    · exact ⟨v, by rw [hd]⟩
    · simp [regexMatch, deriv, lit, nullable, mkCat, hd] at h

theorem head_of_plus {p : σ → Bool} {r : Regex σ} {w : List σ}
    (h : regexMatch w (cat (plus (chars p)) r) = true) : ∃ c v, w = c :: v ∧ p c = true := by
  cases w with
  | nil => cases h
  | cons c v =>
    refine ⟨c, v, rfl, ?_⟩
    by_contra hc
    simp [regexMatch, deriv, plus, atLeast, nullable, mkCat, hc] at h

theorem regexMatch_eps {w : List σ} : regexMatch w (eps : Regex σ) = true ↔ w = [] := by
  cases w with
  | nil => exact iff_of_true rfl rfl
  | cons c w =>
    change regexMatch w empty = true ↔ _
    rw [regexMatch_empty]
    exact iff_of_false Bool.false_ne_true (List.cons_ne_nil c w)

theorem regexMatch_chars {p : σ → Bool} {w : List σ} :
    regexMatch w (chars p) = true ↔ ∃ c, w = [c] ∧ p c = true := by
  cases w with
  | nil =>
    refine iff_of_false Bool.false_ne_true ?_
    rintro ⟨c, hc, -⟩
    cases hc
  | cons c w =>
    change regexMatch w (if p c then eps else empty) = true ↔ _
    split
    · rename_i hc
      rw [regexMatch_eps]
      constructor
      · rintro rfl
        exact ⟨c, rfl, hc⟩
      · rintro ⟨d, heq, -⟩
        exact (List.cons.inj heq).2
    · rename_i hc
      rw [regexMatch_empty]
      refine iff_of_false Bool.false_ne_true ?_
      rintro ⟨d, heq, hd⟩
      rw [(List.cons.inj heq).1] at hc
      exact hc hd

theorem regexMatch_mkCat {w : List σ} {r s : Regex σ}
    (h : regexMatch w (cat r s) = true ↔
      ∃ u v, w = u ++ v ∧ regexMatch u r = true ∧ regexMatch v s = true) :
    regexMatch w (mkCat r s) = true ↔
      ∃ u v, w = u ++ v ∧ regexMatch u r = true ∧ regexMatch v s = true := by
  unfold mkCat
  split
  · refine iff_of_false (by rw [regexMatch_empty]; exact Bool.false_ne_true) ?_
    rintro ⟨u, v, -, hu, -⟩
    rw [regexMatch_empty] at hu
    cases hu
  · refine iff_of_false (by rw [regexMatch_empty]; exact Bool.false_ne_true) ?_
    rintro ⟨u, v, -, -, hv⟩
    rw [regexMatch_empty] at hv
    cases hv
  · constructor
    · exact fun hw => ⟨[], w, rfl, rfl, hw⟩
    · rintro ⟨u, v, rfl, hu, hv⟩
      rw [regexMatch_eps.1 hu]
      exact hv
  · exact h

/-- **A concatenation matches a string in two pieces.** -/
theorem regexMatch_cat {w : List σ} {r s : Regex σ} :
    regexMatch w (cat r s) = true ↔
      ∃ u v, w = u ++ v ∧ regexMatch u r = true ∧ regexMatch v s = true := by
  induction w generalizing r s with
  | nil =>
    change (r.nullable && s.nullable) = true ↔ _
    rw [Bool.and_eq_true]
    constructor
    · exact fun h => ⟨[], [], rfl, h.1, h.2⟩
    · rintro ⟨u, v, heq, hu, hv⟩
      obtain ⟨rfl, rfl⟩ := List.append_eq_nil_iff.1 heq.symm
      exact ⟨hu, hv⟩
  | cons c w ih =>
    have hsplit : (∃ u v, c :: w = u ++ v ∧ regexMatch u r = true ∧ regexMatch v s = true) ↔
        (r.nullable = true ∧ regexMatch w (s.deriv c) = true) ∨
          ∃ u v, w = u ++ v ∧ regexMatch u (r.deriv c) = true ∧ regexMatch v s = true := by
      constructor
      · rintro ⟨u, v, heq, hu, hv⟩
        cases u with
        | nil =>
          rw [← show c :: w = v from heq] at hv
          exact .inl ⟨hu, hv⟩
        | cons d u =>
          obtain ⟨rfl, rfl⟩ := List.cons.inj heq
          exact .inr ⟨u, v, rfl, hu, hv⟩
      · rintro (⟨hr, hs⟩ | ⟨u, v, rfl, hu, hv⟩)
        · exact ⟨[], c :: w, rfl, hr, hs⟩
        · exact ⟨c :: u, v, rfl, hu, hv⟩
    rw [hsplit]
    change regexMatch w (if r.nullable then mkAlt (mkCat (r.deriv c) s) (s.deriv c)
      else mkCat (r.deriv c) s) = true ↔ _
    split
    · rename_i hr
      rw [regexMatch_mkAlt (regexMatch_alt w _ _), Bool.or_eq_true, regexMatch_mkCat ih, or_comm]
      exact or_congr_left (and_iff_right hr).symm
    · rename_i hr
      rw [regexMatch_mkCat ih]
      exact (or_iff_right fun h => hr h.1).symm

theorem regexMatch_star_chars {p : σ → Bool} {w : List σ} :
    regexMatch w (star (chars p)) = true ↔ ∀ c ∈ w, p c = true := by
  induction w with
  | nil => exact iff_of_true rfl fun c hc => absurd hc List.not_mem_nil
  | cons c w ih =>
    change regexMatch w (mkCat (if p c then eps else empty) (star (chars p))) = true ↔ _
    rw [regexMatch_mkCat regexMatch_cat, List.forall_mem_cons, ← ih]
    constructor
    · rintro ⟨u, v, rfl, hu, hv⟩
      split at hu
      · rename_i hc
        rw [regexMatch_eps.1 hu]
        exact ⟨hc, hv⟩
      · rw [regexMatch_empty] at hu
        cases hu
    · rintro ⟨hc, hw⟩
      rw [if_pos hc]
      exact ⟨[], w, rfl, rfl, hw⟩

theorem regexMatch_atLeast_chars {p : σ → Bool} {n : ℕ} {w : List σ} :
    regexMatch w (atLeast n (chars p)) = true ↔ n ≤ w.length ∧ ∀ c ∈ w, p c = true := by
  induction n generalizing w with
  | zero =>
    change regexMatch w (star (chars p)) = true ↔ _
    rw [regexMatch_star_chars]
    exact (and_iff_right (Nat.zero_le _)).symm
  | succ n ih =>
    change regexMatch w (cat (chars p) (atLeast n (chars p))) = true ↔ _
    rw [regexMatch_cat]
    constructor
    · rintro ⟨u, v, rfl, hu, hv⟩
      obtain ⟨c, rfl, hc⟩ := regexMatch_chars.1 hu
      obtain ⟨hlength, hall⟩ := ih.1 hv
      exact ⟨Nat.succ_le_succ hlength, List.forall_mem_cons.2 ⟨hc, hall⟩⟩
    · rintro ⟨hlength, hall⟩
      cases w with
      | nil => cases hlength
      | cons c w =>
        obtain ⟨hc, hw⟩ := List.forall_mem_cons.1 hall
        exact ⟨[c], w, rfl, regexMatch_chars.2 ⟨c, rfl, hc⟩,
          ih.2 ⟨Nat.le_of_succ_le_succ hlength, hw⟩⟩

theorem regexMatch_plus_chars {p : σ → Bool} {w : List σ} :
    regexMatch w (plus (chars p)) = true ↔ w ≠ [] ∧ ∀ c ∈ w, p c = true := by
  rw [plus, regexMatch_atLeast_chars, Nat.succ_le_iff, List.length_pos_iff]

theorem regexMatch_lit [DecidableEq σ] {l w : List σ} :
    regexMatch w (lit l) = true ↔ w = l := by
  induction l generalizing w with
  | nil => exact regexMatch_eps
  | cons c l ih =>
    change regexMatch w (cat (chars fun d => decide (d = c)) (lit l)) = true ↔ _
    rw [regexMatch_cat]
    constructor
    · rintro ⟨u, v, rfl, hu, hv⟩
      obtain ⟨d, rfl, hd⟩ := regexMatch_chars.1 hu
      rw [of_decide_eq_true hd, ih.1 hv]
      rfl
    · rintro rfl
      exact ⟨[c], l, rfl, regexMatch_chars.2 ⟨c, rfl, decide_eq_true rfl⟩, ih.2 rfl⟩

/-- `a` is in none of the classes of `r`. -/
def avoids (a : σ) : Regex σ → Bool
  | empty | eps => true
  | chars p => !p a
  | cat r s | alt r s => r.avoids a && s.avoids a
  | star r => r.avoids a

variable {a : σ} {r s : Regex σ}

theorem avoids_mkCat (hr : r.avoids a = true) (hs : s.avoids a = true) :
    (mkCat r s).avoids a = true := by
  unfold mkCat
  split
  · rfl
  · rfl
  · exact hs
  · rw [avoids, hr, hs]
    rfl

theorem avoids_mkAlt (hr : r.avoids a = true) (hs : s.avoids a = true) :
    (mkAlt r s).avoids a = true := by
  unfold mkAlt
  split
  · exact hs
  · exact hr
  · rw [avoids, hr, hs]
    rfl

theorem avoids_deriv (c : σ) (h : r.avoids a = true) : (r.deriv c).avoids a = true := by
  induction r with
  | empty | eps => rfl
  | chars p =>
    rw [deriv]
    split <;> rfl
  | cat r s ihr ihs =>
    rw [avoids, Bool.and_eq_true] at h
    rw [deriv]
    split
    · exact avoids_mkAlt (avoids_mkCat (ihr h.1) h.2) (ihs h.2)
    · exact avoids_mkCat (ihr h.1) h.2
  | alt r s ihr ihs =>
    rw [avoids, Bool.and_eq_true] at h
    exact avoids_mkAlt (ihr h.1) (ihs h.2)
  | star r ih => exact avoids_mkCat (ih h) h

theorem deriv_eq_empty (h : r.avoids a = true) : r.deriv a = empty := by
  induction r with
  | empty | eps => rfl
  | chars p =>
    rw [avoids, Bool.not_eq_true'] at h
    rw [deriv, h]
    rfl
  | cat r s ihr ihs =>
    rw [avoids, Bool.and_eq_true] at h
    rw [deriv, ihr h.1, ihs h.2]
    split <;> rfl
  | alt r s ihr ihs =>
    rw [avoids, Bool.and_eq_true] at h
    rw [deriv, ihr h.1, ihs h.2]
    rfl
  | star r ih =>
    rw [deriv, ih h]
    rfl

theorem not_mem_of_regexMatch {w : List σ} (h : r.avoids a = true)
    (hmatch : regexMatch w r = true) : a ∉ w := by
  induction w generalizing r with
  | nil => exact List.not_mem_nil
  | cons c w ih =>
    rw [List.mem_cons, not_or]
    refine ⟨?_, ih (avoids_deriv c h) hmatch⟩
    rintro rfl
    rw [regexMatch, deriv_eq_empty h, regexMatch_empty] at hmatch
    cases hmatch

end Regex
