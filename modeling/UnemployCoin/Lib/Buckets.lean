import Mathlib.Data.Fintype.Prod
import Mathlib.Data.List.FinRange
import Mathlib.Data.List.ProdSigma
import Mathlib.Algebra.BigOperators.Group.Finset.Piecewise
import Mathlib.Tactic.Common
/-!
# Bucket tables

A table of buckets with numbered slots.  A thing has one slot in each bucket that it may be
entered in, and is entered in some of the buckets.
-/

namespace Buckets

abbrev Table (β γ ι : Type*) := β → γ → ι

variable {β γ ι : Type*} [DecidableEq β] [DecidableEq γ]

def setCell (vv : Table β γ ι) (b : β) (p : γ) (i : ι) : Table β γ ι :=
  fun b' p' => if b' = b ∧ p' = p then i else vv b' p'

theorem setCell_apply (vv : Table β γ ι) (b b' : β) (p p' : γ) (i : ι) :
    setCell vv b p i b' p' = if b' = b ∧ p' = p then i else vv b' p' := rfl

@[simp] theorem setCell_self (vv : Table β γ ι) (b : β) (p : γ) (i : ι) :
    setCell vv b p i b p = i := if_pos ⟨rfl, rfl⟩

theorem setCell_of_ne {vv : Table β γ ι} {b b' : β} {p p' : γ} {i : ι} (h : ¬ (b' = b ∧ p' = p)) :
    setCell vv b p i b' p' = vv b' p' := if_neg h

/-- Things other than the old and the new occupant stay where they are. -/
theorem setCell_eq_iff {vv : Table β γ ι} {b b' : β} {p p' : γ} {i j : ι} (hold : vv b p ≠ j)
    (hnew : i ≠ j) : setCell vv b p i b' p' = j ↔ vv b' p' = j := by
  rw [setCell_apply]
  split
  · rename_i heq
    rw [heq.1, heq.2]
    exact ⟨fun hm => absurd hm hnew, fun hm => absurd hm hold⟩
  · exact Iff.rfl

theorem setCell_eq_self {vv : Table β γ ι} {b : β} {p : γ} {i : ι} (h : vv b p = i) :
    setCell vv b p i = vv := by
  funext b' p'
  rw [setCell_apply]
  split
  · rename_i heq
    rw [heq.1, heq.2, h]
  · rfl

/-! ## How often a thing is entered -/

section Refs

variable [DecidableEq ι] [Fintype β]

def refs (vv : Table β γ ι) (slot : β → γ) (i : ι) : ℕ :=
  (Finset.univ.filter fun b => vv b (slot b) = i).card

omit [DecidableEq β] [DecidableEq γ] in
theorem refs_pos {vv : Table β γ ι} {slot : β → γ} {i : ι} :
    0 < refs vv slot i ↔ ∃ b, vv b (slot b) = i := by
  rw [refs, Finset.card_pos]
  constructor
  · rintro ⟨b, hb⟩
    exact ⟨b, (Finset.mem_filter.1 hb).2⟩
  · rintro ⟨b, hb⟩
    exact ⟨b, Finset.mem_filter.2 ⟨Finset.mem_univ b, hb⟩⟩

omit [DecidableEq β] [DecidableEq γ] in
theorem refs_eq_zero {vv : Table β γ ι} {slot : β → γ} {i : ι} :
    refs vv slot i = 0 ↔ ∀ b, vv b (slot b) ≠ i := by
  constructor
  · intro h b hb
    have hpos := refs_pos.2 ⟨b, hb⟩
    omega
  · intro h
    by_contra hne
    obtain ⟨b, hb⟩ := refs_pos.1 (Nat.pos_of_ne_zero hne)
    exact h b hb

omit [DecidableEq β] [DecidableEq γ] in
theorem refs_congr {vv vv' : Table β γ ι} {slot : β → γ} {i : ι}
    (h : ∀ b, vv' b (slot b) = i ↔ vv b (slot b) = i) : refs vv' slot i = refs vv slot i := by
  unfold refs
  congr 1
  apply Finset.filter_congr
  intro b _
  exact h b

omit [DecidableEq γ] in
theorem refs_split (vv : Table β γ ι) (slot : β → γ) (b : β) (j : ι) :
    refs vv slot j = (if vv b (slot b) = j then 1 else 0) +
      ∑ b' ∈ Finset.univ.erase b, if vv b' (slot b') = j then 1 else 0 := by
  rw [refs, Finset.card_filter]
  exact (Finset.add_sum_erase _ _ (Finset.mem_univ b)).symm

/-- **What one cell does to a count.**  The old occupant of the cell is in one bucket less and the
new one in one bucket more, if the cell is in their slot. -/
theorem refs_setCell (vv : Table β γ ι) (slot : β → γ) (b : β) (p : γ) (i j : ι) :
    refs (setCell vv b p i) slot j + (if slot b = p ∧ vv b p = j then 1 else 0) =
      refs vv slot j + (if slot b = p ∧ i = j then 1 else 0) := by
  have hrest : (∑ b' ∈ Finset.univ.erase b, if setCell vv b p i b' (slot b') = j then 1 else 0) =
      ∑ b' ∈ Finset.univ.erase b, if vv b' (slot b') = j then 1 else 0 := by
    apply Finset.sum_congr rfl
    intro b' hb'
    rw [setCell_of_ne]
    rintro ⟨h, -⟩
    exact Finset.ne_of_mem_erase hb' h
  rw [refs_split (setCell vv b p i) slot b, refs_split vv slot b, hrest]
  by_cases hp : slot b = p
  · subst hp
    simp only [setCell_self, true_and]
    omega
  · rw [setCell_of_ne fun h => hp h.2]
    simp only [hp, false_and, if_false]

theorem refs_clear {vv : Table β γ ι} {slot : β → γ} {b : β} {i j : ι} (hold : vv b (slot b) = j)
    (hnew : i ≠ j) : refs (setCell vv b (slot b) i) slot j + 1 = refs vv slot j := by
  have h := refs_setCell vv slot b (slot b) i j
  simp only [hold, hnew, and_self, and_false, if_true, if_false, Nat.add_zero] at h
  exact h

theorem refs_enter {vv : Table β γ ι} {slot : β → γ} {b : β} {j : ι} (hold : vv b (slot b) ≠ j) :
    refs (setCell vv b (slot b) j) slot j = refs vv slot j + 1 := by
  have h := refs_setCell vv slot b (slot b) j j
  simp only [hold, and_self, and_false, if_true, if_false, Nat.add_zero] at h
  exact h

end Refs

/-! ## Leaving all buckets -/

section Leave

variable [DecidableEq ι]

/-- Goes through some buckets, puts `e` where `i` stands in its slot, and counts down from `n`. -/
def leave (slot : β → γ) (i e : ι) (l : List β) (vv : Table β γ ι) (n : ℤ) : Table β γ ι × ℤ :=
  l.foldl (fun r b => if r.1 b (slot b) = i then (setCell r.1 b (slot b) e, r.2 - 1) else r) (vv, n)

variable {slot : β → γ} {i e : ι}

theorem leave_cons (b : β) (l : List β) (vv : Table β γ ι) (n : ℤ) :
    leave slot i e (b :: l) vv n = if vv b (slot b) = i then
      leave slot i e l (setCell vv b (slot b) e) (n - 1) else leave slot i e l vv n := by
  by_cases h : vv b (slot b) = i
  · rw [if_pos h, leave, List.foldl_cons, if_pos h, leave]
  · rw [if_neg h, leave, List.foldl_cons, if_neg h, leave]

theorem leave_apply (he : e ≠ i) (l : List β) (vv : Table β γ ι) (n : ℤ) (b : β) (p : γ) :
    (leave slot i e l vv n).1 b p = if b ∈ l ∧ p = slot b ∧ vv b p = i then e else vv b p := by
  induction l generalizing vv n with
  | nil => simp [leave]
  | cons b' l ih =>
    rw [leave_cons]
    by_cases h : vv b' (slot b') = i
    · rw [if_pos h, ih, setCell_apply]
      by_cases hb : b = b' ∧ p = slot b'
      · obtain ⟨rfl, rfl⟩ := hb
        simp [he, h]
      · rw [if_neg hb]
        have hmem : p = slot b → ¬ b = b' := by
          rintro rfl rfl
          exact hb ⟨rfl, rfl⟩
        by_cases hp : p = slot b <;> simp_all
    · rw [if_neg h, ih]
      have hne : p = slot b ∧ vv b p = i → ¬ b = b' := by
        rintro ⟨rfl, hv⟩ rfl
        exact h hv
      by_cases hp : p = slot b ∧ vv b p = i
      · simp [hp, hne hp]
      · rw [if_neg fun hh => hp hh.2, if_neg fun hh => hp hh.2]

theorem leave_count [Fintype β] (he : e ≠ i) (l : List β) (vv : Table β γ ι) (n : ℤ) :
    (leave slot i e l vv n).2 - refs (leave slot i e l vv n).1 slot i = n - refs vv slot i := by
  induction l generalizing vv n with
  | nil => rfl
  | cons b l ih =>
    rw [leave_cons]
    by_cases h : vv b (slot b) = i
    · rw [if_pos h, ih]
      have hclear := refs_clear h he
      omega
    · rw [if_neg h, ih]

/-- **Leaving all buckets**: nothing is left of the thing, and its references are counted off. -/
theorem leave_all [Fintype β] (he : e ≠ i) {l : List β} (hl : ∀ b, b ∈ l) {vv : Table β γ ι}
    (hslot : ∀ b p, vv b p = i → slot b = p) (n : ℤ) :
    (∀ b p, (leave slot i e l vv n).1 b p = if vv b p = i then e else vv b p) ∧
      (leave slot i e l vv n).2 = n - refs vv slot i := by
  have hcells : ∀ b p, (leave slot i e l vv n).1 b p = if vv b p = i then e else vv b p := by
    intro b p
    rw [leave_apply he]
    by_cases hv : vv b p = i
    · rw [if_pos ⟨hl b, (hslot b p hv).symm, hv⟩, if_pos hv]
    · rw [if_neg fun h => hv h.2.2, if_neg hv]
  refine ⟨hcells, ?_⟩
  have hcount := @leave_count β γ ι _ _ _ slot i e _ he l vv n
  have hnone : refs (leave slot i e l vv n).1 slot i = 0 := by
    apply refs_eq_zero.2
    intro b
    rw [hcells]
    split
    · exact he
    · assumption
  rw [hnone] at hcount
  omega

theorem leave_self (l : List β) (vv : Table β γ ι) (n : ℤ) :
    leave slot i i l vv n =
      (vv, n - ((l.filter fun b => decide (vv b (slot b) = i)).length : ℤ)) := by
  induction l generalizing n with
  | nil => simp [leave]
  | cons b l ih =>
    rw [leave_cons]
    by_cases h : vv b (slot b) = i
    · rw [if_pos h, setCell_eq_self h, ih, List.filter_cons_of_pos (by simpa using h),
        List.length_cons, Prod.mk.injEq]
      refine ⟨rfl, ?_⟩
      push_cast
      omega
    · rw [if_neg h, ih, List.filter_cons_of_neg (by simpa using h)]

end Leave

/-! ## All cells -/

section Cells

variable {m n : ℕ}

def cells (m n : ℕ) : List (Fin m × Fin n) := List.finRange m ×ˢ List.finRange n

theorem mem_cells (bp : Fin m × Fin n) : bp ∈ cells m n := by
  rw [cells, List.mem_product]
  exact ⟨List.mem_finRange _, List.mem_finRange _⟩

theorem cells_nodup : (cells m n).Nodup := (List.nodup_finRange m).product (List.nodup_finRange n)

variable [DecidableEq ι]

/-- What stands in the cells of a list, without the empty ones. -/
def occupants (vv : Table β γ ι) (e : ι) (l : List (β × γ)) : List ι :=
  (l.map fun bp => vv bp.1 bp.2).filter fun i => decide (i ≠ e)

omit [DecidableEq β] [DecidableEq γ] in
theorem occupants_cons (vv : Table β γ ι) (e : ι) (bp : β × γ) (l : List (β × γ)) :
    occupants vv e (bp :: l) =
      if vv bp.1 bp.2 = e then occupants vv e l else vv bp.1 bp.2 :: occupants vv e l := by
  by_cases h : vv bp.1 bp.2 = e
  · rw [if_pos h]
    simp [occupants, h]
  · rw [if_neg h]
    simp [occupants, h]

/-- **Read off** one after the other, the cells show a thing as many times as it has cells. -/
theorem count_occupants {vv : Table (Fin m) (Fin n) ι} {e i : ι} (hi : i ≠ e) :
    (occupants vv e (cells m n)).count i =
      (Finset.univ.filter fun bp : Fin m × Fin n => vv bp.1 bp.2 = i).card := by
  have hset : (Finset.univ.filter fun bp : Fin m × Fin n => vv bp.1 bp.2 = i) =
      ((cells m n).filter fun bp => decide (vv bp.1 bp.2 = i)).toFinset := by
    ext bp
    simp [mem_cells]
  have hnd : ((cells m n).filter fun bp => decide (vv bp.1 bp.2 = i)).Nodup :=
    cells_nodup.filter _
  rw [hset, List.toFinset_card_of_nodup hnd, occupants, List.count_filter (by simp [hi]),
    List.count, List.countP_map, List.countP_eq_length_filter]
  rfl

theorem count_occupants_marker {β γ : Type*} (vv : Table β γ ι) (e : ι) (l : List (β × γ)) :
    (occupants vv e l).count e = 0 := by
  apply List.count_eq_zero_of_not_mem
  simp [occupants]

theorem count_occupants_eq_one {vv : Table (Fin m) (Fin n) ι} {e i : ι} (hi : i ≠ e) {b : Fin m}
    {p : Fin n} (h : ∀ b' p', vv b' p' = i ↔ b' = b ∧ p' = p) :
    (occupants vv e (cells m n)).count i = 1 := by
  rw [count_occupants hi, Finset.card_eq_one]
  refine ⟨(b, p), ?_⟩
  ext ⟨b', p'⟩
  rw [Finset.mem_filter, Finset.mem_singleton, Prod.mk.injEq]
  constructor
  · rintro ⟨-, hv⟩
    exact (h b' p').1 hv
  · intro hbp
    exact ⟨Finset.mem_univ _, (h b' p').2 hbp⟩

theorem count_occupants_eq_zero {vv : Table (Fin m) (Fin n) ι} {e i : ι} (hi : i ≠ e)
    (h : ∀ b p, vv b p ≠ i) : (occupants vv e (cells m n)).count i = 0 := by
  rw [count_occupants hi, Finset.card_eq_zero, Finset.filter_eq_empty_iff]
  intro bp _
  exact h bp.1 bp.2

theorem count_occupants_eq_refs {vv : Table (Fin m) (Fin n) ι} {slot : Fin m → Fin n} {e i : ι}
    (hi : i ≠ e) (h : ∀ b p, vv b p = i → slot b = p) :
    (occupants vv e (cells m n)).count i = refs vv slot i := by
  rw [count_occupants hi]
  symm
  apply Finset.card_bij fun b _ => (b, slot b)
  · intro b hb
    rw [Finset.mem_filter] at hb ⊢
    exact ⟨Finset.mem_univ _, hb.2⟩
  · intro b _ b' _ heq
    exact congrArg Prod.fst heq
  · rintro ⟨b, p⟩ hbp
    have hv := (Finset.mem_filter.1 hbp).2
    refine ⟨b, Finset.mem_filter.2 ⟨Finset.mem_univ b, ?_⟩, ?_⟩
    · rw [h b p hv]
      exact hv
    · rw [h b p hv]

/-- **Things that are all entered somewhere** are no more than the cells. -/
theorem card_le_of_entered {vv : Table (Fin m) (Fin n) ι} {S : Finset ι}
    (h : ∀ i ∈ S, ∃ b p, vv b p = i) : S.card ≤ m * n := by
  have hsub : S ⊆ Finset.univ.image fun bp : Fin m × Fin n => vv bp.1 bp.2 := by
    intro i hi
    obtain ⟨b, p, hv⟩ := h i hi
    exact Finset.mem_image.2 ⟨(b, p), Finset.mem_univ _, hv⟩
  calc S.card ≤ (Finset.univ.image fun bp : Fin m × Fin n => vv bp.1 bp.2).card :=
        Finset.card_le_card hsub
    _ ≤ (Finset.univ : Finset (Fin m × Fin n)).card := Finset.card_image_le
    _ = m * n := by rw [Finset.card_univ, Fintype.card_prod, Fintype.card_fin, Fintype.card_fin]

end Cells

end Buckets
