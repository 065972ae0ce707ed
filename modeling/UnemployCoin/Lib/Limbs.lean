import Mathlib.Data.Nat.Size
import UnemployCoin.Lib.Radix
/-!
# Numbers in limbs

A number as a list of limbs of `w` bits, the lowest limb first.

Sums and products limb by limb are `Radix.mulAdd`, on columns that have not been carried yet.
-/

namespace Limbs

open Nat (ofDigits)

variable {w m i : ℕ} {x y : BitVec w} {l l' : List (BitVec w)}

def value (limbs : List (BitVec w)) : ℕ := ofDigits (2 ^ w) (limbs.map BitVec.toNat)

@[simp] theorem value_nil : value ([] : List (BitVec w)) = 0 := rfl

@[simp] theorem value_cons : value (x :: l) = x.toNat + 2 ^ w * value l := Nat.ofDigits_cons

theorem value_append : value (l ++ l') = value l + 2 ^ (w * l.length) * value l' := by
  rw [value, List.map_append, Nat.ofDigits_append, List.length_map, ← Nat.pow_mul, ← value, ← value]

theorem value_append_singleton : value (l ++ [x]) = value l + 2 ^ (w * l.length) * x.toNat := by
  rw [value_append, value_cons, value_nil, Nat.mul_zero, Nat.add_zero]

theorem value_lt : value l < 2 ^ (w * l.length) := by
  induction l with
  | nil => exact Nat.one_pos
  | cons x l ih =>
    have hx := x.isLt
    have hl : 2 ^ w * (value l + 1) ≤ 2 ^ w * 2 ^ (w * l.length) := Nat.mul_le_mul_left _ ih
    rw [value_cons, List.length_cons, Nat.mul_add, Nat.mul_one, Nat.add_comm (w * l.length),
      Nat.pow_add]
    rw [Nat.mul_add, Nat.mul_one] at hl
    omega

theorem value_replicate_zero (n : ℕ) : value (List.replicate n (0 : BitVec w)) = 0 := by
  rw [value, List.map_replicate]
  exact Nat.ofDigits_replicate_zero

theorem testBit_value (hi : i < w) : (value l).testBit (w * m + i) = (l.getD m 0).getLsbD i := by
  induction l generalizing m with
  | nil => simp
  | cons x l ih =>
    rw [value_cons, Nat.add_comm, Nat.testBit_two_pow_mul_add _ x.isLt]
    cases m with
    | zero =>
      rw [Nat.mul_zero, Nat.zero_add, if_pos hi, List.getD_cons_zero, BitVec.testBit_toNat]
    | succ m =>
      have hskip : w * (m + 1) + i - w = w * m + i := by
        rw [Nat.mul_succ]
        omega
      rw [if_neg (by rw [Nat.mul_succ]; omega), hskip, ih, List.getD_cons_succ]

theorem exists_of_mem_zipWith {α β γ : Type*} {f : α → β → γ} {as : List α} {bs : List β} {c : γ}
    (hc : c ∈ List.zipWith f as bs) : ∃ a b, c = f a b := by
  induction as generalizing bs with
  | nil => cases hc
  | cons a as ih =>
    cases bs with
    | nil => cases hc
    | cons b bs =>
      rcases List.mem_cons.1 hc with rfl | hc
      · exact ⟨a, b, rfl⟩
      · exact ih hc

/-! ## The highest limb -/

theorem value_lt_of_last (hlength : l.length = l'.length) (h : x < y) :
    value (l ++ [x]) < value (l' ++ [y]) := by
  have hl : value l < 2 ^ (w * l'.length) := hlength ▸ value_lt
  have hxy : 2 ^ (w * l'.length) * (x.toNat + 1) ≤ 2 ^ (w * l'.length) * y.toNat :=
    Nat.mul_le_mul_left _ h
  rw [value_append_singleton, value_append_singleton, hlength]
  rw [Nat.mul_add, Nat.mul_one] at hxy
  omega

theorem value_lt_append_iff (hlength : l.length = l'.length) :
    value (l ++ [x]) < value (l' ++ [x]) ↔ value l < value l' := by
  rw [value_append_singleton, value_append_singleton, hlength, Nat.add_lt_add_iff_right]

theorem size_eq_of_bounds {n k : ℕ} (hlow : 2 ^ k ≤ n) (hhigh : n < 2 ^ (k + 1)) :
    Nat.size n = k + 1 :=
  Nat.le_antisymm (Nat.size_le.2 hhigh) (Nat.lt_size.2 hlow)

theorem size_value_append_zero : Nat.size (value (l ++ [(0 : BitVec w)])) = Nat.size (value l) := by
  have hzero : (0 : BitVec w).toNat = 0 := BitVec.toNat_zero
  rw [value_append_singleton, hzero, Nat.mul_zero, Nat.add_zero]

theorem size_value_append (hx : x ≠ 0) :
    Nat.size (value (l ++ [x])) = w * l.length + Nat.size x.toNat := by
  have hpos : 0 < Nat.size x.toNat := by
    rw [Nat.size_pos]
    exact Nat.pos_of_ne_zero fun hzero => hx (BitVec.eq_of_toNat_eq hzero)
  obtain ⟨k, hk⟩ : ∃ k, Nat.size x.toNat = k + 1 := ⟨Nat.size x.toNat - 1, by omega⟩
  have hlow : 2 ^ k ≤ x.toNat := Nat.lt_size.1 (by omega)
  have hhigh : x.toNat + 1 ≤ 2 ^ (k + 1) := Nat.size_le.1 (Nat.le_of_eq hk)
  have hlowmul : 2 ^ (w * l.length) * 2 ^ k ≤ 2 ^ (w * l.length) * x.toNat :=
    Nat.mul_le_mul_left _ hlow
  have hhighmul : 2 ^ (w * l.length) * (x.toNat + 1) ≤ 2 ^ (w * l.length) * 2 ^ (k + 1) :=
    Nat.mul_le_mul_left _ hhigh
  have hl : value l < 2 ^ (w * l.length) := value_lt
  rw [Nat.mul_add, Nat.mul_one] at hhighmul
  rw [hk, ← Nat.add_assoc, value_append_singleton]
  refine size_eq_of_bounds ?_ ?_
  · rw [Nat.pow_add]
    omega
  · rw [Nat.add_assoc, Nat.pow_add]
    omega

def scatter (bits : List (ℕ × BitVec w)) (limbs : List (BitVec w)) : List (BitVec w) :=
  bits.foldl (fun limbs e => limbs.modify e.1 (· ||| e.2)) limbs

variable {bits : List (ℕ × BitVec w)}

@[simp] theorem length_scatter : (scatter bits l).length = l.length := by
  rw [scatter]
  induction bits generalizing l with
  | nil => rfl
  | cons e bits ih => rw [List.foldl_cons, ih, List.length_modify]

theorem getLsbD_scatter (hm : m < l.length) : ((scatter bits l).getD m 0).getLsbD i = true ↔
    (l.getD m 0).getLsbD i = true ∨ ∃ e ∈ bits, e.1 = m ∧ e.2.getLsbD i = true := by
  rw [scatter]
  induction bits generalizing l with
  | nil => simp
  | cons e bits ih =>
    rw [List.foldl_cons, ih (by rw [List.length_modify]; exact hm)]
    have hround : ((l.modify e.1 (· ||| e.2)).getD m 0).getLsbD i = true ↔
        (l.getD m 0).getLsbD i = true ∨ e.1 = m ∧ e.2.getLsbD i = true := by
      rw [List.getD_eq_getElem?_getD, List.getElem?_modify, List.getD_eq_getElem?_getD,
        List.getElem?_eq_getElem hm]
      by_cases he : e.1 = m
      · simp [he]
      · simp [he]
    rw [hround, or_assoc]
    simp only [List.mem_cons, exists_eq_or_imp]

end Limbs
