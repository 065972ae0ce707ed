import Mathlib.Data.List.DropRight
import Mathlib.Data.Nat.Digits.Defs
import Mathlib.Tactic.Ring
/-!
# Conversion between radices

The schoolbook conversion of a numeral: go through its digits from the most significant one, and
multiply the result so far by the old radix and add the digit, in the new radix, with a result of
a fixed number of digits.
-/

namespace Radix

open Nat (ofDigits)

variable {b m : ℕ}

/-- `digits * m + carry` in radix `b`, least significant digit first.  A carry that is left over
is dropped. -/
def mulAdd (b m : ℕ) : List ℕ → ℕ → List ℕ
  | [], _ => []
  | digit :: digits, carry =>
    (carry + m * digit) % b :: mulAdd b m digits ((carry + m * digit) / b)

/-- The digits of radix `m`, most significant first, converted to `size` digits of radix `b`,
least significant first. -/
def convert (b m size : ℕ) (l : List ℕ) : List ℕ :=
  l.foldl (mulAdd b m) (List.replicate size 0)

/-- The digits without leading zeros, most significant first. -/
def strip (digits : List ℕ) : List ℕ := digits.reverse.dropWhile fun d => d == 0

@[simp] theorem length_mulAdd (digits : List ℕ) (carry : ℕ) :
    (mulAdd b m digits carry).length = digits.length := by
  induction digits generalizing carry with
  | nil => rfl
  | cons digit digits ih => rw [mulAdd, List.length_cons, List.length_cons, ih]

theorem lt_of_mem_mulAdd (hb : 0 < b) {digits : List ℕ} {carry d : ℕ}
    (h : d ∈ mulAdd b m digits carry) : d < b := by
  induction digits generalizing carry with
  | nil => cases h
  | cons digit digits ih =>
    rw [mulAdd, List.mem_cons] at h
    rcases h with rfl | h
    · exact Nat.mod_lt _ hb
    · exact ih h

theorem ofDigits_mulAdd (digits : List ℕ) (carry : ℕ) :
    ofDigits b (mulAdd b m digits carry) = (m * ofDigits b digits + carry) % b ^ digits.length := by
  induction digits generalizing carry with
  | nil => simp [mulAdd, Nat.mod_one]
  | cons digit digits ih =>
    rcases Nat.eq_zero_or_pos b with rfl | hb
    · simp [mulAdd, Nat.ofDigits_cons, Nat.add_comm]
    · have hsum : m * ofDigits b (digit :: digits) + carry =
          (carry + m * digit) + b * (m * ofDigits b digits) := by
        rw [Nat.ofDigits_cons]
        ring
      rw [mulAdd, Nat.ofDigits_cons, ih, List.length_cons, Nat.pow_succ', Nat.mod_mul, hsum,
        Nat.add_mul_mod_self_left, Nat.add_mul_div_left _ _ hb,
        Nat.add_comm (m * ofDigits b digits)]

@[simp] theorem length_convert (size : ℕ) (l : List ℕ) : (convert b m size l).length = size := by
  induction l using List.reverseRecOn with
  | nil => exact List.length_replicate
  | append_singleton l d ih =>
    rw [convert, List.foldl_append, List.foldl_cons, List.foldl_nil, length_mulAdd, ← convert, ih]

theorem lt_of_mem_convert (hb : 0 < b) {size d : ℕ} {l : List ℕ} (h : d ∈ convert b m size l) :
    d < b := by
  induction l using List.reverseRecOn with
  | nil =>
    rw [convert, List.foldl_nil] at h
    rw [(List.mem_replicate.1 h).2]
    exact hb
  | append_singleton l digit _ =>
    rw [convert, List.foldl_append] at h
    exact lt_of_mem_mulAdd hb h

theorem ofDigits_convert (size : ℕ) (l : List ℕ) :
    ofDigits b (convert b m size l) = ofDigits m l.reverse % b ^ size := by
  induction l using List.reverseRecOn with
  | nil => simp [convert]
  | append_singleton l d ih =>
    rw [convert, List.foldl_append, List.foldl_cons, List.foldl_nil, ofDigits_mulAdd, ← convert,
      ih, length_convert, List.reverse_append, List.reverse_singleton, List.singleton_append,
      Nat.ofDigits_cons, Nat.add_comm d]
    rw [Nat.add_mod, Nat.mul_mod, Nat.mod_mod, ← Nat.mul_mod, ← Nat.add_mod]

/-! ## Leading zeros -/

theorem ofDigits_rdropWhile (digits : List ℕ) :
    ofDigits b (digits.rdropWhile fun d => d == 0) = ofDigits b digits := by
  induction digits using List.reverseRecOn with
  | nil => rfl
  | append_singleton digits d ih =>
    rw [List.rdropWhile_concat]
    split
    · rename_i hd
      rw [beq_iff_eq] at hd
      rw [ih, hd, Nat.ofDigits_append_zero]
    · rfl

theorem strip_eq (hb : 1 < b) {digits : List ℕ} (hdigits : ∀ d ∈ digits, d < b) :
    strip digits = (Nat.digits b (ofDigits b digits)).reverse := by
  have hstrip : strip digits = (digits.rdropWhile fun d => d == 0).reverse := by
    rw [List.rdropWhile, List.reverse_reverse, strip]
  rw [hstrip, ← ofDigits_rdropWhile digits, Nat.digits_ofDigits b hb]
  · exact fun d hd => hdigits d ((List.rdropWhile_prefix _ digits).subset hd)
  · intro hne hzero
    refine List.rdropWhile_last_not _ _ hne ?_
    rw [hzero]
    rfl

theorem lt_of_mem_strip {digits : List ℕ} (hdigits : ∀ d ∈ digits, d < b) :
    ∀ d ∈ strip digits, d < b :=
  fun d hd => hdigits d (List.mem_reverse.1 ((List.dropWhile_sublist _).subset hd))

theorem strip_head_ne_zero {digits : List ℕ} : (strip digits).head? ≠ some 0 := by
  intro h
  have hnot := List.head?_dropWhile_not (fun d => d == 0) digits.reverse
  rw [← strip, h] at hnot
  simp at hnot

theorem ofDigits_strip_convert (hb : 1 < b) {l : List ℕ} {size : ℕ}
    (hsize : ofDigits m l.reverse < b ^ size) :
    ofDigits b (strip (convert b m size l)).reverse = ofDigits m l.reverse := by
  rw [strip_eq hb fun d hd => lt_of_mem_convert (by omega) hd, List.reverse_reverse,
    Nat.ofDigits_digits, ofDigits_convert, Nat.mod_eq_of_lt hsize]

/-- **There and back.**  A numeral without leading zeros that is converted to another radix,
stripped, and converted again, is itself, when both results have room for the number. -/
theorem strip_convert_convert (hb : 1 < b) (hm : 1 < m) {l : List ℕ} {size size' : ℕ}
    (hl : ∀ d ∈ l, d < m) (hhead : l.head? ≠ some 0) (hsize : ofDigits m l.reverse < b ^ size)
    (hsize' : ofDigits m l.reverse < m ^ size') :
    strip (convert m b size' (strip (convert b m size l))) = l := by
  rw [strip_eq hm fun d hd => lt_of_mem_convert (by omega) hd, ofDigits_convert,
    ofDigits_strip_convert hb hsize, Nat.mod_eq_of_lt hsize', Nat.digits_ofDigits m hm,
    List.reverse_reverse]
  · exact fun d hd => hl d (List.mem_reverse.1 hd)
  · intro hne
    rw [List.getLast_reverse]
    intro hzero
    refine hhead ?_
    rw [List.head?_eq_some_head (fun hnil => hne (by rw [hnil]; rfl)), hzero]

/-! ## Steps that stop early -/

/-- One step, which goes on while there is a carry or a digit that is in use; the result has the
carry that is left over and the number of digits in use. -/
def carryLoop (b m length : ℕ) : ℕ → ℕ → List ℕ → List ℕ × ℕ × ℕ
  | i, carry, [] => ([], carry, i)
  | i, carry, digit :: digits =>
    if carry ≠ 0 ∨ i < length then
      let carry := carry + m * digit
      let (digits, rest, i) := carryLoop b m length (i + 1) (carry / b) digits
      (carry % b :: digits, rest, i)
    else (digit :: digits, carry, i)

theorem mulAdd_zeros {digits : List ℕ} (h : ∀ d ∈ digits, d = 0) :
    mulAdd b m digits 0 = digits := by
  induction digits with
  | nil => rfl
  | cons digit digits ih =>
    rw [List.forall_mem_cons] at h
    rw [mulAdd, h.1, Nat.mul_zero, Nat.zero_mod, Nat.zero_div, ih h.2]

theorem ofDigits_zeros {digits : List ℕ} (h : ∀ d ∈ digits, d = 0) : ofDigits b digits = 0 := by
  induction digits with
  | nil => rfl
  | cons digit digits ih =>
    rw [List.forall_mem_cons] at h
    rw [Nat.ofDigits_cons, h.1, ih h.2, Nat.mul_zero, Nat.add_zero]

/-- **It does what the whole step does**, with a carry that tells what is lost, and what it does not
use is zero. -/
theorem carryLoop_spec {length i carry : ℕ} {digits : List ℕ}
    (hzeros : ∀ d ∈ digits.drop (length - i), d = 0) :
    (carryLoop b m length i carry digits).1 = mulAdd b m digits carry ∧
      ofDigits b (carryLoop b m length i carry digits).1 +
          (carryLoop b m length i carry digits).2.1 * b ^ digits.length =
        m * ofDigits b digits + carry ∧
      i ≤ (carryLoop b m length i carry digits).2.2 ∧
      ∀ d ∈ (carryLoop b m length i carry digits).1.drop
        ((carryLoop b m length i carry digits).2.2 - i), d = 0 := by
  induction digits generalizing i carry with
  | nil => simp [carryLoop, mulAdd]
  | cons digit digits ih =>
    rw [carryLoop]
    split
    · have hrest : ∀ d ∈ digits.drop (length - (i + 1)), d = 0 := by
        intro d hd
        refine hzeros d ?_
        rcases Nat.eq_zero_or_pos (length - i) with hnone | hsome
        · rw [hnone]
          exact List.mem_cons_of_mem _ (List.mem_of_mem_drop hd)
        · have hsucc : length - i = length - (i + 1) + 1 := by omega
          rwa [hsucc, List.drop_succ_cons]
      obtain ⟨hmul, hsum, hle, hunused⟩ := @ih (i + 1) ((carry + m * digit) / b) hrest
      dsimp only
      generalize carryLoop b m length (i + 1) ((carry + m * digit) / b) digits = r
        at hmul hsum hle hunused ⊢
      refine ⟨?_, ?_, Nat.le_of_succ_le hle, ?_⟩
      · rw [mulAdd, hmul]
      · have hdiv := Nat.div_add_mod (carry + m * digit) b
        calc ofDigits b ((carry + m * digit) % b :: r.1) + r.2.1 * b ^ (digit :: digits).length
            = (carry + m * digit) % b + b * (ofDigits b r.1 + r.2.1 * b ^ digits.length) := by
              rw [Nat.ofDigits_cons, List.length_cons, Nat.pow_succ]
              ring
          _ = b * ((carry + m * digit) / b) + (carry + m * digit) % b +
                b * (m * ofDigits b digits) := by
              rw [hsum]
              ring
          _ = m * ofDigits b (digit :: digits) + carry := by
              rw [hdiv, Nat.ofDigits_cons]
              ring
      · have hsucc : r.2.2 - i = r.2.2 - (i + 1) + 1 := by omega
        rw [hsucc, List.drop_succ_cons]
        exact hunused
    · rename_i hstop
      rw [not_or, not_not, not_lt] at hstop
      have hall : ∀ d ∈ digit :: digits, d = 0 := by
        have hnone : length - i = 0 := by omega
        rwa [hnone] at hzeros
      refine ⟨?_, ?_, le_rfl, ?_⟩
      · rw [hstop.1, mulAdd_zeros hall]
      · rw [ofDigits_zeros hall, hstop.1]
        simp
      · rwa [Nat.sub_self]

/-- **Where there is room for the number no carry is left.** -/
theorem carryLoop_convert {size length d : ℕ} {done : List ℕ}
    (hzeros : ∀ d ∈ (convert b m size done).drop length, d = 0)
    (hroom : ofDigits m (done ++ [d]).reverse < b ^ size) :
    ∃ i, carryLoop b m length 0 d (convert b m size done) =
        (convert b m size (done ++ [d]), 0, i) ∧
      ∀ d' ∈ (convert b m size (done ++ [d])).drop i, d' = 0 := by
  obtain ⟨hmul, hsum, -, hunused⟩ := @carryLoop_spec b m length 0 d (convert b m size done) hzeros
  have hstep : mulAdd b m (convert b m size done) d = convert b m size (done ++ [d]) := by
    rw [convert, convert, List.foldl_append, List.foldl_cons, List.foldl_nil]
  rw [hstep] at hmul
  have hvalue : m * ofDigits b (convert b m size done) + d < b ^ size := by
    have hnext : ofDigits m (done ++ [d]).reverse = m * ofDigits m done.reverse + d := by
      rw [List.reverse_append, List.reverse_singleton, List.singleton_append, Nat.ofDigits_cons,
        Nat.add_comm]
    have hle : ofDigits b (convert b m size done) ≤ ofDigits m done.reverse := by
      rw [ofDigits_convert]
      exact Nat.mod_le _ _
    have hmono := Nat.mul_le_mul_left m hle
    omega
  rw [length_convert] at hsum
  generalize carryLoop b m length 0 d (convert b m size done) = r at hmul hsum hunused ⊢
  have hcarry : r.2.1 = 0 := by
    by_contra hne
    have hpos : 1 ≤ r.2.1 := by omega
    have hle := Nat.mul_le_mul_right (b ^ size) hpos
    omega
  refine ⟨r.2.2, Prod.ext hmul (Prod.ext hcarry rfl), ?_⟩
  rwa [← hmul]

end Radix
