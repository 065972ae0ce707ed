import Mathlib.Data.Nat.Bitwise
import Mathlib.Tactic.Common
/-!
# Bits of byte strings

The bits of a byte string, the most significant bit of each byte first, and the numbers that are
read from and written to them in groups of any size.
-/

namespace BitGroups

/-- Bit `k` of a byte string. -/
def bitAt (bytes : List UInt8) (k : ℕ) : Bool :=
  (bytes.getD (k / 8) 0).toNat.testBit (7 - k % 8)

/-- `bytes[k / 8] |= 1 << (7 - k % 8)`. -/
def orBit (bytes : List UInt8) (k : ℕ) : List UInt8 :=
  bytes.modify (k / 8) fun b => b ||| UInt8.ofNat (2 ^ (7 - k % 8))

/-- The number that `k` bits are, most significant first. -/
def readNumber (bit : ℕ → Bool) (k : ℕ) : ℕ :=
  (List.range k).foldl (fun n j => 2 * n + (bit j).toNat) 0

/-! ## Numbers -/

variable {bit bit' : ℕ → Bool} {k n : ℕ}

theorem readNumber_succ (bit : ℕ → Bool) (k : ℕ) :
    readNumber bit (k + 1) = 2 * readNumber bit k + (bit k).toNat := by
  rw [readNumber, List.range_succ, List.foldl_append, List.foldl_cons, List.foldl_nil, readNumber]

theorem readNumber_lt (bit : ℕ → Bool) (k : ℕ) : readNumber bit k < 2 ^ k := by
  induction k with
  | zero => exact Nat.zero_lt_one
  | succ k ih =>
    have hbit := (bit k).toNat_le
    rw [readNumber_succ, Nat.pow_succ]
    omega

theorem readNumber_congr (h : ∀ j < k, bit j = bit' j) : readNumber bit k = readNumber bit' k := by
  induction k with
  | zero => rfl
  | succ k ih =>
    rw [readNumber_succ, readNumber_succ, ih fun j hj => h j (Nat.lt_succ_of_lt hj),
      h k (Nat.lt_succ_self k)]

theorem testBit_readNumber {j : ℕ} (hj : j < k) :
    (readNumber bit k).testBit (k - 1 - j) = bit j := by
  induction k with
  | zero => exact absurd hj (Nat.not_lt_zero j)
  | succ k ih =>
    rw [readNumber_succ]
    rcases Nat.lt_or_ge j k with hlt | hge
    · have hsucc : k + 1 - 1 - j = k - 1 - j + 1 := by omega
      have hdiv : (2 * readNumber bit k + (bit k).toNat) / 2 = readNumber bit k := by
        have hbit := (bit k).toNat_le
        omega
      rw [hsucc, Nat.testBit_succ, hdiv, ih hlt]
    · obtain rfl : j = k := by omega
      have hzero : j + 1 - 1 - j = 0 := by omega
      rw [hzero, Nat.testBit_zero]
      cases bit j with
      | false => simp
      | true => simp [Nat.add_mod]

theorem readNumber_testBit (h : n < 2 ^ k) : readNumber (fun j => n.testBit (k - 1 - j)) k = n := by
  induction k generalizing n with
  | zero =>
    rw [Nat.pow_zero, Nat.lt_one_iff] at h
    rw [h]
    rfl
  | succ k ih =>
    have hhalf : ∀ j < k, n.testBit (k + 1 - 1 - j) = (n / 2).testBit (k - 1 - j) := by
      intro j hj
      have hsucc : k + 1 - 1 - j = k - 1 - j + 1 := by omega
      rw [hsucc, Nat.testBit_succ]
    have hlast : k + 1 - 1 - k = 0 := by omega
    rw [Nat.pow_succ] at h
    rw [readNumber_succ, readNumber_congr hhalf, ih (by omega), hlast, Nat.testBit_zero]
    rcases Nat.mod_two_eq_zero_or_one n with hmod | hmod
    · rw [hmod]
      simp only [Nat.zero_ne_one, decide_false, Bool.toNat_false]
      omega
    · rw [hmod]
      simp only [decide_true, Bool.toNat_true]
      omega

/-! ## Bytes -/

variable {a b : List UInt8} {x y : UInt8}

theorem eq_of_testBit (h : ∀ j < 8, x.toNat.testBit (7 - j) = y.toNat.testBit (7 - j)) : x = y := by
  rw [← UInt8.toNat_inj]
  refine Nat.eq_of_testBit_eq fun i => ?_
  rcases Nat.lt_or_ge i 8 with hlt | hge
  · have hi := h (7 - i) (by omega)
    have hback : 7 - (7 - i) = i := by omega
    rwa [hback] at hi
  · have hpow : 2 ^ 8 ≤ 2 ^ i := Nat.pow_le_pow_right (by omega) hge
    rw [Nat.testBit_lt_two_pow (x.toNat_lt.trans_le hpow),
      Nat.testBit_lt_two_pow (y.toNat_lt.trans_le hpow)]

theorem and_mask_eq_iff {mask : UInt8} {q : ℕ}
    (hmask : ∀ j < 8, mask.toNat.testBit (7 - j) = decide (j < q)) :
    x &&& mask = y &&& mask ↔
      ∀ j < q, j < 8 → x.toNat.testBit (7 - j) = y.toNat.testBit (7 - j) := by
  constructor
  · intro h j hj hlt
    have hbit := congrArg (fun b : UInt8 => b.toNat.testBit (7 - j)) h
    simp only [UInt8.toNat_and, Nat.testBit_and, hmask j hlt, decide_eq_true hj, Bool.and_true]
      at hbit
    exact hbit
  · intro h
    refine eq_of_testBit fun j hj => ?_
    rw [UInt8.toNat_and, UInt8.toNat_and, Nat.testBit_and, Nat.testBit_and, hmask j hj]
    by_cases hq : j < q
    · rw [h j hq hj]
    · rw [decide_eq_false hq, Bool.and_false, Bool.and_false]

theorem testBit_or_pow {p i : ℕ} (hp : p < 8) :
    (x ||| UInt8.ofNat (2 ^ p)).toNat.testBit i = (x.toNat.testBit i || decide (p = i)) := by
  have hpow : 2 ^ p < 2 ^ 8 := Nat.pow_lt_pow_right (by omega) hp
  rw [UInt8.toNat_or, UInt8.toNat_ofNat', Nat.mod_eq_of_lt hpow, Nat.testBit_or,
    Nat.testBit_two_pow]

@[simp] theorem length_orBit (bytes : List UInt8) (k : ℕ) :
    (orBit bytes k).length = bytes.length := by
  rw [orBit, List.length_modify]

theorem bitAt_orBit {bytes : List UInt8} {j k : ℕ} (hk : k / 8 < bytes.length) :
    bitAt (orBit bytes k) j = (bitAt bytes j || decide (j = k)) := by
  rw [bitAt, orBit, List.getD_eq_getElem?_getD, List.getElem?_modify, bitAt,
    List.getD_eq_getElem?_getD]
  by_cases hsame : k / 8 = j / 8
  · have hiff : 7 - k % 8 = 7 - j % 8 ↔ j = k := by omega
    simp only [if_pos hsame]
    rw [← hsame, List.getElem?_eq_getElem hk, Option.map_eq_map, Option.map_some,
      Option.getD_some, Option.getD_some, testBit_or_pow (by omega), decide_eq_decide.2 hiff]
  · have hne : ¬ j = k := by
      rintro rfl
      exact hsame rfl
    simp only [if_neg hsame]
    rw [decide_eq_false hne, Bool.or_false, Option.map_eq_map, Option.map_id']

theorem bitAt_take {n : ℕ} (hk : k < 8 * n) : bitAt (a.take n) k = bitAt a k := by
  rw [bitAt, bitAt, List.getD_eq_getElem?_getD, List.getElem?_take_of_lt (by omega),
    ← List.getD_eq_getElem?_getD]

theorem bitAt_append_left (hk : k < 8 * a.length) : bitAt (a ++ b) k = bitAt a k := by
  rw [bitAt, bitAt, List.getD_eq_getElem?_getD, List.getElem?_append_left (by omega),
    ← List.getD_eq_getElem?_getD]

theorem bitAt_append_singleton {j : ℕ} (hj : j < 8) :
    bitAt (a ++ [x]) (8 * a.length + j) = x.toNat.testBit (7 - j) := by
  have hdiv : (8 * a.length + j) / 8 = a.length := by omega
  have hmod : (8 * a.length + j) % 8 = j := by omega
  rw [bitAt, hdiv, hmod, List.getD_eq_getElem?_getD, List.getElem?_append_right le_rfl,
    Nat.sub_self]
  rfl

/-- **The bits determine the bytes.** -/
theorem eq_of_bitAt (hlength : a.length = b.length)
    (h : ∀ k < 8 * a.length, bitAt a k = bitAt b k) : a = b := by
  refine List.ext_getElem hlength fun i hi hi' => eq_of_testBit fun j hj => ?_
  have hbit := h (8 * i + j) (by omega)
  have hdiv : (8 * i + j) / 8 = i := by omega
  have hmod : (8 * i + j) % 8 = j := by omega
  rwa [bitAt, bitAt, hdiv, hmod, List.getD_eq_getElem?_getD, List.getD_eq_getElem?_getD,
    List.getElem?_eq_getElem hi, List.getElem?_eq_getElem hi', Option.getD_some,
    Option.getD_some] at hbit

end BitGroups
