import Mathlib.Algebra.Order.Ring.Int
import Mathlib.Tactic.Common
/-!
# Numbers with trailing zeros

A number code that makes round decimal numbers small.  Up to nine zeros at the end of a number
are counted, and the digit in front of them is not zero, so that it has nine values; the code is
made of the two and of what stands in front of the digit.
-/

namespace DecimalCode

/-- Takes up to `k` zeros off the end: what is left, and how many they were. -/
def strip : ℕ → ℕ → ℕ × ℕ
  | 0, n => (n, 0)
  | k + 1, n =>
    if n % 10 = 0 then ((strip k (n / 10)).1, (strip k (n / 10)).2 + 1) else (n, 0)

/-- The code of a number that is split into `m` and `e` zeros. -/
def pack (m e : ℕ) : ℕ :=
  if e < 9 then 1 + (m / 10 * 9 + m % 10 - 1) * 10 + e else 1 + (m - 1) * 10 + 9

def encode (n : ℕ) : ℕ := if n = 0 then 0 else pack (strip 9 n).1 (strip 9 n).2

/-- What stood in front of `e` zeros, from the code without them. -/
def unpack (e y : ℕ) : ℕ := if e < 9 then y / 9 * 10 + (y % 9 + 1) else y + 1

def decode (x : ℕ) : ℕ :=
  if x = 0 then 0 else unpack ((x - 1) % 10) ((x - 1) / 10) * 10 ^ ((x - 1) % 10)

/-- **What is stripped off.**  Less than all of the zeros are taken only where the next digit is
not zero. -/
theorem strip_spec (k n : ℕ) (hn : n ≠ 0) :
    (strip k n).1 * 10 ^ (strip k n).2 = n ∧ (strip k n).1 ≠ 0 ∧ (strip k n).2 ≤ k ∧
      ((strip k n).2 < k → (strip k n).1 % 10 ≠ 0) := by
  induction k generalizing n with
  | zero => exact ⟨Nat.mul_one n, hn, Nat.le_refl 0, fun h => absurd h (Nat.lt_irrefl 0)⟩
  | succ k ih =>
    rw [strip]
    by_cases hzero : n % 10 = 0
    · obtain ⟨hvalue, hpos, hle, hdigit⟩ := ih (n / 10) (by omega)
      rw [if_pos hzero]
      refine ⟨?_, hpos, Nat.succ_le_succ hle, fun h => hdigit (Nat.lt_of_succ_lt_succ h)⟩
      rw [Nat.pow_succ, ← Nat.mul_assoc, hvalue]
      omega
    · rw [if_neg hzero]
      exact ⟨Nat.mul_one n, hn, Nat.zero_le _, fun _ => hzero⟩

theorem unpack_pack {m e : ℕ} (hm : m ≠ 0) (he : e ≤ 9) (hdigit : e < 9 → m % 10 ≠ 0) :
    pack m e ≠ 0 ∧ (pack m e - 1) % 10 = e ∧ unpack e ((pack m e - 1) / 10) = m := by
  rw [pack, unpack]
  by_cases h : e < 9
  · have := hdigit h
    simp only [if_pos h]
    omega
  · simp only [if_neg h]
    omega

/-- **The code can be undone.** -/
theorem decode_encode (n : ℕ) : decode (encode n) = n := by
  rw [encode]
  split
  · rename_i hn
    rw [decode, if_pos rfl, hn]
  · rename_i hn
    obtain ⟨hvalue, hm, he, hdigit⟩ := strip_spec 9 n hn
    obtain ⟨hpos, hzeros, hfront⟩ := unpack_pack hm he hdigit
    rw [decode, if_neg hpos, hzeros, hfront, hvalue]

theorem pack_le {m e : ℕ} (hm : m ≠ 0) (he : e ≤ 9) (hdigit : e < 9 → m % 10 ≠ 0) :
    pack m e ≤ 10 * m + e := by
  rw [pack]
  by_cases h : e < 9
  · have := hdigit h
    rw [if_pos h]
    omega
  · rw [if_neg h]
    omega

/-- **A code is not much longer than the number.** -/
theorem encode_le (n : ℕ) : encode n ≤ 11 * n := by
  rw [encode]
  split
  · omega
  · rename_i hn
    obtain ⟨hvalue, hm, he, hdigit⟩ := strip_spec 9 n hn
    have hpack := pack_le hm he hdigit
    have hpow : (strip 9 n).2 < 10 ^ (strip 9 n).2 := Nat.lt_pow_self (by decide)
    have hleft : (strip 9 n).1 ≤ n := by
      calc (strip 9 n).1 = (strip 9 n).1 * 1 := (Nat.mul_one _).symm
        _ ≤ (strip 9 n).1 * 10 ^ (strip 9 n).2 := Nat.mul_le_mul_left _ (by omega)
        _ = n := hvalue
    have hzeros : (strip 9 n).2 ≤ n := by
      calc (strip 9 n).2 ≤ 1 * 10 ^ (strip 9 n).2 := by omega
        _ ≤ (strip 9 n).1 * 10 ^ (strip 9 n).2 := Nat.mul_le_mul_right _ (by omega)
        _ = n := hvalue
    omega

end DecimalCode
