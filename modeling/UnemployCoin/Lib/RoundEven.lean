import Mathlib.Algebra.Order.Floor.Ring
import Mathlib.Algebra.Order.Round
import Mathlib.Algebra.Ring.Int.Parity
import Mathlib.Data.Int.Log
import Mathlib.Tactic.Linarith
import Mathlib.Tactic.Ring
/-!
# Rounding to significant bits

A positive number is brought to a number of significant binary digits; **a tie goes to the even
digit**.  The exponent has no limits here.
-/

namespace RoundEven

variable {K : Type*} [Field K] [LinearOrder K] [IsStrictOrderedRing K] [FloorRing K]

def roundHalfEven (x : K) : ℤ :=
  if Int.fract x < 1 / 2 then ⌊x⌋
  else if 1 / 2 < Int.fract x then ⌊x⌋ + 1
  else if Even ⌊x⌋ then ⌊x⌋
  else ⌊x⌋ + 1

theorem abs_roundHalfEven_sub_le (x : K) : |(roundHalfEven x : K) - x| ≤ 1 / 2 := by
  have hx : (⌊x⌋ : K) + Int.fract x = x := Int.floor_add_fract x
  have hnonneg := Int.fract_nonneg x
  have hlt := Int.fract_lt_one x
  rw [roundHalfEven, abs_le]
  split_ifs <;> push_cast <;> constructor <;> linarith

/-- The value of the last of `bits` digits. -/
def lastDigit (bits : ℕ) (x : K) : K := 2 ^ (Int.log 2 x - bits + 1)

def roundSignificand (bits : ℕ) (x : K) : K :=
  roundHalfEven (x / lastDigit bits x) * lastDigit bits x

theorem lastDigit_pos (bits : ℕ) (x : K) : 0 < lastDigit bits x := zpow_pos two_pos _

theorem lastDigit_le {x : K} (hx : 0 < x) (bits : ℕ) : lastDigit bits x ≤ 2 * (x / 2 ^ bits) := by
  have hlog : (2 : K) ^ Int.log 2 x ≤ x := by
    exact_mod_cast Int.zpow_log_le_self one_lt_two hx
  rw [lastDigit, zpow_add₀ two_ne_zero, zpow_sub₀ two_ne_zero, zpow_natCast, zpow_one, mul_comm]
  gcongr

theorem roundSignificand_zero (bits : ℕ) : roundSignificand bits (0 : K) = 0 := by
  simp [roundSignificand, roundHalfEven]

/-- **The relative error** is half a unit in the last place. -/
theorem abs_roundSignificand_sub_le {x : K} (hx : 0 ≤ x) (bits : ℕ) :
    |roundSignificand bits x - x| ≤ x / 2 ^ bits := by
  rcases hx.eq_or_lt with rfl | hx
  · rw [roundSignificand_zero, sub_zero, abs_zero, zero_div]
  · have hu := lastDigit_pos bits x
    calc |roundSignificand bits x - x|
        = |(roundHalfEven (x / lastDigit bits x) : K) - x / lastDigit bits x| *
            lastDigit bits x := by
          rw [← abs_of_pos hu, ← abs_mul, abs_of_pos hu, sub_mul, div_mul_cancel₀ _ hu.ne',
            roundSignificand]
      _ ≤ 1 / 2 * (2 * (x / 2 ^ bits)) := by
          gcongr
          · exact abs_roundHalfEven_sub_le _
          · exact lastDigit_le hx bits
      _ = x / 2 ^ bits := by ring

theorem roundSignificand_le {x : K} (hx : 0 ≤ x) (bits : ℕ) :
    roundSignificand bits x ≤ x * (1 + 1 / 2 ^ bits) := by
  have h := (abs_le.1 (abs_roundSignificand_sub_le hx bits)).2
  rw [mul_add, mul_one, mul_one_div]
  linarith

theorem le_roundSignificand {x : K} (hx : 0 ≤ x) (bits : ℕ) :
    x * (1 - 1 / 2 ^ bits) ≤ roundSignificand bits x := by
  have h := (abs_le.1 (abs_roundSignificand_sub_le hx bits)).1
  rw [mul_sub, mul_one, mul_one_div]
  linarith

theorem roundSignificand_nonneg {x : K} (hx : 0 ≤ x) (bits : ℕ) : 0 ≤ roundSignificand bits x := by
  have hpow : (1 : K) / 2 ^ bits ≤ 1 := (div_le_one (by positivity)).2 (one_le_pow₀ one_le_two)
  exact (mul_nonneg hx (sub_nonneg.2 hpow)).trans (le_roundSignificand hx bits)

end RoundEven
