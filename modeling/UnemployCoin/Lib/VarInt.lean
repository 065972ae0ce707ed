import Mathlib.Data.List.Basic
import Mathlib.Tactic.Common
/-!
# Numbers of variable length

A number in groups of seven bits, the most significant first, each group but the last with the
high bit set; one is subtracted from a group that is continued, so that no number has two
encodings.  A reader refuses what goes beyond a largest number.
-/

namespace VarInt

def byte (more : Bool) (n : ℕ) : UInt8 := UInt8.ofNat (if more then n + 128 else n)

def bytes (more : Bool) (n : ℕ) : List UInt8 :=
  if n < 128 then [byte more n] else bytes true (n / 128 - 1) ++ [byte more (n % 128)]
termination_by n
decreasing_by omega

def encode (n : ℕ) : List UInt8 := bytes false n

def decodeFrom (max : ℕ) : ℕ → List UInt8 → Option (ℕ × List UInt8)
  | _, [] => none
  | n, b :: bs =>
    if max / 128 < n then none
    else if 128 ≤ b.toNat then
      if n * 128 + b.toNat % 128 = max then none
      else decodeFrom max (n * 128 + b.toNat % 128 + 1) bs
    else some (n * 128 + b.toNat % 128, bs)

def decode (max : ℕ) : List UInt8 → Option (ℕ × List UInt8) := decodeFrom max 0

theorem toNat_byte {more : Bool} {n : ℕ} (h : n < 128) :
    (byte more n).toNat = if more then n + 128 else n := by
  rw [byte, UInt8.toNat_ofNat']
  split <;> exact Nat.mod_eq_of_lt (by omega)

theorem decodeFrom_byte_true {max n m : ℕ} (hm : m < 128) (hn : n * 128 + m < max)
    (rest : List UInt8) :
    decodeFrom max n (byte true m :: rest) = decodeFrom max (n * 128 + m + 1) rest := by
  have hbyte : (byte true m).toNat = m + 128 := toNat_byte hm
  have hvalue : n * 128 + (m + 128) % 128 = n * 128 + m := by omega
  have hlow : ¬ max / 128 < n := by omega
  have hmax : ¬ n * 128 + m = max := by omega
  rw [decodeFrom, hbyte, if_neg hlow, if_pos (Nat.le_add_left 128 m), hvalue, if_neg hmax]

theorem decodeFrom_byte_false {max n m : ℕ} (hm : m < 128) (hn : n * 128 + m ≤ max)
    (rest : List UInt8) :
    decodeFrom max n (byte false m :: rest) = some (n * 128 + m, rest) := by
  have hbyte : (byte false m).toNat = m := toNat_byte hm
  have hvalue : n * 128 + m % 128 = n * 128 + m := by rw [Nat.mod_eq_of_lt hm]
  have hlow : ¬ max / 128 < n := by omega
  rw [decodeFrom, hbyte, if_neg hlow, if_neg (Nat.not_le.2 hm), hvalue]

theorem decode_bytes_true {max n : ℕ} (hn : n < max) (rest : List UInt8) :
    decode max (bytes true n ++ rest) = decodeFrom max (n + 1) rest := by
  induction n using Nat.strongRecOn generalizing rest with
  | ind n ih =>
    rw [bytes]
    split
    · rename_i hsmall
      have hstep := decodeFrom_byte_true hsmall (n := 0) (by omega : 0 * 128 + n < max) rest
      rw [Nat.zero_mul, Nat.zero_add] at hstep
      exact hstep
    · rename_i hbig
      have hvalue : (n / 128 - 1 + 1) * 128 + n % 128 = n := by omega
      rw [List.append_assoc, ih (n / 128 - 1) (by omega) (by omega), List.singleton_append,
        decodeFrom_byte_true (Nat.mod_lt n (by decide)) (by omega), hvalue]

/-- **Reading takes exactly what was written.** -/
theorem decode_encode {max n : ℕ} (hn : n ≤ max) (rest : List UInt8) :
    decode max (encode n ++ rest) = some (n, rest) := by
  rw [encode, bytes]
  split
  · rename_i hsmall
    have hstep := decodeFrom_byte_false hsmall (n := 0) (by omega : 0 * 128 + n ≤ max) rest
    rw [Nat.zero_mul, Nat.zero_add] at hstep
    exact hstep
  · rename_i hbig
    have hvalue : (n / 128 - 1 + 1) * 128 + n % 128 = n := by omega
    rw [List.append_assoc, decode_bytes_true (by omega), List.singleton_append,
      decodeFrom_byte_false (Nat.mod_lt n (by decide)) (by omega), hvalue]

end VarInt
