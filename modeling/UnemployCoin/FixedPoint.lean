import UnemployCoin.AssetTypes
import UnemployCoin.Snapshots
import UnemployCoin.Lib.Check
import Mathlib.Algebra.Order.Field.Power
import Mathlib.Data.Rat.Defs
import Mathlib.Tactic.Ring
/-!
# Fixed-point numbers

`ParseFixedPoint` (`utilstrencodings.cpp`) reads a decimal number, with an exponent, as an integer
of so many decimals.  Zeros at the end of the digits are only counted, and the mantissa is
multiplied when a digit follows them.  Every operation on 64 bits is checked here for a signed
overflow, which C++ leaves undefined.
-/

namespace UnemployCoin

open Check

/-! ## The source -/

/-- How a computation ends without a result. -/
inductive Stop where
  | returnFalse
  | signedOverflow
  deriving DecidableEq, Repr

/-- The result of an operation on `int64_t`. -/
def signed64 (n : ℤ) : Except Stop ℤ :=
  if -2 ^ 63 ≤ n ∧ n < 2 ^ 63 then .ok n else .error .signedOverflow

def UPPER_BOUND : ℤ := 1000000000000000000 - 1

/-- `mantissa *= 10`, some times, each after a check. -/
def timesTen (overflow : ℤ → Bool) : ℕ → ℤ → Except Stop ℤ
  | 0, mantissa => .ok mantissa
  | n + 1, mantissa =>
    if overflow mantissa then .error .returnFalse
    else do
      let mantissa ← signed64 (mantissa * 10)
      timesTen overflow n mantissa

/-- `ch - '0'`. -/
def digitOf (ch : UInt8) : ℤ := ch.toNat - 48

def processMantissaDigit (ch : UInt8) (mantissa : ℤ) (mantissa_tzeros : ℕ) :
    Except Stop (ℤ × ℕ) :=
  if ch = 48 then .ok (mantissa, mantissa_tzeros + 1)
  else do
    let mantissa ← timesTen (fun mantissa => decide (mantissa > UPPER_BOUND / 10))
      (mantissa_tzeros + 1) mantissa
    let mantissa ← signed64 (mantissa + digitOf ch)
    return (mantissa, 0)

/-- The loop over the digits of the mantissa: it, the zeros at its end, the number of digits and
what is left to read. -/
def mantissaDigits : Bytes → ℤ → ℕ → ℕ → Except Stop (ℤ × ℕ × ℕ × Bytes)
  | [], mantissa, mantissa_tzeros, n => .ok (mantissa, mantissa_tzeros, n, [])
  | c :: val, mantissa, mantissa_tzeros, n =>
    if isDigit c then do
      let (mantissa, mantissa_tzeros) ← processMantissaDigit c mantissa mantissa_tzeros
      mantissaDigits val mantissa mantissa_tzeros (n + 1)
    else .ok (mantissa, mantissa_tzeros, n, c :: val)

def exponentDigits : Bytes → ℤ → Except Stop (ℤ × Bytes)
  | [], exponent => .ok (exponent, [])
  | c :: val, exponent =>
    if isDigit c then
      if exponent > UPPER_BOUND / 10 then .error .returnFalse
      else do
        let exponent ← signed64 (exponent * 10)
        let exponent ← signed64 (exponent + c.toNat)
        let exponent ← signed64 (exponent - 48)
        exponentDigits val exponent
    else .ok (exponent, c :: val)

def readSign : Bytes → Bool × Bytes
  | [] => (false, [])
  | c :: val => if c = 45 then (true, val) else (false, c :: val)

def readExponentSign : Bytes → Bool × Bytes
  | [] => (false, [])
  | c :: val => if c = 43 then (false, val) else readSign (c :: val)

/-- The digits before the point: a single zero, or digits without leading zeros. -/
def parseWhole : Bytes → Except Stop (ℤ × ℕ × Bytes)
  | [] => .error .returnFalse
  | c :: val =>
    if c = 48 then .ok (0, 0, val)
    else if isDigit c then do
      let (mantissa, mantissa_tzeros, _, val) ← mantissaDigits (c :: val) 0 0 0
      return (mantissa, mantissa_tzeros, val)
    else .error .returnFalse

def parseFraction (mantissa : ℤ) (mantissa_tzeros : ℕ) :
    Bytes → Except Stop (ℤ × ℕ × ℕ × Bytes)
  | [] => .ok (mantissa, mantissa_tzeros, 0, [])
  | c :: val =>
    if c = 46 then
      if isDigit (val.headD 0) then mantissaDigits val mantissa mantissa_tzeros 0
      else .error .returnFalse
    else .ok (mantissa, mantissa_tzeros, 0, c :: val)

def parseExponent : Bytes → Except Stop (ℤ × Bool × Bytes)
  | [] => .ok (0, false, [])
  | c :: val =>
    if c = 101 ∨ c = 69 then
      let (exponent_sign, val) := readExponentSign val
      if isDigit (val.headD 0) then do
        let (exponent, val) ← exponentDigits val 0
        return (exponent, exponent_sign, val)
      else .error .returnFalse
    else .ok (0, false, c :: val)

def negateIf (sign : Bool) (n : ℤ) : Except Stop ℤ := if sign then signed64 (-n) else .ok n

/-- What `ParseFixedPoint` makes of the mantissa and the exponent. -/
def finalize (mantissa exponent : ℤ) (mantissa_sign exponent_sign : Bool)
    (point_ofs mantissa_tzeros : ℕ) (decimals : Int32) : Except Stop CAmount := do
  let exponent ← negateIf exponent_sign exponent
  let exponent ← signed64 (exponent - point_ofs)
  let exponent ← signed64 (exponent + mantissa_tzeros)
  let mantissa ← negateIf mantissa_sign mantissa
  let exponent ← signed64 (exponent + decimals.toInt)
  if exponent < 0 then .error .returnFalse
  else if exponent ≥ 18 then .error .returnFalse
  else do
    let mantissa ← timesTen (fun mantissa => decide (mantissa > 420000000000000000) ||
      decide (mantissa < -(UPPER_BOUND / 10))) exponent.toNat mantissa
    if mantissa > 4200000000000000000 || mantissa < -UPPER_BOUND then .error .returnFalse
    else .ok (Int64.ofInt mantissa)

/-- The characters before `end`, the size of the string as an `int`. -/
def beforeEnd (val : Bytes) : Bytes := val.take (Int32.ofNat val.length).toInt.toNat

def parseFixedPoint (val : Bytes) (decimals : Int32) : Except Stop CAmount := do
  let (mantissa_sign, val) := readSign (beforeEnd val)
  let (mantissa, mantissa_tzeros, val) ← parseWhole val
  let (mantissa, mantissa_tzeros, point_ofs, val) ← parseFraction mantissa mantissa_tzeros val
  let (exponent, exponent_sign, val) ← parseExponent val
  if val ≠ [] then .error .returnFalse
  else finalize mantissa exponent mantissa_sign exponent_sign point_ofs mantissa_tzeros decimals

/-! ## The number that a string is -/

structure Numeral where
  negative : Bool
  /-- The digits before and behind the point, but for a single zero before it. -/
  digits : Bytes
  /-- How many of them are behind the point. -/
  places : ℕ
  exponent : ℤ
  deriving DecidableEq

def Numeral.value (x : Numeral) : ℚ :=
  (if x.negative then -1 else 1) * ofDecimal x.digits * 10 ^ (x.exponent - x.places)

def readDigits (val : Bytes) : Option (Bytes × Bytes) :=
  if val.takeWhile isDigit = [] then none
  else some (val.takeWhile isDigit, val.dropWhile isDigit)

def readWhole : Bytes → Option (Bytes × Bytes)
  | [] => none
  | c :: val => if c = 48 then some ([], val) else readDigits (c :: val)

def readFraction : Bytes → Option (Bytes × Bytes)
  | [] => some ([], [])
  | c :: val => if c = 46 then readDigits val else some ([], c :: val)

def readExponent : Bytes → Option (ℤ × Bytes)
  | [] => some (0, [])
  | c :: val =>
    if c = 101 ∨ c = 69 then do
      let (negative, val) := readExponentSign val
      let (digits, val) ← readDigits val
      return (if negative then -(ofDecimal digits : ℤ) else ofDecimal digits, val)
    else some (0, c :: val)

def readNumeral (val : Bytes) : Option Numeral := do
  let (negative, val) := readSign val
  let (whole, val) ← readWhole val
  let (fraction, val) ← readFraction val
  let (exponent, val) ← readExponent val
  if val = [] then return ⟨negative, whole ++ fraction, fraction.length, exponent⟩ else none

def accumulate (s : ℕ × ℕ) (c : UInt8) : ℕ × ℕ :=
  if c = 48 then (s.1, s.2 + 1) else (s.1 * 10 ^ (s.2 + 1) + (c.toNat - 48), 0)

/-- The number that digits are without the zeros at their end, and how many these are. -/
def significand (digits : Bytes) : ℕ × ℕ := digits.foldl accumulate (0, 0)

/-- How many zeros stand behind the significand, where there are `decimals` decimals. -/
def Numeral.scale (x : Numeral) (decimals : ℤ) : ℤ :=
  x.exponent - x.places + (significand x.digits).2 + decimals

def Numeral.scaled (x : Numeral) (decimals : ℤ) : ℤ :=
  (if x.negative then -1 else 1) * (significand x.digits).1 * 10 ^ (x.scale decimals).toNat

structure Numeral.Fits (x : Numeral) (decimals : ℤ) : Prop where
  significand : (significand x.digits).1 < 10 ^ 18
  exponent : x.exponent.natAbs < 10 ^ 18
  scale_nonneg : 0 ≤ x.scale decimals
  scale_lt : x.scale decimals < 18
  lower : -10 ^ 18 < x.scaled decimals
  upper : x.scaled decimals ≤ 42 * 10 ^ 17

instance (x : Numeral) (decimals : ℤ) : Decidable (x.Fits decimals) :=
  decidable_of_iff (((significand x.digits).1 < 10 ^ 18 ∧ x.exponent.natAbs < 10 ^ 18) ∧
      (0 ≤ x.scale decimals ∧ x.scale decimals < 18) ∧
        -10 ^ 18 < x.scaled decimals ∧ x.scaled decimals ≤ 42 * 10 ^ 17)
    ⟨fun h => ⟨h.1.1, h.1.2, h.2.1.1, h.2.1.2, h.2.2.1, h.2.2.2⟩,
      fun h => ⟨⟨h.1, h.2⟩, ⟨h.3, h.4⟩, h.5, h.6⟩⟩

/-- A number as an integer of so many decimals, where it fits. -/
def Numeral.toFixedPoint (x : Numeral) (decimals : ℤ) : Except Stop CAmount :=
  if x.Fits decimals then .ok (Int64.ofInt (x.scaled decimals)) else .error .returnFalse

/-! ## Digits -/

theorem signed64_ok {n : ℤ} (hlow : -2 ^ 63 ≤ n) (hhigh : n < 2 ^ 63) : signed64 n = .ok n :=
  if_pos ⟨hlow, hhigh⟩

theorem ok_bind {α β : Type} (a : α) (f : α → Except Stop β) : (Except.ok a >>= f) = f a := rfl

theorem toNat_of_isDigit {c : UInt8} (h : isDigit c = true) : 48 ≤ c.toNat ∧ c.toNat ≤ 57 := by
  rw [isDigit, Bool.and_eq_true, decide_eq_true_eq, decide_eq_true_eq, UInt8.le_iff_toNat_le,
    UInt8.le_iff_toNat_le] at h
  exact h

theorem ofDecimal_append (s t : Bytes) :
    ofDecimal (s ++ t) = ofDecimal s * 10 ^ t.length + ofDecimal t := by
  rw [ofDecimal, ofDecimal, ofDecimal, List.reverse_append, List.map_append, Nat.ofDigits_append,
    List.length_map, List.length_reverse]
  ring

theorem ofDecimal_singleton (c : UInt8) : ofDecimal [c] = c.toNat - 48 := by
  rw [ofDecimal, List.reverse_singleton, List.map_singleton, Nat.ofDigits_singleton]

theorem ofDecimal_concat (s : Bytes) (c : UInt8) :
    ofDecimal (s ++ [c]) = ofDecimal s * 10 + (c.toNat - 48) := by
  rw [ofDecimal_append, ofDecimal_singleton, List.length_singleton, Nat.pow_one]

theorem ofDecimal_le_append (s t : Bytes) : ofDecimal s ≤ ofDecimal (s ++ t) := by
  rw [ofDecimal_append]
  have hpow := Nat.le_mul_of_pos_right (ofDecimal s)
    (Nat.pow_pos (n := t.length) (by omega : 0 < 10))
  omega

@[simp] theorem significand_nil : significand [] = (0, 0) := rfl

theorem significand_concat (s : Bytes) (c : UInt8) :
    significand (s ++ [c]) = accumulate (significand s) c := by
  rw [significand, significand, List.foldl_append, List.foldl_cons, List.foldl_nil]

theorem significand_value (s : Bytes) :
    (significand s).1 * 10 ^ (significand s).2 = ofDecimal s := by
  induction s using List.reverseRecOn with
  | nil => rfl
  | append_singleton s c ih =>
    rw [significand_concat, ofDecimal_concat, ← ih, accumulate]
    split
    · rename_i hzero
      rw [hzero, Nat.pow_succ, ← Nat.mul_assoc]
      rfl
    · rw [Nat.pow_zero, Nat.mul_one, Nat.pow_succ, ← Nat.mul_assoc]

theorem significand_zeros_le (s : Bytes) : (significand s).2 ≤ s.length := by
  induction s using List.reverseRecOn with
  | nil => exact le_rfl
  | append_singleton s c ih =>
    rw [significand_concat, accumulate, List.length_append, List.length_singleton]
    split
    · exact Nat.succ_le_succ ih
    · exact Nat.zero_le _

theorem significand_le_append (s t : Bytes) : (significand s).1 ≤ (significand (s ++ t)).1 := by
  induction t using List.reverseRecOn with
  | nil => rw [List.append_nil]
  | append_singleton t c ih =>
    rw [← List.append_assoc, significand_concat, accumulate]
    split
    · exact ih
    · have hpow := Nat.le_mul_of_pos_right (significand (s ++ t)).1
        (Nat.pow_pos (n := (significand (s ++ t)).2 + 1) (by omega : 0 < 10))
      dsimp only
      omega

theorem timesTen_mantissa {n m : ℕ} (hm : m < 10 ^ 18) :
    timesTen (fun mantissa => decide (mantissa > UPPER_BOUND / 10)) n m =
      if m * 10 ^ n < 10 ^ 18 then .ok ((m * 10 ^ n : ℕ) : ℤ) else .error .returnFalse := by
  induction n generalizing m with
  | zero => rw [timesTen, Nat.pow_zero, Nat.mul_one, if_pos hm]
  | succ n ih =>
    have hten : m * 10 ^ (n + 1) = m * 10 * 10 ^ n := by rw [Nat.pow_succ']; ring
    have hbound : UPPER_BOUND / 10 = 99999999999999999 := by decide
    rw [timesTen, hten]
    by_cases hlarge : (m : ℤ) > UPPER_BOUND / 10
    · have hpow := Nat.le_mul_of_pos_right (m * 10) (Nat.pow_pos (n := n) (by omega : 0 < 10))
      rw [if_pos (decide_eq_true hlarge), if_neg]
      rw [hbound] at hlarge
      omega
    · rw [if_neg (by rwa [decide_eq_true_eq])]
      rw [hbound] at hlarge
      have hcast : (m : ℤ) * 10 = ((m * 10 : ℕ) : ℤ) := by push_cast; ring
      rw [signed64_ok (by omega) (by omega), hcast]
      exact ih (by omega)

theorem processMantissaDigit_eq {c : UInt8} {m z : ℕ} (hc : isDigit c = true) (hm : m < 10 ^ 18) :
    processMantissaDigit c m z =
      if (accumulate (m, z) c).1 < 10 ^ 18 then
        .ok (((accumulate (m, z) c).1 : ℤ), (accumulate (m, z) c).2)
      else .error .returnFalse := by
  obtain ⟨hlow, hhigh⟩ := toNat_of_isDigit hc
  rw [processMantissaDigit, accumulate]
  by_cases hzero : c = 48
  · rw [if_pos hzero, if_pos hzero, if_pos hm]
  · have hten : m * 10 ^ (z + 1) = m * 10 ^ z * 10 := by rw [Nat.pow_succ]; ring
    rw [if_neg hzero, if_neg hzero, timesTen_mantissa hm]
    by_cases hroom : m * 10 ^ (z + 1) < 10 ^ 18
    · have hdigit : ((m * 10 ^ (z + 1) : ℕ) : ℤ) + digitOf c =
          ((m * 10 ^ (z + 1) + (c.toNat - 48) : ℕ) : ℤ) := by
        rw [digitOf]
        omega
      have hfits : m * 10 ^ (z + 1) + (c.toNat - 48) < 10 ^ 18 := by omega
      rw [if_pos hroom, if_pos hfits, ok_bind, hdigit, signed64_ok (by omega) (by omega), ok_bind]
      rfl
    · have hlarge : ¬ m * 10 ^ (z + 1) + (c.toNat - 48) < 10 ^ 18 := by omega
      rw [if_neg hroom, if_neg hlarge]
      rfl

/-- **The digits of the mantissa**, behind those read so far. -/
theorem mantissaDigits_eq {val done : Bytes} {n : ℕ} (hdone : (significand done).1 < 10 ^ 18) :
    mantissaDigits val (significand done).1 (significand done).2 n =
      if (significand (done ++ val.takeWhile isDigit)).1 < 10 ^ 18 then
        .ok (((significand (done ++ val.takeWhile isDigit)).1 : ℤ),
          (significand (done ++ val.takeWhile isDigit)).2, n + (val.takeWhile isDigit).length,
          val.dropWhile isDigit)
      else .error .returnFalse := by
  induction val generalizing done n with
  | nil => rw [mantissaDigits, List.takeWhile_nil, List.append_nil, if_pos hdone]; rfl
  | cons c val ih =>
    rw [mantissaDigits]
    by_cases hc : isDigit c = true
    · have happend : done ++ (c :: val).takeWhile isDigit =
          (done ++ [c]) ++ val.takeWhile isDigit := by
        rw [List.takeWhile_cons_of_pos hc, List.append_assoc, List.singleton_append]
      rw [if_pos hc, processMantissaDigit_eq hc hdone, happend, List.takeWhile_cons_of_pos hc,
        List.dropWhile_cons_of_pos hc, List.length_cons, ← significand_concat]
      by_cases hnext : (significand (done ++ [c])).1 < 10 ^ 18
      · rw [if_pos hnext]
        have hrest := @ih (done ++ [c]) (n + 1) hnext
        rw [Nat.add_assoc, Nat.add_comm 1] at hrest
        exact hrest
      · have hmono := significand_le_append (done ++ [c]) (val.takeWhile isDigit)
        rw [if_neg hnext, if_neg (by omega)]
        rfl
    · rw [if_neg hc, List.takeWhile_cons_of_neg hc, List.append_nil, if_pos hdone,
        List.dropWhile_cons_of_neg hc]
      rfl

/-- **The digits of the exponent**, behind those read so far. -/
theorem exponentDigits_eq {val done : Bytes} (hdone : ofDecimal done < 10 ^ 18) :
    exponentDigits val (ofDecimal done) =
      if ofDecimal (done ++ val.takeWhile isDigit) < 10 ^ 18 then
        .ok ((ofDecimal (done ++ val.takeWhile isDigit) : ℤ), val.dropWhile isDigit)
      else .error .returnFalse := by
  induction val generalizing done with
  | nil => rw [exponentDigits, List.takeWhile_nil, List.append_nil, if_pos hdone]; rfl
  | cons c val ih =>
    rw [exponentDigits]
    by_cases hc : isDigit c = true
    · obtain ⟨hlow, hhigh⟩ := toNat_of_isDigit hc
      have happend : done ++ (c :: val).takeWhile isDigit =
          (done ++ [c]) ++ val.takeWhile isDigit := by
        rw [List.takeWhile_cons_of_pos hc, List.append_assoc, List.singleton_append]
      have hnext := ofDecimal_concat done c
      have hbound : UPPER_BOUND / 10 = 99999999999999999 := by decide
      rw [if_pos hc, happend, List.dropWhile_cons_of_pos hc]
      by_cases hlarge : (ofDecimal done : ℤ) > UPPER_BOUND / 10
      · have hmono := ofDecimal_le_append (done ++ [c]) (val.takeWhile isDigit)
        rw [if_pos hlarge, if_neg]
        rw [hbound] at hlarge
        omega
      · rw [if_neg hlarge]
        rw [hbound] at hlarge
        have hrest := @ih (done ++ [c]) (by omega)
        have hvalue : (ofDecimal done : ℤ) * 10 + c.toNat - 48 = ofDecimal (done ++ [c]) := by
          omega
        rw [signed64_ok (by omega) (by omega), ok_bind, signed64_ok (by omega) (by omega), ok_bind,
          signed64_ok (by omega) (by omega), ok_bind, hvalue]
        exact hrest
    · rw [if_neg hc, List.takeWhile_cons_of_neg hc, List.append_nil, if_pos hdone,
        List.dropWhile_cons_of_neg hc]

theorem takeWhile_isDigit_eq_nil {val : Bytes} :
    val.takeWhile isDigit = [] ↔ isDigit (val.headD 0) = false := by
  cases val with
  | nil => decide
  | cons c val =>
    rw [List.headD_cons]
    cases hc : isDigit c with
    | true => rw [List.takeWhile_cons_of_pos hc]; simp
    | false => rw [List.takeWhile_cons_of_neg (by rw [hc]; exact Bool.false_ne_true)]; simp

theorem parseWhole_eq (val : Bytes) :
    parseWhole val =
      match readWhole val with
      | none => .error .returnFalse
      | some (whole, rest) =>
        if (significand whole).1 < 10 ^ 18 then
          .ok (((significand whole).1 : ℤ), (significand whole).2, rest)
        else .error .returnFalse := by
  cases val with
  | nil => rfl
  | cons c val =>
    rw [parseWhole, readWhole]
    by_cases hzero : c = 48
    · rw [if_pos hzero, if_pos hzero]
      rfl
    · rw [if_neg hzero, if_neg hzero, readDigits]
      by_cases hc : isDigit c = true
      · have hne : ¬ (c :: val).takeWhile isDigit = [] := by
          rw [List.takeWhile_cons_of_pos hc]
          exact List.cons_ne_nil _ _
        have hdigits := @mantissaDigits_eq (c :: val) [] 0 (by decide)
        rw [List.nil_append] at hdigits
        have hstart : mantissaDigits (c :: val) 0 0 0 =
            mantissaDigits (c :: val) (significand []).1 (significand []).2 0 := rfl
        rw [if_pos hc, if_neg hne, hstart, hdigits]
        by_cases hfits : (significand ((c :: val).takeWhile isDigit)).1 < 10 ^ 18
        · simp only [if_pos hfits, ok_bind]
          rfl
        · simp only [if_neg hfits]
          rfl
      · have hnil : (c :: val).takeWhile isDigit = [] := List.takeWhile_cons_of_neg hc
        rw [if_neg hc, if_pos hnil]

theorem parseFraction_eq {whole : Bytes} (val : Bytes)
    (hwhole : (significand whole).1 < 10 ^ 18) :
    parseFraction (significand whole).1 (significand whole).2 val =
      match readFraction val with
      | none => .error .returnFalse
      | some (fraction, rest) =>
        if (significand (whole ++ fraction)).1 < 10 ^ 18 then
          .ok (((significand (whole ++ fraction)).1 : ℤ), (significand (whole ++ fraction)).2,
            fraction.length, rest)
        else .error .returnFalse := by
  cases val with
  | nil => simp only [parseFraction, readFraction, List.append_nil, if_pos hwhole, List.length_nil]
  | cons c val =>
    rw [parseFraction, readFraction]
    by_cases hpoint : c = 46
    · rw [if_pos hpoint, if_pos hpoint, readDigits]
      by_cases hc : isDigit (val.headD 0) = true
      · have hne : ¬ val.takeWhile isDigit = [] := by
          rw [takeWhile_isDigit_eq_nil, hc]
          exact Bool.noConfusion
        rw [if_pos hc, if_neg hne, mantissaDigits_eq hwhole, Nat.zero_add]
      · rw [if_neg hc, if_pos (takeWhile_isDigit_eq_nil.2 (Bool.eq_false_of_not_eq_true hc))]
    · simp only [if_neg hpoint, List.append_nil, if_pos hwhole, List.length_nil]

theorem parseExponent_eq (val : Bytes) :
    (readExponent val = none ∧ parseExponent val = .error .returnFalse) ∨
      ∃ (n : ℕ) (negative : Bool) (rest : Bytes),
        readExponent val = some (if negative then -(n : ℤ) else n, rest) ∧
        parseExponent val =
          if n < 10 ^ 18 then .ok ((n : ℤ), negative, rest) else .error .returnFalse := by
  cases val with
  | nil => exact Or.inr ⟨0, false, [], rfl, rfl⟩
  | cons c val =>
    rw [parseExponent, readExponent]
    by_cases hmark : c = 101 ∨ c = 69
    · rw [if_pos hmark, if_pos hmark]
      generalize readExponentSign val = signed
      obtain ⟨negative, val⟩ := signed
      dsimp only
      rw [readDigits]
      by_cases hc : isDigit (val.headD 0) = true
      · have hne : ¬ val.takeWhile isDigit = [] := by
          rw [takeWhile_isDigit_eq_nil, hc]
          exact Bool.noConfusion
        have hdigits := @exponentDigits_eq val [] (by decide)
        rw [List.nil_append] at hdigits
        have hempty : ((ofDecimal [] : ℕ) : ℤ) = 0 := rfl
        rw [hempty] at hdigits
        refine Or.inr ⟨ofDecimal (val.takeWhile isDigit), negative, val.dropWhile isDigit, ?_, ?_⟩
        · rw [if_neg hne]
          rfl
        · rw [if_pos hc, hdigits]
          by_cases hfits : ofDecimal (val.takeWhile isDigit) < 10 ^ 18
          · simp only [if_pos hfits, ok_bind]
            rfl
          · simp only [if_neg hfits]
            rfl
      · refine Or.inl ⟨?_, if_neg hc⟩
        rw [if_pos (takeWhile_isDigit_eq_nil.2 (Bool.eq_false_of_not_eq_true hc))]
        rfl
    · exact Or.inr ⟨0, false, c :: val, if_neg hmark, if_neg hmark⟩

/-! ## How much is read -/

theorem readDigits_length {val digits rest : Bytes} (h : readDigits val = some (digits, rest)) :
    digits.length + rest.length = val.length := by
  rw [readDigits] at h
  split at h
  · cases h
  · obtain ⟨rfl, rfl⟩ := Prod.mk.inj (Option.some.inj h)
    rw [← List.length_append, List.takeWhile_append_dropWhile]

theorem readWhole_length {val digits rest : Bytes} (h : readWhole val = some (digits, rest)) :
    digits.length + rest.length ≤ val.length := by
  cases val with
  | nil => cases h
  | cons c val =>
    rw [readWhole] at h
    split at h
    · obtain ⟨rfl, rfl⟩ := Prod.mk.inj (Option.some.inj h)
      rw [List.length_nil, List.length_cons]
      omega
    · exact Nat.le_of_eq (readDigits_length h)

theorem readFraction_length {val digits rest : Bytes} (h : readFraction val = some (digits, rest)) :
    digits.length + rest.length ≤ val.length := by
  cases val with
  | nil =>
    obtain ⟨rfl, rfl⟩ := Prod.mk.inj (Option.some.inj h)
    exact le_rfl
  | cons c val =>
    rw [readFraction] at h
    split at h
    · have hlength := readDigits_length h
      rw [List.length_cons]
      omega
    · obtain ⟨rfl, rfl⟩ := Prod.mk.inj (Option.some.inj h)
      rw [List.length_nil]
      omega

theorem readSign_length (val : Bytes) : (readSign val).2.length ≤ val.length := by
  cases val with
  | nil => exact le_rfl
  | cons c val =>
    rw [readSign]
    split
    · exact Nat.le_succ _
    · exact le_rfl

theorem beforeEnd_length (val : Bytes) : (beforeEnd val).length < 2 ^ 31 := by
  have hlt := (Int32.ofNat val.length).toInt_lt
  rw [beforeEnd, List.length_take]
  omega

theorem timesTen_final {n : ℕ} {mantissa : ℤ} (hlow : -10 ^ 18 < mantissa)
    (hhigh : mantissa ≤ 42 * 10 ^ 17) :
    (do
      let mantissa ← timesTen (fun mantissa => decide (mantissa > 420000000000000000) ||
        decide (mantissa < -(UPPER_BOUND / 10))) n mantissa
      if mantissa > 4200000000000000000 || mantissa < -UPPER_BOUND then .error .returnFalse
      else .ok (Int64.ofInt mantissa)) =
      if -10 ^ 18 < mantissa * 10 ^ n ∧ mantissa * 10 ^ n ≤ 42 * 10 ^ 17 then
        .ok (Int64.ofInt (mantissa * 10 ^ n))
      else (.error .returnFalse : Except Stop CAmount) := by
  have hbound : UPPER_BOUND = 999999999999999999 := by decide
  have hten : UPPER_BOUND / 10 = 99999999999999999 := by decide
  induction n generalizing mantissa with
  | zero =>
    have hin : ¬ (decide (mantissa > 4200000000000000000) ||
        decide (mantissa < -UPPER_BOUND)) = true := by
      rw [Bool.or_eq_true, decide_eq_true_eq, decide_eq_true_eq, hbound]
      omega
    have hbounds : -10 ^ 18 < mantissa ∧ mantissa ≤ 42 * 10 ^ 17 := ⟨hlow, hhigh⟩
    rw [timesTen, ok_bind, pow_zero, mul_one, if_neg hin, if_pos hbounds]
  | succ n ih =>
    have hsucc : mantissa * 10 ^ (n + 1) = mantissa * 10 * 10 ^ n := by rw [pow_succ']; ring
    have hpow : (1 : ℤ) ≤ 10 ^ n := one_le_pow₀ (by omega)
    rw [timesTen, hsucc]
    by_cases hlarge : mantissa > 420000000000000000 ∨ mantissa < -(UPPER_BOUND / 10)
    · have hout : ¬ (-10 ^ 18 < mantissa * 10 * 10 ^ n ∧
          mantissa * 10 * 10 ^ n ≤ 42 * 10 ^ 17) := by
        rw [hten] at hlarge
        rcases hlarge with hlarge | hsmall
        · have hmono := le_mul_of_one_le_right (by omega : 0 ≤ mantissa * 10) hpow
          omega
        · have hmono := mul_le_mul_of_nonpos_left hpow (by omega : mantissa * 10 ≤ 0)
          omega
      rw [if_neg hout, if_pos]
      · rfl
      · rwa [Bool.or_eq_true, decide_eq_true_eq, decide_eq_true_eq]
    · have hnext := hlarge
      rw [hten] at hnext
      rw [if_neg (by rwa [Bool.or_eq_true, decide_eq_true_eq, decide_eq_true_eq]),
        signed64_ok (by omega) (by omega), ok_bind]
      exact ih (by omega) (by omega)

theorem finalize_eq {digits : Bytes} {point_ofs n : ℕ} {negative exponent_sign : Bool}
    {decimals : Int32} (hdigits : (significand digits).1 < 10 ^ 18) (hn : n < 10 ^ 18)
    (hlength : digits.length < 2 ^ 31) (hplaces : point_ofs < 2 ^ 31) :
    finalize (significand digits).1 n negative exponent_sign point_ofs (significand digits).2
        decimals =
      (Numeral.mk negative digits point_ofs (if exponent_sign then -n else n)).toFixedPoint
        decimals.toInt := by
  have hzeros := significand_zeros_le digits
  have hd := decimals.toInt_lt
  have hd' := decimals.le_toInt
  obtain ⟨exponent, hexponent⟩ : ∃ e : ℤ, (if exponent_sign then -(n : ℤ) else n) = e := ⟨_, rfl⟩
  have habs : exponent.natAbs = n := by
    rw [← hexponent]
    split <;> omega
  obtain ⟨mantissa, hmantissa⟩ : ∃ m : ℤ,
      (if negative then -1 else 1) * ((significand digits).1 : ℤ) = m := ⟨_, rfl⟩
  have hsmall : -10 ^ 18 < mantissa ∧ mantissa < 10 ^ 18 := by
    rw [← hmantissa]
    split <;> omega
  have hstart : negateIf exponent_sign n = .ok exponent := by
    rw [negateIf, ← hexponent]
    split
    · exact signed64_ok (by omega) (by omega)
    · rfl
  have hsign : negateIf negative (significand digits).1 = .ok mantissa := by
    rw [negateIf, ← hmantissa]
    split
    · rw [signed64_ok (by omega) (by omega), neg_one_mul]
    · rw [one_mul]
  rw [hexponent]
  have hscale : (Numeral.mk negative digits point_ofs exponent).scale decimals.toInt =
      exponent - point_ofs + (significand digits).2 + decimals.toInt := rfl
  have hscaled : (Numeral.mk negative digits point_ofs exponent).scaled decimals.toInt =
      mantissa * 10 ^ (exponent - point_ofs + (significand digits).2 + decimals.toInt).toNat := by
    rw [← hmantissa]
    rfl
  rw [Numeral.toFixedPoint, finalize, hstart, ok_bind, signed64_ok (by omega) (by omega), ok_bind,
    signed64_ok (by omega) (by omega), ok_bind, hsign, ok_bind, signed64_ok (by omega) (by omega),
    ok_bind]
  generalize hsum : exponent - point_ofs + (significand digits).2 + decimals.toInt = e
    at hscale hscaled ⊢
  by_cases hneg : e < 0
  · rw [if_pos hneg, if_neg]
    intro hfits
    have hnonneg := hfits.scale_nonneg
    omega
  · by_cases hlarge : e ≥ 18
    · rw [if_neg hneg, if_pos hlarge, if_neg]
      intro hfits
      have hlt := hfits.scale_lt
      omega
    · have hfits : (Numeral.mk negative digits point_ofs exponent).Fits decimals.toInt ↔
          -10 ^ 18 < mantissa * 10 ^ e.toNat ∧ mantissa * 10 ^ e.toNat ≤ 42 * 10 ^ 17 := by
        rw [← hscaled]
        refine ⟨fun h => ⟨h.lower, h.upper⟩, fun h => ⟨hdigits, ?_, ?_, ?_, h.1, h.2⟩⟩
        · rwa [habs]
        · rw [hscale]
          omega
        · rw [hscale]
          omega
      rw [if_neg hneg, if_neg hlarge, timesTen_final hsmall.1 (by omega), hscaled]
      exact if_congr hfits.symm rfl rfl

/-! ## What is read -/

theorem elim_toFixedPoint {numeral : Option Numeral} {decimals : ℤ}
    (h : ∀ x, numeral = some x → ¬ x.Fits decimals) :
    numeral.elim (.error .returnFalse) (fun x => x.toFixedPoint decimals) =
      (.error .returnFalse : Except Stop CAmount) := by
  cases numeral with
  | none => rfl
  | some x => exact if_neg (h x rfl)

/-- **Which numbers are read, and as what.**  No operation overflows. -/
theorem parseFixedPoint_eq (val : Bytes) (decimals : Int32) :
    parseFixedPoint val decimals =
      (readNumeral (beforeEnd val)).elim (.error .returnFalse)
        fun x => x.toFixedPoint decimals.toInt := by
  have hend := beforeEnd_length val
  have hsigned := readSign_length (beforeEnd val)
  rw [parseFixedPoint, readNumeral]
  generalize readSign (beforeEnd val) = signed at hsigned ⊢
  obtain ⟨negative, rest⟩ := signed
  dsimp only at hsigned ⊢
  rw [parseWhole_eq]
  cases hwhole : readWhole rest with
  | none => rfl
  | some parts =>
    obtain ⟨whole, rest'⟩ := parts
    have hlength := readWhole_length hwhole
    dsimp only
    rw [Option.bind_eq_bind, Option.bind_some]
    by_cases hroom : (significand whole).1 < 10 ^ 18
    · rw [if_pos hroom, ok_bind]
      dsimp only
      rw [parseFraction_eq rest' hroom]
      cases hfraction : readFraction rest' with
      | none => rfl
      | some parts =>
        obtain ⟨fraction, rest''⟩ := parts
        have hlength' := readFraction_length hfraction
        have happend : (whole ++ fraction).length = whole.length + fraction.length :=
          List.length_append
        dsimp only
        rw [Option.bind_eq_bind, Option.bind_some]
        by_cases hroom' : (significand (whole ++ fraction)).1 < 10 ^ 18
        · rw [if_pos hroom', ok_bind]
          dsimp only
          rcases parseExponent_eq rest'' with ⟨hread, hparse⟩ |
            ⟨n, exponent_sign, rest₃, hread, hparse⟩
          · rw [hread, hparse]
            rfl
          · rw [hread, hparse, Option.bind_some]
            dsimp only
            by_cases hn : n < 10 ^ 18
            · rw [if_pos hn, ok_bind]
              dsimp only
              by_cases hrest : rest₃ = []
              · rw [if_neg (not_not.2 hrest), if_pos hrest]
                exact finalize_eq hroom' hn (by omega) (by omega)
              · rw [if_pos hrest, if_neg hrest]
                rfl
            · rw [if_neg hn, elim_toFixedPoint]
              · rfl
              · intro x hx hfits
                have habs := hfits.exponent
                split at hx
                · obtain rfl := Option.some.inj hx
                  dsimp only at habs
                  split at habs <;> omega
                · cases hx
        · rw [if_neg hroom', elim_toFixedPoint]
          · rfl
          · intro x hx hfits
            obtain ⟨⟨exponent, rest₃⟩, -, hx⟩ := Option.bind_eq_some_iff.1 hx
            dsimp only at hx
            split at hx
            · obtain rfl := Option.some.inj hx
              exact hroom' hfits.significand
            · cases hx
    · rw [if_neg hroom, elim_toFixedPoint]
      · rfl
      · intro x hx hfits
        obtain ⟨⟨fraction, rest''⟩, -, hx⟩ := Option.bind_eq_some_iff.1 hx
        obtain ⟨⟨exponent, rest₃⟩, -, hx⟩ := Option.bind_eq_some_iff.1 hx
        dsimp only at hx
        split at hx
        · obtain rfl := Option.some.inj hx
          have hmono := significand_le_append whole fraction
          have hlt := hfits.significand
          dsimp only at hlt
          omega
        · cases hx

/-- **What fits is the number itself.** -/
theorem Numeral.Fits.value {x : Numeral} {decimals : ℤ} (h : x.Fits decimals) :
    ((Int64.ofInt (x.scaled decimals)).toInt : ℚ) = x.value * 10 ^ decimals := by
  have hlow := h.lower
  have hhigh := h.upper
  have hten : (10 : ℚ) ≠ 0 := by norm_num
  have hscale : (((x.scale decimals).toNat : ℕ) : ℤ) = x.exponent - x.places +
      ((UnemployCoin.significand x.digits).2 : ℤ) + decimals := Int.toNat_of_nonneg h.scale_nonneg
  rw [Int64.toInt_ofInt_of_le (by omega) (by omega), Numeral.scaled, Numeral.value,
    ← significand_value]
  push_cast
  rw [← zpow_natCast (10 : ℚ) (x.scale decimals).toNat, hscale, zpow_add₀ hten, zpow_add₀ hten,
    zpow_natCast]
  split
  · ring
  · ring

theorem parseFixedPoint_ok {val : Bytes} {decimals : Int32} {amount : CAmount} :
    parseFixedPoint val decimals = .ok amount ↔
      ∃ x, readNumeral (beforeEnd val) = some x ∧ x.Fits decimals.toInt ∧
        Int64.ofInt (x.scaled decimals.toInt) = amount := by
  rw [parseFixedPoint_eq]
  cases readNumeral (beforeEnd val) with
  | none => simp
  | some x =>
    rw [Option.elim_some, Numeral.toFixedPoint]
    by_cases hfits : x.Fits decimals.toInt
    · simp [hfits]
    · simp [hfits]

theorem parseFixedPoint_no_overflow (val : Bytes) (decimals : Int32) :
    parseFixedPoint val decimals ≠ .error .signedOverflow := by
  rw [parseFixedPoint_eq]
  cases readNumeral (beforeEnd val) with
  | none => exact fun h => by cases h
  | some x =>
    rw [Option.elim_some, Numeral.toFixedPoint]
    split
    · exact fun h => by cases h
    · exact fun h => by cases h

/-! ## The end of the string -/

theorem beforeEnd_eq {val : Bytes} (h : val.length < 2 ^ 31) : beforeEnd val = val := by
  have hsize : (Int32.ofNat val.length).toInt = val.length := Int32.toInt_ofNat_of_lt h
  rw [beforeEnd, hsize, Int.toNat_natCast, List.take_length]

theorem beforeEnd_nil {val : Bytes} (hlow : 2 ^ 31 ≤ val.length) (hhigh : val.length < 2 ^ 32) :
    beforeEnd val = [] := by
  have hneg : (Int32.ofNat val.length).toInt.toNat = 0 := by
    have hsize : ((Int32.size : ℕ) : ℤ) = 4294967296 := rfl
    rw [Int32.toInt_ofNat', Int.bmod_def, hsize]
    omega
  rw [beforeEnd, hneg, List.take_zero]

/-- Where the number that is read is the number that the string is: in every string below `2 ^ 32`
bytes, and behind them where what stands before `end` does not fit or is the same number. -/
def ReadsWhole (val : Bytes) (decimals : ℤ) : Prop :=
  val.length < 2 ^ 32 ∨ ∀ y, readNumeral (beforeEnd val) = some y →
    ¬ y.Fits decimals ∨ ∃ x, readNumeral val = some x ∧ x.value = y.value

/-- **When what is read is the number that the string is.** -/
theorem parseFixedPoint_exact (val : Bytes) (decimals : Int32) :
    (∀ amount, parseFixedPoint val decimals = .ok amount →
      ∃ x, readNumeral val = some x ∧ (amount.toInt : ℚ) = x.value * 10 ^ decimals.toInt) ↔
      ReadsWhole val decimals.toInt := by
  have hpow : (10 : ℚ) ^ decimals.toInt ≠ 0 := zpow_ne_zero _ (by norm_num)
  constructor
  · intro h
    refine Or.inr fun y hy => ?_
    by_cases hfits : y.Fits decimals.toInt
    · obtain ⟨x, hx, hvalue⟩ := h _ (parseFixedPoint_ok.2 ⟨y, hy, hfits, rfl⟩)
      rw [hfits.value] at hvalue
      exact Or.inr ⟨x, hx, (mul_right_cancel₀ hpow hvalue).symm⟩
    · exact Or.inl hfits
  · intro h amount hamount
    obtain ⟨y, hy, hfits, rfl⟩ := parseFixedPoint_ok.1 hamount
    rcases h with hshort | hsame
    · rcases Nat.lt_or_ge val.length (2 ^ 31) with hlt | hge
      · rw [beforeEnd_eq hlt] at hy
        exact ⟨y, hy, hfits.value⟩
      · rw [beforeEnd_nil hge hshort] at hy
        cases hy
    · rcases hsame y hy with hnot | ⟨x, hx, hvalue⟩
      · exact absurd hfits hnot
      · exact ⟨x, hx, by rw [hvalue, hfits.value]⟩

/-- A one, and `2 ^ 32` characters that are no number: the one is read. -/
theorem parseFixedPoint_prefix : ¬ ∀ val decimals amount,
    parseFixedPoint val decimals = .ok amount →
      ∃ x, readNumeral val = some x ∧ (amount.toInt : ℚ) = x.value * 10 ^ decimals.toInt := by
  intro h
  have hend : beforeEnd (49 :: List.replicate (2 ^ 32) 120) = [49] := by
    have hsize : (Int32.ofNat (2 ^ 32 + 1)).toInt.toNat = 1 := by decide +kernel
    rw [beforeEnd, List.length_cons, List.length_replicate, hsize]
    rfl
  have hread : parseFixedPoint (49 :: List.replicate (2 ^ 32) 120) 8 = .ok 100000000 := by
    rw [parseFixedPoint_eq, hend]
    decide +kernel
  have hnone : readNumeral (49 :: List.replicate (2 ^ 32) 120) = none := by
    have hcons : List.replicate (2 ^ 32) (120 : UInt8) = 120 :: List.replicate (2 ^ 32 - 1) 120 :=
      rfl
    rw [hcons]
    rfl
  obtain ⟨x, hx, -⟩ := h _ _ _ hread
  rw [hnone] at hx
  cases hx

end UnemployCoin
