import UnemployCoin.Base58Inverse
import UnemployCoin.FixedPoint
import UnemployCoin.Values
/-!
# Amounts as text

`FormatMoney` and `ParseMoney` (`utilmoneystr.cpp`), and `ValueFromAmountString`
(`core_write.cpp`), which writes an asset amount with as many decimals as the asset has units and
is read back by `ParseFixedPoint`.
-/

namespace UnemployCoin

def CENT : CAmount := 1000000

/-- `%d`. -/
def signedDecimal (n : ℤ) : Bytes := if n < 0 then 45 :: decimal n.natAbs else decimal n.natAbs

def padZeros (width : ℕ) (s : Bytes) : Bytes := List.replicate (width - s.length) 48 ++ s

/-- `%0<width>d`, where a sign stands before the zeros. -/
def zeroPadded (width : ℕ) (n : ℤ) : Bytes :=
  if n < 0 then 45 :: padZeros (width - 1) (decimal n.natAbs) else padZeros width (decimal n.natAbs)

/-- The loop of `FormatMoney` that counts zeros from `i` down; a point is met before the front. -/
def countTrim (str : Bytes) : ℕ → ℕ
  | 0 => 0
  | i + 1 => if str.at (i + 1) == 48 && isDigit (str.at (i + 1 - 2)) then countTrim str i + 1 else 0

def formatMoney (n : CAmount) : Bytes :=
  let n_abs := if n > 0 then n else -n
  let quotient := n_abs / COIN
  let remainder := n_abs % COIN
  let str := signedDecimal quotient.toInt ++ 46 :: zeroPadded 8 remainder.toInt
  let nTrim := countTrim str (str.length - 1)
  let str := str.take (str.length - nTrim)
  if n < 0 then 45 :: str else str

/-- The loop of `ParseMoney` over the digits behind the point. -/
def parseUnits : Bytes → CAmount → CAmount → CAmount × Bytes
  | [], nUnits, _ => (nUnits, [])
  | c :: p, nUnits, nMult =>
    if isDigit c && decide (nMult > 0) then
      parseUnits p (nUnits + nMult * Int64.ofInt (digitOf c)) (nMult / 10)
    else (nUnits, c :: p)

/-- The loop of `ParseMoney` up to the point or a blank. -/
def parseUpToPoint : Bytes → Bytes → Option (Bytes × CAmount × Bytes)
  | [], strWhole => some (strWhole, 0, [])
  | c :: p, strWhole =>
    if c = 46 then
      let (nUnits, p) := parseUnits p 0 (CENT * 10)
      some (strWhole, nUnits, p)
    else if isSpace c then some (strWhole, 0, c :: p)
    else if !isDigit c then none
    else parseUpToPoint p (strWhole ++ [c])

/-- `atoi64` of a string of digits. -/
def atoi64 (str : Bytes) : CAmount := Int64.ofNat (min (ofDecimal str) (2 ^ 63 - 1))

def parseMoney (str : Bytes) : Option CAmount := do
  let (strWhole, nUnits, p) ← parseUpToPoint ((cStr str).dropWhile isSpace) []
  if !p.all isSpace then none
  else if strWhole.length > 10 then none
  else if nUnits < 0 || nUnits > COIN then none
  else return atoi64 strWhole * COIN + nUnits

/-- `ValueFromAmountString`, for at most eight units.  The quotient of doubles is exact where it is
an integer, and cannot reach the next one where it is not, since the remainder is below `2 ^ 53`. -/
def valueFromAmountString (amount : CAmount) (units : Int8) : Bytes :=
  let sign : Bytes := if amount < 0 then [45] else []
  let n_abs := if amount < 0 then -amount else amount
  let quotient := n_abs / COIN
  let remainder := n_abs % COIN
  let remainder := remainder / Int64.ofNat (10 ^ (8 - units.toInt).toNat)
  if units = 0 ∧ remainder = 0 then sign ++ signedDecimal quotient.toInt
  else sign ++ signedDecimal quotient.toInt ++ 46 :: zeroPadded units.toInt.toNat remainder.toInt

theorem decimal_length_le {n k : ℕ} (hk : 0 < k) (h : n < 10 ^ k) : (decimal n).length ≤ k := by
  rw [decimal]
  split
  · exact hk
  · rw [List.length_map, List.length_reverse]
    exact (Nat.digits_length_le_iff (by decide) n).2 h

theorem decimal_head_ne {n : ℕ} (hn : n ≠ 0) : (decimal n).head? ≠ some 48 := by
  rw [decimal, if_neg hn, List.head?_map, List.head?_reverse]
  intro h
  obtain ⟨d, hd, hzero⟩ := Option.map_eq_some_iff.1 h
  have hlt : d < 10 := Nat.digits_lt_base (by decide) (List.mem_of_getLast? hd)
  have hall : ∀ d < 10, UInt8.ofNat (48 + d) = 48 → d = 0 := by decide
  obtain rfl := hall d hlt hzero
  have hlast := Nat.getLast_digit_ne_zero 10 hn
  rw [List.getLast?_eq_getLast_of_ne_nil (Nat.digits_ne_nil_iff_ne_zero.2 hn)] at hd
  exact hlast (Option.some.inj hd)

theorem ofDecimal_zeros (k : ℕ) : ofDecimal (List.replicate k 48) = 0 := by
  induction k with
  | zero => rfl
  | succ k ih =>
    rw [List.replicate_succ', ofDecimal_concat, ih]
    rfl

theorem ofDecimal_padZeros (width n : ℕ) : ofDecimal (padZeros width (decimal n)) = n := by
  rw [padZeros, ofDecimal_append, ofDecimal_zeros, ofDecimal_decimal, Nat.zero_mul, Nat.zero_add]

theorem padZeros_length {width n : ℕ} (hwidth : 0 < width) (h : n < 10 ^ width) :
    (padZeros width (decimal n)).length = width := by
  have hle := decimal_length_le hwidth h
  rw [padZeros, List.length_append, List.length_replicate]
  omega

theorem isDigit_padZeros (width n : ℕ) : ∀ c ∈ padZeros width (decimal n), isDigit c = true := by
  intro c hc
  rcases List.mem_append.1 hc with hc | hc
  · rw [(List.mem_replicate.1 hc).2]
    rfl
  · exact isDigit_decimal n c hc

theorem toInt_COIN : COIN.toInt = 10 ^ 8 := by decide

theorem toInt_div_COIN {n : CAmount} (h : 0 ≤ n.toInt) :
    (n / COIN).toInt = ((n.toInt.toNat / 10 ^ 8 : ℕ) : ℤ) := by
  have hlt := n.toInt_lt
  rw [Int64.toInt_div, toInt_COIN, Int.tdiv_eq_ediv_of_nonneg h, Totals.bmod_eq]
  omega

theorem toInt_mod_COIN {n : CAmount} (h : 0 ≤ n.toInt) :
    (n % COIN).toInt = ((n.toInt.toNat % 10 ^ 8 : ℕ) : ℤ) := by
  rw [Int64.toInt_mod, toInt_COIN, Int.tmod_eq_emod_of_nonneg h]
  omega

theorem mul_COIN_add {n whole rest : CAmount} (hlow : 0 ≤ n.toInt) (hhigh : n.toInt ≤ 10 ^ 17)
    (hwhole : whole.toInt = ((n.toInt.toNat / 10 ^ 8 : ℕ) : ℤ))
    (hrest : rest.toInt = ((n.toInt.toNat % 10 ^ 8 : ℕ) : ℤ)) : whole * COIN + rest = n := by
  rw [← Int64.toInt_inj, Int64.toInt_add, Int64.toInt_mul, hwhole, toInt_COIN, hrest,
    Totals.bmod_eq, Totals.bmod_eq]
  omega

theorem signedDecimal_natCast (n : ℕ) : signedDecimal n = decimal n := by
  rw [signedDecimal, if_neg (by omega), Int.natAbs_natCast]

theorem zeroPadded_natCast (width n : ℕ) : zeroPadded width n = padZeros width (decimal n) := by
  rw [zeroPadded, if_neg (by omega), Int.natAbs_natCast]

theorem at_append_right {s t : Bytes} {i : ℕ} (h : s.length ≤ i) :
    (s ++ t).at i = t.at (i - s.length) := by
  rw [Bytes.at, Bytes.at, List.getD_eq_getElem?_getD, List.getD_eq_getElem?_getD,
    List.getElem?_append_right h]

theorem countTrim_spec {whole digits : Bytes} {i : ℕ} (hi : whole.length + 2 ≤ i) :
    countTrim (whole ++ 46 :: digits) i ≤ i - (whole.length + 2) ∧
      ∀ j, i - countTrim (whole ++ 46 :: digits) i < j → j ≤ i →
        (whole ++ 46 :: digits).at j = 48 := by
  induction i with
  | zero => omega
  | succ i ih =>
    rw [countTrim]
    split
    · rename_i htrim
      rw [Bool.and_eq_true, beq_iff_eq] at htrim
      rcases Nat.lt_or_ge (whole.length + 1) i with hmore | hlast
      · obtain ⟨hle, hzeros⟩ := ih hmore
        refine ⟨by omega, fun j hlow hhigh => ?_⟩
        rcases Nat.lt_or_ge i j with heq | hlt
        · obtain rfl : j = i + 1 := by omega
          exact htrim.1
        · exact hzeros j (by omega) hlt
      · -- The point is two places before.
        have hpoint : i + 1 - 2 = whole.length := by omega
        rw [hpoint, at_append_right le_rfl, Nat.sub_self] at htrim
        exact absurd htrim.2 Bool.false_ne_true
    · exact ⟨Nat.zero_le _, fun j hlow hhigh => by omega⟩

theorem take_countTrim {whole digits : Bytes} (hdigits : 2 ≤ digits.length) :
    ∃ k shown, digits = shown ++ List.replicate k 48 ∧
      (whole ++ 46 :: digits).take ((whole ++ 46 :: digits).length -
        countTrim (whole ++ 46 :: digits) ((whole ++ 46 :: digits).length - 1)) =
          whole ++ 46 :: shown := by
  have hlength : (whole ++ 46 :: digits).length = whole.length + (digits.length + 1) := by
    rw [List.length_append, List.length_cons]
  obtain ⟨hle, hzeros⟩ := @countTrim_spec whole digits ((whole ++ 46 :: digits).length - 1)
    (by omega)
  generalize countTrim (whole ++ 46 :: digits) ((whole ++ 46 :: digits).length - 1) = k
    at hle hzeros ⊢
  refine ⟨k, digits.take (digits.length - k), ?_, ?_⟩
  · have hdrop : digits.drop (digits.length - k) = List.replicate k 48 := by
      refine List.ext_getElem ?_ fun i hi hi' => ?_
      · rw [List.length_drop, List.length_replicate]
        omega
      · rw [List.length_drop] at hi
        have hindex := hzeros (whole.length + (digits.length - k + i + 1)) (by omega) (by omega)
        have hshift : whole.length + (digits.length - k + i + 1) - whole.length =
            digits.length - k + i + 1 := by omega
        rw [at_append_right (by omega), hshift, Bytes.at, List.getD_cons_succ,
          List.getD_eq_getElem?_getD, List.getElem?_eq_getElem (by omega), Option.getD_some]
          at hindex
        rw [List.getElem_drop, List.getElem_replicate, hindex]
    rw [← hdrop, List.take_append_drop]
  · have hcount : whole.length + (digits.length + 1) - k =
        whole.length + (digits.length - k + 1) := by omega
    rw [hlength, hcount, List.take_length_add_append, List.take_succ_cons]

theorem isSpace_of_isDigit {c : UInt8} (h : isDigit c = true) : isSpace c = false := by
  obtain ⟨hlow, -⟩ := toNat_of_isDigit h
  rw [isSpace, Bool.or_eq_false_iff, beq_eq_false_iff_ne, Bool.and_eq_false_iff,
    decide_eq_false_iff_not, decide_eq_false_iff_not, UInt8.le_iff_toNat_le, UInt8.le_iff_toNat_le]
  refine ⟨?_, Or.inr ?_⟩
  · rintro rfl
    exact absurd hlow (by decide)
  · have hlast : (13 : UInt8).toNat = 13 := rfl
    rw [hlast]
    omega

theorem parseUpToPoint_digits {whole acc p : Bytes} (h : ∀ c ∈ whole, isDigit c = true) :
    parseUpToPoint (whole ++ 46 :: p) acc =
      some (acc ++ whole, (parseUnits p 0 (CENT * 10)).1, (parseUnits p 0 (CENT * 10)).2) := by
  induction whole generalizing acc with
  | nil => rw [List.nil_append, parseUpToPoint, if_pos rfl, List.append_nil]
  | cons c whole ih =>
    rw [List.forall_mem_cons] at h
    have hpoint : c ≠ 46 := by
      rintro rfl
      exact absurd h.1 (by decide)
    have hspace := isSpace_of_isDigit h.1
    rw [List.cons_append, parseUpToPoint, if_neg hpoint, hspace, h.1, Bool.not_true,
      if_neg Bool.false_ne_true, if_neg Bool.false_ne_true, ih h.2, List.append_assoc,
      List.singleton_append]

theorem parseUnits_digits {digits : Bytes} {nUnits nMult : CAmount} {e : ℕ}
    (hdigits : ∀ c ∈ digits, isDigit c = true) (hlength : digits.length ≤ e)
    (hmult : nMult.toInt = 10 ^ e / 10) (hnonneg : 0 ≤ nUnits.toInt)
    (hroom : nUnits.toInt + 10 ^ e < 2 ^ 62) :
    (parseUnits digits nUnits nMult).2 = [] ∧
      (parseUnits digits nUnits nMult).1.toInt =
        nUnits.toInt + ofDecimal digits * 10 ^ (e - digits.length) := by
  induction digits generalizing nUnits nMult e with
  | nil =>
    refine ⟨rfl, ?_⟩
    have hzero : ofDecimal [] = 0 := rfl
    rw [parseUnits, hzero, Nat.cast_zero, Int.zero_mul, Int.add_zero]
  | cons c digits ih =>
    rw [List.forall_mem_cons] at hdigits
    rw [List.length_cons] at hlength
    obtain ⟨hlow, hhigh⟩ := toNat_of_isDigit hdigits.1
    obtain ⟨e, rfl⟩ : ∃ e', e = e' + 1 := ⟨e - 1, by omega⟩
    have hpow : (10 : ℤ) ^ (e + 1) = 10 ^ e * 10 := pow_succ 10 e
    have hpos : (0 : ℤ) < 10 ^ e := pow_pos (by omega) e
    have hmult' : nMult.toInt = 10 ^ e := by omega
    have hgreater : nMult > 0 := by
      show 0 < nMult
      rw [Int64.lt_iff_toInt_lt, hmult', Int64.toInt_zero]
      exact hpos
    have hdigit : (Int64.ofInt (digitOf c)).toInt = (c.toNat : ℤ) - 48 := by
      rw [digitOf, Int64.toInt_ofInt_of_le (by omega) (by omega)]
    -- One digit adds at most nine times the multiplier.
    have hproduct : 0 ≤ (10 : ℤ) ^ e * ((c.toNat : ℤ) - 48) ∧
        (10 : ℤ) ^ e * ((c.toNat : ℤ) - 48) ≤ 10 ^ e * 9 :=
      ⟨mul_nonneg (by omega) (by omega), mul_le_mul_of_nonneg_left (by omega) (by omega)⟩
    have hnext : (nUnits + nMult * Int64.ofInt (digitOf c)).toInt =
        nUnits.toInt + 10 ^ e * ((c.toNat : ℤ) - 48) := by
      rw [Int64.toInt_add, Int64.toInt_mul, hdigit, hmult', Totals.bmod_eq, Totals.bmod_eq]
      omega
    have hdiv : (nMult / 10).toInt = 10 ^ e / 10 := by
      have hten : (10 : CAmount).toInt = 10 := rfl
      rw [Int64.toInt_div, hmult', hten, Int.tdiv_eq_ediv_of_nonneg (by omega), Totals.bmod_eq]
      omega
    obtain ⟨hrest, hvalue⟩ := @ih (nUnits + nMult * Int64.ofInt (digitOf c)) (nMult / 10) e
      hdigits.2 (by omega) hdiv (by omega) (by omega)
    have hcons : ofDecimal (c :: digits) =
        (c.toNat - 48) * 10 ^ digits.length + ofDecimal digits := by
      rw [← List.singleton_append, ofDecimal_append, ofDecimal_singleton]
    have hsplit : (10 : ℤ) ^ e = 10 ^ digits.length * 10 ^ (e - digits.length) := by
      rw [← pow_add]
      congr 1
      omega
    have hcast : ((c.toNat - 48 : ℕ) : ℤ) = (c.toNat : ℤ) - 48 := by omega
    rw [parseUnits, hdigits.1, decide_eq_true hgreater, Bool.and_self, if_pos rfl]
    refine ⟨hrest, ?_⟩
    rw [hvalue, hnext, hcons, List.length_cons, Nat.add_sub_add_right]
    push_cast
    rw [hcast, hsplit]
    ring

theorem abs_of_nonneg {n : CAmount} (h : 0 ≤ n.toInt) : (if n > 0 then n else -n) = n := by
  split
  · rfl
  · rename_i hnot
    have hzero : n.toInt = 0 := by
      have hle : ¬ 0 < n.toInt := by
        intro hpos
        refine hnot (show 0 < n from ?_)
        rwa [Int64.lt_iff_toInt_lt, Int64.toInt_zero]
      omega
    rw [← Int64.toInt_inj, Int64.toInt_neg, hzero]
    rfl

theorem not_lt_zero {n : CAmount} (h : 0 ≤ n.toInt) : ¬ n < 0 := by
  rw [Int64.lt_iff_toInt_lt, Int64.toInt_zero]
  omega

theorem formatMoney_eq {n : CAmount} (h : 0 ≤ n.toInt) :
    ∃ k shown, padZeros 8 (decimal (n.toInt.toNat % 10 ^ 8)) = shown ++ List.replicate k 48 ∧
      formatMoney n = decimal (n.toInt.toNat / 10 ^ 8) ++ 46 :: shown := by
  have hlength := @padZeros_length 8 (n.toInt.toNat % 10 ^ 8) (by omega)
    (Nat.mod_lt _ (by omega))
  obtain ⟨k, shown, hshown, htake⟩ := @take_countTrim (decimal (n.toInt.toNat / 10 ^ 8))
    (padZeros 8 (decimal (n.toInt.toNat % 10 ^ 8))) (by omega)
  refine ⟨k, shown, hshown, ?_⟩
  rw [formatMoney, abs_of_nonneg h, toInt_div_COIN h, toInt_mod_COIN h, signedDecimal_natCast,
    zeroPadded_natCast, htake, if_neg (not_lt_zero h)]

/-- **Every amount in range is read back.** -/
theorem parseMoney_formatMoney {n : CAmount} (h : moneyRange n = true) :
    parseMoney (formatMoney n) = some n := by
  rw [moneyRange_iff, toInt_MAX_MONEY] at h
  obtain ⟨k, shown, hshown, htext⟩ := formatMoney_eq h.1
  have hwhole := isDigit_decimal (n.toInt.toNat / 10 ^ 8)
  have hdigits : ∀ c ∈ shown, isDigit c = true := by
    intro c hc
    refine isDigit_padZeros 8 (n.toInt.toNat % 10 ^ 8) c ?_
    rw [hshown]
    exact List.mem_append_left _ hc
  have hlength : shown.length + k = 8 := by
    have height := @padZeros_length 8 (n.toInt.toNat % 10 ^ 8) (by omega) (Nat.mod_lt _ (by omega))
    rwa [hshown, List.length_append, List.length_replicate] at height
  have hvalue : ofDecimal shown * 10 ^ (8 - shown.length) = n.toInt.toNat % 10 ^ 8 := by
    have hrest : 8 - shown.length = k := by omega
    have hpad := ofDecimal_padZeros 8 (n.toInt.toNat % 10 ^ 8)
    rw [hshown, ofDecimal_append, ofDecimal_zeros, List.length_replicate] at hpad
    rw [hrest]
    omega
  have htextDigits : ∀ c ∈ decimal (n.toInt.toNat / 10 ^ 8) ++ 46 :: shown,
      isDigit c = true ∨ c = 46 := by
    intro c hc
    rcases List.mem_append.1 hc with hc | hc
    · exact Or.inl (hwhole c hc)
    · rcases List.mem_cons.1 hc with rfl | hc
      · exact Or.inr rfl
      · exact Or.inl (hdigits c hc)
  have hstr : cStr (decimal (n.toInt.toNat / 10 ^ 8) ++ 46 :: shown) =
      decimal (n.toInt.toNat / 10 ^ 8) ++ 46 :: shown := by
    refine cStr_eq fun c hc => ?_
    rintro rfl
    rcases htextDigits 0 hc with hdigit | hpoint
    · exact absurd hdigit (by decide)
    · exact absurd hpoint (by decide)
  have hspaces : (decimal (n.toInt.toNat / 10 ^ 8) ++ 46 :: shown).dropWhile isSpace =
      decimal (n.toInt.toNat / 10 ^ 8) ++ 46 :: shown := by
    rw [List.dropWhile_eq_self_iff]
    intro hpos
    rcases htextDigits _ (List.getElem_mem hpos) with hdigit | hpoint
    · rw [isSpace_of_isDigit hdigit]
      exact Bool.false_ne_true
    · rw [hpoint]
      decide
  have hmult : (CENT * 10).toInt = 10 ^ 8 / 10 := by decide
  obtain ⟨hend, hunits⟩ := @parseUnits_digits shown 0 (CENT * 10) 8 hdigits (by omega) hmult
    (Int64.toInt_zero.ge) (by rw [Int64.toInt_zero]; omega)
  rw [← Nat.cast_ofNat, ← Nat.cast_pow, ← Nat.cast_mul, hvalue, Int64.toInt_zero, Int.zero_add]
    at hunits
  have hshort : ¬ (decimal (n.toInt.toNat / 10 ^ 8)).length > 10 := by
    have hle := @decimal_length_le (n.toInt.toNat / 10 ^ 8) 10 (by omega) (by omega)
    omega
  have hinRange : ((decide ((parseUnits shown 0 (CENT * 10)).1 < 0)) ||
      decide ((parseUnits shown 0 (CENT * 10)).1 > COIN)) = false := by
    rw [Bool.or_eq_false_iff, decide_eq_false_iff_not, decide_eq_false_iff_not]
    refine ⟨not_lt_zero (by omega), ?_⟩
    show ¬ COIN < (parseUnits shown 0 (CENT * 10)).1
    rw [Int64.lt_iff_toInt_lt, toInt_COIN, hunits]
    omega
  have hatoi : (atoi64 (decimal (n.toInt.toNat / 10 ^ 8))).toInt =
      ((n.toInt.toNat / 10 ^ 8 : ℕ) : ℤ) := by
    rw [atoi64, ofDecimal_decimal, Nat.min_eq_left (by omega), Int64.toInt_ofNat_of_lt (by omega)]
  have hsum := mul_COIN_add h.1 h.2 hatoi hunits
  rw [htext, parseMoney, hstr, hspaces, parseUpToPoint_digits hwhole, List.nil_append,
    Option.bind_eq_bind, Option.bind_some]
  dsimp only
  rw [hend, List.all_nil, Bool.not_true, if_neg Bool.false_ne_true, if_neg hshort, hinRange,
    if_neg Bool.false_ne_true, hsum]
  rfl

/-- The digits that are read of a whole number: none of a single zero. -/
def wholeDigits (n : ℕ) : Bytes := if n = 0 then [] else decimal n

theorem readWhole_decimal {n : ℕ} {rest : Bytes} (hrest : isDigit (rest.headD 0) = false) :
    readWhole (decimal n ++ rest) = some (wholeDigits n, rest) := by
  have htake : rest.takeWhile isDigit = [] := takeWhile_isDigit_eq_nil.2 hrest
  have hdrop : rest.dropWhile isDigit = rest := by
    conv_rhs => rw [← List.takeWhile_append_dropWhile (p := isDigit) (l := rest), htake]
    rw [List.nil_append]
  by_cases hn : n = 0
  · rw [hn]
    rfl
  · cases htext : decimal n with
    | nil => exact absurd htext (decimal_ne_nil n)
    | cons c text =>
      have hall := isDigit_decimal n
      have hhead := decimal_head_ne hn
      rw [htext] at hall hhead
      have hzero : ¬ c = 48 := by
        rintro rfl
        exact hhead rfl
      rw [List.cons_append, readWhole, if_neg hzero, readDigits, ← List.cons_append,
        List.takeWhile_append_of_pos hall, List.dropWhile_append_of_pos hall, htake, hdrop,
        List.append_nil, if_neg (List.cons_ne_nil _ _), wholeDigits, if_neg hn, htext]

/-- A number with some digits behind its point, and without one where there are none. -/
def pointText (n : ℕ) (digits : Bytes) : Bytes :=
  decimal n ++ if digits = [] then [] else 46 :: digits

theorem readNumeral_pointText {n : ℕ} {digits : Bytes} (h : ∀ c ∈ digits, isDigit c = true) :
    readNumeral (pointText n digits) = some ⟨false, wholeDigits n ++ digits, digits.length, 0⟩ := by
  have hsign : ∀ rest, readSign (decimal n ++ rest) = (false, decimal n ++ rest) := by
    intro rest
    cases htext : decimal n with
    | nil => exact absurd htext (decimal_ne_nil n)
    | cons c text =>
      have hall := isDigit_decimal n
      rw [htext] at hall
      rw [List.cons_append, readSign, if_neg]
      rintro rfl
      exact absurd (hall 45 List.mem_cons_self) (by decide)
  have htake : digits.takeWhile isDigit = digits := List.takeWhile_eq_self_iff.2 h
  have hdrop : digits.dropWhile isDigit = [] := List.dropWhile_eq_nil_iff.2 h
  rw [pointText]
  by_cases hnil : digits = []
  · rw [if_pos hnil, readNumeral, hsign]
    dsimp only
    rw [readWhole_decimal rfl, hnil]
    rfl
  · rw [if_neg hnil, readNumeral, hsign]
    dsimp only
    rw [readWhole_decimal rfl, Option.bind_eq_bind, Option.bind_some]
    dsimp only
    rw [readFraction, if_pos rfl, readDigits, htake, hdrop, if_neg hnil]
    rfl

theorem ofDecimal_wholeDigits (n : ℕ) : ofDecimal (wholeDigits n) = n := by
  rw [wholeDigits]
  split
  · rename_i hn
    rw [hn]
    rfl
  · exact ofDecimal_decimal n

/-- **A number with few decimals fits**, as what it is in units. -/
theorem fits_of_value {digits : Bytes} {u n : ℕ} (hu : u ≤ 8)
    (hvalue : ofDecimal digits * 10 ^ (8 - u) = n) (hn : n ≤ 10 ^ 17)
    (hzero : ofDecimal digits = 0 → digits.length ≤ u) :
    (Numeral.mk false digits u 0).Fits 8 ∧ (Numeral.mk false digits u 0).scaled 8 = n := by
  have hsplit := significand_value digits
  have hzeros := significand_zeros_le digits
  have hle : (significand digits).1 ≤ ofDecimal digits := by
    rw [← hsplit]
    exact Nat.le_mul_of_pos_right _ (Nat.pow_pos (by omega))
  have hdigits : ofDecimal digits ≤ n := by
    rw [← hvalue]
    exact Nat.le_mul_of_pos_right _ (Nat.pow_pos (by omega))
  have hroom : (significand digits).2 < 10 + u := by
    rcases Nat.eq_zero_or_pos (significand digits).1 with hnone | hsome
    · rw [hnone, Nat.zero_mul] at hsplit
      have hlength := hzero hsplit.symm
      omega
    · -- So many zeros make the number larger than an amount.
      have hpow : 10 ^ (significand digits).2 ≤ ofDecimal digits := by
        rw [← hsplit]
        exact Nat.le_mul_of_pos_left _ hsome
      have hbound : ofDecimal digits * 10 ^ (8 - u) ≤ 10 ^ (9 + u) * 10 ^ (8 - u) := by
        rw [hvalue, ← pow_add]
        have hexp : 9 + u + (8 - u) = 17 := by omega
        rwa [hexp]
      have hdigits' := Nat.le_of_mul_le_mul_right hbound (Nat.pow_pos (by omega))
      have hexp := (Nat.pow_le_pow_iff_right (by omega : 1 < 10)).1 (hpow.trans hdigits')
      omega
  have hscale : (Numeral.mk false digits u 0).scale 8 =
      ((8 - u + (significand digits).2 : ℕ) : ℤ) := by
    rw [Numeral.scale]
    dsimp only
    omega
  have hscaled : (Numeral.mk false digits u 0).scaled 8 = n := by
    rw [Numeral.scaled, hscale, Int.toNat_natCast, if_neg Bool.false_ne_true, one_mul, ← hvalue,
      ← hsplit]
    push_cast
    rw [pow_add]
    ring
  refine ⟨⟨?_, Nat.pow_pos (by omega), ?_, ?_, ?_, ?_⟩, hscaled⟩
  · dsimp only
    omega
  · omega
  · omega
  · rw [hscaled]
    omega
  · rw [hscaled]
    omega

def unitDigits (u r : ℕ) : Bytes := if u = 0 then [] else padZeros u (decimal (r / 10 ^ (8 - u)))

theorem valueFromAmountString_eq {n : CAmount} {units : Int8} (hn : 0 ≤ n.toInt)
    (hlow : 0 ≤ units.toInt) (hhigh : units.toInt ≤ 8) :
    valueFromAmountString n units = pointText (n.toInt.toNat / 10 ^ 8)
      (unitDigits units.toInt.toNat (n.toInt.toNat % 10 ^ 8)) := by
  obtain ⟨u, hu⟩ : ∃ u : ℕ, units.toInt = u := ⟨units.toInt.toNat, by omega⟩
  have hexp : (8 - units.toInt).toNat = 8 - u := by omega
  have hpow : 10 ^ (8 - u) ≤ 10 ^ 8 := Nat.pow_le_pow_right (by omega) (by omega)
  have hpos : 0 < 10 ^ (8 - u) := Nat.pow_pos (by omega)
  have hdivisor : (Int64.ofNat (10 ^ (8 - u))).toInt = ((10 ^ (8 - u) : ℕ) : ℤ) :=
    Int64.toInt_ofNat_of_lt (by omega)
  have hrest : (n % COIN / Int64.ofNat (10 ^ (8 - u))).toInt =
      ((n.toInt.toNat % 10 ^ 8 / 10 ^ (8 - u) : ℕ) : ℤ) := by
    have hle : n.toInt.toNat % 10 ^ 8 / 10 ^ (8 - u) < 10 ^ 8 :=
      (Nat.div_le_self _ _).trans_lt (Nat.mod_lt _ (by omega))
    rw [Int64.toInt_div, toInt_mod_COIN hn, hdivisor, Int.tdiv_eq_ediv_of_nonneg (by omega),
      ← Int.natCast_ediv, Totals.bmod_eq]
    generalize n.toInt.toNat % 10 ^ 8 / 10 ^ (8 - u) = r at hle ⊢
    omega
  have hzero : units = 0 ↔ u = 0 := by
    rw [← Int8.toInt_inj, hu, Int8.toInt_zero]
    omega
  rw [valueFromAmountString, if_neg (not_lt_zero hn), if_neg (not_lt_zero hn), hexp, hu,
    Int.toNat_natCast, hrest, toInt_div_COIN hn, signedDecimal_natCast, zeroPadded_natCast,
    List.nil_append]
  by_cases hnone : u = 0
  · have hsmall : n % COIN / Int64.ofNat (10 ^ (8 - u)) = 0 := by
      rw [← Int64.toInt_inj, hrest, Int64.toInt_zero, hnone]
      omega
    rw [if_pos ⟨hzero.2 hnone, hsmall⟩, pointText, unitDigits, if_pos hnone, if_pos rfl,
      List.append_nil]
  · have hne : padZeros u (decimal (n.toInt.toNat % 10 ^ 8 / 10 ^ (8 - u))) ≠ [] := by
      intro hnil
      have hlength := congrArg List.length hnil
      rw [padZeros, List.length_append, List.length_replicate, List.length_nil] at hlength
      omega
    rw [if_neg fun h => hnone (hzero.1 h.1), pointText, unitDigits, if_neg hnone, if_neg hne]

/-- **Every amount that its units can write is read back.** -/
theorem parseFixedPoint_valueFromAmountString {n : CAmount} {units : Int8}
    (h : moneyRange n = true) (hlow : 0 ≤ units.toInt) (hhigh : units.toInt ≤ 8)
    (hmultiple : ((10 ^ (8 - units.toInt).toNat : ℕ) : ℤ) ∣ n.toInt) :
    parseFixedPoint (valueFromAmountString n units) 8 = .ok n := by
  rw [moneyRange_iff, toInt_MAX_MONEY] at h
  obtain ⟨u, hu⟩ : ∃ u : ℕ, units.toInt = u := ⟨units.toInt.toNat, by omega⟩
  have hexp : (8 - units.toInt).toNat = 8 - u := by omega
  rw [hexp] at hmultiple
  rw [valueFromAmountString_eq h.1 hlow hhigh, hu, Int.toNat_natCast]
  obtain ⟨m, hm⟩ : ∃ m : ℕ, n.toInt = m := ⟨n.toInt.toNat, by omega⟩
  rw [hm, Int.toNat_natCast]
  rw [hm, Int.natCast_dvd_natCast] at hmultiple
  rw [hm] at h
  -- The digits and what they are worth.
  have hpow : 10 ^ 8 = 10 ^ u * 10 ^ (8 - u) := by
    rw [← pow_add]
    congr 1
    omega
  have hdvd : 10 ^ (8 - u) ∣ 10 ^ 8 := ⟨10 ^ u, by rw [hpow, Nat.mul_comm]⟩
  have hrest : m % 10 ^ 8 / 10 ^ (8 - u) * 10 ^ (8 - u) = m % 10 ^ 8 :=
    Nat.div_mul_cancel ((Nat.dvd_mod_iff hdvd).2 hmultiple)
  have hless : m % 10 ^ 8 / 10 ^ (8 - u) < 10 ^ u := by
    refine Nat.div_lt_of_lt_mul ?_
    rw [Nat.mul_comm, ← hpow]
    exact Nat.mod_lt _ (by omega)
  have hlength : (unitDigits u (m % 10 ^ 8)).length = u := by
    rw [unitDigits]
    split
    · rename_i hnone
      rw [hnone]
      rfl
    · exact padZeros_length (by omega) hless
  have hunits : ofDecimal (unitDigits u (m % 10 ^ 8)) = m % 10 ^ 8 / 10 ^ (8 - u) := by
    rw [unitDigits]
    split
    · rename_i hnone
      have hempty : ofDecimal [] = 0 := rfl
      rw [hnone, Nat.pow_zero] at hless
      rw [hnone, hempty]
      omega
    · exact ofDecimal_padZeros _ _
  have hdigits : ∀ c ∈ unitDigits u (m % 10 ^ 8), isDigit c = true := by
    intro c hc
    rw [unitDigits] at hc
    split at hc
    · cases hc
    · exact isDigit_padZeros _ _ c hc
  have hworth : ofDecimal (wholeDigits (m / 10 ^ 8) ++ unitDigits u (m % 10 ^ 8)) =
      m / 10 ^ 8 * 10 ^ u + m % 10 ^ 8 / 10 ^ (8 - u) := by
    rw [ofDecimal_append, ofDecimal_wholeDigits, hlength, hunits]
  have hvalue : ofDecimal (wholeDigits (m / 10 ^ 8) ++ unitDigits u (m % 10 ^ 8)) * 10 ^ (8 - u) =
      m := by
    rw [hworth, Nat.add_mul, hrest, Nat.mul_assoc, ← hpow]
    omega
  have hnone : ofDecimal (wholeDigits (m / 10 ^ 8) ++ unitDigits u (m % 10 ^ 8)) = 0 →
      (wholeDigits (m / 10 ^ 8) ++ unitDigits u (m % 10 ^ 8)).length ≤ u := by
    intro hzero
    rw [hzero, Nat.zero_mul] at hvalue
    rw [← hvalue] at hlength ⊢
    rw [List.length_append, hlength]
    exact Nat.le_of_eq (Nat.zero_add u)
  obtain ⟨hfits, hscaled⟩ := fits_of_value (by omega) hvalue (by omega) hnone
  have hshort : (pointText (m / 10 ^ 8) (unitDigits u (m % 10 ^ 8))).length < 2 ^ 31 := by
    have hwhole := @decimal_length_le (m / 10 ^ 8) 10 (by omega) (by omega)
    rw [pointText, List.length_append]
    split
    · rw [List.length_nil]
      omega
    · rw [List.length_cons, hlength]
      omega
  have hread := @readNumeral_pointText (m / 10 ^ 8) _ hdigits
  rw [hlength] at hread
  rw [parseFixedPoint_ok, beforeEnd_eq hshort]
  refine ⟨_, hread, hfits, ?_⟩
  have height : (8 : Int32).toInt = 8 := rfl
  rw [height, hscaled, ← hm, Int64.ofInt_toInt]

/-- **Amounts and their text.**  Every amount in range is read back from its text, in coins and in
any units that can write it.  `ParseFixedPoint` overflows on no string, and reads the number that
the string is exactly where `end` is not short of it. -/
theorem amountText_exact (val : Bytes) (decimals : Int32) :
    (∀ n : CAmount, moneyRange n = true → parseMoney (formatMoney n) = some n) ∧
    (∀ (n : CAmount) (units : Int8), moneyRange n = true → 0 ≤ units.toInt → units.toInt ≤ 8 →
      ((10 ^ (8 - units.toInt).toNat : ℕ) : ℤ) ∣ n.toInt →
        parseFixedPoint (valueFromAmountString n units) 8 = .ok n) ∧
    parseFixedPoint val decimals ≠ .error .signedOverflow ∧
    ((∀ amount, parseFixedPoint val decimals = .ok amount →
        ∃ x, readNumeral val = some x ∧ (amount.toInt : ℚ) = x.value * 10 ^ decimals.toInt) ↔
      ReadsWhole val decimals.toInt) :=
  ⟨fun _ => parseMoney_formatMoney, fun _ _ => parseFixedPoint_valueFromAmountString,
    parseFixedPoint_no_overflow val decimals, parseFixedPoint_exact val decimals⟩

end UnemployCoin
