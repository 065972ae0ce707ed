import UnemployCoin.ScriptEncoding
import UnemployCoin.TransactionFormat
/-!
# Script numbers

`CScriptNum` (`script/script.h`) keeps an `int64_t` and writes it as its absolute value,
little-endian, with the sign in the top bit of the last byte.  `set_vch` puts the value together
with shifts, and under `SCRIPT_VERIFY_MINIMALDATA` the constructor refuses what is not of the fewest
bytes. -/

namespace UnemployCoin

open Check

/-- The loop of `set_vch`, from byte `i` on. -/
def orBytes : ℕ → BitVec 64 → Bytes → BitVec 64
  | _, result, [] => result
  | i, result, b :: vch => orBytes (i + 1) (result ||| b.toBitVec.setWidth 64 <<< (8 * i)) vch

/-- `CScriptNum::set_vch`, on 64 bits. -/
def setVchInt64 (vch : Bytes) : Int64 :=
  if vch.isEmpty then 0
  else
    let result := orBytes 0 0 vch
    if vch.back &&& 0x80 != 0 then
      -Int64.ofBitVec (result &&& ~~~((0x80 : BitVec 64) <<< (8 * (vch.length - 1))))
    else Int64.ofBitVec result

variable {vch s : Bytes} {b c : UInt8} {i n v : ℕ}

theorem toNat_orBytes {result : BitVec 64} (hresult : result.toNat < 256 ^ i)
    (hi : i + vch.length ≤ 8) :
    (orBytes i result vch).toNat = result.toNat + 256 ^ i * readLE vch := by
  induction vch generalizing i result with
  | nil => simp [orBytes, readLE]
  | cons b vch ih =>
    rw [List.length_cons] at hi
    have hpow : (256 : ℕ) ^ i = 2 ^ (8 * i) := by rw [Nat.pow_mul]
    have hfits : b.toNat * 256 ^ i + 256 ^ i ≤ 256 ^ (i + 1) := by
      rw [pow_succ, ← Nat.succ_mul, Nat.mul_comm]
      exact Nat.mul_le_mul_left _ b.toNat_lt
    have hle : (256 : ℕ) ^ (i + 1) ≤ 256 ^ 8 := Nat.pow_le_pow_right (by omega) (by omega)
    have hbyte : (b.toBitVec.setWidth 64 <<< (8 * i)).toNat = 256 ^ i * b.toNat := by
      rw [BitVec.toNat_shiftLeft, BitVec.toNat_setWidth, Nat.shiftLeft_eq, ← hpow,
        UInt8.toNat_toBitVec, Nat.mod_eq_of_lt (b.toNat_lt.trans (by decide)), Nat.mod_eq_of_lt,
        Nat.mul_comm]
      omega
    -- The bits that are there and the byte that comes in do not meet.
    have hsum : (result ||| b.toBitVec.setWidth 64 <<< (8 * i)).toNat =
        result.toNat + 256 ^ i * b.toNat := by
      rw [BitVec.toNat_or, hbyte, Nat.or_comm, hpow,
        ← Nat.two_pow_add_eq_or_of_lt (by rwa [hpow] at hresult), Nat.add_comm]
    rw [orBytes, ih (by rw [hsum, Nat.mul_comm]; omega) (by omega), hsum, readLE, pow_succ,
      Nat.mul_add, Nat.mul_assoc, Nat.add_assoc]

/-- The highest bit is taken out. -/
theorem toNat_clear {x : BitVec 64} {k : ℕ} (hk : k < 64) (hhigh : x.toNat < 2 ^ (k + 1)) :
    (x &&& ~~~(BitVec.twoPow 64 k)).toNat = x.toNat % 2 ^ k := by
  have hbits : x &&& ~~~(BitVec.twoPow 64 k) = BitVec.ofNat 64 (x.toNat % 2 ^ k) := by
    apply BitVec.eq_of_getLsbD_eq
    intro j hj
    have hbit : x.getLsbD j = x.toNat.testBit j := rfl
    simp only [BitVec.getLsbD_and, BitVec.getLsbD_not, BitVec.getLsbD_twoPow, BitVec.getLsbD_ofNat,
      Nat.testBit_mod_two_pow, hbit, hj, hk, decide_true, Bool.true_and]
    rcases Nat.lt_trichotomy j k with hlt | heq | hgt
    · simp [hlt, hlt.ne']
    · simp [heq]
    · have hzero : x.toNat.testBit j = false :=
        Nat.testBit_lt_two_pow (hhigh.trans_le (Nat.pow_le_pow_right (by omega) hgt))
      simp [hzero]
  rw [hbits, BitVec.toNat_ofNat, Nat.mod_eq_of_lt ((Nat.mod_le _ _).trans_lt x.isLt)]

/-! ## The bytes of a number -/

theorem forall_byte {p : UInt8 → Prop} (h : ∀ n : Fin 256, p (UInt8.ofNat n)) (b : UInt8) :
    p b := by
  simpa using h ⟨b.toNat, b.toNat_lt⟩

/-- The sign bit of a byte and the seven others. -/
theorem byte_bits : ∀ b : UInt8,
    (b &&& 0x80 != 0) = decide (128 ≤ b.toNat) ∧ (b &&& 0x7f).toNat = b.toNat % 128 ∧
      (b &&& 0x7f != 0) = decide (b.toNat % 128 ≠ 0) ∧
      (b.toNat < 128 → (b ||| 0x80).toNat = b.toNat + 128) ∧
      (128 ≤ b.toNat → b &&& 0x7f ||| 0x80 = b) :=
  forall_byte (by decide +kernel)

theorem top_bit (b : UInt8) : (b &&& 0x80 != 0) = decide (128 ≤ b.toNat) := (byte_bits b).1

theorem low_bits (b : UInt8) : (b &&& 0x7f).toNat = b.toNat % 128 := (byte_bits b).2.1

theorem low_bits_ne_zero (b : UInt8) : (b &&& 0x7f != 0) = decide (b.toNat % 128 ≠ 0) :=
  (byte_bits b).2.2.1

theorem set_top_bit (b : UInt8) : b.toNat < 128 → (b ||| 0x80).toNat = b.toNat + 128 :=
  (byte_bits b).2.2.2.1

theorem or_low_bits (b : UInt8) : 128 ≤ b.toNat → b &&& 0x7f ||| 0x80 = b :=
  (byte_bits b).2.2.2.2

theorem back_concat : Bytes.back (s ++ [b]) = b := by simp [Bytes.back, Bytes.at]

theorem at_concat : Bytes.at (s ++ [c] ++ [b]) ((s ++ [c] ++ [b]).length - 2) = c := by
  simp [Bytes.at]

theorem readLE_concat : readLE (s ++ [b]) = readLE s + 256 ^ s.length * b.toNat := by
  induction s with
  | nil => simp [readLE]
  | cons a s ih =>
    rw [List.cons_append, readLE, ih, readLE, List.length_cons, pow_succ, Nat.mul_add,
      Nat.add_assoc, Nat.mul_comm _ 256, Nat.mul_assoc]

/-- **The sign is the top bit**, and the other bits are the absolute value. -/
theorem setVch_concat : setVch (s ++ [b]) =
    (if 128 ≤ b.toNat then -1 else 1) *
      ((readLE s + 256 ^ s.length * (b.toNat % 128) : ℕ) : ℤ) := by
  have hbyte := b.toNat_lt
  rw [setVch, if_neg (by simp), back_concat, top_bit, readLE_concat]
  by_cases htop : 128 ≤ b.toNat
  · have hsplit : 256 ^ s.length * b.toNat =
        0x80 * 256 ^ s.length + 256 ^ s.length * (b.toNat % 128) := by
      rw [Nat.mul_comm 0x80, ← Nat.mul_add]
      congr 1
      omega
    simp only [htop, decide_true, if_true, hsplit, List.length_append, List.length_singleton,
      Nat.add_sub_cancel]
    rw [neg_one_mul]
    congr 2
    omega
  · simp only [htop, decide_false, Bool.false_eq_true, if_false, one_mul]
    rw [Nat.mod_eq_of_lt (by omega)]

theorem isMinimalNum_concat : isMinimalNum (s ++ [b]) = true ↔
    b.toNat % 128 ≠ 0 ∨ ∃ t c, s = t ++ [c] ∧ 128 ≤ c.toNat := by
  rw [isMinimalNum, back_concat, low_bits_ne_zero]
  rcases List.eq_nil_or_concat s with rfl | ⟨t, c, rfl⟩
  · simp
  · rw [List.concat_eq_append, at_concat, top_bit]
    simp

def Trimmed (s : Bytes) : Prop := s.getLast? ≠ some 0

theorem Trimmed.tail {a : UInt8} (hs : Trimmed (a :: s)) : Trimmed s := by
  cases s with
  | nil => exact fun h => nomatch h
  | cons b s => rwa [Trimmed, List.getLast?_cons_cons] at hs

theorem trimmed_concat : Trimmed (s ++ [b]) ↔ b.toNat ≠ 0 := by
  rw [Trimmed, List.getLast?_concat, ne_eq, Option.some.injEq, ← UInt8.toNat_inj]
  rfl

theorem readLE_pos (hs : Trimmed s) (hne : s ≠ []) : 0 < readLE s := by
  rcases List.eq_nil_or_concat s with rfl | ⟨t, c, rfl⟩
  · exact absurd rfl hne
  · rw [List.concat_eq_append] at hs ⊢
    have hpos : 0 < 256 ^ t.length * c.toNat :=
      Nat.mul_pos (Nat.pow_pos (by omega)) (Nat.pos_of_ne_zero (trimmed_concat.1 hs))
    rw [readLE_concat]
    omega

/-- Bytes without a zero byte at the end are those of their number. -/
theorem absBytes_readLE (hs : Trimmed s) (hlength : s.length ≤ n) : absBytes n (readLE s) = s := by
  induction s generalizing n with
  | nil => cases n <;> rfl
  | cons a s ih =>
    rw [List.length_cons] at hlength
    obtain ⟨m, rfl⟩ : ∃ m, n = m + 1 := ⟨n - 1, by omega⟩
    have hpos := readLE_pos hs (List.cons_ne_nil a s)
    have hbyte := a.toNat_lt
    rw [readLE] at hpos ⊢
    rw [absBytes, if_neg hpos.ne', show (a.toNat + 256 * readLE s) / 256 = readLE s by omega,
      show (a.toNat + 256 * readLE s) % 256 = a.toNat by omega, UInt8.ofNat_toNat,
      ih hs.tail (by omega)]

theorem trimmed_absBytes (hv : v < 256 ^ n) : Trimmed (absBytes n v) := by
  induction n generalizing v with
  | zero => exact (Option.some_ne_none _).symm
  | succ n ih =>
    rw [absBytes]
    split
    · exact (Option.some_ne_none _).symm
    · rename_i hne
      have hrest : v / 256 < 256 ^ n := Nat.div_lt_of_lt_mul (by rwa [Nat.mul_comm, ← pow_succ])
      cases hbytes : absBytes n (v / 256) with
      | nil =>
        have hzero := readLE_absBytes hrest
        rw [hbytes, readLE] at hzero
        rw [← List.nil_append [_], trimmed_concat, UInt8.toNat_ofNat']
        omega
      | cons a s =>
        rw [Trimmed, List.getLast?_cons_cons, ← hbytes]
        exact ih hrest

/-! ## One encoding for each number -/

/-- The bytes of an absolute value with a sign. -/
theorem serializeScriptNum_eq {value : ℤ} (habs : absBytes 8 value.natAbs = s ++ [c]) :
    serializeScriptNum value =
      if 128 ≤ c.toNat then s ++ [c] ++ [if value < 0 then 0x80 else 0]
      else if value < 0 then s ++ [c ||| 0x80] else s ++ [c] := by
  rw [serializeScriptNum, habs, List.getLast?_concat]
  simp [top_bit]

/-- A number is read back, from bytes that are minimal. -/
theorem serialize_read {value : ℤ} (hvalue : value.natAbs < 2 ^ 63) :
    setVch (serializeScriptNum value) = value ∧ isMinimalNum (serializeScriptNum value) = true ∧
      (serializeScriptNum value).length ≤ 8 := by
  have hbound : value.natAbs < 256 ^ 8 := by omega
  have hread := readLE_absBytes hbound
  have htrim := trimmed_absBytes hbound
  have hlength := length_absBytes 8 value.natAbs
  rcases List.eq_nil_or_concat (absBytes 8 value.natAbs) with habs | ⟨s, c, habs⟩
  · rw [habs] at hread
    rw [Int.natAbs_eq_zero.1 hread.symm]
    decide
  · rw [List.concat_eq_append] at habs
    rw [habs, trimmed_concat] at htrim
    rw [habs, readLE_concat] at hread
    rw [habs, List.length_append, List.length_singleton] at hlength
    rw [serializeScriptNum_eq habs]
    by_cases htop : 128 ≤ c.toNat
    · -- The last byte is taken, so that there is room for one more.
      have hroom : s.length < 7 := by
        have htaken := Nat.mul_le_mul_left (256 ^ s.length) htop
        exact (Nat.pow_lt_pow_iff_right (show 1 < 256 by omega)).1 (by omega)
      rw [if_pos htop]
      refine ⟨?_, isMinimalNum_concat.2 (Or.inr ⟨s, c, rfl, htop⟩), by simp; omega⟩
      by_cases hneg : value < 0
      · rw [if_pos hneg, setVch_concat, if_pos (by decide), readLE_concat, hread]
        simp only [UInt8.reduceToNat, Nat.reduceMod, Nat.mul_zero, Nat.add_zero]
        omega
      · rw [if_neg hneg, setVch_concat, if_neg (by decide), readLE_concat, hread]
        simp only [UInt8.reduceToNat, Nat.reduceMod, Nat.mul_zero, Nat.add_zero]
        omega
    · rw [if_neg htop]
      by_cases hneg : value < 0
      · have hset := set_top_bit c (by omega)
        rw [if_pos hneg]
        refine ⟨?_, isMinimalNum_concat.2 (Or.inl (by omega)), by simp; omega⟩
        rw [setVch_concat, hset, if_pos (by omega), Nat.add_mod_right,
          Nat.mod_eq_of_lt (by omega), hread]
        omega
      · rw [if_neg hneg]
        refine ⟨?_, isMinimalNum_concat.2 (Or.inl (by omega)), by simp; omega⟩
        rw [setVch_concat, if_neg htop, Nat.mod_eq_of_lt (by omega), hread]
        omega

theorem natAbs_setVch : (setVch (s ++ [b])).natAbs =
    readLE s + 256 ^ s.length * (b.toNat % 128) := by
  rw [setVch_concat, Int.natAbs_mul, Int.natAbs_natCast]
  split <;> simp

theorem setVch_neg (hpos : 0 < readLE s + 256 ^ s.length * (b.toNat % 128)) :
    setVch (s ++ [b]) < 0 ↔ 128 ≤ b.toNat := by
  rw [setVch_concat]
  split <;> omega

/-- What is minimal is what is written. -/
theorem read_serialize (hlength : vch.length ≤ 8) (hmin : isMinimalNum vch = true) :
    serializeScriptNum (setVch vch) = vch := by
  rcases List.eq_nil_or_concat vch with rfl | ⟨s, b, rfl⟩
  · rfl
  · rw [List.concat_eq_append] at hlength hmin ⊢
    rw [List.length_append, List.length_singleton] at hlength
    by_cases hlow : b.toNat % 128 = 0
    · obtain ⟨t, c, rfl, htop⟩ := (isMinimalNum_concat.1 hmin).resolve_left (by simpa using hlow)
      have htrim : Trimmed (t ++ [c]) := trimmed_concat.2 (by omega)
      have habs : absBytes 8 (setVch (t ++ [c] ++ [b])).natAbs = t ++ [c] := by
        rw [natAbs_setVch, hlow, Nat.mul_zero, Nat.add_zero, absBytes_readLE htrim (by omega)]
      have hpos := readLE_pos htrim (by simp)
      have hbyte := b.toNat_lt
      rw [serializeScriptNum_eq habs, if_pos htop]
      congr 2
      by_cases hneg : 128 ≤ b.toNat
      · rw [if_pos ((setVch_neg (by omega)).2 hneg), ← UInt8.toNat_inj]
        simp only [UInt8.reduceToNat]
        omega
      · rw [if_neg (mt (setVch_neg (by omega)).1 hneg), ← UInt8.toNat_inj]
        simp only [UInt8.reduceToNat]
        omega
    · have htrim : Trimmed (s ++ [b &&& 0x7f]) := trimmed_concat.2 (by rwa [low_bits])
      have habs : absBytes 8 (setVch (s ++ [b])).natAbs = s ++ [b &&& 0x7f] := by
        rw [natAbs_setVch, ← low_bits, ← readLE_concat,
          absBytes_readLE htrim (by simpa using hlength)]
      have hpos := readLE_pos htrim (by simp)
      rw [readLE_concat, low_bits] at hpos
      rw [serializeScriptNum_eq habs, if_neg (by rw [low_bits]; omega)]
      by_cases hneg : 128 ≤ b.toNat
      · rw [if_pos ((setVch_neg hpos).2 hneg), or_low_bits b hneg]
      · have hsame : b &&& 0x7f = b := by
          rw [← UInt8.toNat_inj, low_bits, Nat.mod_eq_of_lt (by omega)]
        rw [if_neg (mt (setVch_neg hpos).1 hneg), hsame]

theorem magnitude_lt : readLE s + 256 ^ s.length * (b.toNat % 128) < 128 * 256 ^ s.length := by
  have hread := readLE_lt s
  have hbits := Nat.mul_le_mul_left (256 ^ s.length) (show b.toNat % 128 ≤ 127 by omega)
  omega

theorem natAbs_setVch_lt (hlength : vch.length ≤ 8) : (setVch vch).natAbs < 2 ^ 63 := by
  rcases List.eq_nil_or_concat vch with rfl | ⟨s, b, rfl⟩
  · decide
  · rw [List.concat_eq_append] at hlength ⊢
    rw [List.length_append, List.length_singleton] at hlength
    have hle : (256 : ℕ) ^ s.length ≤ 256 ^ 7 := Nat.pow_le_pow_right (by omega) (by omega)
    rw [natAbs_setVch]
    exact magnitude_lt.trans_le (by omega)

theorem toInt_ofBitVec {x : BitVec 64} (hx : x.toNat < 2 ^ 63) :
    (Int64.ofBitVec x).toInt = x.toNat := by
  rw [Int64.toInt_ofBitVec, BitVec.toInt_eq_toNat_of_lt (by omega)]

/-- **The shifts put the number together.** -/
theorem toInt_setVchInt64 (hlength : vch.length ≤ 8) : (setVchInt64 vch).toInt = setVch vch := by
  rcases List.eq_nil_or_concat vch with rfl | ⟨s, b, rfl⟩
  · rfl
  · rw [List.concat_eq_append] at hlength ⊢
    have hor : (orBytes 0 0 (s ++ [b])).toNat = readLE s + 256 ^ s.length * b.toNat := by
      rw [toNat_orBytes (by simp) (by omega), readLE_concat]
      simp
    rw [List.length_append, List.length_singleton] at hlength
    have hbyte := b.toNat_lt
    have hmagnitude : readLE s + 256 ^ s.length * (b.toNat % 128) < 128 * 256 ^ s.length :=
      magnitude_lt
    have hle : (256 : ℕ) ^ s.length ≤ 256 ^ 7 := Nat.pow_le_pow_right (by omega) (by omega)
    rw [setVchInt64, if_neg (by simp), setVch_concat, back_concat, top_bit]
    dsimp only
    by_cases htop : 128 ≤ b.toNat
    · have hpow : (2 : ℕ) ^ (7 + 8 * s.length) = 128 * 256 ^ s.length := by
        rw [Nat.pow_add, Nat.pow_mul]
      have hmask : (0x80 : BitVec 64) <<< (8 * ((s ++ [b]).length - 1)) =
          BitVec.twoPow 64 (7 + 8 * s.length) := by
        rw [BitVec.twoPow, BitVec.shiftLeft_add, List.length_append, List.length_singleton,
          Nat.add_sub_cancel]
        rfl
      have hsplit : readLE s + 256 ^ s.length * b.toNat =
          readLE s + 256 ^ s.length * (b.toNat % 128) + 128 * 256 ^ s.length := by
        rw [Nat.mul_comm 128, Nat.add_assoc, ← Nat.mul_add]
        congr 2
        omega
      have hclear : (orBytes 0 0 (s ++ [b]) &&& ~~~BitVec.twoPow 64 (7 + 8 * s.length)).toNat =
          readLE s + 256 ^ s.length * (b.toNat % 128) := by
        rw [toNat_clear (by omega) (by rw [hor, Nat.pow_succ, hpow]; omega), hor, hpow, hsplit,
          Nat.add_mod_right, Nat.mod_eq_of_lt hmagnitude]
      simp only [htop, decide_true, if_true, hmask]
      rw [Int64.toInt_neg, toInt_ofBitVec (by omega), hclear,
        Int.bmod_eq_of_le (by omega) (by omega)]
      omega
    · rw [Nat.mod_eq_of_lt (by omega)] at hmagnitude ⊢
      simp only [htop, decide_false, Bool.false_eq_true, if_false, one_mul]
      rw [toInt_ofBitVec (by omega), hor]

/-- **A number has one encoding**: what is written is minimal and is read back, what is minimal is
what is written, and where minimal data is asked for, numbers that are equal have equal bytes. -/
theorem scriptNum_exact :
    (∀ n : Int64, n ≠ Int64.minValue → setVchInt64 (serializeScriptNum n.toInt) = n ∧
      isMinimalNum (serializeScriptNum n.toInt) = true) ∧
    (∀ vch : Bytes, vch.length ≤ 8 →
      (isMinimalNum vch = true ↔ vch = serializeScriptNum (setVchInt64 vch).toInt)) ∧
    ∀ flags nMaxNumSize vch vch' n, nMaxNumSize ≤ 8 →
      hasFlag flags SCRIPT_VERIFY_MINIMALDATA = true → scriptNum flags nMaxNumSize vch = .ok n →
      scriptNum flags nMaxNumSize vch' = .ok n → vch = vch' := by
  refine ⟨?_, ?_, ?_⟩
  · intro n hn
    have hlow := n.le_toInt
    have hhigh := n.toInt_lt
    have hmin : n.toInt ≠ -2 ^ 63 := by
      rw [← Int64.toInt_minValue]
      exact mt Int64.toInt_inj.1 hn
    obtain ⟨hread, hminimal, hlength⟩ := serialize_read (show n.toInt.natAbs < 2 ^ 63 by omega)
    refine ⟨?_, hminimal⟩
    rw [← Int64.toInt_inj, toInt_setVchInt64 hlength, hread]
  · intro vch hlength
    rw [toInt_setVchInt64 hlength]
    refine ⟨fun hmin => (read_serialize hlength hmin).symm, fun heq => ?_⟩
    rw [heq]
    refine (serialize_read ?_).2.1
    exact natAbs_setVch_lt hlength
  · intro flags nMaxNumSize vch vch' n hsize hflag h h'
    simp only [scriptNum, require_bind, hflag, Bool.not_true, Bool.false_or,
      decide_eq_true_eq] at h h'
    obtain ⟨hlength, hmin, hn⟩ := h
    obtain ⟨hlength', hmin', hn'⟩ := h'
    rw [← read_serialize (hlength.trans hsize) hmin, ← read_serialize (hlength'.trans hsize) hmin',
      Except.ok.inj hn, Except.ok.inj hn']

end UnemployCoin
