import Mathlib.Data.Nat.Bitwise
import UnemployCoin.BaseUint
import UnemployCoin.HeaderIndex
/-!
# Compact targets

`SetCompact`, `GetCompact` (`arith_uint256.cpp`) and `GetBlockProof` (`chain.cpp`) on the limbs, and
the numbers that they stand for.

A compact target has a size in bytes and a mantissa of 23 bits, below the sign bit.
-/

namespace UnemployCoin

/-! ## On the limbs -/

namespace BaseUint

def setCompact (nCompact : UInt32) : BaseUint × Bool × Bool :=
  let nSize := (nCompact >>> 24).toNat
  let nWord₀ := nCompact &&& 0x007fffff
  let nWord := if nSize ≤ 3 then nWord₀ >>> (UInt32.ofNat (8 * (3 - nSize))) else nWord₀
  let target := ofUInt64 nWord.toUInt64.toBitVec
  (if nSize ≤ 3 then target else target.shl (8 * (nSize - 3)),
    nWord != 0 && (nCompact &&& 0x00800000) != 0,
    nWord != 0 && (decide (nSize > 34) || (decide (nWord > 0xff) && decide (nSize > 33)) ||
      (decide (nWord > 0xffff) && decide (nSize > 32))))

def getCompact (a : BaseUint) (fNegative : Bool) : UInt32 :=
  let nSize := (a.bits + 7) / 8
  let nCompact : UInt32 :=
    if nSize ≤ 3 then ⟨(a.getLow64 <<< (8 * (3 - nSize))).setWidth 32⟩
    else ⟨(a.shr (8 * (nSize - 3))).getLow64.setWidth 32⟩
  -- A mantissa with the sign bit set goes one byte down.
  let (nCompact, nSize) :=
    if nCompact &&& 0x00800000 ≠ 0 then (nCompact >>> 8, nSize + 1) else (nCompact, nSize)
  let nCompact := nCompact ||| UInt32.ofNat (nSize * 2 ^ 24)
  nCompact ||| if fNegative ∧ nCompact &&& 0x007fffff ≠ 0 then 0x00800000 else 0

def getBlockProof (nBits : UInt32) : Except String BaseUint :=
  let (bnTarget, fNegative, fOverflow) := setCompact nBits
  if fNegative || fOverflow || bnTarget.equalTo 0 then .ok (ofUInt64 0)
  else (bnTarget.not.div (bnTarget.add (ofUInt64 1))).map fun q => q.add (ofUInt64 1)

/-- **`SetCompact`** on the limbs. -/
theorem setCompact_eq (nCompact : UInt32) :
    ((setCompact nCompact).1.toBitVec, (setCompact nCompact).2) =
      UnemployCoin.setCompact nCompact := by
  have hword : ∀ nWord : UInt32, (ofUInt64 nWord.toUInt64.toBitVec).toBitVec =
      BitVec.ofNat 256 nWord.toNat := by
    intro nWord
    refine BitVec.eq_of_toNat_eq ?_
    rw [toBitVec_ofUInt64, BitVec.toNat_setWidth, BitVec.toNat_ofNat]
    rfl
  rw [setCompact, UnemployCoin.setCompact]
  refine Prod.ext ?_ rfl
  simp only
  split
  · exact hword _
  · rw [toBitVec_shl, hword]

/-- **`GetCompact`** on the limbs. -/
theorem getCompact_eq (a : BaseUint) : a.getCompact false = UnemployCoin.getCompact a.toBitVec := by
  have hlow : ∀ k : ℕ, (⟨(a.getLow64 <<< k).setWidth 32⟩ : UInt32) =
      UInt32.ofNat (a.toBitVec.toNat * 2 ^ k) := by
    intro k
    refine UInt32.toNat_inj.1 ?_
    show ((a.getLow64 <<< k).setWidth 32).toNat = a.toBitVec.toNat * 2 ^ k % 2 ^ 32
    rw [getLow64_eq, BitVec.toNat_setWidth, BitVec.toNat_shiftLeft, BitVec.toNat_setWidth,
      Nat.shiftLeft_eq, Nat.mod_mod_of_dvd _ (Nat.pow_dvd_pow 2 (by omega)), Nat.mul_mod,
      Nat.mod_mod_of_dvd _ (Nat.pow_dvd_pow 2 (by omega)), ← Nat.mul_mod]
  have hhigh : ∀ k : ℕ, (⟨(a.shr k).getLow64.setWidth 32⟩ : UInt32) =
      UInt32.ofNat (a.toBitVec.toNat / 2 ^ k) := by
    intro k
    refine UInt32.toNat_inj.1 ?_
    show ((a.shr k).getLow64.setWidth 32).toNat = a.toBitVec.toNat / 2 ^ k % 2 ^ 32
    rw [getLow64_eq, toBitVec_shr, BitVec.toNat_setWidth, BitVec.toNat_setWidth,
      BitVec.toNat_ushiftRight, Nat.shiftRight_eq_div_pow,
      Nat.mod_mod_of_dvd _ (Nat.pow_dvd_pow 2 (by omega))]
  have hzero : ∀ x : UInt32, x ||| 0 = x := fun x => UInt32.or_zero
  rw [getCompact, UnemployCoin.getCompact, bits_eq]
  simp only [hlow, hhigh, Bool.false_eq_true, false_and, if_false, hzero]
  split <;> split <;> rfl

end BaseUint

/-! ## The numbers -/

section Numbers

variable {nCompact : UInt32} {n : arith_uint256}

def compactSize (nCompact : UInt32) : ℕ := nCompact.toNat / 2 ^ 24

def compactMantissa (nCompact : UInt32) : ℕ := nCompact.toNat % 2 ^ 23

def compactValue (nCompact : UInt32) : ℕ :=
  if compactSize nCompact ≤ 3 then
    compactMantissa nCompact / 2 ^ (8 * (3 - compactSize nCompact))
  else compactMantissa nCompact * 2 ^ (8 * (compactSize nCompact - 3))

theorem compactMantissa_lt (nCompact : UInt32) : compactMantissa nCompact < 2 ^ 23 :=
  Nat.mod_lt _ (by omega)

theorem toNat_shift_eq (nCompact : UInt32) : (nCompact >>> 24).toNat = compactSize nCompact := by
  rw [UInt32.toNat_shiftRight, compactSize, Nat.shiftRight_eq_div_pow]
  rfl

theorem toNat_mantissa_eq (nCompact : UInt32) :
    (nCompact &&& 0x007fffff).toNat = compactMantissa nCompact := by
  rw [UInt32.toNat_and, compactMantissa]
  exact Nat.and_two_pow_sub_one_eq_mod nCompact.toNat 23

theorem signBit_iff : nCompact &&& 0x00800000 ≠ 0 ↔ nCompact.toNat.testBit 23 = true := by
  have hbit : (nCompact &&& 0x00800000).toNat = 2 ^ 23 * (nCompact.toNat.testBit 23).toNat := by
    rw [UInt32.toNat_and]
    exact (Nat.and_two_pow nCompact.toNat 23).trans (Nat.mul_comm _ _)
  rw [ne_eq, ← UInt32.toNat_inj, hbit]
  cases nCompact.toNat.testBit 23 <;> simp

/-- `nWord`, once it was shifted. -/
def compactWord (nCompact : UInt32) : ℕ :=
  if compactSize nCompact ≤ 3 then
    compactMantissa nCompact / 2 ^ (8 * (3 - compactSize nCompact))
  else compactMantissa nCompact

theorem toNat_compactWord (nCompact : UInt32) :
    (if compactSize nCompact ≤ 3 then
      (nCompact &&& 0x007fffff) >>> UInt32.ofNat (8 * (3 - compactSize nCompact))
      else nCompact &&& 0x007fffff).toNat = compactWord nCompact := by
  rw [compactWord]
  split
  · have hshift : (UInt32.ofNat (8 * (3 - compactSize nCompact))).toNat % 32 =
        8 * (3 - compactSize nCompact) := by
      rw [UInt32.toNat_ofNat']
      omega
    rw [UInt32.toNat_shiftRight, hshift, toNat_mantissa_eq, Nat.shiftRight_eq_div_pow]
  · exact toNat_mantissa_eq nCompact

theorem compactWord_ne_zero : compactWord nCompact ≠ 0 ↔ compactValue nCompact ≠ 0 := by
  rw [compactWord, compactValue]
  split
  · rfl
  · rw [ne_eq, ne_eq, Nat.mul_eq_zero, or_iff_left (Nat.two_pow_pos _).ne']

/-- **The overflow flag** of `SetCompact`. -/
theorem le_compactValue_iff : 2 ^ 256 ≤ compactValue nCompact ↔
    compactWord nCompact ≠ 0 ∧ (compactSize nCompact > 34 ∨
      compactWord nCompact > 0xff ∧ compactSize nCompact > 33 ∨
      compactWord nCompact > 0xffff ∧ compactSize nCompact > 32) := by
  have hlt := compactMantissa_lt nCompact
  rw [compactWord, compactValue]
  split
  · rename_i hsize
    have hle := Nat.div_le_self (compactMantissa nCompact) (2 ^ (8 * (3 - compactSize nCompact)))
    constructor <;> omega
  · rename_i hsize
    rcases Nat.lt_or_ge (compactSize nCompact) 33 with hsmall | hlarge
    · have hpow : 2 ^ (8 * (compactSize nCompact - 3)) ≤ 2 ^ 232 :=
        Nat.pow_le_pow_right (by omega) (by omega)
      have hmul := Nat.mul_le_mul (Nat.le_of_lt hlt) hpow
      constructor <;> omega
    · rcases Nat.lt_or_ge (compactSize nCompact) 35 with hsmall | hhuge
      · obtain hsize | hsize : compactSize nCompact = 33 ∨ compactSize nCompact = 34 := by omega
        · rw [hsize]
          constructor <;> omega
        · rw [hsize]
          constructor <;> omega
      · have hpow : 2 ^ 256 ≤ 2 ^ (8 * (compactSize nCompact - 3)) :=
          Nat.pow_le_pow_right (by omega) (by omega)
        constructor
        · intro hle
          refine ⟨fun hzero => ?_, Or.inl (by omega)⟩
          rw [hzero, Nat.zero_mul] at hle
          omega
        · rintro ⟨hne, -⟩
          exact hpow.trans (Nat.le_mul_of_pos_left _ (Nat.pos_of_ne_zero hne))

theorem setCompact_numbers (nCompact : UInt32) :
    (setCompact nCompact).1.toNat = compactValue nCompact % 2 ^ 256 ∧
      ((setCompact nCompact).2.1 = true ↔
        compactValue nCompact ≠ 0 ∧ nCompact.toNat.testBit 23 = true) ∧
      ((setCompact nCompact).2.2 = true ↔ 2 ^ 256 ≤ compactValue nCompact) := by
  have hword := toNat_compactWord nCompact
  rw [setCompact]
  simp only [toNat_shift_eq]
  generalize (if compactSize nCompact ≤ 3 then
    (nCompact &&& 0x007fffff) >>> UInt32.ofNat (8 * (3 - compactSize nCompact))
    else nCompact &&& 0x007fffff) = nWord at hword ⊢
  have hzero : nWord ≠ 0 ↔ compactWord nCompact ≠ 0 := by
    rw [← hword, ne_eq, ne_eq, ← UInt32.toNat_inj]
    rfl
  have hgt : ∀ k : UInt32, nWord > k ↔ compactWord nCompact > k.toNat := by
    intro k
    rw [← hword]
    exact UInt32.lt_iff_toNat_lt
  refine ⟨?_, ?_, ?_⟩
  · rw [compactValue, hword, compactWord]
    split
    · rw [BitVec.toNat_ofNat]
    · rw [BitVec.toNat_shiftLeft, BitVec.toNat_ofNat, Nat.shiftLeft_eq, Nat.mod_mul_mod]
  · rw [← signBit_iff, ← compactWord_ne_zero, ← hzero]
    simp
  · rw [le_compactValue_iff]
    simp only [Bool.and_eq_true, bne_iff_ne, Bool.or_eq_true, decide_eq_true_eq, hzero, hgt,
      or_assoc]
    rfl

/-! ### `GetCompact` -/

/-- The size that `GetCompact` writes. -/
def bytesOf (n : ℕ) : ℕ := if n = 0 then 0 else Nat.size n / 8 + 1

/-- The three highest of `t` bytes. -/
def topBytes (n t : ℕ) : ℕ := if t ≤ 3 then n * 2 ^ (8 * (3 - t)) else n / 2 ^ (8 * (t - 3))

/-- The mantissa that `GetCompact` writes. -/
def digitsOf (n : ℕ) : ℕ := topBytes n (bytesOf n)

theorem toNat_or_size {x : UInt32} {k : ℕ} (hx : x.toNat < 2 ^ 24) (hk : k < 2 ^ 8) :
    (x ||| UInt32.ofNat (k * 2 ^ 24)).toNat = k * 2 ^ 24 + x.toNat := by
  have hsize : (UInt32.ofNat (k * 2 ^ 24)).toNat = 2 ^ 24 * k := by
    rw [UInt32.toNat_ofNat', Nat.mul_comm]
    omega
  rw [UInt32.toNat_or, hsize, Nat.or_comm, ← Nat.two_pow_add_eq_or_of_lt hx, Nat.mul_comm]

theorem testBit_23 {c : ℕ} (hc : c < 2 ^ 24) : c.testBit 23 = true ↔ 2 ^ 23 ≤ c := by
  rw [Nat.testBit_eq_decide_div_mod_eq, decide_eq_true_eq]
  omega

theorem topBytes_lt {m t z r : ℕ} (hm : m < 2 ^ z) (hz : z + r = 8 * t) (hr : r ≤ 24) :
    topBytes m t < 2 ^ (24 - r) := by
  rw [topBytes]
  split
  · rename_i ht
    have hmul := Nat.mul_lt_mul_of_pos_right hm (Nat.two_pow_pos (8 * (3 - t)))
    have hexp : z + 8 * (3 - t) = 24 - r := by omega
    rw [← Nat.pow_add, hexp] at hmul
    exact hmul
  · rename_i ht
    have hexp : 24 - r + 8 * (t - 3) = z := by omega
    rw [Nat.div_lt_iff_lt_mul (Nat.two_pow_pos _), ← Nat.pow_add, hexp]
    exact hm

theorem le_topBytes {m t z r : ℕ} (hm : 2 ^ z ≤ m) (hz : z + r = 8 * t) (hr : r ≤ 24) :
    2 ^ (24 - r) ≤ topBytes m t := by
  rw [topBytes]
  split
  · rename_i ht
    have hmul := Nat.mul_le_mul_right (2 ^ (8 * (3 - t))) hm
    have hexp : z + 8 * (3 - t) = 24 - r := by omega
    rw [← Nat.pow_add, hexp] at hmul
    exact hmul
  · rename_i ht
    have hexp : 24 - r + 8 * (t - 3) = z := by omega
    rw [Nat.le_div_iff_mul_le (Nat.two_pow_pos _), ← Nat.pow_add, hexp]
    exact hm

theorem topBytes_succ (m t : ℕ) : topBytes m (t + 1) = topBytes m t / 2 ^ 8 := by
  rw [topBytes, topBytes]
  split
  · rename_i ht
    rw [if_pos (by omega)]
    have hsplit : 8 * (3 - t) = 8 * (3 - (t + 1)) + 8 := by omega
    rw [hsplit, Nat.pow_add, ← Nat.mul_assoc, Nat.mul_div_cancel _ (by omega)]
  · rename_i ht
    split
    · have hthree : t = 3 := by omega
      rw [hthree]
      simp
    · have hsplit : 8 * (t + 1 - 3) = 8 * (t - 3) + 8 := by omega
      rw [hsplit, Nat.pow_add, ← Nat.div_div_eq_div_mul]

/-- **What `GetCompact` returns**, in numbers. -/
theorem toNat_getCompact (n : arith_uint256) :
    (getCompact n).toNat = bytesOf n.toNat * 2 ^ 24 + digitsOf n.toNat ∧
      digitsOf n.toNat < 2 ^ 23 := by
  have hbound : Nat.size n.toNat ≤ 256 := Nat.size_le.2 n.isLt
  have hlt : n.toNat < 2 ^ Nat.size n.toNat := Nat.lt_size_self _
  rw [getCompact]
  generalize ht : (Nat.size n.toNat + 7) / 8 = t
  have htop : topBytes n.toNat t < 2 ^ 24 := by
    have hlt' : n.toNat < 2 ^ (8 * t) :=
      Nat.lt_of_lt_of_le hlt (Nat.pow_le_pow_right (by omega) (by omega))
    exact topBytes_lt hlt' (Nat.add_zero _) (by omega)
  generalize hc : (if t ≤ 3 then UInt32.ofNat (n.toNat * 2 ^ (8 * (3 - t)))
    else UInt32.ofNat (n.toNat / 2 ^ (8 * (t - 3)))) = c
  have hnat : c.toNat = topBytes n.toNat t := by
    have hof : c = UInt32.ofNat (topBytes n.toNat t) := by
      rw [← hc, topBytes]
      split <;> rfl
    rw [hof, UInt32.toNat_ofNat']
    omega
  by_cases hn : n.toNat = 0
  · have hzero : t = 0 := by
      rw [hn] at ht
      exact ht.symm
    have htopzero : topBytes n.toNat t = 0 := by
      rw [hn, topBytes]
      split <;> simp
    rw [htopzero] at hnat
    have hclear : ¬c &&& 0x00800000 ≠ 0 := by
      rw [signBit_iff, hnat]
      decide
    rw [if_neg hclear, toNat_or_size (by omega) (by omega), hnat, hzero, digitsOf, hn, bytesOf,
      if_pos rfl]
    exact ⟨rfl, by decide⟩
  · have hpos : 0 < Nat.size n.toNat := Nat.size_pos.2 (Nat.pos_of_ne_zero hn)
    have hlow : 2 ^ (Nat.size n.toNat - 1) ≤ n.toNat := Nat.lt_size.1 (by omega)
    have hbytes : bytesOf n.toNat = Nat.size n.toNat / 8 + 1 := if_neg hn
    have hsign : c &&& 0x00800000 ≠ 0 ↔ 2 ^ 23 ≤ topBytes n.toNat t := by
      rw [signBit_iff, hnat, testBit_23 htop]
    by_cases hfull : Nat.size n.toNat % 8 = 0
    · -- The highest byte has the sign bit set.
      have hset : 2 ^ 23 ≤ topBytes n.toNat t :=
        le_topBytes hlow (show _ + 1 = _ by omega) (by omega)
      have hdigits : digitsOf n.toNat = topBytes n.toNat t / 2 ^ 8 := by
        have hsucc : bytesOf n.toNat = t + 1 := by omega
        rw [digitsOf, hsucc, topBytes_succ]
      have hshift : (c >>> 8).toNat = digitsOf n.toNat := by
        rw [UInt32.toNat_shiftRight, hnat, hdigits, Nat.shiftRight_eq_div_pow]
        rfl
      rw [if_pos (hsign.2 hset), toNat_or_size (by omega) (by omega), hshift]
      refine ⟨?_, by omega⟩
      have hsucc : bytesOf n.toNat = t + 1 := by omega
      rw [hsucc]
    · have hsame : bytesOf n.toNat = t := by omega
      have hclear : topBytes n.toNat t < 2 ^ 23 := by
        have hlt' : n.toNat < 2 ^ (8 * t - 1) :=
          Nat.lt_of_lt_of_le hlt (Nat.pow_le_pow_right (by omega) (by omega))
        exact topBytes_lt hlt' (show _ + 1 = _ by omega) (by omega)
      rw [if_neg (fun h => by have hset := hsign.1 h; omega), toNat_or_size (by omega) (by omega),
        hnat,
        digitsOf, hsame]
      exact ⟨rfl, hclear⟩

/-! ### There and back -/

theorem fields_getCompact (n : arith_uint256) :
    compactSize (getCompact n) = bytesOf n.toNat ∧
      compactMantissa (getCompact n) = digitsOf n.toNat ∧
      (getCompact n).toNat.testBit 23 = false := by
  obtain ⟨hnat, hdigits⟩ := toNat_getCompact n
  refine ⟨?_, ?_, ?_⟩
  · rw [compactSize, hnat]
    omega
  · rw [compactMantissa, hnat]
    omega
  · rw [Nat.testBit_eq_decide_div_mod_eq, hnat, decide_eq_false_iff_not]
    omega

theorem compactValue_getCompact (n : arith_uint256) : compactValue (getCompact n) =
    n.toNat / 2 ^ (8 * (bytesOf n.toNat - 3)) * 2 ^ (8 * (bytesOf n.toNat - 3)) := by
  obtain ⟨hsize, hmantissa, -⟩ := fields_getCompact n
  rw [compactValue, hsize, hmantissa, digitsOf, topBytes]
  split
  · rename_i hle
    have hexp : 8 * (bytesOf n.toNat - 3) = 0 := by omega
    rw [Nat.mul_div_cancel _ (Nat.two_pow_pos _), hexp, Nat.pow_zero, Nat.div_one, Nat.mul_one]
  · rfl

/-- **`SetCompact` after `GetCompact`** cuts off the bytes below the mantissa. -/
theorem setCompact_getCompact (n : arith_uint256) :
    (setCompact (getCompact n)).1.toNat =
        n.toNat / 2 ^ (8 * (bytesOf n.toNat - 3)) * 2 ^ (8 * (bytesOf n.toNat - 3)) ∧
      (setCompact (getCompact n)).2.1 = false ∧ (setCompact (getCompact n)).2.2 = false := by
  obtain ⟨hvalue, hnegative, hoverflow⟩ := setCompact_numbers (getCompact n)
  have hle := Nat.div_mul_le_self n.toNat (2 ^ (8 * (bytesOf n.toNat - 3)))
  have hlt := n.isLt
  rw [compactValue_getCompact] at hvalue hoverflow
  refine ⟨?_, ?_, ?_⟩
  · rw [hvalue, Nat.mod_eq_of_lt (by omega)]
  · rw [← Bool.not_eq_true, hnegative, (fields_getCompact n).2.2]
    exact fun h => Bool.false_ne_true h.2
  · rw [← Bool.not_eq_true, hoverflow]
    omega

/-- The mantissa cannot go down a byte, and no byte of it is lost. -/
def IsCanonical (nCompact : UInt32) : Prop := nCompact = 0 ∨
  2 ^ 15 ≤ compactMantissa nCompact ∧
    2 ^ (8 * (3 - compactSize nCompact)) ∣ compactMantissa nCompact

theorem bytesOf_of_bounds {v k : ℕ} (hlow : 2 ^ (8 * k) ≤ 2 * v) (hhigh : v < 2 ^ (8 * k + 7)) :
    bytesOf v = k + 1 := by
  have hne : v ≠ 0 := by
    have hpos := Nat.two_pow_pos (8 * k)
    omega
  have hle : Nat.size v ≤ 8 * k + 7 := Nat.size_le.2 hhigh
  have hge : 8 * k ≤ Nat.size v := by
    cases k with
    | zero => omega
    | succ k =>
      have hexp : 8 * (k + 1) = 8 * k + 7 + 1 := by omega
      rw [hexp, Nat.pow_succ] at hlow
      rw [hexp]
      exact Nat.lt_size.2 (by omega)
  rw [bytesOf, if_neg hne]
  omega

theorem fields_of_canonical (hlow : 2 ^ 15 ≤ compactMantissa nCompact)
    (hdvd : 2 ^ (8 * (3 - compactSize nCompact)) ∣ compactMantissa nCompact) :
    bytesOf (compactValue nCompact) = compactSize nCompact ∧
      digitsOf (compactValue nCompact) = compactMantissa nCompact := by
  have hhigh := compactMantissa_lt nCompact
  obtain ⟨k, hk⟩ : ∃ k, compactSize nCompact = k + 1 := by
    cases hsize : compactSize nCompact with
    | zero =>
      rw [hsize] at hdvd
      have hle := Nat.le_of_dvd (by omega) hdvd
      omega
    | succ k => exact ⟨k, rfl⟩
  rw [digitsOf, compactValue, hk]
  rw [hk] at hdvd
  generalize compactMantissa nCompact = m at hlow hhigh hdvd ⊢
  split
  · rename_i hle
    obtain ⟨c, rfl⟩ := hdvd
    rw [Nat.mul_div_cancel_left _ (Nat.two_pow_pos _)]
    have hbytes : bytesOf c = k + 1 := by
      refine bytesOf_of_bounds ?_ ?_
      · refine Nat.le_of_mul_le_mul_left ?_ (Nat.two_pow_pos (8 * (3 - (k + 1))))
        have hexp : 8 * (3 - (k + 1)) + 8 * k = 16 := by omega
        rw [← Nat.pow_add, hexp, Nat.mul_left_comm]
        omega
      · refine Nat.lt_of_mul_lt_mul_left (a := 2 ^ (8 * (3 - (k + 1)))) ?_
        have hexp : 8 * (3 - (k + 1)) + (8 * k + 7) = 23 := by omega
        rw [← Nat.pow_add, hexp]
        exact hhigh
    rw [hbytes, topBytes, if_pos hle, Nat.mul_comm]
    exact ⟨rfl, rfl⟩
  · rename_i hgt
    have hexp : 8 * k = 16 + 8 * (k + 1 - 3) := by omega
    have hbytes : bytesOf (m * 2 ^ (8 * (k + 1 - 3))) = k + 1 := by
      refine bytesOf_of_bounds ?_ ?_
      · rw [hexp, Nat.pow_add, ← Nat.mul_assoc]
        exact Nat.mul_le_mul_right _ (by omega)
      · have hexp' : 8 * k + 7 = 23 + 8 * (k + 1 - 3) := by omega
        rw [hexp', Nat.pow_add]
        exact Nat.mul_lt_mul_of_pos_right hhigh (Nat.two_pow_pos _)
    rw [hbytes, topBytes, if_neg hgt, Nat.mul_div_cancel _ (Nat.two_pow_pos _)]
    exact ⟨rfl, rfl⟩

/-- **`GetCompact` after `SetCompact`** gives a canonical compact target back. -/
theorem getCompact_setCompact (hcanonical : IsCanonical nCompact)
    (hnegative : (setCompact nCompact).2.1 = false)
    (hoverflow : (setCompact nCompact).2.2 = false) :
    getCompact (setCompact nCompact).1 = nCompact := by
  rcases hcanonical with rfl | ⟨hlow, hdvd⟩
  · decide
  · obtain ⟨hvalue, hneg, hover⟩ := setCompact_numbers nCompact
    obtain ⟨hbytes, hdigits⟩ := fields_of_canonical hlow hdvd
    have hfits : compactValue nCompact < 2 ^ 256 := by
      rw [← Nat.not_le, ← hover, hoverflow]
      exact Bool.false_ne_true
    have hne : compactValue nCompact ≠ 0 := by
      intro hzero
      rw [hzero] at hdigits
      have hnone : digitsOf 0 = 0 := by decide
      omega
    have hsign : nCompact.toNat.testBit 23 = false := by
      rw [← Bool.not_eq_true]
      intro hset
      rw [hneg.2 ⟨hne, hset⟩] at hnegative
      cases hnegative
    rw [Nat.testBit_eq_decide_div_mod_eq, decide_eq_false_iff_not] at hsign
    rw [Nat.mod_eq_of_lt hfits] at hvalue
    refine UInt32.toNat_inj.1 ?_
    rw [(toNat_getCompact _).1, hvalue, hbytes, hdigits, compactSize, compactMantissa]
    omega

/-! ### Work -/

/-- The compact target passes the checks of `GetBlockProof` and `CheckProofOfWork`. -/
structure ValidBits (nBits : UInt32) : Prop where
  notNegative : (setCompact nBits).2.1 = false
  fits : (setCompact nBits).2.2 = false
  ne_zero : (setCompact nBits).1 ≠ 0

theorem target_add_one_lt (hfits : (setCompact nCompact).2.2 = false) :
    (setCompact nCompact).1.toNat + 1 < 2 ^ 256 := by
  obtain ⟨hvalue, -, hover⟩ := setCompact_numbers nCompact
  have hlt : compactValue nCompact < 2 ^ 256 := by
    rw [← Nat.not_le, ← hover, hfits]
    exact Bool.false_ne_true
  rw [hvalue, Nat.mod_eq_of_lt hlt]
  have hmantissa := compactMantissa_lt nCompact
  rw [compactValue] at hlt ⊢
  split
  · have hle := Nat.div_le_self (compactMantissa nCompact) (2 ^ (8 * (3 - compactSize nCompact)))
    exact Nat.lt_of_le_of_lt (Nat.succ_le_succ (hle.trans (Nat.le_of_lt hmantissa))) (by decide)
  · -- Below the mantissa there are zero bytes.
    rename_i hsize
    rw [if_neg hsize] at hlt
    have hexp : 8 * (compactSize nCompact - 3) = 8 * (compactSize nCompact - 4) + 8 := by omega
    rw [hexp, Nat.pow_add, ← Nat.mul_assoc] at hlt ⊢
    have heven : ∀ x y : ℕ, x * 2 ^ 8 < 2 ^ 8 * y → x * 2 ^ 8 + 1 < 2 ^ 8 * y := by omega
    exact heven _ (2 ^ 248) hlt

def workOf (nBits : UInt32) : ℕ := 2 ^ 256 / ((setCompact nBits).1.toNat + 1)

/-- **`GetBlockProof`.** -/
theorem toNat_getBlockProof {nBits : UInt32} (h : ValidBits nBits) :
    (getBlockProof nBits).toNat = workOf nBits := by
  have hpos : 0 < (setCompact nBits).1.toNat :=
    Nat.pos_of_ne_zero fun hzero => h.ne_zero (BitVec.eq_of_toNat_eq hzero)
  have hlt := target_add_one_lt h.fits
  have hflags : ((setCompact nBits).2.1 || (setCompact nBits).2.2 || (setCompact nBits).1 == 0) =
      false := by
    rw [h.notNegative, h.fits, beq_eq_false_iff_ne.2 h.ne_zero]
    rfl
  have hsum : ((setCompact nBits).1 + 1).toNat = (setCompact nBits).1.toNat + 1 := by
    rw [BitVec.toNat_add]
    exact Nat.mod_eq_of_lt hlt
  have hdiv : (2 ^ 256 - 1 - (setCompact nBits).1.toNat) / ((setCompact nBits).1.toNat + 1) + 1 =
      workOf nBits := by
    have hsub : 2 ^ 256 - 1 - (setCompact nBits).1.toNat =
        2 ^ 256 - ((setCompact nBits).1.toNat + 1) := by omega
    rw [hsub, workOf, ← Nat.div_eq_sub_div (Nat.succ_pos _) (by omega)]
  have hbound : workOf nBits < 2 ^ 256 := Nat.div_lt_self (by omega) (by omega)
  show (if ((setCompact nBits).2.1 || (setCompact nBits).2.2 || (setCompact nBits).1 == 0) = true
    then 0 else ~~~(setCompact nBits).1 / ((setCompact nBits).1 + 1) + 1).toNat = _
  rw [hflags, if_neg Bool.false_ne_true, BitVec.toNat_add, BitVec.toNat_udiv, BitVec.toNat_not,
    hsum]
  have hone : (1 : arith_uint256).toNat = 1 := rfl
  rw [hone, hdiv, Nat.mod_eq_of_lt hbound]

theorem workOf_pos {nBits : UInt32} (h : ValidBits nBits) : 0 < workOf nBits :=
  Nat.div_pos (Nat.le_of_lt (target_add_one_lt h.fits)) (Nat.succ_pos _)

/-- **`GetBlockProof`** on the limbs. -/
theorem getBlockProof_limbs (nBits : UInt32) :
    (BaseUint.getBlockProof nBits).map BaseUint.toBitVec = .ok (getBlockProof nBits) := by
  have htarget := BaseUint.setCompact_eq nBits
  have hword : ∀ b : BitVec 64, (BaseUint.ofUInt64 b).toBitVec = b.setWidth 256 :=
    BaseUint.toBitVec_ofUInt64
  have hone : (BaseUint.ofUInt64 1).toBitVec = 1 := hword 1
  rw [BaseUint.getBlockProof, getBlockProof, ← htarget]
  have hne : (BaseUint.setCompact nBits).2.2 = false →
      ((BaseUint.setCompact nBits).1.add (BaseUint.ofUInt64 1)).toBitVec ≠ 0 := by
    intro hfits
    have hlt := @target_add_one_lt nBits (by rw [← htarget]; exact hfits)
    rw [← htarget] at hlt
    rw [BaseUint.toBitVec_add, hone]
    intro hzero
    have hnat := congrArg BitVec.toNat hzero
    rw [BitVec.toNat_add] at hnat
    have hsum : ((BaseUint.setCompact nBits).1.toBitVec.toNat + 1) % 2 ^ 256 = 0 := hnat
    rw [Nat.mod_eq_of_lt hlt] at hsum
    omega
  generalize BaseUint.setCompact nBits = r at hne
  obtain ⟨t, fNegative, fOverflow⟩ := r
  have hequal : t.equalTo 0 = (t.toBitVec == 0) := by
    rw [Bool.eq_iff_iff, BaseUint.equalTo_iff, beq_iff_eq]
    rfl
  simp only [hequal]
  split
  · exact congrArg Except.ok (hword 0)
  · rename_i hflags
    have hoverflow : fOverflow = false := by
      cases fOverflow
      · rfl
      · simp at hflags
    have hdiv := BaseUint.toBitVec_div t.not (t.add (BaseUint.ofUInt64 1))
    rw [if_neg (hne hoverflow)] at hdiv
    cases hq : t.not.div (t.add (BaseUint.ofUInt64 1)) with
    | error e =>
      rw [hq] at hdiv
      cases hdiv
    | ok q =>
      rw [hq] at hdiv
      have hquotient : q.toBitVec = _ := Except.ok.inj hdiv
      show Except.ok (q.add (BaseUint.ofUInt64 1)).toBitVec = _
      rw [BaseUint.toBitVec_add, hone, hquotient, BaseUint.toBitVec_not, BaseUint.toBitVec_add,
        hone]

/-- `nChainWork` of the entries of a chain, the oldest first. -/
def chainWorks (nChainWork : arith_uint256) (chain : List UInt32) : List arith_uint256 :=
  chain.scanl (fun work nBits => work + getBlockProof nBits) nChainWork

theorem chainWork_lt_iff {nBits : UInt32} (h : ValidBits nBits) (work : arith_uint256) :
    work < work + getBlockProof nBits ↔ work.toNat + workOf nBits < 2 ^ 256 := by
  have hpos := workOf_pos h
  have hproof : workOf nBits < 2 ^ 256 := by
    rw [← toNat_getBlockProof h]
    exact (getBlockProof nBits).isLt
  have hwork := work.isLt
  rw [BitVec.lt_def, BitVec.toNat_add, toNat_getBlockProof h]
  constructor
  · intro hlt
    by_contra hwrap
    rw [Nat.mod_eq_sub_mod (by omega), Nat.mod_eq_of_lt (by omega)] at hlt
    omega
  · intro hfits
    rw [Nat.mod_eq_of_lt hfits]
    omega

/-- **The chain work grows** along a chain of valid headers whose total work fits 256 bits. -/
theorem chainWorks_increasing {chain : List UInt32} (hvalid : ∀ nBits ∈ chain, ValidBits nBits)
    {work : arith_uint256} (hfits : work.toNat + (chain.map workOf).sum < 2 ^ 256) :
    (chainWorks work chain).Pairwise (· < ·) := by
  induction chain generalizing work with
  | nil => exact List.pairwise_singleton _ _
  | cons nBits chain ih =>
    rw [List.forall_mem_cons] at hvalid
    rw [List.map_cons, List.sum_cons] at hfits
    have hnext : (work + getBlockProof nBits).toNat = work.toNat + workOf nBits := by
      rw [BitVec.toNat_add, toNat_getBlockProof hvalid.1, Nat.mod_eq_of_lt (by omega)]
    have hlt := (chainWork_lt_iff hvalid.1 work).2 (by omega)
    have hrest := ih hvalid.2 (by rw [hnext]; omega)
    have hcons : chainWorks work (nBits :: chain) =
        work :: chainWorks (work + getBlockProof nBits) chain := List.scanl_cons ..
    rw [hcons, List.pairwise_cons]
    refine ⟨fun later hlater => ?_, hrest⟩
    cases chain with
    | nil =>
      rw [List.mem_singleton.1 hlater]
      exact hlt
    | cons nBits' chain =>
      have hcons' : chainWorks (work + getBlockProof nBits) (nBits' :: chain) =
          (work + getBlockProof nBits) ::
            chainWorks (work + getBlockProof nBits + getBlockProof nBits') chain :=
        List.scanl_cons ..
      rw [hcons'] at hlater hrest
      rcases List.mem_cons.1 hlater with rfl | hmem
      · exact hlt
      · exact BitVec.lt_trans hlt ((List.pairwise_cons.1 hrest).1 later hmem)

theorem nChainWork_newBlockIndex {m : BlockMap} {block : CBlockHeader} {prev : CBlockIndex}
    (hprev : m.find? block.hashPrevBlock = some prev) :
    (newBlockIndex m block).nChainWork = prev.nChainWork + getBlockProof block.nBits := by
  rw [newBlockIndex_eq hprev, (raiseValidity_eq _ _).work]
  rfl

/-! ## All together -/

/-- The operations on the limbs are those of the integers modulo `2 ^ 256`. -/
structure BaseUintExact : Prop where
  shl : ∀ (a : BaseUint) (shift : ℕ),
    (a.shl shift).toBitVec.toNat = a.toBitVec.toNat * 2 ^ shift % 2 ^ 256
  shr : ∀ (a : BaseUint) (shift : ℕ),
    (a.shr shift).toBitVec.toNat = a.toBitVec.toNat / 2 ^ shift
  mulWord : ∀ (a : BaseUint) (b32 : BitVec 32),
    (a.mulWord b32).toBitVec.toNat = a.toBitVec.toNat * b32.toNat % 2 ^ 256
  mul : ∀ a b : BaseUint,
    (a.mul b).toBitVec.toNat = a.toBitVec.toNat * b.toBitVec.toNat % 2 ^ 256
  div : ∀ a b : BaseUint, b.toBitVec.toNat ≠ 0 →
    ∃ q, a.div b = .ok q ∧ q.toBitVec.toNat = a.toBitVec.toNat / b.toBitVec.toNat
  compareTo : ∀ a b : BaseUint, (a.compareTo b < 0 ↔ a.toBitVec.toNat < b.toBitVec.toNat) ∧
    (a.compareTo b = 0 ↔ a.toBitVec.toNat = b.toBitVec.toNat)

structure CompactExact : Prop where
  /-- Of `bytesOf n` bytes the three in front stay. -/
  truncates : ∀ a : BaseUint, ∃ b, BaseUint.setCompact (a.getCompact false) = (b, false, false) ∧
    b.toBitVec.toNat = a.toBitVec.toNat / 2 ^ (8 * (bytesOf a.toBitVec.toNat - 3)) *
      2 ^ (8 * (bytesOf a.toBitVec.toNat - 3)) ∧
    b.toBitVec.toNat ≤ a.toBitVec.toNat
  restores : ∀ nCompact b, IsCanonical nCompact →
    BaseUint.setCompact nCompact = (b, false, false) → b.getCompact false = nCompact
  overflow : ∀ nCompact,
    (BaseUint.setCompact nCompact).2.2 = true ↔ 2 ^ 256 ≤ compactValue nCompact
  value : ∀ nCompact, compactValue nCompact < 2 ^ 256 →
    (BaseUint.setCompact nCompact).1.toBitVec.toNat = compactValue nCompact

structure WorkExact : Prop where
  proof : ∀ nBits, ValidBits nBits → ∃ q, BaseUint.getBlockProof nBits = .ok q ∧
    q.toBitVec.toNat = 2 ^ 256 / ((BaseUint.setCompact nBits).1.toBitVec.toNat + 1)
  /-- An entry has more chain work than its parent where the sum fits. -/
  entry : ∀ (m : BlockMap) block prev, m.find? block.hashPrevBlock = some prev →
    ValidBits block.nBits → (prev.nChainWork < (newBlockIndex m block).nChainWork ↔
      prev.nChainWork.toNat + workOf block.nBits < 2 ^ 256)
  chain : ∀ work chain, (∀ nBits ∈ chain, ValidBits nBits) →
    work.toNat + (chain.map workOf).sum < 2 ^ 256 → (chainWorks work chain).Pairwise (· < ·)

theorem baseUintExact : BaseUintExact where
  shl a shift := by rw [BaseUint.toBitVec_shl, BitVec.toNat_shiftLeft, Nat.shiftLeft_eq]
  shr a shift := by rw [BaseUint.toBitVec_shr, BitVec.toNat_ushiftRight, Nat.shiftRight_eq_div_pow]
  mulWord a b32 := by
    have hb := b32.isLt
    rw [BaseUint.toBitVec_mulWord, BitVec.toNat_mul, BitVec.toNat_setWidth,
      Nat.mod_eq_of_lt (show b32.toNat < 2 ^ 256 by omega)]
  mul a b := by rw [BaseUint.toBitVec_mul, BitVec.toNat_mul]
  div a b hb := by
    have hdiv := BaseUint.toBitVec_div a b
    rw [if_neg fun hzero => hb (by rw [hzero]; rfl)] at hdiv
    cases hq : a.div b with
    | error e =>
      rw [hq] at hdiv
      cases hdiv
    | ok q =>
      rw [hq] at hdiv
      have hquotient : q.toBitVec = _ := Except.ok.inj hdiv
      exact ⟨q, rfl, by rw [hquotient, BitVec.toNat_udiv]⟩
  compareTo a b := by
    obtain ⟨hlt, -, heq⟩ := BaseUint.compareTo_spec a b
    rw [hlt, heq, BitVec.lt_def, BitVec.toNat_inj]
    exact ⟨Iff.rfl, Iff.rfl⟩

theorem compactExact : CompactExact where
  truncates a := by
    have hset := BaseUint.setCompact_eq (a.getCompact false)
    rw [BaseUint.getCompact_eq] at hset ⊢
    obtain ⟨hvalue, hnegative, hoverflow⟩ := setCompact_getCompact a.toBitVec
    rw [← hset] at hvalue hnegative hoverflow
    refine ⟨_, Prod.ext rfl (Prod.ext hnegative hoverflow), hvalue, ?_⟩
    exact hvalue.trans_le (Nat.div_mul_le_self _ _)
  restores nCompact b hcanonical hset := by
    have heq := BaseUint.setCompact_eq nCompact
    rw [hset] at heq
    rw [BaseUint.getCompact_eq]
    have htarget : b.toBitVec = (setCompact nCompact).1 := congrArg Prod.fst heq
    rw [htarget]
    exact getCompact_setCompact hcanonical (by rw [← heq]) (by rw [← heq])
  overflow nCompact := by
    rw [← (setCompact_numbers nCompact).2.2, ← BaseUint.setCompact_eq]
  value nCompact hlt := by
    have hvalue := (setCompact_numbers nCompact).1
    rw [← BaseUint.setCompact_eq, Nat.mod_eq_of_lt hlt] at hvalue
    exact hvalue

theorem workExact : WorkExact where
  proof nBits hvalid := by
    have hlimbs := getBlockProof_limbs nBits
    cases hq : BaseUint.getBlockProof nBits with
    | error e =>
      rw [hq] at hlimbs
      cases hlimbs
    | ok q =>
      rw [hq] at hlimbs
      have hproof : q.toBitVec = getBlockProof nBits := Except.ok.inj hlimbs
      refine ⟨q, rfl, ?_⟩
      rw [hproof, toNat_getBlockProof hvalid, workOf, ← BaseUint.setCompact_eq]
  entry m block prev hprev hvalid := by
    rw [nChainWork_newBlockIndex hprev]
    exact chainWork_lt_iff hvalid _
  chain work chain hvalid hfits := chainWorks_increasing hvalid hfits

/-- **256-bit arithmetic matches integers.**  Chain work grows as long as it fits 256 bits. -/
theorem arithmetic_exact : BaseUintExact ∧ CompactExact ∧ WorkExact :=
  ⟨baseUintExact, compactExact, workExact⟩

/-- The chain work of two blocks with target 1 wraps to zero. -/
theorem chainWork_wraps :
    checkProofOfWork mainHeaderParams 0 0x01010000 = true ∧
      checkProofOfWork mainHeaderParams 1 0x01010000 = true ∧
      ¬(chainWorks 0 [0x01010000, 0x01010000]).Pairwise (· < ·) := by
  decide +kernel

end Numbers

end UnemployCoin
