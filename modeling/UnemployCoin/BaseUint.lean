import UnemployCoin.Lib.Limbs
/-!
# Integers of 256 bits

`base_uint<256>` of `arith_uint256.h` and `arith_uint256.cpp`: eight limbs of 32 bits, the lowest
first, and the loops over them.
-/

namespace UnemployCoin

def WIDTH : ℕ := 8

/-- `base_uint<256>`. -/
structure BaseUint where
  pn : List (BitVec 32)
  width : pn.length = WIDTH
  deriving DecidableEq

namespace BaseUint

/-! ## The operations -/

/-- The limbs of `*this = b`. -/
def ofUInt64 (b : BitVec 64) : BaseUint where
  pn := [b.setWidth 32, (b >>> 32).setWidth 32, 0, 0, 0, 0, 0, 0]
  width := rfl

/-- The columns of a sum or a product, with the carry from limb to limb. -/
def carryLoop : BitVec 64 → List (BitVec 64) → List (BitVec 32)
  | _, [] => []
  | carry, t :: ts =>
    let n := carry + t
    (n &&& 0xffffffff).setWidth 32 :: carryLoop (n >>> 32) ts

theorem length_carryLoop (carry : BitVec 64) (ts : List (BitVec 64)) :
    (carryLoop carry ts).length = ts.length := by
  induction ts generalizing carry with
  | nil => rfl
  | cons t ts ih => rw [carryLoop, List.length_cons, List.length_cons, ih]

variable (a b : BaseUint)

/-- `operator~`. -/
def not : BaseUint where
  pn := a.pn.map fun p => ~~~p
  width := by rw [List.length_map, a.width]

/-- `operator|=`. -/
def or : BaseUint where
  pn := List.zipWith (· ||| ·) a.pn b.pn
  width := by rw [List.length_zipWith, a.width, b.width, Nat.min_self]

/-- The loop of `operator++`. -/
def incLoop : List (BitVec 32) → List (BitVec 32)
  | [] => []
  | p :: pn => if p + 1 = 0 then (p + 1) :: incLoop pn else (p + 1) :: pn

theorem length_incLoop (pn : List (BitVec 32)) : (incLoop pn).length = pn.length := by
  induction pn with
  | nil => rfl
  | cons p pn ih =>
    rw [incLoop]
    split
    · rw [List.length_cons, List.length_cons, ih]
    · rfl

/-- `operator++`. -/
def inc : BaseUint where
  pn := incLoop a.pn
  width := by rw [length_incLoop, a.width]

/-- `operator-`. -/
def neg : BaseUint := a.not.inc

/-- `operator+=`. -/
def add : BaseUint where
  pn := carryLoop 0 (List.zipWith (fun p q => p.setWidth 64 + q.setWidth 64) a.pn b.pn)
  width := by rw [length_carryLoop, List.length_zipWith, a.width, b.width, Nat.min_self]

/-- `operator-=`. -/
def sub : BaseUint := a.add b.neg

/-- `operator*=` with a word. -/
def mulWord (b32 : BitVec 32) : BaseUint where
  pn := carryLoop 0 (a.pn.map fun p => b32.setWidth 64 * p.setWidth 64)
  width := by rw [length_carryLoop, List.length_map, a.width]

/-- The inner loop of `operator*=`, on the limbs from the one of the factor on. -/
def mulRow (factor : BitVec 32) (pn b : List (BitVec 32)) : List (BitVec 32) :=
  carryLoop 0 (List.zipWith (fun p q => p.setWidth 64 + factor.setWidth 64 * q.setWidth 64) pn b)

def mulRound (a b pn : List (BitVec 32)) (j : ℕ) : List (BitVec 32) :=
  pn.take j ++ mulRow (a.getD j 0) (pn.drop j) b

theorem length_mulRound (pn : List (BitVec 32)) (j : ℕ) (hpn : pn.length ≤ b.pn.length) :
    (mulRound a.pn b.pn pn j).length = pn.length := by
  rw [mulRound, mulRow, List.length_append, length_carryLoop, List.length_take,
    List.length_zipWith, List.length_drop]
  omega

def mulLoop (a b : List (BitVec 32)) (rounds : List ℕ) (pn : List (BitVec 32)) :
    List (BitVec 32) :=
  rounds.foldl (mulRound a b) pn

theorem length_mulLoop (rounds : List ℕ) {pn : List (BitVec 32)} (hpn : pn.length = WIDTH) :
    (mulLoop a.pn b.pn rounds pn).length = WIDTH := by
  induction rounds generalizing pn with
  | nil => exact hpn
  | cons j rounds ih =>
    refine ih ?_
    rw [length_mulRound a b pn j (by rw [hpn, b.width]), hpn]

/-- `operator*=`. -/
def mul : BaseUint where
  pn := mulLoop a.pn b.pn (List.range WIDTH) (List.replicate WIDTH 0)
  width := length_mulLoop a b _ (List.length_replicate ..)

/-- The bits that `operator<<=` sets. -/
def shlBits (shift : ℕ) : List (ℕ × BitVec 32) :=
  let k := shift / 32
  let s := shift % 32
  (List.range WIDTH).flatMap fun i =>
    (if i + k + 1 < WIDTH ∧ s ≠ 0 then [(i + k + 1, a.pn.getD i 0 >>> (32 - s))] else []) ++
      if i + k < WIDTH then [(i + k, a.pn.getD i 0 <<< s)] else []

/-- `operator<<=`. -/
def shl (shift : ℕ) : BaseUint where
  pn := Limbs.scatter (a.shlBits shift) (List.replicate WIDTH 0)
  width := by rw [Limbs.length_scatter, List.length_replicate]

/-- The bits that `operator>>=` sets. -/
def shrBits (shift : ℕ) : List (ℕ × BitVec 32) :=
  let k := shift / 32
  let s := shift % 32
  (List.range WIDTH).flatMap fun i =>
    (if k + 1 ≤ i ∧ s ≠ 0 then [(i - k - 1, a.pn.getD i 0 <<< (32 - s))] else []) ++
      if k ≤ i then [(i - k, a.pn.getD i 0 >>> s)] else []

/-- `operator>>=`. -/
def shr (shift : ℕ) : BaseUint where
  pn := Limbs.scatter (a.shrBits shift) (List.replicate WIDTH 0)
  width := by rw [Limbs.length_scatter, List.length_replicate]

/-- The loop of `CompareTo`, from the highest limb down. -/
def compareLoop : List (BitVec 32) → List (BitVec 32) → ℤ
  | p :: pn, q :: qn => if p < q then -1 else if p > q then 1 else compareLoop pn qn
  | _, _ => 0

def compareTo : ℤ := compareLoop a.pn.reverse b.pn.reverse

/-- `nbits` from the highest down, in `bits`. -/
def wordBits (p : BitVec 32) : ℕ → ℕ
  | 0 => 1
  | nbits + 1 => if p &&& ((1 : BitVec 32) <<< (nbits + 1)) ≠ 0 then nbits + 2 else wordBits p nbits

/-- The loop of `bits`, from the highest limb down. -/
def bitsLoop : List (BitVec 32) → ℕ
  | [] => 0
  | p :: pn => if p ≠ 0 then 32 * pn.length + wordBits p 31 else bitsLoop pn

def bits : ℕ := bitsLoop a.pn.reverse

/-- `pn[shift / 32] |= (1 << (shift & 31))`. -/
def setBit (shift : ℕ) : BaseUint where
  pn := a.pn.modify (shift / 32) (· ||| ((1 : BitVec 32) <<< (shift &&& 31)))
  width := by rw [List.length_modify, a.width]

/-- The loop of `operator/=`, with `shift + 1` rounds to go. -/
def divLoop : ℕ → BaseUint → BaseUint → BaseUint → BaseUint
  | 0, quotient, _, _ => quotient
  | shift + 1, quotient, num, div =>
    if num.compareTo div ≥ 0 then
      divLoop shift (quotient.setBit shift) (num.sub div) (div.shr 1)
    else divLoop shift quotient num (div.shr 1)

/-- `operator/=`. -/
def div : Except String BaseUint :=
  let num_bits := a.bits
  let div_bits := b.bits
  if div_bits = 0 then .error "Division by zero"
  else if div_bits > num_bits then .ok (ofUInt64 0)
  else
    let shift := num_bits - div_bits
    .ok (divLoop (shift + 1) (ofUInt64 0) a (b.shl shift))

def equalTo (b : BitVec 64) : Bool :=
  (a.pn.drop 2).all (· == 0) && a.pn.getD 1 0 == (b >>> 32).setWidth 32 &&
    a.pn.getD 0 0 == (b &&& 0xffffffff).setWidth 32

def getLow64 : BitVec 64 := (a.pn.getD 0 0).setWidth 64 ||| (a.pn.getD 1 0).setWidth 64 <<< 32

/-! ## The integer -/

def toBitVec : BitVec 256 := BitVec.ofNat 256 (Limbs.value a.pn)

variable {a b} {x y : BitVec 256} {l : List (BitVec 32)} {shift : ℕ}

theorem value_lt (a : BaseUint) : Limbs.value a.pn < 2 ^ 256 := by
  have hlt : Limbs.value a.pn < 2 ^ (32 * a.pn.length) := Limbs.value_lt
  rw [a.width] at hlt
  exact hlt

theorem toNat_toBitVec (a : BaseUint) : a.toBitVec.toNat = Limbs.value a.pn := by
  rw [toBitVec, BitVec.toNat_ofNat, Nat.mod_eq_of_lt a.value_lt]

theorem getLsbD_toBitVec {m i : ℕ} (hi : i < 32) :
    a.toBitVec.getLsbD (32 * m + i) = (a.pn.getD m 0).getLsbD i := by
  rw [← BitVec.testBit_toNat, toNat_toBitVec, Limbs.testBit_value hi]

theorem eq_of_limbs (h : ∀ m < 8, ∀ i < 32, x.getLsbD (32 * m + i) = y.getLsbD (32 * m + i)) :
    x = y := by
  refine BitVec.eq_of_getLsbD_eq fun i hi => ?_
  have hlimb := h (i / 32) (by omega) (i % 32) (by omega)
  have hsplit : 32 * (i / 32) + i % 32 = i := by omega
  rw [hsplit] at hlimb
  exact hlimb

/-! ### Sums -/

theorem toBitVec_ofUInt64 (b : BitVec 64) : (ofUInt64 b).toBitVec = b.setWidth 256 := by
  refine BitVec.eq_of_toNat_eq ?_
  have hb := b.isLt
  rw [toNat_toBitVec, ofUInt64, BitVec.toNat_setWidth]
  simp only [Limbs.value_cons, Limbs.value_nil, BitVec.toNat_setWidth, BitVec.toNat_ushiftRight,
    Nat.shiftRight_eq_div_pow, BitVec.ofNat_eq_ofNat, BitVec.toNat_ofNat]
  omega

theorem setWidth_lowWord (n : BitVec 64) : (n &&& 0xffffffff).setWidth 32 = n.setWidth 32 := by
  ext i hi
  simp only [BitVec.getElem_setWidth, BitVec.getLsbD_and]
  have hbit : (0xffffffff : BitVec 64).getLsbD i = true := by
    have hall : ∀ i < 32, (0xffffffff : BitVec 64).getLsbD i = true := by decide
    exact hall i hi
  rw [hbit, Bool.and_true]

theorem toNat_lowWord (n : BitVec 64) :
    ((n &&& 0xffffffff).setWidth 32).toNat = n.toNat % 2 ^ 32 := by
  rw [setWidth_lowWord, BitVec.toNat_setWidth]

theorem value_carryLoop {carry : BitVec 64} {ts : List (BitVec 64)} (hcarry : carry.toNat < 2 ^ 32)
    (hts : ∀ t ∈ ts, t.toNat ≤ 2 ^ 64 - 2 ^ 32) :
    Limbs.value (carryLoop carry ts) =
      (carry.toNat + Nat.ofDigits (2 ^ 32) (ts.map BitVec.toNat)) % 2 ^ (32 * ts.length) := by
  have hdigits : (carryLoop carry ts).map BitVec.toNat =
      Radix.mulAdd (2 ^ 32) 1 (ts.map BitVec.toNat) carry.toNat := by
    induction ts generalizing carry with
    | nil => rfl
    | cons t ts ih =>
      rw [List.forall_mem_cons] at hts
      have hsum : (carry + t).toNat = carry.toNat + 1 * t.toNat := by
        rw [BitVec.toNat_add, Nat.mod_eq_of_lt (by omega), Nat.one_mul]
      have hnext : ((carry + t) >>> 32).toNat = (carry.toNat + 1 * t.toNat) / 2 ^ 32 := by
        rw [BitVec.toNat_ushiftRight, Nat.shiftRight_eq_div_pow, hsum]
      have hrest := @ih ((carry + t) >>> 32) (by rw [hnext]; omega) hts.2
      rw [carryLoop, List.map_cons, List.map_cons, Radix.mulAdd, toNat_lowWord, hsum, hrest, hnext]
  rw [Limbs.value, hdigits, Radix.ofDigits_mulAdd, Nat.one_mul, List.length_map, Nat.add_comm,
    ← Nat.pow_mul]

theorem value_carryLoop_zero {ts : List (BitVec 64)} (hts : ∀ t ∈ ts, t.toNat ≤ 2 ^ 64 - 2 ^ 32) :
    Limbs.value (carryLoop 0 ts) =
      Nat.ofDigits (2 ^ 32) (ts.map BitVec.toNat) % 2 ^ (32 * ts.length) := by
  have hzero : (0 : BitVec 64).toNat = 0 := BitVec.toNat_zero
  rw [value_carryLoop (by rw [hzero]; omega) hts, hzero, Nat.zero_add]

/-- **`operator+=`.** -/
theorem toBitVec_add (a b : BaseUint) : (a.add b).toBitVec = a.toBitVec + b.toBitVec := by
  have hcolumn : ∀ p q : BitVec 32,
      (p.setWidth 64 + q.setWidth 64).toNat = p.toNat + q.toNat := by
    intro p q
    have hp := p.isLt
    have hq := q.isLt
    rw [BitVec.toNat_add, BitVec.toNat_setWidth, BitVec.toNat_setWidth]
    omega
  have hcolumns : ((List.zipWith (fun p q => p.setWidth 64 + q.setWidth 64) a.pn b.pn).map
      BitVec.toNat) = List.zipWith (· + ·) (a.pn.map BitVec.toNat) (b.pn.map BitVec.toNat) := by
    rw [List.map_zipWith, List.zipWith_map]
    simp only [hcolumn]
  refine BitVec.eq_of_toNat_eq ?_
  rw [BitVec.toNat_add, toNat_toBitVec, toNat_toBitVec, toNat_toBitVec, add,
    value_carryLoop_zero, hcolumns, ← Nat.ofDigits_add_ofDigits_eq_ofDigits_zipWith_of_length_eq,
    List.length_zipWith, a.width, b.width]
  · rfl
  · rw [List.length_map, List.length_map, a.width, b.width]
  · intro t ht
    obtain ⟨p, q, rfl⟩ := Limbs.exists_of_mem_zipWith ht
    have hp := p.isLt
    have hq := q.isLt
    rw [hcolumn]
    omega

/-- **`operator~`.** -/
theorem toBitVec_not (a : BaseUint) : a.not.toBitVec = ~~~a.toBitVec := by
  refine eq_of_limbs fun m hm i hi => ?_
  have hlength : m < a.pn.length := by rw [a.width]; exact hm
  rw [BitVec.getLsbD_not, getLsbD_toBitVec hi, getLsbD_toBitVec hi, not, List.getD_eq_getElem?_getD,
    List.getElem?_map, List.getD_eq_getElem?_getD, List.getElem?_eq_getElem hlength]
  have hbound : 32 * m + i < 256 := by omega
  simp [hi, hbound]

theorem value_incLoop : Limbs.value (incLoop l) = (Limbs.value l + 1) % 2 ^ (32 * l.length) := by
  induction l with
  | nil => rfl
  | cons p l ih =>
    have hp := p.isLt
    have hvalue : Limbs.value l < 2 ^ (32 * l.length) := Limbs.value_lt
    have hpow : 2 ^ (32 * (l.length + 1)) = 2 ^ 32 * 2 ^ (32 * l.length) := by
      rw [← Nat.pow_add]
      congr 1
      omega
    rw [incLoop]
    split
    · rename_i hzero
      have hfull : p.toNat = 2 ^ 32 - 1 := by
        have hsum : (p + 1).toNat = 0 := by rw [hzero]; rfl
        rw [BitVec.toNat_add] at hsum
        have hone : (1 : BitVec 32).toNat = 1 := rfl
        omega
      have hnone : (0 : BitVec 32).toNat = 0 := rfl
      have hsum : p.toNat + 2 ^ 32 * Limbs.value l + 1 = 2 ^ 32 * (Limbs.value l + 1) := by omega
      rw [hzero, Limbs.value_cons, ih, Limbs.value_cons, List.length_cons, hpow, hsum,
        Nat.mul_mod_mul_left, hnone, Nat.zero_add]
    · rename_i hne
      have hsum : (p + 1).toNat = p.toNat + 1 := by
        have hone : (1 : BitVec 32).toNat = 1 := rfl
        have hnotfull : p.toNat + 1 ≠ 2 ^ 32 := by
          intro hfull
          refine hne (BitVec.eq_of_toNat_eq ?_)
          rw [BitVec.toNat_add, hone, hfull]
          rfl
        rw [BitVec.toNat_add, hone]
        omega
      have hlimb := (p + 1).isLt
      have hmul : 2 ^ 32 * (Limbs.value l + 1) ≤ 2 ^ 32 * 2 ^ (32 * l.length) :=
        Nat.mul_le_mul_left _ hvalue
      rw [Limbs.value_cons, Limbs.value_cons, List.length_cons, hpow, Nat.mod_eq_of_lt (by omega)]
      omega

/-- **`operator++`.** -/
theorem toBitVec_inc (a : BaseUint) : a.inc.toBitVec = a.toBitVec + 1 := by
  refine BitVec.eq_of_toNat_eq ?_
  rw [BitVec.toNat_add, toNat_toBitVec, toNat_toBitVec, inc, value_incLoop, a.width]
  rfl

theorem toBitVec_neg (a : BaseUint) : a.neg.toBitVec = -a.toBitVec := by
  rw [neg, toBitVec_inc, toBitVec_not, BitVec.neg_eq_not_add]
  rfl

/-- **`operator-=`.** -/
theorem toBitVec_sub (a b : BaseUint) : (a.sub b).toBitVec = a.toBitVec - b.toBitVec := by
  rw [sub, toBitVec_add, toBitVec_neg, BitVec.sub_eq_add_neg]

/-! ### Products -/

theorem toNat_column {p q r : BitVec 32} :
    (p.setWidth 64 + q.setWidth 64 * r.setWidth 64).toNat = p.toNat + q.toNat * r.toNat ∧
      p.toNat + q.toNat * r.toNat ≤ 2 ^ 64 - 2 ^ 32 := by
  have hp := p.isLt
  have hq : q.toNat ≤ 2 ^ 32 - 1 := by
    have hq := q.isLt
    omega
  have hr : r.toNat ≤ 2 ^ 32 - 1 := by
    have hr := r.isLt
    omega
  have hmul : q.toNat * r.toNat ≤ (2 ^ 32 - 1) * (2 ^ 32 - 1) := Nat.mul_le_mul hq hr
  refine ⟨?_, by omega⟩
  rw [BitVec.toNat_add, BitVec.toNat_mul, BitVec.toNat_setWidth, BitVec.toNat_setWidth,
    BitVec.toNat_setWidth, Nat.mod_eq_of_lt (show p.toNat < 2 ^ 64 by omega),
    Nat.mod_eq_of_lt (show q.toNat < 2 ^ 64 by omega),
    Nat.mod_eq_of_lt (show r.toNat < 2 ^ 64 by omega),
    Nat.mod_eq_of_lt (show q.toNat * r.toNat < 2 ^ 64 by omega), Nat.mod_eq_of_lt (by omega)]

/-- **`operator*=`** with a word. -/
theorem toBitVec_mulWord (a : BaseUint) (b32 : BitVec 32) :
    (a.mulWord b32).toBitVec = a.toBitVec * b32.setWidth 256 := by
  have hcolumn : ∀ p : BitVec 32, (b32.setWidth 64 * p.setWidth 64).toNat = b32.toNat * p.toNat ∧
      b32.toNat * p.toNat ≤ 2 ^ 64 - 2 ^ 32 := by
    intro p
    have hcolumn := @toNat_column 0 b32 p
    have hzero : (0 : BitVec 32).setWidth 64 = 0#64 := rfl
    have hnone : (0 : BitVec 32).toNat = 0 := rfl
    rw [hzero, BitVec.zero_add, hnone, Nat.zero_add] at hcolumn
    exact hcolumn
  have hcolumns : (a.pn.map fun p => b32.setWidth 64 * p.setWidth 64).map BitVec.toNat =
      (a.pn.map BitVec.toNat).map (b32.toNat * ·) := by
    rw [List.map_map, List.map_map]
    exact List.map_congr_left fun p _ => (hcolumn p).1
  have hb := b32.isLt
  refine BitVec.eq_of_toNat_eq ?_
  rw [BitVec.toNat_mul, toNat_toBitVec, toNat_toBitVec, mulWord, value_carryLoop_zero, hcolumns,
    ← Nat.mul_ofDigits, List.length_map, a.width, BitVec.toNat_setWidth,
    Nat.mod_eq_of_lt (show b32.toNat < 2 ^ 256 by omega), Nat.mul_comm]
  · rfl
  · intro t ht
    obtain ⟨p, -, rfl⟩ := List.mem_map.1 ht
    rw [(hcolumn p).1]
    exact (hcolumn p).2

theorem value_mulRow {factor : BitVec 32} {pn b : List (BitVec 32)} (hle : pn.length ≤ b.length) :
    Limbs.value (mulRow factor pn b) =
      (Limbs.value pn + factor.toNat * Limbs.value b) % 2 ^ (32 * pn.length) := by
  have hcut : List.zipWith (fun p q => p.setWidth 64 + factor.setWidth 64 * q.setWidth 64) pn b =
      List.zipWith (fun p q => p.setWidth 64 + factor.setWidth 64 * q.setWidth 64) pn
        (b.take pn.length) := by
    rw [List.zipWith_eq_zipWith_take_min, Nat.min_eq_left hle, List.take_length]
  have hcolumns : (List.zipWith (fun p q => p.setWidth 64 + factor.setWidth 64 * q.setWidth 64) pn
      (b.take pn.length)).map BitVec.toNat = List.zipWith (· + ·) (pn.map BitVec.toNat)
        (((b.take pn.length).map BitVec.toNat).map (factor.toNat * ·)) := by
    rw [List.map_zipWith, List.map_map, List.zipWith_map]
    simp only [toNat_column.1, Function.comp_apply]
  have hlength : (b.take pn.length).length = pn.length := by
    rw [List.length_take, Nat.min_eq_left hle]
  have hb : Limbs.value b = Limbs.value (b.take pn.length) +
      2 ^ (32 * pn.length) * Limbs.value (b.drop pn.length) := by
    conv_lhs => rw [← List.take_append_drop pn.length b]
    rw [Limbs.value_append, hlength]
  rw [mulRow, hcut, value_carryLoop_zero, hcolumns,
    ← Nat.ofDigits_add_ofDigits_eq_ofDigits_zipWith_of_length_eq, ← Nat.mul_ofDigits,
    List.length_zipWith, hlength, Nat.min_self, ← Limbs.value, ← Limbs.value, hb, Nat.mul_add,
    Nat.mul_left_comm factor.toNat, ← Nat.add_assoc, Nat.add_mul_mod_self_left]
  · rw [List.length_map, List.length_map, List.length_map, hlength]
  · intro t ht
    obtain ⟨p, q, rfl⟩ := Limbs.exists_of_mem_zipWith ht
    rw [toNat_column.1]
    exact toNat_column.2

theorem value_mulRound {a b pn : List (BitVec 32)} {j : ℕ} (hj : j ≤ pn.length)
    (hle : pn.length ≤ b.length) :
    Limbs.value (mulRound a b pn j) % 2 ^ (32 * pn.length) =
      (Limbs.value pn + 2 ^ (32 * j) * ((a.getD j 0).toNat * Limbs.value b)) %
        2 ^ (32 * pn.length) := by
  have hsplit : Limbs.value pn =
      Limbs.value (pn.take j) + 2 ^ (32 * j) * Limbs.value (pn.drop j) := by
    conv_lhs => rw [← List.take_append_drop j pn]
    rw [Limbs.value_append, List.length_take, Nat.min_eq_left hj]
  have hpow : 2 ^ (32 * pn.length) = 2 ^ (32 * j) * 2 ^ (32 * (pn.drop j).length) := by
    rw [List.length_drop, ← Nat.pow_add]
    congr 1
    omega
  have hdrop : (pn.drop j).length ≤ b.length := by
    rw [List.length_drop]
    omega
  rw [mulRound, Limbs.value_append, List.length_take, Nat.min_eq_left hj, value_mulRow hdrop, hpow,
    ← Nat.mul_mod_mul_left, Nat.add_mod_mod, hsplit, Nat.mul_add, Nat.add_assoc]

theorem value_mulLoop (a b : BaseUint) (n : ℕ) (hn : n ≤ WIDTH) :
    Limbs.value (mulLoop a.pn b.pn (List.range n) (List.replicate WIDTH 0)) % 2 ^ 256 =
      Limbs.value (a.pn.take n) * Limbs.value b.pn % 2 ^ 256 := by
  induction n with
  | zero =>
    have hzero : Limbs.value (List.replicate WIDTH (0 : BitVec 32)) = 0 :=
      Limbs.value_replicate_zero WIDTH
    rw [List.take_zero, Limbs.value_nil, Nat.zero_mul, List.range_zero, mulLoop, List.foldl_nil,
      hzero]
  | succ n ih =>
    have hsum := ih (by omega)
    have hlength : (mulLoop a.pn b.pn (List.range n) (List.replicate WIDTH 0)).length = WIDTH :=
      length_mulLoop a b _ (List.length_replicate ..)
    have hround := value_mulRound (a := a.pn) (b := b.pn) (j := n)
      (show n ≤ (mulLoop a.pn b.pn (List.range n) (List.replicate WIDTH 0)).length by omega)
      (by rw [hlength, b.width])
    have hn' : n < a.pn.length := by rw [a.width]; omega
    have htake : a.pn.take (n + 1) = a.pn.take n ++ [a.pn.getD n 0] := by
      rw [List.take_succ_eq_append_getElem hn', List.getD_eq_getElem?_getD,
        List.getElem?_eq_getElem hn', Option.getD_some]
    have hwidth : 2 ^ (32 * (mulLoop a.pn b.pn (List.range n) (List.replicate WIDTH 0)).length) =
        2 ^ 256 := by rw [hlength]; rfl
    have hstep : mulLoop a.pn b.pn (List.range (n + 1)) (List.replicate WIDTH 0) =
        mulRound a.pn b.pn (mulLoop a.pn b.pn (List.range n) (List.replicate WIDTH 0)) n := by
      rw [List.range_succ, mulLoop, List.foldl_append]
      rfl
    rw [hwidth] at hround
    rw [hstep, hround, ← Nat.mod_add_mod, hsum, Nat.mod_add_mod, htake,
      Limbs.value_append_singleton,
      List.length_take, a.width, Nat.min_eq_left (by omega), Nat.add_mul, Nat.mul_assoc]

/-- **`operator*=`.** -/
theorem toBitVec_mul (a b : BaseUint) : (a.mul b).toBitVec = a.toBitVec * b.toBitVec := by
  have hloop := value_mulLoop a b WIDTH (Nat.le_refl _)
  have htake : a.pn.take WIDTH = a.pn := by rw [← a.width, List.take_length]
  have hlt : Limbs.value (mulLoop a.pn b.pn (List.range WIDTH) (List.replicate WIDTH 0)) <
      2 ^ 256 :=
    (a.mul b).value_lt
  rw [htake, Nat.mod_eq_of_lt hlt] at hloop
  refine BitVec.eq_of_toNat_eq ?_
  rw [BitVec.toNat_mul, toNat_toBitVec, toNat_toBitVec, toNat_toBitVec, ← hloop]
  rfl

/-! ### Shifts -/

theorem getLsbD_scatter_zero {bits : List (ℕ × BitVec 32)} {m i : ℕ} (hm : m < 8) :
    ((Limbs.scatter bits (List.replicate WIDTH 0)).getD m 0).getLsbD i = true ↔
      ∃ e ∈ bits, e.1 = m ∧ e.2.getLsbD i = true := by
  have hm' : m < WIDTH := hm
  have hzero : ((List.replicate WIDTH (0 : BitVec 32)).getD m 0).getLsbD i = false := by
    rw [List.getD_eq_getElem?_getD, List.getElem?_replicate, if_pos hm', Option.getD_some]
    exact BitVec.getLsbD_zero
  rw [Limbs.getLsbD_scatter (by rw [List.length_replicate]; exact hm), hzero,
    or_iff_right Bool.false_ne_true]

theorem getD_pn_eq_zero {m : ℕ} (hm : 8 ≤ m) : a.pn.getD m 0 = 0 := by
  rw [List.getD_eq_getElem?_getD, List.getElem?_eq_none (by rw [a.width]; exact hm),
    Option.getD_none]

theorem exists_mem_shlBits {m i : ℕ} (hm : m < 8) :
    (∃ e ∈ a.shlBits shift, e.1 = m ∧ e.2.getLsbD i = true) ↔
      (shift / 32 ≤ m ∧ (a.pn.getD (m - shift / 32) 0 <<< (shift % 32)).getLsbD i = true) ∨
        (shift / 32 + 1 ≤ m ∧ shift % 32 ≠ 0 ∧
          (a.pn.getD (m - shift / 32 - 1) 0 >>> (32 - shift % 32)).getLsbD i = true) := by
  have hwidth : WIDTH = 8 := rfl
  simp only [shlBits, List.mem_flatMap, List.mem_range, List.mem_append, List.mem_ite_nil_right,
    List.mem_singleton]
  constructor
  · rintro ⟨e, ⟨n, hn, ⟨⟨hin, hs⟩, rfl⟩ | ⟨hin, rfl⟩⟩, rfl, hbit⟩
    · refine Or.inr ⟨by omega, hs, ?_⟩
      have hindex : n + shift / 32 + 1 - shift / 32 - 1 = n := by omega
      rw [hindex]
      exact hbit
    · refine Or.inl ⟨by omega, ?_⟩
      have hindex : n + shift / 32 - shift / 32 = n := by omega
      rw [hindex]
      exact hbit
  · rintro (⟨hk, hbit⟩ | ⟨hk, hs, hbit⟩)
    · exact ⟨_, ⟨m - shift / 32, by omega, Or.inr ⟨by omega, rfl⟩⟩, by omega, hbit⟩
    · exact ⟨_, ⟨m - shift / 32 - 1, by omega, Or.inl ⟨⟨by omega, hs⟩, rfl⟩⟩, by omega, hbit⟩

/-- **`operator<<=`.** -/
theorem toBitVec_shl (a : BaseUint) (shift : ℕ) :
    (a.shl shift).toBitVec = a.toBitVec <<< shift := by
  refine eq_of_limbs fun m hm i hi => ?_
  rw [getLsbD_toBitVec hi, Bool.eq_iff_iff, BitVec.getLsbD_shiftLeft]
  show ((Limbs.scatter (a.shlBits shift) (List.replicate WIDTH 0)).getD m 0).getLsbD i = true ↔ _
  rw [getLsbD_scatter_zero hm, exists_mem_shlBits hm, BitVec.getLsbD_shiftLeft,
    BitVec.getLsbD_ushiftRight]
  have hbound : 32 * m + i < 256 := by omega
  simp only [hi, hbound, decide_true, Bool.true_and, Bool.and_eq_true, Bool.not_eq_true',
    decide_eq_false_iff_not]
  by_cases hs : i < shift % 32
  · -- The bit comes from the limb before.
    by_cases hk : shift / 32 + 1 ≤ m
    · have hsplit : 32 * m + i - shift =
          32 * (m - shift / 32 - 1) + (32 - shift % 32 + i) := by omega
      rw [hsplit, getLsbD_toBitVec (by omega)]
      have hne : shift % 32 ≠ 0 := by omega
      have hge : ¬32 * m + i < shift := by omega
      simp [hs, hk, hne, hge]
    · have hlt : 32 * m + i < shift := by omega
      simp [hs, hk, hlt]
  · have hout : (a.pn.getD (m - shift / 32 - 1) 0).getLsbD (32 - shift % 32 + i) = false :=
      BitVec.getLsbD_of_ge _ _ (by omega)
    by_cases hk : shift / 32 ≤ m
    · have hsplit : 32 * m + i - shift = 32 * (m - shift / 32) + (i - shift % 32) := by omega
      rw [hsplit, getLsbD_toBitVec (by omega), hout]
      have hge : ¬32 * m + i < shift := by omega
      simp [hs, hk, hge]
    · have hlt : 32 * m + i < shift := by omega
      rw [hout]
      simp [hk, hlt]

theorem exists_mem_shrBits {m i : ℕ} :
    (∃ e ∈ a.shrBits shift, e.1 = m ∧ e.2.getLsbD i = true) ↔
      (m + shift / 32 < 8 ∧ (a.pn.getD (m + shift / 32) 0 >>> (shift % 32)).getLsbD i = true) ∨
        (m + shift / 32 + 1 < 8 ∧ shift % 32 ≠ 0 ∧
          (a.pn.getD (m + shift / 32 + 1) 0 <<< (32 - shift % 32)).getLsbD i = true) := by
  have hwidth : WIDTH = 8 := rfl
  simp only [shrBits, List.mem_flatMap, List.mem_range, List.mem_append, List.mem_ite_nil_right,
    List.mem_singleton]
  constructor
  · rintro ⟨e, ⟨n, hn, ⟨⟨hin, hs⟩, rfl⟩ | ⟨hin, rfl⟩⟩, rfl, hbit⟩
    · refine Or.inr ⟨by omega, hs, ?_⟩
      have hindex : n - shift / 32 - 1 + shift / 32 + 1 = n := by omega
      rw [hindex]
      exact hbit
    · refine Or.inl ⟨by omega, ?_⟩
      have hindex : n - shift / 32 + shift / 32 = n := by omega
      rw [hindex]
      exact hbit
  · rintro (⟨hk, hbit⟩ | ⟨hk, hs, hbit⟩)
    · exact ⟨_, ⟨m + shift / 32, by omega, Or.inr ⟨by omega, rfl⟩⟩, by omega, hbit⟩
    · exact ⟨_, ⟨m + shift / 32 + 1, by omega, Or.inl ⟨⟨by omega, hs⟩, rfl⟩⟩, by omega, hbit⟩

/-- **`operator>>=`.** -/
theorem toBitVec_shr (a : BaseUint) (shift : ℕ) :
    (a.shr shift).toBitVec = a.toBitVec >>> shift := by
  refine eq_of_limbs fun m hm i hi => ?_
  rw [getLsbD_toBitVec hi, Bool.eq_iff_iff, BitVec.getLsbD_ushiftRight]
  show ((Limbs.scatter (a.shrBits shift) (List.replicate WIDTH 0)).getD m 0).getLsbD i = true ↔ _
  rw [getLsbD_scatter_zero hm, exists_mem_shrBits, BitVec.getLsbD_shiftLeft,
    BitVec.getLsbD_ushiftRight]
  simp only [hi, decide_true, Bool.true_and, Bool.and_eq_true, Bool.not_eq_true',
    decide_eq_false_iff_not]
  by_cases hs : shift % 32 + i < 32
  · have hsplit : shift + (32 * m + i) = 32 * (m + shift / 32) + (shift % 32 + i) := by omega
    rw [hsplit, getLsbD_toBitVec hs]
    by_cases hk : m + shift / 32 < 8
    · have hlow : shift % 32 ≠ 0 → i < 32 - shift % 32 := by omega
      constructor
      · rintro (⟨-, hbit⟩ | ⟨-, hne, hge, -⟩)
        · exact hbit
        · exact absurd (hlow hne) hge
      · exact fun hbit => Or.inl ⟨hk, hbit⟩
    · rw [getD_pn_eq_zero (by omega)]
      simp [hk]
      omega
  · -- The bit comes from the limb above.
    have hsplit : shift + (32 * m + i) =
        32 * (m + shift / 32 + 1) + (i - (32 - shift % 32)) := by omega
    have hout : (a.pn.getD (m + shift / 32) 0).getLsbD (shift % 32 + i) = false :=
      BitVec.getLsbD_of_ge _ _ (by omega)
    rw [hsplit, getLsbD_toBitVec (by omega), hout]
    by_cases hk : m + shift / 32 + 1 < 8
    · have hne : shift % 32 ≠ 0 := by omega
      have hge : ¬i < 32 - shift % 32 := by omega
      simp [hk, hne, hge]
    · rw [getD_pn_eq_zero (by omega)]
      simp [hk]

/-! ### Comparisons -/

theorem compareLoop_reverse {l l' : List (BitVec 32)} (hlength : l.length = l'.length) :
    (compareLoop l.reverse l'.reverse < 0 ↔ Limbs.value l < Limbs.value l') ∧
      (compareLoop l.reverse l'.reverse > 0 ↔ Limbs.value l' < Limbs.value l) := by
  induction l using List.reverseRecOn generalizing l' with
  | nil =>
    obtain rfl := List.length_eq_zero_iff.1 hlength.symm
    simp [compareLoop]
  | append_singleton l p ih =>
    obtain ⟨l', q, rfl⟩ : ∃ m q, l' = m ++ [q] := by
      have hne : l' ≠ [] := by
        rintro rfl
        simp at hlength
      exact ⟨_, _, (List.dropLast_append_getLast hne).symm⟩
    have hrest : l.length = l'.length := by simpa using hlength
    rw [List.reverse_append, List.reverse_append, List.reverse_singleton, List.reverse_singleton,
      List.singleton_append, List.singleton_append, compareLoop]
    split
    · rename_i hlt
      have hvalue := Limbs.value_lt_of_last hrest hlt
      constructor
      · exact iff_of_true (by omega) hvalue
      · exact iff_of_false (by omega) (by omega)
    · rename_i hnlt
      split
      · rename_i hgt
        have hvalue := Limbs.value_lt_of_last hrest.symm hgt
        constructor
        · exact iff_of_false (by omega) (by omega)
        · exact iff_of_true (by omega) hvalue
      · rename_i hngt
        obtain rfl : p = q := BitVec.le_antisymm (BitVec.not_lt.1 hngt) (BitVec.not_lt.1 hnlt)
        rw [Limbs.value_lt_append_iff hrest, Limbs.value_lt_append_iff hrest.symm]
        exact ih hrest

/-- **`CompareTo`.** -/
theorem compareTo_spec (a b : BaseUint) :
    (a.compareTo b < 0 ↔ a.toBitVec < b.toBitVec) ∧ (a.compareTo b > 0 ↔ b.toBitVec < a.toBitVec) ∧
      (a.compareTo b = 0 ↔ a.toBitVec = b.toBitVec) := by
  have hloop := compareLoop_reverse (a.width.trans b.width.symm)
  have hneg : a.compareTo b < 0 ↔ a.toBitVec < b.toBitVec := by
    rw [BitVec.lt_def, toNat_toBitVec, toNat_toBitVec]
    exact hloop.1
  have hpos : a.compareTo b > 0 ↔ b.toBitVec < a.toBitVec := by
    rw [BitVec.lt_def, toNat_toBitVec, toNat_toBitVec]
    exact hloop.2
  refine ⟨hneg, hpos, ?_⟩
  have hzero : a.compareTo b = 0 ↔ ¬a.compareTo b < 0 ∧ ¬a.compareTo b > 0 := by omega
  rw [hzero, hneg, hpos, BitVec.not_lt, BitVec.not_lt]
  exact ⟨fun h => BitVec.le_antisymm h.2 h.1, fun h => h ▸ ⟨BitVec.le_refl _, BitVec.le_refl _⟩⟩

theorem compareTo_nonneg : a.compareTo b ≥ 0 ↔ b.toBitVec ≤ a.toBitVec := by
  have hneg := (compareTo_spec a b).1
  rw [← BitVec.not_lt, ← hneg]
  omega

theorem wordBits_eq {p : BitVec 32} (hp : p ≠ 0) {nbits : ℕ} (hbits : nbits < 32)
    (hlt : p.toNat < 2 ^ (nbits + 1)) : wordBits p nbits = Nat.size p.toNat := by
  have hpos : 0 < p.toNat := Nat.pos_of_ne_zero fun hzero => hp (BitVec.eq_of_toNat_eq hzero)
  induction nbits with
  | zero =>
    have hone : p.toNat = 1 := by omega
    rw [wordBits, hone]
    rfl
  | succ nbits ih =>
    have hmask : p &&& ((1 : BitVec 32) <<< (nbits + 1)) ≠ 0 ↔ 2 ^ (nbits + 1) ≤ p.toNat := by
      have htwo : (2 : ℕ) ^ (nbits + 1 + 1) = 2 ^ (nbits + 1) * 2 := Nat.pow_succ ..
      have hdiv : p.toNat / 2 ^ (nbits + 1) < 2 := by
        rw [Nat.div_lt_iff_lt_mul (Nat.two_pow_pos _)]
        omega
      have hbit : p.getLsbD (nbits + 1) = true ↔ 2 ^ (nbits + 1) ≤ p.toNat := by
        rw [← BitVec.testBit_toNat, Nat.testBit_eq_decide_div_mod_eq, decide_eq_true_eq,
          Nat.mod_eq_of_lt hdiv, ← Nat.one_le_div_iff (Nat.two_pow_pos _)]
        omega
      show p &&& BitVec.twoPow 32 (nbits + 1) ≠ 0 ↔ _
      rw [BitVec.and_twoPow, ← hbit]
      split
      · rename_i hset
        have hpow : BitVec.twoPow 32 (nbits + 1) ≠ 0 := by
          intro hzero
          have hself : (BitVec.twoPow 32 (nbits + 1)).getLsbD (nbits + 1) = true := by simp [hbits]
          rw [hzero] at hself
          simp at hself
        exact iff_of_true hpow hset
      · rename_i hclear
        exact iff_of_false (fun hne => hne rfl) hclear
    rw [wordBits]
    split
    · rename_i hset
      exact (Limbs.size_eq_of_bounds (hmask.1 hset) hlt).symm
    · rename_i hclear
      exact ih (by omega) (Nat.lt_of_not_le fun hle => hclear (hmask.2 hle))

/-- **`bits`.** -/
theorem bits_eq (a : BaseUint) : a.bits = Nat.size a.toBitVec.toNat := by
  have hloop : ∀ l : List (BitVec 32), bitsLoop l.reverse = Nat.size (Limbs.value l) := by
    intro l
    induction l using List.reverseRecOn with
    | nil => rfl
    | append_singleton l p ih =>
      rw [List.reverse_append, List.reverse_singleton, List.singleton_append, bitsLoop]
      split
      · rename_i hp
        rw [Limbs.size_value_append hp, List.length_reverse, wordBits_eq hp (by omega) p.isLt]
      · rename_i hp
        rw [not_ne_iff.1 hp, Limbs.size_value_append_zero, ih]
  rw [bits, hloop, toNat_toBitVec]

/-! ### Division -/

theorem toBitVec_setBit (a : BaseUint) (hshift : shift < 256) :
    (a.setBit shift).toBitVec = a.toBitVec ||| BitVec.twoPow 256 shift := by
  refine eq_of_limbs fun m hm i hi => ?_
  have hmask : shift &&& 31 = shift % 32 := Nat.and_two_pow_sub_one_eq_mod shift 5
  have hscatter : (a.setBit shift).pn =
      Limbs.scatter [(shift / 32, BitVec.twoPow 32 (shift % 32))] a.pn := by
    rw [← hmask]
    rfl
  rw [Bool.eq_iff_iff, getLsbD_toBitVec hi, BitVec.getLsbD_or, getLsbD_toBitVec hi, hscatter,
    Limbs.getLsbD_scatter (by rw [a.width]; exact hm), Bool.or_eq_true, BitVec.getLsbD_twoPow]
  refine or_congr_right ?_
  simp only [List.mem_singleton, exists_eq_left, BitVec.getLsbD_twoPow, Bool.and_eq_true,
    decide_eq_true_eq]
  omega

theorem toNat_setBit (hshift : shift < 256) (hdvd : 2 ^ (shift + 1) ∣ a.toBitVec.toNat) :
    (a.setBit shift).toBitVec.toNat = a.toBitVec.toNat + 2 ^ shift := by
  obtain ⟨c, hc⟩ := hdvd
  have hlt : 2 ^ shift < 2 ^ (shift + 1) := Nat.pow_lt_pow_right (by omega) (by omega)
  rw [toBitVec_setBit a hshift, BitVec.toNat_or, hc, BitVec.toNat_twoPow,
    Nat.mod_eq_of_lt (Nat.pow_lt_pow_right (by omega) hshift),
    Nat.two_pow_add_eq_or_of_lt hlt]

/-- **The loop of `operator/=`** adds the quotient of what is left, bit by bit. -/
theorem toNat_divLoop {d n : ℕ} {quotient num div : BaseUint} (hd : 0 < d) (hn : n ≤ 256)
    (hdiv : ∀ shift, n = shift + 1 → div.toBitVec.toNat = d * 2 ^ shift)
    (hnum : num.toBitVec.toNat < d * 2 ^ n) (hquotient : 2 ^ n ∣ quotient.toBitVec.toNat) :
    (divLoop n quotient num div).toBitVec.toNat =
      quotient.toBitVec.toNat + num.toBitVec.toNat / d := by
  induction n generalizing quotient num div with
  | zero =>
    rw [Nat.pow_zero, Nat.mul_one] at hnum
    rw [divLoop, Nat.div_eq_of_lt hnum, Nat.add_zero]
  | succ shift ih =>
    have hcurrent := hdiv shift rfl
    have htwo : (2 : ℕ) ^ (shift + 1) = 2 ^ shift * 2 := Nat.pow_succ ..
    have hhalf : ∀ next, shift = next + 1 → (div.shr 1).toBitVec.toNat = d * 2 ^ next := by
      rintro next rfl
      rw [toBitVec_shr, BitVec.toNat_ushiftRight, Nat.shiftRight_eq_div_pow, hcurrent, Nat.pow_succ,
        Nat.pow_one, ← Nat.mul_assoc, Nat.mul_div_cancel _ (by omega)]
    have hlower : 2 ^ shift ∣ quotient.toBitVec.toNat :=
      (Nat.pow_dvd_pow 2 (Nat.le_succ shift)).trans hquotient
    rw [divLoop]
    split
    · rename_i hge
      have hle := BitVec.le_def.1 (compareTo_nonneg.1 hge)
      have hsub : (num.sub div).toBitVec.toNat = num.toBitVec.toNat - d * 2 ^ shift := by
        rw [toBitVec_sub, BitVec.toNat_sub_of_le (BitVec.le_def.2 hle), hcurrent]
      have hset := @toNat_setBit quotient shift (by omega) hquotient
      rw [ih (by omega) hhalf, hset, hsub]
      · rw [hcurrent] at hle
        have hquot : (num.toBitVec.toNat - d * 2 ^ shift) / d =
          num.toBitVec.toNat / d - 2 ^ shift :=
          Nat.sub_mul_div _ _ _
        have hge : 2 ^ shift ≤ num.toBitVec.toNat / d :=
          (Nat.le_div_iff_mul_le hd).2 (by rw [Nat.mul_comm]; exact hle)
        omega
      · rw [hsub]
        rw [htwo, ← Nat.mul_assoc] at hnum
        rw [hcurrent] at hle
        omega
      · rw [hset]
        exact Nat.dvd_add hlower (Nat.dvd_refl _)
    · rename_i hlt
      rw [compareTo_nonneg, BitVec.le_def, hcurrent] at hlt
      exact ih (by omega) hhalf (by omega) hlower

/-- **`operator/=`** is the floor of the quotient, and fails for the divisor zero only. -/
theorem toBitVec_div (a b : BaseUint) : (a.div b).map toBitVec =
    if b.toBitVec = 0 then .error "Division by zero" else .ok (a.toBitVec / b.toBitVec) := by
  have hzero : b.bits = 0 ↔ b.toBitVec = 0 := by
    rw [bits_eq, Nat.size_eq_zero]
    exact ⟨fun h => BitVec.eq_of_toNat_eq h, fun h => by rw [h]; rfl⟩
  rw [div]
  split
  · rename_i hbits
    rw [if_pos (hzero.1 hbits)]
    rfl
  · rename_i hbits
    have hne : b.toBitVec ≠ 0 := fun h => hbits (hzero.2 h)
    rw [if_neg hne]
    have hpos : 0 < b.toBitVec.toNat :=
      Nat.pos_of_ne_zero fun h => hne (BitVec.eq_of_toNat_eq h)
    split
    · -- The divisor has more bits.
      rename_i hmore
      rw [bits_eq, bits_eq] at hmore
      have hlt : a.toBitVec.toNat < b.toBitVec.toNat :=
        Nat.lt_of_lt_of_le (Nat.lt_size_self _) (Nat.lt_size.1 hmore)
      refine congrArg Except.ok (BitVec.eq_of_toNat_eq ?_)
      rw [toBitVec_ofUInt64, BitVec.toNat_udiv, Nat.div_eq_of_lt hlt]
      rfl
    · rename_i hmore
      have hbound : Nat.size a.toBitVec.toNat ≤ 256 := Nat.size_le.2 a.toBitVec.isLt
      have hsize : 0 < Nat.size b.toBitVec.toNat := Nat.size_pos.2 hpos
      rw [bits_eq, bits_eq] at hmore ⊢
      obtain ⟨shift, hshift⟩ : ∃ shift,
          Nat.size a.toBitVec.toNat = Nat.size b.toBitVec.toNat + shift :=
        ⟨Nat.size a.toBitVec.toNat - Nat.size b.toBitVec.toNat, by omega⟩
      have hsub : Nat.size a.toBitVec.toNat - Nat.size b.toBitVec.toNat = shift := by omega
      rw [hsub]
      -- The divisor is shifted until it has as many bits.
      have haligned : b.toBitVec.toNat * 2 ^ shift < 2 ^ 256 := by
        have hlt : b.toBitVec.toNat * 2 ^ shift < 2 ^ Nat.size b.toBitVec.toNat * 2 ^ shift :=
          Nat.mul_lt_mul_of_pos_right (Nat.lt_size_self _) (Nat.two_pow_pos _)
        rw [← Nat.pow_add] at hlt
        exact Nat.lt_of_lt_of_le hlt (Nat.pow_le_pow_right (by omega) (by omega))
      have hdiv : (b.shl shift).toBitVec.toNat = b.toBitVec.toNat * 2 ^ shift := by
        rw [toBitVec_shl, BitVec.toNat_shiftLeft, Nat.shiftLeft_eq, Nat.mod_eq_of_lt haligned]
      have hnum : a.toBitVec.toNat < b.toBitVec.toNat * 2 ^ (shift + 1) := by
        have hlow : 2 ^ (Nat.size b.toBitVec.toNat - 1) ≤ b.toBitVec.toNat :=
          Nat.lt_size.1 (by omega)
        have hle := Nat.mul_le_mul_right (2 ^ (shift + 1)) hlow
        rw [← Nat.pow_add] at hle
        have hexp : Nat.size b.toBitVec.toNat - 1 + (shift + 1) = Nat.size a.toBitVec.toNat := by
          omega
        rw [hexp] at hle
        exact Nat.lt_of_lt_of_le (Nat.lt_size_self _) hle
      have hnone : (ofUInt64 0).toBitVec.toNat = 0 := by
        rw [toBitVec_ofUInt64]
        rfl
      refine congrArg Except.ok (BitVec.eq_of_toNat_eq ?_)
      rw [toNat_divLoop hpos (by omega) ?_ hnum ?_, hnone, Nat.zero_add, BitVec.toNat_udiv]
      · rintro s hs
        obtain rfl : shift = s := by omega
        exact hdiv
      · rw [hnone]
        exact Nat.dvd_zero _

theorem toBitVec_injective : Function.Injective toBitVec := by
  rintro ⟨pn, hpn⟩ ⟨qn, hqn⟩ h
  have hlimb : ∀ m : ℕ, m < 8 → pn.getD m 0 = qn.getD m 0 := by
    intro m hm
    refine BitVec.eq_of_getLsbD_eq fun i hi => ?_
    have hbit := congrArg (fun x : BitVec 256 => x.getLsbD (32 * m + i)) h
    simp only [getLsbD_toBitVec hi] at hbit
    exact hbit
  have hlist : pn = qn := by
    refine List.ext_getElem (hpn.trans hqn.symm) fun m hm hm' => ?_
    have hsame := hlimb m (by rw [hpn] at hm; exact hm)
    rw [List.getD_eq_getElem?_getD, List.getD_eq_getElem?_getD, List.getElem?_eq_getElem hm,
      List.getElem?_eq_getElem hm'] at hsame
    exact hsame
  subst hlist
  rfl

/-- **`EqualTo`.** -/
theorem equalTo_iff {b : BitVec 64} : a.equalTo b = true ↔ a.toBitVec = b.setWidth 256 := by
  rw [← toBitVec_ofUInt64, toBitVec_injective.eq_iff]
  obtain ⟨pn, hpn⟩ := a
  obtain ⟨p₀, p₁, p₂, p₃, p₄, p₅, p₆, p₇, rfl⟩ :
      ∃ p₀ p₁ p₂ p₃ p₄ p₅ p₆ p₇, pn = [p₀, p₁, p₂, p₃, p₄, p₅, p₆, p₇] := by
    match pn, hpn with
    | [p₀, p₁, p₂, p₃, p₄, p₅, p₆, p₇], _ => exact ⟨p₀, p₁, p₂, p₃, p₄, p₅, p₆, p₇, rfl⟩
  rw [equalTo, ofUInt64, setWidth_lowWord]
  simp
  tauto

/-- **`GetLow64`.** -/
theorem getLow64_eq (a : BaseUint) : a.getLow64 = a.toBitVec.setWidth 64 := by
  refine BitVec.eq_of_getLsbD_eq fun i hi => ?_
  rw [getLow64, BitVec.getLsbD_or, BitVec.getLsbD_shiftLeft]
  simp only [BitVec.getLsbD_setWidth, hi, decide_true, Bool.true_and]
  by_cases hlow : i < 32
  · have hbit := @getLsbD_toBitVec a 0 i hlow
    rw [Nat.mul_zero, Nat.zero_add] at hbit
    simp [hlow, hbit]
  · have hbit := @getLsbD_toBitVec a 1 (i - 32) (by omega)
    have hindex : 32 * 1 + (i - 32) = i := by omega
    have hout : (a.pn.getD 0 0).getLsbD i = false := BitVec.getLsbD_of_ge _ _ (by omega)
    rw [hindex] at hbit
    rw [hbit, hout]
    have hshift : i - 32 < 64 := by omega
    simp [hlow, hshift]

end BaseUint

end UnemployCoin
