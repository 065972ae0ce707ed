import Mathlib.Data.List.Induction
import Mathlib.Data.Nat.Bitwise
import UnemployCoin.Bytes
import UnemployCoin.Lib.Generations
/-!
# The rolling bloom filter

`CRollingBloomFilter` (`bloom.cpp`).  A place of the table has a mark of two bits, which are in two
words one after the other: bit `pos & 63` of `data[pos & ~1]` and of `data[pos | 1]`.  No bit set is
no mark, and the other marks are the generations 1, 2 and 3.

The hash function is a parameter, and so is what the constructor derives from the rate of false
positives: the number of hash functions and of bits.
-/

namespace UnemployCoin

open Generations

structure CRollingBloomFilter where
  nEntriesPerGeneration : Int32
  nEntriesThisGeneration : Int32
  nGeneration : ℕ
  data : List (BitVec 64)
  nTweak : UInt32
  nHashFuncs : ℕ

namespace CRollingBloomFilter

/-- The constructor, after it has derived `nHashFuncs` and `nFilterBits`. -/
def new (nElements : UInt32) (nHashFuncs : ℕ) (nFilterBits nTweak : UInt32) :
    CRollingBloomFilter where
  nEntriesPerGeneration := Int32.ofNat ((nElements + 1) / 2).toNat
  nEntriesThisGeneration := 0
  nGeneration := 1
  data := List.replicate (((nFilterBits + 63) / 64) <<< 1).toNat 0
  nTweak := nTweak
  nHashFuncs := nHashFuncs

section Operations

variable (MurmurHash3 : UInt32 → Bytes → UInt32)

def rollingBloomHash (nHashNum : ℕ) (nTweak : UInt32) (vDataToHash : Bytes) : UInt32 :=
  MurmurHash3 (UInt32.ofNat nHashNum * 0xFBA4C795 + nTweak) vDataToHash

/-- `pos` and `bit` of a hash, in a table of some size. -/
def position (size : ℕ) (h : UInt32) : UInt32 × ℕ :=
  (UInt32.ofNat ((h >>> 6).toNat % size), (h &&& 0x3F).toNat)

def wipe (nGenerationMask1 nGenerationMask2 : BitVec 64) : List (BitVec 64) → List (BitVec 64)
  | p1 :: p2 :: data =>
    let mask := (p1 ^^^ nGenerationMask1) ||| (p2 ^^^ nGenerationMask2)
    (p1 &&& mask) :: (p2 &&& mask) :: wipe nGenerationMask1 nGenerationMask2 data
  | data => data

def setBit (data : List (BitVec 64)) (i bit value : ℕ) : List (BitVec 64) :=
  data.set i ((data.getD i 0 &&& ~~~(1#64 <<< bit)) ||| BitVec.ofNat 64 value <<< bit)

def setMark (nGeneration : ℕ) (data : List (BitVec 64)) (pos : UInt32) (bit : ℕ) :
    List (BitVec 64) :=
  setBit (setBit data (pos &&& ~~~1).toNat bit (nGeneration &&& 1)) (pos ||| 1).toNat bit
    (nGeneration >>> 1)

variable (filter : CRollingBloomFilter)

def beginGeneration : CRollingBloomFilter :=
  let nGeneration := if filter.nGeneration + 1 = 4 then 1 else filter.nGeneration + 1
  { filter with
    nEntriesThisGeneration := 0
    nGeneration := nGeneration
    data := wipe (0 - BitVec.ofNat 64 (nGeneration &&& 1)) (0 - BitVec.ofNat 64 (nGeneration >>> 1))
      filter.data }

def addKey (vKey : Bytes) : CRollingBloomFilter :=
  { filter with
    nEntriesThisGeneration := filter.nEntriesThisGeneration + 1
    data := (List.range filter.nHashFuncs).foldl (fun data n =>
      let h := rollingBloomHash MurmurHash3 n filter.nTweak vKey
      let (pos, bit) := position data.length h
      setMark filter.nGeneration data pos bit) filter.data }

def insert (vKey : Bytes) : CRollingBloomFilter :=
  if filter.nEntriesThisGeneration = filter.nEntriesPerGeneration then
    filter.beginGeneration.addKey MurmurHash3 vKey
  else filter.addKey MurmurHash3 vKey

def contains (vKey : Bytes) : Bool :=
  (List.range filter.nHashFuncs).all fun n =>
    let h := rollingBloomHash MurmurHash3 n filter.nTweak vKey
    let (pos, bit) := position filter.data.length h
    ((filter.data.getD (pos &&& ~~~1).toNat 0 ||| filter.data.getD (pos ||| 1).toNat 0) >>> bit
      &&& 1) != 0

end Operations

/-! ## Words and marks -/

section Words

theorem toNat_even (pos : UInt32) : (pos &&& ~~~1).toNat = 2 * (pos.toNat / 2) := by
  have hlt := pos.toNat_lt
  have hmask : (~~~(1 : UInt32)).toNat = 4294967294 := by decide
  have hdiv : (pos.toNat &&& 4294967294) / 2 = pos.toNat / 2 := by
    rw [Nat.and_div_two]
    exact (Nat.and_two_pow_sub_one_eq_mod _ 31).trans (Nat.mod_eq_of_lt (by omega))
  have hmod : (pos.toNat &&& 4294967294) % 2 = 0 := by
    rw [@Nat.and_mod_two_pow _ _ 1]
    simp
  rw [UInt32.toNat_and, hmask]
  omega

theorem toNat_odd (pos : UInt32) : (pos ||| 1).toNat = 2 * (pos.toNat / 2) + 1 := by
  have hdiv : (pos.toNat ||| 1) / 2 = pos.toNat / 2 := by
    rw [Nat.or_div_two]
    simp
  have hmod : (pos.toNat ||| 1) % 2 = 1 := by
    rw [Nat.or_mod_two_eq_one]
    simp
  have hor : (pos ||| 1).toNat = pos.toNat ||| 1 := UInt32.toNat_or pos 1
  rw [hor]
  omega

theorem getLsbD_mask {b j : ℕ} (hb : b = 0 ∨ b = 1) (hj : j < 64) :
    (0 - BitVec.ofNat 64 b).getLsbD j = decide (b = 1) := by
  rcases hb with rfl | rfl
  · simp
  · have hones : 0 - BitVec.ofNat 64 1 = BitVec.allOnes 64 := by decide
    rw [hones, BitVec.getLsbD_allOnes]
    simpa using hj

theorem getLsbD_write (x : BitVec 64) {bit j b : ℕ} (hj : j < 64) (hb : b = 0 ∨ b = 1) :
    ((x &&& ~~~(1#64 <<< bit)) ||| BitVec.ofNat 64 b <<< bit).getLsbD j =
      if j = bit then decide (b = 1) else x.getLsbD j := by
  rcases hb with rfl | rfl <;> rcases Nat.lt_trichotomy j bit with hlt | rfl | hgt
  · simp [hj, hlt, Nat.ne_of_lt hlt]
  · simp [hj]
  · have hsub : j - bit ≠ 0 := by omega
    simp [hj, Nat.ne_of_gt hgt, hsub]
  · simp [hj, hlt, Nat.ne_of_lt hlt]
  · simp [hj]
  · have hsub : j - bit ≠ 0 := by omega
    simp [hj, Nat.ne_of_gt hgt, hsub]

theorem getLsbD_wipe (x y z : BitVec 64) {b c j : ℕ} (hj : j < 64) (hb : b = 0 ∨ b = 1)
    (hc : c = 0 ∨ c = 1) :
    (z &&& ((x ^^^ (0 - BitVec.ofNat 64 b)) ||| (y ^^^ (0 - BitVec.ofNat 64 c)))).getLsbD j =
      (z.getLsbD j && (x.getLsbD j != decide (b = 1) || y.getLsbD j != decide (c = 1))) := by
  rw [BitVec.getLsbD_and, BitVec.getLsbD_or, BitVec.getLsbD_xor, BitVec.getLsbD_xor,
    getLsbD_mask hb hj, getLsbD_mask hc hj]

end Words

section Marks

variable {data : List (BitVec 64)} {g i : ℕ} {pos : UInt32} {a : ℕ × Fin 64}

def bitAt (data : List (BitVec 64)) (i : ℕ) (bit : Fin 64) : Bool := (data.getD i 0).getLsbD bit

def mark (data : List (BitVec 64)) (a : ℕ × Fin 64) : ℕ :=
  (bitAt data (2 * a.1) a.2).toNat + 2 * (bitAt data (2 * a.1 + 1) a.2).toNat

theorem bits_generation (hg : g = 1 ∨ g = 2 ∨ g = 3) :
    (g &&& 1 = 0 ∨ g &&& 1 = 1) ∧ (g >>> 1 = 0 ∨ g >>> 1 = 1) ∧
      (decide (g &&& 1 = 1)).toNat + 2 * (decide (g >>> 1 = 1)).toNat = g := by
  rcases hg with rfl | rfl | rfl <;> decide

theorem length_setBit (data : List (BitVec 64)) (i bit value : ℕ) :
    (setBit data i bit value).length = data.length := List.length_set

theorem bitAt_setBit {i' value : ℕ} {bit bit' : Fin 64} (hi : i < data.length)
    (hvalue : value = 0 ∨ value = 1) :
    bitAt (setBit data i bit value) i' bit' =
      if i' = i ∧ bit' = bit then decide (value = 1) else bitAt data i' bit' := by
  rw [bitAt, bitAt, setBit]
  by_cases hsame : i' = i
  · subst hsame
    rw [List.getD_eq_getElem?_getD, List.getElem?_set_self hi, Option.getD_some,
      getLsbD_write _ bit'.isLt hvalue]
    simp only [true_and, Fin.ext_iff]
  · rw [List.getD_eq_getElem?_getD, List.getElem?_set_ne (Ne.symm hsame),
      ← List.getD_eq_getElem?_getD, if_neg fun h => hsame h.1]

/-- **A place that is marked.** -/
theorem mark_setMark {bit : Fin 64} (hg : g = 1 ∨ g = 2 ∨ g = 3) (heven : data.length % 2 = 0)
    (hpos : pos.toNat < data.length) :
    mark (setMark g data pos bit) a = if a = (pos.toNat / 2, bit) then g else mark data a := by
  obtain ⟨hlow, hhigh, hsum⟩ := bits_generation hg
  have heven' : 2 * (pos.toNat / 2) < data.length := by omega
  have hodd' : 2 * (pos.toNat / 2) + 1 <
      (setBit data (2 * (pos.toNat / 2)) bit (g &&& 1)).length := by
    rw [length_setBit]
    omega
  rw [mark, mark, setMark, toNat_even, toNat_odd, bitAt_setBit hodd' hhigh,
    bitAt_setBit heven' hlow, bitAt_setBit hodd' hhigh, bitAt_setBit heven' hlow]
  by_cases hsame : a = (pos.toNat / 2, bit)
  · subst hsame
    rw [if_pos rfl, if_neg (by omega), if_pos ⟨rfl, rfl⟩, if_pos ⟨rfl, rfl⟩]
    exact hsum
  · have hfirst : ¬(2 * a.1 = 2 * (pos.toNat / 2) ∧ a.2 = bit) := by
      rintro ⟨hfst, hsnd⟩
      exact hsame (Prod.ext (by omega) hsnd)
    have hsecond : ¬(2 * a.1 + 1 = 2 * (pos.toNat / 2) + 1 ∧ a.2 = bit) := by
      rintro ⟨hfst, hsnd⟩
      exact hsame (Prod.ext (by omega) hsnd)
    rw [if_neg hsame, if_neg (by omega), if_neg hfirst, if_neg hsecond, if_neg (by omega)]

theorem length_setMark (g : ℕ) (data : List (BitVec 64)) (pos : UInt32) (bit : ℕ) :
    (setMark g data pos bit).length = data.length := by
  rw [setMark, length_setBit, length_setBit]

theorem length_wipe (m m' : BitVec 64) (data : List (BitVec 64)) :
    (wipe m m' data).length = data.length := by
  fun_induction wipe m m' data with
  | case1 p1 p2 data mask ih => rw [List.length_cons, List.length_cons, ih, List.length_cons,
      List.length_cons]
  | case2 => rfl

theorem mark_cons (p1 p2 : BitVec 64) (data : List (BitVec 64)) (q : ℕ) (bit : Fin 64) :
    mark (p1 :: p2 :: data) (q + 1, bit) = mark data (q, bit) := rfl

theorem mark_pair {x y : Bool} (hg : g = 1 ∨ g = 2 ∨ g = 3) :
    (x && (x != decide (g &&& 1 = 1) || y != decide (g >>> 1 = 1))).toNat +
        2 * (y && (x != decide (g &&& 1 = 1) || y != decide (g >>> 1 = 1))).toNat =
      if x.toNat + 2 * y.toNat = g then 0 else x.toNat + 2 * y.toNat := by
  rcases hg with rfl | rfl | rfl <;> cases x <;> cases y <;> rfl

/-- **The marks of a generation that is wiped.** -/
theorem mark_wipe (hg : g = 1 ∨ g = 2 ∨ g = 3) (heven : data.length % 2 = 0) (a : ℕ × Fin 64) :
    mark (wipe (0 - BitVec.ofNat 64 (g &&& 1)) (0 - BitVec.ofNat 64 (g >>> 1)) data) a =
      if mark data a = g then 0 else mark data a := by
  obtain ⟨hlow, hhigh, -⟩ := bits_generation hg
  obtain ⟨q, bit⟩ := a
  induction data using List.twoStepInduction generalizing q with
  | nil =>
    have hzero : mark [] (q, bit) = 0 := by simp [mark, bitAt]
    rw [wipe, hzero, ite_self]
    all_goals nofun
  | singleton p =>
    cases heven
  | cons_cons p1 p2 data ih _ =>
    rw [wipe]
    cases q with
    | zero =>
      have hfirst := getLsbD_wipe p1 p2 p1 bit.isLt hlow hhigh
      have hsecond := getLsbD_wipe p1 p2 p2 bit.isLt hlow hhigh
      rw [mark, mark, bitAt, bitAt, bitAt, bitAt]
      exact (congrArg₂ (fun u v : Bool => u.toNat + 2 * v.toNat) hfirst hsecond).trans
        (mark_pair hg)
    | succ q =>
      rw [mark_cons, mark_cons]
      refine ih ?_ q
      rw [List.length_cons, List.length_cons] at heven
      omega

end Marks

/-! ## The invariant -/

section Invariant

variable {MurmurHash3 : UInt32 → Bytes → UInt32} {filter : CRollingBloomFilter} {past : List Bytes}

def placeOf (size : ℕ) (h : UInt32) : ℕ × Fin 64 :=
  ((position size h).1.toNat / 2, Fin.ofNat 64 (position size h).2)

def Places (MurmurHash3 : UInt32 → Bytes → UInt32) (size : ℕ) (nTweak : UInt32) (nHashFuncs : ℕ)
    (vKey : Bytes) (a : ℕ × Fin 64) : Prop :=
  ∃ n ∈ List.range nHashFuncs, a = placeOf size (rollingBloomHash MurmurHash3 n nTweak vKey)

theorem position_lt {size : ℕ} (hpos : 0 < size) (hsize : size < 2 ^ 32) (h : UInt32) :
    (position size h).1.toNat < size := by
  have hmod := Nat.mod_lt (h >>> 6).toNat hpos
  have hlt : (h >>> 6).toNat % size < 2 ^ 32 := by omega
  rw [position, UInt32.toNat_ofNat_of_lt' hlt]
  exact hmod

theorem bit_lt (size : ℕ) (h : UInt32) : (position size h).2 < 64 := by
  rw [position, UInt32.toNat_and]
  exact Nat.lt_of_le_of_lt Nat.and_le_right (by decide)

theorem bit_eq (size : ℕ) (h : UInt32) :
    ((placeOf size h).2 : ℕ) = (position size h).2 := Nat.mod_eq_of_lt (bit_lt size h)

/-- How many keys a generation has.  With no entries for a generation the count has to wrap. -/
def period (entries : ℕ) : ℕ := if entries = 0 then 2 ^ 32 else entries

/-- What holds after some keys, the last one first: a table of pairs of words, a count of the keys
of this generation, and marks that are as recent as they should be. -/
structure Good (MurmurHash3 : UInt32 → Bytes → UInt32) (entries : ℕ) (filter : CRollingBloomFilter)
    (past : List Bytes) : Prop where
  even : filter.data.length % 2 = 0
  pos : 0 < filter.data.length
  small : filter.data.length < 2 ^ 32
  perGeneration : filter.nEntriesPerGeneration = Int32.ofNat entries
  bound : entries < 2 ^ 31
  keeps : ∃ c ≤ period entries, filter.nEntriesThisGeneration = Int32.ofNat c ∧
    (Int32.ofNat c = Int32.ofNat entries ↔ c = period entries) ∧
    Keeps (Places MurmurHash3 filter.data.length filter.nTweak filter.nHashFuncs) (period entries)
      c filter.nGeneration (mark filter.data) past

theorem foldl_setMark {g : ℕ} {data : List (BitVec 64)} (hg : g = 1 ∨ g = 2 ∨ g = 3)
    (heven : data.length % 2 = 0) (hpos : 0 < data.length) (hsmall : data.length < 2 ^ 32)
    (hash : ℕ → UInt32) (l : List ℕ) :
    let marked := l.foldl (fun data n =>
      setMark g data (position data.length (hash n)).1 (position data.length (hash n)).2) data
    marked.length = data.length ∧ ∀ a, mark marked a =
      if ∃ n ∈ l, a = placeOf data.length (hash n) then g else mark data a := by
  induction l generalizing data with
  | nil => exact ⟨rfl, fun a => (if_neg (by rintro ⟨n, hn, -⟩; cases hn)).symm⟩
  | cons n l ih =>
    dsimp only
    rw [List.foldl_cons]
    have hlength := length_setMark g data (position data.length (hash n)).1
      (position data.length (hash n)).2
    obtain ⟨hsame, hmark⟩ := @ih (setMark g data (position data.length (hash n)).1
      (position data.length (hash n)).2) (by rwa [hlength]) (by rwa [hlength]) (by rwa [hlength])
    refine ⟨hsame.trans hlength, ?_⟩
    intro a
    have hone := @mark_setMark data g (position data.length (hash n)).1 a
      (placeOf data.length (hash n)).2 hg heven (position_lt hpos hsmall _)
    rw [bit_eq] at hone
    rw [hmark a, hlength, hone]
    simp only [List.mem_cons, exists_eq_or_imp]
    by_cases hrest : ∃ m ∈ l, a = placeOf data.length (hash m)
    · rw [if_pos hrest, if_pos (.inr hrest)]
    · rw [if_neg hrest]
      simp only [hrest, or_false]
      rfl

theorem ofNat_eq_iff {c e : ℕ} : Int32.ofNat c = Int32.ofNat e ↔ c % 2 ^ 32 = e % 2 ^ 32 := by
  rw [← Int32.toBitVec_inj, Int32.toBitVec_ofNat', Int32.toBitVec_ofNat', ← BitVec.toNat_inj,
    BitVec.toNat_ofNat, BitVec.toNat_ofNat]

theorem full_iff {c entries : ℕ} (hbound : entries < 2 ^ 31) (hpos : 0 < c)
    (hle : c ≤ period entries) :
    Int32.ofNat c = Int32.ofNat entries ↔ c = period entries := by
  rw [ofNat_eq_iff]
  rw [period] at hle ⊢
  split at hle
  · rename_i hzero
    rw [if_pos hzero, hzero]
    omega
  · rename_i hne
    rw [if_neg hne]
    omega

theorem ofNat_succ (c : ℕ) : Int32.ofNat c + 1 = Int32.ofNat (c + 1) := by
  rw [Int32.ofNat_add]
  rfl

theorem Good.new {nElements nFilterBits nTweak : UInt32} {nHashFuncs : ℕ}
    (hpos : 0 < (new nElements nHashFuncs nFilterBits nTweak).data.length) :
    Good MurmurHash3 ((nElements + 1) / 2).toNat (new nElements nHashFuncs nFilterBits nTweak)
      [] := by
  have hlength : (CRollingBloomFilter.new nElements nHashFuncs nFilterBits nTweak).data.length =
      (((nFilterBits + 63) / 64) <<< 1).toNat := List.length_replicate
  have hbound : ((nElements + 1) / 2).toNat < 2 ^ 31 := by
    have hlt := (nElements + 1).toNat_lt
    rw [UInt32.toNat_div]
    change (nElements + 1).toNat / 2 < 2 ^ 31
    omega
  have hkeeps : ∀ c, Keeps (Places MurmurHash3
      (CRollingBloomFilter.new nElements nHashFuncs nFilterBits nTweak).data.length nTweak
      nHashFuncs) (period ((nElements + 1) / 2).toNat) c 1
      (mark (CRollingBloomFilter.new nElements nHashFuncs nFilterBits nTweak).data) [] :=
    fun c => ⟨.inl rfl, fun d _ j key h => nomatch h⟩
  refine ⟨?_, hpos, ?_, rfl, hbound, ?_⟩
  · rw [hlength, UInt32.toNat_shiftLeft]
    have hone : (1 : UInt32).toNat % 32 = 1 := rfl
    rw [hone]
    omega
  · rw [hlength]
    exact UInt32.toNat_lt _
  · rcases Nat.eq_zero_or_pos ((nElements + 1) / 2).toNat with hzero | hentries
    · -- The first key begins a generation.
      refine ⟨2 ^ 32, ?_, rfl, ?_, hkeeps _⟩
      · rw [period, if_pos hzero]
      · rw [period, if_pos hzero, hzero]
        exact iff_of_true rfl rfl
    · refine ⟨0, Nat.zero_le _, rfl, ?_, hkeeps _⟩
      rw [ofNat_eq_iff, period, if_neg (by omega)]
      omega

theorem mark_addKey (hg : filter.nGeneration = 1 ∨ filter.nGeneration = 2 ∨ filter.nGeneration = 3)
    (heven : filter.data.length % 2 = 0) (hpos : 0 < filter.data.length)
    (hsmall : filter.data.length < 2 ^ 32) (vKey : Bytes) :
    (filter.addKey MurmurHash3 vKey).data.length = filter.data.length ∧
      (∀ a, Places MurmurHash3 filter.data.length filter.nTweak filter.nHashFuncs vKey a →
        mark (filter.addKey MurmurHash3 vKey).data a = filter.nGeneration) ∧
      ∀ a, ¬Places MurmurHash3 filter.data.length filter.nTweak filter.nHashFuncs vKey a →
        mark (filter.addKey MurmurHash3 vKey).data a = mark filter.data a := by
  obtain ⟨hsame, hmark⟩ := foldl_setMark hg heven hpos hsmall
    (fun n => rollingBloomHash MurmurHash3 n filter.nTweak vKey) (List.range filter.nHashFuncs)
  exact ⟨hsame, fun a ha => (hmark a).trans (if_pos ha), fun a ha => (hmark a).trans (if_neg ha)⟩

/-- **What a key does.** -/
theorem Good.insert {entries : ℕ} (h : Good MurmurHash3 entries filter past) (vKey : Bytes) :
    Good MurmurHash3 entries (filter.insert MurmurHash3 vKey) (vKey :: past) := by
  obtain ⟨c, hle, hcount, hfull, hkeeps⟩ := h.keeps
  have hperiod : 0 < period entries := by
    rw [period]
    split <;> omega
  rw [CRollingBloomFilter.insert, hcount, h.perGeneration]
  split
  · -- The key begins a generation.
    rename_i heq
    have hc := hfull.1 heq
    subst hc
    have hnext := nextGeneration_mem hkeeps.generation
    have hlength : filter.beginGeneration.data.length = filter.data.length := length_wipe _ _ _
    obtain ⟨hsame, hnew, hold⟩ := @mark_addKey MurmurHash3 filter.beginGeneration hnext
      (hlength ▸ h.even) (hlength ▸ h.pos) (hlength ▸ h.small) vKey
    rw [hlength] at hsame hnew hold
    have hwipe : ∀ a, mark filter.beginGeneration.data a =
        if mark filter.data a = nextGeneration filter.nGeneration then 0 else mark filter.data a :=
      fun a => mark_wipe hnext h.even a
    refine ⟨hsame ▸ h.even, hsame ▸ h.pos, hsame ▸ h.small, h.perGeneration, h.bound, 1, hperiod,
      rfl, full_iff h.bound Nat.one_pos hperiod, ?_⟩
    rw [hsame]
    refine hkeeps.next hnew ?_
    intro a ha hne
    rw [hold a ha, hwipe a, if_neg hne]
  · rename_i hne
    have hc : c ≠ period entries := fun hc => hne (hfull.2 hc)
    obtain ⟨hsame, hnew, hold⟩ := @mark_addKey MurmurHash3 filter hkeeps.generation h.even h.pos
      h.small vKey
    refine ⟨hsame ▸ h.even, hsame ▸ h.pos, hsame ▸ h.small, h.perGeneration, h.bound, c + 1,
      by omega, ?_, full_iff h.bound (Nat.succ_pos c) (by omega), ?_⟩
    · rw [← ofNat_succ, ← hcount]
      rfl
    · rw [hsame]
      exact hkeeps.put hnew hold

theorem Good.foldl {entries : ℕ} (h : Good MurmurHash3 entries filter past) (keys : List Bytes) :
    Good MurmurHash3 entries (keys.foldl (CRollingBloomFilter.insert MurmurHash3) filter)
      (keys.reverse ++ past) := by
  induction keys generalizing filter past with
  | nil => exact h
  | cons vKey keys ih =>
    have hrest := ih (h.insert vKey)
    rwa [List.reverse_cons, List.append_assoc, List.singleton_append]

/-- **A key is contained where all its places are marked.** -/
theorem contains_of_mark {vKey : Bytes}
    (h : ∀ a, Places MurmurHash3 filter.data.length filter.nTweak filter.nHashFuncs vKey a →
      mark filter.data a ≠ 0) : filter.contains MurmurHash3 vKey = true := by
  rw [contains, List.all_eq_true]
  intro n hn
  have hmark := h _ ⟨n, hn, rfl⟩
  generalize rollingBloomHash MurmurHash3 n filter.nTweak vKey = hash at hmark
  have hbit : (((filter.data.getD (2 * ((position filter.data.length hash).1.toNat / 2)) 0 |||
      filter.data.getD (2 * ((position filter.data.length hash).1.toNat / 2) + 1) 0) >>>
        (position filter.data.length hash).2) &&& 1).getLsbD 0 = true := by
    by_contra hnone
    refine hmark ?_
    rw [mark, bitAt, bitAt, bit_eq]
    simpa [placeOf] using hnone
  rw [← toNat_odd, ← toNat_even] at hbit
  refine bne_iff_ne.2 ?_
  intro hzero
  have hfalse := hbit.symm.trans (congrArg (fun w : BitVec 64 => w.getLsbD 0) hzero)
  exact Bool.false_ne_true hfalse.symm

end Invariant

/-- **The last `nElements` keys are contained**, whatever the hash function, the number of hash
functions and the size of the table. -/
theorem contains_last (MurmurHash3 : UInt32 → Bytes → UInt32) (nElements : UInt32) (nHashFuncs : ℕ)
    (nFilterBits nTweak : UInt32)
    (hpos : 0 < (new nElements nHashFuncs nFilterBits nTweak).data.length) (keys : List Bytes) :
    ∀ vKey ∈ keys.reverse.take nElements.toNat,
      (keys.foldl (insert MurmurHash3) (new nElements nHashFuncs nFilterBits nTweak)).contains
        MurmurHash3 vKey = true := by
  intro vKey hmem
  have hgood := (@Good.new MurmurHash3 _ _ _ _ hpos).foldl keys
  rw [List.append_nil] at hgood
  obtain ⟨c, -, -, -, hkeeps⟩ := hgood.keeps
  obtain ⟨j, hj⟩ := List.mem_iff_getElem?.1 hmem
  have hlt : j < nElements.toNat := by
    by_contra hge
    rw [List.getElem?_take_eq_none (by omega)] at hj
    cases hj
  rw [List.getElem?_take_of_lt hlt] at hj
  apply contains_of_mark
  intro a ha
  refine hkeeps.mark_ne_zero hj ?_ ha
  have htwice : nElements.toNat ≤ 2 * period ((nElements + 1) / 2).toNat := by
    have hbound := nElements.toNat_lt
    rw [period, UInt32.toNat_div, UInt32.toNat_add]
    change nElements.toNat ≤ 2 * if (nElements.toNat + 1) % 2 ^ 32 / 2 = 0 then 2 ^ 32
      else (nElements.toNat + 1) % 2 ^ 32 / 2
    split <;> omega
  omega

/-- The last two of three keys, in a table of two words. -/
theorem contains_lastTwo :
    0 < (new 2 3 64 7).data.length ∧
      ∀ vKey ∈ ([[1], [2], [3, 4]] : List Bytes).reverse.take 2,
        (([[1], [2], [3, 4]] : List Bytes).foldl (insert fun seed v => seed + UInt32.ofNat v.length)
          (new 2 3 64 7)).contains (fun seed v => seed + UInt32.ofNat v.length) vKey = true := by
  have hpos : 0 < (new 2 3 64 7).data.length := by decide
  exact ⟨hpos, contains_last _ 2 3 64 7 hpos _⟩

end CRollingBloomFilter

end UnemployCoin
