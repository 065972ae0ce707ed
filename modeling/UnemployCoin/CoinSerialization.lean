import UnemployCoin.CoinsCache
import UnemployCoin.DiskIndex
import UnemployCoin.Lib.DecimalCode
/-!
# Coins on disk

How a coin is written to the coin database (`coins.h`) and to the undo files (`undo.h`): the
height with a flag, the amount in a short form, and the script in the form of its template where
it has one (`compressor.h`, `compressor.cpp`).  What the curve library says of a public key is
given.
-/

namespace UnemployCoin

open Check

/-- `CTxOutCompressor::CompressAmount`, the loop that takes factors of ten off, `k` at most. -/
def dropZeros : ℕ → UInt64 → UInt64 × ℕ
  | 0, n => (n, 0)
  | k + 1, n =>
    if n % 10 = 0 then ((dropZeros k (n / 10)).1, (dropZeros k (n / 10)).2 + 1) else (n, 0)

def compressAmount (n : UInt64) : UInt64 :=
  if n = 0 then 0
  else
    let (n, e) := dropZeros 9 n
    if e < 9 then 1 + (n / 10 * 9 + n % 10 - 1) * 10 + UInt64.ofNat e
    else 1 + (n - 1) * 10 + 9

/-- `CTxOutCompressor::DecompressAmount`, the loop that puts them back. -/
def addZeros : ℕ → UInt64 → UInt64
  | 0, n => n
  | e + 1, n => addZeros e (n * 10)

def decompressAmount (x : UInt64) : UInt64 :=
  if x = 0 then 0
  else
    let x := x - 1
    let e := (x % 10).toNat
    let x := x / 10
    addZeros e (if e < 9 then x / 9 * 10 + (x % 9 + 1) else x + 1)

/-! ## Scripts -/

/-- What `CPubKey` asks the curve library about the bytes of a key. -/
structure Secp256k1 where
  isFullyValid : Bytes → Bool
  /-- `CPubKey::Decompress`, of a key in the short form. -/
  decompress : Bytes → Option Bytes

def compressedKey (key : Bytes) : Bytes :=
  (2 ||| (key.at 64 &&& 1)) :: key.substr 1 32

/-- Decompressing inverts compressing on the keys that are fully valid. -/
def Secp256k1.Inverts (K : Secp256k1) : Prop :=
  ∀ key : Bytes, key.length = 65 → key.at 0 = 4 → K.isFullyValid key = true →
    K.decompress (compressedKey key) = some key

namespace CScriptCompressor

def nSpecialScripts : ℕ := 6

def isToKeyID (script : CScript) : Option Bytes :=
  if script.length = 25 ∧ script.at 0 = OP_DUP ∧ script.at 1 = OP_HASH160 ∧ script.at 2 = 20 ∧
      script.at 23 = OP_EQUALVERIFY ∧ script.at 24 = OP_CHECKSIG then
    some (script.substr 3 20)
  else none

def isToScriptID (script : CScript) : Option Bytes :=
  if script.length = 23 ∧ script.at 0 = OP_HASH160 ∧ script.at 1 = 20 ∧
      script.at 22 = OP_EQUAL then
    some (script.substr 2 20)
  else none

/-- `IsToPubKey`.  Only a key that is not compressed is asked whether it is valid. -/
def isToPubKey (K : Secp256k1) (script : CScript) : Option Bytes :=
  if script.length = 35 ∧ script.at 0 = 33 ∧ script.at 34 = OP_CHECKSIG ∧
      (script.at 1 = 2 ∨ script.at 1 = 3) then
    some (script.substr 1 33)
  else if script.length = 67 ∧ script.at 0 = 65 ∧ script.at 66 = OP_CHECKSIG ∧
      script.at 1 = 4 then
    if K.isFullyValid (script.substr 1 65) then some (script.substr 1 65) else none
  else none

def compress (K : Secp256k1) (script : CScript) : Option Bytes :=
  match isToKeyID script with
  | some keyID => some (0 :: keyID)
  | none =>
  match isToScriptID script with
  | some scriptID => some (1 :: scriptID)
  | none =>
  match isToPubKey K script with
  | some pubkey =>
    if pubkey.at 0 = 2 ∨ pubkey.at 0 = 3 then some (pubkey.at 0 :: pubkey.substr 1 32)
    else if pubkey.at 0 = 4 then some ((4 ||| (pubkey.at 64 &&& 1)) :: pubkey.substr 1 32)
    else none
  | none => none

def getSpecialSize (nSize : ℕ) : ℕ :=
  if nSize = 0 ∨ nSize = 1 then 20
  else if nSize = 2 ∨ nSize = 3 ∨ nSize = 4 ∨ nSize = 5 then 32
  else 0

/-- `Decompress`: the script, unless the key cannot be decompressed. -/
def decompress (K : Secp256k1) (nSize : ℕ) (vch : Bytes) : Option CScript :=
  match nSize with
  | 0 => some ([OP_DUP, OP_HASH160, 20] ++ vch ++ [OP_EQUALVERIFY, OP_CHECKSIG])
  | 1 => some ([OP_HASH160, 20] ++ vch ++ [OP_EQUAL])
  | 2 | 3 => some ([33, UInt8.ofNat nSize] ++ vch ++ [OP_CHECKSIG])
  | 4 | 5 =>
    (K.decompress (UInt8.ofNat (nSize - 2) :: vch)).map fun pubkey =>
      [65] ++ pubkey ++ [OP_CHECKSIG]
  | _ => none

def serialize (K : Secp256k1) (script : CScript) : Bytes :=
  match compress K script with
  | some compr => compr
  | none => writeVarInt (script.length + nSpecialScripts) ++ script

/-- `CScriptCompressor::Unserialize`, into an empty script. -/
def unserialize (K : Secp256k1) : CDataStream CScript := do
  let nSize ← readVarInt UINT_MAX
  if nSize < nSpecialScripts then do
    let vch ← CDataStream.readBytes (getSpecialSize nSize)
    return (decompress K nSize vch).getD []
  else do
    let script ← CDataStream.readBytes (nSize - nSpecialScripts)
    -- An overly long script is replaced with a short invalid one.
    return if nSize - nSpecialScripts > MAX_SCRIPT_SIZE then [OP_RETURN] else script

end CScriptCompressor

/-! ## Coins -/

/-- The largest `uint64_t`. -/
def UINT64_MAX : ℕ := 2 ^ 64 - 1

namespace CTxOutCompressor

/-- `CTxOutCompressor::SerializationOp`, writing. -/
def serialize (K : Secp256k1) (txout : CTxOut) : Bytes :=
  writeVarInt (compressAmount txout.nValue.toUInt64).toNat ++
    CScriptCompressor.serialize K txout.scriptPubKey

/-- `CTxOutCompressor::SerializationOp`, reading. -/
def unserialize (K : Secp256k1) : CDataStream CTxOut := do
  let nVal ← readVarInt UINT64_MAX
  let scriptPubKey ← CScriptCompressor.unserialize K
  return ⟨(decompressAmount (UInt64.ofNat nVal)).toInt64, scriptPubKey⟩

end CTxOutCompressor

/-- The height of a coin and the flag of a coinbase in one number. -/
def Coin.code (coin : Coin) : ℕ := coin.nHeight * 2 + (if coin.fCoinBase then 1 else 0)

def Coin.serialize (K : Secp256k1) (coin : Coin) : Except String Bytes := do
  require (!coin.isSpent) "assert(!IsSpent())"
  return writeVarInt coin.code ++ CTxOutCompressor.serialize K coin.out

def Coin.unserialize (K : Secp256k1) : CDataStream Coin := do
  let code ← readVarInt UINT_MAX
  let out ← CTxOutCompressor.unserialize K
  return ⟨out, decide (code % 2 = 1), code / 2⟩

/-- `TxInUndoSerializer::Serialize`. -/
def txInUndoSerialize (K : Secp256k1) (txout : Coin) : Bytes :=
  writeVarInt txout.code ++ ((if txout.nHeight > 0 then [0] else []) ++
    CTxOutCompressor.serialize K txout.out)

/-- `TxInUndoDeserializer::Unserialize`. -/
def txInUndoUnserialize (K : Secp256k1) : CDataStream Coin := do
  let nCode ← readVarInt UINT_MAX
  -- Where older versions have the version of the transaction.
  let _nVersionDummy ← readIf (decide (nCode / 2 > 0)) (readVarInt INT_MAX)
  let out ← CTxOutCompressor.unserialize K
  return ⟨out, decide (nCode % 2 = 1), nCode / 2⟩

/-! ## Amounts are read back -/

theorem toNat_dropZeros (k : ℕ) (n : UInt64) :
    (dropZeros k n).1.toNat = (DecimalCode.strip k n.toNat).1 ∧
      (dropZeros k n).2 = (DecimalCode.strip k n.toNat).2 := by
  induction k generalizing n with
  | zero => exact ⟨rfl, rfl⟩
  | succ k ih =>
    have hzero : n % 10 = 0 ↔ n.toNat % 10 = 0 := by
      rw [← UInt64.toNat_inj, UInt64.toNat_mod]
      rfl
    have htenth : (n / 10).toNat = n.toNat / 10 := UInt64.toNat_div n 10
    rw [dropZeros, DecimalCode.strip]
    by_cases h : n % 10 = 0
    · rw [if_pos h, if_pos (hzero.1 h), ← htenth]
      exact ⟨(ih (n / 10)).1, congrArg (· + 1) (ih (n / 10)).2⟩
    · rw [if_neg h, if_neg (mt hzero.2 h)]
      exact ⟨rfl, rfl⟩

/-- **The amount code does not overflow**, for an amount that is small enough. -/
theorem compressAmount_exact {n : UInt64} (h : 11 * n.toNat < 2 ^ 64) :
    (compressAmount n).toNat = DecimalCode.encode n.toNat := by
  by_cases hn : n = 0
  · rw [hn]
    rfl
  · have hpos : n.toNat ≠ 0 := fun hz => hn (UInt64.toNat_inj.1 hz)
    obtain ⟨hleft, hzeros⟩ := toNat_dropZeros 9 n
    obtain ⟨-, hm, he, hdigit⟩ := DecimalCode.strip_spec 9 n.toNat hpos
    have hcode := DecimalCode.encode_le n.toNat
    rw [DecimalCode.encode, if_neg hpos, ← hleft, ← hzeros, DecimalCode.pack] at hcode ⊢
    rw [← hleft, ← hzeros] at hdigit
    rw [← hleft] at hm
    rw [← hzeros] at he
    rw [compressAmount, if_neg hn]
    generalize dropZeros 9 n = p at hm he hdigit hcode ⊢
    obtain ⟨m, e⟩ := p
    dsimp only at hm he hdigit hcode ⊢
    have hten : (10 : UInt64).toNat = 10 := rfl
    have hnine : (9 : UInt64).toNat = 9 := rfl
    by_cases hlast : e < 9
    · have := hdigit hlast
      rw [if_pos hlast] at hcode
      rw [if_pos hlast, if_pos hlast]
      have hrest : (m / 10 * 9).toNat = m.toNat / 10 * 9 := by
        rw [UInt64.toNat_mul, UInt64.toNat_div, hten, hnine]
        exact Nat.mod_eq_of_lt (by omega)
      have hsum : (m / 10 * 9 + m % 10).toNat = m.toNat / 10 * 9 + m.toNat % 10 := by
        rw [UInt64.toNat_add, hrest, UInt64.toNat_mod, hten]
        exact Nat.mod_eq_of_lt (by omega)
      have hpred : (m / 10 * 9 + m % 10 - 1).toNat = m.toNat / 10 * 9 + m.toNat % 10 - 1 := by
        rw [UInt64.toNat_sub, hsum, UInt64.toNat_one]
        omega
      have hcodes : ((m / 10 * 9 + m % 10 - 1) * 10).toNat =
          (m.toNat / 10 * 9 + m.toNat % 10 - 1) * 10 := by
        rw [UInt64.toNat_mul, hpred, hten]
        exact Nat.mod_eq_of_lt (by omega)
      rw [UInt64.toNat_add, UInt64.toNat_add, hcodes, UInt64.toNat_one, UInt64.toNat_ofNat']
      omega
    · rw [if_neg hlast] at hcode
      rw [if_neg hlast, if_neg hlast]
      have hpred : (m - 1).toNat = m.toNat - 1 := by
        rw [UInt64.toNat_sub, UInt64.toNat_one]
        omega
      rw [UInt64.toNat_add, UInt64.toNat_add, UInt64.toNat_mul, hpred, hten, hnine,
        UInt64.toNat_one]
      omega

theorem toNat_addZeros {e : ℕ} {n : UInt64} (h : n.toNat * 10 ^ e < 2 ^ 64) :
    (addZeros e n).toNat = n.toNat * 10 ^ e := by
  induction e generalizing n with
  | zero => rw [addZeros, Nat.pow_zero, Nat.mul_one]
  | succ e ih =>
    have hpow : n.toNat * 10 ^ (e + 1) = n.toNat * 10 * 10 ^ e := by
      rw [Nat.pow_succ', Nat.mul_assoc]
    have hten : n.toNat * 10 < 2 ^ 64 := by
      calc n.toNat * 10 ≤ n.toNat * 10 * 10 ^ e :=
            Nat.le_mul_of_pos_right _ (Nat.pow_pos (by decide))
        _ < 2 ^ 64 := hpow ▸ h
    have hmul : (n * 10).toNat = n.toNat * 10 := by
      rw [UInt64.toNat_mul]
      exact Nat.mod_eq_of_lt hten
    rw [addZeros, ih (by rw [hmul, ← hpow]; exact h), hmul, hpow]

theorem decompressAmount_exact {x : UInt64} (h : DecimalCode.decode x.toNat < 2 ^ 64) :
    (decompressAmount x).toNat = DecimalCode.decode x.toNat := by
  by_cases hx : x = 0
  · rw [hx]
    rfl
  · have hpos : x.toNat ≠ 0 := fun hz => hx (UInt64.toNat_inj.1 hz)
    have hlt := x.toNat_lt
    have hpred : (x - 1).toNat = x.toNat - 1 := by
      rw [UInt64.toNat_sub, UInt64.toNat_one]
      omega
    have he : ((x - 1) % 10).toNat = (x.toNat - 1) % 10 := by
      rw [UInt64.toNat_mod, hpred]
      rfl
    have hy : ((x - 1) / 10).toNat = (x.toNat - 1) / 10 := by
      rw [UInt64.toNat_div, hpred]
      rfl
    have hten : (10 : UInt64).toNat = 10 := rfl
    have hnine : (9 : UInt64).toNat = 9 := rfl
    have hfront : (if (x.toNat - 1) % 10 < 9 then (x - 1) / 10 / 9 * 10 + ((x - 1) / 10 % 9 + 1)
        else (x - 1) / 10 + 1).toNat =
        DecimalCode.unpack ((x.toNat - 1) % 10) ((x.toNat - 1) / 10) := by
      rw [DecimalCode.unpack]
      split
      · rw [UInt64.toNat_add, UInt64.toNat_add, UInt64.toNat_mul, UInt64.toNat_div,
          UInt64.toNat_mod, hy, hten, hnine, UInt64.toNat_one]
        omega
      · rw [UInt64.toNat_add, hy, UInt64.toNat_one]
        omega
    rw [DecimalCode.decode, if_neg hpos, ← hfront] at h ⊢
    rw [decompressAmount, if_neg hx]
    simp only [he]
    exact toNat_addZeros h

/-- **An amount is read back.** -/
theorem decompressAmount_compressAmount {n : UInt64} (h : 11 * n.toNat < 2 ^ 64) :
    decompressAmount (compressAmount n) = n := by
  have hdecode : DecimalCode.decode (compressAmount n).toNat = n.toNat := by
    rw [compressAmount_exact h, DecimalCode.decode_encode]
  rw [← UInt64.toNat_inj, decompressAmount_exact (by rw [hdecode]; exact n.toNat_lt), hdecode]

/-! ## Scripts are read back -/

theorem Bytes.eq_between {s : Bytes} {k : ℕ} (pre post : Bytes)
    (hlen : s.length = pre.length + k + post.length)
    (hpre : ∀ i < pre.length, s.at i = pre.at i)
    (hpost : ∀ i < post.length, s.at (pre.length + k + i) = post.at i) :
    pre ++ s.substr pre.length k ++ post = s := by
  have hsub : (s.substr pre.length k).length = k := by
    rw [Bytes.substr, List.length_take, List.length_drop]
    omega
  refine List.ext_getElem (by simp only [List.length_append, hsub]; omega) fun i h₁ h₂ => ?_
  have hat : s.at i = s[i] := (List.getElem_eq_getD 0).symm
  rw [← hat]
  by_cases hi : i < pre.length
  · rw [hpre i hi, List.getElem_append_left (by simp only [List.length_append, hsub]; omega),
      List.getElem_append_left hi]
    exact List.getElem_eq_getD 0
  · by_cases hk : i < pre.length + k
    · rw [List.getElem_append_left (by simp only [List.length_append, hsub]; omega),
        List.getElem_append_right (by omega), hat]
      simp only [Bytes.substr, List.getElem_take, List.getElem_drop]
      congr 1
      omega
    · have hp := hpost (i - (pre.length + k)) (by omega)
      rw [Nat.add_sub_cancel' (by omega)] at hp
      rw [hp, List.getElem_append_right (by simp only [List.length_append, hsub]; omega)]
      simp only [List.length_append, hsub]
      exact List.getElem_eq_getD 0

theorem Bytes.length_substr {s : Bytes} {pos count : ℕ} (h : pos + count ≤ s.length) :
    (s.substr pos count).length = count := by
  rw [Bytes.substr, List.length_take, List.length_drop]
  omega

theorem Bytes.at_substr {s : Bytes} {pos count i : ℕ} (h : pos + count ≤ s.length)
    (hi : i < count) : (s.substr pos count).at i = s.at (pos + i) := by
  have hlen := Bytes.length_substr h
  have hleft : (s.substr pos count).at i = (s.substr pos count)[i] :=
    (List.getElem_eq_getD 0).symm
  have hright : s.at (pos + i) = s[pos + i] := (List.getElem_eq_getD 0).symm
  rw [hleft, hright]
  simp only [Bytes.substr, List.getElem_take, List.getElem_drop]

theorem Bytes.substr_all (s : Bytes) (b : UInt8) (n : ℕ) (hlen : s.length = n + 1)
    (hb : s.at 0 = b) : b :: s.substr 1 n = s := by
  have h := Bytes.eq_between (s := s) (k := n) [b] []
    (by rw [hlen, List.length_singleton, List.length_nil]; omega)
    (fun i hi => by
      obtain rfl : i = 0 := Nat.lt_one_iff.1 hi
      exact hb)
    (fun i hi => absurd hi (Nat.not_lt_zero i))
  rw [List.append_nil] at h
  exact h

namespace CScriptCompressor

variable {K : Secp256k1} {script : CScript}

theorem isToKeyID_eq_some {keyID : Bytes} (h : isToKeyID script = some keyID) :
    keyID.length = 20 ∧
      [OP_DUP, OP_HASH160, 20] ++ keyID ++ [OP_EQUALVERIFY, OP_CHECKSIG] = script := by
  rw [isToKeyID] at h
  split at h
  · rename_i hc
    obtain ⟨hlen, h0, h1, h2, h23, h24⟩ := hc
    cases h
    refine ⟨Bytes.length_substr (by omega), ?_⟩
    refine Bytes.eq_between [OP_DUP, OP_HASH160, 20] [OP_EQUALVERIFY, OP_CHECKSIG] hlen ?_ ?_
    · rintro (_ | _ | _ | i) hi
      · exact h0
      · exact h1
      · exact h2
      · exact absurd hi (by simp only [List.length_cons, List.length_nil]; omega)
    · rintro (_ | _ | i) hi
      · exact h23
      · exact h24
      · exact absurd hi (by simp only [List.length_cons, List.length_nil]; omega)
  · cases h

theorem isToScriptID_eq_some {scriptID : Bytes} (h : isToScriptID script = some scriptID) :
    scriptID.length = 20 ∧ [OP_HASH160, 20] ++ scriptID ++ [OP_EQUAL] = script := by
  rw [isToScriptID] at h
  split at h
  · rename_i hc
    obtain ⟨hlen, h0, h1, h22⟩ := hc
    cases h
    refine ⟨Bytes.length_substr (by omega), ?_⟩
    refine Bytes.eq_between [OP_HASH160, 20] [OP_EQUAL] hlen ?_ ?_
    · rintro (_ | _ | i) hi
      · exact h0
      · exact h1
      · exact absurd hi (by simp only [List.length_cons, List.length_nil]; omega)
    · rintro (_ | i) hi
      · exact h22
      · exact absurd hi (by simp only [List.length_cons, List.length_nil]; omega)
  · cases h

theorem pubKey_between {n : ℕ} {b : UInt8} (hlen : script.length = n + 2) (h0 : script.at 0 = b)
    (hlast : script.at (n + 1) = OP_CHECKSIG) :
    (script.substr 1 n).length = n ∧ [b] ++ script.substr 1 n ++ [OP_CHECKSIG] = script := by
  refine ⟨Bytes.length_substr (by omega), ?_⟩
  refine Bytes.eq_between [b] [OP_CHECKSIG]
    (by rw [hlen, List.length_singleton, List.length_singleton]; omega) ?_ ?_
  · intro i hi
    obtain rfl : i = 0 := Nat.lt_one_iff.1 hi
    exact h0
  · intro i hi
    obtain rfl : i = 0 := Nat.lt_one_iff.1 hi
    rw [List.length_singleton, Nat.add_zero, Nat.add_comm, hlast]
    rfl

theorem isToPubKey_eq_some {pubkey : Bytes} (h : isToPubKey K script = some pubkey) :
    (pubkey.length = 33 ∧ (pubkey.at 0 = 2 ∨ pubkey.at 0 = 3) ∧
        [33] ++ pubkey ++ [OP_CHECKSIG] = script) ∨
      pubkey.length = 65 ∧ pubkey.at 0 = 4 ∧ K.isFullyValid pubkey = true ∧
        [65] ++ pubkey ++ [OP_CHECKSIG] = script := by
  rw [isToPubKey] at h
  split at h
  · rename_i hc
    obtain ⟨hlen, h0, hlast, h1⟩ := hc
    cases h
    obtain ⟨hkey, hscript⟩ := pubKey_between hlen h0 hlast
    rw [Bytes.at_substr (by omega) (by omega)]
    exact Or.inl ⟨hkey, h1, hscript⟩
  · split at h
    · rename_i hc
      obtain ⟨hlen, h0, hlast, h1⟩ := hc
      split at h
      · rename_i hvalid
        cases h
        obtain ⟨hkey, hscript⟩ := pubKey_between hlen h0 hlast
        rw [Bytes.at_substr (by omega) (by omega)]
        exact Or.inr ⟨hkey, h1, hvalid, hscript⟩
      · cases h
    · cases h

theorem and_one_cases (b : UInt8) : b &&& 1 = 0 ∨ b &&& 1 = 1 := by
  have hmod : (b &&& 1).toNat = b.toNat % 2 := by
    rw [UInt8.toNat_and]
    exact Nat.and_one_is_mod b.toNat
  rcases Nat.mod_two_eq_zero_or_one b.toNat with h | h
  · exact Or.inl (UInt8.toNat_inj.1 (hmod.trans h))
  · exact Or.inr (UInt8.toNat_inj.1 (hmod.trans h))

/-- **What a template is written as** begins with its tag and can be decompressed. -/
theorem compress_eq_some (hK : K.Inverts) {compr : Bytes} (h : compress K script = some compr) :
    ∃ nSize vch, compr = UInt8.ofNat nSize :: vch ∧ nSize < nSpecialScripts ∧
      vch.length = getSpecialSize nSize ∧ decompress K nSize vch = some script := by
  rw [compress] at h
  split at h
  · rename_i keyID hkeyID
    cases h
    obtain ⟨hlen, hscript⟩ := isToKeyID_eq_some hkeyID
    exact ⟨0, keyID, rfl, by decide, hlen, congrArg some hscript⟩
  · split at h
    · rename_i scriptID hscriptID
      cases h
      obtain ⟨hlen, hscript⟩ := isToScriptID_eq_some hscriptID
      exact ⟨1, scriptID, rfl, by decide, hlen, congrArg some hscript⟩
    · split at h
      · rename_i pubkey hpubkey
        rcases isToPubKey_eq_some hpubkey with
          ⟨hlen, hhead, hscript⟩ | ⟨hlen, hhead, hvalid, hscript⟩
        · rw [if_pos hhead] at h
          cases h
          have hkey := Bytes.substr_all pubkey (pubkey.at 0) 32 hlen rfl
          have hvch : (pubkey.substr 1 32).length = 32 := Bytes.length_substr (by omega)
          have hpush : [33, pubkey.at 0] ++ pubkey.substr 1 32 ++ [OP_CHECKSIG] = script := by
            rw [← hscript]
            nth_rewrite 3 [← hkey]
            rfl
          rcases hhead with hhead | hhead
          · rw [hhead] at hpush ⊢
            exact ⟨2, _, rfl, by decide, hvch, congrArg some hpush⟩
          · rw [hhead] at hpush ⊢
            exact ⟨3, _, rfl, by decide, hvch, congrArg some hpush⟩
        · rw [hhead, if_neg (by decide), if_pos rfl] at h
          cases h
          have hvch : (pubkey.substr 1 32).length = 32 := Bytes.length_substr (by omega)
          have hinv := hK pubkey hlen hhead hvalid
          rw [compressedKey] at hinv
          rcases and_one_cases (pubkey.at 64) with hodd | hodd
          · rw [hodd] at hinv ⊢
            refine ⟨4, _, rfl, by decide, hvch, ?_⟩
            rw [decompress, show UInt8.ofNat (4 - 2) = 2 ||| 0 from rfl, hinv, Option.map_some,
              hscript]
          · rw [hodd] at hinv ⊢
            refine ⟨5, _, rfl, by decide, hvch, ?_⟩
            rw [decompress, show UInt8.ofNat (5 - 2) = 2 ||| 1 from rfl, hinv, Option.map_some,
              hscript]
      · cases h

/-- **A script is read back**, in whichever form it is written. -/
theorem reads_script (hK : K.Inverts) (hscript : script.length ≤ MAX_SCRIPT_SIZE) :
    Reads (unserialize K) (serialize K script) script := by
  rw [serialize]
  split
  · rename_i compr hcompr
    obtain ⟨nSize, vch, rfl, hlt, hlen, hdecompress⟩ := compress_eq_some hK hcompr
    have htag : writeVarInt nSize = [UInt8.ofNat nSize] := by
      rw [writeVarInt, VarInt.encode, VarInt.bytes,
        if_pos (Nat.lt_of_lt_of_le hlt (by decide : nSpecialScripts ≤ 128))]
      rfl
    have hread := reads_bytes vch
    rw [hlen] at hread
    have hsize : nSize ≤ UINT_MAX := Nat.le_trans (Nat.le_of_lt hlt) (by decide)
    have h := (reads_varInt hsize).bind
      (f := fun nSize =>
        if nSize < nSpecialScripts then do
          let vch ← CDataStream.readBytes (getSpecialSize nSize)
          return (decompress K nSize vch).getD []
        else do
          let script ← CDataStream.readBytes (nSize - nSpecialScripts)
          return if nSize - nSpecialScripts > MAX_SCRIPT_SIZE then [OP_RETURN] else script)
      (t := vch) (b := script) (by
        rw [if_pos hlt]
        have hstep := hread.thenPure fun vch => (decompress K nSize vch).getD []
        rw [hdecompress] at hstep
        exact hstep)
    rw [htag] at h
    exact h
  · have hsize : script.length + nSpecialScripts ≤ UINT_MAX :=
      Nat.le_trans (Nat.add_le_add_right hscript nSpecialScripts) (by decide)
    refine (reads_varInt hsize).bind ?_
    have hread := reads_bytes script
    rw [if_neg (by omega), Nat.add_sub_cancel]
    have hstep := hread.thenPure fun s : Bytes =>
      if script.length > MAX_SCRIPT_SIZE then [OP_RETURN] else s
    rw [if_neg (by omega)] at hstep
    exact hstep

end CScriptCompressor

theorem toNat_of_moneyRange {nValue : CAmount} (h : 0 ≤ nValue ∧ nValue ≤ MAX_MONEY) :
    11 * nValue.toUInt64.toNat < 2 ^ 64 := by
  have hle : nValue.toUInt64.toNat ≤ MAX_MONEY.toUInt64.toNat :=
    UInt64.le_iff_toNat_le.1 (Int64.toUInt64_le h.1 h.2)
  have hmax : MAX_MONEY.toUInt64.toNat = 10 ^ 17 := by decide
  omega

theorem reads_txout {K : Secp256k1} (hK : K.Inverts) {txout : CTxOut}
    (hvalue : 0 ≤ txout.nValue ∧ txout.nValue ≤ MAX_MONEY)
    (hscript : txout.scriptPubKey.length ≤ MAX_SCRIPT_SIZE) :
    Reads (CTxOutCompressor.unserialize K) (CTxOutCompressor.serialize K txout) txout := by
  have hamount := decompressAmount_compressAmount (toNat_of_moneyRange hvalue)
  have hcode : (compressAmount txout.nValue.toUInt64).toNat ≤ UINT64_MAX :=
    Nat.le_pred_of_lt (UInt64.toNat_lt _)
  refine (reads_varInt hcode).bind ?_
  rw [UInt64.ofNat_toNat, hamount]
  exact (CScriptCompressor.reads_script hK hscript).thenPure fun scriptPubKey =>
    (⟨txout.nValue, scriptPubKey⟩ : CTxOut)

theorem Coin.code_spec (coin : Coin) :
    coin.code / 2 = coin.nHeight ∧ decide (coin.code % 2 = 1) = coin.fCoinBase := by
  rw [Coin.code]
  cases coin.fCoinBase with
  | false =>
    rw [if_neg Bool.false_ne_true]
    exact ⟨by omega, decide_eq_false (by omega)⟩
  | true =>
    rw [if_pos rfl]
    exact ⟨by omega, decide_eq_true (by omega)⟩

/-- **A coin is read back**, from the coin database and from the undo data: exactly the bytes that
were written are taken from whatever stream they stand in front of. -/
theorem coin_roundTrip (K : Secp256k1) (hK : K.Inverts) (coin : Coin)
    (hheight : coin.nHeight < 2 ^ 30)
    (hvalue : 0 ≤ coin.out.nValue ∧ coin.out.nValue ≤ MAX_MONEY)
    (hscript : coin.out.scriptPubKey.length ≤ MAX_SCRIPT_SIZE) :
    (∃ s, coin.serialize K = .ok s ∧ Reads (Coin.unserialize K) s coin) ∧
      Reads (txInUndoUnserialize K) (txInUndoSerialize K coin) coin := by
  obtain ⟨hhalf, hflag⟩ := coin.code_spec
  have hout := (reads_txout hK hvalue hscript).thenPure fun out =>
    (⟨out, coin.fCoinBase, coin.nHeight⟩ : Coin)
  have hcode : coin.code ≤ UINT_MAX := by
    have : coin.code ≤ coin.nHeight * 2 + 1 := by
      rw [Coin.code]
      split <;> omega
    rw [UINT_MAX]
    omega
  constructor
  · have hunspent : coin.isSpent = false := by
      rw [Coin.isSpent, beq_eq_false_iff_ne]
      intro hspent
      rw [hspent] at hvalue
      exact absurd hvalue.1 (by decide)
    refine ⟨_, by rw [Coin.serialize, hunspent]; rfl, (reads_varInt hcode).bind ?_⟩
    rw [hhalf, hflag]
    exact hout
  · refine (reads_varInt hcode).bind ?_
    rw [hhalf, hflag]
    have hdummy : Reads (readIf (decide (coin.nHeight > 0)) (readVarInt INT_MAX))
        (if coin.nHeight > 0 then [0] else []) 0 := by
      by_cases hpos : coin.nHeight > 0
      · rw [if_pos hpos, decide_eq_true hpos]
        have hzero : writeVarInt 0 = [0] := by
          rw [writeVarInt, VarInt.encode, VarInt.bytes]
          rfl
        rw [← hzero]
        exact reads_varInt (Nat.zero_le INT_MAX)
      · rw [if_neg hpos, decide_eq_false hpos]
        exact Reads.pure 0
    exact hdummy.bind hout

/-! ### A key that is not compressed -/

def generatorKey : Bytes :=
  4 :: (writeLE 32
      0x79be667ef9dcbbac55a06295ce870b07029bfcdb2dce28d959f2815b16f81798).reverse ++
    (writeLE 32 0x483ada7726a3c4655da4fbfc0e1108a8fd17b448a68554199c47d08ffb10d4b8).reverse

def generatorCurve : Secp256k1 where
  isFullyValid key := decide (key = generatorKey)
  decompress key := if key = compressedKey generatorKey then some generatorKey else none

theorem generatorCurve_inverts : generatorCurve.Inverts := by
  intro key _ _ hvalid
  have hkey : key = generatorKey := of_decide_eq_true hvalid
  rw [hkey]
  simp only [generatorCurve, if_true]

def generatorCoin : Coin := ⟨⟨5000 * COIN, [65] ++ generatorKey ++ [OP_CHECKSIG]⟩, true, 7⟩

theorem generatorCoin_roundTrip :
    (∃ s, generatorCoin.serialize generatorCurve = .ok s ∧
        Reads (Coin.unserialize generatorCurve) s generatorCoin) ∧
      Reads (txInUndoUnserialize generatorCurve)
        (txInUndoSerialize generatorCurve generatorCoin) generatorCoin :=
  coin_roundTrip generatorCurve generatorCurve_inverts generatorCoin (by decide)
    ⟨by decide, by decide⟩ (by decide)

/-- The script is written in 33 bytes. -/
example : (CScriptCompressor.serialize generatorCurve generatorCoin.out.scriptPubKey).length = 33 :=
  by decide

end UnemployCoin
