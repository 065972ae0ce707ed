import UnemployCoin.AssetAmounts
import UnemployCoin.Base58
import UnemployCoin.Serialization
/-!
# Asset scripts are read back

`ConstructTransaction` and `ConstructOwnerTransaction` append a record to a pay-to-pubkey-hash
script, and the `…FromScript` functions read it from there (`assets/assets.cpp`,
`assets/assettypes.h`).
-/

namespace UnemployCoin

open Check

def CAssetTransfer.isValid (env : Env) (transfer : CAssetTransfer) : Verdict := do
  let _assetType ← demand (isAssetNameValid transfer.strName)
    ("Invalid parameter: asset_name must only consist of valid characters and have a size " ++
      "between 3 and 30 characters. See help for more details.")
  require (decide (0 < transfer.nAmount))
    "Invalid parameter: asset amount can't be equal to or less than zero."
  checkTransferMessage env transfer

/-- A hash of 34 bytes says that it is a SHA2-256 of 32 bytes. -/
def SaysSha256 (hash : Bytes) : Prop :=
  hash.length = 34 → hash.take 2 = [IPFS_SHA2_256, IPFS_SHA2_256_LEN]

section Records

variable {env : Env} {hash : Bytes}

/-! ## Records are read back -/

theorem length_of_checkEncoded (h : checkEncoded env hash = .ok ()) :
    hash.length = 34 ∨ hash.length = 32 := by
  by_contra hne
  rw [not_or] at hne
  have hnone : encodeAssetData hash = [] := by
    rw [encodeAssetData, if_neg hne.1, if_neg hne.2]
  rw [checkEncoded, hnone, require_ok] at h
  simp [Bytes.substr, isHex, ascii] at h

theorem length_of_isAssetNameValid {name : Bytes} (h : (isAssetNameValid name).isSome) :
    name.length ≤ 40 := by
  by_contra hlong
  rw [isAssetNameValid, if_pos (by omega)] at h
  cases h

/-- The part of `ReadWriteAssetHash` that reads a hash. -/
def readHash : CDataStream (Bytes × Bool) := do
  let _sha2_256 ← CDataStream.readUInt8
  let hash ← CDataStream.readString
  let head := if _sha2_256 == IPFS_SHA2_256 then [IPFS_SHA2_256, IPFS_SHA2_256_LEN] else []
  return (head ++ hash.substr 0 32, true)

theorem readAssetHash_eq (s : Bytes) :
    readAssetHash s = if s.length < 33 then some (([], false), s) else readHash s := by
  have hstep : readAssetHash s =
      (if s.length < 33 then pure ([], false) else readHash : CDataStream (Bytes × Bool)) s := rfl
  rw [hstep]
  split <;> rfl

theorem reads_hash (kind : UInt8) {hash : Bytes} (h : hash.length = 32) :
    Reads readHash (kind :: writeString hash)
      ((if kind == IPFS_SHA2_256 then [IPFS_SHA2_256, IPFS_SHA2_256_LEN] else []) ++ hash,
        true) := by
  have hmax : hash.length ≤ CDataStream.MAX_SIZE := by
    rw [h]
    decide
  have hsubstr : hash.substr 0 32 = hash := by
    rw [Bytes.substr, List.drop_zero, ← h, List.take_length]
  have hreads : Reads readHash (kind :: writeString hash)
      ((if kind == IPFS_SHA2_256 then [IPFS_SHA2_256, IPFS_SHA2_256_LEN] else []) ++
        hash.substr 0 32, true) := by
    refine (reads_uint8 kind).bind (t := writeString hash) ?_
    exact (reads_string hmax).thenPure _
  rw [hsubstr] at hreads
  exact hreads

theorem length_writeString_32 {hash : Bytes} (h : hash.length = 32) :
    (writeString hash).length = 33 := by
  rw [writeString, List.length_append, h]
  rfl

/-- **A hash is read back**, whichever of the two kinds it is. -/
theorem reads_assetHash (hlength : hash.length = 34 ∨ hash.length = 32)
    (hstated : SaysSha256 hash) :
    Reads readAssetHash (writeAssetHash hash) (hash, true) := by
  have hlong : ∀ (kind : UInt8) (hash rest : Bytes), hash.length = 32 →
      ¬ (kind :: writeString hash ++ rest).length < 33 := by
    intro kind hash rest h
    rw [List.length_append, List.length_cons, length_writeString_32 h]
    omega
  intro rest
  rcases hlength with h34 | h32
  · have hdrop : (hash.drop 2).length = 32 := by rw [List.length_drop, h34]
    have hsplit : [IPFS_SHA2_256, IPFS_SHA2_256_LEN] ++ hash.drop 2 = hash := by
      rw [← hstated h34]
      exact List.take_append_drop 2 hash
    have hread := reads_hash IPFS_SHA2_256 hdrop rest
    rw [writeAssetHash, if_pos h34, readAssetHash_eq, if_neg (hlong _ _ rest hdrop), hread]
    exact congrArg (fun hash => some ((hash, true), rest)) hsplit
  · have hne : hash.length ≠ 34 := by omega
    have hread := reads_hash TXID_NOTIFIER h32 rest
    rw [writeAssetHash, if_neg hne, if_pos h32, readAssetHash_eq, if_neg (hlong _ _ rest h32),
      hread]
    rfl

theorem readsBefore_noHash : ReadsBefore 33 readAssetHash [] ([], false) := by
  intro rest hrest
  rw [List.nil_append, readAssetHash_eq, if_pos hrest]

theorem length_le_MAX_SIZE {name : Bytes} (h : name.length ≤ 40) :
    name.length ≤ CDataStream.MAX_SIZE := Nat.le_trans h (by decide)

/-- **A new asset is read back**, but for a hash that it says it does not have. -/
theorem reads_newAsset {asset : CNewAsset} (hname : asset.strName.length ≤ 40)
    (hhash : asset.nHasIPFS = 1 → (asset.strIPFSHash.length = 34 ∨ asset.strIPFSHash.length = 32) ∧
      SaysSha256 asset.strIPFSHash) :
    Reads CNewAsset.unserialize asset.serialize
      { asset with strIPFSHash := if asset.nHasIPFS == 1 then asset.strIPFSHash else [] } := by
  rw [CNewAsset.unserialize, CNewAsset.serialize]
  simp only [List.append_assoc]
  refine (reads_string (length_le_MAX_SIZE hname)).bind ?_
  refine (reads_int64 asset.nAmount).bind ?_
  refine (reads_int8 asset.units).bind ?_
  refine (reads_int8 asset.nReissuable).bind ?_
  refine (reads_int8 asset.nHasIPFS).bind ?_
  cases hflag : asset.nHasIPFS == 1 with
  | false => exact (Reads.pure ([] : Bytes)).thenPure _
  | true =>
    obtain ⟨hlength, hstated⟩ := hhash (beq_iff_eq.1 hflag)
    exact ((reads_assetHash hlength hstated).map Prod.fst).thenPure _

theorem readsBefore_assetHash
    (h : hash = [] ∨ (hash.length = 34 ∨ hash.length = 32) ∧ SaysSha256 hash) :
    ReadsBefore 33 readAssetHash (writeAssetHash hash) (hash, !hash.isEmpty) := by
  rcases h with rfl | ⟨hlength, hstated⟩
  · exact readsBefore_noHash
  · have hne : (!hash.isEmpty) = true := by
      cases hash with
      | nil => simp at hlength
      | cons b bs => rfl
    rw [hne]
    exact (reads_assetHash hlength hstated).before 33

/-- **A reissue is read back**, where fewer than 33 bytes follow. -/
theorem reads_reissue {reissue : CReissueAsset} (hname : reissue.strName.length ≤ 40)
    (hhash : reissue.strIPFSHash = [] ∨
      (reissue.strIPFSHash.length = 34 ∨ reissue.strIPFSHash.length = 32) ∧
        SaysSha256 reissue.strIPFSHash) :
    ReadsBefore 33 CReissueAsset.unserialize reissue.serialize reissue := by
  rw [CReissueAsset.unserialize, CReissueAsset.serialize]
  simp only [List.append_assoc]
  refine (reads_string (length_le_MAX_SIZE hname)).bindBefore ?_
  refine (reads_int64 reissue.nAmount).bindBefore ?_
  refine (reads_int8 reissue.nUnits).bindBefore ?_
  refine (reads_int8 reissue.nReissuable).bindBefore ?_
  exact (readsBefore_assetHash hhash).thenPure _

/-- What is made of the expire time behind a message, or of none. -/
def readExpireTime {α : Type} (validIPFS : Bool) (f : Int64 → α) : CDataStream α := do
  let left ← CDataStream.remaining
  if validIPFS && decide (8 ≤ left) then do
    let nExpireTime ← CDataStream.readInt64
    pure (f nExpireTime)
  else pure (f 0)

theorem readExpireTime_eq {α : Type} (validIPFS : Bool) (f : Int64 → α) (s : Bytes) :
    readExpireTime validIPFS f s =
      if validIPFS && decide (8 ≤ s.length) then
        (CDataStream.readInt64 >>= fun nExpireTime => pure (f nExpireTime)) s
      else some (f 0, s) := by
  have hstep : readExpireTime validIPFS f s =
      (if validIPFS && decide (8 ≤ s.length) then
          CDataStream.readInt64 >>= fun nExpireTime => pure (f nExpireTime)
        else pure (f 0) : CDataStream α) s := rfl
  rw [hstep]
  split <;> rfl

theorem readsBefore_expireTime {α : Type} {validIPFS : Bool} {nExpireTime : Int64}
    (f : Int64 → α) (h : validIPFS = false → nExpireTime = 0) :
    ReadsBefore 8 (readExpireTime validIPFS f)
      (if !validIPFS || nExpireTime == 0 then [] else writeInt64 nExpireTime) (f nExpireTime) := by
  intro rest hrest
  have hshort : ¬ 8 ≤ rest.length := Nat.not_le.2 hrest
  rw [readExpireTime_eq]
  cases validIPFS with
  | false =>
    rw [h rfl]
    rfl
  | true =>
    cases hzero : nExpireTime == 0 with
    | true =>
      rw [beq_iff_eq.1 hzero]
      simp only [Bool.not_true, Bool.or_true, if_true, List.nil_append, Bool.true_and,
        decide_eq_true_eq, if_neg hshort]
    | false =>
      have hlong : 8 ≤ (writeInt64 nExpireTime ++ rest).length := by
        rw [List.length_append, writeInt64, length_writeLE]
        omega
      simp only [Bool.not_true, Bool.or_false, Bool.false_eq_true, if_false, Bool.true_and,
        decide_eq_true hlong, if_true]
      exact (reads_int64 nExpireTime).thenPure f rest

/-- **A transfer is read back**, where fewer than 8 bytes follow. -/
theorem reads_transfer {transfer : CAssetTransfer} (hname : transfer.strName.length ≤ 40)
    (hhash : transfer.message = [] ∧ transfer.nExpireTime = 0 ∨
      (transfer.message.length = 34 ∨ transfer.message.length = 32) ∧
        SaysSha256 transfer.message) :
    ReadsBefore 8 CAssetTransfer.unserialize transfer.serialize transfer := by
  rw [CAssetTransfer.unserialize, CAssetTransfer.serialize]
  simp only [List.append_assoc]
  refine (reads_string (length_le_MAX_SIZE hname)).bindBefore ?_
  refine (reads_int64 transfer.nAmount).bindBefore ?_
  have htail : ∀ validIPFS, (validIPFS = false → transfer.nExpireTime = 0) →
      ReadsBefore 8 (readExpireTime validIPFS fun nExpireTime =>
          (⟨transfer.strName, transfer.nAmount, transfer.message, nExpireTime⟩ : CAssetTransfer))
        (if !validIPFS || transfer.nExpireTime == 0 then [] else writeInt64 transfer.nExpireTime)
        transfer :=
    fun validIPFS h => readsBefore_expireTime _ h
  rcases hhash with ⟨hnone, hzero⟩ | ⟨hlength, hstated⟩
  · -- Without a message nothing is written, and the two optional fields stay empty.
    intro rest hrest
    have hread : readAssetHash ([] ++ rest) = some (([], false), rest) :=
      readsBefore_noHash rest (Nat.lt_trans hrest (by decide))
    have hlast := htail false (fun _ => hzero) rest hrest
    rw [hnone] at hlast ⊢
    have hstep : ∀ f : Bytes × Bool → CDataStream CAssetTransfer,
        (readAssetHash >>= f) ([] ++ rest) = (readAssetHash ([] ++ rest)).bind fun p => f p.1 p.2 :=
      fun f => rfl
    exact (hstep _).trans (by rw [hread]; exact hlast)
  · have hempty : (writeAssetHash transfer.message).isEmpty = !true := by
      rw [writeAssetHash]
      rcases hlength with h34 | h32
      · rw [if_pos h34]
        rfl
      · rw [if_neg (by omega), if_pos h32]
        rfl
    rw [hempty]
    exact (reads_assetHash hlength hstated).bindBefore (htail true (fun h => absurd h (by decide)))

end Records

/-! ## The script is classified -/

section Scripts

variable {env : Env} {s data : Bytes} {op : UInt8}

theorem at_append {t : Bytes} (h : s.length = 25) (i : ℕ) :
    Bytes.at (s ++ t) (25 + i) = Bytes.at t i := by
  rw [Bytes.at, Bytes.at, List.getD_eq_getElem?_getD, List.getD_eq_getElem?_getD,
    List.getElem?_append_right (by omega), h, Nat.add_sub_cancel_left]

theorem drop_append_add {t : Bytes} (h : s.length = 25) (i : ℕ) :
    (s ++ t).drop (25 + i) = t.drop i := by
  rw [← h, List.drop_length_add_append]

/-- Where the data of an asset script begins: the push takes one byte below 76, and two from
there. -/
def dataStart (data : Bytes) : ℕ := if data.length + 4 < OP_PUSHDATA1.toNat then 31 else 32

theorem appendAsset_short (h : data.length + 4 < OP_PUSHDATA1.toNat) :
    appendAsset s op data = s ++ OP_UNEMP_ASSET :: UInt8.ofNat (data.length + 4) :: UNEMP_R ::
      UNEMP_V :: UNEMP_N :: op :: (data ++ [OP_DROP]) := by
  have hlength : ([UNEMP_R, UNEMP_V, UNEMP_N, op] ++ data).length = data.length + 4 := by
    rw [List.length_append, Nat.add_comm]
    rfl
  rw [appendAsset, CScript.pushData, hlength, if_pos h, List.append_assoc, List.append_assoc]
  rfl

theorem appendAsset_long (h : ¬ data.length + 4 < OP_PUSHDATA1.toNat)
    (hmax : data.length + 4 ≤ 0xff) :
    appendAsset s op data = s ++ OP_UNEMP_ASSET :: OP_PUSHDATA1 :: UInt8.ofNat (data.length + 4) ::
      UNEMP_R :: UNEMP_V :: UNEMP_N :: op :: (data ++ [OP_DROP]) := by
  have hlength : ([UNEMP_R, UNEMP_V, UNEMP_N, op] ++ data).length = data.length + 4 := by
    rw [List.length_append, Nat.add_comm]
    rfl
  rw [appendAsset, CScript.pushData, hlength, if_neg h, if_pos hmax, List.append_assoc,
    List.append_assoc]
  rfl

/-- **The byte for the operation is found**, unless the length of the push is taken for the first
letter. -/
theorem assetOpIndex_appendAsset (hs : s.length = 25) (hmax : data.length + 4 < UNEMP_R.toNat) :
    CScript.assetOpIndex (appendAsset s op data) = some (dataStart data - 1) ∧
      Bytes.at (appendAsset s op data) 25 = OP_UNEMP_ASSET ∧
      Bytes.at (appendAsset s op data) (dataStart data - 1) = op ∧
      (appendAsset s op data).drop (dataStart data) = data ++ [OP_DROP] := by
  have hR : UNEMP_R.toNat = 114 := rfl
  by_cases h : data.length + 4 < OP_PUSHDATA1.toNat
  · have hstart : dataStart data = 31 := if_pos h
    rw [appendAsset_short h, hstart]
    refine ⟨?_, at_append hs 0, at_append hs 5, drop_append_add hs 6⟩
    unfold CScript.assetOpIndex
    have h27 := at_append (t := OP_UNEMP_ASSET :: UInt8.ofNat (data.length + 4) :: UNEMP_R ::
      UNEMP_V :: UNEMP_N :: op :: (data ++ [OP_DROP])) hs
    rw [h27 2, h27 3, h27 4]
    rfl
  · have hstart : dataStart data = 32 := if_neg h
    have hlength : (UInt8.ofNat (data.length + 4) == UNEMP_R) = false := by
      rw [beq_eq_false_iff_ne]
      intro heq
      have hnat := congrArg UInt8.toNat heq
      rw [toNat_ofNat_of_lt (by omega)] at hnat
      omega
    rw [appendAsset_long h (by omega), hstart]
    refine ⟨?_, at_append hs 0, at_append hs 6, drop_append_add hs 7⟩
    unfold CScript.assetOpIndex
    have hat := at_append (t := OP_UNEMP_ASSET :: OP_PUSHDATA1 :: UInt8.ofNat (data.length + 4) ::
      UNEMP_R :: UNEMP_V :: UNEMP_N :: op :: (data ++ [OP_DROP])) hs
    rw [hat 2, hat 3, hat 4, hat 5]
    have h27 : Bytes.at (OP_UNEMP_ASSET :: OP_PUSHDATA1 :: UInt8.ofNat (data.length + 4) ::
      UNEMP_R :: UNEMP_V :: UNEMP_N :: op :: (data ++ [OP_DROP])) 2 =
        UInt8.ofNat (data.length + 4) := rfl
    rw [h27, hlength]
    rfl

/-- The kind of script that a byte for an operation stands for. -/
inductive OpKind : UInt8 → txnouttype → Bool → Prop where
  | transfer : OpKind UNEMP_T .TX_TRANSFER_ASSET false
  | newAsset : OpKind UNEMP_Q .TX_NEW_ASSET false
  | owner : OpKind UNEMP_O .TX_NEW_ASSET true
  | reissue : OpKind UNEMP_R .TX_REISSUE_ASSET false

/-- **An asset script is classified by the byte for the operation.** -/
theorem isAssetScript_appendAsset {nType : txnouttype} {fIsOwner : Bool}
    (hkind : OpKind op nType fIsOwner) (hs : s.length = 25)
    (hmax : data.length + 4 < UNEMP_R.toNat) (hmin : 8 ≤ data.length ∨ op ≠ UNEMP_Q) :
    CScript.isAssetScript (appendAsset s op data) = some ⟨nType, fIsOwner, dataStart data⟩ := by
  obtain ⟨hindex, h25, hop, -⟩ := @assetOpIndex_appendAsset s data op hs hmax
  have hR : UNEMP_R.toNat = 114 := rfl
  have hlength : (appendAsset s op data).length =
      if data.length + 4 < OP_PUSHDATA1.toNat then data.length + 32 else data.length + 33 := by
    split
    · rename_i h
      rw [appendAsset_short h]
      simp only [List.length_append, List.length_cons, List.length_nil, hs]
      omega
    · rename_i h
      rw [appendAsset_long h (by omega)]
      simp only [List.length_append, List.length_cons, List.length_nil, hs]
      omega
  have hlong : 32 ≤ (appendAsset s op data).length := by
    rw [hlength]
    split <;> omega
  have hstart : dataStart data - 1 + 1 = dataStart data := by
    rw [dataStart]
    split <;> rfl
  unfold CScript.isAssetScript
  rw [h25, hindex]
  dsimp only
  rw [hop, hstart]
  have hguard : (decide ((appendAsset s op data).length > 31) && OP_UNEMP_ASSET == OP_UNEMP_ASSET) =
      true := by
    rw [decide_eq_true (by omega)]
    rfl
  rw [if_pos hguard]
  cases hkind with
  | transfer => rfl
  | newAsset =>
    have h8 : 8 ≤ data.length := hmin.resolve_right fun h => h rfl
    have h39 : (appendAsset s UNEMP_Q data).length > 39 := by
      rw [hlength]
      split <;> omega
    rw [if_neg (by decide), if_pos (by rw [decide_eq_true h39]; rfl)]
  | owner => rfl
  | reissue => rfl

/-! ## The address -/

theorem drop_eq_at_cons {i : ℕ} (h : i < s.length) : s.drop i = Bytes.at s i :: s.drop (i + 1) := by
  rw [List.drop_eq_getElem_cons h, Bytes.at, List.getD_eq_getElem?_getD,
    List.getElem?_eq_getElem h]
  rfl

theorem eq_of_isPayToPublicKeyHash (h : CScript.isPayToPublicKeyHash s = true) :
    s = OP_DUP :: OP_HASH160 :: 0x14 :: (s.substr 3 20 ++ [OP_EQUALVERIFY, OP_CHECKSIG]) ∧
      s.length = 25 := by
  simp only [CScript.isPayToPublicKeyHash, Bool.and_eq_true, beq_iff_eq] at h
  obtain ⟨⟨⟨⟨⟨hlength, h0⟩, h1⟩, h2⟩, h23⟩, h24⟩ := h
  refine ⟨?_, hlength⟩
  have hlast : s.drop 23 = [OP_EQUALVERIFY, OP_CHECKSIG] := by
    rw [drop_eq_at_cons (by omega), drop_eq_at_cons (by omega), h23, h24,
      List.drop_eq_nil_of_le (by omega)]
  have hmiddle : s.drop 3 = s.substr 3 20 ++ [OP_EQUALVERIFY, OP_CHECKSIG] := by
    rw [← hlast, ← List.drop_drop (i := 20) (j := 3), Bytes.substr, List.take_append_drop]
  calc s = s.drop 0 := List.drop_zero.symm
    _ = OP_DUP :: OP_HASH160 :: 0x14 :: s.drop 3 := by
      rw [drop_eq_at_cons (by omega), drop_eq_at_cons (by omega), drop_eq_at_cons (by omega),
        h0, h1, h2]
    _ = _ := by rw [hmiddle]

/-- **A pay-to-pubkey-hash script pays its key hash.** -/
theorem addressOf_isPayToPublicKeyHash (h : CScript.isPayToPublicKeyHash s = true) :
    addressOf env s = encodeDestination env (.CKeyID (s.substr 3 20)) := by
  obtain ⟨heq, hlength⟩ := eq_of_isPayToPublicKeyHash h
  have hid : (s.substr 3 20).length = 20 := by
    rw [Bytes.substr, List.length_take, List.length_drop, hlength]
    rfl
  have hscript : CScript.isPayToScriptHash s = false := by
    rw [CScript.isPayToScriptHash, hlength]
    rfl
  have hasset : CScript.isAssetScript s = none := by
    unfold CScript.isAssetScript
    rw [hlength]
    rfl
  generalize s.substr 3 20 = id at heq hid ⊢
  have hwitness : CScript.isWitnessProgram s = none := by
    unfold CScript.isWitnessProgram
    rw [hlength, heq]
    rfl
  have hpush : CScript.getOp (0x14 :: (id ++ [OP_EQUALVERIFY, OP_CHECKSIG])) =
      some (0x14, id, [OP_EQUALVERIFY, OP_CHECKSIG]) := by
    have htake : (id ++ [OP_EQUALVERIFY, OP_CHECKSIG]).take 20 = id := by
      rw [← hid, List.take_left]
    have hdrop : (id ++ [OP_EQUALVERIFY, OP_CHECKSIG]).drop 20 = [OP_EQUALVERIFY, OP_CHECKSIG] := by
      rw [← hid, List.drop_left]
    have hlong : ¬ (id ++ [OP_EQUALVERIFY, OP_CHECKSIG]).length < 20 := by
      rw [List.length_append, hid]
      decide
    have hsize : CScript.pushSize 0x14 (id ++ [OP_EQUALVERIFY, OP_CHECKSIG]) = some (0, 20) := rfl
    unfold CScript.getOp
    dsimp only
    rw [if_pos (by decide), hsize]
    dsimp only
    rw [List.drop_zero, if_neg hlong, htake, hdrop]
  have hpubkey : matchTemplate [OP_PUBKEY, OP_CHECKSIG] s = none := by
    rw [heq]
    rfl
  have hpubkeyhash : matchTemplate
      [OP_DUP, OP_HASH160, OP_PUBKEYHASH, OP_EQUALVERIFY, OP_CHECKSIG] s = some [id] := by
    have hrest : matchTemplate [OP_PUBKEYHASH, OP_EQUALVERIFY, OP_CHECKSIG]
        (0x14 :: (id ++ [OP_EQUALVERIFY, OP_CHECKSIG])) = some [id] := by
      unfold matchTemplate
      rw [hpush]
      dsimp only
      rw [if_neg (by decide), matchOp, if_neg (by decide), if_pos rfl, if_pos hid]
      rfl
    have hstep : matchTemplate [OP_DUP, OP_HASH160, OP_PUBKEYHASH, OP_EQUALVERIFY, OP_CHECKSIG]
        (OP_DUP :: OP_HASH160 :: 0x14 :: (id ++ [OP_EQUALVERIFY, OP_CHECKSIG])) =
        ((matchTemplate [OP_PUBKEYHASH, OP_EQUALVERIFY, OP_CHECKSIG]
          (0x14 :: (id ++ [OP_EQUALVERIFY, OP_CHECKSIG]))).bind fun sols => some ([] ++ sols)).bind
            fun sols => some ([] ++ sols) := rfl
    rw [heq, hstep, hrest]
    rfl
  have hsolver : solver s = some (.TX_PUBKEYHASH, [id]) := by
    have h0 : Bytes.at s 0 = OP_DUP := by
      rw [heq]
      rfl
    have hnull : (Bytes.at s 0 == OP_RETURN) = false := by rw [h0]; decide
    have hdata : (Bytes.at s 0 == OP_UNEMP_ASSET) = false := by rw [h0]; decide
    unfold solver
    simp only [hscript, hasset, hwitness, hnull, hdata, hpubkey, hpubkeyhash, Bool.and_false,
      Bool.false_and, Bool.false_eq_true, if_false]
  rw [addressOf, extractDestination, hsolver]
  rfl

theorem substr_append {t : Bytes} (h : s.length = 25) : (s ++ t).substr 3 20 = s.substr 3 20 := by
  rw [Bytes.substr, Bytes.substr, List.drop_append_of_le_length (by omega),
    List.take_append_of_le_length (by rw [List.length_drop]; omega)]

/-- **An asset script pays the address of the script in front of it.** -/
theorem addressOf_appendAsset {nType : txnouttype} {fIsOwner : Bool}
    (hp2pkh : CScript.isPayToPublicKeyHash s = true) (hkind : OpKind op nType fIsOwner)
    (hmax : data.length + 4 < UNEMP_R.toNat) (hmin : 8 ≤ data.length ∨ op ≠ UNEMP_Q) :
    addressOf env (appendAsset s op data) = addressOf env s := by
  obtain ⟨-, hlength⟩ := eq_of_isPayToPublicKeyHash hp2pkh
  have hasset := isAssetScript_appendAsset hkind hlength hmax hmin
  have hsome : (CScript.isAssetScript (appendAsset s op data)).isSome = true := by
    rw [hasset]
    rfl
  have hsubstr : (appendAsset s op data).substr 3 20 = s.substr 3 20 := by
    rw [appendAsset, List.append_assoc, List.append_assoc, substr_append hlength]
  rw [(addressOf_asset hsome).1, hsubstr, addressOf_isPayToPublicKeyHash hp2pkh]

/-- **A record behind a pay-to-pubkey-hash script is read**, with the address of the script. -/
theorem recordFromScript_appendAsset {α : Type} {nType : txnouttype} {fIsOwner : Bool}
    {r : CDataStream α} {record : α} (hp2pkh : CScript.isPayToPublicKeyHash s = true)
    (hkind : OpKind op nType fIsOwner) (hmax : data.length + 4 < UNEMP_R.toNat)
    (hmin : 8 ≤ data.length ∨ op ≠ UNEMP_Q) (hreads : ReadsBefore 8 r data record) :
    recordFromScript env r (appendAsset s op data)
        (CScript.assetDataIndex nType fIsOwner (appendAsset s op data)) =
      some (record, addressOf env s) := by
  obtain ⟨-, hlength⟩ := eq_of_isPayToPublicKeyHash hp2pkh
  obtain ⟨-, -, -, hdrop⟩ := @assetOpIndex_appendAsset s data op hlength hmax
  have hindex : CScript.assetDataIndex nType fIsOwner (appendAsset s op data) =
      some (dataStart data) := by
    rw [CScript.assetDataIndex, isAssetScript_appendAsset hkind hlength hmax hmin]
    exact if_pos ⟨rfl, rfl⟩
  have hread : r.read ((appendAsset s op data).drop (dataStart data)) = some record := by
    rw [hdrop]
    exact hreads.read (by decide)
  have hstep : recordFromScript env r (appendAsset s op data) (some (dataStart data)) =
      (r.read ((appendAsset s op data).drop (dataStart data))).bind fun data' =>
        some (data', addressOf env (appendAsset s op data)) := rfl
  rw [hindex, hstep, hread, addressOf_appendAsset hp2pkh hkind hmax hmin]
  rfl

end Scripts

/-! ## The four records -/

section RoundTrip

variable {env : Env} {s : CScript}

theorem length_writeString_le {name : Bytes} (h : name.length ≤ 41) :
    (writeString name).length ≤ 42 := by
  rw [writeString, writeCompactSize, if_pos (by omega), List.length_append, List.length_singleton]
  omega

theorem length_writeAssetHash_le (hash : Bytes) : (writeAssetHash hash).length ≤ 34 := by
  rw [writeAssetHash]
  split
  · rename_i h
    rw [List.length_cons, length_writeString_32 (by rw [List.length_drop, h])]
  · split
    · rename_i h
      rw [List.length_cons, length_writeString_32 h]
    · exact Nat.zero_le _

@[simp] theorem length_writeInt64 (v : Int64) : (writeInt64 v).length = 8 := length_writeLE _ _

@[simp] theorem length_writeInt8 (v : Int8) : (writeInt8 v).length = 1 := rfl

theorem length_newAsset {asset : CNewAsset} (hname : asset.strName.length ≤ 40) :
    8 ≤ asset.serialize.length ∧ asset.serialize.length ≤ 87 := by
  have hstring := length_writeString_le (Nat.le_succ_of_le hname)
  have hhash : (if asset.nHasIPFS == 1 then writeAssetHash asset.strIPFSHash else []).length ≤
      34 := by
    split
    · exact length_writeAssetHash_le _
    · exact Nat.zero_le _
  simp only [CNewAsset.serialize, List.length_append, length_writeInt64, length_writeInt8]
  omega

theorem length_reissue {reissue : CReissueAsset} (hname : reissue.strName.length ≤ 40) :
    reissue.serialize.length ≤ 86 := by
  have hstring := length_writeString_le (Nat.le_succ_of_le hname)
  have hhash := length_writeAssetHash_le reissue.strIPFSHash
  simp only [CReissueAsset.serialize, List.length_append, length_writeInt64, length_writeInt8]
  omega

theorem length_transfer {transfer : CAssetTransfer} (hname : transfer.strName.length ≤ 40) :
    transfer.serialize.length ≤ 92 := by
  have hstring := length_writeString_le (Nat.le_succ_of_le hname)
  have hhash := length_writeAssetHash_le transfer.message
  have htime : (if (writeAssetHash transfer.message).isEmpty || transfer.nExpireTime == 0 then []
      else writeInt64 transfer.nExpireTime).length ≤ 8 := by
    split
    · exact Nat.zero_le _
    · rw [length_writeInt64]
  simp only [CAssetTransfer.serialize, List.length_append, length_writeInt64]
  omega

theorem hash_of_newAsset {asset : CNewAsset}
    (hencoded : asset.nHasIPFS ≠ 0 → checkEncoded env asset.strIPFSHash = .ok ())
    (hstated : SaysSha256 asset.strIPFSHash) (h : asset.nHasIPFS = 1) :
    (asset.strIPFSHash.length = 34 ∨ asset.strIPFSHash.length = 32) ∧
      SaysSha256 asset.strIPFSHash := by
  refine ⟨length_of_checkEncoded (hencoded ?_), hstated⟩
  rw [h]
  decide

theorem name_of_checkNewAsset {asset : CNewAsset} (h : checkNewAsset asset = .ok ()) :
    asset.strName.length ≤ 40 := by
  rw [checkNewAsset, demand_bind] at h
  obtain ⟨assetType, hname, -⟩ := h
  exact length_of_isAssetNameValid (by rw [hname]; rfl)

theorem assetFromScript_constructTransaction {asset : CNewAsset}
    (hs : s.isPayToPublicKeyHash = true) (hcheck : checkNewAsset asset = .ok ())
    (hencoded : asset.nHasIPFS ≠ 0 → checkEncoded env asset.strIPFSHash = .ok ())
    (hstated : SaysSha256 asset.strIPFSHash) :
    assetFromScript env (asset.constructTransaction s) =
      some ({ asset with
        strIPFSHash := if asset.nHasIPFS == 1 then asset.strIPFSHash else [] },
        addressOf env s) := by
  have hname := name_of_checkNewAsset hcheck
  obtain ⟨hmin, hmax⟩ := length_newAsset hname
  have hR : UNEMP_R.toNat = 114 := rfl
  exact recordFromScript_appendAsset hs .newAsset (by omega) (.inl hmin)
    ((reads_newAsset hname (hash_of_newAsset hencoded hstated)).before 8)

theorem ownerAssetFromScript_constructOwnerTransaction {asset : CNewAsset}
    (hs : s.isPayToPublicKeyHash = true)
    (howner : isAssetNameAnOwner (asset.strName ++ OWNER_TAG) = true) :
    ownerAssetFromScript env (asset.constructOwnerTransaction s) =
      some (asset.strName ++ OWNER_TAG, addressOf env s) := by
  have hname : (asset.strName ++ OWNER_TAG).length ≤ 40 := by
    rw [isAssetNameAnOwner, isAssetNameAn, Bool.and_eq_true] at howner
    exact length_of_isAssetNameValid howner.1
  have hmax := length_writeString_le (Nat.le_succ_of_le hname)
  have hR : UNEMP_R.toNat = 114 := rfl
  exact recordFromScript_appendAsset hs .owner (by omega) (.inr (by decide))
    ((reads_string (length_le_MAX_SIZE hname)).before 8)

theorem reissueAssetFromScript_constructTransaction {reissue : CReissueAsset}
    (hs : s.isPayToPublicKeyHash = true) (hvalid : (isAssetNameValid reissue.strName).isSome)
    (hencoded : reissue.strIPFSHash ≠ [] → checkEncoded env reissue.strIPFSHash = .ok ())
    (hstated : SaysSha256 reissue.strIPFSHash) :
    reissueAssetFromScript env (reissue.constructTransaction s) =
      some (reissue, addressOf env s) := by
  have hname := length_of_isAssetNameValid hvalid
  have hmax := length_reissue hname
  have hR : UNEMP_R.toNat = 114 := rfl
  have hhash : reissue.strIPFSHash = [] ∨
      (reissue.strIPFSHash.length = 34 ∨ reissue.strIPFSHash.length = 32) ∧
        SaysSha256 reissue.strIPFSHash := by
    by_cases hempty : reissue.strIPFSHash = []
    · exact .inl hempty
    · exact .inr ⟨length_of_checkEncoded (hencoded hempty), hstated⟩
  refine recordFromScript_appendAsset hs .reissue (by omega) (.inr (by decide)) fun rest hrest => ?_
  exact reads_reissue hname hhash rest (Nat.lt_trans hrest (by decide))

theorem of_isValid {transfer : CAssetTransfer} (h : transfer.isValid env = .ok ()) :
    transfer.strName.length ≤ 40 ∧
      (transfer.message = [] ∧ transfer.nExpireTime = 0 ∨
        transfer.message.length = 34 ∨ transfer.message.length = 32) := by
  rw [CAssetTransfer.isValid, demand_bind] at h
  obtain ⟨assetType, hname, h⟩ := h
  simp only [checkTransferMessage, require_bind, onlyIf_ok, Bool.or_eq_true, Bool.not_eq_true',
    decide_eq_true_eq] at h
  obtain ⟨-, hexpire, hpositive, hencoded⟩ := h
  refine ⟨length_of_isAssetNameValid (by rw [hname]; rfl), ?_⟩
  cases hempty : transfer.message.isEmpty with
  | false => exact .inr (length_of_checkEncoded (hencoded hempty))
  | true =>
    rw [hempty] at hexpire
    have hle := hexpire.resolve_left (by decide)
    exact .inl ⟨List.isEmpty_iff.1 hempty, Int64.le_antisymm hle hpositive⟩

theorem read_transfer_early {rest : Bytes} (h : rest.length < UNEMP_T.toNat) :
    CAssetTransfer.unserialize.read (UNEMP_T :: rest) = none := by
  have hname : CDataStream.readString (UNEMP_T :: rest) = none := by
    have hsize : CDataStream.readString (UNEMP_T :: rest) =
        CDataStream.readBytes UNEMP_T.toNat rest := rfl
    rw [hsize, CDataStream.readBytes, if_pos h]
  have hstep : ∀ f : Bytes → CDataStream CAssetTransfer,
      (CDataStream.readString >>= f) (UNEMP_T :: rest) =
        (CDataStream.readString (UNEMP_T :: rest)).bind fun p => f p.1 p.2 := fun f => rfl
  rw [CDataStream.read, CAssetTransfer.unserialize, hstep, hname]
  rfl

/-- `CAssetTransfer::ConstructTransaction` and `TransferAssetFromScript`: **before the transfer
script sizes are active a long transfer is not read**. -/
theorem transferAssetFromScript_constructTransaction {transfer : CAssetTransfer}
    (hs : s.isPayToPublicKeyHash = true) (hvalid : transfer.isValid env = .ok ())
    (hstated : SaysSha256 transfer.message) :
    transferAssetFromScript env (transfer.constructTransaction s) =
      if env.dep.areTransferScriptsSizeDeployed = true ∨
          transfer.serialize.length + 4 < OP_PUSHDATA1.toNat then
        some (transfer, addressOf env s)
      else none := by
  obtain ⟨hname, hmessage⟩ := of_isValid hvalid
  have hmax := length_transfer hname
  have hR : UNEMP_R.toNat = 114 := rfl
  have hreads : ReadsBefore 8 CAssetTransfer.unserialize transfer.serialize transfer :=
    reads_transfer hname (hmessage.imp_right fun hlength => ⟨hlength, hstated⟩)
  have hrecord := @recordFromScript_appendAsset env s transfer.serialize _ _ _ _ _ _ hs .transfer
    (by omega) (.inr (by decide)) hreads
  obtain ⟨-, hlength⟩ := eq_of_isPayToPublicKeyHash hs
  have hasset := @isAssetScript_appendAsset s transfer.serialize _ _ _ .transfer hlength (by omega)
    (.inr (by decide))
  have hindex : (transfer.constructTransaction s).isScriptTransferAsset =
      some (dataStart transfer.serialize) := by
    rw [CScript.isScriptTransferAsset, CScript.assetDataIndex, CAssetTransfer.constructTransaction,
      hasset]
    rfl
  have htransfer : transferAssetFromScript env (transfer.constructTransaction s) =
      recordFromScript env CAssetTransfer.unserialize (transfer.constructTransaction s)
        (some (if env.dep.areTransferScriptsSizeDeployed then dataStart transfer.serialize
          else 31)) := by
    rw [transferAssetFromScript, hindex]
    rfl
  have hsame : recordFromScript env CAssetTransfer.unserialize (transfer.constructTransaction s)
      (some (dataStart transfer.serialize)) = some (transfer, addressOf env s) := by
    rw [← hindex]
    exact hrecord
  rw [htransfer]
  cases hdep : env.dep.areTransferScriptsSizeDeployed with
  | true =>
    rw [if_pos rfl, if_pos (.inl rfl)]
    exact hsame
  | false =>
    rw [if_neg Bool.false_ne_true]
    by_cases hshort : transfer.serialize.length + 4 < OP_PUSHDATA1.toNat
    · have hstart : dataStart transfer.serialize = 31 := if_pos hshort
      rw [hstart] at hsame
      rw [if_pos (.inr hshort)]
      exact hsame
    · have hstart : dataStart transfer.serialize = 32 := if_neg hshort
      obtain ⟨-, -, hop, hdrop⟩ := @assetOpIndex_appendAsset s transfer.serialize UNEMP_T hlength
        (by omega)
      rw [hstart] at hop hdrop
      have hlong : 31 < (transfer.constructTransaction s).length := (isPayToScriptHash_of_asset
        hasset).2
      have hearly : (transfer.constructTransaction s).drop 31 =
          UNEMP_T :: (transfer.serialize ++ [OP_DROP]) := by
        rw [drop_eq_at_cons hlong]
        exact congrArg₂ List.cons hop hdrop
      have hnone := @read_transfer_early (transfer.serialize ++ [OP_DROP]) (by
        rw [List.length_append, List.length_singleton]
        have hT : UNEMP_T.toNat = 116 := rfl
        omega)
      rw [if_neg (by rintro (h | h); exacts [absurd h (by decide), hshort h]), recordFromScript]
      simp only [Option.bind_eq_bind, Option.bind_some, hearly, hnone, Option.bind_none]

/-- **What is written into an asset script is read back from it**, with the address of the script
in front: a new asset but for a hash that it says it does not have, an owner name, a reissue, and
a transfer, which before the transfer script sizes are active is read only where its push takes
one byte. -/
theorem assetScript_roundTrip (env : Env) {s : CScript} (hs : s.isPayToPublicKeyHash = true) :
    (∀ asset : CNewAsset, checkNewAsset asset = .ok () →
      (asset.nHasIPFS ≠ 0 → checkEncoded env asset.strIPFSHash = .ok ()) →
      SaysSha256 asset.strIPFSHash →
      assetFromScript env (asset.constructTransaction s) =
        some ({ asset with
          strIPFSHash := if asset.nHasIPFS == 1 then asset.strIPFSHash else [] },
          addressOf env s)) ∧
    (∀ asset : CNewAsset, isAssetNameAnOwner (asset.strName ++ OWNER_TAG) = true →
      ownerAssetFromScript env (asset.constructOwnerTransaction s) =
        some (asset.strName ++ OWNER_TAG, addressOf env s)) ∧
    (∀ reissue : CReissueAsset, (isAssetNameValid reissue.strName).isSome →
      checkReissueAsset env reissue = .ok () →
      (reissue.strIPFSHash ≠ [] → checkEncoded env reissue.strIPFSHash = .ok ()) →
      SaysSha256 reissue.strIPFSHash →
      reissueAssetFromScript env (reissue.constructTransaction s) =
        some (reissue, addressOf env s)) ∧
    (∀ transfer : CAssetTransfer, transfer.isValid env = .ok () → SaysSha256 transfer.message →
      transferAssetFromScript env (transfer.constructTransaction s) =
        if env.dep.areTransferScriptsSizeDeployed = true ∨
            transfer.serialize.length + 4 < OP_PUSHDATA1.toNat then
          some (transfer, addressOf env s)
        else none) := by
  refine ⟨fun asset hcheck hencoded hstated => ?_, fun asset howner => ?_,
    fun reissue hvalid _ hencoded hstated => ?_, fun transfer hvalid hstated => ?_⟩
  · exact assetFromScript_constructTransaction hs hcheck hencoded hstated
  · exact ownerAssetFromScript_constructOwnerTransaction hs howner
  · exact reissueAssetFromScript_constructTransaction hs hvalid hencoded hstated
  · exact transferAssetFromScript_constructTransaction hs hvalid hstated

end RoundTrip

/-! ## Samples -/

def sampleKeyScript : CScript := getScriptForKeyID (List.replicate 20 7)

def roundTripAsset (head : Bytes) : CNewAsset :=
  ⟨ascii "TOKEN", 100000000, 0, 1, 1, head ++ List.replicate 32 1⟩

def unflaggedAsset : CNewAsset :=
  { roundTripAsset [IPFS_SHA2_256, IPFS_SHA2_256_LEN] with nHasIPFS := 0 }

def roundTripReissue : CReissueAsset := ⟨ascii "TOKEN", 100000000, 0, 1, []⟩

/-- Records of each kind on one script, the transfer a long one. -/
theorem sampleKeyScript_roundTrip :
    assetFromScript (amountEnv .all)
        ((roundTripAsset [IPFS_SHA2_256, IPFS_SHA2_256_LEN]).constructTransaction sampleKeyScript) =
      some (roundTripAsset [IPFS_SHA2_256, IPFS_SHA2_256_LEN],
        addressOf (amountEnv .all) sampleKeyScript) ∧
    ownerAssetFromScript (amountEnv .all)
        ((roundTripAsset []).constructOwnerTransaction sampleKeyScript) =
      some (ascii "TOKEN!", addressOf (amountEnv .all) sampleKeyScript) ∧
    reissueAssetFromScript (amountEnv .all)
        (roundTripReissue.constructTransaction sampleKeyScript) =
      some (roundTripReissue, addressOf (amountEnv .all) sampleKeyScript) ∧
    transferAssetFromScript (amountEnv .all) (longTransfer.constructTransaction sampleKeyScript) =
      some (longTransfer, addressOf (amountEnv .all) sampleKeyScript) := by
  obtain ⟨hasset, howner, hreissue, htransfer⟩ :=
    assetScript_roundTrip (amountEnv .all) (s := sampleKeyScript) (by decide +kernel)
  refine ⟨?_, ?_, ?_, ?_⟩
  · exact hasset _ (by decide +kernel) (fun _ => by decide +kernel) (fun _ => rfl)
  · exact howner _ (by decide +kernel)
  · exact hreissue _ (by decide +kernel) (by decide +kernel) (fun h => absurd rfl h)
      (fun h => absurd h (by decide))
  · rw [htransfer _ (by decide +kernel) (fun _ => rfl)]
    exact if_pos (.inl rfl)

/-- **A long transfer is not read back before the transfer script sizes are active**, a hash without
`nHasIPFS` is not part of the record, and one that does not say it is a SHA2-256 of 32 bytes comes
back as one that does. -/
theorem longTransfer_notRead :
    (longTransfer.isValid (amountEnv .none) = .ok () ∧
      transferAssetFromScript (amountEnv .none)
        (longTransfer.constructTransaction sampleKeyScript) = none) ∧
    (checkNewAsset unflaggedAsset = .ok () ∧
      (assetFromScript (amountEnv .all)
          (unflaggedAsset.constructTransaction sampleKeyScript)).map Prod.fst =
        some { unflaggedAsset with strIPFSHash := [] }) ∧
    checkNewAsset (roundTripAsset [0x12, 0x21]) = .ok () ∧
      checkEncoded (amountEnv .all) (roundTripAsset [0x12, 0x21]).strIPFSHash = .ok () ∧
      (assetFromScript (amountEnv .all)
          ((roundTripAsset [0x12, 0x21]).constructTransaction sampleKeyScript)).map Prod.fst =
        some (roundTripAsset [0x12, 0x20]) := by
  refine ⟨⟨?_, ?_⟩, ⟨?_, ?_⟩, ?_, ?_, ?_⟩ <;> decide +kernel

end UnemployCoin
