import UnemployCoin.Script
/-!
# Amounts and asset records

The records an output script carries, with their serialization (`amount.h`,
`assets/assettypes.h`).  Amounts are 64-bit and **wrap**; the records are read back with
`CDataStream`, so a record may be read from any bytes a script holds.
-/

namespace UnemployCoin

/-! ## Amounts -/

abbrev CAmount := Int64

def COIN : CAmount := 100000000

def MAX_MONEY : CAmount := 1000000000 * COIN

def moneyRange (nValue : CAmount) : Bool := decide (0 ≤ nValue) && decide (nValue ≤ MAX_MONEY)

def OWNER_ASSET_AMOUNT : CAmount := 1 * COIN
def UNIQUE_ASSET_AMOUNT : CAmount := 1 * COIN
def UNIQUE_ASSET_UNITS : Int8 := 0
def QUALIFIER_ASSET_MIN_AMOUNT : CAmount := 1 * COIN
def QUALIFIER_ASSET_MAX_AMOUNT : CAmount := 10 * COIN
def QUALIFIER_ASSET_UNITS : Int8 := 0
def OWNER_TAG : Bytes := ascii "!"
def OWNER_LENGTH : ℕ := 1
def MIN_ASSET_LENGTH : ℕ := 3
def MAX_UNIT : Int8 := 8

/-- 256-bit hashes; `0` is the null hash. -/
abbrev uint256 := ℕ

inductive AssetType where
  | ROOT
  | SUB
  | UNIQUE
  | MSGCHANNEL
  | QUALIFIER
  | SUB_QUALIFIER
  | RESTRICTED
  | VOTE
  | REISSUE
  | OWNER
  | NULL_ADD_QUALIFIER
  | INVALID
  deriving DecidableEq, Repr

inductive QualifierType where
  | REMOVE_QUALIFIER
  | ADD_QUALIFIER
  deriving DecidableEq, Repr

inductive RestrictedType where
  | UNFREEZE_ADDRESS
  | FREEZE_ADDRESS
  | GLOBAL_UNFREEZE
  | GLOBAL_FREEZE
  deriving DecidableEq, Repr

/-! ## Records -/

def IPFS_SHA2_256 : UInt8 := 0x12
def TXID_NOTIFIER : UInt8 := 0x54
def IPFS_SHA2_256_LEN : UInt8 := 0x20

structure CNewAsset where
  strName : Bytes
  nAmount : CAmount
  units : Int8
  nReissuable : Int8
  nHasIPFS : Int8
  strIPFSHash : Bytes
  deriving DecidableEq, Repr

/-- A default-constructed `CNewAsset`. -/
def CNewAsset.null : CNewAsset := ⟨[], 0, MAX_UNIT, 0, 0, []⟩

structure CAssetTransfer where
  strName : Bytes
  nAmount : CAmount
  message : Bytes
  nExpireTime : Int64
  deriving DecidableEq, Repr

structure CReissueAsset where
  strName : Bytes
  nAmount : CAmount
  nUnits : Int8
  nReissuable : Int8
  strIPFSHash : Bytes
  deriving DecidableEq, Repr

/-- A default-constructed `CReissueAsset`. -/
def CReissueAsset.null : CReissueAsset := ⟨[], 0, 0, 1, []⟩

structure CNullAssetTxData where
  asset_name : Bytes
  flag : Int8
  deriving DecidableEq, Repr

/-- A default-constructed `CNullAssetTxData`. -/
def CNullAssetTxData.null : CNullAssetTxData := ⟨[], -1⟩

structure CNullAssetTxVerifierString where
  verifier_string : Bytes
  deriving DecidableEq, Repr

/-! ### Reading -/

/-- `ReadWriteAssetHash`, reading: the hash, and whether one was there. -/
def readAssetHash : CDataStream (Bytes × Bool) := do
  let left ← CDataStream.remaining
  if left < 33 then
    return ([], false)
  else do
    let _sha2_256 ← CDataStream.readUInt8
    let hash ← CDataStream.readString
    let head := if _sha2_256 == IPFS_SHA2_256 then [IPFS_SHA2_256, IPFS_SHA2_256_LEN] else []
    return (head ++ hash.substr 0 32, true)

def CNewAsset.unserialize : CDataStream CNewAsset := do
  let strName ← CDataStream.readString
  let nAmount ← CDataStream.readInt64
  let units ← CDataStream.readInt8
  let nReissuable ← CDataStream.readInt8
  let nHasIPFS ← CDataStream.readInt8
  let strIPFSHash ← if nHasIPFS == 1 then Prod.fst <$> readAssetHash else pure []
  return ⟨strName, nAmount, units, nReissuable, nHasIPFS, strIPFSHash⟩

def CAssetTransfer.unserialize : CDataStream CAssetTransfer := do
  let strName ← CDataStream.readString
  let nAmount ← CDataStream.readInt64
  let (message, validIPFS) ← readAssetHash
  let left ← CDataStream.remaining
  -- The expire time stands only behind a message, and may be missing there too.
  let nExpireTime ← if validIPFS && decide (8 ≤ left) then CDataStream.readInt64 else pure 0
  return ⟨strName, nAmount, message, nExpireTime⟩

def CReissueAsset.unserialize : CDataStream CReissueAsset := do
  let strName ← CDataStream.readString
  let nAmount ← CDataStream.readInt64
  let nUnits ← CDataStream.readInt8
  let nReissuable ← CDataStream.readInt8
  let (strIPFSHash, _) ← readAssetHash
  return ⟨strName, nAmount, nUnits, nReissuable, strIPFSHash⟩

def CNullAssetTxData.unserialize : CDataStream CNullAssetTxData := do
  let asset_name ← CDataStream.readString
  let flag ← CDataStream.readInt8
  return ⟨asset_name, flag⟩

def CNullAssetTxVerifierString.unserialize : CDataStream CNullAssetTxVerifierString := do
  let verifier_string ← CDataStream.readString
  return ⟨verifier_string⟩

/-! ### Writing -/

/-- `ReadWriteAssetHash`, writing. -/
def writeAssetHash (strIPFSHash : Bytes) : Bytes :=
  if strIPFSHash.length = 34 then IPFS_SHA2_256 :: writeString (strIPFSHash.drop 2)
  else if strIPFSHash.length = 32 then TXID_NOTIFIER :: writeString strIPFSHash
  else []

def CNewAsset.serialize (asset : CNewAsset) : Bytes :=
  writeString asset.strName ++ writeInt64 asset.nAmount ++ writeInt8 asset.units ++
    writeInt8 asset.nReissuable ++ writeInt8 asset.nHasIPFS ++
    (if asset.nHasIPFS == 1 then writeAssetHash asset.strIPFSHash else [])

def CAssetTransfer.serialize (transfer : CAssetTransfer) : Bytes :=
  writeString transfer.strName ++ writeInt64 transfer.nAmount ++ writeAssetHash transfer.message ++
    (if (writeAssetHash transfer.message).isEmpty || transfer.nExpireTime == 0 then []
      else writeInt64 transfer.nExpireTime)

def CReissueAsset.serialize (reissue : CReissueAsset) : Bytes :=
  writeString reissue.strName ++ writeInt64 reissue.nAmount ++ writeInt8 reissue.nUnits ++
    writeInt8 reissue.nReissuable ++ writeAssetHash reissue.strIPFSHash

def CNullAssetTxData.serialize (data : CNullAssetTxData) : Bytes :=
  writeString data.asset_name ++ writeInt8 data.flag

def CNullAssetTxVerifierString.serialize (verifier : CNullAssetTxVerifierString) : Bytes :=
  writeString verifier.verifier_string

/-- What every `ConstructTransaction` appends to a pay-to-pubkey-hash script. -/
def appendAsset (script : CScript) (op : UInt8) (data : Bytes) : CScript :=
  script ++ [OP_UNEMP_ASSET] ++ CScript.pushData ([UNEMP_R, UNEMP_V, UNEMP_N, op] ++ data) ++
    [OP_DROP]

def CNewAsset.constructTransaction (asset : CNewAsset) (script : CScript) : CScript :=
  appendAsset script UNEMP_Q asset.serialize

def CNewAsset.constructOwnerTransaction (asset : CNewAsset) (script : CScript) : CScript :=
  appendAsset script UNEMP_O (writeString (asset.strName ++ OWNER_TAG))

def CAssetTransfer.constructTransaction (transfer : CAssetTransfer) (script : CScript) : CScript :=
  appendAsset script UNEMP_T transfer.serialize

def CReissueAsset.constructTransaction (reissue : CReissueAsset) (script : CScript) : CScript :=
  appendAsset script UNEMP_R reissue.serialize

end UnemployCoin
