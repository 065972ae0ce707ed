import UnemployCoin.Destination
import UnemployCoin.Lib.StdMap
/-!
# Transactions and coins

Transactions (`primitives/transaction.h`), the coins they create (`coins.h`), and the functions
that read an asset record from an output script (`assets/assets.cpp`).
-/

namespace UnemployCoin

structure COutPoint where
  hash : uint256
  n : ℕ
  deriving DecidableEq, Repr

def COutPoint.isNull (out : COutPoint) : Bool := out.hash == 0 && out.n == 0xffffffff

structure CTxIn where
  prevout : COutPoint
  scriptSig : CScript
  deriving DecidableEq, Repr

structure CTxOut where
  nValue : CAmount
  scriptPubKey : CScript
  deriving DecidableEq, Repr

structure CTransaction where
  hash : uint256
  vin : List CTxIn
  vout : List CTxOut
  deriving DecidableEq, Repr

namespace CTransaction

def isCoinBase (tx : CTransaction) : Bool :=
  match tx.vin with
  | [txin] => txin.prevout.isNull
  | _ => false

/-- Bytes of `WriteCompactSize`. -/
def compactSizeLength (n : ℕ) : ℕ :=
  if n < 253 then 1 else if n ≤ 0xffff then 3 else if n ≤ 0xffffffff then 5 else 9

def scriptSize (s : CScript) : ℕ := compactSizeLength s.length + s.length

/-- `GetSerializeSize` without the witness. -/
def serializeSize (tx : CTransaction) : ℕ :=
  4 + compactSizeLength tx.vin.length +
    (tx.vin.map fun txin => 40 + scriptSize txin.scriptSig).sum +
    compactSizeLength tx.vout.length +
    (tx.vout.map fun txout => 8 + scriptSize txout.scriptPubKey).sum + 4

/-- `CTransaction::GetValueOut`, which throws on a sum out of range.  Before the enforced
values are active it **skips every asset output**. -/
def getValueOut (tx : CTransaction) (fAreEnforcedValues : Bool) : Option CAmount :=
  tx.vout.foldlM (fun nValueOut txout =>
    if !fAreEnforcedValues && txout.scriptPubKey.isAssetScript.isSome then some nValueOut
    else if moneyRange txout.nValue && moneyRange (nValueOut + txout.nValue) then
      some (nValueOut + txout.nValue)
    else none) 0

end CTransaction

def WITNESS_SCALE_FACTOR : ℕ := 4

def getMaxBlockWeight : ℕ := 8000000

structure Coin where
  out : CTxOut
  fCoinBase : Bool
  nHeight : ℕ
  deriving DecidableEq, Repr

def Coin.isAsset (coin : Coin) : Bool := coin.out.scriptPubKey.isAssetScript.isSome

/-- The unspent outputs, as `CCoinsViewCache` presents them. -/
abbrev CCoinsView := StdMap COutPoint Coin

def CCoinsView.haveInputs (view : CCoinsView) (tx : CTransaction) : Bool :=
  tx.isCoinBase || tx.vin.all fun txin => view.count txin.prevout

/-! ## Records of an output script -/

/-- A record read from an output script, and the address the script pays. -/
abbrev WithAddress (α : Type) := α × Bytes

/-- The record behind index `nStartingIndex`, with the address. -/
def recordFromScript {α : Type} (env : Env) (r : CDataStream α) (s : CScript)
    (nStartingIndex : Option ℕ) : Option (WithAddress α) := do
  let index ← nStartingIndex
  let data ← r.read (s.drop index)
  return (data, addressOf env s)

def assetFromScript (env : Env) (s : CScript) : Option (WithAddress CNewAsset) :=
  recordFromScript env CNewAsset.unserialize s s.isScriptNewAsset

def ownerAssetFromScript (env : Env) (s : CScript) : Option (WithAddress Bytes) :=
  recordFromScript env CDataStream.readString s s.isScriptOwnerAsset

def reissueAssetFromScript (env : Env) (s : CScript) : Option (WithAddress CReissueAsset) :=
  recordFromScript env CReissueAsset.unserialize s s.isScriptReissueAsset

/-- `TransferAssetFromScript`.  Before the transfer script sizes are active the record is read
from index 31 on, also where the push takes two bytes. -/
def transferAssetFromScript (env : Env) (s : CScript) : Option (WithAddress CAssetTransfer) :=
  recordFromScript env CAssetTransfer.unserialize s
    (s.isScriptTransferAsset.map fun nStartingIndex =>
      if env.dep.areTransferScriptsSizeDeployed then nStartingIndex else 31)

/-- A new asset whose name is of one of some kinds: `IsScriptNewUniqueAsset` and its siblings
together with the `…AssetFromScript` functions that begin with them. -/
def newAssetOfType (env : Env) (types : List AssetType) (s : CScript) :
    Option (WithAddress CNewAsset) :=
  match assetFromScript env s with
  | none => none
  | some (asset, address) =>
    match isAssetNameValid asset.strName with
    | some type => if type ∈ types then some (asset, address) else none
    | none => none

/-- `IsScriptNewUniqueAsset`. -/
def uniqueAssetFromScript (env : Env) : CScript → Option (WithAddress CNewAsset) :=
  newAssetOfType env [.UNIQUE]

def msgChannelAssetFromScript (env : Env) : CScript → Option (WithAddress CNewAsset) :=
  newAssetOfType env [.MSGCHANNEL]

def qualifierAssetFromScript (env : Env) : CScript → Option (WithAddress CNewAsset) :=
  newAssetOfType env [.QUALIFIER, .SUB_QUALIFIER]

def restrictedAssetFromScript (env : Env) : CScript → Option (WithAddress CNewAsset) :=
  newAssetOfType env [.RESTRICTED]

def assetNullDataFromScript (env : Env) (s : CScript) : Option (WithAddress CNullAssetTxData) :=
  recordFromScript env CNullAssetTxData.unserialize s
    (if s.isNullAssetTxDataScript then some 23 else none)

def globalAssetNullDataFromScript (s : CScript) : Option CNullAssetTxData :=
  if s.isNullGlobalRestrictionAssetTxDataScript then CNullAssetTxData.unserialize.read (s.drop 4)
  else none

def assetNullVerifierDataFromScript (s : CScript) : Option CNullAssetTxVerifierString :=
  if s.isNullAssetVerifierTxDataScript then
    CNullAssetTxVerifierString.unserialize.read (s.drop 3)
  else none

structure CAssetOutputEntry where
  type : txnouttype
  assetName : Bytes
  destination : CTxDestination
  nAmount : CAmount
  deriving DecidableEq, Repr

/-- `GetAssetData`: the asset an output carries, by the kind of its script. -/
def getAssetData (env : Env) (s : CScript) : Option CAssetOutputEntry :=
  match s.isAssetScript with
  | none => none
  | some ⟨.TX_NEW_ASSET, false, _⟩ =>
    (assetFromScript env s).map fun (asset, address) =>
      ⟨.TX_NEW_ASSET, asset.strName, decodeDestination env address, asset.nAmount⟩
  | some ⟨.TX_NEW_ASSET, true, _⟩ =>
    (ownerAssetFromScript env s).map fun (assetName, address) =>
      ⟨.TX_NEW_ASSET, assetName, decodeDestination env address, OWNER_ASSET_AMOUNT⟩
  | some ⟨.TX_TRANSFER_ASSET, _, _⟩ =>
    (transferAssetFromScript env s).map fun (transfer, address) =>
      ⟨.TX_TRANSFER_ASSET, transfer.strName, decodeDestination env address, transfer.nAmount⟩
  | some ⟨.TX_REISSUE_ASSET, _, _⟩ =>
    (reissueAssetFromScript env s).map fun (reissue, address) =>
      ⟨.TX_REISSUE_ASSET, reissue.strName, decodeDestination env address, reissue.nAmount⟩
  | some _ => none

/-- `GetAssetAmountFromScript`.  A transfer is read behind its push here, whatever is
deployed. -/
def getAssetAmountFromScript (s : CScript) : Option CAmount :=
  match s.isAssetScript with
  | some ⟨.TX_NEW_ASSET, false, index⟩ =>
    (CNewAsset.unserialize.read (s.drop index)).map CNewAsset.nAmount
  | some ⟨.TX_NEW_ASSET, true, _⟩ => some OWNER_ASSET_AMOUNT
  | some ⟨.TX_TRANSFER_ASSET, _, index⟩ =>
    (CAssetTransfer.unserialize.read (s.drop index)).map CAssetTransfer.nAmount
  | some ⟨.TX_REISSUE_ASSET, _, index⟩ =>
    (CReissueAsset.unserialize.read (s.drop index)).map CReissueAsset.nAmount
  | _ => none

def CScript.isUnspendable (s : CScript) : Bool :=
  (s.length > 0 && Bytes.at s 0 == OP_RETURN) || (s.length > 0 && Bytes.at s 0 == OP_UNEMP_ASSET) ||
    s.length > MAX_SCRIPT_SIZE || getAssetAmountFromScript s == some 0

end UnemployCoin
