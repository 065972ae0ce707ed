import UnemployCoin.CacheUpdates
import UnemployCoin.CheckTransaction
/-!
# Coins and the asset changes of a transaction

`AddCoins`, `SpendCoin` and `UpdateCoins` (`coins.cpp`, `validation.cpp`): what connecting a
transaction changes in the coins and in the local asset cache.  The cache layers above the
coins are one map; what the address index and the message channels get to know is left out.
-/

namespace UnemployCoin

open Check CAssetsCache

def CCoinsView.addCoin (view : CCoinsView) (outpoint : COutPoint) (coin : Coin)
    (possible_overwrite : Bool) : Except String CCoinsView := do
  require (coin.out.nValue != -1) "assert(!coin.IsSpent())"
  if coin.out.scriptPubKey.isUnspendable then return view
  else do
    require (possible_overwrite || !view.count outpoint)
      "Adding new coin that replaces non-pruned entry"
    return view.assign outpoint coin

/-- `CAssetsCache::TrySpendCoin`: an asset script is one that can be read. -/
def trySpendCoin (env : Env) (txOut : CTxOut) : Bool :=
  !txOut.scriptPubKey.isAssetScript.isSome ||
    match getAssetData env txOut.scriptPubKey with
    | some data => !(addressOf env txOut.scriptPubKey).isEmpty && !data.assetName.isEmpty
    | none => false

/-- `CCoinsViewCache::SpendCoin`: the view without the coin, the coin, and the result.  The coin
is gone also where the result is false because its asset cannot be read. -/
def CCoinsView.spendCoin (env : Env) (view : CCoinsView) (outpoint : COutPoint) :
    CCoinsView × Option Coin × Bool :=
  match view.find? outpoint with
  | none => (view, none, false)
  | some coin =>
    (view.erase outpoint, some coin, !env.dep.areAssetsDeployed || trySpendCoin env coin.out)

/-! ## Assets -/

section Assets

variable (env : Env) (st : AssetState)

/-- `AddNewAsset`, whose failure `AddCoins` only logs. -/
def tryAddNewAsset (nHeight : ℤ) (blockHash : uint256) (cache : CAssetsCache)
    (record : WithAddress CNewAsset) : CAssetsCache :=
  (cache.addNewAsset env st record.1 record.2 nHeight blockHash).getD cache

/-- The record of a transaction, or the default-constructed asset where there is none. -/
def orNull (record : Option (WithAddress CNewAsset)) : WithAddress CNewAsset :=
  record.getD (.null, [])

/-- The first verifier string of a transaction, if it can be read. -/
def CTransaction.firstVerifier (tx : CTransaction) : Option Bytes :=
  match tx.verifierOutputs with
  | [] => none
  | out :: _ =>
    (assetNullVerifierDataFromScript out.scriptPubKey).map
      CNullAssetTxVerifierString.verifier_string

/-- The branch of `AddCoins` for a reissue: the cache, and what the undo data has to say. -/
def addReissue (tx : CTransaction) (cache : CAssetsCache) :
    CAssetsCache × Option (Bytes × CBlockAssetUndo) :=
  let (reissue, strAddress) := (tx.reissueAssetFromTransaction env).getD (.null, [])
  let reissueIndex := tx.vout.length - 1
  -- The asset before the reissue.
  let asset := ((cache.getAssetMetaDataIfExists st reissue.strName).map
    AssetMetaData.asset).getD .null
  let cache := (cache.addReissueAsset env st reissue strAddress ⟨tx.hash, reissueIndex⟩).getD cache
  let verifier := if assetTypeOf asset.strName = .RESTRICTED then tx.firstVerifier else none
  let strOldVerifier := match verifier with
    | some _ => (cache.getAssetVerifierStringIfExists st asset.strName false).getD []
    | none => []
  let cache := match verifier with
    | some verifier => cache.addRestrictedVerifier asset.strName verifier
    | none => cache
  let fIPFSChanged := !reissue.strIPFSHash.isEmpty
  let fUnitsChanged := reissue.nUnits != -1
  let fVerifierChanged := verifier.isSome
  (cache, if fIPFSChanged || fUnitsChanged || fVerifierChanged then
      some (reissue.strName, ⟨fIPFSChanged, fUnitsChanged, asset.strIPFSHash, asset.units,
        fVerifierChanged, strOldVerifier⟩)
    else none)

/-- The branch of `AddCoins` for a restricted asset. -/
def addRestricted (nHeight : ℤ) (blockHash : uint256) (tx : CTransaction) (cache : CAssetsCache) :
    CAssetsCache :=
  let record := orNull (tx.restrictedAssetFromTransaction env)
  let cache := tryAddNewAsset env st nHeight blockHash cache record
  match tx.verifierOutputs with
  | [] => cache
  | _ :: _ => cache.addRestrictedVerifier record.1.strName (tx.firstVerifier.getD [])

/-- The new assets of a transaction that issues unique assets. -/
def uniqueRecords (tx : CTransaction) : List (WithAddress CNewAsset) :=
  tx.vout.filterMap fun out => uniqueAssetFromScript env out.scriptPubKey

/-- What `AddCoins` does for the asset transaction that the transaction is. -/
def addAssets (nHeight : ℤ) (blockHash : uint256) (tx : CTransaction) (cache : CAssetsCache) :
    CAssetsCache × Option (Bytes × CBlockAssetUndo) :=
  match tx.assetTxKind env with
  | .newAsset =>
    (tryAddNewAsset env st nHeight blockHash cache (orNull (tx.assetFromTransaction env)), none)
  | .reissue => addReissue env st tx cache
  | .newUnique =>
    ((uniqueRecords env tx).foldl (tryAddNewAsset env st nHeight blockHash) cache, none)
  | .newMsgChannel =>
    (tryAddNewAsset env st nHeight blockHash cache
      (orNull (tx.msgChannelAssetFromTransaction env)), none)
  | .newQualifier =>
    (tryAddNewAsset env st nHeight blockHash cache
      (orNull (tx.qualifierAssetFromTransaction env)), none)
  | .newRestricted => (addRestricted env st nHeight blockHash tx cache, none)
  | .other => (cache, none)

/-- A command of an output: the tag or freeze of an address, or the freeze of an asset. -/
inductive NullCommand where
  | qualifier (assetName address : Bytes) (type : QualifierType)
  | restricted (assetName address : Bytes) (type : RestrictedType)
  | global (assetName : Bytes) (type : RestrictedType)
  deriving DecidableEq, Repr

/-- `data.flag ? on : off`. -/
def ofFlag {α : Type} (flag : Int8) (on off : α) : α := if flag ≠ 0 then on else off

/-- The command that `AddCoins` and `DisconnectBlock` read from an output. -/
def nullCommand (out : CTxOut) : Option NullCommand :=
  if out.scriptPubKey.isNullAssetTxDataScript then
    let (data, address) := (assetNullDataFromScript env out.scriptPubKey).getD (.null, [])
    match assetTypeOf data.asset_name with
    | .RESTRICTED =>
      some (.restricted data.asset_name address
        (ofFlag data.flag .FREEZE_ADDRESS .UNFREEZE_ADDRESS))
    | .QUALIFIER | .SUB_QUALIFIER =>
      some (.qualifier data.asset_name address (ofFlag data.flag .ADD_QUALIFIER .REMOVE_QUALIFIER))
    | _ => none
  else if out.scriptPubKey.isNullGlobalRestrictionAssetTxDataScript then
    let data := (globalAssetNullDataFromScript out.scriptPubKey).getD .null
    some (.global data.asset_name (ofFlag data.flag .GLOBAL_FREEZE .GLOBAL_UNFREEZE))
  else none

/-- The commands of a transaction, in the order of its outputs. -/
def nullCommands (tx : CTransaction) : List NullCommand := tx.vout.filterMap (nullCommand env)

def CAssetsCache.addCommand (cache : CAssetsCache) : NullCommand → CAssetsCache
  | .qualifier assetName address type => cache.addQualifierAddress assetName address type
  | .restricted assetName address type => cache.addRestrictedAddress assetName address type
  | .global assetName type => cache.addGlobalRestricted assetName type

def CAssetsCache.removeCommand (cache : CAssetsCache) : NullCommand → CAssetsCache
  | .qualifier assetName address type => cache.removeQualifierAddress assetName address type
  | .restricted assetName address type => cache.removeRestrictedAddress assetName address type
  | .global assetName type => cache.removeGlobalRestricted assetName type

/-- The changes of `AddCoins` to the asset cache. -/
def updateAssets (nHeight : ℤ) (blockHash : uint256) (tx : CTransaction) (cache : CAssetsCache) :
    CAssetsCache × Option (Bytes × CBlockAssetUndo) :=
  if env.dep.areAssetsDeployed then
    let (cache, undoAssetData) := addAssets env st nHeight blockHash tx cache
    ((nullCommands env tx).foldl addCommand cache, undoAssetData)
  else (cache, none)

end Assets

/-! ## `AddCoins` and `UpdateCoins` -/

def CTransaction.outputs (tx : CTransaction) : List (COutPoint × CTxOut) :=
  tx.vout.zipIdx.map fun (txout, i) => (⟨tx.hash, i⟩, txout)

/-- The loop of `AddCoins` over the outputs, on the coins. -/
def CCoinsView.addOutputs (view : CCoinsView) (tx : CTransaction) (nHeight : ℕ) :
    Except String CCoinsView :=
  tx.outputs.foldlM (fun view (outpoint, txout) =>
    view.addCoin outpoint ⟨txout, tx.isCoinBase, nHeight⟩ tx.isCoinBase) view

/-- The coins that a transaction spends, as its undo data has them. -/
abbrev CTxUndo := List Coin

/-- `UpdateCoins`, the loop over the inputs. -/
def spendInputs (env : Env) : List CTxIn → CCoinsView → Except String (CCoinsView × CTxUndo)
  | [], view => .ok (view, [])
  | txin :: vin, view =>
    match view.spendCoin env txin.prevout with
    | (view, some coin, true) => do
      let (view, vprevout) ← spendInputs env vin view
      return (view, coin :: vprevout)
    | _ => .error "assert(is_spent)"

def CCoinsView.spendTx (env : Env) (view : CCoinsView) (tx : CTransaction) :
    Except String (CCoinsView × CTxUndo) :=
  if tx.isCoinBase then .ok (view, []) else spendInputs env tx.vin view

/-- `UpdateCoins`, on the coins. -/
def CCoinsView.update (env : Env) (view : CCoinsView) (tx : CTransaction) (nHeight : ℕ) :
    Except String (CCoinsView × CTxUndo) := do
  let (view, txundo) ← view.spendTx env tx
  let view ← view.addOutputs tx nHeight
  return (view, txundo)

theorem spendCoin_eq {env : Env} {view view' : CCoinsView} {outpoint : COutPoint} {coin : Coin}
    {b : Bool} (h : view.spendCoin env outpoint = (view', some coin, b)) :
    view.find? outpoint = some coin ∧ view' = view.erase outpoint := by
  rw [CCoinsView.spendCoin] at h
  split at h
  · cases h
  · rename_i c hc
    cases h
    exact ⟨hc, rfl⟩

theorem outputs_map_snd (tx : CTransaction) : tx.outputs.map Prod.snd = tx.vout := by
  rw [CTransaction.outputs, List.map_map]
  exact List.zipIdx_map_fst 0 tx.vout

theorem outputs_nodup (tx : CTransaction) : (tx.outputs.map Prod.fst).Nodup := by
  have hindices : tx.outputs.map Prod.fst =
      (tx.vout.zipIdx.map Prod.snd).map fun i => ⟨tx.hash, i⟩ := by
    rw [CTransaction.outputs, List.map_map, List.map_map]
    rfl
  rw [hindices, List.zipIdx_map_snd]
  refine List.Nodup.map ?_ List.nodup_range'
  intro i j h
  exact congrArg COutPoint.n h

end UnemployCoin
