import UnemployCoin.CheckTransaction
import UnemployCoin.Lib.Totals
/-!
# `CheckTxInputs` and `CheckTxAssets`

The checks of a transaction against the coins it spends and against the asset caches
(`consensus/tx_verify.cpp`).  An assertion or an exception of the source is a failure here.  The
messages that `CheckTxAssets` collects have no part in its verdict and are left out.
-/

namespace UnemployCoin

open Check CAssetsCache

def COINBASE_MATURITY : ℤ := 100

/-- The loop of `CheckTxInputs`: one input added to `nValueIn`. -/
def addValueIn (view : CCoinsView) (nSpendHeight : ℕ) (nValueIn : CAmount) (txin : CTxIn) :
    Except String CAmount := do
  let coin ← demand (view.find? txin.prevout) "assert(!coin.IsSpent())"
  require (!coin.fCoinBase || decide (COINBASE_MATURITY ≤ (nSpendHeight : ℤ) - coin.nHeight))
    "bad-txns-premature-spend-of-coinbase"
  require (moneyRange coin.out.nValue && moneyRange (nValueIn + coin.out.nValue))
    "bad-txns-inputvalues-outofrange"
  return nValueIn + coin.out.nValue

/-- `Consensus::CheckTxInputs`: the fee. -/
def checkTxInputs (env : Env) (tx : CTransaction) (view : CCoinsView) (nSpendHeight : ℕ) :
    Except String CAmount := do
  require (view.haveInputs tx) "bad-txns-inputs-missingorspent"
  let nValueIn ← tx.vin.foldlM (addValueIn view nSpendHeight) 0
  let value_out ← demand (tx.getValueOut env.dep.areEnforcedValuesDeployed)
    "GetValueOut: value out of range"
  require (decide (value_out ≤ nValueIn)) "bad-txns-in-belowout"
  require (moneyRange (nValueIn - value_out)) "bad-txns-fee-out-of-range"
  return nValueIn - value_out

/-! ## Assets -/

section Assets

variable (env : Env) (st : AssetState) (cache : CAssetsCache)

/-- The loop of `CheckTxAssets` over the inputs. -/
def scanAssetInput (view : CCoinsView) (totalInputs : StdMap Bytes CAmount) (txin : CTxIn) :
    Except String (StdMap Bytes CAmount) := do
  let coin ← demand (view.find? txin.prevout) "assert(!coin.IsSpent())"
  if coin.isAsset then do
    let data ← demand (getAssetData env coin.out.scriptPubKey)
      "bad-txns-failed-to-get-asset-from-script"
    require (!(isAssetNameAnRestricted data.assetName &&
        cache.checkForAddressRestriction env st data.assetName
          (encodeDestination env data.destination) true))
      "bad-txns-restricted-asset-transfer-from-frozen-address"
    return Totals.add totalInputs data.assetName data.nAmount
  else return totalInputs

def checkNullAssetOutput (txout : CTxOut) : Verdict := do
  require env.dep.areRestrictedAssetsDeployed
    "bad-tx-null-asset-data-before-restricted-assets-activated"
  if txout.scriptPubKey.isNullAssetTxDataScript then
    contextualCheckNullAssetTxOut env st cache txout
  else if txout.scriptPubKey.isNullGlobalRestrictionAssetTxDataScript then
    contextualCheckGlobalAssetTxOut st cache txout
  else if txout.scriptPubKey.isNullAssetVerifierTxDataScript then
    contextualCheckVerifierAssetTxOut env st cache txout
  else .error "bad-tx-null-asset-data-unknown-type"

def checkTransferUnits (transfer : CAssetTransfer) : Verdict :=
  if isAssetNameAnOwner transfer.strName then
    require (transfer.nAmount == OWNER_ASSET_AMOUNT)
      "bad-txns-transfer-owner-amount-was-not-1"
  else do
    let data ← demand (cache.getAssetMetaDataIfExists st transfer.strName)
      "bad-txns-transfer-asset-not-exist"
    require (data.asset.strName == transfer.strName) "bad-txns-asset-database-corrupted"
    require (checkAmountWithUnits transfer.nAmount data.asset.units)
      "bad-txns-transfer-asset-amount-not-match-units"

/-- The variables of the loop of `CheckTxAssets` over the outputs. -/
structure AssetScan where
  totalOutputs : StdMap Bytes CAmount
  vPairReissueAssets : List (Bytes × uint256)

/-- A reissue output.  `mapReissuedAssets` is the map that the **mempool** maintains. -/
def scanReissue (mapReissuedAssets : StdMap Bytes uint256) (tx : CTransaction) (s : AssetScan)
    (txout : CTxOut) : Except String AssetScan := do
  let (reissue, _) ← demand (reissueAssetFromScript env txout.scriptPubKey)
    "bad-tx-asset-reissue-bad-deserialize"
  match mapReissuedAssets.find? reissue.strName with
  | some hash =>
    if hash = tx.hash then return s else .error "bad-tx-reissue-chaining-not-allowed"
  | none =>
    return { s with vPairReissueAssets := s.vPairReissueAssets ++ [(reissue.strName, tx.hash)] }

def scanTransferOutput (s : AssetScan) (txout : CTxOut) : Except String AssetScan := do
  let (transfer, address) ← demand (transferAssetFromScript env txout.scriptPubKey)
    "bad-tx-asset-transfer-bad-deserialize"
  contextualCheckTransferAsset env st cache transfer address
  checkTransferUnits st cache transfer
  return { s with totalOutputs := Totals.add s.totalOutputs transfer.strName transfer.nAmount }

/-- The loop of `CheckTxAssets` over the outputs. -/
def scanAssetOutput (mapReissuedAssets : StdMap Bytes uint256) (tx : CTransaction) (s : AssetScan)
    (txout : CTxOut) : Except String AssetScan := do
  require (!txout.scriptPubKey.isAssetScript.isSome || env.dep.areAssetsDeployed)
    "bad-txns-is-asset-and-asset-not-active"
  onlyIf txout.scriptPubKey.isNullAsset (checkNullAssetOutput env st cache txout)
  match txout.scriptPubKey.isAssetScript.map AssetScriptType.nType with
  | some .TX_TRANSFER_ASSET => scanTransferOutput env st cache s txout
  | some .TX_REISSUE_ASSET => scanReissue env mapReissuedAssets tx s txout
  | _ => .ok s

/-- The new asset of a transaction whose kind is already known. -/
def contextualCheckNew (record : Option (WithAddress CNewAsset)) (serialization reason : String)
    (mempoolNames : Option (StdMap Bytes uint256)) : Verdict := do
  let (asset, _) ← demand record serialization
  withPrefix reason (contextualCheckNewAsset env st cache asset mempoolNames)

/-- The new restricted asset of a transaction, and its verifier against the address it goes
to. -/
def contextualCheckRestrictedTx (tx : CTransaction) (mempoolNames : Option (StdMap Bytes uint256)) :
    Verdict := do
  let (asset, strAddress) ← demand (tx.restrictedAssetFromTransaction env)
    "bad-txns-issue-restricted-serialzation-failed"
  withPrefix "bad-txns-issue-restricted-contextual"
    (contextualCheckNewAsset env st cache asset mempoolNames)
  let verifier ← (tx.getVerifierStringFromTx.mapError fun e =>
    "bad-txns-issue-restricted-verifier-search-" ++ e.strError)
  contextualCheckVerifierString env st cache verifier.verifier_string strAddress

def contextualCheckReissueTx (tx : CTransaction) : Verdict := do
  let (reissue_asset, _) ← demand (reissueAssetFromScript env tx.lastScript)
    "bad-txns-reissue-serialzation-failed"
  withPrefix "bad-txns-reissue-contextual-"
    (contextualCheckReissueAsset env st cache reissue_asset tx)

def checkOtherTxOutputs (tx : CTransaction) : Verdict :=
  forEach (fun out : CTxOut => match out.scriptPubKey.isAssetScript with
    | some t => require (t.nType == .TX_TRANSFER_ASSET) "bad-txns-bad-asset-transaction"
    | none => onlyIf (out.scriptPubKey.find OP_UNEMP_ASSET) do
      require env.dep.areRestrictedAssetsDeployed "bad-txns-bad-asset-script"
      require (out.scriptPubKey.at 0 == OP_UNEMP_ASSET)
        "bad-txns-op-unemp-asset-not-in-right-script-location") tx.vout

/-- The asset transaction that the transaction is, against the caches. -/
def contextualCheckAssetTx (tx : CTransaction) (mempoolNames : Option (StdMap Bytes uint256)) :
    Verdict :=
  match tx.assetTxKind env with
  | .newAsset =>
    contextualCheckNew env st cache (assetFromScript env tx.lastScript)
      "bad-txns-issue-serialzation-failed" "" mempoolNames
  | .reissue => contextualCheckReissueTx env st cache tx
  | .newUnique =>
    withPrefix "bad-txns-issue-unique-contextual-" (contextualCheckUniqueAssetTx env st cache tx)
  | .newMsgChannel => do
    require env.dep.areMessagesDeployed
      "bad-txns-issue-msgchannel-before-messaging-is-active"
    contextualCheckNew env st cache (tx.msgChannelAssetFromTransaction env)
      "bad-txns-issue-msgchannel-serialzation-failed" "bad-txns-issue-msgchannel-contextual-"
      mempoolNames
  | .newQualifier => do
    require env.dep.areRestrictedAssetsDeployed
      "bad-txns-issue-qualifier-before-it-is-active"
    contextualCheckNew env st cache (tx.qualifierAssetFromTransaction env)
      "bad-txns-issue-qualifier-serialzation-failed" "bad-txns-issue-qualfier-contextual"
      mempoolNames
  | .newRestricted => do
    require env.dep.areRestrictedAssetsDeployed
      "bad-txns-issue-restricted-before-it-is-active"
    contextualCheckRestrictedTx env st cache tx mempoolNames
  | .other => checkOtherTxOutputs env tx

/-- Every asset of an output is among the inputs, with the same total. -/
def checkTotals (totalInputs totalOutputs : StdMap Bytes CAmount) : Verdict := do
  forEach (fun outValue : Bytes × CAmount => do
    let total ← demand (totalInputs.find? outValue.1)
      ("bad-tx-inputs-outputs-mismatch Bad Transaction - Trying to create outpoint for asset " ++
        "that you don't have: " ++ textOf outValue.1)
    require (total == outValue.2)
      ("bad-tx-inputs-outputs-mismatch Bad Transaction - Assets would be burnt " ++
        textOf outValue.1)) totalOutputs.entries
  require (totalOutputs.size == totalInputs.size)
    "bad-tx-asset-inputs-size-does-not-match-outputs-size"

/-- `Consensus::CheckTxAssets`: the reissues that the mempool map does not know yet. -/
def checkTxAssets (tx : CTransaction) (view : CCoinsView)
    (mempoolNames : Option (StdMap Bytes uint256)) (mapReissuedAssets : StdMap Bytes uint256) :
    Except String (List (Bytes × uint256)) := do
  require (view.haveInputs tx) "bad-txns-inputs-missing-or-spent"
  let totalInputs ← tx.vin.foldlM (scanAssetInput env st cache view) ∅
  let s ← tx.vout.foldlM (scanAssetOutput env st cache mapReissuedAssets tx) ⟨∅, []⟩
  contextualCheckAssetTx env st cache tx mempoolNames
  checkTotals totalInputs s.totalOutputs
  return s.vPairReissueAssets

end Assets

theorem checkTxAssets_ok {env : Env} {st : AssetState} {cache : CAssetsCache} {tx : CTransaction}
    {view : CCoinsView} {names : Option (StdMap Bytes uint256)} {m : StdMap Bytes uint256}
    {v : List (Bytes × uint256)} :
    checkTxAssets env st cache tx view names m = .ok v ↔
      view.haveInputs tx = true ∧ ∃ totalInputs,
        tx.vin.foldlM (scanAssetInput env st cache view) ∅ = .ok totalInputs ∧ ∃ s,
        tx.vout.foldlM (scanAssetOutput env st cache m tx) ⟨∅, []⟩ = .ok s ∧
        contextualCheckAssetTx env st cache tx names = .ok () ∧
        checkTotals totalInputs s.totalOutputs = .ok () ∧ s.vPairReissueAssets = v := by
  rw [checkTxAssets, require_bind, bind_ok]
  refine and_congr_right fun _ => exists_congr fun totalInputs => and_congr_right fun _ => ?_
  rw [bind_ok]
  refine exists_congr fun s => and_congr_right fun _ => ?_
  rw [unit_bind, unit_bind, pure_ok]

end UnemployCoin
