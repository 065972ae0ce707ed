import UnemployCoin.Contextual
/-!
# `CheckTransaction`

The checks of a transaction that need no chain state (`consensus/tx_verify.cpp`): first a loop
over the outputs, which also collects what the checks after it read, then the inputs, and then
the check of the asset transaction it is.
-/

namespace UnemployCoin

open Check

/-! ## The loop over the outputs -/

structure OutputScan where
  nValueOut : CAmount
  setAssetTransferNames : StdMap Bytes Unit
  mapNullDataTxCount : StdMap (Bytes × Bytes) ℕ
  setNullGlobalAssetChanges : StdMap Bytes Unit
  fContainsNullAssetVerifierTx : Bool
  nCountAddTagOuts : ℕ

def OutputScan.start : OutputScan := ⟨0, ∅, ∅, ∅, false, 0⟩

section Scan

variable (env : Env) (fMempoolCheck fBlockCheck : Bool)

def scanValue (s : OutputScan) (txout : CTxOut) : Except String OutputScan := do
  require (decide (0 ≤ txout.nValue)) "bad-txns-vout-negative"
  require (decide (txout.nValue ≤ MAX_MONEY)) "bad-txns-vout-toolarge"
  require (moneyRange (s.nValueOut + txout.nValue)) "bad-txns-txouttotal-toolarge"
  return { s with nValueOut := s.nValueOut + txout.nValue }

def scanNullAssetTxData (s : OutputScan) (txout : CTxOut) : Except String OutputScan := do
  let (data, address) ← demand (assetNullDataFromScript env txout.scriptPubKey)
    "bad-txns-null-asset-data-serialization"
  verifyNullAssetDataFlag data.flag
  let pair := (data.asset_name, address)
  let count := (s.mapNullDataTxCount.find? pair).getD 0 + 1
  require (decide (count ≤ 1)) "bad-txns-null-data-only-one-change-per-asset-address"
  return { s with
    mapNullDataTxCount := s.mapNullDataTxCount.assign pair count
    nCountAddTagOuts := s.nCountAddTagOuts +
      if isAssetNameAQualifier data.asset_name false && data.flag == 1 then 1 else 0 }

def scanNullGlobal (s : OutputScan) (txout : CTxOut) : Except String OutputScan := do
  let data ← demand (globalAssetNullDataFromScript txout.scriptPubKey)
    "bad-txns-null-global-asset-data-serialization"
  verifyNullAssetDataFlag data.flag
  require (!s.setNullGlobalAssetChanges.count data.asset_name)
    "bad-txns-null-data-only-one-global-change-per-asset-name"
  return { s with
    setNullGlobalAssetChanges := s.setNullGlobalAssetChanges.emplace data.asset_name () }

def scanNullVerifier (s : OutputScan) (txout : CTxOut) : Except String OutputScan := do
  checkVerifierAssetTxOut txout
  require (!s.fContainsNullAssetVerifierTx) "bad-txns-null-data-only-one-verifier-per-tx"
  return { s with fContainsNullAssetVerifierTx := true }

def scanNullAsset (s : OutputScan) (txout : CTxOut) : Except String OutputScan :=
  if txout.scriptPubKey.isNullAssetTxDataScript then scanNullAssetTxData env s txout
  else if txout.scriptPubKey.isNullGlobalRestrictionAssetTxDataScript then scanNullGlobal s txout
  else if txout.scriptPubKey.isNullAssetVerifierTxDataScript then scanNullVerifier s txout
  else .ok s

/-- A transfer output: the name is valid, the amount fits the kind, and it carries no value. -/
def scanTransfer (s : OutputScan) (txout : CTxOut) : Except String OutputScan := do
  let (transfer, _) ← demand (transferAssetFromScript env txout.scriptPubKey)
    "bad-txns-transfer-asset-bad-deserialize"
  let assetType ← demand (isAssetNameValid transfer.strName)
    "bad-txns-transfer-asset-name-invalid"
  require (!isAssetNameAnOwner transfer.strName || transfer.nAmount == OWNER_ASSET_AMOUNT)
    "bad-txns-transfer-owner-amount-was-not-1"
  require (assetType != .UNIQUE || transfer.nAmount == UNIQUE_ASSET_AMOUNT)
    "bad-txns-transfer-unique-amount-was-not-1"
  require (!(assetType == .QUALIFIER || assetType == .SUB_QUALIFIER) ||
      (decide (QUALIFIER_ASSET_MIN_AMOUNT ≤ transfer.nAmount) &&
        decide (transfer.nAmount ≤ QUALIFIER_ASSET_MAX_AMOUNT)))
    "bad-txns-transfer-qualifier-amount-must-be between 1 - 100"
  require (txout.nValue == 0) "bad-txns-asset-transfer-amount-isn't-zero"
  return { s with setAssetTransferNames := s.setAssetTransferNames.emplace transfer.strName () }

/-- The asset of an output.  A reissue must carry no value **only** in a block once the enforced
values are active, and in the mempool. -/
def scanAsset (s : OutputScan) (txout : CTxOut) : Except String OutputScan :=
  match txout.scriptPubKey.isAssetScript.map AssetScriptType.nType with
  | none => .ok s
  | some .TX_TRANSFER_ASSET => scanTransfer env s txout
  | some .TX_NEW_ASSET => do
    require (txout.nValue == 0) "bad-txns-asset-issued-amount-isn't-zero"
    return s
  | some .TX_REISSUE_ASSET => do
    require (!(env.dep.areEnforcedValuesDeployed && fBlockCheck) || txout.nValue == 0)
      "bad-txns-asset-reissued-amount-isn't-zero"
    require (!fMempoolCheck || txout.nValue == 0)
      "bad-mempool-txns-asset-reissued-amount-isn't-zero"
    return s
  | some _ => .error "bad-asset-type-not-any-of-the-main-three"

def scanOutput (s : OutputScan) (txout : CTxOut) : Except String OutputScan := do
  let s ← scanValue s txout
  let s ← scanNullAsset env s txout
  scanAsset env fMempoolCheck fBlockCheck s txout

end Scan

/-! ## After the loop -/

variable (env : Env) (tx : CTransaction)

/-- Each command comes with a transfer of the token that controls the asset. -/
def checkNullDataTransfers (s : OutputScan) : Verdict := do
  forEach (fun pair : Bytes × Bytes =>
    if pair.1.at 0 == RESTRICTED_CHAR then
      require (s.setAssetTransferNames.count (pair.1.drop 1 ++ OWNER_TAG))
        "bad-txns-tx-contains-restricted-asset-null-tx-without-asset-transfer"
    else
      require (s.setAssetTransferNames.count pair.1)
        "bad-txns-tx-contains-qualifier-asset-null-tx-without-asset-transfer")
    s.mapNullDataTxCount.keys
  forEach (fun name : Bytes => do
    require (!name.isEmpty)
      "bad-txns-tx-contains-global-asset-null-tx-with-null-asset-name"
    require (s.setAssetTransferNames.count (name.drop 1 ++ OWNER_TAG))
      "bad-txns-tx-contains-global-asset-null-tx-without-asset-transfer")
    s.setNullGlobalAssetChanges.keys

def checkInputsFormat (fCheckDuplicateInputs : Bool) : Verdict := do
  require (!fCheckDuplicateInputs || decide (tx.vin.map CTxIn.prevout).Nodup)
    "bad-txns-inputs-duplicate"
  onlyIf tx.isCoinBase do
    require ((tx.vin.map fun txin => txin.scriptSig.length).all fun n => 2 ≤ n && n ≤ 100)
      "bad-cb-length"
    require (!env.dep.areCoinbaseCheckAssetsDeployed || tx.vout.all fun out =>
        !(out.scriptPubKey.isAssetScript.isSome || out.scriptPubKey.isNullAsset))
      "bad-txns-coinbase-contains-asset-txes"
  onlyIf (!tx.isCoinBase) do
    require (tx.vin.all fun txin => !txin.prevout.isNull) "bad-txns-prevout-null"

/-- Which restricted asset record, if any, lets a transaction carry a verifier string. -/
inductive RestrictedRecord where
  | none
  | reissue
  | issuance
  deriving DecidableEq

def withPrefix (p : String) (v : Verdict) : Verdict := v.mapError fun reason => p ++ reason

def checkNewAssetTx : Verdict := do
  tx.verifyNewAsset env
  let (asset, strAddress) ← demand (tx.assetFromTransaction env)
    "bad-txns-issue-asset-from-transaction"
  tx.isNewOwnerTxValid env asset.strName strAddress
  checkNewAsset asset

/-- A verifier string in a reissue of a restricted asset is well formed. -/
def checkReissueVerifierFormat : Verdict :=
  match tx.getVerifierStringFromTx with
  | .ok _ => .ok ()
  | .error .notFound => .ok ()
  | .error e => .error ("bad-txns-reissue-restricted-verifier-" ++ e.strError)

def checkReissueTx : Except String RestrictedRecord := do
  tx.verifyReissueAsset env
  let (reissue, _) ← demand (tx.reissueAssetFromTransaction env) "bad-txns-reissue-asset"
  checkReissueAsset env reissue
  let fRestricted := assetTypeOf reissue.strName == .RESTRICTED
  onlyIf fRestricted (checkReissueVerifierFormat tx)
  return if fRestricted then .reissue else .none

def checkNewUniqueTx : Verdict := do
  tx.verifyNewUniqueAsset env
  forEach (fun out : CTxOut => match uniqueAssetFromScript env out.scriptPubKey with
    | some (asset, _) => withPrefix "bad-txns-issue-unique" (checkNewAsset asset)
    | none => .ok ()) tx.vout

def checkNewMsgChannelTx : Verdict := do
  tx.verifyNewMsgChannelAsset env
  let (asset, _) ← demand (tx.msgChannelAssetFromTransaction env)
    "bad-txns-issue-msgchannel-from-transaction"
  withPrefix "bad-txns-issue-msgchannel" (checkNewAsset asset)

def checkNewQualifierTx : Verdict := do
  tx.verifyNewQualfierAsset env
  let (asset, _) ← demand (tx.qualifierAssetFromTransaction env)
    "bad-txns-issue-qualifier-from-transaction"
  withPrefix "bad-txns-issue-qualfier" (checkNewAsset asset)

def checkNewRestrictedTx : Verdict := do
  tx.verifyNewRestrictedAsset env
  let (asset, _) ← demand (tx.restrictedAssetFromTransaction env)
    "bad-txns-issue-restricted-from-transaction"
  withPrefix "bad-txns-issue-restricted" (checkNewAsset asset)
  withPrefix "bad-txns-issue-restricted-verifier-search-"
    ((tx.getVerifierStringFromTx.mapError
      CTransaction.VerifierSearchError.strError).map fun _ => ())

/-- A transaction that is none of the asset transactions moves assets only by transfers, and has
`OP_UNEMP_ASSET` only in an asset script or in front. -/
def checkOtherTx : Verdict :=
  forEach (fun out : CTxOut => match out.scriptPubKey.isAssetScript with
    | some t => require (t.nType == .TX_TRANSFER_ASSET) "bad-txns-bad-asset-transaction"
    | none => require (!out.scriptPubKey.find OP_UNEMP_ASSET ||
        out.scriptPubKey.at 0 == OP_UNEMP_ASSET)
      "bad-txns-op-unemp-asset-not-in-right-script-location") tx.vout

def checkAssetTx : Except String RestrictedRecord :=
  match tx.assetTxKind env with
  | .newAsset => (checkNewAssetTx env tx).map fun _ => .none
  | .reissue => checkReissueTx env tx
  | .newUnique => (checkNewUniqueTx env tx).map fun _ => .none
  | .newMsgChannel => (checkNewMsgChannelTx env tx).map fun _ => .none
  | .newQualifier => (checkNewQualifierTx env tx).map fun _ => .none
  | .newRestricted => (checkNewRestrictedTx env tx).map fun _ => .issuance
  | .other => (checkOtherTx tx).map fun _ => .none

def checkTransaction (fCheckDuplicateInputs fMempoolCheck fBlockCheck : Bool) : Verdict := do
  require (!tx.vin.isEmpty) "bad-txns-vin-empty"
  require (!tx.vout.isEmpty) "bad-txns-vout-empty"
  require (decide (tx.serializeSize * WITNESS_SCALE_FACTOR ≤ getMaxBlockWeight))
    "bad-txns-oversize"
  let s ← tx.vout.foldlM (scanOutput env fMempoolCheck fBlockCheck) OutputScan.start
  require (s.nCountAddTagOuts == 0 || tx.checkAddingTagBurnFee env s.nCountAddTagOuts)
    "bad-txns-tx-doesn't-contain-required-burn-fee-for-adding-tags"
  checkNullDataTransfers s
  checkInputsFormat env tx fCheckDuplicateInputs
  let record ← checkAssetTx env tx
  require (!s.fContainsNullAssetVerifierTx || record != .none)
    ("bad-txns-tx-cointains-verifier-string-without-restricted-asset-issuance-" ++
      "or-reissuance")
  require (record != .issuance || s.fContainsNullAssetVerifierTx)
    "bad-txns-tx-cointains-restricted-asset-issuance-without-verifier"

end UnemployCoin
