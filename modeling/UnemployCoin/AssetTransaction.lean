import UnemployCoin.Transaction
import UnemployCoin.Lib.Check
/-!
# Kinds of asset transaction

The classifiers `IsNewAsset`, `IsReissueAsset`, … of a transaction, and the `Verify…` function
that goes with each of them (`assets/assets.cpp`).  A classifier looks at the last output; the
check that follows it asks for the burn fee, for the controlling token among the transfers, and
for the right number of outputs of each kind.  A failed check gives the source's reason.
-/

namespace UnemployCoin

open Check

abbrev Verdict := Except String Unit

/-- Pays exactly `burnAmount` to `burnAddress`. -/
def paysBurn (env : Env) (txOut : CTxOut) (burnAmount : CAmount) (burnAddress : Bytes) : Bool :=
  txOut.nValue == burnAmount &&
    match extractDestination env txOut.scriptPubKey with
    | some destination =>
      isValidDestination destination && encodeDestination env destination == burnAddress
    | none => false

def checkIssueBurnTx (env : Env) (txOut : CTxOut) (type : AssetType) (numberIssued : ℕ) : Bool :=
  !(type == .REISSUE || type == .VOTE || type == .OWNER || type == .INVALID) &&
    paysBurn env txOut (env.params.getBurnAmount type * Int64.ofNat numberIssued)
      (env.params.getBurnAddress type)

def checkReissueBurnTx (env : Env) (txOut : CTxOut) : Bool :=
  paysBurn env txOut env.params.nReissueAssetBurnAmount env.params.strReissueAssetBurnAddress

/-! ## Outputs by kind -/

def countOutputs (vout : List CTxOut) (nType : txnouttype) (fIsOwner : Bool) : ℕ :=
  vout.countP fun out => match out.scriptPubKey.isAssetScript with
    | some t => t.nType == nType && t.fIsOwner == fIsOwner
    | none => false

/-- `GetTxOutAssetTypes`, without the transfers, which no caller reads. -/
structure OutputCounts where
  nIssues : ℕ
  nReissues : ℕ
  nOwners : ℕ

def getTxOutAssetTypes (vout : List CTxOut) : OutputCounts where
  nIssues := countOutputs vout .TX_NEW_ASSET false
  nReissues := countOutputs vout .TX_REISSUE_ASSET false
  nOwners := countOutputs vout .TX_NEW_ASSET true

/-- Some output transfers the asset called `name`. -/
def transfersAsset (env : Env) (vout : List CTxOut) (name : Bytes) : Bool :=
  vout.any fun out => match transferAssetFromScript env out.scriptPubKey with
    | some (transfer, _) => name == transfer.strName
    | none => false

namespace CTransaction

variable (env : Env) (tx : CTransaction)

def lastScript : CScript := (tx.vout.getLast?.map CTxOut.scriptPubKey).getD []

def ownerScript : CScript :=
  (tx.vout.dropLast.getLast?.map CTxOut.scriptPubKey).getD []

/-! ## Classifiers -/

def isNewAsset : Bool :=
  decide (3 ≤ tx.vout.length) && tx.lastScript.isScriptNewAsset.isSome &&
    tx.ownerScript.isScriptOwnerAsset.isSome &&
    !((uniqueAssetFromScript env tx.lastScript).isSome ||
      (restrictedAssetFromScript env tx.lastScript).isSome)

def isReissueAsset : Bool := tx.lastScript.isScriptReissueAsset.isSome

def isNewUniqueAsset : Bool :=
  tx.lastScript.isScriptNewAsset.isSome && (uniqueAssetFromScript env tx.lastScript).isSome

def isNewMsgChannelAsset : Bool :=
  tx.lastScript.isScriptNewAsset.isSome && (msgChannelAssetFromScript env tx.lastScript).isSome

def isNewQualifierAsset : Bool :=
  tx.lastScript.isScriptNewAsset.isSome && (qualifierAssetFromScript env tx.lastScript).isSome

def isNewRestrictedAsset : Bool :=
  tx.lastScript.isScriptNewAsset.isSome && (restrictedAssetFromScript env tx.lastScript).isSome

/-- The first classifier that holds, in the order in which `CheckTransaction`, `CheckTxAssets`
and `AddCoins` ask them. -/
inductive AssetTxKind where
  | newAsset
  | reissue
  | newUnique
  | newMsgChannel
  | newQualifier
  | newRestricted
  | other
  deriving DecidableEq, Repr

def assetTxKind : AssetTxKind :=
  if tx.isNewAsset env then .newAsset
  else if tx.isReissueAsset then .reissue
  else if tx.isNewUniqueAsset env then .newUnique
  else if tx.isNewMsgChannelAsset env then .newMsgChannel
  else if tx.isNewQualifierAsset env then .newQualifier
  else if tx.isNewRestrictedAsset env then .newRestricted
  else .other

/-! ## Records of a transaction -/

def assetFromTransaction : Option (WithAddress CNewAsset) :=
  if tx.isNewAsset env then assetFromScript env tx.lastScript else none

def ownerFromTransaction : Option (WithAddress Bytes) :=
  if tx.isNewAsset env then ownerAssetFromScript env tx.ownerScript else none

def reissueAssetFromTransaction : Option (WithAddress CReissueAsset) :=
  if tx.isReissueAsset then reissueAssetFromScript env tx.lastScript else none

def msgChannelAssetFromTransaction : Option (WithAddress CNewAsset) :=
  if tx.isNewMsgChannelAsset env then msgChannelAssetFromScript env tx.lastScript else none

def qualifierAssetFromTransaction : Option (WithAddress CNewAsset) :=
  if tx.isNewQualifierAsset env then qualifierAssetFromScript env tx.lastScript else none

def restrictedAssetFromTransaction : Option (WithAddress CNewAsset) :=
  if tx.isNewRestrictedAsset env then restrictedAssetFromScript env tx.lastScript else none

/-- Why `GetVerifierStringFromTx` returns false. -/
inductive VerifierSearchError where
  | notFound
  | multiple
  | undecodable

/-- The text of the error, without the output that the source prints behind the last one. -/
def VerifierSearchError.strError : VerifierSearchError → String
  | .notFound => "Verifier string not found"
  | .multiple => "Multiple verifier strings found in transaction"
  | .undecodable => "Failed to get verifier string from output: "

def verifierOutputs : List CTxOut :=
  tx.vout.filter fun out => out.scriptPubKey.isNullAssetVerifierTxDataScript

/-- `CTransaction::GetVerifierStringFromTx`.  The loop decodes the first verifier output before
it meets a second one. -/
def getVerifierStringFromTx : Except VerifierSearchError CNullAssetTxVerifierString :=
  match tx.verifierOutputs with
  | [] => .error .notFound
  | out :: rest =>
    match assetNullVerifierDataFromScript out.scriptPubKey with
    | none => .error .undecodable
    | some verifier => if rest.isEmpty then .ok verifier else .error .multiple

/-! ## Format checks -/

/-- `CTransaction::VerifyNewUniqueAsset`, the loop over the new unique assets: the parent they
share, and their names. -/
def collectUniqueAssets : List CTxOut → Bytes → List Bytes → Except String (Bytes × List Bytes)
  | [], assetRoot, names => .ok (assetRoot, names)
  | out :: vout, assetRoot, names =>
    match uniqueAssetFromScript env out.scriptPubKey with
    | none => collectUniqueAssets vout assetRoot names
    | some (asset, _) =>
      let root := getParentName asset.strName
      let assetRoot := if assetRoot.isEmpty then root else assetRoot
      if assetRoot ≠ root then .error "bad-txns-issue-unique-asset-compare-failed"
      else if asset.strName ∈ names then
        .error "bad-txns-issue-unique-duplicate-name-in-same-tx"
      else collectUniqueAssets vout assetRoot (asset.strName :: names)

def verifyNewUniqueAsset : Verdict := do
  require (decide (3 ≤ tx.vout.length)) "bad-txns-unique-vout-size-to-small"
  let (assetRoot, names) ← collectUniqueAssets env tx.vout [] []
  require (decide (names.length ≠ 0)) "bad-txns-issue-unique-asset-bad-outpoint-count"
  require (tx.vout.any fun out => checkIssueBurnTx env out .UNIQUE names.length)
    "bad-txns-issue-unique-asset-burn-outpoints-not-found"
  require (transfersAsset env tx.vout (assetRoot ++ OWNER_TAG))
    "bad-txns-issue-unique-asset-missing-owner-asset"
  let counts := getTxOutAssetTypes tx.vout
  require (counts.nOwners == 0 && counts.nReissues == 0 && counts.nIssues == names.length)
    "bad-txns-failed-unique-asset-formatting-check"

def verifyNewAsset : Verdict := do
  require (decide (3 ≤ tx.vout.length)) "bad-txns-issue-vout-size-to-small"
  require tx.lastScript.isScriptNewAsset.isSome "bad-txns-issue-data-not-found"
  require tx.ownerScript.isScriptOwnerAsset.isSome "bad-txns-issue-owner-data-not-found"
  let (asset, _) ← demand (assetFromScript env tx.lastScript) "bad-txns-issue-serialzation-failed"
  let assetType := assetTypeOf asset.strName
  let (strOwnerName, _) ← demand (ownerAssetFromScript env tx.ownerScript)
    "bad-txns-issue-owner-serialzation-failed"
  require (strOwnerName == asset.strName ++ OWNER_TAG) "bad-txns-issue-owner-name-doesn't-match"
  require (tx.vout.any fun out => checkIssueBurnTx env out assetType 1)
    "bad-txns-issue-burn-not-found"
  -- The parent's owner token is asked for with a sub-asset name only.
  require (assetType != .SUB ||
      transfersAsset env tx.vout (getParentName asset.strName ++ OWNER_TAG))
    "bad-txns-issue-new-asset-missing-owner-asset"
  let counts := getTxOutAssetTypes tx.vout
  require (counts.nOwners == 1 && counts.nIssues == 1 && counts.nReissues == 0)
    "bad-txns-failed-issue-asset-formatting-check"

def verifyNewMsgChannelAsset : Verdict := do
  require (decide (3 ≤ tx.vout.length)) "bad-txns-issue-msgchannel-vout-size-to-small"
  require tx.lastScript.isScriptNewAsset.isSome "bad-txns-issue-data-not-found"
  let (asset, _) ← demand (msgChannelAssetFromScript env tx.lastScript)
    "bad-txns-issue-msgchannel-serialzation-failed"
  require (tx.vout.any fun out => checkIssueBurnTx env out .MSGCHANNEL 1)
    "bad-txns-issue-msgchannel-burn-not-found"
  require (transfersAsset env tx.vout (getParentName asset.strName ++ OWNER_TAG))
    "bad-txns-issue-msg-channel-asset-bad-owner-asset"
  let counts := getTxOutAssetTypes tx.vout
  require (counts.nOwners == 0 && counts.nIssues == 1 && counts.nReissues == 0)
    "bad-txns-failed-issue-msgchannel-asset-formatting-check"

def verifyNewQualfierAsset : Verdict := do
  require (decide (2 ≤ tx.vout.length)) "bad-txns-issue-qualifier-vout-size-to-small"
  require tx.lastScript.isScriptNewAsset.isSome "bad-txns-issue-qualifider-data-not-found"
  let (asset, _) ← demand (qualifierAssetFromScript env tx.lastScript)
    "bad-txns-issue-qualifier-serialzation-failed"
  let assetType := assetTypeOf asset.strName
  require (tx.vout.any fun out => checkIssueBurnTx env out assetType 1)
    "bad-txns-issue-qualifier-burn-not-found"
  -- A sub qualifier is controlled by its parent, not by an owner token of the parent.
  require (assetType != .SUB_QUALIFIER ||
      transfersAsset env tx.vout (getParentName asset.strName))
    "bad-txns-issue-sub-qualifier-parent-outpoint-not-found"
  let counts := getTxOutAssetTypes tx.vout
  require (counts.nOwners == 0 && counts.nIssues == 1 && counts.nReissues == 0)
    "bad-txns-failed-issue-asset-formatting-check"

def verifyNewRestrictedAsset : Verdict := do
  require (decide (4 ≤ tx.vout.length)) "bad-txns-issue-restricted-vout-size-to-small"
  require tx.lastScript.isScriptNewAsset.isSome "bad-txns-issue-restricted-data-not-found"
  let (asset, _) ← demand (restrictedAssetFromScript env tx.lastScript)
    "bad-txns-issue-restricted-serialization-failed"
  let assetType := assetTypeOf asset.strName
  require (tx.vout.any fun out => checkIssueBurnTx env out assetType 1)
    "bad-txns-issue-restricted-burn-not-found"
  -- Issuing $TOKEN takes the owner token TOKEN!.
  require (transfersAsset env tx.vout ((getParentName asset.strName).drop 1 ++ OWNER_TAG))
    "bad-txns-issue-restricted-root-owner-token-outpoint-not-found"
  let _ ← tx.getVerifierStringFromTx.mapError VerifierSearchError.strError
  let counts := getTxOutAssetTypes tx.vout
  require (counts.nOwners == 0 && counts.nIssues == 1 && counts.nReissues == 0)
    "bad-txns-failed-issue-asset-formatting-check"

/-- The name whose owner token a reissue needs: `TOKEN` for both `TOKEN` and `$TOKEN`. -/
def reissueNameToCheck (name : Bytes) : Bytes :=
  if assetTypeOf name = .RESTRICTED then name.drop 1 else name

def verifyReissueAsset : Verdict := do
  require (decide (3 ≤ tx.vout.length)) "bad-txns-vout-size-to-small"
  require tx.lastScript.isScriptReissueAsset.isSome "bad-txns-reissue-data-not-found"
  let (reissue, _) ← demand (reissueAssetFromScript env tx.lastScript)
    "bad-txns-reissue-serialization-failed"
  require (transfersAsset env tx.vout (reissueNameToCheck reissue.strName ++ OWNER_TAG))
    "bad-txns-reissue-owner-outpoint-not-found"
  require (tx.vout.any fun out => checkReissueBurnTx env out)
    "bad-txns-reissue-burn-outpoint-not-found"
  let counts := getTxOutAssetTypes tx.vout
  require (counts.nOwners == 0 && counts.nReissues == 1 && counts.nIssues == 0)
    "bad-txns-failed-reissue-asset-formatting-check"

def isNewOwnerTxValid (assetName address : Bytes) : Verdict := do
  let (ownerName, ownerAddress) ← demand (tx.ownerFromTransaction env) "bad-txns-bad-owner"
  require (ownerAddress == address) "bad-txns-owner-address-mismatch"
  require (decide (OWNER_LENGTH + MIN_ASSET_LENGTH ≤ ownerName.length))
    "bad-txns-owner-asset-length"
  require (ownerName == assetName ++ OWNER_TAG) "bad-txns-owner-name-mismatch"

def checkAddingTagBurnFee (count : ℕ) : Bool :=
  tx.vout.any fun out => checkIssueBurnTx env out .NULL_ADD_QUALIFIER count

end CTransaction

end UnemployCoin
