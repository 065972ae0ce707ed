import UnemployCoin.VerifierString
import UnemployCoin.Cache
/-!
# Checks of an asset record

The checks of a record on its own (`CheckNewAsset`, `CheckReissueAsset`) and against the asset
caches (`ContextualCheck…`, `Verify…Change`), from `assets/assets.cpp`.  Where the source writes
its reason into a variable that shadows the caller's, the reason is empty here.
-/

namespace UnemployCoin

open Check CAssetsCache

/-! ## Amounts and hashes -/

/-- `CheckAmountWithUnits`: the amount has no more decimals than the units allow. -/
def checkAmountWithUnits (nAmount : CAmount) (nUnits : Int8) : Bool :=
  nAmount % Int64.ofNat (10 ^ (MAX_UNIT.toInt - nUnits.toInt).toNat) == 0

def hexDigit (n : ℕ) : UInt8 := (ascii "0123456789abcdef").at n

def hexStr (s : Bytes) : Bytes :=
  s.flatMap fun b => [hexDigit (b.toNat / 16), hexDigit (b.toNat % 16)]

def isHex (str : Bytes) : Bool :=
  (str.all fun c => isDigit c || (decide (65 ≤ c) && decide (c ≤ 70)) ||
    (decide (97 ≤ c) && decide (c ≤ 102))) && !str.isEmpty && str.length % 2 == 0

def encodeAssetData (decoded : Bytes) : Bytes :=
  if decoded.length = 34 then encodeBase58 decoded
  else if decoded.length = 32 then hexStr decoded
  else []

def checkEncoded (env : Env) (hash : Bytes) : Verdict :=
  let encodedStr := encodeAssetData hash
  require ((encodedStr.substr 0 2 == ascii "Qm" && encodedStr.length == 46) ||
      (env.dep.areMessagesDeployed && isHex encodedStr && encodedStr.length == 64))
    "Invalid parameter: ipfs_hash is not valid, or txid hash is not the right length"

def checkNewAsset (asset : CNewAsset) : Verdict := do
  let assetType ← demand (isAssetNameValid asset.strName)
    ("Invalid parameter: asset_name must only consist of valid characters and have a size " ++
      "between 3 and 30 characters. See help for more details.")
  let fUnique := assetType == .UNIQUE || assetType == .MSGCHANNEL
  require (!fUnique || asset.units == UNIQUE_ASSET_UNITS) "Invalid parameter: units must be 0"
  require (!fUnique || asset.nAmount == UNIQUE_ASSET_AMOUNT)
    "Invalid parameter: amount must be 100000000"
  require (!fUnique || asset.nReissuable == 0) "Invalid parameter: reissuable must be 0"
  let fQualifier := assetType == .QUALIFIER || assetType == .SUB_QUALIFIER
  require (!fQualifier || asset.units == QUALIFIER_ASSET_UNITS)
    "Invalid parameter: units must be 0"
  require (!fQualifier || (decide (QUALIFIER_ASSET_MIN_AMOUNT ≤ asset.nAmount) &&
      decide (asset.nAmount ≤ QUALIFIER_ASSET_MAX_AMOUNT)))
    "Invalid parameter: amount must be between 100000000 - 1000000000"
  require (!fQualifier || asset.nReissuable == 0) "Invalid parameter: reissuable must be 0"
  require (!isAssetNameAnOwner asset.strName)
    ("Invalid parameters: asset_name can't have a '!' at the end of it. " ++
      "See help for more details.")
  require (decide (0 < asset.nAmount))
    "Invalid parameter: asset amount can't be equal to or less than zero."
  require (decide (asset.nAmount ≤ MAX_MONEY))
    "Invalid parameter: asset amount greater than max money: 1000000000"
  require (decide (0 ≤ asset.units) && decide (asset.units ≤ 8))
    "Invalid parameter: units must be between 0-8."
  require (checkAmountWithUnits asset.nAmount asset.units)
    "Invalid parameter: amount must be divisible by the smaller unit assigned to the asset"
  require (asset.nReissuable == 0 || asset.nReissuable == 1)
    "Invalid parameter: reissuable must be 0 or 1"
  require (asset.nHasIPFS == 0 || asset.nHasIPFS == 1)
    "Invalid parameter: has_ipfs must be 0 or 1."

/-- The two reissues of the test network that were accepted before their flag was checked. -/
def isTestNetException (env : Env) (asset : CReissueAsset) : Bool :=
  env.params.fTestNet &&
    ((asset.strName == ascii "GAMINGWEB" && asset.nReissuable == 109) ||
      (asset.strName == ascii "UINT8" && asset.nReissuable == -47))

def checkReissueAsset (env : Env) (asset : CReissueAsset) : Verdict := do
  require (decide (0 ≤ asset.nAmount) && decide (asset.nAmount < MAX_MONEY))
    "Unable to reissue asset: amount must be 0 or larger"
  require (decide (asset.nUnits ≤ MAX_UNIT) && decide (-1 ≤ asset.nUnits))
    "Unable to reissue asset: unit must be between 8 and -1"
  require (isTestNetException env asset || asset.nReissuable == 0 || asset.nReissuable == 1)
    "Unable to reissue asset: reissuable must be 0 or 1"

def verifyNullAssetDataFlag (flag : Int8) : Verdict :=
  require (flag == 0 || flag == 1) "bad-txns-null-data-flag-must-be-0-or-1"

/-! ## Records against the caches -/

section Contextual

variable (env : Env) (st : AssetState) (cache : CAssetsCache)

/-- `VerifyQualifierChange`, `VerifyRestrictedAddressChange` and `VerifyGlobalRestrictedChange`:
a command must **change** the state at the tip. -/
def verifyChange (flag : Int8) (fCurrent : Bool) (alreadySet notSet : String) : Verdict := do
  verifyNullAssetDataFlag flag
  require (flag == 0 || !fCurrent) alreadySet
  require (flag != 0 || fCurrent) notSet

def verifyQualifierChange (data : CNullAssetTxData) (address : Bytes) : Verdict :=
  verifyChange data.flag (cache.checkForAddressQualifier env st data.asset_name address true)
    "bad-txns-null-data-add-qualifier-when-already-assigned"
    "bad-txns-null-data-removing-qualifier-when-not-assigned"

def verifyRestrictedAddressChange (data : CNullAssetTxData) (address : Bytes) : Verdict :=
  verifyChange data.flag (cache.checkForAddressRestriction env st data.asset_name address true)
    "bad-txns-null-data-freeze-address-when-already-frozen"
    "bad-txns-null-data-unfreeze-address-when-not-frozen"

def verifyGlobalRestrictedChange (data : CNullAssetTxData) : Verdict :=
  verifyChange data.flag (cache.checkForGlobalRestriction st data.asset_name true)
    "bad-txns-null-data-global-freeze-when-already-frozen"
    "bad-txns-null-data-global-unfreeze-when-not-frozen"

def contextualCheckVerifierString (verifier check_address : Bytes) : Verdict :=
  if verifier = ascii "true" then .ok ()
  else do
    let setFoundQualifiers ← checkVerifierString verifier
    require (setFoundQualifiers.all fun qualifier =>
        cache.checkIfAssetExists env st (QUALIFIER_CHAR :: qualifier))
      "bad-txns-null-verifier-contains-non-issued-qualifier"
    onlyIf (!check_address.isEmpty) do
      let ret ← demand (LibBoolEE.resolve verifier (valuationOf setFoundQualifiers fun qualifier =>
          cache.checkForAddressQualifier env st (QUALIFIER_CHAR :: qualifier) check_address true))
        "bad-txns-null-verifier-failed-contexual-syntax-check"
      require ret "bad-txns-null-verifier-address-failed-verification"

def contextualCheckNullAssetTxOut (txout : CTxOut) : Verdict := do
  let (data, address) ← demand (assetNullDataFromScript env txout.scriptPubKey)
    "bad-txns-null-asset-data-serialization"
  if isAssetNameAQualifier data.asset_name false then
    verifyQualifierChange env st cache data address
  else if isAssetNameAnRestricted data.asset_name then
    verifyRestrictedAddressChange env st cache data address
  else .error "bad-txns-null-asset-data-on-non-restricted-or-qualifier-asset"

def contextualCheckGlobalAssetTxOut (txout : CTxOut) : Verdict := do
  let data ← demand (globalAssetNullDataFromScript txout.scriptPubKey)
    "bad-txns-null-global-asset-data-serialization"
  verifyGlobalRestrictedChange st cache data

def withoutReason (v : Verdict) : Verdict := v.mapError fun _ => ""

def contextualCheckVerifierAssetTxOut (txout : CTxOut) : Verdict := do
  let verifier ← demand (assetNullVerifierDataFromScript txout.scriptPubKey)
    "bad-txns-null-verifier-data-serialization"
  withoutReason (contextualCheckVerifierString env st cache verifier.verifier_string [])

def contextualCheckAgainstVerifyString (transfer : CAssetTransfer) (address : Bytes) : Verdict := do
  let verifier ← demand (cache.getAssetVerifierStringIfExists st transfer.strName true)
    ("Verifier String doesn't exist for asset: " ++ textOf transfer.strName)
  contextualCheckVerifierString env st cache verifier address

/-- `ContextualCheckTransferAsset`, the rules for a message. -/
def checkTransferMessage (transfer : CAssetTransfer) : Verdict := do
  require (!transfer.message.isEmpty || decide (transfer.nExpireTime ≤ 0))
    ("Invalid parameter: asset transfer expiration time requires a message to be attached " ++
      "to the transfer")
  require (decide (0 ≤ transfer.nExpireTime))
    "Invalid parameter: expiration time must be a positive value"
  onlyIf (!transfer.message.isEmpty) (checkEncoded env transfer.message)

/-- `ContextualCheckTransferAsset`, the rules for a restricted asset. -/
def checkRestrictedTransfer (transfer : CAssetTransfer) (address : Bytes) : Verdict := do
  require env.dep.areRestrictedAssetsDeployed "bad-txns-transfer-restricted-before-it-is-active"
  require (!cache.checkForGlobalRestriction st transfer.strName true)
    "bad-txns-transfer-restricted-asset-that-is-globally-restricted"
  withoutReason (contextualCheckAgainstVerifyString env st cache transfer address)

def contextualCheckTransferAsset (transfer : CAssetTransfer) (address : Bytes) : Verdict := do
  let assetType ← demand (isAssetNameValid transfer.strName)
    ("Invalid parameter: asset_name must only consist of valid characters and have a size " ++
      "between 3 and 30 characters. See help for more details.")
  require (decide (0 < transfer.nAmount))
    "Invalid parameter: asset amount can't be equal to or less than zero."
  onlyIf env.dep.areMessagesDeployed (checkTransferMessage env transfer)
  require (assetType != .MSGCHANNEL || env.dep.areMessagesDeployed)
    "bad-txns-transfer-msgchannel-before-messaging-is-active"
  onlyIf (assetType == .RESTRICTED) (checkRestrictedTransfer env st cache transfer address)
  require (!(assetType == .QUALIFIER || assetType == .SUB_QUALIFIER) ||
      env.dep.areRestrictedAssetsDeployed)
    "bad-txns-transfer-qualifier-before-it-is-active"

/-- `ContextualCheckNewAsset`.  The mempool is looked at only for a transaction on its way into
it, where `mempoolNames` holds the names its transactions issue. -/
def contextualCheckNewAsset (asset : CNewAsset) (mempoolNames : Option (StdMap Bytes uint256)) :
    Verdict := do
  require env.dep.areAssetsDeployed "bad-txns-new-asset-when-assets-is-not-active"
  checkNewAsset asset
  require (!cache.checkIfAssetExists env st asset.strName)
    ("Invalid parameter: asset_name '" ++ textOf asset.strName ++ "' has already been used")
  require (match mempoolNames with
      | some names => !names.count asset.strName
      | none => true)
    "Asset with this name is already in the mempool"
  require (asset.nHasIPFS == 0 || asset.strIPFSHash.length == 34 ||
      (env.dep.areMessagesDeployed && asset.strIPFSHash.length == 32))
    ("Invalid parameter: ipfs_hash must be 46 characters. " ++
      "Txid must be valid 64 character hash")
  onlyIf (asset.nHasIPFS != 0) (checkEncoded env asset.strIPFSHash)

def contextualCheckUniqueAssetTx (tx : CTransaction) : Verdict :=
  forEach (fun out => match uniqueAssetFromScript env out.scriptPubKey with
    | some (asset, _) => contextualCheckNewAsset env st cache asset none
    | none => .ok ()) tx.vout

/-- `ContextualCheckReissueAsset`, the verifier of a restricted asset against the address the
reissued amount goes to. -/
def checkReissueVerifier (reissue : CReissueAsset) (strAddress : Bytes) (tx : CTransaction) :
    Verdict :=
  match tx.getVerifierStringFromTx with
  | .ok new_verifier =>
    onlyIf (decide (0 < reissue.nAmount))
      (contextualCheckVerifierString env st cache new_verifier.verifier_string strAddress)
  | .error .notFound =>
    onlyIf (decide (0 < reissue.nAmount)) do
      let current_verifier ← demand (cache.getAssetVerifierStringIfExists st reissue.strName false)
        ("failed to get verifier string from a restricted asset, database is out of sync. " ++
          "Reindex required. Please report this is to development team")
      contextualCheckVerifierString env st cache current_verifier strAddress
  | .error e => .error e.strError

def contextualCheckReissueAsset (reissue : CReissueAsset) (tx : CTransaction) : Verdict := do
  let (_, strAddress) ← demand (tx.reissueAssetFromTransaction env)
    "bad-txns-reissue-asset-contextual-check"
  checkReissueAsset env reissue
  let prev ← demand (cache.getAssetMetaDataIfExists st reissue.strName)
    ("Unable to reissue asset: asset_name '" ++ textOf reissue.strName ++
      "' doesn't exist in the database")
  let prev_asset := prev.asset
  require (prev_asset.nReissuable != 0) "Unable to reissue asset: reissuable is set to false"
  require (decide (prev_asset.nAmount + reissue.nAmount ≤ MAX_MONEY))
    ("Unable to reissue asset: asset_name '" ++ textOf reissue.strName ++
      "' the amount trying to reissue is to large")
  require (checkAmountWithUnits reissue.nAmount prev_asset.units)
    ("Unable to reissue asset: amount must be divisible by the smaller unit assigned " ++
      "to the asset")
  require (decide (prev_asset.units ≤ reissue.nUnits) || reissue.nUnits == -1)
    "Unable to reissue asset: unit must be larger than current unit selection"
  require (reissue.strIPFSHash.isEmpty || reissue.strIPFSHash.length == 34 ||
      !(env.dep.areMessagesDeployed && reissue.strIPFSHash.length != 32))
    "Invalid parameter: ipfs_hash must be 34 bytes, Txid must be 32 bytes"
  onlyIf (!reissue.strIPFSHash.isEmpty) (checkEncoded env reissue.strIPFSHash)
  onlyIf (isAssetNameAnRestricted reissue.strName)
    (checkReissueVerifier env st cache reissue strAddress tx)

end Contextual

end UnemployCoin
