import UnemployCoin.ConnectBlock
/-!
# What the checks read of a local cache

`CheckTxAssets` looks up in the local cache whether an asset exists, its metadata, and the verifier
string of an asset that is reissued.  Tags and freezes, and the verifier string of an asset that is
transferred, are those of the tip: these lookups **skip** the local cache.
-/

namespace UnemployCoin

open Check CAssetsCache

/-- Two local caches with the same answers to what the checks ask. -/
structure SameReads (env : Env) (st : AssetState) (cache cache' : CAssetsCache) : Prop where
  known : ∀ name, cache'.checkIfAssetExists env st name = cache.checkIfAssetExists env st name
  metadata : ∀ name,
    cache'.getAssetMetaDataIfExists st name = cache.getAssetMetaDataIfExists st name
  verifier : ∀ name, cache'.getAssetVerifierStringIfExists st name false =
    cache.getAssetVerifierStringIfExists st name false

section Skipped

variable (env : Env) (st : AssetState) (cache cache' : CAssetsCache)

theorem getAssetVerifierStringIfExists_skip (name : Bytes) :
    cache'.getAssetVerifierStringIfExists st name true =
      cache.getAssetVerifierStringIfExists st name true := rfl

theorem checkForAddressQualifier_skip (qualifier address : Bytes) :
    cache'.checkForAddressQualifier env st qualifier address true =
      cache.checkForAddressQualifier env st qualifier address true := rfl

theorem checkForAddressRestriction_skip (name address : Bytes) :
    cache'.checkForAddressRestriction env st name address true =
      cache.checkForAddressRestriction env st name address true := rfl

theorem checkForGlobalRestriction_skip (name : Bytes) :
    cache'.checkForGlobalRestriction st name true = cache.checkForGlobalRestriction st name true :=
  rfl

end Skipped

/-! ## The checks -/

variable {env : Env} {st : AssetState} {cache cache' : CAssetsCache}

theorem contextualCheckVerifierString_congr (h : SameReads env st cache cache')
    (verifier check_address : Bytes) :
    contextualCheckVerifierString env st cache' verifier check_address =
      contextualCheckVerifierString env st cache verifier check_address := by
  simp only [contextualCheckVerifierString, h.known,
    checkForAddressQualifier_skip env st cache cache']

theorem contextualCheckTransferAsset_congr (h : SameReads env st cache cache')
    (transfer : CAssetTransfer) (address : Bytes) :
    contextualCheckTransferAsset env st cache' transfer address =
      contextualCheckTransferAsset env st cache transfer address := by
  simp only [contextualCheckTransferAsset, checkRestrictedTransfer,
    contextualCheckAgainstVerifyString, contextualCheckVerifierString_congr h,
    checkForGlobalRestriction_skip st cache cache',
    getAssetVerifierStringIfExists_skip st cache cache']

theorem contextualCheckNewAsset_congr (h : SameReads env st cache cache') (asset : CNewAsset)
    (mempoolNames : Option (StdMap Bytes uint256)) :
    contextualCheckNewAsset env st cache' asset mempoolNames =
      contextualCheckNewAsset env st cache asset mempoolNames := by
  simp only [contextualCheckNewAsset, h.known]

theorem contextualCheckReissueAsset_congr (h : SameReads env st cache cache')
    (reissue : CReissueAsset) (tx : CTransaction) :
    contextualCheckReissueAsset env st cache' reissue tx =
      contextualCheckReissueAsset env st cache reissue tx := by
  simp only [contextualCheckReissueAsset, checkReissueVerifier, h.metadata, h.verifier,
    contextualCheckVerifierString_congr h]

theorem checkNullAssetOutput_congr (h : SameReads env st cache cache') (txout : CTxOut) :
    checkNullAssetOutput env st cache' txout = checkNullAssetOutput env st cache txout := by
  simp only [checkNullAssetOutput, contextualCheckNullAssetTxOut, contextualCheckGlobalAssetTxOut,
    contextualCheckVerifierAssetTxOut, verifyQualifierChange, verifyRestrictedAddressChange,
    verifyGlobalRestrictedChange, contextualCheckVerifierString_congr h,
    checkForAddressQualifier_skip env st cache cache',
    checkForAddressRestriction_skip env st cache cache',
    checkForGlobalRestriction_skip st cache cache']

theorem contextualCheckAssetTx_congr (h : SameReads env st cache cache') (tx : CTransaction)
    (mempoolNames : Option (StdMap Bytes uint256)) :
    contextualCheckAssetTx env st cache' tx mempoolNames =
      contextualCheckAssetTx env st cache tx mempoolNames := by
  simp only [contextualCheckAssetTx, contextualCheckNew, contextualCheckReissueTx,
    contextualCheckUniqueAssetTx, contextualCheckRestrictedTx, contextualCheckNewAsset_congr h,
    contextualCheckReissueAsset_congr h, contextualCheckVerifierString_congr h]

theorem scanAssetOutput_congr (h : SameReads env st cache cache')
    (mapReissuedAssets : StdMap Bytes uint256) (tx : CTransaction) :
    scanAssetOutput env st cache' mapReissuedAssets tx =
      scanAssetOutput env st cache mapReissuedAssets tx := by
  funext s txout
  simp only [scanAssetOutput, scanTransferOutput, checkTransferUnits, h.metadata,
    checkNullAssetOutput_congr h, contextualCheckTransferAsset_congr h]

/-- **The checks of a transaction** on two caches with the same answers. -/
theorem checkTxAssets_congr (h : SameReads env st cache cache') (tx : CTransaction)
    (view : CCoinsView) (mempoolNames : Option (StdMap Bytes uint256))
    (mapReissuedAssets : StdMap Bytes uint256) :
    checkTxAssets env st cache' tx view mempoolNames mapReissuedAssets =
      checkTxAssets env st cache tx view mempoolNames mapReissuedAssets := by
  have hinput : scanAssetInput env st cache' view = scanAssetInput env st cache view := rfl
  simp only [checkTxAssets, hinput, scanAssetOutput_congr h, contextualCheckAssetTx_congr h]

end UnemployCoin
