import UnemployCoin.Transaction
import UnemployCoin.Lib.LruCache
import UnemployCoin.Lib.Staged
/-!
# The asset caches

`CAssetsCache` (`assets/assets.h`, `assets/assets.cpp`) and what lies below it.  A block is
connected or disconnected on a local cache, which `Flush` moves into the global `passets`, which
`DumpCacheToDatabase` writes to the databases.  In front of each database stands a least
recently used cache.

Each pair `setNew…ToAdd`, `setNew…ToRemove` of the source is one `Staged` field.  The balances
that the address index (`fAssetIndex`, off by default) keeps are not part of the model.  A
lookup here leaves the least recently used caches as they are; that the source puts the entry
it read into them, or moves it to the front, is a step of its own in a run.
-/

namespace UnemployCoin

/-! ## Items -/

structure CAssetCacheNewAsset where
  asset : CNewAsset
  address : Bytes
  blockHeight : ℤ
  blockHash : uint256
  deriving DecidableEq, Repr

structure CAssetCacheReissueAsset where
  reissue : CReissueAsset
  address : Bytes
  blockHeight : ℤ
  blockHash : uint256
  deriving DecidableEq, Repr

structure CAssetCacheRestrictedVerifiers where
  verifier : Bytes
  fUndoingRessiue : Bool
  deriving DecidableEq, Repr

structure CDatabasedAssetData where
  asset : CNewAsset
  nHeight : ℤ
  blockHash : uint256
  deriving DecidableEq, Repr

/-- What a block's undo data says about one reissue. -/
structure CBlockAssetUndo where
  fChangedIPFS : Bool
  fChangedUnits : Bool
  strIPFS : Bytes
  nUnits : Int8
  fChangedVerifierString : Bool
  verifierString : Bytes
  deriving DecidableEq, Repr

/-! ## Layers -/

structure CAssetsCache where
  mapReissuedAssetData : StdMap Bytes CNewAsset
  /-- `setNewAssetsToAdd`, `setNewAssetsToRemove`, by asset name. -/
  newAssets : Staged Bytes CAssetCacheNewAsset
  /-- `setNewReissueToAdd`, `setNewReissueToRemove`, by the output of the reissue. -/
  newReissue : Staged COutPoint CAssetCacheReissueAsset
  /-- `setNewRestrictedVerifierToAdd`, `setNewRestrictedVerifierToRemove`, by asset name. -/
  newRestrictedVerifier : Staged Bytes CAssetCacheRestrictedVerifiers
  /-- `setNewQualifierAddressToAdd`, `setNewQualifierAddressToRemove`, by asset and address. -/
  newQualifierAddress : Staged (Bytes × Bytes) QualifierType
  /-- `setNewRestrictedAddressToAdd`, `setNewRestrictedAddressToRemove`, by asset and address. -/
  newRestrictedAddress : Staged (Bytes × Bytes) RestrictedType
  /-- `setNewRestrictedGlobalToAdd`, `setNewRestrictedGlobalToRemove`, by asset name. -/
  newRestrictedGlobal : Staged Bytes RestrictedType
  /-- The sub qualifiers added to an address, by root qualifier and address. -/
  mapRootQualifierAddressesAdd : StdMap (Bytes × Bytes) (StdMap Bytes Unit)
  mapRootQualifierAddressesRemove : StdMap (Bytes × Bytes) (StdMap Bytes Unit)
  deriving DecidableEq

/-- A cache with nothing in it, as the constructor and `ClearDirtyCache` leave it. -/
def CAssetsCache.empty : CAssetsCache := ⟨∅, ∅, ∅, ∅, ∅, ∅, ∅, ∅, ∅⟩

/-- `CAssetsDB`: the issued assets and the undo data of connected blocks. -/
structure CAssetsDB where
  assetData : StdMap Bytes CDatabasedAssetData
  blockUndo : StdMap uint256 (List (Bytes × CBlockAssetUndo))
  deriving DecidableEq

/-- `CRestrictedDB`; the keys with an address have it first, as in the source. -/
structure CRestrictedDB where
  verifiers : StdMap Bytes Bytes
  addressQualifiers : StdMap (Bytes × Bytes) Unit
  restrictedAddresses : StdMap (Bytes × Bytes) Unit
  globalRestrictions : StdMap Bytes Unit
  deriving DecidableEq

structure AssetState where
  passets : CAssetsCache
  passetsCache : LruCache Bytes CDatabasedAssetData
  passetsVerifierCache : LruCache Bytes Bytes
  passetsQualifierCache : LruCache Bytes Unit
  passetsRestrictionCache : LruCache Bytes Unit
  passetsGlobalRestrictionCache : LruCache Bytes Unit
  passetsdb : CAssetsDB
  prestricteddb : CRestrictedDB
  deriving DecidableEq

def MAX_CACHE_ASSETS_SIZE : ℕ := 2500

def AssetState.genesis : AssetState where
  passets := .empty
  passetsCache := .ofSize MAX_CACHE_ASSETS_SIZE
  passetsVerifierCache := .ofSize MAX_CACHE_ASSETS_SIZE
  passetsQualifierCache := .ofSize MAX_CACHE_ASSETS_SIZE
  passetsRestrictionCache := .ofSize MAX_CACHE_ASSETS_SIZE
  passetsGlobalRestrictionCache := .ofSize MAX_CACHE_ASSETS_SIZE
  passetsdb := ⟨∅, ∅⟩
  prestricteddb := ⟨∅, ∅, ∅, ∅⟩

/-- `CAssetCacheRestrictedAddress::GetHash` and `CAssetCacheQualifierAddress::GetHash`. -/
def cacheHash (env : Env) (assetName address : Bytes) : Bytes := env.Hash (assetName ++ address)

namespace CAssetsCache

/-! ## Lookups -/

section Lookups

variable (env : Env) (st : AssetState) (cache : CAssetsCache)

/-- `CheckIfAssetExists`, with the forced duplicate check that every caller asks for. -/
def checkIfAssetExists (name : Bytes) : Bool :=
  if env.fReindex then true
  else if cache.newAssets.toRemove.count name then false
  else if st.passets.newAssets.toRemove.count name then false
  else if cache.newAssets.toAdd.count name then true
  else if st.passets.newAssets.toAdd.count name then true
  else if st.passetsCache.exist name then true
  else st.passetsdb.assetData.count name

/-- What `GetAssetMetaDataIfExists` writes: the asset, and the height and hash of its block.
Where the asset is found among the reissued ones, height and hash are **not written**. -/
structure AssetMetaData where
  asset : CNewAsset
  issued : Option (ℤ × uint256)
  deriving DecidableEq, Repr

def getAssetMetaDataIfExists (name : Bytes) : Option AssetMetaData :=
  match cache.mapReissuedAssetData.find? name with
  | some asset => some ⟨asset, none⟩
  | none =>
  match st.passets.mapReissuedAssetData.find? name with
  | some asset => some ⟨asset, none⟩
  | none =>
  if cache.newAssets.toRemove.count name then none
  else if st.passets.newAssets.toRemove.count name then none
  else
  match cache.newAssets.toAdd.find? name with
  | some item => some ⟨item.asset, some (item.blockHeight, item.blockHash)⟩
  | none =>
  match st.passets.newAssets.toAdd.find? name with
  | some item => some ⟨item.asset, some (item.blockHeight, item.blockHash)⟩
  | none =>
  match st.passetsCache.find? name with
  | some data => some ⟨data.asset, some (data.nHeight, data.blockHash)⟩
  | none =>
  match st.passetsdb.assetData.find? name with
  | some data => some ⟨data.asset, some (data.nHeight, data.blockHash)⟩
  | none => none

def getAssetVerifierStringIfExists (name : Bytes) (fSkipTempCache : Bool) : Option Bytes :=
  match (if fSkipTempCache then none else cache.newRestrictedVerifier.toRemove.find? name) with
  | some item => if item.fUndoingRessiue then some item.verifier else none
  | none =>
  match st.passets.newRestrictedVerifier.toRemove.find? name with
  | some item => if item.fUndoingRessiue then some item.verifier else none
  | none =>
  match (if fSkipTempCache then none else cache.newRestrictedVerifier.toAdd.find? name) with
  | some item => some item.verifier
  | none =>
  match st.passets.newRestrictedVerifier.toAdd.find? name with
  | some item => some item.verifier
  | none =>
  match st.passetsVerifierCache.find? name with
  | some verifier => some verifier
  | none => st.prestricteddb.verifiers.find? name

/-- A non-empty set of sub qualifiers is stored for a root qualifier and an address. -/
def hasSubQualifier (m : StdMap (Bytes × Bytes) (StdMap Bytes Unit)) (key : Bytes × Bytes) : Bool :=
  match m.find? key with
  | some names => decide (names.size ≠ 0)
  | none => false

def checkForAddressRootQualifier (db : CRestrictedDB) (address qualifier : Bytes) : Bool :=
  db.addressQualifiers.keys.any fun key =>
    key.1 == address && (key.2 == qualifier || (qualifier ++ [SUB_NAME_DELIMITER]).isPrefixOf key.2)

def checkForAddressQualifier (qualifier_name address : Bytes) (fSkipTempCache : Bool) : Bool :=
  let key := (qualifier_name, address)
  match (if fSkipTempCache then none else cache.newQualifierAddress.toRemove.find? key) with
  | some type => type == .REMOVE_QUALIFIER
  | none =>
  match st.passets.newQualifierAddress.toRemove.find? key with
  | some type => type == .REMOVE_QUALIFIER
  | none =>
  match (if fSkipTempCache then none else cache.newQualifierAddress.toAdd.find? key) with
  | some type => type == .ADD_QUALIFIER
  | none =>
  match st.passets.newQualifierAddress.toAdd.find? key with
  | some .ADD_QUALIFIER => true
  | some .REMOVE_QUALIFIER => hasSubQualifier st.passets.mapRootQualifierAddressesAdd key
  | none =>
  if !fSkipTempCache && hasSubQualifier cache.mapRootQualifierAddressesAdd key then true
  else if hasSubQualifier st.passets.mapRootQualifierAddressesAdd key then true
  else if st.passetsQualifierCache.exist (cacheHash env qualifier_name address) then true
  else st.prestricteddb.addressQualifiers.count (address, qualifier_name) ||
    checkForAddressRootQualifier st.prestricteddb address qualifier_name

def checkForAddressRestriction (restricted_name address : Bytes) (fSkipTempCache : Bool) : Bool :=
  let key := (restricted_name, address)
  match (if fSkipTempCache then none else cache.newRestrictedAddress.toRemove.find? key) with
  | some type => type == .UNFREEZE_ADDRESS
  | none =>
  match st.passets.newRestrictedAddress.toRemove.find? key with
  | some type => type == .UNFREEZE_ADDRESS
  | none =>
  match (if fSkipTempCache then none else cache.newRestrictedAddress.toAdd.find? key) with
  | some type => type == .FREEZE_ADDRESS
  | none =>
  match st.passets.newRestrictedAddress.toAdd.find? key with
  | some type => type == .FREEZE_ADDRESS
  | none =>
  st.passetsRestrictionCache.exist (cacheHash env restricted_name address) ||
    st.prestricteddb.restrictedAddresses.count (address, restricted_name)

def checkForGlobalRestriction (restricted_name : Bytes) (fSkipTempCache : Bool) : Bool :=
  match (if fSkipTempCache then none
    else cache.newRestrictedGlobal.toRemove.find? restricted_name) with
  | some type => type == .GLOBAL_UNFREEZE
  | none =>
  match st.passets.newRestrictedGlobal.toRemove.find? restricted_name with
  | some type => type == .GLOBAL_UNFREEZE
  | none =>
  match (if fSkipTempCache then none
    else cache.newRestrictedGlobal.toAdd.find? restricted_name) with
  | some type => type == .GLOBAL_FREEZE
  | none =>
  match st.passets.newRestrictedGlobal.toAdd.find? restricted_name with
  | some type => type == .GLOBAL_FREEZE
  | none =>
  st.passetsGlobalRestrictionCache.exist restricted_name ||
    st.prestricteddb.globalRestrictions.count restricted_name

end Lookups

end CAssetsCache

end UnemployCoin
