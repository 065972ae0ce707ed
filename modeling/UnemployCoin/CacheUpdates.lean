import UnemployCoin.Cache
/-!
# Updates of the asset caches

What `AddCoins` and `DisconnectBlock` change in a local cache, how `Flush` moves a local cache
into `passets`, and how `DumpCacheToDatabase` writes `passets` to the databases
(`assets/assets.cpp`).  A function that returns false in the source returns `none` here; it has
changed nothing then.
-/

namespace UnemployCoin

namespace CAssetsCache

variable (env : Env) (st : AssetState) (cache : CAssetsCache)

/-! ## Assets -/

def addNewAsset (asset : CNewAsset) (address : Bytes) (nHeight : ℤ) (blockHash : uint256) :
    Option CAssetsCache :=
  if cache.checkIfAssetExists env st asset.strName then none
  else some { cache with
    newAssets := cache.newAssets.add false asset.strName ⟨asset, address, nHeight, blockHash⟩ }

def removeNewAsset (asset : CNewAsset) (address : Bytes) : Option CAssetsCache :=
  if cache.checkIfAssetExists env st asset.strName then
    some { cache with
      newAssets := cache.newAssets.remove false asset.strName ⟨asset, address, 0, 0⟩ }
  else none

def applyReissue (asset : CNewAsset) (reissue : CReissueAsset) : CNewAsset where
  strName := asset.strName
  nAmount := asset.nAmount + reissue.nAmount
  units := if reissue.nUnits ≠ -1 then reissue.nUnits else asset.units
  nReissuable := reissue.nReissuable
  nHasIPFS := if reissue.strIPFSHash ≠ [] then 1 else asset.nHasIPFS
  strIPFSHash := if reissue.strIPFSHash ≠ [] then reissue.strIPFSHash else asset.strIPFSHash

/-- The height and hash that a caller of `GetAssetMetaDataIfExists` goes on with.  Where the
function does not write them they are the **uninitialised** height and the null hash. -/
def issuedOr (out : COutPoint) (data : AssetMetaData) : ℤ × uint256 :=
  data.issued.getD (env.uninitHeight out.hash out.n, 0)

def addReissueAsset (reissue : CReissueAsset) (address : Bytes) (out : COutPoint) :
    Option CAssetsCache :=
  match cache.getAssetMetaDataIfExists st reissue.strName with
  | none => none
  | some data =>
    let asset := (cache.mapReissuedAssetData.find? reissue.strName).getD data.asset
    let (assetHeight, assetBlockHash) := issuedOr env out data
    some { cache with
      mapReissuedAssetData :=
        cache.mapReissuedAssetData.assign reissue.strName (applyReissue asset reissue)
      newReissue := cache.newReissue.add false out ⟨reissue, address, assetHeight, assetBlockHash⟩ }

def addRestrictedVerifier (assetName verifier : Bytes) : CAssetsCache :=
  { cache with
    newRestrictedVerifier := cache.newRestrictedVerifier.add false assetName ⟨verifier, false⟩ }

def removeRestrictedVerifier (assetName verifier : Bytes) (fUndoingReissue : Bool) :
    CAssetsCache :=
  { cache with
    newRestrictedVerifier :=
      cache.newRestrictedVerifier.remove false assetName ⟨verifier, fUndoingReissue⟩ }

/-- The undo data of a reissue of `name`: the **first** item of the block with that name. -/
def findUndoItem (vUndoIPFS : List (Bytes × CBlockAssetUndo)) (name : Bytes) :
    Option CBlockAssetUndo :=
  (vUndoIPFS.find? fun undoItem => undoItem.1 == name).map Prod.snd

def undoReissue (asset : CNewAsset) (reissue : CReissueAsset) (undo : Option CBlockAssetUndo) :
    CNewAsset :=
  let assetData := { asset with nAmount := asset.nAmount - reissue.nAmount, nReissuable := 1 }
  match undo with
  | none => assetData
  | some item =>
    let strIPFSHash := if item.fChangedIPFS then item.strIPFS else assetData.strIPFSHash
    { assetData with
      strIPFSHash := strIPFSHash
      units := if item.fChangedUnits then item.nUnits else assetData.units
      nHasIPFS := if strIPFSHash = [] then 0 else assetData.nHasIPFS }

def removeReissueAsset (reissue : CReissueAsset) (address : Bytes) (out : COutPoint)
    (vUndoIPFS : List (Bytes × CBlockAssetUndo)) : Option CAssetsCache :=
  match cache.getAssetMetaDataIfExists st reissue.strName with
  | none => none
  | some data =>
    let undo := findUndoItem vUndoIPFS reissue.strName
    let assetData := undoReissue data.asset reissue undo
    let (height, blockHash) := issuedOr env out data
    let cache := { cache with
      mapReissuedAssetData := cache.mapReissuedAssetData.assign assetData.strName assetData
      newReissue := cache.newReissue.remove false out ⟨reissue, address, height, blockHash⟩ }
    match undo with
    | some item =>
      if item.fChangedVerifierString then
        some (cache.removeRestrictedVerifier assetData.strName item.verifierString true)
      else some cache
    | none => some cache

/-! ## Tags and freezes -/

/-- Moves a sub qualifier of an address from one of the two root qualifier maps to the other. -/
def moveRootQualifier (into from_ : StdMap (Bytes × Bytes) (StdMap Bytes Unit))
    (assetName address : Bytes) :
    StdMap (Bytes × Bytes) (StdMap Bytes Unit) × StdMap (Bytes × Bytes) (StdMap Bytes Unit) :=
  let key := (getParentName assetName, address)
  (into.assign key (((into.find? key).getD ∅).emplace assetName ()),
    from_.assign key (((from_.find? key).getD ∅).erase assetName))

/-- The root qualifier maps after a tag is put on an address, or taken off it. -/
def updateRootQualifiers (assetName address : Bytes) (fAdd : Bool) : CAssetsCache :=
  if isAssetNameASubQualifier assetName then
    if fAdd then
      let (add, rem) := moveRootQualifier cache.mapRootQualifierAddressesAdd
        cache.mapRootQualifierAddressesRemove assetName address
      { cache with mapRootQualifierAddressesAdd := add, mapRootQualifierAddressesRemove := rem }
    else
      let (rem, add) := moveRootQualifier cache.mapRootQualifierAddressesRemove
        cache.mapRootQualifierAddressesAdd assetName address
      { cache with mapRootQualifierAddressesAdd := add, mapRootQualifierAddressesRemove := rem }
  else cache

def addQualifierAddress (assetName address : Bytes) (type : QualifierType) : CAssetsCache :=
  { cache.updateRootQualifiers assetName address (type == .ADD_QUALIFIER) with
    newQualifierAddress := cache.newQualifierAddress.add true (assetName, address) type }

/-- `RemoveQualifierAddress`.  Undoing a removal puts the tag back. -/
def removeQualifierAddress (assetName address : Bytes) (type : QualifierType) : CAssetsCache :=
  { cache.updateRootQualifiers assetName address (type != .ADD_QUALIFIER) with
    newQualifierAddress := cache.newQualifierAddress.remove true (assetName, address) type }

def addRestrictedAddress (assetName address : Bytes) (type : RestrictedType) : CAssetsCache :=
  { cache with
    newRestrictedAddress := cache.newRestrictedAddress.add true (assetName, address) type }

def removeRestrictedAddress (assetName address : Bytes) (type : RestrictedType) : CAssetsCache :=
  { cache with
    newRestrictedAddress := cache.newRestrictedAddress.remove true (assetName, address) type }

def addGlobalRestricted (assetName : Bytes) (type : RestrictedType) : CAssetsCache :=
  { cache with newRestrictedGlobal := cache.newRestrictedGlobal.add true assetName type }

def removeGlobalRestricted (assetName : Bytes) (type : RestrictedType) : CAssetsCache :=
  { cache with newRestrictedGlobal := cache.newRestrictedGlobal.remove true assetName type }

/-- Inserts every sub qualifier of `top` into `bottom`. -/
def mergeRootQualifiers (top bottom : StdMap (Bytes × Bytes) (StdMap Bytes Unit)) :
    StdMap (Bytes × Bytes) (StdMap Bytes Unit) :=
  top.entries.foldl (fun m item => item.2.keys.foldl (fun m asset =>
    m.assign item.1 (((m.find? item.1).getD ∅).emplace asset ())) m) bottom

/-- `Flush`.  The sub qualifiers to **remove** end up among those to add, as in the source. -/
def flushInto (passets : CAssetsCache) : CAssetsCache where
  mapReissuedAssetData := passets.mapReissuedAssetData.update cache.mapReissuedAssetData
  newAssets := Staged.flush false cache.newAssets passets.newAssets
  newReissue := Staged.flush false cache.newReissue passets.newReissue
  newRestrictedVerifier :=
    Staged.flush true cache.newRestrictedVerifier passets.newRestrictedVerifier
  newQualifierAddress := Staged.flush true cache.newQualifierAddress passets.newQualifierAddress
  newRestrictedAddress := Staged.flush true cache.newRestrictedAddress passets.newRestrictedAddress
  newRestrictedGlobal := Staged.flush true cache.newRestrictedGlobal passets.newRestrictedGlobal
  mapRootQualifierAddressesAdd :=
    mergeRootQualifiers cache.mapRootQualifierAddressesRemove
      (mergeRootQualifiers cache.mapRootQualifierAddressesAdd passets.mapRootQualifierAddressesAdd)
  mapRootQualifierAddressesRemove := passets.mapRootQualifierAddressesRemove

end CAssetsCache

/-- `Flush` of a local cache, on the globals. -/
def AssetState.flush (st : AssetState) (cache : CAssetsCache) : AssetState :=
  { st with passets := cache.flushInto st.passets }

/-! ## Writing to the databases -/

section Dump

variable (env : Env) (cache : CAssetsCache)

def CAssetsDB.writeAssetData (db : CAssetsDB) (asset : CNewAsset) (nHeight : ℤ)
    (blockHash : uint256) : CAssetsDB :=
  { db with assetData := db.assetData.assign asset.strName ⟨asset, nHeight, blockHash⟩ }

/-- One round over `setNewAssetsToRemove`. -/
def dumpRemovedAsset (st : AssetState) (e : Bytes × CAssetCacheNewAsset) : AssetState :=
  { st with
    passetsCache := st.passetsCache.erase e.1
    passetsdb := { st.passetsdb with assetData := st.passetsdb.assetData.erase e.1 }
    prestricteddb := { st.prestricteddb with verifiers := st.prestricteddb.verifiers.erase e.1 } }

/-- One round over `setNewAssetsToAdd`. -/
def dumpNewAsset (st : AssetState) (e : Bytes × CAssetCacheNewAsset) : AssetState :=
  { st with
    passetsCache :=
      st.passetsCache.put e.2.asset.strName ⟨e.2.asset, e.2.blockHeight, e.2.blockHash⟩
    passetsdb := st.passetsdb.writeAssetData e.2.asset e.2.blockHeight e.2.blockHash }

/-- One round over `setNewReissueToAdd`. -/
def dumpReissue (st : AssetState) (e : COutPoint × CAssetCacheReissueAsset) : AssetState :=
  match cache.mapReissuedAssetData.find? e.2.reissue.strName with
  | some asset =>
    { st with
      passetsdb := st.passetsdb.writeAssetData asset e.2.blockHeight e.2.blockHash
      passetsCache := st.passetsCache.erase e.2.reissue.strName }
  | none => st

/-- One round over `setNewReissueToRemove`.  Nothing is written for an asset whose issue is
removed too. -/
def dumpUndoReissue (st : AssetState) (e : COutPoint × CAssetCacheReissueAsset) : AssetState :=
  if cache.newAssets.toRemove.count e.2.reissue.strName then st else dumpReissue cache st e

/-- One round over `setNewRestrictedVerifierToAdd`. -/
def dumpVerifier (st : AssetState) (e : Bytes × CAssetCacheRestrictedVerifiers) : AssetState :=
  { st with
    prestricteddb :=
      { st.prestricteddb with verifiers := st.prestricteddb.verifiers.assign e.1 e.2.verifier }
    passetsVerifierCache := st.passetsVerifierCache.erase e.1 }

/-- One round over `setNewRestrictedVerifierToRemove`. -/
def dumpUndoVerifier (st : AssetState) (e : Bytes × CAssetCacheRestrictedVerifiers) :
    AssetState :=
  if e.2.fUndoingRessiue then dumpVerifier st e
  else
    { st with
      prestricteddb :=
        { st.prestricteddb with verifiers := st.prestricteddb.verifiers.erase e.1 }
      passetsVerifierCache := st.passetsVerifierCache.erase e.1 }

/-- Sets or clears the entry of a key in a cache and in the database behind it. -/
def setFlag {κ κ' : Type} [DecidableEq κ] [DecidableEq κ'] (on : Bool) (c : LruCache κ Unit)
    (db : StdMap κ' Unit) (k : κ) (k' : κ') : LruCache κ Unit × StdMap κ' Unit :=
  if on then (c.put k (), db.assign k' ()) else (c.erase k, db.erase k')

def writeQualifier (st : AssetState) (key : Bytes × Bytes) (on : Bool) : AssetState :=
  let (c, db) := setFlag on st.passetsQualifierCache st.prestricteddb.addressQualifiers
    (cacheHash env key.1 key.2) (key.2, key.1)
  { st with
    passetsQualifierCache := c
    prestricteddb := { st.prestricteddb with addressQualifiers := db } }

def writeRestriction (st : AssetState) (key : Bytes × Bytes) (on : Bool) : AssetState :=
  let (c, db) := setFlag on st.passetsRestrictionCache st.prestricteddb.restrictedAddresses
    (cacheHash env key.1 key.2) (key.2, key.1)
  { st with
    passetsRestrictionCache := c
    prestricteddb := { st.prestricteddb with restrictedAddresses := db } }

def writeGlobalRestriction (st : AssetState) (name : Bytes) (on : Bool) : AssetState :=
  let (c, db) := setFlag on st.passetsGlobalRestrictionCache st.prestricteddb.globalRestrictions
    name name
  { st with
    passetsGlobalRestrictionCache := c
    prestricteddb := { st.prestricteddb with globalRestrictions := db } }

/-- One round over `setNewQualifierAddressToAdd`, and with `fUndo` over
`setNewQualifierAddressToRemove`. -/
def dumpQualifier (fUndo : Bool) (st : AssetState) (e : (Bytes × Bytes) × QualifierType) :
    AssetState :=
  match e.2 with
  | .ADD_QUALIFIER => writeQualifier env st e.1 (!fUndo)
  | .REMOVE_QUALIFIER => writeQualifier env st e.1 fUndo

/-- One round over `setNewRestrictedAddressToAdd`, and with `fUndo` over
`setNewRestrictedAddressToRemove`. -/
def dumpRestricted (fUndo : Bool) (st : AssetState) (e : (Bytes × Bytes) × RestrictedType) :
    AssetState :=
  match e.2 with
  | .FREEZE_ADDRESS => writeRestriction env st e.1 (!fUndo)
  | .UNFREEZE_ADDRESS => writeRestriction env st e.1 fUndo
  | _ => st

/-- One round over `setNewRestrictedGlobalToAdd`, and with `fUndo` over
`setNewRestrictedGlobalToRemove`. -/
def dumpGlobal (fUndo : Bool) (st : AssetState) (e : Bytes × RestrictedType) : AssetState :=
  match e.2 with
  | .GLOBAL_FREEZE => writeGlobalRestriction st e.1 (!fUndo)
  | .GLOBAL_UNFREEZE => writeGlobalRestriction st e.1 fUndo
  | _ => st

def dumpIssues (st : AssetState) : AssetState :=
  cache.newAssets.toAdd.entries.foldl dumpNewAsset
    (cache.newAssets.toRemove.entries.foldl dumpRemovedAsset st)

def dumpReissues (st : AssetState) : AssetState :=
  cache.newReissue.toRemove.entries.foldl (dumpUndoReissue cache)
    (cache.newReissue.toAdd.entries.foldl (dumpReissue cache) st)

def dumpVerifiers (st : AssetState) : AssetState :=
  cache.newRestrictedVerifier.toRemove.entries.foldl dumpUndoVerifier
    (cache.newRestrictedVerifier.toAdd.entries.foldl dumpVerifier st)

def dumpQualifiers (st : AssetState) : AssetState :=
  cache.newQualifierAddress.toRemove.entries.foldl (dumpQualifier env true)
    (cache.newQualifierAddress.toAdd.entries.foldl (dumpQualifier env false) st)

def dumpRestrictions (st : AssetState) : AssetState :=
  cache.newRestrictedAddress.toRemove.entries.foldl (dumpRestricted env true)
    (cache.newRestrictedAddress.toAdd.entries.foldl (dumpRestricted env false) st)

def dumpGlobals (st : AssetState) : AssetState :=
  cache.newRestrictedGlobal.toRemove.entries.foldl (dumpGlobal true)
    (cache.newRestrictedGlobal.toAdd.entries.foldl (dumpGlobal false) st)

end Dump

/-- `DumpCacheToDatabase` of `passets`, which it clears.  The loops go through the entries of the
containers in the order of the list that models them. -/
def AssetState.dumpCacheToDatabase (env : Env) (st : AssetState) : AssetState :=
  let cache := st.passets
  let st := dumpReissues cache (dumpIssues cache st)
  let st := dumpVerifiers cache st
  let st := dumpQualifiers env cache st
  let st := dumpGlobals cache (dumpRestrictions env cache st)
  { st with passets := .empty }

end UnemployCoin
