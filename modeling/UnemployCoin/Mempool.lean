import UnemployCoin.Node
import UnemployCoin.Lib.TwoWay
/-!
# The mempool

`CTxMemPool` (`txmempool.h`, `txmempool.cpp`) as far as assets go: its transactions, and the
indexes that lead from assets, addresses and tags to them and back.  `AcceptToMemoryPoolWorker`
(`validation.cpp`) fills the indexes and `removeUnchecked` empties them; the maps of the reissues,
`mapReissuedTx` and `mapReissuedAssets`, are globals, and `ConnectTip` touches them as well.

`mapNextTx` and `mapLinks` follow from the transactions, no two of which spend one outpoint.  Fees,
sizes, lock times and scripts decide nothing here, so what they decide is given with each step.
-/

namespace UnemployCoin

open Check

/-- The transactions, and the indexes of their assets.  Each pair of maps of sets is one field. -/
structure CTxMemPool where
  mapTx : StdMap uint256 CTransaction
  mapAssetToHash : StdMap Bytes uint256
  mapHashToAsset : StdMap uint256 Bytes
  /-- `mapAddressesMarkedFrozen`, `mapHashToAddressMarkedFrozen`, by address and asset. -/
  addressesMarkedFrozen : TwoWay (Bytes × Bytes) uint256
  /-- `mapAssetMarkedGlobalFrozen`, `mapHashMarkedGlobalFrozen`. -/
  assetMarkedGlobalFrozen : TwoWay Bytes uint256
  /-- `mapAddressesQualifiersChanged`, `mapHashQualifiersChanged`. -/
  addressesQualifiersChanged : TwoWay Bytes uint256
  /-- `mapAssetVerifierChanged`, `mapHashVerifierChanged`. -/
  assetVerifierChanged : TwoWay Bytes uint256
  /-- `mapGlobalFreezingAssetTransactions`, `mapHashGlobalFreezingAssetTransactions`. -/
  globalFreezingAssetTransactions : TwoWay Bytes uint256
  /-- `mapGlobalUnFreezingAssetTransactions`, `mapHashGlobalUnFreezingAssetTransactions`. -/
  globalUnFreezingAssetTransactions : TwoWay Bytes uint256
  /-- `mapAddressAddedTag`, `mapHashToAddressAddedTag`, by address and tag. -/
  addressAddedTag : TwoWay (Bytes × Bytes) uint256
  /-- `mapAddressRemoveTag`, `mapHashToAddressRemoveTag`, by address and tag. -/
  addressRemoveTag : TwoWay (Bytes × Bytes) uint256
  mapReissuedTx : StdMap uint256 Bytes
  mapReissuedAssets : StdMap Bytes uint256

namespace CTxMemPool

def empty : CTxMemPool :=
  ⟨∅, ∅, ∅, .empty, .empty, .empty, .empty, .empty, .empty, .empty, .empty, ∅, ∅⟩

variable (pool : CTxMemPool)

def state : MempoolState := ⟨pool.mapAssetToHash, pool.mapReissuedTx, pool.mapReissuedAssets⟩

def txs : List CTransaction := pool.mapTx.entries.map Prod.snd

/-- `mapNextTx`: the transaction that spends an outpoint. -/
def nextTx (prevout : COutPoint) : Option CTransaction :=
  pool.txs.find? fun tx => tx.vin.any fun txin => txin.prevout == prevout

/-- `GetMemPoolChildren`: the transactions that spend an output of one. -/
def children (hash : uint256) : List uint256 :=
  (pool.txs.filter fun tx => tx.vin.any fun txin => txin.prevout.hash == hash).map
    CTransaction.hash

def MEMPOOL_HEIGHT : ℕ := 0x7FFFFFFF

/-- `CCoinsViewMemPool`: the outputs of its transactions in front of the coins of the tip. -/
def view (coinsTip : CCoinsView) : CCoinsView :=
  pool.txs.foldl (fun view tx => tx.outputs.foldl (fun view e =>
    view.assign e.1 ⟨e.2, false, MEMPOOL_HEIGHT⟩) view) coinsTip

/-! ## Removing -/

/-- What `removeUnchecked` does to the maps of the reissues. -/
def freeReissue (hash : uint256) : CTxMemPool :=
  match pool.mapReissuedTx.find? hash with
  | none => pool
  | some name =>
    if pool.mapReissuedAssets.count name then
      { pool with
        mapReissuedAssets := pool.mapReissuedAssets.erase name
        mapReissuedTx := pool.mapReissuedTx.erase hash }
    else pool

/-- What it does to the names of new assets: one transaction has **one** name. -/
def freeAsset (hash : uint256) : CTxMemPool :=
  match pool.mapHashToAsset.find? hash with
  | none => pool
  | some name =>
    { pool with
      mapAssetToHash := pool.mapAssetToHash.erase name
      mapHashToAsset := pool.mapHashToAsset.erase hash }

/-- What it does to the other indexes.  The tags of a transaction are taken out of the maps by
address, but `mapHashToAddressAddedTag` and `mapHashToAddressRemoveTag` **keep** them. -/
def freeCommands (hash : uint256) : CTxMemPool :=
  { pool with
    addressesMarkedFrozen := pool.addressesMarkedFrozen.remove false hash
    assetMarkedGlobalFrozen := pool.assetMarkedGlobalFrozen.remove false hash
    addressesQualifiersChanged := pool.addressesQualifiersChanged.remove false hash
    assetVerifierChanged := pool.assetVerifierChanged.remove false hash
    globalFreezingAssetTransactions := pool.globalFreezingAssetTransactions.remove true hash
    globalUnFreezingAssetTransactions := pool.globalUnFreezingAssetTransactions.remove true hash
    addressAddedTag := pool.addressAddedTag.unlink true hash
    addressRemoveTag := pool.addressRemoveTag.unlink true hash }

def removeUnchecked (hash : uint256) : CTxMemPool :=
  (({ pool with mapTx := pool.mapTx.erase hash }.freeReissue hash).freeAsset hash).freeCommands hash

def removeStaged (stage : List uint256) : CTxMemPool := stage.foldl removeUnchecked pool

/-- The loop of `CalculateDescendants`, for as many rounds as there are transactions. -/
def walkDescendants : ℕ → List uint256 → List uint256 → List uint256
  | 0, _, setDescendants => setDescendants
  | _, [], setDescendants => setDescendants
  | n + 1, it :: stage, setDescendants =>
    let setDescendants := setDescendants ++ [it]
    walkDescendants n
      ((stage ++ pool.children it).dedup.filter fun child => !setDescendants.contains child)
      setDescendants

/-- `CalculateDescendants`, which adds to the descendants of other entries. -/
def calculateDescendants (setDescendants : List uint256) (entry : uint256) : List uint256 :=
  if setDescendants.contains entry then setDescendants
  else pool.walkDescendants pool.mapTx.size [entry] setDescendants

def removeWithDescendants (txToRemove : List uint256) : CTxMemPool :=
  pool.removeStaged (txToRemove.foldl pool.calculateDescendants [])

def removeRecursive (origTx : CTransaction) : CTxMemPool :=
  pool.removeWithDescendants <|
    if pool.mapTx.count origTx.hash then [origTx.hash]
    else origTx.outputs.filterMap fun e => (pool.nextTx e.1).map CTransaction.hash

/-- `removeForReorg`, for the transactions that are not final any more or spend a coinbase that is
not mature. -/
def removeForReorg (stale : CTransaction → Bool) : CTxMemPool :=
  pool.removeWithDescendants ((pool.txs.filter stale).map CTransaction.hash)

/-- A round of `removeConflicts`. -/
def removeConflict (tx : CTransaction) (pool : CTxMemPool) (txin : CTxIn) : CTxMemPool :=
  match pool.nextTx txin.prevout with
  | some txConflict =>
    if txConflict.hash = tx.hash then pool else pool.removeRecursive txConflict
  | none => pool

def removeConflicts (tx : CTransaction) : CTxMemPool := tx.vin.foldl (removeConflict tx) pool

/-- A transaction that goes because of a block, and what conflicts with it. -/
def removeForTx (pool : CTxMemPool) (tx : CTransaction) : CTxMemPool :=
  (if pool.mapTx.count tx.hash then pool.removeStaged [tx.hash] else pool).removeConflicts tx

/-! ## A block -/

section Block

variable (env : Env) (st : AssetState) (coinsTip : CCoinsView)

/-- Collects a transaction, unless `setAlreadyRemoving` has it. -/
def collect (fails : CTransaction → Bool) (trans : List CTransaction) (hash : uint256) :
    List CTransaction :=
  match pool.mapTx.find? hash with
  | none => trans
  | some tx =>
    if !(trans.map CTransaction.hash).contains hash && fails tx then trans ++ [tx] else trans

def collectAll {α : Type} [DecidableEq α] (fails : CTransaction → Bool)
    (index : StdMap α (StdMap uint256 Unit)) (items : List α) (trans : List CTransaction) :
    List CTransaction :=
  (items.flatMap fun a => ((index.find? a).map StdMap.keys).getD []).foldl
    (pool.collect fails) trans

/-- The test of a transaction against a change of a verifier, a tag or a global freeze.  What looks
like the asset cache is the flag for the check of duplicate inputs, so **no** cache is read. -/
def failsCheckTransaction (tx : CTransaction) : Bool :=
  !(checkTransaction env tx true false false).isOk

/-- The test of a transaction against the freeze of an address. -/
def failsCheckTxAssets (tx : CTransaction) : Bool :=
  !(checkTxAssets env st .empty tx coinsTip none pool.mapReissuedAssets).isOk

/-- The transactions that the assets of a connected block invalidate. -/
def invalidated (data : CAssetsCache) : List CTransaction :=
  let trans := data.newAssets.toAdd.keys.filterMap fun name =>
    (pool.mapAssetToHash.find? name).bind pool.mapTx.find?
  let trans := pool.collectAll (failsCheckTransaction env) pool.assetVerifierChanged.forward
    data.newRestrictedVerifier.toAdd.keys trans
  let trans := pool.collectAll (failsCheckTransaction env) pool.addressesQualifiersChanged.forward
    (data.newQualifierAddress.toAdd.keys.map Prod.snd) trans
  let trans := data.newRestrictedGlobal.toAdd.entries.foldl (fun trans e => match e.2 with
    | .GLOBAL_FREEZE =>
      pool.collectAll (fun _ => true) pool.globalFreezingAssetTransactions.forward [e.1]
        (pool.collectAll (failsCheckTransaction env) pool.assetMarkedGlobalFrozen.forward [e.1]
          trans)
    | .GLOBAL_UNFREEZE =>
      pool.collectAll (fun _ => true) pool.globalUnFreezingAssetTransactions.forward [e.1] trans
    | _ => trans) trans
  pool.collectAll (pool.failsCheckTxAssets env st coinsTip) pool.addressesMarkedFrozen.forward
    ((data.newRestrictedAddress.toAdd.entries.filter fun e => e.2 == .FREEZE_ADDRESS).map
      fun e => (e.1.2, e.1.1)) trans

/-- `removeForBlock`, with the state and the coins after the block. -/
def removeForBlock (vtx : List CTransaction) (data : CAssetsCache) : CTxMemPool :=
  (pool.invalidated env st coinsTip data).foldl removeForTx (vtx.foldl removeForTx pool)

/-- What `ConnectTip` does to the maps of the reissues before that. -/
def clearReissue (pool : CTxMemPool) (tx : CTransaction) : CTxMemPool :=
  match pool.mapReissuedTx.find? tx.hash with
  | none => pool
  | some name =>
    { pool with
      mapReissuedAssets := pool.mapReissuedAssets.erase name
      mapReissuedTx := pool.mapReissuedTx.erase tx.hash }

/-- What `ConnectTip` does to the mempool. -/
def connectTip (vtx : List CTransaction) (data : CAssetsCache) : CTxMemPool :=
  (vtx.foldl clearReissue pool).removeForBlock env st coinsTip vtx data

end Block

/-! ## Accepting -/

def addUnchecked (tx : CTransaction) : CTxMemPool :=
  { pool with mapTx := pool.mapTx.assign tx.hash tx }

/-- The reissues of a transaction; an entry that is there already stays. -/
def addReissues (vReissueAssets : List (Bytes × uint256)) : CTxMemPool :=
  vReissueAssets.foldl (fun pool out =>
    { pool with
      mapReissuedAssets := pool.mapReissuedAssets.emplace out.1 out.2
      mapReissuedTx := pool.mapReissuedTx.emplace out.2 out.1 }) pool

section Accept

variable (env : Env) (hash : uint256)

/-- The asset of an output: a new name, and the restricted assets that tags and verifiers can
invalidate. -/
def trackAsset (data : CAssetOutputEntry) : CTxMemPool :=
  let pool :=
    if data.type == .TX_NEW_ASSET && !isAssetNameAnOwner data.assetName then
      { pool with
        mapAssetToHash := pool.mapAssetToHash.assign data.assetName hash
        mapHashToAsset := pool.mapHashToAsset.assign hash data.assetName }
    else pool
  if env.dep.areRestrictedAssetsDeployed && isAssetNameAnRestricted data.assetName then
    { pool with
      addressesQualifiersChanged :=
        pool.addressesQualifiersChanged.link (encodeDestination env data.destination) hash
      assetVerifierChanged := pool.assetVerifierChanged.link data.assetName hash }
  else pool

/-- A global freeze, of which the mempool takes one for each asset. -/
def trackGlobal (data : CNullAssetTxData) : Except String CTxMemPool :=
  if data.flag = 1 then
    if pool.globalFreezingAssetTransactions.forward.count data.asset_name then
      .error "bad-txns-global-freeze-already-in-mempool"
    else .ok { pool with
      globalFreezingAssetTransactions :=
        pool.globalFreezingAssetTransactions.link data.asset_name hash }
  else if data.flag = 0 then
    if pool.globalUnFreezingAssetTransactions.forward.count data.asset_name then
      .error "bad-txns-global-unfreeze-already-in-mempool"
    else .ok { pool with
      globalUnFreezingAssetTransactions :=
        pool.globalUnFreezingAssetTransactions.link data.asset_name hash }
  else .ok pool

/-- A tag, of which the mempool takes one change for each address. -/
def trackTag (data : CNullAssetTxData) (address : Bytes) : Except String CTxMemPool :=
  if !isAssetNameAQualifier data.asset_name false then .ok pool
  else if data.flag = 1 then
    if pool.addressAddedTag.forward.count (address, data.asset_name) then
      .error "bad-txns-adding-tag-already-in-mempool"
    else .ok { pool with
      addressAddedTag := pool.addressAddedTag.link (address, data.asset_name) hash }
  else
    if pool.addressRemoveTag.forward.count (address, data.asset_name) then
      .error "bad-txns-remove-tag-already-in-mempool"
    else .ok { pool with
      addressRemoveTag := pool.addressRemoveTag.link (address, data.asset_name) hash }

def trackOutput (out : CTxOut) : Except String CTxMemPool :=
  if out.scriptPubKey.isAssetScript.isSome then
    match getAssetData env out.scriptPubKey with
    | none => .ok pool
    | some data => .ok (pool.trackAsset env hash data)
  else if out.scriptPubKey.isNullGlobalRestrictionAssetTxDataScript then
    match globalAssetNullDataFromScript out.scriptPubKey with
    | none => .ok pool
    | some data => pool.trackGlobal hash data
  else if out.scriptPubKey.isNullAssetTxDataScript then
    match assetNullDataFromScript env out.scriptPubKey with
    | none => .ok pool
    | some (data, address) => pool.trackTag hash data address
  else .ok pool

/-- The loop over the outputs.  Where it stops, what it has stored so far **stays**. -/
def trackOutputs : CTxMemPool → List CTxOut → CTxMemPool × Verdict
  | pool, [] => (pool, .ok ())
  | pool, out :: vout =>
    match pool.trackOutput env hash out with
    | .error reason => (pool, .error reason)
    | .ok pool => trackOutputs pool vout

/-- The restricted asset of an input, if the coin is one of the tip. -/
def trackInput (coinsTip : CCoinsView) (pool : CTxMemPool) (txin : CTxIn) : CTxMemPool :=
  match coinsTip.find? txin.prevout with
  | none => pool
  | some coin =>
    match getAssetData env coin.out.scriptPubKey with
    | none => pool
    | some data =>
      if isAssetNameAnRestricted data.assetName then
        { pool with
          assetMarkedGlobalFrozen := pool.assetMarkedGlobalFrozen.link data.assetName hash
          addressesMarkedFrozen := pool.addressesMarkedFrozen.link
            (encodeDestination env data.destination, data.assetName) hash }
      else pool

end Accept

/-- What acceptance reads besides the mempool. -/
structure AcceptContext where
  dep : Deployments
  st : AssetState
  coinsTip : CCoinsView
  nSpendHeight : ℕ
  /-- The other checks: standard, final, the fees, the scripts. -/
  passes : CTxMemPool → CTransaction → Bool
  allConflicting : List uint256
  /-- The transactions that `LimitMempoolSize` removes. -/
  trimmed : List uint256

def AcceptContext.env (ctx : AcceptContext) (env : Env) : Env := { env with dep := ctx.dep }

/-- The checks of `AcceptToMemoryPoolWorker`: the reissues of the transaction. -/
def checkAccept (env : Env) (ctx : AcceptContext) (tx : CTransaction) :
    Except String (List (Bytes × uint256)) := do
  checkTransaction env tx true true false
  require (!tx.isCoinBase) "coinbase"
  require (!pool.mapTx.count tx.hash) "txn-already-in-mempool"
  require (tx.vin.all fun txin => match pool.nextTx txin.prevout with
    | some txConflict => ctx.allConflicting.contains txConflict.hash
    | none => true) "txn-mempool-conflict"
  let view := pool.view ctx.coinsTip
  let _ ← checkTxInputs env tx view ctx.nSpendHeight
  onlyIf (!env.dep.areAssetsDeployed) (require (tx.vout.all fun out =>
    !out.scriptPubKey.isAssetScript.isSome) "bad-txns-contained-asset-when-not-active")
  let vReissueAssets ← if env.dep.areAssetsDeployed then
      checkTxAssets env ctx.st .empty tx view (some pool.mapAssetToHash) pool.mapReissuedAssets
    else .ok []
  require (ctx.passes pool tx) "rejected"
  return vReissueAssets

/-- `AcceptToMemoryPoolWorker`: the mempool after it, and the verdict. -/
def acceptToMemoryPool (env : Env) (ctx : AcceptContext) (tx : CTransaction) :
    CTxMemPool × Verdict :=
  match pool.checkAccept env ctx tx with
  | .error reason => (pool, .error reason)
  | .ok vReissueAssets =>
    let pool := ((pool.removeStaged ctx.allConflicting).addUnchecked tx).removeStaged ctx.trimmed
    if !pool.mapTx.count tx.hash then (pool, .error "mempool full")
    else
      let pool := pool.addReissues vReissueAssets
      let (pool, verdict) := if env.dep.areAssetsDeployed then
          pool.trackOutputs env tx.hash tx.vout
        else (pool, .ok ())
      match verdict with
      | .error reason => (pool, .error reason)
      | .ok () =>
        (if env.dep.areRestrictedAssetsDeployed then
          tx.vin.foldl (trackInput env tx.hash ctx.coinsTip) pool
        else pool, .ok ())

end CTxMemPool

/-! ## Steps -/

inductive PoolEvent where
  | accept (ctx : CTxMemPool.AcceptContext) (tx : CTransaction)
  | removeUnchecked (hash : uint256)
  | removeForReorg (stale : CTransaction → Bool)
  | connectTip (dep : Deployments) (st : AssetState) (coinsTip : CCoinsView)
    (vtx : List CTransaction) (data : CAssetsCache)

def poolStep (env : Env) (pool : CTxMemPool) : PoolEvent → Option CTxMemPool
  | .accept ctx tx =>
    match pool.acceptToMemoryPool (ctx.env env) ctx tx with
    | (pool, .ok ()) => some pool
    | (_, .error _) => none
  | .removeUnchecked hash =>
    if pool.mapTx.count hash then some (pool.removeUnchecked hash) else none
  | .removeForReorg stale => some (pool.removeForReorg stale)
  | .connectTip dep st coinsTip vtx data =>
    some (pool.connectTip { env with dep := dep } st coinsTip vtx data)

def poolMachine (env : Env) : Machine CTxMemPool PoolEvent := ⟨poolStep env⟩

/-- The step of a call, which may leave a transaction in the mempool **and** refuse it. -/
def callStep (env : Env) (pool : CTxMemPool) : PoolEvent → Option CTxMemPool
  | .accept ctx tx => some (pool.acceptToMemoryPool (ctx.env env) ctx tx).1
  | e => poolStep env pool e

def callMachine (env : Env) : Machine CTxMemPool PoolEvent := ⟨callStep env⟩

end UnemployCoin
