import UnemployCoin.ConnectBlock
/-!
# `DisconnectBlock`

Undoing a block on the coins and on a local asset cache (`validation.cpp`).  A result of
`DISCONNECT_FAILED` is a failure here; otherwise the result says whether the undo was clean, and
`DisconnectTip` goes on only if it was.
-/

namespace UnemployCoin

open Check CAssetsCache

/-- `COutPoint`s of one block, at most. -/
def MAX_OUTPUTS_PER_BLOCK : ℕ := getMaxBlockWeight / (WITNESS_SCALE_FACTOR * 9)

def accessByTxid (view : CCoinsView) (txid : uint256) : Option Coin :=
  (List.range MAX_OUTPUTS_PER_BLOCK).findSome? fun n => view.find? ⟨txid, n⟩

/-- The outputs of a transaction are spent, and match what the block has. -/
def unspendOutputs (env : Env) (tx : CTransaction) (nHeight : ℕ) (view : CCoinsView) :
    CCoinsView × Bool :=
  tx.outputs.foldl (fun (view, fClean) (out, txout) =>
    if txout.scriptPubKey.isUnspendable then (view, fClean)
    else
      let (view, coin, is_spent) := view.spendCoin env out
      (view, fClean && is_spent && decide (coin = some ⟨txout, tx.isCoinBase, nHeight⟩)))
    (view, true)

/-- `UndoAssetCoin` finds an asset that it can put back. -/
def undoAssetCoin (env : Env) (coin : Coin) : Bool :=
  match getAssetData env coin.out.scriptPubKey with
  | some data =>
    !data.assetName.isEmpty && !(addressOf env coin.out.scriptPubKey).isEmpty && data.nAmount != 0
  | none => false

def applyTxInUndo (env : Env) (view : CCoinsView) (undo : Coin) (out : COutPoint) :
    Except String (CCoinsView × Bool) := do
  let fClean := !view.count out
  let coin ← if undo.nHeight = 0 then do
      let alternate ← demand (accessByTxid view out.hash) "missing undo metadata"
      pure { undo with nHeight := alternate.nHeight, fCoinBase := alternate.fCoinBase }
    else pure undo
  let view ← view.addCoin out coin (!fClean)
  return (view, fClean &&
    (!(env.dep.areAssetsDeployed && undo.isAsset) || undoAssetCoin env undo))

def restoreInputs (env : Env) (vin : List CTxIn) (txundo : CTxUndo) (view : CCoinsView) :
    Except String (CCoinsView × Bool) := do
  require (decide (txundo.length = vin.length)) "transaction and undo data inconsistent"
  (vin.zip txundo).reverse.foldlM (fun (view, fClean) (txin, undo) => do
    let (view, clean) ← applyTxInUndo env view undo txin.prevout
    return (view, fClean && clean)) (view, true)

/-! ## Assets -/

section Assets

variable (env : Env) (st : AssetState)

/-- `RemoveNewAsset` of an asset that is there. -/
def undoNewAsset (cache : CAssetsCache) (record : WithAddress CNewAsset) :
    Except String CAssetsCache :=
  if cache.checkIfAssetExists env st record.1.strName then
    demand (cache.removeNewAsset env st record.1 record.2) "Failed to Remove Asset"
  else .ok cache

def undoNewAssetOf (record : Option (WithAddress CNewAsset)) (cache : CAssetsCache) :
    Except String CAssetsCache := do
  let record ← demand record "Failed to get asset from transaction"
  undoNewAsset env st cache record

/-- The last verifier string of a transaction; there is none before the restricted assets are
active. -/
def verifierToUndo (tx : CTransaction) : Except String Bytes := do
  require env.dep.areRestrictedAssetsDeployed "Failed to find the restricted asset verifier string"
  let out ← demand tx.verifierOutputs.getLast?
    "Failed to find the restricted asset verifier string"
  let verifier ← demand (assetNullVerifierDataFromScript out.scriptPubKey)
    "Failed to get the restricted asset verifier string"
  return verifier.verifier_string

/-- The branch of `DisconnectBlock` for a reissue. -/
def undoReissueOf (vUndoData : List (Bytes × CBlockAssetUndo)) (tx : CTransaction)
    (cache : CAssetsCache) : Except String CAssetsCache := do
  let (reissue, strAddress) ← demand (tx.reissueAssetFromTransaction env)
    "Failed to get reissue asset from transaction"
  if cache.checkIfAssetExists env st reissue.strName then
    demand (cache.removeReissueAsset env st reissue strAddress ⟨tx.hash, tx.vout.length - 1⟩
      vUndoData) "Failed to Undo Reissue Asset"
  else .ok cache

/-- What `DisconnectBlock` undoes for the asset transaction that the transaction is. -/
def removeAssets (vUndoData : List (Bytes × CBlockAssetUndo)) (tx : CTransaction)
    (cache : CAssetsCache) : Except String CAssetsCache :=
  match tx.assetTxKind env with
  | .newAsset => do
    let cache ← undoNewAssetOf env st (tx.assetFromTransaction env) cache
    let _ ← demand (tx.ownerFromTransaction env) "Failed to get owner from transaction"
    return cache
  | .reissue => undoReissueOf env st vUndoData tx cache
  | .newUnique => (uniqueRecords env tx).foldlM (undoNewAsset env st) cache
  | .newMsgChannel => undoNewAssetOf env st (tx.msgChannelAssetFromTransaction env) cache
  | .newQualifier => undoNewAssetOf env st (tx.qualifierAssetFromTransaction env) cache
  | .newRestricted => do
    let (asset, strAddress) ← demand (tx.restrictedAssetFromTransaction env)
      "Failed to get restricted asset from transaction"
    let cache ← undoNewAsset env st cache (asset, strAddress)
    let verifier ← verifierToUndo env tx
    return cache.removeRestrictedVerifier asset.strName verifier false
  | .other => .ok cache

/-- Every null asset output that is not a verifier can be read. -/
def checkNullCommands (tx : CTransaction) : Verdict :=
  forEach (fun out : CTxOut =>
    if out.scriptPubKey.isNullAssetTxDataScript then
      require (assetNullDataFromScript env out.scriptPubKey).isSome "Failed to get null asset data"
    else if out.scriptPubKey.isNullGlobalRestrictionAssetTxDataScript then
      require (globalAssetNullDataFromScript out.scriptPubKey).isSome
        "Failed to get global null asset data"
    else .ok ()) tx.vout

def checkTransfers (tx : CTransaction) : Verdict :=
  forEach (fun out : CTxOut =>
    require (!out.scriptPubKey.isScriptTransferAsset.isSome ||
        out.scriptPubKey.isUnspendable || (transferAssetFromScript env out.scriptPubKey).isSome)
      "Failed to get transfer asset from transaction") tx.vout

/-- The changes of `DisconnectBlock` to the asset cache for one transaction. -/
def downdateAssets (vUndoData : List (Bytes × CBlockAssetUndo)) (tx : CTransaction)
    (cache : CAssetsCache) : Except String CAssetsCache :=
  if env.dep.areAssetsDeployed then do
    let cache ← removeAssets env st vUndoData tx cache
    checkTransfers env tx
    onlyIf env.dep.areRestrictedAssetsDeployed (checkNullCommands env tx)
    return if env.dep.areRestrictedAssetsDeployed then
      (nullCommands env tx).foldl removeCommand cache
    else cache
  else .ok cache

end Assets

/-- The variables of the loop over the transactions. -/
structure DisconnectState where
  view : CCoinsView
  assetsCache : CAssetsCache
  fClean : Bool

section Disconnect

variable (env : Env) (st : AssetState) (nHeight : ℕ)

/-- One round of the loop over the transactions; the coinbase comes without undo data. -/
def disconnectTx (vUndoData : List (Bytes × CBlockAssetUndo)) (s : DisconnectState)
    (e : CTransaction × Option CTxUndo) : Except String DisconnectState := do
  let (view, fSpent) := unspendOutputs env e.1 nHeight s.view
  let assetsCache ← downdateAssets env st vUndoData e.1 s.assetsCache
  let (view, fRestored) ← match e.2 with
    | none => .ok (view, true)
    | some txundo => restoreInputs env e.1.vin txundo view
  return ⟨view, assetsCache, s.fClean && fSpent && fRestored⟩

def disconnectBlock (block : CBlock) (vtxundo : List CTxUndo)
    (vUndoData : List (Bytes × CBlockAssetUndo)) (view : CCoinsView) (assetsCache : CAssetsCache) :
    Except String DisconnectState := do
  require (decide (vtxundo.length + 1 = block.vtx.length)) "block and undo data inconsistent"
  (block.vtx.zip (none :: vtxundo.map some)).reverse.foldlM
    (disconnectTx env st nHeight vUndoData) ⟨view, assetsCache, true⟩

end Disconnect

variable {env : Env} {st : AssetState} {nHeight : ℕ} {block : CBlock} {vtxundo : List CTxUndo}
  {vUndoData : List (Bytes × CBlockAssetUndo)} {view : CCoinsView} {cache : CAssetsCache}

theorem disconnectTx_assetsCache {s s' : DisconnectState} {e : CTransaction × Option CTxUndo}
    (h : disconnectTx env st nHeight vUndoData s e = .ok s') :
    downdateAssets env st vUndoData e.1 s.assetsCache = .ok s'.assetsCache := by
  rw [disconnectTx] at h
  simp only at h
  rw [bind_ok] at h
  obtain ⟨assetsCache, hassets, h⟩ := h
  split at h
  · cases h
    exact hassets
  · rw [bind_ok] at h
    obtain ⟨restored, -, h⟩ := h
    cases h
    exact hassets

theorem disconnectBlock_history {I : List CTransaction → CAssetsCache → Prop} {s : DisconnectState}
    (hround : ∀ pre tx post cache cache', block.vtx.reverse = pre ++ tx :: post → I pre cache →
      downdateAssets env st vUndoData tx cache = .ok cache' → I (pre ++ [tx]) cache')
    (hI : I [] cache)
    (h : disconnectBlock env st nHeight block vtxundo vUndoData view cache = .ok s) :
    I block.vtx.reverse s.assetsCache := by
  rw [disconnectBlock, require_bind, decide_eq_true_eq] at h
  obtain ⟨hlen, hfold⟩ := h
  have hfst : (block.vtx.zip (none :: vtxundo.map some)).reverse.map Prod.fst =
      block.vtx.reverse := by
    rw [List.map_reverse, List.map_fst_zip (by simp [hlen])]
  rw [← hfst]
  refine foldlM_prefix_invariant (I := fun done (s : DisconnectState) =>
    I (done.map Prod.fst) s.assetsCache) ?_ ?_ hfold
  · rintro pre e post s s' hsplit hdone hstep
    rw [List.map_append, List.map_singleton]
    refine hround (pre.map Prod.fst) e.1 (post.map Prod.fst) _ _ ?_ hdone
      (disconnectTx_assetsCache hstep)
    rw [← hfst, hsplit, List.map_append, List.map_cons]
  · exact hI

theorem disconnectBlock_invariant {I : CAssetsCache → Prop} {s : DisconnectState}
    (hround : ∀ tx cache cache', tx ∈ block.vtx → I cache →
      downdateAssets env st vUndoData tx cache = .ok cache' → I cache')
    (hI : I cache)
    (h : disconnectBlock env st nHeight block vtxundo vUndoData view cache = .ok s) :
    I s.assetsCache := by
  rw [disconnectBlock, require_bind] at h
  refine foldlM_invariant (I := fun s : DisconnectState => I s.assetsCache) ?_ hI h.2
  intro s e s' hmem hs hstep
  exact hround e.1 _ _ (List.of_mem_zip (List.mem_reverse.1 hmem)).1 hs
    (disconnectTx_assetsCache hstep)

end UnemployCoin
