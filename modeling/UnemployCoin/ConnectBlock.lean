import UnemployCoin.CheckTxAssets
import UnemployCoin.Coins
/-!
# `ConnectBlock`

The checks of a block and the changes it makes (`validation.cpp`).  `BlockContext` holds what
connecting a block reads besides the block, the coins and the assets: the height, the state of
the mempool, and the checks that the asset rules have no part in.
-/

namespace UnemployCoin

open Check

structure CBlock where
  hash : uint256
  vtx : List CTransaction
  deriving DecidableEq, Repr

/-- The checks outside the model.  None of them reads an asset cache or the mempool. -/
structure ScriptRules where
  /-- `CheckBlockHeader`, the merkle root, the size limits and the legacy signature operations. -/
  checkBlockFormat : CBlock → Bool
  sequenceLocks : CTransaction → CCoinsView → ℕ → Bool
  getTransactionSigOpCost : CTransaction → CCoinsView → ℕ → ℕ
  checkInputs : CTransaction → CCoinsView → ℕ → Bool

/-- What the **mempool** maintains: the names its transactions issue, and their reissues. -/
structure MempoolState where
  mapAssetToHash : StdMap Bytes uint256
  mapReissuedTx : StdMap uint256 Bytes
  mapReissuedAssets : StdMap Bytes uint256

def MempoolState.empty : MempoolState := ⟨∅, ∅, ∅⟩

/-- The names that `CheckTxAssets` gets to see. -/
def MempoolState.names (mempool : MempoolState) (fCheckMempool : Bool) :
    Option (StdMap Bytes uint256) :=
  if fCheckMempool then some mempool.mapAssetToHash else none

/-- What `ConnectBlock` reads besides the block, the coins and the assets. -/
structure BlockContext where
  rules : ScriptRules
  nHeight : ℕ
  mempool : MempoolState

def MAX_BLOCK_SIGOPS_COST : ℕ := 80 * 1000

def getBlockSubsidy (nHeight : ℕ) (params : CChainParams) : CAmount :=
  let halvings := nHeight / params.nSubsidyHalvingInterval
  if 64 ≤ halvings then 0 else (5000 * COIN) >>> Int64.ofNat halvings

def checkBlock (env : Env) (rules : ScriptRules) (block : CBlock) : Verdict := do
  require (rules.checkBlockFormat block) "bad-blk-format"
  let (coinbase, txs) ← match block.vtx with
    | [] => .error "bad-blk-length"
    | coinbase :: txs => .ok (coinbase, txs)
  require coinbase.isCoinBase "bad-cb-missing"
  require (txs.all fun tx => !tx.isCoinBase) "bad-cb-multiple"
  forEach (fun tx => checkTransaction env tx true false true) block.vtx

/-! ## `ConnectBlock` -/

/-- The variables of the loop over the transactions. -/
structure ConnectState where
  view : CCoinsView
  assetsCache : CAssetsCache
  nFees : CAmount
  nSigOpsCost : ℕ
  vtxundo : List CTxUndo
  vUndoAssetData : List (Bytes × CBlockAssetUndo)

section Connect

variable (env : Env) (st : AssetState) (ctx : BlockContext)

/-- Assets and commands are not allowed before they are active. -/
def checkAssetsNotActive (tx : CTransaction) : Verdict :=
  forEach (fun out : CTxOut => do
    require (!out.scriptPubKey.isAssetScript.isSome) "bad-txns-assets-not-active"
    require (!out.scriptPubKey.isNullAsset) "bad-txns-null-data-assets-not-active") tx.vout

/-- The checks of a transaction that is not the coinbase, and the fees so far. -/
def checkConnectTx (s : ConnectState) (tx : CTransaction) : Except String CAmount := do
  let txfee ← checkTxInputs env tx s.view ctx.nHeight
  require (moneyRange (s.nFees + txfee)) "bad-txns-accumulated-fee-outofrange"
  onlyIf (!env.dep.areAssetsDeployed) (checkAssetsNotActive tx)
  onlyIf env.dep.areAssetsDeployed
    ((checkTxAssets env st s.assetsCache tx s.view (ctx.mempool.names false)
      ctx.mempool.mapReissuedAssets).map fun _ => ())
  require (ctx.rules.sequenceLocks tx s.view ctx.nHeight) "bad-txns-nonfinal"
  return s.nFees + txfee

/-- The fees after a transaction, which is checked unless it is the coinbase. -/
def feesAfter (s : ConnectState) (tx : CTransaction) : Except String CAmount :=
  if tx.isCoinBase then .ok s.nFees else checkConnectTx env st ctx s tx

def connectTx (blockHash : uint256) (s : ConnectState) (tx : CTransaction) :
    Except String ConnectState := do
  let nFees ← feesAfter env st ctx s tx
  let nSigOpsCost := s.nSigOpsCost + ctx.rules.getTransactionSigOpCost tx s.view ctx.nHeight
  require (decide (nSigOpsCost ≤ MAX_BLOCK_SIGOPS_COST)) "bad-blk-sigops"
  require (tx.isCoinBase || ctx.rules.checkInputs tx s.view ctx.nHeight)
    "block-validation-failed"
  let (view, txundo) ← s.view.update env tx ctx.nHeight
  let (assetsCache, undoAssetData) := updateAssets env st ctx.nHeight blockHash tx s.assetsCache
  return {
    view := view
    assetsCache := assetsCache
    nFees := nFees
    nSigOpsCost := nSigOpsCost
    vtxundo := if tx.isCoinBase then s.vtxundo else s.vtxundo ++ [txundo]
    vUndoAssetData := s.vUndoAssetData ++ undoAssetData.toList.filter fun e => !e.1.isEmpty }

/-- The coinbase takes no more than the fees and the subsidy. -/
def checkCoinbaseReward (nFees : CAmount) (coinbase : CTransaction) : Verdict := do
  let actual ← demand (coinbase.getValueOut env.dep.areEnforcedValuesDeployed)
    "GetValueOut: value out of range"
  require (decide (actual ≤ nFees + getBlockSubsidy ctx.nHeight env.params)) "bad-cb-amount"

/-- `ConnectBlock` on a view and an asset cache, with the undo data it records. -/
def connectBlock (block : CBlock) (view : CCoinsView) (assetsCache : CAssetsCache) :
    Except String ConnectState := do
  checkBlock env ctx.rules block
  let start : ConnectState := ⟨view, assetsCache, 0, 0, [], []⟩
  -- The transactions of the genesis block are not connected.
  if block.hash = env.params.hashGenesisBlock then return start
  else do
    let s ← block.vtx.foldlM (connectTx env st ctx block.hash) start
    forEach (checkCoinbaseReward env ctx s.nFees) (block.vtx.take 1)
    return s

end Connect

/-! ## What passes -/

variable {env : Env} {st : AssetState} {ctx : BlockContext} {s s' : ConnectState}
  {tx : CTransaction} {block : CBlock}

theorem checkConnectTx_ok {fees : CAmount} :
    checkConnectTx env st ctx s tx = .ok fees ↔
      ∃ txfee, checkTxInputs env tx s.view ctx.nHeight = .ok txfee ∧
        moneyRange (s.nFees + txfee) = true ∧
        (env.dep.areAssetsDeployed = false → checkAssetsNotActive tx = .ok ()) ∧
        (env.dep.areAssetsDeployed = true →
          ∃ v, checkTxAssets env st s.assetsCache tx s.view (ctx.mempool.names false)
            ctx.mempool.mapReissuedAssets = .ok v) ∧
        ctx.rules.sequenceLocks tx s.view ctx.nHeight = true ∧ s.nFees + txfee = fees := by
  rw [checkConnectTx, bind_ok]
  simp only [require_bind, onlyIf_bind, map_unit_ok, pure_ok, Bool.not_eq_true']

theorem connectTx_ok {blockHash : uint256}
    (h : connectTx env st ctx blockHash s tx = .ok s') :
    feesAfter env st ctx s tx = .ok s'.nFees ∧
      (∃ txundo, s.view.update env tx ctx.nHeight = .ok (s'.view, txundo)) ∧
      s'.assetsCache = (updateAssets env st ctx.nHeight blockHash tx s.assetsCache).1 ∧
      s'.vUndoAssetData = s.vUndoAssetData ++
        (updateAssets env st ctx.nHeight blockHash tx s.assetsCache).2.toList.filter
          fun e => !e.1.isEmpty := by
  rw [connectTx, bind_ok] at h
  obtain ⟨nFees, hfees, h⟩ := h
  simp only [require_bind] at h
  obtain ⟨-, -, h⟩ := h
  rw [bind_ok] at h
  obtain ⟨⟨view, txundo⟩, hview, h⟩ := h
  cases h
  exact ⟨hfees, ⟨txundo, hview⟩, rfl, rfl⟩

theorem checkBlock_ok {rules : ScriptRules}
    (h : checkBlock env rules block = .ok ()) :
    ∃ coinbase txs, block.vtx = coinbase :: txs ∧ coinbase.isCoinBase = true ∧
      (∀ tx ∈ txs, tx.isCoinBase = false) ∧
      ∀ tx ∈ block.vtx, checkTransaction env tx true false true = .ok () := by
  rw [checkBlock, require_bind] at h
  obtain ⟨-, h⟩ := h
  cases hvtx : block.vtx with
  | nil =>
    rw [hvtx] at h
    cases h
  | cons coinbase txs =>
    rw [hvtx] at h
    rw [bind_ok] at h
    obtain ⟨⟨coinbase', txs'⟩, heq, h⟩ := h
    cases heq
    simp only [require_bind, forEach_ok, List.all_eq_true, Bool.not_eq_true'] at h
    obtain ⟨hcoinbase, hothers, htxs⟩ := h
    exact ⟨coinbase, txs, rfl, hcoinbase, hothers, htxs⟩

theorem vin_of_checkTransaction (h : checkTransaction env tx true false true = .ok ()) :
    ∃ txin vin, tx.vin = txin :: vin := by
  rw [checkTransaction, require_bind] at h
  cases hvin : tx.vin with
  | nil =>
    rw [hvin] at h
    cases h.1
  | cons txin vin => exact ⟨txin, vin, rfl⟩

theorem connectBlock_ok {view : CCoinsView} {cache : CAssetsCache}
    (hgenesis : block.hash ≠ env.params.hashGenesisBlock)
    (h : connectBlock env st ctx block view cache = .ok s) :
    checkBlock env ctx.rules block = .ok () ∧
      block.vtx.foldlM (connectTx env st ctx block.hash) ⟨view, cache, 0, 0, [], []⟩ = .ok s ∧
      ∀ coinbase ∈ block.vtx.take 1, checkCoinbaseReward env ctx s.nFees coinbase = .ok () := by
  rw [connectBlock, unit_bind, if_neg hgenesis] at h
  obtain ⟨hblock, h⟩ := h
  rw [bind_ok] at h
  obtain ⟨s', hfold, h⟩ := h
  rw [unit_bind, pure_ok, forEach_ok] at h
  obtain ⟨hreward, rfl⟩ := h
  exact ⟨hblock, hfold, hreward⟩

end UnemployCoin
