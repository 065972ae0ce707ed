import UnemployCoin.CoinsUndo
import UnemployCoin.ReissueConflict
/-!
# The coins before a block

Connecting a block and disconnecting it gives the coins before it back, unless an output of the
coinbase has replaced a coin: `AddCoins` lets a coinbase do so, and no undo data has the coin.
The result is `DISCONNECT_OK` unless the block has an asset that `SpendCoin` cannot read, or
spends one that `UndoAssetCoin` does not take.
-/

namespace UnemployCoin

open Check

variable {env env' : Env} {view view' v w : CCoinsView} {tx : CTransaction} {nHeight : ℕ}

/-! ## The coins that a block spends -/

/-- The coin at an outpoint after some transactions, had none of them spent a coin: the last one
created there, or else the one of the view. -/
def coinAt (view : CCoinsView) (nHeight : ℕ) (txs : List CTransaction) (out : COutPoint) :
    Option Coin :=
  txs.foldl (fun coin tx => (tx.createdCoin nHeight out).or coin) (view.find? out)

theorem coinAt_append_singleton (view : CCoinsView) (nHeight : ℕ) (txs : List CTransaction)
    (tx : CTransaction) (out : COutPoint) : coinAt view nHeight (txs ++ [tx]) out =
      (tx.createdCoin nHeight out).or (coinAt view nHeight txs out) := by
  rw [coinAt, List.foldl_append]
  rfl

/-- Every coin of `v` is the one at its outpoint after some transactions. -/
def CoinsFrom (view : CCoinsView) (nHeight : ℕ) (txs : List CTransaction) (v : CCoinsView) : Prop :=
  ∀ out coin, v.find? out = some coin → coinAt view nHeight txs out = some coin

variable {txundo : CTxUndo} {vin : List CTxIn}

theorem spendInputs_ok
    (h : spendInputs env vin v = .ok (w, txundo)) :
    List.Forall₂ (fun txin coin => v.find? txin.prevout = some coin) vin txundo ∧
      ∀ out coin, w.find? out = some coin → v.find? out = some coin := by
  induction vin generalizing v txundo with
  | nil =>
    cases h
    exact ⟨.nil, fun _ _ hcoin => hcoin⟩
  | cons txin vin ih =>
    obtain ⟨coin, vprevout, rfl, hfind, hrest⟩ := spendInputs_cons h
    obtain ⟨hcoins, hless⟩ := ih hrest
    have herase : ∀ out coin', (v.erase txin.prevout).find? out = some coin' →
        v.find? out = some coin' := by
      intro out coin' hcoin'
      rw [StdMap.find?_erase] at hcoin'
      split at hcoin'
      · cases hcoin'
      · exact hcoin'
    refine ⟨.cons hfind (hcoins.imp fun _ _ hcoin => herase _ _ hcoin), ?_⟩
    exact fun out coin' hcoin' => herase out coin' (hless out coin' hcoin')

theorem all_undo_iff {P : Coin → Bool} {f : COutPoint → Option Coin}
    (h : List.Forall₂ (fun txin coin => f txin.prevout = some coin) vin txundo) :
    txundo.all P = true ↔ ∀ txin ∈ vin, ∀ coin, f txin.prevout = some coin → P coin = true := by
  induction h with
  | nil =>
    constructor
    · intro _ txin hmem
      cases hmem
    · exact fun _ => rfl
  | @cons txin coin vin txundo hcoin _ ih =>
    rw [List.all_cons, Bool.and_eq_true, ih, List.forall_mem_cons]
    refine and_congr_left fun _ => ?_
    constructor
    · intro hP coin' hcoin'
      rw [hcoin] at hcoin'
      cases hcoin'
      exact hP
    · exact fun hall => hall coin hcoin

variable {txs : List CTransaction}

theorem CoinsFrom.update
    (hv : CoinsFrom view nHeight txs v) (htx : tx.isCoinBase = false)
    (h : v.update env tx nHeight = .ok (w, txundo)) :
    List.Forall₂ (fun txin coin => coinAt view nHeight txs txin.prevout = some coin) tx.vin
        txundo ∧
      CoinsFrom view nHeight (txs ++ [tx]) w := by
  obtain ⟨v₁, hspend, hadd⟩ := update_other htx h
  obtain ⟨hcoins, hless⟩ := spendInputs_ok hspend
  refine ⟨hcoins.imp fun _ _ hcoin => hv _ _ hcoin, fun out coin hcoin => ?_⟩
  rw [find?_addOutputs hadd] at hcoin
  rw [coinAt_append_singleton]
  cases hcreated : tx.createdCoin nHeight out with
  | some coin' => rwa [hcreated] at hcoin
  | none =>
    rw [hcreated, Option.none_or] at hcoin
    rw [Option.none_or]
    exact hv out coin (hless out coin hcoin)

theorem coinsFrom_coinbase (h : view.addOutputs tx nHeight = .ok v) :
    CoinsFrom view nHeight [tx] v := by
  intro out coin hcoin
  rwa [find?_addOutputs h] at hcoin

variable {vtxundo : List CTxUndo}

theorem undoClean_iff {txs done : List CTransaction}
    (hv : CoinsFrom view nHeight done v) (htxs : ∀ tx ∈ txs, tx.isCoinBase = false)
    (h : v.updateAll env nHeight txs = .ok (w, vtxundo)) :
    ((txs.zip vtxundo).all fun e =>
        e.1.vout.all (canSpend env') && e.2.all (canRestore env')) = true ↔
      (∀ tx ∈ txs, tx.vout.all (canSpend env') = true) ∧
        ∀ pre tx post, txs = pre ++ tx :: post → ∀ txin ∈ tx.vin, ∀ coin,
          coinAt view nHeight (done ++ pre) txin.prevout = some coin →
            canRestore env' coin = true := by
  induction txs generalizing v vtxundo done with
  | nil =>
    constructor
    · intro _
      refine ⟨fun tx hmem => (nomatch hmem), ?_⟩
      intro pre tx post heq
      exact absurd heq.symm (List.append_ne_nil_of_right_ne_nil pre (List.cons_ne_nil tx post))
    · exact fun _ => rfl
  | cons tx txs ih =>
    rw [List.forall_mem_cons] at htxs
    obtain ⟨v₁, txundo, vtxundo', hupdate, hrest, rfl⟩ := updateAll_cons h
    obtain ⟨hcoins, hv₁⟩ := hv.update htxs.1 hupdate
    rw [htxs.1, if_neg Bool.false_ne_true, List.zip_cons_cons, List.all_cons, Bool.and_eq_true,
      Bool.and_eq_true, ih hv₁ htxs.2 hrest, all_undo_iff hcoins, List.forall_mem_cons]
    constructor
    · rintro ⟨⟨hout, hin⟩, houts, hins⟩
      refine ⟨⟨hout, houts⟩, ?_⟩
      intro pre tx' post heq txin hmem coin hcoin
      cases pre with
      | nil =>
        cases heq
        rw [List.append_nil] at hcoin
        exact hin txin hmem coin hcoin
      | cons tx'' pre =>
        cases heq
        refine hins pre tx' post rfl txin hmem coin ?_
        rwa [List.append_assoc, List.singleton_append]
    · rintro ⟨⟨hout, houts⟩, hins⟩
      refine ⟨⟨hout, ?_⟩, houts, ?_⟩
      · intro txin hmem coin hcoin
        refine hins [] tx txs rfl txin hmem coin ?_
        rwa [List.append_nil]
      · intro pre tx' post heq txin hmem coin hcoin
        refine hins (tx :: pre) tx' post (by rw [heq]; rfl) txin hmem coin ?_
        rwa [List.append_assoc, List.singleton_append] at hcoin

/-! ## The block -/

def CBlock.CoinbaseFirst (block : CBlock) : Prop :=
  ∃ coinbase txs, block.vtx = coinbase :: txs ∧ coinbase.isCoinBase = true ∧
    ∀ tx ∈ txs, tx.isCoinBase = false

/-- The asset half of `DisconnectBlock`, on the asset cache. -/
def undoAssets (env : Env) (st : AssetState) (vUndoData : List (Bytes × CBlockAssetUndo))
    (block : CBlock) (cache : CAssetsCache) : Except String CAssetsCache :=
  block.vtx.reverse.foldlM (fun cache tx => downdateAssets env st vUndoData tx cache) cache

/-- No output of the coinbase replaces a coin, and no asset of the block stands in the way of the
undo: each output can be read, and each coin that is spent is one that `UndoAssetCoin` takes. -/
structure Undoable (env : Env) (view : CCoinsView) (nHeight : ℕ) (block : CBlock) : Prop where
  fresh : ∀ coinbase ∈ block.vtx.take 1, ∀ out coin,
    coinbase.createdCoin nHeight out = some coin → view.find? out = none
  outputs : ∀ tx ∈ block.vtx, tx.vout.all (canSpend env) = true
  inputs : ∀ pre tx post, block.vtx = pre ++ tx :: post → tx.isCoinBase = false →
    ∀ txin ∈ tx.vin, ∀ coin, coinAt view nHeight pre txin.prevout = some coin →
      canRestore env coin = true

theorem disconnectCoins_eq (env' : Env) {coinbase : CTransaction}
    (hcoinbase : coinbase.isCoinBase = true)
    (htxs : ∀ tx ∈ txs, tx.isCoinBase = false) (hview : view.Valid) (hheight : 0 < nHeight)
    (h : view.updateAll env nHeight (coinbase :: txs) = .ok (view', vtxundo)) :
    vtxundo.length = txs.length ∧ ∃ w clean,
      ((coinbase :: txs).zip (none :: vtxundo.map some)).reverse.foldlM
        (disconnectTxCoins env' nHeight) (view', true) = .ok (w, clean) ∧
      (∀ out, w.find? out =
        if (coinbase.createdCoin nHeight out).isSome then none else view.find? out) ∧
      (clean = true ↔ (∀ tx ∈ coinbase :: txs, tx.vout.all (canSpend env') = true) ∧
        ∀ pre tx post, txs = pre ++ tx :: post → ∀ txin ∈ tx.vin, ∀ coin,
          coinAt view nHeight (coinbase :: pre) txin.prevout = some coin →
            canRestore env' coin = true) := by
  obtain ⟨v₁, txundo, vtxundo', hupdate, hrest, rfl⟩ := updateAll_cons h
  rw [if_pos hcoinbase]
  have hv₁ := hview.update hheight hupdate
  have hadd := update_coinbase hcoinbase hupdate
  have hfrom := coinsFrom_coinbase hadd
  obtain ⟨hlength, w₁, hfold, hsame⟩ :=
    disconnectTxs_eq env' hv₁ hheight htxs hrest (fun _ => rfl)
  obtain ⟨hclean, hfind⟩ := unspendOutputs_eq env' hadd hsame
  refine ⟨hlength, (unspendOutputs env' coinbase nHeight w₁).1,
    ((txs.zip vtxundo').all fun e =>
      e.1.vout.all (canSpend env') && e.2.all (canRestore env')) &&
        (unspendOutputs env' coinbase nHeight w₁).2, ?_, hfind, ?_⟩
  · rw [List.zip_cons_cons, List.reverse_cons, List.foldlM_append, hfold]
    rfl
  · rw [Bool.and_eq_true, undoClean_iff hfrom htxs hrest, hclean, List.forall_mem_cons]
    constructor
    · rintro ⟨⟨houts, hins⟩, hout⟩
      exact ⟨⟨hout, houts⟩, hins⟩
    · rintro ⟨⟨hout, houts⟩, hins⟩
      exact ⟨⟨houts, hins⟩, hout⟩

theorem getAssetAmount_of_data {s : CScript} {data : CAssetOutputEntry}
    (hsize : env.dep.areTransferScriptsSizeDeployed = true)
    (h : getAssetData env s = some data) : getAssetAmountFromScript s = some data.nAmount := by
  unfold getAssetData at h
  split at h
  · cases h
  · rename_i index hs
    obtain ⟨⟨asset, address⟩, hrec, rfl⟩ := Option.map_eq_some_iff.1 h
    obtain ⟨i, hi, hread, -⟩ := recordFromScript_eq_some hrec
    have hindex : i = index := by
      have hasset := assetDataIndex_eq_some hi
      rw [hs] at hasset
      cases hasset
      rfl
    rw [hindex] at hread
    simp only [getAssetAmountFromScript, hs, hread, Option.map_some]
  · rename_i index hs
    obtain ⟨⟨asset, address⟩, hrec, rfl⟩ := Option.map_eq_some_iff.1 h
    simp only [getAssetAmountFromScript, hs]
  · rename_i fIsOwner index hs
    obtain ⟨⟨transfer, address⟩, hrec, rfl⟩ := Option.map_eq_some_iff.1 h
    obtain ⟨i, hi, hread, -⟩ := recordFromScript_eq_some hrec
    obtain ⟨j, hj, rfl⟩ := Option.map_eq_some_iff.1 hi
    have hindex : j = index := by
      have hasset := assetDataIndex_eq_some hj
      rw [hs] at hasset
      cases hasset
      rfl
    rw [if_pos hsize, hindex] at hread
    simp only [getAssetAmountFromScript, hs, hread, Option.map_some]
  · rename_i fIsOwner index hs
    obtain ⟨⟨reissue, address⟩, hrec, rfl⟩ := Option.map_eq_some_iff.1 h
    obtain ⟨i, hi, hread, -⟩ := recordFromScript_eq_some hrec
    have hindex : i = index := by
      have hasset := assetDataIndex_eq_some hi
      rw [hs] at hasset
      cases hasset
      rfl
    rw [hindex] at hread
    simp only [getAssetAmountFromScript, hs, hread, Option.map_some]
  · cases h

theorem canRestore_of_canSpend {coin : Coin} (hcoin : coin.Valid)
    (hsize : env.dep.areTransferScriptsSizeDeployed = true)
    (h : canSpend env coin.out = true) : canRestore env coin = true := by
  rw [canSpend, hcoin.spendable, Bool.false_or, Bool.or_eq_true] at h
  rw [canRestore, Bool.or_eq_true]
  rcases h with hactive | hspend
  · left
    rw [Bool.not_eq_true'] at hactive
    rw [hactive, Bool.false_and]
    rfl
  · rw [trySpendCoin, Bool.or_eq_true] at hspend
    rcases hspend with hasset | hdata
    · left
      rw [Bool.not_eq_true'] at hasset
      rw [Coin.isAsset, hasset, Bool.and_false]
      rfl
    · right
      cases hrec : getAssetData env coin.out.scriptPubKey with
      | none =>
        rw [hrec] at hdata
        cases hdata
      | some data =>
        rw [hrec] at hdata
        have hread : (!(addressOf env coin.out.scriptPubKey).isEmpty &&
            !data.assetName.isEmpty) = true := hdata
        rw [Bool.and_eq_true] at hread
        have hamount : (data.nAmount != 0) = true := by
          rw [bne_iff_ne]
          intro hzero
          have hunspendable := hcoin.spendable
          rw [CScript.isUnspendable, getAssetAmount_of_data hsize hrec, hzero, beq_self_eq_true,
            Bool.or_true] at hunspendable
          cases hunspendable
        simp only [undoAssetCoin, hrec, hread.1, hread.2, hamount, Bool.and_self]

theorem updateAll_of_connectTxs {st : AssetState} {ctx : BlockContext} {blockHash : uint256}
    {s s' : ConnectState}
    (h : txs.foldlM (connectTx env st ctx blockHash) s = .ok s') :
    ∃ vtxundo, s.view.updateAll env ctx.nHeight txs = .ok (s'.view, vtxundo) ∧
      s'.vtxundo = s.vtxundo ++ vtxundo := by
  induction txs generalizing s with
  | nil =>
    cases h
    exact ⟨[], rfl, (List.append_nil _).symm⟩
  | cons tx txs ih =>
    rw [List.foldlM_cons, bind_ok] at h
    obtain ⟨s₁, hstep, hrest⟩ := h
    obtain ⟨vtxundo, hupdates, hundo⟩ := ih hrest
    rw [connectTx, bind_ok] at hstep
    obtain ⟨nFees, -, hstep⟩ := hstep
    simp only [require_bind] at hstep
    obtain ⟨-, -, hstep⟩ := hstep
    rw [bind_ok] at hstep
    obtain ⟨⟨view₁, txundo⟩, hupdate, hstep⟩ := hstep
    cases hstep
    refine ⟨if tx.isCoinBase then vtxundo else txundo :: vtxundo, ?_, ?_⟩
    · rw [CCoinsView.updateAll, bind_ok]
      refine ⟨(view₁, txundo), hupdate, ?_⟩
      rw [bind_ok]
      exact ⟨(s'.view, vtxundo), hupdates, rfl⟩
    · rw [hundo]
      cases tx.isCoinBase with
      | true => rfl
      | false =>
        simp only [if_neg Bool.false_ne_true]
        rw [List.append_assoc, List.singleton_append]

theorem updateAll_of_connectBlock {st : AssetState} {ctx : BlockContext} {block : CBlock}
    {cache : CAssetsCache} {s : ConnectState} (hgenesis : block.hash ≠ env.params.hashGenesisBlock)
    (h : connectBlock env st ctx block view cache = .ok s) :
    block.CoinbaseFirst ∧ view.updateAll env ctx.nHeight block.vtx = .ok (s.view, s.vtxundo) := by
  obtain ⟨hblock, hfold, -⟩ := connectBlock_ok hgenesis h
  obtain ⟨coinbase, txs, hvtx, hcoinbase, htxs, -⟩ := checkBlock_ok hblock
  obtain ⟨vtxundo, hupdates, hundo⟩ := updateAll_of_connectTxs hfold
  rw [List.nil_append] at hundo
  rw [hundo]
  exact ⟨⟨coinbase, txs, hvtx, hcoinbase, htxs⟩, hupdates⟩

/-- **The inverse of `UpdateCoins`.**  `DisconnectBlock` goes through, is clean and restores the
coins before the block exactly when the block is undoable and its asset half goes through. -/
theorem disconnectBlock_restores_iff {st : AssetState} {block : CBlock} {vtxundo : List CTxUndo}
    {vUndoData : List (Bytes × CBlockAssetUndo)} {cache : CAssetsCache}
    (hblock : block.CoinbaseFirst) (hview : view.Valid) (hheight : 0 < nHeight)
    (h : view.updateAll env nHeight block.vtx = .ok (view', vtxundo)) :
    (∃ s, disconnectBlock env' st nHeight block vtxundo vUndoData view' cache = .ok s ∧
        s.fClean = true ∧ SameCoins s.view view) ↔
      Undoable env' view nHeight block ∧
        ∃ cache', undoAssets env' st vUndoData block cache = .ok cache' := by
  obtain ⟨coinbase, txs, hvtx, hcoinbase, htxs⟩ := hblock
  rw [hvtx] at h
  obtain ⟨hlength, w, clean, hcoins, hfind, hclean⟩ :=
    disconnectCoins_eq env' hcoinbase htxs hview hheight h
  have hsizes : vtxundo.length + 1 = block.vtx.length := by
    rw [hvtx, List.length_cons, hlength]
  -- The list of the loop, seen as the transactions of the block.
  have hfst : ((coinbase :: txs).zip (none :: vtxundo.map some)).reverse.map Prod.fst =
      block.vtx.reverse := by
    rw [List.map_reverse, List.map_fst_zip, hvtx]
    rw [List.length_cons, List.length_cons, List.length_map, hlength]
  have hundo : ∀ s, disconnectBlock env' st nHeight block vtxundo vUndoData view' cache = .ok s ↔
      (w, clean) = (s.view, s.fClean) ∧
        undoAssets env' st vUndoData block cache = .ok s.assetsCache := by
    intro s
    rw [disconnectBlock, require_bind, hsizes, hvtx, disconnectTxs_ok, hfst, undoAssets, hcoins,
      Except.ok.injEq]
    exact and_iff_right (decide_eq_true rfl)
  have hsame : SameCoins w view ↔
      ∀ out coin, coinbase.createdCoin nHeight out = some coin → view.find? out = none := by
    constructor
    · intro hsame out coin hcreated
      rw [← hsame out, hfind, hcreated]
      rfl
    · intro hfresh out
      rw [hfind]
      cases hcreated : coinbase.createdCoin nHeight out with
      | none => rw [Option.isSome_none, if_neg Bool.false_ne_true]
      | some coin => rw [Option.isSome_some, if_pos rfl, hfresh out coin hcreated]
  constructor
  · rintro ⟨s, hs, hcleanly, hsame'⟩
    obtain ⟨hpair, hassets⟩ := (hundo s).1 hs
    obtain ⟨rfl, rfl⟩ := Prod.mk.inj hpair
    obtain ⟨houts, hins⟩ := hclean.1 hcleanly
    refine ⟨⟨?_, ?_, ?_⟩, s.assetsCache, hassets⟩
    · intro coinbase' hmem
      rw [hvtx] at hmem
      obtain rfl := List.mem_singleton.1 hmem
      exact hsame.1 hsame'
    · rw [hvtx]
      exact houts
    · intro pre tx post heq htx
      rw [hvtx] at heq
      cases pre with
      | nil =>
        cases heq
        rw [hcoinbase] at htx
        cases htx
      | cons tx' pre =>
        cases heq
        exact hins pre tx post rfl
  · rintro ⟨⟨hfresh, houts, hins⟩, cache', hassets⟩
    rw [hvtx] at hfresh houts
    have hcleanly : clean = true := by
      refine hclean.2 ⟨houts, fun pre tx post heq => ?_⟩
      have htx : tx.isCoinBase = false :=
        htxs tx (by rw [heq]; exact List.mem_append_right _ List.mem_cons_self)
      exact hins (coinbase :: pre) tx post (by rw [hvtx, heq]; rfl) htx
    exact ⟨⟨w, cache', clean⟩, (hundo _).2 ⟨rfl, hassets⟩, hcleanly,
      hsame.2 (hfresh coinbase List.mem_cons_self)⟩

theorem canRestore_of_spendInputs
    (hsize : env.dep.areTransferScriptsSizeDeployed = true) (hv : v.Valid)
    (h : spendInputs env vin v = .ok (w, txundo)) : txundo.all (canRestore env) = true := by
  induction vin generalizing v txundo with
  | nil =>
    cases h
    rfl
  | cons txin vin ih =>
    have hspent := h
    obtain ⟨coin, vprevout, rfl, hfind, hrest⟩ := spendInputs_cons h
    have hcoin := hv _ _ hfind
    have hspend : canSpend env coin.out = true := by
      rw [spendInputs, CCoinsView.spendCoin, hfind] at hspent
      simp only at hspent
      split at hspent
      · rename_i heq
        have hflag := congrArg (fun r => r.2.2) heq
        rw [canSpend, hcoin.spendable, Bool.false_or]
        exact hflag
      · cases hspent
    rw [List.all_cons, canRestore_of_canSpend hcoin hsize hspend, Bool.true_and]
    exact ih (hv.erase txin.prevout) hrest

theorem canRestore_of_updateAll
    (hsize : env.dep.areTransferScriptsSizeDeployed = true) (hv : v.Valid) (hheight : 0 < nHeight)
    (htxs : ∀ tx ∈ txs, tx.isCoinBase = false)
    (h : v.updateAll env nHeight txs = .ok (w, vtxundo)) :
    ∀ txundo ∈ vtxundo, txundo.all (canRestore env) = true := by
  induction txs generalizing v vtxundo with
  | nil =>
    cases h
    exact fun txundo hmem => nomatch hmem
  | cons tx txs ih =>
    rw [List.forall_mem_cons] at htxs
    obtain ⟨v₁, txundo, vtxundo', hupdate, hrest, rfl⟩ := updateAll_cons h
    obtain ⟨v₀, hspend, -⟩ := update_other htxs.1 hupdate
    rw [htxs.1, if_neg Bool.false_ne_true, List.forall_mem_cons]
    exact ⟨canRestore_of_spendInputs hsize hv hspend,
      ih (hv.update hheight hupdate) htxs.2 hrest⟩

/-- Where nothing is deployed in between, the assets that a block **spends** never stand in the
way. -/
theorem undoable_iff {block : CBlock}
    (hsize : env.dep.areTransferScriptsSizeDeployed = true) (hblock : block.CoinbaseFirst)
    (hview : view.Valid) (hheight : 0 < nHeight)
    (h : view.updateAll env nHeight block.vtx = .ok (view', vtxundo)) :
    Undoable env view nHeight block ↔
      (∀ coinbase ∈ block.vtx.take 1, ∀ out coin,
        coinbase.createdCoin nHeight out = some coin → view.find? out = none) ∧
      ∀ tx ∈ block.vtx, tx.vout.all (canSpend env) = true := by
  refine ⟨fun hundo => ⟨hundo.fresh, hundo.outputs⟩, ?_⟩
  rintro ⟨hfresh, houts⟩
  obtain ⟨coinbase, txs, hvtx, hcoinbase, htxs⟩ := hblock
  rw [hvtx] at h houts
  refine ⟨hfresh, by rw [hvtx]; exact houts, ?_⟩
  obtain ⟨v₁, txundo, vtxundo', hupdate, hrest, -⟩ := updateAll_cons h
  have hundo := canRestore_of_updateAll hsize (hview.update hheight hupdate) hheight htxs hrest
  have hfrom := coinsFrom_coinbase (update_coinbase hcoinbase hupdate)
  have hall : ((txs.zip vtxundo').all fun e =>
      e.1.vout.all (canSpend env) && e.2.all (canRestore env)) = true := by
    rw [List.all_eq_true]
    intro e hmem
    obtain ⟨htx, htxundo⟩ := List.of_mem_zip hmem
    rw [Bool.and_eq_true]
    exact ⟨houts e.1 (List.mem_cons_of_mem coinbase htx), hundo e.2 htxundo⟩
  have hins := ((undoClean_iff hfrom htxs hrest).1 hall).2
  intro pre tx post heq htx
  rw [hvtx] at heq
  cases pre with
  | nil =>
    cases heq
    rw [hcoinbase] at htx
    cases htx
  | cons tx' pre =>
    cases heq
    exact hins pre tx post rfl

/-! ### Two blocks -/

theorem CCoinsView.Valid.empty : CCoinsView.Valid ∅ := by
  intro out coin hcoin
  rw [StdMap.find?_empty] at hcoin
  cases hcoin

theorem CCoinsView.Valid.assign {coin : Coin} (hv : v.Valid) (hcoin : coin.Valid)
    (out : COutPoint) : CCoinsView.Valid (StdMap.assign v out coin) := by
  intro out' coin' hfind
  rw [StdMap.find?_assign] at hfind
  split at hfind
  · cases hfind
    exact hcoin
  · exact hv out' coin' hfind

/-- The block with the reissue of `ROOT` is undone. -/
theorem reissueBlock_restored :
    ∃ view' vtxundo s,
      CCoinsView.updateAll reissueEnv 200 reissueBlock.vtx rootView = .ok (view', vtxundo) ∧
        disconnectBlock reissueEnv .genesis 200 reissueBlock vtxundo [] view' .empty = .ok s ∧
        s.fClean = true ∧ SameCoins s.view rootView := by
  have hupdates : (CCoinsView.updateAll reissueEnv 200 reissueBlock.vtx rootView).isOk = true := by
    decide +kernel
  have hassets : (undoAssets reissueEnv .genesis [] reissueBlock .empty).isOk = true := by
    decide +kernel
  have hvalid : rootView.Valid :=
    (CCoinsView.Valid.empty.assign ⟨by decide, by decide +kernel, by decide⟩ ⟨7, 0⟩).assign
      ⟨by decide, by decide +kernel, by decide⟩ ⟨7, 1⟩
  cases hr : CCoinsView.updateAll reissueEnv 200 reissueBlock.vtx rootView with
  | error e =>
    rw [hr] at hupdates
    cases hupdates
  | ok r =>
    cases ha : undoAssets reissueEnv .genesis [] reissueBlock .empty with
    | error e =>
      rw [ha] at hassets
      cases hassets
    | ok cache' =>
      have hblock : reissueBlock.CoinbaseFirst :=
        ⟨_, _, rfl, rfl, fun tx hmem => by rw [List.mem_singleton.1 hmem]; rfl⟩
      have hiff : (∃ s,
          disconnectBlock reissueEnv .genesis 200 reissueBlock r.2 [] r.1 .empty = .ok s ∧
            s.fClean = true ∧ SameCoins s.view rootView) ↔
          Undoable reissueEnv rootView 200 reissueBlock ∧
            ∃ cache', undoAssets reissueEnv .genesis [] reissueBlock .empty = .ok cache' :=
        disconnectBlock_restores_iff hblock hvalid (by decide) hr
      have hundoable : Undoable reissueEnv rootView 200 reissueBlock := by
        refine (undoable_iff rfl hblock hvalid (by decide) hr).2 ⟨?_, by decide +kernel⟩
        intro coinbase hmem out coin hcreated
        obtain rfl := List.mem_singleton.1 hmem
        obtain ⟨txout, hout, -⟩ := Option.map_eq_some_iff.1 hcreated
        obtain ⟨hmem, -⟩ := mem_of_spendableOutput hout
        obtain rfl := congrArg Prod.fst (List.mem_singleton.1 hmem)
        decide +kernel
      obtain ⟨s, hs⟩ := hiff.2 ⟨hundoable, cache', ha⟩
      exact ⟨r.1, r.2, s, rfl, hs⟩

/-- A coin at the outpoint of the coinbase of `replacingBlock`. -/
def replacedView : CCoinsView :=
  StdMap.assign ∅ ⟨9, 0⟩ ⟨⟨5000 * COIN, getScriptForKeyID (keyHash 1)⟩, true, 100⟩

def replacingBlock : CBlock := ⟨50, [coinbaseTx 9 (5000 * COIN)]⟩

/-- The block connects, and its undo is clean, but the coin of the older coinbase is **gone**. -/
theorem replacingBlock_loses :
    ∃ s s', connectBlock reissueEnv .genesis ⟨sampleRules, 200, .empty⟩ replacingBlock
        replacedView .empty = .ok s ∧
      disconnectBlock reissueEnv .genesis 200 replacingBlock s.vtxundo s.vUndoAssetData s.view
        s.assetsCache = .ok s' ∧
      s'.fClean = true ∧ replacedView.find? ⟨9, 0⟩ ≠ none ∧ s'.view.find? ⟨9, 0⟩ = none := by
  have hrun : ((connectBlock reissueEnv .genesis ⟨sampleRules, 200, .empty⟩ replacingBlock
      replacedView .empty).bind fun s =>
        (disconnectBlock reissueEnv .genesis 200 replacingBlock s.vtxundo s.vUndoAssetData
          s.view s.assetsCache).map fun s' => (s'.fClean, s'.view.find? ⟨9, 0⟩)) =
      .ok (true, none) := by
    decide +kernel
  obtain ⟨s, hs, hundo⟩ := bind_ok.1 hrun
  cases hdisconnect : disconnectBlock reissueEnv .genesis 200 replacingBlock s.vtxundo
      s.vUndoAssetData s.view s.assetsCache with
  | error e =>
    rw [hdisconnect] at hundo
    cases hundo
  | ok s' =>
    rw [hdisconnect] at hundo
    obtain ⟨hclean, hgone⟩ := Prod.mk.inj (Except.ok.inj hundo)
    exact ⟨s, s', hs, hdisconnect, hclean, by decide +kernel, hgone⟩

end UnemployCoin
