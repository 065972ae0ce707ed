import UnemployCoin.AssetUpdates
import UnemployCoin.Values
import Mathlib.Algebra.Order.BigOperators.Group.List
/-!
# Reissues stay within their bounds

A reissue adds to the amount of its asset and may raise its units; undoing it takes the same amount
back.  So what is found for an asset stays in range, and on a growing chain it only grows.
-/

namespace UnemployCoin

open Check CAssetsCache StdMap

variable {env : Env} {st : AssetState} {cache cache' : CAssetsCache} {tx : CTransaction}
  {name : Bytes} {nameOf : COutPoint → Bytes}

/-! ## One reissue -/

/-- The amount and the units of an asset are within their bounds. -/
structure InRange (asset : CNewAsset) : Prop where
  amount_nonneg : 0 ≤ asset.nAmount
  amount_le : asset.nAmount ≤ MAX_MONEY
  units_nonneg : 0 ≤ asset.units
  units_le : asset.units ≤ 8

structure Grows (a b : CNewAsset) : Prop where
  amount : a.nAmount ≤ b.nAmount
  units : a.units ≤ b.units
  final : a.nReissuable = 0 → b = a

theorem Grows.refl (a : CNewAsset) : Grows a a := ⟨Int64.le_refl _, Int8.le_refl _, fun _ => rfl⟩

theorem Grows.trans {a b c : CNewAsset} (h : Grows a b) (h' : Grows b c) : Grows a c := by
  refine ⟨Int64.le_trans h.amount h'.amount, Int8.le_trans h.units h'.units, fun hfinal => ?_⟩
  have hsame := h.final hfinal
  rw [h'.final (by rw [hsame]; exact hfinal), hsame]

variable {asset : CNewAsset}

theorem InRange.moneyRange (h : InRange asset) :
    moneyRange asset.nAmount = true := by
  rw [UnemployCoin.moneyRange, decide_eq_true h.amount_nonneg, decide_eq_true h.amount_le]
  rfl

theorem inRange_of_checkNewAsset (h : checkNewAsset asset = .ok ()) :
    InRange asset := by
  simp only [checkNewAsset, demand_bind, require_bind, require_ok, Bool.and_eq_true,
    decide_eq_true_eq] at h
  obtain ⟨-, -, -, -, -, -, -, -, -, hpos, hmax, hunits, -⟩ := h
  exact ⟨Int64.le_of_lt hpos, hmax, hunits.1, hunits.2⟩

/-- **A reissue that passes** adds its amount, and the asset grows within the bounds. -/
theorem reissue_grows {reissue : CReissueAsset}
    (h : contextualCheckReissueAsset env st cache reissue tx = .ok ())
    (hasset : assetOf st cache reissue.strName = some asset) (hrange : InRange asset) :
    InRange (applyReissue asset reissue) ∧ Grows asset (applyReissue asset reissue) ∧
      0 ≤ reissue.nAmount.toInt ∧
      (applyReissue asset reissue).nAmount.toInt = asset.nAmount.toInt + reissue.nAmount.toInt := by
  simp only [contextualCheckReissueAsset, demand_bind, unit_bind, require_ok] at h
  obtain ⟨-, -, hcheck, prev, hprev, hreissuable, hmax, -, hunits, -⟩ := h
  have hsame : prev.asset = asset := by
    rw [assetOf, hprev, Option.map_some, Option.some.injEq] at hasset
    exact hasset
  rw [hsame] at hreissuable hmax hunits
  simp only [checkReissueAsset, require_bind, require_ok, Bool.and_eq_true,
    decide_eq_true_eq] at hcheck
  obtain ⟨⟨hnonneg, hlt⟩, ⟨hunitsMax, hunitsMin⟩, -⟩ := hcheck
  rw [decide_eq_true_eq] at hmax
  rw [bne_iff_ne] at hreissuable
  rw [Bool.or_eq_true, decide_eq_true_eq, beq_iff_eq] at hunits
  have hmoney : moneyRange reissue.nAmount = true := by
    rw [moneyRange, decide_eq_true hnonneg, decide_eq_true (Int64.le_of_lt hlt)]
    rfl
  have hsum := toInt_add_of_moneyRange hrange.moneyRange hmoney
  have hnonneg' : 0 ≤ reissue.nAmount.toInt := by
    rw [Int64.le_iff_toInt_le] at hnonneg
    exact hnonneg
  have hamount : asset.nAmount ≤ asset.nAmount + reissue.nAmount := by
    rw [Int64.le_iff_toInt_le, hsum]
    omega
  -- The units after the reissue.
  have hnew : asset.units ≤ (applyReissue asset reissue).units ∧
      (applyReissue asset reissue).units ≤ 8 := by
    by_cases hkeep : reissue.nUnits = -1
    · rw [applyReissue, if_neg (not_not.2 hkeep)]
      exact ⟨Int8.le_refl _, hrange.units_le⟩
    · rw [applyReissue, if_pos hkeep]
      exact ⟨hunits.resolve_right hkeep, hunitsMax⟩
  refine ⟨⟨Int64.le_trans hrange.amount_nonneg hamount, hmax,
    Int8.le_trans hrange.units_nonneg hnew.1, hnew.2⟩, ⟨hamount, hnew.1, fun hfinal => ?_⟩,
    hnonneg', hsum⟩
  exact absurd hfinal hreissuable

def UnitsRecorded (vUndoData : List (Bytes × CBlockAssetUndo)) : Prop :=
  ∀ e ∈ vUndoData, 0 ≤ e.2.nUnits ∧ e.2.nUnits ≤ 8

variable {vUndoData : List (Bytes × CBlockAssetUndo)}

/-- **Undoing a reissue** of no more than the amount there is. -/
theorem undoReissue_inRange {reissue : CReissueAsset} (hrange : InRange asset)
    (hunits : UnitsRecorded vUndoData) (hnonneg : 0 ≤ reissue.nAmount.toInt)
    (hle : reissue.nAmount.toInt ≤ asset.nAmount.toInt) :
    InRange (undoReissue asset reissue (findUndoItem vUndoData name)) ∧
      (undoReissue asset reissue (findUndoItem vUndoData name)).nAmount.toInt =
        asset.nAmount.toInt - reissue.nAmount.toInt := by
  have hmoney : moneyRange reissue.nAmount = true := by
    rw [moneyRange_iff]
    exact ⟨hnonneg, hle.trans (moneyRange_iff.1 hrange.moneyRange).2⟩
  have hsub := toInt_sub_of_moneyRange hrange.moneyRange hmoney
  have hamount : 0 ≤ asset.nAmount - reissue.nAmount ∧
      asset.nAmount - reissue.nAmount ≤ MAX_MONEY := by
    have hmax := (moneyRange_iff.1 hrange.moneyRange).2
    rw [Int64.le_iff_toInt_le, Int64.le_iff_toInt_le, hsub, Int64.toInt_zero]
    omega
  cases hundo : findUndoItem vUndoData name with
  | none => exact ⟨⟨hamount.1, hamount.2, hrange.units_nonneg, hrange.units_le⟩, hsub⟩
  | some item =>
    obtain ⟨e, hfind, rfl⟩ := Option.map_eq_some_iff.1 hundo
    have hrecorded := hunits e (List.mem_of_find?_eq_some hfind)
    refine ⟨⟨hamount.1, hamount.2, ?_, ?_⟩, hsub⟩
    · rw [undoReissue]
      dsimp only
      split
      · exact hrecorded.1
      · exact hrange.units_nonneg
    · rw [undoReissue]
      dsimp only
      split
      · exact hrecorded.2
      · exact hrange.units_le

/-! ## Amounts -/

def amountOf (asset : Option CNewAsset) : ℤ := asset.elim 0 fun asset => asset.nAmount.toInt

def reissuedBy (env : Env) (name : Bytes) (tx : CTransaction) : ℤ :=
  if tx.assetTxKind env = .reissue ∧ (reissueOf env tx).1.strName = name then
    (reissueOf env tx).1.nAmount.toInt
  else 0

def reissuedIn (env : Env) (name : Bytes) (txs : List CTransaction) : ℤ :=
  (txs.map (reissuedBy env name)).sum

theorem reissuedIn_append (txs txs' : List CTransaction) :
    reissuedIn env name (txs ++ txs') = reissuedIn env name txs + reissuedIn env name txs' := by
  rw [reissuedIn, List.map_append, List.sum_append, reissuedIn, reissuedIn]

theorem reissuedIn_reverse (txs : List CTransaction) :
    reissuedIn env name txs.reverse = reissuedIn env name txs := by
  rw [reissuedIn, List.map_reverse, List.sum_reverse, reissuedIn]

def ReissuesNonneg (env : Env) (txs : List CTransaction) : Prop :=
  ∀ tx ∈ txs, tx.assetTxKind env = .reissue → 0 ≤ (reissueOf env tx).1.nAmount.toInt

variable {txs : List CTransaction}

theorem reissuedIn_nonneg (h : ReissuesNonneg env txs) :
    0 ≤ reissuedIn env name txs := by
  refine List.sum_nonneg fun x hx => ?_
  obtain ⟨tx, htx, rfl⟩ := List.mem_map.1 hx
  rw [reissuedBy]
  split
  · rename_i hand
    exact h tx htx hand.1
  · exact le_rfl

theorem amountOf_nonneg {asset : Option CNewAsset} (h : ∀ a, asset = some a → InRange a) :
    0 ≤ amountOf asset := by
  cases asset with
  | none => exact le_rfl
  | some a => exact (moneyRange_iff.1 (h a rfl).moneyRange).1

theorem reissuedBy_self (hkind : tx.assetTxKind env = .reissue) :
    reissuedBy env (reissueOf env tx).1.strName tx = (reissueOf env tx).1.nAmount.toInt := by
  rw [reissuedBy, if_pos ⟨hkind, rfl⟩]

theorem reissuedBy_ne (h : (reissueOf env tx).1.strName ≠ name) : reissuedBy env name tx = 0 := by
  rw [reissuedBy, if_neg fun hand => h hand.2]

theorem reissuedBy_of_kind (h : tx.assetTxKind env ≠ .reissue) : reissuedBy env name tx = 0 := by
  rw [reissuedBy, if_neg fun hand => h hand.1]

theorem reissuedIn_cons (txs : List CTransaction) :
    reissuedIn env name (tx :: txs) = reissuedBy env name tx + reissuedIn env name txs := by
  rw [reissuedIn, List.map_cons, List.sum_cons, reissuedIn]

theorem reissuedIn_concat (txs : List CTransaction) :
    reissuedIn env name (txs ++ [tx]) = reissuedIn env name txs + reissuedBy env name tx := by
  rw [reissuedIn_append, reissuedIn_cons, reissuedIn, reissuedIn, List.map_nil, List.sum_nil,
    add_zero]

def ReissuesNamed (env : Env) (nameOf : COutPoint → Bytes) (txs : List CTransaction) : Prop :=
  ∀ tx ∈ txs, tx.assetTxKind env = .reissue →
    nameOf tx.reissueOut = (reissueOf env tx).1.strName

/-! ## Connecting a block -/

/-- What the transactions connected so far have made of the assets. -/
structure ReissuesConnected (env : Env) (nameOf : COutPoint → Bytes) (st : AssetState)
    (txs : List CTransaction) (cache : CAssetsCache)
    (vUndoData : List (Bytes × CBlockAssetUndo)) : Prop where
  views : LocalViews nameOf st cache
  noRemoval : ∀ name, cache.newAssets.toRemove.count name = false
  range : ∀ name asset, assetOf st cache name = some asset → InRange asset
  items : ∀ name item, cache.newAssets.toAdd.find? name = some item →
    InRange item.asset ∧ ¬Known st .empty name
  grows : ∀ name asset, assetOf st .empty name = some asset →
    ∃ asset', assetOf st cache name = some asset' ∧ Grows asset asset'
  covers : ∀ name, amountOf (assetOf st .empty name) + reissuedIn env name txs ≤
    amountOf (assetOf st cache name)
  first : ∀ tx ∈ txs, ∀ name ∈ issuedNames env tx, ¬Known st .empty name
  nonneg : ReissuesNonneg env txs
  undo : UnitsRecorded vUndoData

theorem ReissuesConnected.empty (hst : StoredViews nameOf st)
    (hrange : ∀ name asset, assetOf st .empty name = some asset → InRange asset) :
    ReissuesConnected env nameOf st [] .empty [] where
  views := hst.localViews
  noRemoval _ := rfl
  range := hrange
  items _ _ h := by cases h
  grows _ asset h := ⟨asset, h, Grows.refl asset⟩
  covers name := by rw [reissuedIn, List.map_nil, List.sum_nil, add_zero]
  first _ h := nomatch h
  nonneg _ h := nomatch h
  undo _ h := nomatch h

theorem known_of_empty (hremove : cache.newAssets.toRemove.count name = false)
    (h : Known st .empty name) : Known st cache name := by
  obtain ⟨hbelow, hadded⟩ := known_empty.1 h
  exact ⟨hremove, hbelow, Or.inr hadded⟩

theorem ReissuesConnected.reissue {nHeight : ℤ} {blockHash : uint256}
    {mempoolNames : Option (StdMap Bytes uint256)}
    (hst : StoredViews nameOf st) (h : ReissuesConnected env nameOf st txs cache vUndoData)
    (htx : checkTransaction env tx true false true = .ok ())
    (hdep : env.dep.areAssetsDeployed = true) (hkind : tx.assetTxKind env = .reissue)
    (hout : nameOf tx.reissueOut = (reissueOf env tx).1.strName)
    (hcheck : contextualCheckAssetTx env st cache tx mempoolNames = .ok ()) :
    ReissuesConnected env nameOf st (txs ++ [tx])
      (updateAssets env st nHeight blockHash tx cache).1
      (vUndoData ++ (updateAssets env st nHeight blockHash tx cache).2.toList.filter
        fun e => !e.1.isEmpty) := by
  obtain ⟨reissue, address, data, hread, hreissue, hdata⟩ := reissue_of_contextualCheck hkind hcheck
  have hof : reissueOf env tx = (reissue, address) := by rw [reissueOf, hread, Option.getD_some]
  have hasset : assetOf st cache (reissueOf env tx).1.strName = some data.asset := by
    rw [hof, assetOf, hdata, Option.map_some]
  have hrange := h.range _ _ hasset
  rw [hof] at hasset
  obtain ⟨hrange', hgrows, hnonneg, hamount⟩ := reissue_grows hreissue hasset hrange
  have hreissue' : (reissueOf env tx).1 = reissue := by rw [hof]
  rw [← hreissue'] at hasset hrange' hgrows hnonneg hamount
  obtain ⟨hviews, hanswers⟩ := @updateAssets_reissue env st cache tx nameOf nHeight blockHash hst
    h.views htx hdep hkind hout _ hasset
  have hnew : (updateAssets env st nHeight blockHash tx cache).1.newAssets = cache.newAssets := by
    rw [updateAssets_newAssets htx, if_pos hdep, newRecords, hkind, List.foldl_nil]
  refine ⟨hviews, ?_, fun name asset hfound => ?_, ?_, fun name asset hfound => ?_, fun name => ?_,
    fun tx' htx' name hname => ?_, fun tx' htx' hkind' => ?_, fun e he => ?_⟩
  · rw [hnew]
    exact h.noRemoval
  · rw [hanswers] at hfound
    split at hfound
    · cases hfound
      exact hrange'
    · exact h.range name asset hfound
  · rw [hnew]
    exact h.items
  · obtain ⟨asset', hasset', hgrows'⟩ := h.grows name asset hfound
    rw [hanswers]
    by_cases hname : name = (reissueOf env tx).1.strName
    · subst hname
      rw [hasset, Option.some.injEq] at hasset'
      subst hasset'
      rw [if_pos rfl]
      exact ⟨_, rfl, hgrows'.trans hgrows⟩
    · rw [if_neg hname]
      exact ⟨asset', hasset', hgrows'⟩
  · have hcovers := h.covers name
    rw [reissuedIn_concat, hanswers]
    by_cases hname : name = (reissueOf env tx).1.strName
    · subst hname
      have hbefore : amountOf (assetOf st cache (reissueOf env tx).1.strName) =
          data.asset.nAmount.toInt := by rw [hasset]; rfl
      have hafter : amountOf (some (applyReissue data.asset (reissueOf env tx).1)) =
          data.asset.nAmount.toInt + (reissueOf env tx).1.nAmount.toInt := hamount
      rw [if_pos rfl, hafter, reissuedBy_self hkind]
      rw [hbefore] at hcovers
      omega
    · rw [if_neg hname, reissuedBy_ne (Ne.symm hname), add_zero]
      exact hcovers
  · rcases List.mem_append.1 htx' with hmem | hmem
    · exact h.first tx' hmem name hname
    · obtain rfl := List.mem_singleton.1 hmem
      obtain ⟨record, hrecord, -⟩ := (mem_issuedNames htx).1 hname
      rw [newRecords, hkind] at hrecord
      cases hrecord
  · rcases List.mem_append.1 htx' with hmem | hmem
    · exact h.nonneg tx' hmem hkind'
    · obtain rfl := List.mem_singleton.1 hmem
      exact hnonneg
  · rcases List.mem_append.1 he with hmem | hmem
    · exact h.undo e hmem
    · have hsome := Option.mem_toList.1 (List.mem_filter.1 hmem).1
      obtain ⟨-, -, -, -, hunits⟩ := addReissue_undo hasset (updateAssets_undo hsome).2
      rw [hunits]
      exact ⟨hrange.units_nonneg, hrange.units_le⟩

theorem ReissuesConnected.issue {nHeight : ℤ} {blockHash : uint256}
    (hst : StoredViews nameOf st) (h : ReissuesConnected env nameOf st txs cache vUndoData)
    (htx : checkTransaction env tx true false true = .ok ())
    (hkind : tx.assetTxKind env ≠ .reissue)
    (hnew : ∀ name ∈ issuedNames env tx, cache.checkIfAssetExists env st name = false) :
    ReissuesConnected env nameOf st (txs ++ [tx])
      (updateAssets env st nHeight blockHash tx cache).1
      (vUndoData ++ (updateAssets env st nHeight blockHash tx cache).2.toList.filter
        fun e => !e.1.isEmpty) := by
  obtain ⟨hviews, hanswers⟩ := @updateAssets_issue env st cache tx nameOf nHeight blockHash hst
    h.views htx hkind
  have hrecords : ∀ record ∈ newRecords env tx, InRange record.1 := fun record hrecord =>
    inRange_of_checkNewAsset (checkNewAsset_of_newRecords htx record hrecord)
  have hunknown : ∀ name, cache.checkIfAssetExists env st name = false → ¬Known st .empty name :=
    fun name hexists hknown =>
      not_known_of_not_exists hst hexists (known_of_empty (h.noRemoval name) hknown)
  have hzero : ∀ name, reissuedIn env name (txs ++ [tx]) = reissuedIn env name txs := by
    intro name
    rw [reissuedIn_concat, reissuedBy_of_kind hkind, add_zero]
  have hnone : (updateAssets env st nHeight blockHash tx cache).2 = none := by
    cases hundo : (updateAssets env st nHeight blockHash tx cache).2 with
    | none => rfl
    | some e => exact absurd (updateAssets_undo hundo).1 hkind
  have hfold := @updateAssets_newAssets env st cache tx _ _ _ nHeight blockHash htx
  refine ⟨hviews, fun name => ?_, fun name asset hfound => ?_, fun name item hfind => ?_,
    fun name asset hfound => ?_, fun name => ?_, fun tx' htx' name hname => ?_,
    fun tx' htx' hkind' => ?_, ?_⟩
  · rw [hfold]
    split
    · exact noRemoval_foldl_tryAddNewAsset h.noRemoval name
    · exact h.noRemoval name
  · rcases (hanswers name).2 with hsame | ⟨-, record, hrecord, -, hanswer⟩
    · exact h.range name asset (hsame.symm.trans hfound)
    · rw [hanswer] at hfound
      cases hfound
      exact hrecords record hrecord
  · rw [hfold] at hfind
    split at hfind
    · rcases toAdd_foldl_tryAddNewAsset hfind with hold | ⟨hexists, record, hrecord, -, rfl⟩
      · exact h.items name item hold
      · exact ⟨hrecords record hrecord, hunknown name hexists⟩
    · exact h.items name item hfind
  · obtain ⟨asset', hasset', hgrows⟩ := h.grows name asset hfound
    rcases (hanswers name).2 with hsame | ⟨hnot, -⟩
    · exact ⟨asset', hsame.trans hasset', hgrows⟩
    · exact absurd (known_of_assetOf hst h.views hasset') hnot
  · rw [hzero]
    refine (h.covers name).trans ?_
    rcases (hanswers name).2 with hsame | ⟨hnot, record, hrecord, -, hanswer⟩
    · rw [hsame]
    · rw [(assetOf_eq_none hst h.views).2 hnot, hanswer]
      exact (moneyRange_iff.1 (hrecords record hrecord).moneyRange).1
  · rcases List.mem_append.1 htx' with hmem | hmem
    · exact h.first tx' hmem name hname
    · obtain rfl := List.mem_singleton.1 hmem
      exact hunknown name (hnew name hname)
  · rcases List.mem_append.1 htx' with hmem | hmem
    · exact h.nonneg tx' hmem hkind'
    · obtain rfl := List.mem_singleton.1 hmem
      exact absurd hkind' hkind
  · rw [hnone]
    simpa using h.undo

variable {block : CBlock}

theorem ReissuesConnected.round {ctx : BlockContext} {s s' : ConnectState}
    (hst : StoredViews nameOf st)
    (h : ReissuesConnected env nameOf st txs s.assetsCache s.vUndoAssetData)
    (hcoinbase : CoinbaseWithoutAssets env block) (hnamed : ReissuesNamed env nameOf block.vtx)
    (hblock : checkBlock env ctx.rules block = .ok ()) (htx : tx ∈ block.vtx)
    (hround : connectTx env st ctx block.hash s tx = .ok s') :
    ReissuesConnected env nameOf st (txs ++ [tx]) s'.assetsCache s'.vUndoAssetData := by
  obtain ⟨-, -, -, -, -, htxs⟩ := checkBlock_ok hblock
  obtain ⟨-, -, hcache, hundo⟩ := connectTx_ok hround
  rw [hcache, hundo]
  by_cases hkind : tx.assetTxKind env = .reissue
  · obtain ⟨hdep, hcheck⟩ := (connectTx_kind hcoinbase hblock htx hround).resolve_left
      (by rw [hkind]; decide)
    exact h.reissue hst (htxs tx htx) hdep hkind (hnamed tx htx hkind) hcheck
  · refine h.issue hst (htxs tx htx) hkind fun name hname => ?_
    rcases connectTx_kind hcoinbase hblock htx hround with hother | ⟨-, hcheck⟩
    · exact absurd hname (issuedNames_of_kind hother (htxs tx htx))
    · obtain ⟨record, hrecord, rfl⟩ := (mem_issuedNames (htxs tx htx)).1 hname
      exact not_exists_of_newRecords hcheck hrecord

/-- **Connecting a block** whose coinbase is no asset transaction. -/
theorem connectBlock_reissues {view : CCoinsView} {ctx : BlockContext}
    {s : ConnectState} (hst : StoredViews nameOf st)
    (hrange : ∀ name asset, assetOf st .empty name = some asset → InRange asset)
    (hgenesis : block.hash ≠ env.params.hashGenesisBlock)
    (hcoinbase : CoinbaseWithoutAssets env block) (hnamed : ReissuesNamed env nameOf block.vtx)
    (h : connectBlock env st ctx block view .empty = .ok s) :
    ReissuesConnected env nameOf st block.vtx s.assetsCache s.vUndoAssetData := by
  obtain ⟨hblock, hfold, -⟩ := connectBlock_ok hgenesis h
  refine foldlM_prefix_invariant (I := fun txs (s : ConnectState) =>
    ReissuesConnected env nameOf st txs s.assetsCache s.vUndoAssetData) ?_
    (ReissuesConnected.empty hst hrange) hfold
  rintro pre tx post s s' hvtx hpre hround
  exact hpre.round hst hcoinbase hnamed hblock (by rw [hvtx]; simp) hround

/-! ## Disconnecting a block -/

/-- What undoing some transactions of a block has left of the assets. -/
structure ReissuesDisconnected (env : Env) (nameOf : COutPoint → Bytes) (st : AssetState)
    (block : CBlock) (below : Bytes → ℤ) (done : List CTransaction) (cache : CAssetsCache) :
    Prop where
  views : LocalViews nameOf st cache
  removals : LocalRemovals (blockNames env block) cache.newAssets
  range : ∀ name asset, assetOf st cache name = some asset → InRange asset
  quiet : ∀ name ∈ blockNames env block, cache.mapReissuedAssetData.find? name = none
  covers : ∀ name ∉ blockNames env block, below name + reissuedIn env name block.vtx ≤
    amountOf (assetOf st cache name) + reissuedIn env name done

/-- No reissue of a name is pending, or in the block, that the block issues. -/
def IssuesApartFromReissues (env : Env) (st : AssetState) (block : CBlock) : Prop :=
  ∀ name ∈ blockNames env block, st.passets.mapReissuedAssetData.find? name = none ∧
    ∀ tx ∈ block.vtx, tx.assetTxKind env = .reissue → (reissueOf env tx).1.strName ≠ name

section Disconnect

variable {block : CBlock} {below : Bytes → ℤ} {pre post : List CTransaction}
  {vUndoData : List (Bytes × CBlockAssetUndo)}

theorem ReissuesDisconnected.start (hst : StoredViews nameOf st)
    (hrange : ∀ name asset, assetOf st .empty name = some asset → InRange asset)
    (hcovers : ∀ name, below name + reissuedIn env name block.vtx ≤
      amountOf (assetOf st .empty name)) :
    ReissuesDisconnected env nameOf st block below [] .empty := by
  refine ⟨hst.localViews, ⟨fun _ => rfl, fun _ hname => nomatch hname⟩, hrange, fun _ _ => rfl,
    fun name _ => ?_⟩
  rw [reissuedIn, reissuedIn, List.map_nil, List.sum_nil, add_zero]
  exact hcovers name

theorem ReissuesDisconnected.reissue (hst : StoredViews nameOf st)
    (hapart : IssuesApartFromReissues env st block) (hbelow : ∀ name, 0 ≤ below name)
    (hnonneg : ReissuesNonneg env block.vtx) (hnamed : ReissuesNamed env nameOf block.vtx)
    (hunits : UnitsRecorded vUndoData) (hvtx : block.vtx.reverse = pre ++ tx :: post)
    (hkind : tx.assetTxKind env = .reissue)
    (h : ReissuesDisconnected env nameOf st block below pre cache)
    (hdown : downdateAssets env st vUndoData tx cache = .ok cache') :
    ReissuesDisconnected env nameOf st block below (pre ++ [tx]) cache' := by
  have htx : tx ∈ block.vtx := by
    rw [← List.mem_reverse, hvtx]
    simp
  have hnot : (reissueOf env tx).1.strName ∉ blockNames env block :=
    fun hmem => (hapart _ hmem).2 tx htx hkind rfl
  obtain ⟨hviews, hmap, hanswers⟩ :=
    downdateAssets_reissue hst h.views hkind (hnamed tx htx hkind) hdown
  have hamount := hnonneg tx htx hkind
  -- What is there covers this reissue and those that are still to be undone.
  have hrest : ∀ name, 0 ≤ reissuedIn env name post := by
    intro name
    refine reissuedIn_nonneg fun tx' htx' => hnonneg tx' ?_
    rw [← List.mem_reverse, hvtx]
    exact List.mem_append_right _ (List.mem_cons_of_mem _ htx')
  have hsplit : ∀ name, reissuedIn env name block.vtx =
      reissuedIn env name pre + (reissuedBy env name tx + reissuedIn env name post) := by
    intro name
    rw [← reissuedIn_reverse, hvtx, reissuedIn_append, reissuedIn_cons]
  refine ⟨hviews, h.removals.downdateAssets htx hdown, fun name asset hfound => ?_,
    fun name hname => ?_, fun name hname => ?_⟩
  · rcases hanswers with ⟨-, hsame⟩ | ⟨asset', hasset', hanswers⟩
    · exact h.range name asset ((hsame name).symm.trans hfound)
    · rw [hanswers] at hfound
      split at hfound
      · cases hfound
        have hcovers := h.covers _ hnot
        rw [hsplit, hasset', reissuedBy_self hkind] at hcovers
        have hafter := hrest (reissueOf env tx).1.strName
        have hzero := hbelow (reissueOf env tx).1.strName
        have hvalue : amountOf (some asset') = asset'.nAmount.toInt := rfl
        rw [hvalue] at hcovers
        exact (undoReissue_inRange (h.range _ _ hasset') hunits hamount (by omega)).1
      · exact h.range name asset hfound
  · have hne : name ≠ (reissueOf env tx).1.strName := by
      rintro rfl
      exact hnot hname
    rw [hmap name hne]
    exact h.quiet name hname
  · have hcovers := h.covers name hname
    rw [reissuedIn_concat]
    rcases hanswers with ⟨-, hsame⟩ | ⟨asset', hasset', hanswers⟩
    · rw [hsame]
      have hby : 0 ≤ reissuedBy env name tx := by
        rw [reissuedBy]
        split
        · exact hamount
        · exact le_rfl
      omega
    · rw [hanswers]
      by_cases heq : name = (reissueOf env tx).1.strName
      · subst heq
        have hvalue : amountOf (some asset') = asset'.nAmount.toInt := rfl
        rw [hasset', hvalue] at hcovers
        have hsplit' := hsplit (reissueOf env tx).1.strName
        have hafter := hrest (reissueOf env tx).1.strName
        have hzero := hbelow (reissueOf env tx).1.strName
        rw [reissuedBy_self hkind] at hsplit'
        have hundone := (@undoReissue_inRange (reissueOf env tx).1.strName asset' vUndoData
          (reissueOf env tx).1 (h.range _ _ hasset') hunits hamount (by omega)).2
        have hnew : amountOf (some (undoReissue asset' (reissueOf env tx).1
            (findUndoItem vUndoData (reissueOf env tx).1.strName))) =
              asset'.nAmount.toInt - (reissueOf env tx).1.nAmount.toInt := hundone
        rw [if_pos rfl, hnew, reissuedBy_self hkind]
        omega
      · rw [if_neg heq, reissuedBy_ne (Ne.symm heq), add_zero]
        exact hcovers

theorem ReissuesDisconnected.issue (hst : StoredViews nameOf st)
    (hapart : IssuesApartFromReissues env st block)
    (hvtx : block.vtx.reverse = pre ++ tx :: post) (hkind : tx.assetTxKind env ≠ .reissue)
    (h : ReissuesDisconnected env nameOf st block below pre cache)
    (hdown : downdateAssets env st vUndoData tx cache = .ok cache') :
    ReissuesDisconnected env nameOf st block below (pre ++ [tx]) cache' := by
  have htx : tx ∈ block.vtx := by
    rw [← List.mem_reverse, hvtx]
    simp
  have hissued : ∀ record ∈ newRecords env tx, record.1.strName ∈ blockNames env block :=
    fun record hrecord => ⟨tx, htx, issuedNames_of_newRecords hrecord⟩
  obtain ⟨hviews, hmap, hanswers⟩ := downdateAssets_issue hst h.views hkind
    (fun record hrecord =>
      ⟨h.quiet _ (hissued record hrecord), (hapart _ (hissued record hrecord)).1⟩)
    hdown
  refine ⟨hviews, h.removals.downdateAssets htx hdown, fun name asset hfound => ?_,
    fun name hname => ?_, fun name hname => ?_⟩
  · rw [hanswers] at hfound
    split at hfound
    · cases hfound
    · exact h.range name asset hfound
  · rw [hmap]
    exact h.quiet name hname
  · rw [reissuedIn_concat, reissuedBy_of_kind hkind, add_zero, hanswers, if_neg]
    · exact h.covers name hname
    · rintro ⟨-, record, hrecord, rfl⟩
      exact hname (hissued record hrecord)

/-- What disconnecting a block needs of the reissues. -/
structure DisconnectReady (env : Env) (nameOf : COutPoint → Bytes) (st : AssetState)
    (block : CBlock) (below : Bytes → ℤ) (vUndoData : List (Bytes × CBlockAssetUndo)) : Prop where
  range : ∀ name asset, assetOf st .empty name = some asset → InRange asset
  apart : IssuesApartFromReissues env st block
  below_nonneg : ∀ name, 0 ≤ below name
  nonneg : ReissuesNonneg env block.vtx
  named : ReissuesNamed env nameOf block.vtx
  units : UnitsRecorded vUndoData
  covers : ∀ name, below name + reissuedIn env name block.vtx ≤ amountOf (assetOf st .empty name)

theorem ReissuesDisconnected.round (hst : StoredViews nameOf st)
    (hready : DisconnectReady env nameOf st block below vUndoData)
    (hvtx : block.vtx.reverse = pre ++ tx :: post)
    (h : ReissuesDisconnected env nameOf st block below pre cache)
    (hdown : downdateAssets env st vUndoData tx cache = .ok cache') :
    ReissuesDisconnected env nameOf st block below (pre ++ [tx]) cache' := by
  by_cases hkind : tx.assetTxKind env = .reissue
  · exact h.reissue hst hready.apart hready.below_nonneg hready.nonneg hready.named hready.units
      hvtx hkind hdown
  · exact h.issue hst hready.apart hvtx hkind hdown

/-- **Disconnecting a block** whose issues are apart from reissues. -/
theorem disconnectBlock_reissues {nHeight : ℕ} {vtxundo : List CTxUndo} {view : CCoinsView}
    {s : DisconnectState} (hst : StoredViews nameOf st)
    (hready : DisconnectReady env nameOf st block below vUndoData)
    (h : disconnectBlock env st nHeight block vtxundo vUndoData view .empty = .ok s) :
    ReissuesDisconnected env nameOf st block below block.vtx.reverse s.assetsCache :=
  disconnectBlock_history (I := ReissuesDisconnected env nameOf st block below)
    (fun _ _ _ _ _ hvtx hpre hdown => hpre.round hst hready hvtx hdown)
    (ReissuesDisconnected.start hst hready.range hready.covers) h

end Disconnect

/-! ## A node -/

/-- A block of the chain issues no name that was reissued below it. -/
def IssuesFirst (env : Env) : List CBlock → Prop
  | [] => True
  | block :: chain =>
    (∀ name ∈ blockNames env block, reissuedIn env name (chainTxs chain) ≤ 0) ∧
      IssuesFirst env chain

structure ReissuesBounded (env : Env) (nameOf : COutPoint → Bytes) (n : Node) : Prop where
  views : StoredViews nameOf n.st
  range : ∀ name asset, assetOf n.st .empty name = some asset → InRange asset
  covers : ∀ name, reissuedIn env name (chainTxs n.chainActive) ≤
    amountOf (assetOf n.st .empty name)
  nonneg : ReissuesNonneg env (chainTxs n.chainActive)
  named : ReissuesNamed env nameOf (chainTxs n.chainActive)
  first : IssuesFirst env n.chainActive
  undo : UndoTracked (fun _ vUndoData => UnitsRecorded vUndoData) n

/-- The condition on a step.  No coinbase issues or reissues, and the output of a reissue tells the
name.  When a block that issues an asset is disconnected, no reissue of the asset is pending in
`passets`, or in the block. -/
def ReissueStep (env : Env) (nameOf : COutPoint → Bytes) (n : Node) : NodeEvent → Prop
  | .connectTip ctx block =>
    CoinbaseWithoutAssets (env.withTip ctx) block ∧ ReissuesNamed env nameOf block.vtx
  | .disconnectTip _ => ∀ block ∈ n.chainActive.head?, IssuesApartFromReissues env n.st block
  | .dump | .read _ => True

variable {n n' : Node}

theorem ReissuesBounded.genesis : ReissuesBounded env nameOf .genesis where
  views := StoredViews.genesis
  range _ _ h := by cases h
  covers _ := le_rfl
  nonneg _ h := nomatch h
  named _ h := nomatch h
  first := trivial
  undo := UndoTracked.genesis

variable {ctx : TipContext}

theorem ReissuesBounded.connected {s : ConnectState}
    (hn : ReissuesBounded env nameOf n) (he : ReissueStep env nameOf n (.connectTip ctx block))
    (hgenesis : block.hash ≠ env.params.hashGenesisBlock)
    (hs : connectBlock (env.withTip ctx) n.st ⟨ctx.rules, n.height + 1, ctx.mempool⟩ block n.view
      .empty = .ok s) :
    ReissuesConnected env nameOf n.st block.vtx s.assetsCache s.vUndoAssetData :=
  have hconnected : ReissuesConnected (env.withTip ctx) nameOf n.st block.vtx s.assetsCache
      s.vUndoAssetData := connectBlock_reissues hn.views hn.range hgenesis he.1 he.2 hs
  ⟨hconnected.views, hconnected.noRemoval, hconnected.range, hconnected.items, hconnected.grows,
    hconnected.covers, hconnected.first, hconnected.nonneg, hconnected.undo⟩

theorem ReissuesConnected.assetOf_flush
    {blockUndo : StdMap uint256 (List (Bytes × CBlockAssetUndo))} {st' : AssetState}
    (hst : StoredViews nameOf st) (h : ReissuesConnected env nameOf st txs cache vUndoData)
    (hst' : st' = { st with
      passets := cache.flushInto st.passets
      passetsdb := { st.passetsdb with blockUndo := blockUndo } }) :
    StoredViews nameOf st' ∧ ∀ name, assetOf st' .empty name =
      if st.passets.newAssets.toRemove.count name then
        (cache.newAssets.toAdd.find? name).map CAssetCacheNewAsset.asset
      else assetOf st cache name := by
  have hflush := hst.flush h.views
  have hviews : StoredViews nameOf st' := by
    rw [hst']
    exact hflush.congr rfl rfl rfl
  refine ⟨hviews, fun name => ?_⟩
  have hsame : assetOf st' .empty name = assetOf (st.flush cache) .empty name :=
    assetOf_congr_state hflush hviews (by rw [hst']; rfl) (by rw [hst']; rfl)
  rw [hsame]
  refine UnemployCoin.assetOf_flush hst h.views fun hcount => ?_
  -- What was added is not recorded below, so the flush does not lose it.
  obtain ⟨item, hitem⟩ := count_eq_true.1 hcount
  have hunknown := (h.items name item hitem).2
  by_contra hbelow
  rw [Bool.not_eq_false] at hbelow
  refine hunknown (known_empty.2 ⟨?_, Or.inl hbelow⟩)
  obtain ⟨item', hitem'⟩ := count_eq_true.1 hbelow
  exact count_eq_false.2 ((hst.exclusive name).resolve_left (by
    rw [hitem']
    exact Option.some_ne_none item'))

theorem ReissuesBounded.connectTip
    (hn : ReissuesBounded env nameOf n) (he : ReissueStep env nameOf n (.connectTip ctx block))
    (h : n.connectTip env ctx block = some n') :
    ReissuesBounded env nameOf n' ∧ ∀ name asset, assetOf n.st .empty name = some asset →
      ∃ asset', assetOf n'.st .empty name = some asset' ∧ Grows asset asset' := by
  obtain ⟨s, hs, hgenesis, -, hchain, blockUndo, hst⟩ := connectTip_eq_some h
  have hblock := hn.connected he hgenesis hs
  have htxs : chainTxs n'.chainActive = block.vtx ++ chainTxs n.chainActive := by
    rw [hchain, chainTxs, List.flatMap_cons, chainTxs]
  obtain ⟨hviews, hanswer⟩ := hblock.assetOf_flush hn.views hst
  -- Where a removal is waiting, nothing was found.
  have hwaiting : ∀ name, n.st.passets.newAssets.toRemove.count name = true →
      assetOf n.st .empty name = none ∧ assetOf n.st s.assetsCache name = none := by
    intro name hcount
    have hnot : ∀ cache : CAssetsCache, ¬Known n.st cache name := by
      rintro cache ⟨-, hbelow, -⟩
      rw [hcount] at hbelow
      cases hbelow
    exact ⟨(assetOf_eq_none hn.views hn.views.localViews).2 (hnot _),
      (assetOf_eq_none hn.views hblock.views).2 (hnot _)⟩
  have hrange : ∀ name asset, assetOf n'.st .empty name = some asset → InRange asset := by
    intro name asset hfound
    rw [hanswer] at hfound
    split at hfound
    · obtain ⟨item, hitem, rfl⟩ := Option.map_eq_some_iff.1 hfound
      exact (hblock.items name item hitem).1
    · exact hblock.range name asset hfound
  refine ⟨⟨hviews, hrange, fun name => ?_, ?_, ?_, ?_, hn.undo.connectTip h hs hblock.undo⟩,
    fun name asset hfound => ?_⟩
  · have hcovers := hblock.covers name
    have hbase := hn.covers name
    rw [htxs, reissuedIn_append]
    cases hcount : n.st.passets.newAssets.toRemove.count name with
    | true =>
      rw [(hwaiting name hcount).1, (hwaiting name hcount).2] at hcovers
      rw [(hwaiting name hcount).1] at hbase
      have hnonneg := amountOf_nonneg (hrange name)
      have hzero : amountOf none = 0 := rfl
      omega
    | false =>
      rw [hanswer, hcount, if_neg Bool.false_ne_true]
      omega
  · rw [htxs]
    exact fun tx htx => (List.mem_append.1 htx).elim (hblock.nonneg tx) (hn.nonneg tx)
  · rw [htxs]
    exact fun tx htx => (List.mem_append.1 htx).elim (he.2 tx) (hn.named tx)
  · rw [hchain]
    refine ⟨fun name hname => ?_, hn.first⟩
    obtain ⟨tx, htx, hissued⟩ := hname
    have hnone := (assetOf_eq_none hn.views hn.views.localViews).2
      (hblock.first tx htx name hissued)
    have hbase := hn.covers name
    rw [hnone] at hbase
    exact hbase
  · obtain ⟨asset', hasset', hgrows⟩ := hblock.grows name asset hfound
    refine ⟨asset', ?_, hgrows⟩
    rw [hanswer]
    cases hcount : n.st.passets.newAssets.toRemove.count name with
    | true =>
      rw [(hwaiting name hcount).1] at hfound
      cases hfound
    | false => exact hasset'

theorem ReissuesBounded.ready {chain : List CBlock}
    (hn : ReissuesBounded env nameOf n) (hapart : IssuesApartFromReissues env n.st block)
    (hchain : n.chainActive = block :: chain) (hcount : n.undo.count block.hash = true) :
    DisconnectReady env nameOf n.st block (fun name => reissuedIn env name (chainTxs chain))
      (n.undoAssetData block.hash) := by
  have htxs : chainTxs n.chainActive = block.vtx ++ chainTxs chain := by
    rw [hchain, chainTxs, List.flatMap_cons, chainTxs]
  have hnonneg := hn.nonneg
  rw [htxs] at hnonneg
  have hnamed := hn.named
  rw [htxs] at hnamed
  have hrest : ReissuesNonneg env (chainTxs chain) :=
    fun tx htx => hnonneg tx (List.mem_append_right _ htx)
  refine ⟨hn.range, hapart, fun name => reissuedIn_nonneg hrest,
    fun tx htx => hnonneg tx (List.mem_append_left _ htx),
    fun tx htx => hnamed tx (List.mem_append_left _ htx), hn.undo.recorded block.hash hcount,
    fun name => ?_⟩
  have hcovers := hn.covers name
  rw [htxs, reissuedIn_append, add_comm] at hcovers
  exact hcovers

theorem DisconnectReady.withTip {below : Bytes → ℤ}
    (h : DisconnectReady env nameOf st block below vUndoData) (ctx : TipContext) :
    DisconnectReady (env.withTip ctx) nameOf st block below vUndoData :=
  ⟨h.range, h.apart, h.below_nonneg, h.nonneg, h.named, h.units, h.covers⟩

theorem ReissuesDisconnected.assetOf_flush {below : Bytes → ℤ}
    {done : List CTransaction} (hst : StoredViews nameOf st)
    (h : ReissuesDisconnected env nameOf st block below done cache) (name : Bytes) :
    assetOf (st.flush cache) .empty name = assetOf st cache name := by
  have hnone := h.removals.noAddition name
  rw [UnemployCoin.assetOf_flush hst h.views fun hadd => by rw [hnone] at hadd; cases hadd]
  split
  · rename_i hwaiting
    have hunknown : ¬Known st cache name := by
      rintro ⟨-, hbelow, -⟩
      rw [hwaiting] at hbelow
      cases hbelow
    rw [count_eq_false.1 hnone, (assetOf_eq_none hst h.views).2 hunknown]
    rfl
  · rfl

theorem ReissuesBounded.disconnectTip (hn : ReissuesBounded env nameOf n)
    (he : ReissueStep env nameOf n (.disconnectTip ctx))
    (h : n.disconnectTip env ctx = some n') : ReissuesBounded env nameOf n' := by
  obtain ⟨block, vtxundo, s, hchain, hcount, hs, hundo, hst⟩ := disconnectTip_undo h
  have hready := hn.ready (he block (by rw [hchain]; rfl)) hchain hcount
  have hdisconnected := disconnectBlock_reissues hn.views (hready.withTip ctx) hs
  have htxs : chainTxs n.chainActive = block.vtx ++ chainTxs n'.chainActive := by
    rw [hchain, chainTxs, List.flatMap_cons, chainTxs]
  have hnonneg := hn.nonneg
  rw [htxs] at hnonneg
  have hnamed := hn.named
  rw [htxs] at hnamed
  have hfirst := hn.first
  rw [hchain] at hfirst
  obtain ⟨hfirstBlock, hfirstRest⟩ := hfirst
  have hanswer : ∀ name, assetOf n'.st .empty name = assetOf n.st s.assetsCache name := by
    intro name
    rw [hst]
    exact hdisconnected.assetOf_flush hn.views name
  have hrange : ∀ name asset, assetOf n'.st .empty name = some asset → InRange asset := by
    intro name asset hfound
    rw [hanswer] at hfound
    exact hdisconnected.range name asset hfound
  refine ⟨?_, hrange, fun name => ?_, fun tx htx => hnonneg tx (List.mem_append_right _ htx),
    fun tx htx => hnamed tx (List.mem_append_right _ htx), hfirstRest, ?_⟩
  · rw [hst]
    exact hn.views.flush hdisconnected.views
  · by_cases hname : name ∈ blockNames env block
    · exact (hfirstBlock name hname).trans (amountOf_nonneg (hrange name))
    · have hcovers := hdisconnected.covers name hname
      rw [reissuedIn_reverse] at hcovers
      rw [hanswer]
      exact le_of_add_le_add_right hcovers
  · refine hn.undo.congr hundo ?_
    rw [hst]
    rfl

theorem ReissuesBounded.dump (hn : ReissuesBounded env nameOf n) :
    ReissuesBounded env nameOf { n with st := n.st.dumpCacheToDatabase env } := by
  refine ⟨hn.views.dump, fun name asset hfound => ?_, fun name => ?_, hn.nonneg, hn.named, hn.first,
    hn.undo.congr rfl blockUndo_dump⟩
  · rw [assetOf_dump hn.views] at hfound
    exact hn.range name asset hfound
  · rw [assetOf_dump hn.views]
    exact hn.covers name

theorem ReissuesBounded.read (hn : ReissuesBounded env nameOf n) (lookup : CacheRead) :
    ReissuesBounded env nameOf { n with st := n.st.read env lookup } := by
  refine ⟨hn.views.read lookup, fun name asset hfound => ?_, fun name => ?_, hn.nonneg, hn.named,
    hn.first, hn.undo.congr rfl ?_⟩
  · rw [assetOf_read hn.views] at hfound
    exact hn.range name asset hfound
  · rw [assetOf_read hn.views]
    exact hn.covers name
  · rw [(read_passets env n.st lookup).2.1]

/-- **Every step** of a node keeps the bounds, and one that disconnects nothing lets the assets
grow. -/
theorem ReissuesBounded.step {e : NodeEvent} (hn : ReissuesBounded env nameOf n)
    (he : ReissueStep env nameOf n e) (h : (node env).step n e = some n') :
    ReissuesBounded env nameOf n' ∧ ((∀ ctx, e ≠ .disconnectTip ctx) →
      ∀ name asset, assetOf n.st .empty name = some asset →
        ∃ asset', assetOf n'.st .empty name = some asset' ∧ Grows asset asset') := by
  cases e with
  | connectTip ctx block =>
    obtain ⟨hn', hgrows⟩ := hn.connectTip he h
    exact ⟨hn', fun _ => hgrows⟩
  | disconnectTip ctx => exact ⟨hn.disconnectTip he h, fun hne => absurd rfl (hne ctx)⟩
  | dump =>
    cases h
    refine ⟨hn.dump, fun _ name asset hfound => ⟨asset, ?_, Grows.refl asset⟩⟩
    rw [← hfound]
    exact assetOf_dump hn.views
  | read lookup =>
    cases h
    refine ⟨hn.read lookup, fun _ name asset hfound => ⟨asset, ?_, Grows.refl asset⟩⟩
    rw [← hfound]
    exact assetOf_read hn.views lookup

/-- **Reissues stay within their bounds.**  After every run whose steps meet the condition the
amount and the units of every asset are in range.  Along a further run that disconnects nothing
they never decrease, and an asset that cannot be reissued stays as it is. -/
theorem reissues_bounded {events : List NodeEvent}
    (halong : (node env).Along (ReissueStep env nameOf) .genesis events)
    (h : (node env).exec .genesis events = some n) :
    (∀ name asset, assetOf n.st .empty name = some asset → InRange asset) ∧
      ∀ later, (∀ e ∈ later, ∀ ctx, e ≠ .disconnectTip ctx) →
        (node env).Along (ReissueStep env nameOf) n later →
        (node env).exec n later = some n' → ∀ name asset, assetOf n.st .empty name = some asset →
          ∃ asset', assetOf n'.st .empty name = some asset' ∧ Grows asset asset' := by
  have hbounded : ReissuesBounded env nameOf n :=
    Machine.exec_invariant (fun _ _ _ hn he hstep => (hn.step he hstep).1) ReissuesBounded.genesis
      halong h
  refine ⟨hbounded.range, fun later => ?_⟩
  clear halong h
  induction later generalizing n with
  | nil =>
    intro _ _ hexec name asset hfound
    cases hexec
    exact ⟨asset, hfound, Grows.refl asset⟩
  | cons e later ih =>
    intro hkeeps halong hexec name asset hfound
    rw [List.forall_mem_cons] at hkeeps
    obtain ⟨t, hstep, hrest⟩ := Machine.exec_cons.1 hexec
    obtain ⟨ht, hgrows⟩ := hbounded.step halong.1 hstep
    obtain ⟨asset₁, hasset₁, hgrows₁⟩ := hgrows hkeeps.1 name asset hfound
    obtain ⟨asset', hasset', hgrows'⟩ := ih ht hkeeps.2 (halong.2 t hstep) hrest name asset₁ hasset₁
    exact ⟨asset', hasset', hgrows₁.trans hgrows'⟩

/-! ### Sample runs -/

/-- The outputs of a reissue of `NAME`. -/
def reissueOutputs (nAmount : CAmount) : List CTxOut :=
  [⟨100 * COIN, getScriptForKeyID (keyHash 2)⟩,
    ⟨0, CAssetTransfer.constructTransaction ⟨ascii "NAME!", COIN, [], 0⟩
      (getScriptForKeyID (keyHash 1))⟩,
    ⟨0, CReissueAsset.constructTransaction ⟨ascii "NAME", nAmount, -1, 1, []⟩
      (getScriptForKeyID (keyHash 1))⟩]

/-- `NAME` is reissued by its owner. -/
def reissueNameBlock : CBlock :=
  ⟨1002, [coinbaseTx 1002 (5000 * COIN),
    ⟨2002, [⟨⟨1, 0⟩, []⟩, ⟨⟨2001, 1⟩, []⟩], reissueOutputs (5 * COIN)⟩]⟩

/-- `NAME` is reissued by a coinbase. -/
def coinbaseReissueBlock : CBlock :=
  ⟨1002, [⟨1002, [⟨⟨0, 0xffffffff⟩, [0, 0]⟩], reissueOutputs (MAX_MONEY - 1)⟩]⟩

/-- The blocks up to the issue of `NAME`. -/
def nameChain : List (TipContext × CBlock) := coinbaseChain 102 ++ [(uncheckedContext, issueBlock)]

/-- **A coinbase past the bound.**  Nobody compares what a coinbase reissues with the amount there
is. -/
theorem coinbaseReissue_overflows :
    ∃ n, (node payableEnv).exec .genesis
        (connects (nameChain ++ [(uncheckedContext, coinbaseReissueBlock)])) = some n ∧
      ∃ asset, assetOf n.st .empty (ascii "NAME") = some asset ∧ ¬asset.nAmount ≤ MAX_MONEY := by
  have hrun : ((node payableEnv).exec .genesis
      (connects (nameChain ++ [(uncheckedContext, coinbaseReissueBlock)]))).map (fun n =>
        (assetOf n.st .empty (ascii "NAME")).map fun asset => decide (asset.nAmount ≤ MAX_MONEY)) =
      some (some false) := by
    rw [nameChain, List.append_assoc, connects_append, exec_coinbaseChain ⟨rfl, rfl⟩ (by decide)]
    decide +kernel
  obtain ⟨n, hexec, hn⟩ := Option.map_eq_some_iff.1 hrun
  obtain ⟨asset, hasset, hbound⟩ := Option.map_eq_some_iff.1 hn
  exact ⟨n, hexec, asset, hasset, of_decide_eq_false hbound⟩

theorem reissueStep_connect (n : Node)
    (hcoinbase : ∀ tx ∈ block.vtx, tx.isCoinBase = true → tx.assetTxKind env = .other)
    (hnamed : ∀ tx ∈ block.vtx, tx.assetTxKind env = .reissue →
      ascii "NAME" = (reissueOf env tx).1.strName) :
    ReissueStep env (fun _ => ascii "NAME") n (.connectTip ctx block) :=
  ⟨Or.inr hcoinbase, hnamed⟩

theorem nameChain_along :
    (node payableEnv).Along (ReissueStep payableEnv fun _ => ascii "NAME") .genesis
      (connects nameChain) := by
  refine Machine.Along.of_forall fun e he n => ?_
  obtain ⟨pair, hpair, rfl⟩ := List.mem_map.1 he
  rcases List.mem_append.1 hpair with hmem | hmem
  · obtain ⟨h, -, rfl⟩ := List.mem_map.1 hmem
    have hkind : (coinbaseTx h (5000 * COIN)).assetTxKind payableEnv = .other := rfl
    refine reissueStep_connect n (fun tx htx _ => ?_) fun tx htx hreissue => ?_
    · rw [List.mem_singleton.1 htx]
      exact hkind
    · rw [List.mem_singleton.1 htx, hkind] at hreissue
      cases hreissue
  · obtain rfl := List.mem_singleton.1 hmem
    exact reissueStep_connect n (by decide +kernel) (by decide +kernel)

/-- The owner's reissue stays within the bounds. -/
theorem nameReissue_grows :
    ∃ n n' asset asset', (node payableEnv).exec .genesis (connects nameChain) = some n ∧
      (node payableEnv).exec n [.connectTip uncheckedContext reissueNameBlock] = some n' ∧
      assetOf n.st .empty (ascii "NAME") = some asset ∧ InRange asset ∧
      assetOf n'.st .empty (ascii "NAME") = some asset' ∧ Grows asset asset' := by
  have hrun : ((node payableEnv).exec .genesis (connects nameChain)).map (fun n =>
      ((assetOf n.st .empty (ascii "NAME")).isSome,
        ((node payableEnv).exec n [.connectTip uncheckedContext reissueNameBlock]).isSome)) =
      some (true, true) := by
    rw [nameChain, connects_append, exec_coinbaseChain ⟨rfl, rfl⟩ (by decide)]
    decide +kernel
  obtain ⟨n, hexec, hn⟩ := Option.map_eq_some_iff.1 hrun
  obtain ⟨hsome, hlater⟩ := Prod.mk.inj hn
  obtain ⟨asset, hasset⟩ := Option.isSome_iff_exists.1 hsome
  obtain ⟨n', hexec'⟩ := Option.isSome_iff_exists.1 hlater
  obtain ⟨hrange, hgrow⟩ := @reissues_bounded _ _ n n' _ nameChain_along hexec
  obtain ⟨asset', hasset', hgrows⟩ := hgrow _ (fun e he ctx heq => by
      rw [List.mem_singleton.1 he] at heq
      cases heq)
    (Machine.Along.of_forall fun e he m => by
      rw [List.mem_singleton.1 he]
      exact reissueStep_connect m (by decide +kernel) (by decide +kernel))
    hexec' _ asset hasset
  exact ⟨n, n', asset, asset', hexec, hexec', hasset, hrange _ _ hasset, hasset', hgrows⟩

end UnemployCoin
