import UnemployCoin.BlockAssets
import UnemployCoin.Metadata
/-!
# What a transaction changes in the views

Connecting a transaction adds its new assets or applies its reissue, and disconnecting it takes that
back; the views of every other asset stay.
-/

namespace UnemployCoin

open Check CAssetsCache

variable {env : Env} {st : AssetState} {cache cache' : CAssetsCache} {tx : CTransaction}
  {name : Bytes} {nameOf : COutPoint → Bytes}

theorem LocalViews.of_viewPart (h : LocalViews nameOf st cache)
    (hpart : cache'.viewPart = cache.viewPart) : LocalViews nameOf st cache' :=
  h.congr (congrArg Prod.fst hpart) (congrArg (fun part => part.2.1) hpart)
    (congrArg (fun part => part.2.2) hpart)

theorem assetOf_of_viewPart (hpart : cache'.viewPart = cache.viewPart) :
    assetOf st cache' name = assetOf st cache name :=
  assetOf_congr (congrArg Prod.fst hpart) (congrArg (fun part => part.2.1) hpart)

/-! ## Connecting -/

section Connect

variable {nHeight : ℤ} {blockHash : uint256}

theorem LocalViews.tryAddNewAsset (hst : StoredViews nameOf st)
    (hcache : LocalViews nameOf st cache) (record : WithAddress CNewAsset) :
    LocalViews nameOf st (tryAddNewAsset env st nHeight blockHash cache record) ∧
      ∀ name,
        (Known st cache name →
          Known st (UnemployCoin.tryAddNewAsset env st nHeight blockHash cache record) name) ∧
        (assetOf st (UnemployCoin.tryAddNewAsset env st nHeight blockHash cache record) name =
            assetOf st cache name ∨
          ¬Known st cache name ∧ record.1.strName = name ∧
            assetOf st (UnemployCoin.tryAddNewAsset env st nHeight blockHash cache record) name =
              some record.1) := by
  rw [UnemployCoin.tryAddNewAsset]
  cases hadd : cache.addNewAsset env st record.1 record.2 nHeight blockHash with
  | none => exact ⟨hcache, fun name => ⟨id, Or.inl rfl⟩⟩
  | some c =>
    rw [Option.getD_some]
    have hviews := hcache.addNewAsset hadd
    refine ⟨hviews, fun name => ?_⟩
    have hanswer : assetOf st c name = if name = record.1.strName then
          if st.passets.newAssets.toRemove.count name then none else some record.1
        else assetOf st cache name := assetOf_addNewAsset hst hcache hadd
    have hunknown := not_known_of_not_exists hst (addNewAsset_eq_some hadd).1
    by_cases hname : name = record.1.strName
    · subst hname
      refine ⟨fun hknown => absurd hknown hunknown, ?_⟩
      rw [hanswer, if_pos rfl]
      split
      · exact Or.inl ((assetOf_eq_none hst hcache).2 hunknown).symm
      · exact Or.inr ⟨hunknown, rfl, rfl⟩
    · rw [if_neg hname] at hanswer
      refine ⟨fun hknown => ?_, Or.inl hanswer⟩
      rw [← isSome_assetOf hst hviews, hanswer, isSome_assetOf hst hcache]
      exact hknown

theorem LocalViews.foldl_tryAddNewAsset (hst : StoredViews nameOf st)
    (records : List (WithAddress CNewAsset)) (hcache : LocalViews nameOf st cache) :
    LocalViews nameOf st
        (records.foldl (UnemployCoin.tryAddNewAsset env st nHeight blockHash) cache) ∧
      ∀ name,
        (Known st cache name →
          Known st (records.foldl (UnemployCoin.tryAddNewAsset env st nHeight blockHash) cache)
            name) ∧
        (assetOf st (records.foldl (UnemployCoin.tryAddNewAsset env st nHeight blockHash) cache)
            name = assetOf st cache name ∨
          ¬Known st cache name ∧ ∃ record ∈ records, record.1.strName = name ∧
            assetOf st (records.foldl (UnemployCoin.tryAddNewAsset env st nHeight blockHash) cache)
              name = some record.1) := by
  induction records generalizing cache with
  | nil => exact ⟨hcache, fun name => ⟨id, Or.inl rfl⟩⟩
  | cons record records ih =>
    obtain ⟨hfirst, hnames⟩ := @LocalViews.tryAddNewAsset env st cache nameOf nHeight blockHash
      hst hcache record
    obtain ⟨hrest, hrestNames⟩ := ih hfirst
    refine ⟨hrest, fun name => ?_⟩
    obtain ⟨hkept, hanswer⟩ := hnames name
    obtain ⟨hkept', hanswer'⟩ := hrestNames name
    refine ⟨fun hknown => hkept' (hkept hknown), ?_⟩
    rcases hanswer' with hsame | ⟨hunknown, record', hmem, hname, hnew⟩
    · rcases hanswer with hsame' | ⟨hunknown, hname, hnew⟩
      · exact Or.inl (hsame.trans hsame')
      · exact Or.inr ⟨hunknown, record, List.mem_cons_self, hname, hsame.trans hnew⟩
    · exact Or.inr ⟨fun hknown => hunknown (hkept hknown), record', List.mem_cons_of_mem _ hmem,
        hname, hnew⟩

theorem noRemoval_foldl_tryAddNewAsset {records : List (WithAddress CNewAsset)}
    (h : ∀ name, cache.newAssets.toRemove.count name = false) (name : Bytes) :
    (records.foldl (tryAddNewAsset env st nHeight blockHash) cache).newAssets.toRemove.count name =
      false := by
  induction records generalizing cache with
  | nil => exact h name
  | cons record records ih =>
    refine ih fun name => ?_
    cases hexists : cache.checkIfAssetExists env st record.1.strName with
    | true =>
      rw [tryAddNewAsset_of_exists hexists]
      exact h name
    | false =>
      rw [tryAddNewAsset_of_not_exists hexists, Staged.count_add_toRemove, h name, Bool.and_false]

theorem toAdd_foldl_tryAddNewAsset {records : List (WithAddress CNewAsset)}
    {item : CAssetCacheNewAsset}
    (h : (records.foldl (tryAddNewAsset env st nHeight blockHash) cache).newAssets.toAdd.find?
      name = some item) :
    cache.newAssets.toAdd.find? name = some item ∨
      cache.checkIfAssetExists env st name = false ∧
        ∃ record ∈ records, record.1.strName = name ∧
          item = ⟨record.1, record.2, nHeight, blockHash⟩ := by
  induction records generalizing cache with
  | nil => exact Or.inl h
  | cons record records ih =>
    rcases ih h with hold | ⟨hexists, record', hmem, hname, hitem⟩
    · cases hexists : cache.checkIfAssetExists env st record.1.strName with
      | true =>
        rw [tryAddNewAsset_of_exists hexists] at hold
        exact Or.inl hold
      | false =>
        rw [tryAddNewAsset_of_not_exists hexists, Staged.find?_add_toAdd] at hold
        split at hold
        · rename_i hname
          subst hname
          cases hfind : cache.newAssets.toAdd.find? record.1.strName with
          | none =>
            rw [hfind, StdMap.putValue_none, Option.some.injEq] at hold
            exact Or.inr ⟨hexists, record, List.mem_cons_self, rfl, hold.symm⟩
          | some old =>
            rw [hfind, StdMap.putValue_false_some] at hold
            exact Or.inl hold
        · exact Or.inl hold
    · refine Or.inr ⟨?_, record', List.mem_cons_of_mem _ hmem, hname, hitem⟩
      by_cases hsame : name = record.1.strName
      · subst hsame
        cases hbefore : cache.checkIfAssetExists env st record.1.strName with
        | true =>
          rw [tryAddNewAsset_of_exists hbefore, hbefore] at hexists
          cases hexists
        | false => rfl
      · rw [checkIfAssetExists_tryAddNewAsset hsame] at hexists
        exact hexists

/-- **Connecting a reissue** applies it to the asset. -/
theorem updateAssets_reissue (hst : StoredViews nameOf st) (hcache : LocalViews nameOf st cache)
    (htx : checkTransaction env tx true false true = .ok ())
    (hdep : env.dep.areAssetsDeployed = true) (hkind : tx.assetTxKind env = .reissue)
    (hout : nameOf tx.reissueOut = (reissueOf env tx).1.strName) {asset : CNewAsset}
    (hasset : assetOf st cache (reissueOf env tx).1.strName = some asset) :
    LocalViews nameOf st (updateAssets env st nHeight blockHash tx cache).1 ∧
      ∀ name, assetOf st (updateAssets env st nHeight blockHash tx cache).1 name =
        if name = (reissueOf env tx).1.strName then
          some (applyReissue asset (reissueOf env tx).1)
        else assetOf st cache name := by
  have hpart := @updateAssets_viewPart env st cache tx _ _ _ nHeight blockHash htx
  rw [if_pos hdep, newRecords, hkind] at hpart
  simp only [List.foldl_nil] at hpart
  rw [connectReissue, if_pos hkind] at hpart
  cases hadd : cache.addReissueAsset env st (reissueOf env tx).1 (reissueOf env tx).2
      tx.reissueOut with
  | none =>
    obtain ⟨data, hdata, -⟩ := Option.map_eq_some_iff.1 hasset
    rw [addReissueAsset, hdata] at hadd
    cases hadd
  | some c =>
    rw [hadd, Option.getD_some] at hpart
    obtain ⟨hviews, asset', hasset', hanswers⟩ := hcache.addReissueAsset hst hout hadd
    rw [hasset, Option.some.injEq] at hasset'
    subst hasset'
    exact ⟨hviews.of_viewPart hpart, fun name => (assetOf_of_viewPart hpart).trans (hanswers name)⟩

/-- **Connecting any other transaction** adds assets that were not known. -/
theorem updateAssets_issue (hst : StoredViews nameOf st) (hcache : LocalViews nameOf st cache)
    (htx : checkTransaction env tx true false true = .ok ())
    (hkind : tx.assetTxKind env ≠ .reissue) :
    LocalViews nameOf st (updateAssets env st nHeight blockHash tx cache).1 ∧
      ∀ name,
        (Known st cache name → Known st (updateAssets env st nHeight blockHash tx cache).1 name) ∧
        (assetOf st (updateAssets env st nHeight blockHash tx cache).1 name =
            assetOf st cache name ∨
          ¬Known st cache name ∧ ∃ record ∈ newRecords env tx, record.1.strName = name ∧
            assetOf st (updateAssets env st nHeight blockHash tx cache).1 name =
              some record.1) := by
  have hpart := @updateAssets_viewPart env st cache tx _ _ _ nHeight blockHash htx
  rw [connectReissue, if_neg hkind] at hpart
  have hknown : ∀ {c : CAssetsCache}, c.viewPart =
      (updateAssets env st nHeight blockHash tx cache).1.viewPart → ∀ name, Known st c name →
        Known st (updateAssets env st nHeight blockHash tx cache).1 name := by
    intro c hc name hknown
    have hnew : c.newAssets = (updateAssets env st nHeight blockHash tx cache).1.newAssets :=
      congrArg (fun part => part.2.1) hc
    rw [Known, ← hnew]
    exact hknown
  split at hpart
  · obtain ⟨hviews, hnames⟩ := @LocalViews.foldl_tryAddNewAsset env st cache nameOf nHeight
      blockHash hst (newRecords env tx) hcache
    refine ⟨hviews.of_viewPart hpart, fun name => ?_⟩
    rw [assetOf_of_viewPart hpart]
    exact ⟨fun h => hknown hpart.symm name ((hnames name).1 h), (hnames name).2⟩
  · refine ⟨hcache.of_viewPart hpart, fun name => ⟨hknown hpart.symm name, Or.inl ?_⟩⟩
    exact assetOf_of_viewPart hpart

end Connect

theorem updateAssets_undo {nHeight : ℤ} {blockHash : uint256} {e : Bytes × CBlockAssetUndo}
    (h : (updateAssets env st nHeight blockHash tx cache).2 = some e) :
    tx.assetTxKind env = .reissue ∧ (addReissue env st tx cache).2 = some e := by
  rw [updateAssets] at h
  split at h
  · have hadd : (addAssets env st nHeight blockHash tx cache).2 = some e := h
    rw [addAssets] at hadd
    cases hkind : tx.assetTxKind env with
    | reissue =>
      rw [hkind] at hadd
      exact ⟨rfl, hadd⟩
    | newAsset => rw [hkind] at hadd; cases hadd
    | newUnique => rw [hkind] at hadd; cases hadd
    | newMsgChannel => rw [hkind] at hadd; cases hadd
    | newQualifier => rw [hkind] at hadd; cases hadd
    | newRestricted => rw [hkind] at hadd; cases hadd
    | other => rw [hkind] at hadd; cases hadd
  · cases h

theorem addReissue_undo {e : Bytes × CBlockAssetUndo} {asset : CNewAsset}
    (hasset : assetOf st cache (reissueOf env tx).1.strName = some asset)
    (h : (addReissue env st tx cache).2 = some e) :
    e.1 = (reissueOf env tx).1.strName ∧
      e.2.fChangedIPFS = !(reissueOf env tx).1.strIPFSHash.isEmpty ∧
      e.2.fChangedUnits = ((reissueOf env tx).1.nUnits != -1) ∧
      e.2.strIPFS = asset.strIPFSHash ∧ e.2.nUnits = asset.units := by
  have hread : (tx.reissueAssetFromTransaction env).getD (.null, []) = reissueOf env tx := rfl
  have hlookup : (cache.getAssetMetaDataIfExists st (reissueOf env tx).1.strName).map
      AssetMetaData.asset = some asset := hasset
  rw [addReissue, hread] at h
  simp only [hlookup, Option.getD_some, Option.ite_none_right_eq_some, Option.some.injEq] at h
  obtain ⟨-, rfl⟩ := h
  exact ⟨rfl, rfl, rfl, rfl, rfl⟩

/-! ## Disconnecting -/

section Disconnect

variable {vUndoData : List (Bytes × CBlockAssetUndo)}

theorem downdateAssets_viewPart (h : downdateAssets env st vUndoData tx cache = .ok cache') :
    env.dep.areAssetsDeployed = false ∧ cache'.viewPart = cache.viewPart ∨
      env.dep.areAssetsDeployed = true ∧
        ∃ c, removeAssets env st vUndoData tx cache = .ok c ∧ cache'.viewPart = c.viewPart := by
  rw [downdateAssets] at h
  split at h
  · rename_i hdep
    rw [bind_ok] at h
    obtain ⟨c, hc, h⟩ := h
    rw [unit_bind, onlyIf_bind, pure_ok] at h
    obtain ⟨-, -, rfl⟩ := h
    refine Or.inr ⟨hdep, c, hc, ?_⟩
    split
    · exact viewPart_of_recordPart (removeCommands_recordPart _ _)
    · rfl
  · rename_i hdep
    cases h
    exact Or.inl ⟨Bool.eq_false_of_not_eq_true hdep, rfl⟩

/-- **Disconnecting a reissue** takes it back, or changes nothing. -/
theorem downdateAssets_reissue (hst : StoredViews nameOf st) (hcache : LocalViews nameOf st cache)
    (hkind : tx.assetTxKind env = .reissue)
    (hout : nameOf tx.reissueOut = (reissueOf env tx).1.strName)
    (h : downdateAssets env st vUndoData tx cache = .ok cache') :
    LocalViews nameOf st cache' ∧
      (∀ name, name ≠ (reissueOf env tx).1.strName →
        cache'.mapReissuedAssetData.find? name = cache.mapReissuedAssetData.find? name) ∧
      ((env.dep.areAssetsDeployed = true → assetOf st cache (reissueOf env tx).1.strName = none) ∧
          (∀ name, assetOf st cache' name = assetOf st cache name) ∨
        ∃ asset, assetOf st cache (reissueOf env tx).1.strName = some asset ∧
          ∀ name, assetOf st cache' name =
            if name = (reissueOf env tx).1.strName then
              some (undoReissue asset (reissueOf env tx).1
                (findUndoItem vUndoData (reissueOf env tx).1.strName))
            else assetOf st cache name) := by
  have hkept : ∀ {c : CAssetsCache}, c.viewPart = cache.viewPart →
      LocalViews nameOf st c ∧
        (∀ name, name ≠ (reissueOf env tx).1.strName →
          c.mapReissuedAssetData.find? name = cache.mapReissuedAssetData.find? name) ∧
        ∀ name, assetOf st c name = assetOf st cache name := by
    intro c hpart
    have hmap : c.mapReissuedAssetData = cache.mapReissuedAssetData := congrArg Prod.fst hpart
    refine ⟨hcache.of_viewPart hpart, fun name _ => ?_, fun name => assetOf_of_viewPart hpart⟩
    rw [hmap]
  rcases downdateAssets_viewPart h with ⟨hdep, hpart⟩ | ⟨hdep, c, hc, hpart⟩
  · obtain ⟨hviews, hmap, hsame⟩ := hkept hpart
    refine ⟨hviews, hmap, Or.inl ⟨fun hactive => ?_, hsame⟩⟩
    rw [hdep] at hactive
    cases hactive
  · rw [removeAssets, hkind] at hc
    simp only [undoReissueOf, demand_bind] at hc
    obtain ⟨⟨reissue, strAddress⟩, hread, hc⟩ := hc
    have hof : reissueOf env tx = (reissue, strAddress) := by
      rw [reissueOf, hread, Option.getD_some]
    rw [hof] at hout hkept ⊢
    split at hc
    · rw [demand_ok] at hc
      obtain ⟨hviews, asset, hasset, hanswers⟩ := hcache.removeReissueAsset hst hout hc
      obtain ⟨data, hdata, hmap, -, -⟩ := removeReissueAsset_eq_some hc
      have hname : data.asset.strName = reissue.strName :=
        getAssetMetaDataIfExists_name hst.own hcache.own hdata
      rw [strName_undoReissue, hname] at hmap
      refine ⟨hviews.of_viewPart hpart, fun name hne => ?_, Or.inr ⟨asset, hasset, fun name => ?_⟩⟩
      · have hfst : cache'.mapReissuedAssetData = c.mapReissuedAssetData := congrArg Prod.fst hpart
        rw [hfst, hmap, StdMap.find?_assign, if_neg hne]
      · exact (assetOf_of_viewPart hpart).trans (hanswers name)
    · rename_i hexists
      cases hc
      obtain ⟨hviews, hmap, hsame⟩ := hkept hpart
      refine ⟨hviews, hmap, Or.inl ⟨fun _ => ?_, hsame⟩⟩
      exact (assetOf_eq_none hst hcache).2
        (not_known_of_not_exists hst (Bool.eq_false_of_not_eq_true hexists))

theorem LocalViews.undoNewAsset (hst : StoredViews nameOf st) (hcache : LocalViews nameOf st cache)
    {record : WithAddress CNewAsset}
    (hlocal : cache.mapReissuedAssetData.find? record.1.strName = none)
    (hbelow : st.passets.mapReissuedAssetData.find? record.1.strName = none)
    (h : undoNewAsset env st cache record = .ok cache') :
    LocalViews nameOf st cache' ∧ cache'.mapReissuedAssetData = cache.mapReissuedAssetData ∧
      ∀ name, assetOf st cache' name =
        if name = record.1.strName then none else assetOf st cache name := by
  rw [UnemployCoin.undoNewAsset] at h
  split at h
  · rw [demand_ok] at h
    refine ⟨hcache.removeNewAsset hlocal hbelow h, ?_, fun name => ?_⟩
    · rw [removeNewAsset_eq_some h]
    · exact assetOf_removeNewAsset hst hlocal hbelow h
  · rename_i hexists
    cases h
    refine ⟨hcache, rfl, fun name => ?_⟩
    split
    · rename_i hname
      rw [hname]
      exact (assetOf_eq_none hst hcache).2
        (not_known_of_not_exists hst (Bool.eq_false_of_not_eq_true hexists))
    · rfl

theorem LocalViews.foldlM_undoNewAsset (hst : StoredViews nameOf st) {c : CAssetsCache}
    (records : List (WithAddress CNewAsset)) (hcache : LocalViews nameOf st cache)
    (hquiet : ∀ record ∈ records, cache.mapReissuedAssetData.find? record.1.strName = none ∧
      st.passets.mapReissuedAssetData.find? record.1.strName = none)
    (h : records.foldlM (UnemployCoin.undoNewAsset env st) cache = .ok c) :
    LocalViews nameOf st c ∧ c.mapReissuedAssetData = cache.mapReissuedAssetData ∧
      ∀ name, assetOf st c name =
        if ∃ record ∈ records, record.1.strName = name then none else assetOf st cache name := by
  induction records generalizing cache with
  | nil =>
    cases h
    refine ⟨hcache, rfl, fun name => ?_⟩
    rw [if_neg fun ⟨_, hmem, _⟩ => nomatch hmem]
  | cons record records ih =>
    rw [List.foldlM_cons, bind_ok] at h
    obtain ⟨c₁, hfirst, hrest⟩ := h
    rw [List.forall_mem_cons] at hquiet
    obtain ⟨hviews₁, hmap₁, hanswer₁⟩ := hcache.undoNewAsset hst hquiet.1.1 hquiet.1.2 hfirst
    obtain ⟨hviews, hmap, hanswer⟩ := ih hviews₁ (by rw [hmap₁]; exact hquiet.2) hrest
    refine ⟨hviews, hmap.trans hmap₁, fun name => ?_⟩
    rw [hanswer, hanswer₁]
    simp only [List.mem_cons, exists_eq_or_imp]
    by_cases hname : record.1.strName = name
    · rw [if_pos hname.symm, if_pos (Or.inl hname), ite_self]
    · rw [if_neg (Ne.symm hname)]
      simp only [hname, false_or]

/-- **Disconnecting any other transaction** removes assets that it issued. -/
theorem downdateAssets_issue (hst : StoredViews nameOf st) (hcache : LocalViews nameOf st cache)
    (hkind : tx.assetTxKind env ≠ .reissue)
    (hquiet : ∀ record ∈ newRecords env tx,
      cache.mapReissuedAssetData.find? record.1.strName = none ∧
        st.passets.mapReissuedAssetData.find? record.1.strName = none)
    (h : downdateAssets env st vUndoData tx cache = .ok cache') :
    LocalViews nameOf st cache' ∧ cache'.mapReissuedAssetData = cache.mapReissuedAssetData ∧
      ∀ name, assetOf st cache' name =
        if env.dep.areAssetsDeployed = true ∧ ∃ record ∈ newRecords env tx, record.1.strName = name
        then none else assetOf st cache name := by
  rcases downdateAssets_viewPart h with ⟨hdep, hpart⟩ | ⟨hdep, c, hc, hpart⟩
  · refine ⟨hcache.of_viewPart hpart, congrArg Prod.fst hpart, fun name => ?_⟩
    rw [hdep, if_neg fun hand => Bool.false_ne_true hand.1]
    exact assetOf_of_viewPart hpart
  · obtain ⟨c', hc', hpart'⟩ := removeAssets_viewPart hkind hc
    obtain ⟨hviews, hmap, hanswer⟩ := LocalViews.foldlM_undoNewAsset hst _ hcache hquiet hc'
    have hall := hpart.trans hpart'
    refine ⟨hviews.of_viewPart hall, (congrArg Prod.fst hall).trans hmap, fun name => ?_⟩
    rw [assetOf_of_viewPart hall, hanswer]
    simp only [hdep, true_and]

end Disconnect

end UnemployCoin
