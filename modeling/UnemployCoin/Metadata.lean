import UnemployCoin.OwnRecords
import UnemployCoin.UniqueIssuance
/-!
# The views of an asset

`CheckIfAssetExists` and `GetAssetMetaDataIfExists` go down two ladders of their own.  They agree as
long as no layer keeps reissued data of an asset whose issue is removed, and as long as reissued
data waits to be written.
-/

namespace UnemployCoin

open Check CAssetsCache StdMap

variable {env : Env} {st : AssetState} {cache cache' : CAssetsCache} {name : Bytes}
  {nameOf : COutPoint → Bytes}

/-! ## The ladders -/

/-- The asset that `GetAssetMetaDataIfExists` finds. -/
def assetOf (st : AssetState) (cache : CAssetsCache) (name : Bytes) : Option CNewAsset :=
  (cache.getAssetMetaDataIfExists st name).map AssetMetaData.asset

def Known (st : AssetState) (cache : CAssetsCache) (name : Bytes) : Prop :=
  cache.newAssets.toRemove.count name = false ∧
    st.passets.newAssets.toRemove.count name = false ∧
    (cache.newAssets.toAdd.count name = true ∨ st.passets.newAssets.toAdd.count name = true ∨
      st.passetsdb.assetData.count name = true)

theorem known_empty : Known st .empty name ↔ Recorded st name := by
  rw [Known, Recorded, CAssetsCache.empty]
  simp

def issuedAsset (st : AssetState) (cache : CAssetsCache) (name : Bytes) : Option CNewAsset :=
  if cache.newAssets.toRemove.count name then none
  else if st.passets.newAssets.toRemove.count name then none
  else
    ((cache.newAssets.toAdd.find? name).map CAssetCacheNewAsset.asset).or
      (((st.passets.newAssets.toAdd.find? name).map CAssetCacheNewAsset.asset).or
        ((st.passetsdb.assetData.find? name).map CDatabasedAssetData.asset))

theorem isSome_issuedAsset : (issuedAsset st cache name).isSome = true ↔ Known st cache name := by
  rw [issuedAsset, Known]
  split
  · rename_i h
    simp [h]
  · rename_i h
    split
    · rename_i h'
      simp [h']
    · rename_i h'
      rw [Option.isSome_or, Option.isSome_or, Option.isSome_map, Option.isSome_map,
        Option.isSome_map, StdMap.count, StdMap.count, StdMap.count, StdMap.count, StdMap.count]
      rw [StdMap.count] at h h'
      simp [h, h']

/-! ## What the layers keep -/

/-- The reissues of a layer are under outputs that tell the name, and data of a reissued asset comes
with one of them. -/
structure Pending (nameOf : COutPoint → Bytes) (cache : CAssetsCache) : Prop where
  added : ∀ out item, cache.newReissue.toAdd.find? out = some item →
    item.reissue.strName = nameOf out
  removed : ∀ out item, cache.newReissue.toRemove.find? out = some item →
    item.reissue.strName = nameOf out
  staged : ∀ name, cache.mapReissuedAssetData.count name = true →
    ∃ out, nameOf out = name ∧
      (cache.newReissue.toAdd.count out = true ∨ cache.newReissue.toRemove.count out = true)

/-- What holds of the globals, so that both views agree. -/
structure StoredViews (nameOf : COutPoint → Bytes) (st : AssetState) : Prop where
  own : OwnRecords st
  exclusive : st.passets.newAssets.Exclusive
  cached : ∀ name data, st.passetsCache.find? name = some data →
    st.passetsdb.assetData.find? name = some data
  pending : Pending nameOf st.passets
  reissued : ∀ name, st.passets.mapReissuedAssetData.count name = true → Recorded st name

/-- The same for a local cache over the globals. -/
structure LocalViews (nameOf : COutPoint → Bytes) (st : AssetState) (cache : CAssetsCache) :
    Prop where
  own : OwnCache cache
  exclusive : cache.newAssets.Exclusive
  pending : Pending nameOf cache
  reissued : ∀ name, cache.mapReissuedAssetData.count name = true ∨
    st.passets.mapReissuedAssetData.count name = true → Known st cache name

theorem Pending.empty : Pending nameOf .empty where
  added _ _ h := by cases h
  removed _ _ h := by cases h
  staged _ h := by cases h

theorem StoredViews.genesis : StoredViews nameOf .genesis where
  own := OwnRecords.genesis
  exclusive := Staged.Exclusive.empty
  cached _ _ h := by cases h
  pending := Pending.empty
  reissued _ h := by cases h

theorem StoredViews.localViews (h : StoredViews nameOf st) : LocalViews nameOf st .empty where
  own := OwnCache.empty
  exclusive := Staged.Exclusive.empty
  pending := Pending.empty
  reissued name hname := by
    rcases hname with hnone | hname
    · cases hnone
    · exact known_empty.2 (h.reissued name hname)

/-! ## The two views -/

theorem assetOf_eq (h : StoredViews nameOf st) : assetOf st cache name =
    (cache.mapReissuedAssetData.find? name).or
      ((st.passets.mapReissuedAssetData.find? name).or (issuedAsset st cache name)) := by
  rw [assetOf, getAssetMetaDataIfExists]
  cases cache.mapReissuedAssetData.find? name with
  | some asset => rfl
  | none =>
    cases st.passets.mapReissuedAssetData.find? name with
    | some asset => rfl
    | none =>
      simp only [Option.none_or, issuedAsset]
      split
      · rfl
      · split
        · rfl
        · cases cache.newAssets.toAdd.find? name with
          | some item => rfl
          | none =>
            cases st.passets.newAssets.toAdd.find? name with
            | some item => rfl
            | none =>
              cases hcached : st.passetsCache.find? name with
              | some data =>
                rw [h.cached name data hcached]
                rfl
              | none => cases st.passetsdb.assetData.find? name <;> rfl

theorem isSome_assetOf (h : StoredViews nameOf st) (hcache : LocalViews nameOf st cache) :
    (assetOf st cache name).isSome = true ↔ Known st cache name := by
  rw [assetOf_eq h, Option.isSome_or, Option.isSome_or, Bool.or_eq_true, Bool.or_eq_true,
    isSome_issuedAsset]
  constructor
  · rintro (hlocal | hbelow | hknown)
    · exact hcache.reissued name (Or.inl hlocal)
    · exact hcache.reissued name (Or.inr hbelow)
    · exact hknown
  · exact fun hknown => Or.inr (Or.inr hknown)

theorem assetOf_eq_none (h : StoredViews nameOf st) (hcache : LocalViews nameOf st cache) :
    assetOf st cache name = none ↔ ¬Known st cache name := by
  rw [← isSome_assetOf h hcache]
  simp

theorem known_of_assetOf (h : StoredViews nameOf st) (hcache : LocalViews nameOf st cache)
    {asset : CNewAsset} (hasset : assetOf st cache name = some asset) : Known st cache name :=
  (isSome_assetOf h hcache).1 (by rw [hasset]; rfl)

theorem checkIfAssetExists_iff (h : StoredViews nameOf st) :
    cache.checkIfAssetExists env st name = true ↔ env.fReindex = true ∨ Known st cache name := by
  have hcached : st.passetsCache.exist name = true →
      st.passetsdb.assetData.count name = true := by
    intro hexist
    obtain ⟨data, hdata⟩ := Option.isSome_iff_exists.1 hexist
    exact count_of_find? (h.cached name data hdata)
  rw [checkIfAssetExists, Known]
  cases env.fReindex with
  | true => simp
  | false =>
    cases cache.newAssets.toRemove.count name <;>
      cases st.passets.newAssets.toRemove.count name <;> simp
    cases cache.newAssets.toAdd.count name <;> cases st.passets.newAssets.toAdd.count name <;> simp
    exact hcached

theorem not_known_of_not_exists (h : StoredViews nameOf st)
    (hexists : cache.checkIfAssetExists env st name = false) : ¬Known st cache name := by
  intro hknown
  rw [(checkIfAssetExists_iff h).2 (Or.inr hknown)] at hexists
  cases hexists

theorem LocalViews.not_reissued (hcache : LocalViews nameOf st cache) (h : ¬Known st cache name) :
    cache.mapReissuedAssetData.find? name = none ∧
      st.passets.mapReissuedAssetData.find? name = none := by
  rw [← count_eq_false, ← count_eq_false]
  constructor
  · by_contra hcount
    exact h (hcache.reissued name (Or.inl (Bool.eq_true_of_not_eq_false hcount)))
  · by_contra hcount
    exact h (hcache.reissued name (Or.inr (Bool.eq_true_of_not_eq_false hcount)))

/-! ## Updates of the local cache -/

theorem assetOf_congr (hreissued : cache'.mapReissuedAssetData = cache.mapReissuedAssetData)
    (hnew : cache'.newAssets = cache.newAssets) :
    assetOf st cache' name = assetOf st cache name := by
  rw [assetOf, getAssetMetaDataIfExists, hreissued, hnew, assetOf, getAssetMetaDataIfExists]

theorem LocalViews.congr (h : LocalViews nameOf st cache)
    (hreissued : cache'.mapReissuedAssetData = cache.mapReissuedAssetData)
    (hnew : cache'.newAssets = cache.newAssets) (hpending : cache'.newReissue = cache.newReissue) :
    LocalViews nameOf st cache' := by
  refine ⟨h.own.congr hnew hreissued, ?_, ⟨?_, ?_, ?_⟩, ?_⟩
  · rw [hnew]
    exact h.exclusive
  · rw [hpending]
    exact h.pending.added
  · rw [hpending]
    exact h.pending.removed
  · rw [hpending, hreissued]
    exact h.pending.staged
  · rw [hreissued]
    intro name hname
    rw [Known, hnew]
    exact h.reissued name hname

section Issues

variable {asset : CNewAsset} {address : Bytes} {nHeight : ℤ} {blockHash : uint256}

theorem addNewAsset_eq_some (h : cache.addNewAsset env st asset address nHeight blockHash =
    some cache') : cache.checkIfAssetExists env st asset.strName = false ∧ cache' = { cache with
      newAssets :=
        cache.newAssets.add false asset.strName ⟨asset, address, nHeight, blockHash⟩ } := by
  rw [CAssetsCache.addNewAsset] at h
  split at h
  · cases h
  · rename_i hexists
    cases h
    exact ⟨Bool.eq_false_of_not_eq_true hexists, rfl⟩

theorem removeNewAsset_eq_some (h : cache.removeNewAsset env st asset address = some cache') :
    cache' = { cache with
      newAssets := cache.newAssets.remove false asset.strName ⟨asset, address, 0, 0⟩ } := by
  rw [CAssetsCache.removeNewAsset] at h
  split at h
  · cases h
    rfl
  · cases h

theorem LocalViews.addNewAsset (hcache : LocalViews nameOf st cache)
    (h : cache.addNewAsset env st asset address nHeight blockHash = some cache') :
    LocalViews nameOf st cache' := by
  obtain ⟨-, rfl⟩ := addNewAsset_eq_some h
  refine ⟨⟨ownNames_put hcache.own.issued ⟨asset, address, nHeight, blockHash⟩,
    hcache.own.reissued⟩, hcache.exclusive.add, ⟨hcache.pending.added, hcache.pending.removed,
    hcache.pending.staged⟩, fun name hname => ?_⟩
  obtain ⟨hlocal, hbelow, hadded⟩ := hcache.reissued name hname
  refine ⟨?_, hbelow, ?_⟩
  · rw [Staged.count_add_toRemove, hlocal, Bool.and_false]
  · rw [Staged.count_add_toAdd, Bool.or_eq_true]
    exact hadded.imp_left Or.inr

theorem assetOf_addNewAsset (hst : StoredViews nameOf st) (hcache : LocalViews nameOf st cache)
    (h : cache.addNewAsset env st asset address nHeight blockHash = some cache') :
    assetOf st cache' name =
      if name = asset.strName then
        if st.passets.newAssets.toRemove.count name then none else some asset
      else assetOf st cache name := by
  obtain ⟨hexists, rfl⟩ := addNewAsset_eq_some h
  have hunknown := not_known_of_not_exists hst hexists
  rw [assetOf_eq hst, assetOf_eq hst]
  by_cases hname : name = asset.strName
  · subst hname
    obtain ⟨hlocal, hbelow⟩ := hcache.not_reissued hunknown
    rw [if_pos rfl]
    simp only [hlocal, hbelow, Option.none_or, issuedAsset, Staged.count_add_toRemove,
      decide_true, Bool.not_true, Bool.false_and, Bool.false_eq_true, if_false,
      Staged.find?_add_toAdd, if_true, Option.map_some, Option.some_or]
    split
    · rfl
    · rename_i hremove
      -- An entry that was there already would make the asset known.
      have hfree : cache.newAssets.toAdd.find? asset.strName = none := by
        cases hfind : cache.newAssets.toAdd.find? asset.strName with
        | none => rfl
        | some item =>
          have hnotRemoved := (hcache.exclusive asset.strName).resolve_left (by
            rw [hfind]
            exact Option.some_ne_none item)
          exact absurd ⟨count_eq_false.2 hnotRemoved, Bool.eq_false_of_not_eq_true hremove,
            Or.inl (count_of_find? hfind)⟩ hunknown
      rw [hfree, putValue_none]
  · rw [if_neg hname]
    simp only [issuedAsset, Staged.count_add_toRemove, Staged.find?_add_toAdd, if_neg hname,
      decide_eq_false hname, Bool.not_false, Bool.true_and]

theorem LocalViews.removeNewAsset (hcache : LocalViews nameOf st cache)
    (hlocal : cache.mapReissuedAssetData.find? asset.strName = none)
    (hbelow : st.passets.mapReissuedAssetData.find? asset.strName = none)
    (h : cache.removeNewAsset env st asset address = some cache') :
    LocalViews nameOf st cache' := by
  obtain rfl := removeNewAsset_eq_some h
  refine ⟨⟨fun k item hfind => ?_, hcache.own.reissued⟩, hcache.exclusive.remove,
    ⟨hcache.pending.added, hcache.pending.removed, hcache.pending.staged⟩, fun name hname => ?_⟩
  · rw [Staged.find?_remove_toAdd] at hfind
    split at hfind
    · cases hfind
    · exact hcache.own.issued k item hfind
  · have hne : name ≠ asset.strName := by
      rintro rfl
      rw [count_eq_false.2 hlocal, count_eq_false.2 hbelow] at hname
      rcases hname with hname | hname <;> cases hname
    obtain ⟨hnotRemoved, hbelow, hadded⟩ := hcache.reissued name hname
    refine ⟨?_, hbelow, ?_⟩
    · rw [Staged.count_remove_toRemove, hnotRemoved, decide_eq_false hne, Bool.or_false]
    · rw [Staged.count_remove_toAdd, decide_eq_false hne, Bool.not_false, Bool.true_and]
      exact hadded

theorem assetOf_removeNewAsset (hst : StoredViews nameOf st)
    (hlocal : cache.mapReissuedAssetData.find? asset.strName = none)
    (hbelow : st.passets.mapReissuedAssetData.find? asset.strName = none)
    (h : cache.removeNewAsset env st asset address = some cache') :
    assetOf st cache' name =
      if name = asset.strName then none else assetOf st cache name := by
  obtain rfl := removeNewAsset_eq_some h
  rw [assetOf_eq hst, assetOf_eq hst]
  by_cases hname : name = asset.strName
  · subst hname
    rw [if_pos rfl]
    simp [hlocal, hbelow, issuedAsset]
  · rw [if_neg hname]
    simp only [issuedAsset, Staged.count_remove_toRemove, Staged.find?_remove_toAdd, if_neg hname,
      decide_eq_false hname, Bool.false_or]

end Issues

section Reissues

variable {reissue : CReissueAsset} {address : Bytes} {out : COutPoint}

theorem assetOf_name (hst : StoredViews nameOf st) (hcache : LocalViews nameOf st cache)
    {asset : CNewAsset} (h : assetOf st cache name = some asset) : asset.strName = name := by
  obtain ⟨data, hdata, rfl⟩ := Option.map_eq_some_iff.1 h
  exact getAssetMetaDataIfExists_name hst.own hcache.own hdata

theorem LocalViews.withData (hcache : LocalViews nameOf st cache) {asset : CNewAsset}
    {newReissue : Staged COutPoint CAssetCacheReissueAsset} (hknown : Known st cache name)
    (hasset : asset.strName = name)
    (hkeyed : (∀ out item, newReissue.toAdd.find? out = some item →
        item.reissue.strName = nameOf out) ∧
      ∀ out item, newReissue.toRemove.find? out = some item → item.reissue.strName = nameOf out)
    (hkept : ∀ out, cache.newReissue.toAdd.count out = true ∨
        cache.newReissue.toRemove.count out = true →
      newReissue.toAdd.count out = true ∨ newReissue.toRemove.count out = true)
    (hout : nameOf out = name)
    (hstaged : newReissue.toAdd.count out = true ∨ newReissue.toRemove.count out = true) :
    LocalViews nameOf st { cache with
      mapReissuedAssetData := cache.mapReissuedAssetData.assign name asset
      newReissue := newReissue } := by
  refine ⟨⟨hcache.own.issued, ownReissues_assign hcache.own.reissued hasset⟩, hcache.exclusive,
    ⟨hkeyed.1, hkeyed.2, fun name' hname => ?_⟩, fun name' hname => ?_⟩
  · rw [count_assign, Bool.or_eq_true, decide_eq_true_eq] at hname
    rcases hname with rfl | hname
    · exact ⟨out, hout, hstaged⟩
    · obtain ⟨out', hout', hstaged'⟩ := hcache.pending.staged name' hname
      exact ⟨out', hout', hkept out' hstaged'⟩
  · rw [count_assign, Bool.or_eq_true, decide_eq_true_eq] at hname
    rcases hname with (rfl | hname) | hname
    · exact hknown
    · exact hcache.reissued name' (Or.inl hname)
    · exact hcache.reissued name' (Or.inr hname)

theorem assetOf_assign {asset : CNewAsset} (hst : StoredViews nameOf st)
    {newReissue : Staged COutPoint CAssetCacheReissueAsset} {name' : Bytes} :
    assetOf st { cache with
        mapReissuedAssetData := cache.mapReissuedAssetData.assign name asset
        newReissue := newReissue } name' =
      if name' = name then some asset else assetOf st cache name' := by
  rw [assetOf_eq hst, assetOf_eq hst]
  simp only [find?_assign]
  by_cases hname : name' = name
  · rw [if_pos hname, if_pos hname, Option.some_or]
  · rw [if_neg hname, if_neg hname]
    rfl

theorem keyed_put {m : StdMap COutPoint CAssetCacheReissueAsset} {item : CAssetCacheReissueAsset}
    (hm : ∀ out item, m.find? out = some item → item.reissue.strName = nameOf out)
    (hitem : item.reissue.strName = nameOf out) :
    ∀ out' item', (StdMap.put false m out item).find? out' = some item' →
      item'.reissue.strName = nameOf out' := by
  intro out' item' hfind
  rw [find?_put] at hfind
  split at hfind
  · rename_i heq
    cases hold : m.find? out with
    | none =>
      rw [hold, putValue_none] at hfind
      cases hfind
      rw [heq, hitem]
    | some old =>
      rw [hold, putValue_false_some] at hfind
      cases hfind
      rw [heq]
      exact hm out _ hold
  · exact hm out' item' hfind

def reissueItem (env : Env) (reissue : CReissueAsset) (address : Bytes) (out : COutPoint)
    (data : AssetMetaData) : CAssetCacheReissueAsset :=
  ⟨reissue, address, (issuedOr env out data).1, (issuedOr env out data).2⟩

theorem addReissueAsset_eq_some
    (h : cache.addReissueAsset env st reissue address out = some cache') :
    ∃ data, cache.getAssetMetaDataIfExists st reissue.strName = some data ∧
      cache' = { cache with
        mapReissuedAssetData :=
          cache.mapReissuedAssetData.assign reissue.strName (applyReissue data.asset reissue)
        newReissue :=
          cache.newReissue.add false out (reissueItem env reissue address out data) } := by
  rw [CAssetsCache.addReissueAsset] at h
  split at h
  · cases h
  · rename_i data hdata
    cases h
    have hsame : (cache.mapReissuedAssetData.find? reissue.strName).getD data.asset =
        data.asset := by
      rw [getAssetMetaDataIfExists] at hdata
      cases hfind : cache.mapReissuedAssetData.find? reissue.strName with
      | none => rfl
      | some asset =>
        rw [hfind] at hdata
        cases hdata
        rfl
    refine ⟨data, hdata, ?_⟩
    rw [hsame]
    rfl

theorem LocalViews.addReissueAsset (hst : StoredViews nameOf st)
    (hcache : LocalViews nameOf st cache) (hout : nameOf out = reissue.strName)
    (h : cache.addReissueAsset env st reissue address out = some cache') :
    LocalViews nameOf st cache' ∧ ∃ asset, assetOf st cache reissue.strName = some asset ∧
      ∀ name, assetOf st cache' name =
        if name = reissue.strName then some (applyReissue asset reissue)
        else assetOf st cache name := by
  obtain ⟨data, hdata, rfl⟩ := addReissueAsset_eq_some h
  have hasset : assetOf st cache reissue.strName = some data.asset := by
    rw [assetOf, hdata, Option.map_some]
  have hname : (applyReissue data.asset reissue).strName = reissue.strName := by
    have hfound := assetOf_name hst hcache hasset
    exact hfound
  refine ⟨hcache.withData (known_of_assetOf hst hcache hasset) hname ⟨?_, ?_⟩ ?_ hout ?_,
    data.asset, hasset, fun name => assetOf_assign hst⟩
  · exact keyed_put hcache.pending.added hout.symm
  · intro out' item' hfind
    rw [Staged.find?_add_toRemove] at hfind
    split at hfind
    · cases hfind
    · exact hcache.pending.removed out' item' hfind
  · intro out' hold
    rw [Staged.count_add_toAdd, Staged.count_add_toRemove]
    by_cases heq : out' = out
    · simp [heq]
    · simpa [heq] using hold
  · rw [Staged.count_add_toAdd, decide_eq_true rfl, Bool.true_or]
    exact Or.inl rfl

theorem removeReissueAsset_eq_some {vUndoIPFS : List (Bytes × CBlockAssetUndo)}
    (h : cache.removeReissueAsset env st reissue address out vUndoIPFS = some cache') :
    ∃ data, cache.getAssetMetaDataIfExists st reissue.strName = some data ∧
      let assetData := undoReissue data.asset reissue (findUndoItem vUndoIPFS reissue.strName)
      cache'.mapReissuedAssetData =
          cache.mapReissuedAssetData.assign assetData.strName assetData ∧
        cache'.newAssets = cache.newAssets ∧
        cache'.newReissue =
          cache.newReissue.remove false out (reissueItem env reissue address out data) := by
  rw [CAssetsCache.removeReissueAsset] at h
  split at h
  · cases h
  · rename_i data hdata
    refine ⟨data, hdata, ?_⟩
    simp only at h
    split at h
    · split at h
      · cases h
        exact ⟨rfl, rfl, rfl⟩
      · cases h
        exact ⟨rfl, rfl, rfl⟩
    · cases h
      exact ⟨rfl, rfl, rfl⟩

theorem strName_undoReissue {asset : CNewAsset} {undo : Option CBlockAssetUndo} :
    (undoReissue asset reissue undo).strName = asset.strName := by
  cases undo <;> rfl

theorem LocalViews.removeReissueAsset (hst : StoredViews nameOf st)
    (hcache : LocalViews nameOf st cache) (hout : nameOf out = reissue.strName)
    {vUndoIPFS : List (Bytes × CBlockAssetUndo)}
    (h : cache.removeReissueAsset env st reissue address out vUndoIPFS = some cache') :
    LocalViews nameOf st cache' ∧ ∃ asset, assetOf st cache reissue.strName = some asset ∧
      ∀ name, assetOf st cache' name =
        if name = reissue.strName then
          some (undoReissue asset reissue (findUndoItem vUndoIPFS reissue.strName))
        else assetOf st cache name := by
  obtain ⟨data, hdata, hreissued, hnew, hpending⟩ := removeReissueAsset_eq_some h
  have hasset : assetOf st cache reissue.strName = some data.asset := by
    rw [assetOf, hdata, Option.map_some]
  have hname := assetOf_name hst hcache hasset
  rw [strName_undoReissue, hname] at hreissued
  have hviews := @LocalViews.withData st cache reissue.strName nameOf out hcache
    (undoReissue data.asset reissue (findUndoItem vUndoIPFS reissue.strName))
    (cache.newReissue.remove false out (reissueItem env reissue address out data))
    (known_of_assetOf hst hcache hasset) (strName_undoReissue.trans hname) ⟨?_, ?_⟩ ?_ hout ?_
  · refine ⟨hviews.congr hreissued hnew hpending, data.asset, hasset, fun name => ?_⟩
    rw [← @assetOf_assign st cache reissue.strName nameOf _ hst
      (cache.newReissue.remove false out (reissueItem env reissue address out data)) name]
    exact assetOf_congr hreissued hnew
  · intro out' item' hfind
    rw [Staged.find?_remove_toAdd] at hfind
    split at hfind
    · cases hfind
    · exact hcache.pending.added out' item' hfind
  · exact keyed_put hcache.pending.removed hout.symm
  · intro out' hold
    rw [Staged.count_remove_toAdd, Staged.count_remove_toRemove]
    by_cases heq : out' = out
    · simp [heq]
    · simpa [heq] using hold
  · rw [Staged.count_remove_toRemove, decide_eq_true rfl, Bool.true_or]
    exact Or.inr rfl

end Reissues

theorem Pending.flush (hst : Pending nameOf st.passets) (hcache : Pending nameOf cache) :
    Pending nameOf (cache.flushInto st.passets) where
  added out item hfind := by
    rcases Staged.of_find?_flush_toAdd hfind with htop | hbottom
    · exact hcache.added out item htop
    · exact hst.added out item hbottom
  removed out item hfind := by
    rcases Staged.of_find?_flush_toRemove hfind with htop | hbottom
    · exact hcache.removed out item htop
    · exact hst.removed out item hbottom
  staged name hname := by
    -- A reissue of either layer is on one of the two sides after the flush.
    have hmoved : ∀ out, (cache.newReissue.toAdd.count out = true ∨
          cache.newReissue.toRemove.count out = true) ∨
        (st.passets.newReissue.toAdd.count out = true ∨
          st.passets.newReissue.toRemove.count out = true) →
        (cache.flushInto st.passets).newReissue.toAdd.count out = true ∨
          (cache.flushInto st.passets).newReissue.toRemove.count out = true := by
      intro out hout
      simp only [flushInto, Staged.count_flush_toAdd, Staged.count_flush_toRemove]
      revert hout
      cases cache.newReissue.toAdd.count out <;> cases cache.newReissue.toRemove.count out <;> simp
    have hupdate : (st.passets.mapReissuedAssetData.update cache.mapReissuedAssetData).count
        name = true := hname
    rw [StdMap.count, find?_update, Option.isSome_or, Bool.or_eq_true] at hupdate
    rcases hupdate with htop | hbottom
    · obtain ⟨out, hout, hstaged⟩ := hcache.staged name htop
      exact ⟨out, hout, hmoved out (Or.inl hstaged)⟩
    · obtain ⟨out, hout, hstaged⟩ := hst.staged name hbottom
      exact ⟨out, hout, hmoved out (Or.inr hstaged)⟩

theorem recorded_of_known (h : Known st cache name) : Recorded (st.flush cache) name := by
  obtain ⟨hlocal, hbelow, hadded⟩ := h
  rcases hadded with hadd | hrest
  · exact recorded_flush (Or.inl ⟨hadd, hlocal⟩)
  · exact recorded_flush (Or.inr ⟨⟨hbelow, hrest⟩, hlocal⟩)

theorem StoredViews.flush (hst : StoredViews nameOf st) (hcache : LocalViews nameOf st cache) :
    StoredViews nameOf (st.flush cache) where
  own := ⟨hcache.own.flushInto hst.own.passets, hst.own.cached, hst.own.stored⟩
  exclusive := hst.exclusive.flush
  cached := hst.cached
  pending := hst.pending.flush hcache.pending
  reissued name hname := by
    have hupdate : (st.passets.mapReissuedAssetData.update cache.mapReissuedAssetData).count
        name = true := hname
    rw [StdMap.count, find?_update, Option.isSome_or, Bool.or_eq_true] at hupdate
    exact recorded_of_known (hcache.reissued name hupdate)

theorem assetOf_flush (hst : StoredViews nameOf st) (hcache : LocalViews nameOf st cache)
    (hnew : cache.newAssets.toAdd.count name = true →
      st.passets.newAssets.toAdd.count name = false) :
    assetOf (st.flush cache) .empty name =
      if st.passets.newAssets.toRemove.count name then
        (cache.newAssets.toAdd.find? name).map CAssetCacheNewAsset.asset
      else assetOf st cache name := by
  have hreissued : (st.flush cache).passets.mapReissuedAssetData.find? name =
      (cache.mapReissuedAssetData.find? name).or
        (st.passets.mapReissuedAssetData.find? name) := find?_update _ _ _
  have hremove : (st.flush cache).passets.newAssets.toRemove.count name =
      (cache.newAssets.toRemove.count name ||
        !cache.newAssets.toAdd.count name && st.passets.newAssets.toRemove.count name) :=
    Staged.count_flush_toRemove
  have hadd : (st.flush cache).passets.newAssets.toAdd.find? name =
      if cache.newAssets.toRemove.count name then none
      else StdMap.merge false (cache.newAssets.toAdd.find? name)
        (st.passets.newAssets.toAdd.find? name) := Staged.find?_flush_toAdd
  have hdb : (st.flush cache).passetsdb = st.passetsdb := rfl
  have hlocalMap : CAssetsCache.empty.mapReissuedAssetData.find? name = none := rfl
  have hlocalRemove : CAssetsCache.empty.newAssets.toRemove.count name = false := rfl
  have hlocalAdd : CAssetsCache.empty.newAssets.toAdd.find? name = none := rfl
  rw [assetOf_eq (hst.flush hcache), hlocalMap, Option.none_or, hreissued, issuedAsset,
    hlocalRemove, if_neg Bool.false_ne_true, hremove, hlocalAdd, Option.map_none, Option.none_or,
    hadd, hdb]
  cases hwaiting : st.passets.newAssets.toRemove.count name with
  | true =>
    have hunknown : ¬Known st cache name := by
      rintro ⟨-, hbelow, -⟩
      rw [hwaiting] at hbelow
      cases hbelow
    obtain ⟨hnone, hnone'⟩ := hcache.not_reissued hunknown
    rw [hnone, hnone', if_pos rfl, Option.none_or, Option.none_or, Bool.and_true]
    cases hfind : cache.newAssets.toAdd.find? name with
    | none =>
      rw [count_eq_false.2 hfind, Bool.not_false, Bool.or_true, if_pos rfl]
      rfl
    | some item =>
      have hnotRemoved := (hcache.exclusive name).resolve_left (by
        rw [hfind]
        exact Option.some_ne_none item)
      have hbottom := count_eq_false.1 (hnew (count_of_find? hfind))
      rw [count_of_find? hfind, count_eq_false.2 hnotRemoved, hbottom]
      rfl
  | false =>
    rw [if_neg Bool.false_ne_true, assetOf_eq hst, issuedAsset, hwaiting, Option.or_assoc,
      if_neg Bool.false_ne_true, Bool.and_false, Bool.or_false]
    cases cache.newAssets.toRemove.count name with
    | true => rfl
    | false =>
      cases hfind : cache.newAssets.toAdd.find? name with
      | none =>
        rw [StdMap.merge]
        cases st.passets.newAssets.toAdd.find? name <;> rfl
      | some item =>
        rw [count_eq_false.1 (hnew (count_of_find? hfind))]
        rfl

/-! ## A dump -/

theorem cached_dump (hst : OwnRecords st) (hcached : ∀ name data,
      st.passetsCache.find? name = some data → st.passetsdb.assetData.find? name = some data)
    {data : CDatabasedAssetData}
    (h : (st.dumpCacheToDatabase env).passetsCache.find? name = some data) :
    (st.dumpCacheToDatabase env).passetsdb.assetData.find? name = some data := by
  have hremoved : ∀ (l : List (Bytes × CAssetCacheNewAsset)) (st : AssetState),
      (∀ name data, st.passetsCache.find? name = some data →
        st.passetsdb.assetData.find? name = some data) →
      ∀ name data, (l.foldl dumpRemovedAsset st).passetsCache.find? name = some data →
        (l.foldl dumpRemovedAsset st).passetsdb.assetData.find? name = some data := by
    intro l
    induction l with
    | nil => exact fun _ hcached => hcached
    | cons e l ih =>
      refine fun st hcached => ih _ fun name data hfind => ?_
      rw [dumpRemovedAsset, LruCache.find?_erase] at hfind
      rw [dumpRemovedAsset, find?_erase]
      split at hfind
      · cases hfind
      · rename_i hne
        rw [if_neg hne]
        exact hcached name data hfind
  have hadded : ∀ (l : List (Bytes × CAssetCacheNewAsset)) (st : AssetState),
      (∀ name data, st.passetsCache.find? name = some data →
        st.passetsdb.assetData.find? name = some data) →
      ∀ name data, (l.foldl dumpNewAsset st).passetsCache.find? name = some data →
        (l.foldl dumpNewAsset st).passetsdb.assetData.find? name = some data := by
    intro l
    induction l with
    | nil => exact fun _ hcached => hcached
    | cons e l ih =>
      refine fun st hcached => ih _ fun name data hfind => ?_
      rw [dumpNewAsset] at hfind
      rw [dumpNewAsset, CAssetsDB.writeAssetData, find?_assign]
      rcases LruCache.find?_put hfind with ⟨hname, hdata⟩ | ⟨hne, hold⟩
      · rw [if_pos hname, hdata]
      · rw [if_neg hne]
        exact hcached name data hold
  have hreissued : ∀ (l : List (COutPoint × CAssetCacheReissueAsset)) (st' : AssetState),
      (∀ name data, st'.passetsCache.find? name = some data →
        st'.passetsdb.assetData.find? name = some data) →
      ∀ name data, (l.foldl (dumpReissue st.passets) st').passetsCache.find? name = some data →
        (l.foldl (dumpReissue st.passets) st').passetsdb.assetData.find? name = some data := by
    intro l
    induction l with
    | nil => exact fun _ hcached => hcached
    | cons e l ih =>
      refine fun st' hcached => ih _ fun name data hfind => ?_
      rw [dumpReissue] at hfind ⊢
      split at hfind
      · rename_i asset hasset
        rw [LruCache.find?_erase] at hfind
        split at hfind
        · cases hfind
        · rename_i hne
          have hname := hst.passets.reissued _ _ hasset
          simp only [CAssetsDB.writeAssetData]
          rw [find?_assign, hname, if_neg hne]
          exact hcached name data hfind
      · exact hcached name data hfind
  rw [dump_passetsCache, dumpReissues_eq] at h
  rw [dump_passetsdb, dumpReissues_eq]
  refine hreissued _ _ ?_ name data h
  rw [dumpIssues]
  exact hadded _ _ (hremoved _ _ hcached)

theorem StoredViews.dump (h : StoredViews nameOf st) :
    StoredViews nameOf (st.dumpCacheToDatabase env) where
  own := h.own.dump
  exclusive := Staged.Exclusive.empty
  cached _ _ := cached_dump h.own h.cached
  pending := Pending.empty
  reissued _ hname := by cases hname

theorem mem_reissuesToDump (h : StoredViews nameOf st)
    (hname : st.passets.mapReissuedAssetData.count name = true) :
    ∃ e ∈ reissuesToDump st.passets, e.2.reissue.strName = name := by
  obtain ⟨out, hout, hstaged⟩ := h.pending.staged name hname
  obtain ⟨hnotRemoved, -⟩ := h.reissued name hname
  rw [reissuesToDump]
  rcases hstaged with hadd | hremove
  · obtain ⟨item, hitem⟩ := count_eq_true.1 hadd
    refine ⟨(out, item), List.mem_append_left _ (mem_entries.2 hitem), ?_⟩
    exact (h.pending.added out item hitem).trans hout
  · obtain ⟨item, hitem⟩ := count_eq_true.1 hremove
    have hitemName : item.reissue.strName = name := (h.pending.removed out item hitem).trans hout
    refine ⟨(out, item), List.mem_append_right _ (List.mem_filter.2
      ⟨mem_entries.2 hitem, ?_⟩), hitemName⟩
    rw [hitemName, hnotRemoved, Bool.not_false]

def CDatabasedAssetData.metaData (data : CDatabasedAssetData) : AssetMetaData :=
  ⟨data.asset, some (data.nHeight, data.blockHash)⟩

/-- The lookup without a local cache, of an asset that was not reissued since the last dump. -/
theorem metaData_eq (h : StoredViews nameOf st)
    (hreissued : st.passets.mapReissuedAssetData.find? name = none) :
    CAssetsCache.empty.getAssetMetaDataIfExists st name =
      if st.passets.newAssets.toRemove.count name then none
      else (((st.passets.newAssets.toAdd.find? name).map CAssetCacheNewAsset.toData).or
        (st.passetsdb.assetData.find? name)).map CDatabasedAssetData.metaData := by
  have hlocalMap : CAssetsCache.empty.mapReissuedAssetData.find? name = none := rfl
  have hlocalRemove : CAssetsCache.empty.newAssets.toRemove.count name = false := rfl
  have hlocalAdd : CAssetsCache.empty.newAssets.toAdd.find? name = none := rfl
  simp only [getAssetMetaDataIfExists, hlocalMap, hlocalRemove, hlocalAdd, hreissued,
    Bool.false_eq_true, if_false]
  split
  · rfl
  · cases st.passets.newAssets.toAdd.find? name with
    | some item => rfl
    | none =>
      cases hcached : st.passetsCache.find? name with
      | some data =>
        rw [h.cached name data hcached]
        rfl
      | none => cases st.passetsdb.assetData.find? name <;> rfl

theorem metaData_stored (h : StoredViews nameOf st) (hempty : st.passets = .empty) :
    CAssetsCache.empty.getAssetMetaDataIfExists st name =
      (st.passetsdb.assetData.find? name).map CDatabasedAssetData.metaData := by
  rw [metaData_eq h (by rw [hempty]; rfl), hempty]
  rfl

theorem assetOf_stored (h : StoredViews nameOf st) (hempty : st.passets = .empty) :
    assetOf st .empty name =
      (st.passetsdb.assetData.find? name).map CDatabasedAssetData.asset := by
  rw [assetOf, metaData_stored h hempty, Option.map_map]
  rfl

/-- **A dump** keeps the height and the hash of an issue unless the asset was reissued: those of the
last reissue are found from then on. -/
theorem metaData_dump_iff (h : StoredViews nameOf st) :
    CAssetsCache.empty.getAssetMetaDataIfExists (st.dumpCacheToDatabase env) name =
        CAssetsCache.empty.getAssetMetaDataIfExists st name ↔
      st.passets.mapReissuedAssetData.find? name = none := by
  rw [metaData_stored h.dump rfl]
  constructor
  · intro hsame
    cases hreissued : st.passets.mapReissuedAssetData.find? name with
    | none => rfl
    | some asset =>
      have hfound : CAssetsCache.empty.getAssetMetaDataIfExists st name = some ⟨asset, none⟩ := by
        have hlocalMap : CAssetsCache.empty.mapReissuedAssetData.find? name = none := rfl
        rw [getAssetMetaDataIfExists, hlocalMap, hreissued]
      rw [hfound] at hsame
      obtain ⟨data, -, hdata⟩ := Option.map_eq_some_iff.1 hsame
      cases hdata
  · intro hreissued
    rw [metaData_eq h hreissued, dump_passetsdb]
    rcases @find?_dumpReissues st.passets name (dumpIssues st.passets st)
      h.own.passets.reissued with ⟨-, hsame⟩ | ⟨e, -, -, asset, hasset, -⟩
    · rw [hsame, find?_dumpIssues h.own.passets.issued]
      cases hremove : st.passets.newAssets.toRemove.count name with
      | true =>
        have hadd := (h.exclusive name).resolve_right (by
          rw [StdMap.count] at hremove
          exact Option.isSome_iff_ne_none.1 hremove)
        rw [hadd]
        rfl
      | false => rfl
    · rw [hreissued] at hasset
      cases hasset

/-- **A dump** changes no asset. -/
theorem assetOf_dump (h : StoredViews nameOf st) :
    assetOf (st.dumpCacheToDatabase env) .empty name = assetOf st .empty name := by
  cases hreissued : st.passets.mapReissuedAssetData.find? name with
  | none => rw [assetOf, (metaData_dump_iff h).2 hreissued, assetOf]
  | some asset =>
    have hlocalMap : CAssetsCache.empty.mapReissuedAssetData.find? name = none := rfl
    rw [assetOf, metaData_stored h.dump rfl, assetOf_eq h, hlocalMap, hreissued, dump_passetsdb]
    rcases @find?_dumpReissues st.passets name (dumpIssues st.passets st)
      h.own.passets.reissued with ⟨hnone, -⟩ | ⟨e, -, -, asset', hasset, hdata⟩
    · obtain ⟨e, hmem, hname⟩ := mem_reissuesToDump h (count_of_find? hreissued)
      rcases hnone with hall | hnone
      · exact absurd hname (hall e hmem)
      · rw [hreissued] at hnone
        cases hnone
    · rw [hreissued] at hasset
      cases hasset
      rw [hdata]
      rfl

theorem StoredViews.congr {st' : AssetState} (h : StoredViews nameOf st)
    (hpassets : st'.passets = st.passets) (hcache : st'.passetsCache = st.passetsCache)
    (hdata : st'.passetsdb.assetData = st.passetsdb.assetData) : StoredViews nameOf st' := by
  refine ⟨⟨?_, ?_, ?_⟩, ?_, ?_, ?_, ?_⟩
  · rw [hpassets]
    exact h.own.passets
  · rw [hcache]
    exact h.own.cached
  · rw [hdata]
    exact h.own.stored
  · rw [hpassets]
    exact h.exclusive
  · rw [hcache, hdata]
    exact h.cached
  · rw [hpassets]
    exact h.pending
  · rw [hpassets]
    intro name hname
    rw [Recorded, hpassets, hdata]
    exact h.reissued name hname

theorem StoredViews.read (h : StoredViews nameOf st) (lookup : CacheRead) :
    StoredViews nameOf (st.read env lookup) := by
  obtain ⟨hpassets, hdb, -⟩ := read_passets env st lookup
  refine ⟨h.own.read lookup, ?_, ?_, ?_, ?_⟩
  · rw [hpassets]
    exact h.exclusive
  · intro name data hfind
    rw [hdb]
    cases lookup with
    | asset name' =>
      simp only [AssetState.read] at hfind
      split at hfind
      · rw [LruCache.find?_touch] at hfind
        exact h.cached name data hfind
      · split at hfind
        · rename_i data' hdata'
          rcases LruCache.find?_put hfind with ⟨hname, heq⟩ | ⟨-, hold⟩
          · rw [hname, heq, h.own.stored _ _ hdata']
            exact hdata'
          · exact h.cached name data hold
        · exact h.cached name data hfind
    | verifier name' => exact h.cached name data hfind
    | qualifier name' address => exact h.cached name data hfind
    | restriction name' address => exact h.cached name data hfind
    | globalRestriction name' => exact h.cached name data hfind
  · rw [hpassets]
    exact h.pending
  · rw [hpassets]
    intro name hname
    rw [Recorded, hpassets, hdb]
    exact h.reissued name hname

theorem assetOf_congr_state {st' : AssetState} (h : StoredViews nameOf st)
    (h' : StoredViews nameOf st') (hpassets : st'.passets = st.passets)
    (hdata : st'.passetsdb.assetData = st.passetsdb.assetData) :
    assetOf st' cache name = assetOf st cache name := by
  rw [assetOf_eq h', assetOf_eq h, issuedAsset, issuedAsset, hpassets, hdata]

theorem assetOf_read (h : StoredViews nameOf st) (lookup : CacheRead) :
    assetOf (st.read env lookup) cache name = assetOf st cache name := by
  obtain ⟨hpassets, hdb, -⟩ := read_passets env st lookup
  exact assetOf_congr_state h (h.read lookup) hpassets (by rw [hdb])

end UnemployCoin
