import UnemployCoin.CommandFrames
import UnemployCoin.Node
/-!
# Records under their own names

Every layer keeps the data of an asset under the name that the data says.  A lookup therefore
finds data of the asset it asks for, and what is made from the data goes under the same name.
-/

namespace UnemployCoin

open Check CAssetsCache StdMap

variable {env : Env} {st : AssetState} {cache cache' : CAssetsCache} {tx : CTransaction}
  {name : Bytes}

/-- The records of a layer of changes are under their names. -/
structure OwnCache (cache : CAssetsCache) : Prop where
  issued : OwnNames cache.newAssets.toAdd
  reissued : OwnReissues cache.mapReissuedAssetData

/-- The records behind the local caches are under their names. -/
structure OwnRecords (st : AssetState) : Prop where
  passets : OwnCache st.passets
  cached : ∀ name data, st.passetsCache.find? name = some data → data.asset.strName = name
  stored : ∀ name data, st.passetsdb.assetData.find? name = some data → data.asset.strName = name

theorem getAssetMetaDataIfExists_name (hst : OwnRecords st) (hcache : OwnCache cache)
    {data : AssetMetaData} (h : cache.getAssetMetaDataIfExists st name = some data) :
    data.asset.strName = name := by
  rw [getAssetMetaDataIfExists] at h
  split at h
  · rename_i hfind
    cases h
    exact hcache.reissued _ _ hfind
  · split at h
    · rename_i hfind
      cases h
      exact hst.passets.reissued _ _ hfind
    · split at h
      · cases h
      · split at h
        · cases h
        · split at h
          · rename_i hfind
            cases h
            exact hcache.issued _ _ hfind
          · split at h
            · rename_i hfind
              cases h
              exact hst.passets.issued _ _ hfind
            · split at h
              · rename_i hfind
                cases h
                exact hst.cached _ _ hfind
              · split at h
                · rename_i hfind
                  cases h
                  exact hst.stored _ _ hfind
                · cases h

/-! ## The local cache -/

theorem OwnCache.empty : OwnCache .empty :=
  ⟨fun _ _ h => by simp [CAssetsCache.empty] at h, fun _ _ h => by simp [CAssetsCache.empty] at h⟩

theorem OwnCache.congr (h : OwnCache cache) (hadd : cache'.newAssets = cache.newAssets)
    (hreissued : cache'.mapReissuedAssetData = cache.mapReissuedAssetData) : OwnCache cache' := by
  constructor
  · rw [hadd]
    exact h.issued
  · rw [hreissued]
    exact h.reissued

theorem ownNames_put {m : StdMap Bytes CAssetCacheNewAsset} (h : OwnNames m)
    (item : CAssetCacheNewAsset) : OwnNames (StdMap.put false m item.asset.strName item) := by
  intro k item' hfind
  rw [find?_put] at hfind
  split at hfind
  · rename_i hk
    cases hold : m.find? item.asset.strName with
    | none =>
      rw [hold] at hfind
      cases hfind
      exact hk.symm
    | some old =>
      rw [hold] at hfind
      cases hfind
      exact (h _ _ hold).trans hk.symm
  · exact h k item' hfind

theorem ownReissues_assign {m : StdMap Bytes CNewAsset} (h : OwnReissues m) {asset : CNewAsset}
    (hname : asset.strName = name) : OwnReissues (m.assign name asset) := by
  intro k asset' hfind
  rw [find?_assign] at hfind
  split at hfind
  · rename_i hk
    cases hfind
    exact hname.trans hk.symm
  · exact h k asset' hfind

theorem OwnCache.tryAddNewAsset {nHeight : ℤ} {blockHash : uint256} (h : OwnCache cache)
    (record : WithAddress CNewAsset) :
    OwnCache (tryAddNewAsset env st nHeight blockHash cache record) := by
  rw [UnemployCoin.tryAddNewAsset, addNewAsset]
  split
  · exact h
  · have hput : OwnNames (StdMap.put false cache.newAssets.toAdd record.1.strName
        ⟨record.1, record.2, nHeight, blockHash⟩) :=
      ownNames_put h.issued ⟨record.1, record.2, nHeight, blockHash⟩
    exact ⟨hput, h.reissued⟩

theorem OwnCache.addReissueAsset (hst : OwnRecords st) (h : OwnCache cache)
    {reissue : CReissueAsset} {address : Bytes} {out : COutPoint}
    (hadd : cache.addReissueAsset env st reissue address out = some cache') : OwnCache cache' := by
  rw [CAssetsCache.addReissueAsset] at hadd
  split at hadd
  · cases hadd
  · rename_i data hdata
    cases hadd
    refine ⟨h.issued, ownReissues_assign h.reissued ?_⟩
    have hname : (applyReissue ((cache.mapReissuedAssetData.find? reissue.strName).getD
        data.asset) reissue).strName =
        ((cache.mapReissuedAssetData.find? reissue.strName).getD data.asset).strName := rfl
    rw [hname]
    cases hown : cache.mapReissuedAssetData.find? reissue.strName with
    | none => exact getAssetMetaDataIfExists_name hst h hdata
    | some asset => exact h.reissued _ _ hown

theorem OwnCache.removeReissueAsset (h : OwnCache cache) {reissue : CReissueAsset}
    {address : Bytes} {out : COutPoint} {vUndoIPFS : List (Bytes × CBlockAssetUndo)}
    (hremove : cache.removeReissueAsset env st reissue address out vUndoIPFS = some cache') :
    OwnCache cache' := by
  rw [CAssetsCache.removeReissueAsset] at hremove
  split at hremove
  · cases hremove
  · simp only at hremove
    split at hremove
    · split at hremove <;> cases hremove <;>
        exact ⟨h.issued, ownReissues_assign h.reissued rfl⟩
    · cases hremove
      exact ⟨h.issued, ownReissues_assign h.reissued rfl⟩

theorem OwnCache.addAssets (hst : OwnRecords st) (h : OwnCache cache) {nHeight : ℤ}
    {blockHash : uint256} : OwnCache (addAssets env st nHeight blockHash tx cache).1 := by
  have hreissue : ∀ (reissue : CReissueAsset) (address : Bytes) (out : COutPoint),
      OwnCache ((cache.addReissueAsset env st reissue address out).getD cache) := by
    intro reissue address out
    cases hadd : cache.addReissueAsset env st reissue address out with
    | none => exact h
    | some cache' => exact h.addReissueAsset hst hadd
  rw [UnemployCoin.addAssets]
  split
  · exact h.tryAddNewAsset _
  · simp only [addReissue]
    split
    · exact (hreissue _ _ _).congr rfl rfl
    · exact hreissue _ _ _
  · exact List.foldlRecOn _ _ h fun c hc record _ => hc.tryAddNewAsset record
  · exact h.tryAddNewAsset _
  · exact h.tryAddNewAsset _
  · simp only [addRestricted]
    split
    · exact h.tryAddNewAsset _
    · exact (h.tryAddNewAsset _).congr rfl rfl
  · exact h

theorem OwnCache.of_recordPart (h : OwnCache cache) (hpart : cache'.recordPart = cache.recordPart) :
    OwnCache cache' :=
  h.congr (congrArg (fun part => part.2.1) hpart) (congrArg Prod.fst hpart)

theorem OwnCache.updateAssets (hst : OwnRecords st) (h : OwnCache cache) {nHeight : ℤ}
    {blockHash : uint256} : OwnCache (updateAssets env st nHeight blockHash tx cache).1 := by
  rw [UnemployCoin.updateAssets]
  split
  · exact (h.addAssets hst).of_recordPart (addCommands_recordPart _ _)
  · exact h

theorem OwnCache.undoNewAsset {record : WithAddress CNewAsset} (h : OwnCache cache)
    (hundo : undoNewAsset env st cache record = .ok cache') : OwnCache cache' := by
  rw [UnemployCoin.undoNewAsset, removeNewAsset] at hundo
  split at hundo
  · rw [demand_ok] at hundo
    cases hundo
    refine ⟨fun k item hfind => ?_, h.reissued⟩
    have herase : (cache.newAssets.toAdd.erase record.1.strName).find? k = some item := hfind
    rw [find?_erase] at herase
    split at herase
    · cases herase
    · exact h.issued k item herase
  · cases hundo
    exact h

theorem OwnCache.undoNewAssetOf {record : Option (WithAddress CNewAsset)} (h : OwnCache cache)
    (hundo : undoNewAssetOf env st record cache = .ok cache') : OwnCache cache' := by
  rw [UnemployCoin.undoNewAssetOf, demand_bind] at hundo
  obtain ⟨record, -, hundo⟩ := hundo
  exact h.undoNewAsset hundo

theorem OwnCache.removeAssets {vUndoData : List (Bytes × CBlockAssetUndo)} (h : OwnCache cache)
    (hremove : removeAssets env st vUndoData tx cache = .ok cache') : OwnCache cache' := by
  rw [UnemployCoin.removeAssets] at hremove
  split at hremove
  · rw [bind_ok] at hremove
    obtain ⟨c, hc, hremove⟩ := hremove
    rw [demand_bind] at hremove
    obtain ⟨owner, -, hremove⟩ := hremove
    cases hremove
    exact h.undoNewAssetOf hc
  · rw [undoReissueOf, demand_bind] at hremove
    obtain ⟨⟨reissue, strAddress⟩, -, hremove⟩ := hremove
    simp only at hremove
    split at hremove
    · exact h.removeReissueAsset (demand_ok.1 hremove)
    · cases hremove
      exact h
  · exact foldlM_invariant (fun c record c' _ hc hundo => OwnCache.undoNewAsset hc hundo) h hremove
  · exact h.undoNewAssetOf hremove
  · exact h.undoNewAssetOf hremove
  · rw [demand_bind] at hremove
    obtain ⟨record, -, hremove⟩ := hremove
    rw [bind_ok] at hremove
    obtain ⟨c, hc, hremove⟩ := hremove
    rw [bind_ok] at hremove
    obtain ⟨verifier, -, hremove⟩ := hremove
    cases hremove
    exact (h.undoNewAsset hc).congr rfl rfl
  · cases hremove
    exact h

theorem OwnCache.downdateAssets {vUndoData : List (Bytes × CBlockAssetUndo)} (h : OwnCache cache)
    (hdowndate : downdateAssets env st vUndoData tx cache = .ok cache') : OwnCache cache' := by
  rw [UnemployCoin.downdateAssets] at hdowndate
  split at hdowndate
  · rw [bind_ok] at hdowndate
    obtain ⟨c, hc, hdowndate⟩ := hdowndate
    rw [unit_bind, onlyIf_bind, pure_ok] at hdowndate
    obtain ⟨-, -, rfl⟩ := hdowndate
    have hown := h.removeAssets hc
    split
    · exact hown.of_recordPart (removeCommands_recordPart _ _)
    · exact hown
  · cases hdowndate
    exact h

theorem connectBlock_own {view : CCoinsView} {ctx : BlockContext} {block : CBlock}
    {s : ConnectState} (hst : OwnRecords st)
    (hgenesis : block.hash ≠ env.params.hashGenesisBlock)
    (h : connectBlock env st ctx block view .empty = .ok s) : OwnCache s.assetsCache := by
  obtain ⟨-, hfold, -⟩ := connectBlock_ok hgenesis h
  refine foldlM_invariant (I := fun s : ConnectState => OwnCache s.assetsCache) ?_
    OwnCache.empty hfold
  intro s tx s' _ hs hround
  rw [(connectTx_ok hround).2.2.1]
  exact hs.updateAssets hst

theorem disconnectBlock_own {nHeight : ℕ} {block : CBlock} {vtxundo : List CTxUndo}
    {vUndoData : List (Bytes × CBlockAssetUndo)} {view : CCoinsView} {s : DisconnectState}
    (h : disconnectBlock env st nHeight block vtxundo vUndoData view .empty = .ok s) :
    OwnCache s.assetsCache := by
  rw [disconnectBlock, require_bind] at h
  obtain ⟨-, hfold⟩ := h
  refine foldlM_invariant (I := fun s : DisconnectState => OwnCache s.assetsCache) ?_
    OwnCache.empty hfold
  intro s e s' _ hs hround
  exact hs.downdateAssets (disconnectTx_assetsCache hround)

/-! ## A node -/

theorem OwnRecords.genesis : OwnRecords .genesis where
  passets := OwnCache.empty
  cached _ _ h := by
    rw [AssetState.genesis, LruCache.find?_ofSize] at h
    cases h
  stored _ _ h := by
    rw [AssetState.genesis, find?_empty] at h
    cases h

theorem OwnCache.flushInto (h : OwnCache cache) (h' : OwnCache cache') :
    OwnCache (cache.flushInto cache') := by
  constructor
  · intro k item hfind
    rcases Staged.of_find?_flush_toAdd hfind with htop | hbottom
    · exact h.issued k item htop
    · exact h'.issued k item hbottom
  · intro k asset hfind
    have hupdate : (cache'.mapReissuedAssetData.update cache.mapReissuedAssetData).find? k =
        some asset := hfind
    rw [find?_update, Option.or_eq_some_iff] at hupdate
    rcases hupdate with htop | ⟨-, hbottom⟩
    · exact h.reissued k asset htop
    · exact h'.reissued k asset hbottom

theorem find?_passetsCache_dump {data : CDatabasedAssetData}
    (h : (st.dumpCacheToDatabase env).passetsCache.find? name = some data) :
    st.passetsCache.find? name = some data ∨
      ∃ e ∈ st.passets.newAssets.toAdd.entries, e.2.asset.strName = name ∧ e.2.toData = data := by
  have hremoved : ∀ (l : List (Bytes × CAssetCacheNewAsset)) (st : AssetState),
      (l.foldl dumpRemovedAsset st).passetsCache.find? name = some data →
        st.passetsCache.find? name = some data := by
    intro l
    induction l with
    | nil => exact fun _ h => h
    | cons e l ih =>
      intro st h
      have hrest := ih _ h
      rw [dumpRemovedAsset, LruCache.find?_erase] at hrest
      split at hrest
      · cases hrest
      · exact hrest
  have hadded : ∀ (l : List (Bytes × CAssetCacheNewAsset)) (st : AssetState),
      (l.foldl dumpNewAsset st).passetsCache.find? name = some data →
        st.passetsCache.find? name = some data ∨
          ∃ e ∈ l, e.2.asset.strName = name ∧ e.2.toData = data := by
    intro l
    induction l with
    | nil => exact fun _ h => Or.inl h
    | cons e l ih =>
      intro st h
      rcases ih _ h with hrest | ⟨e', hmem, hdata⟩
      · rw [dumpNewAsset] at hrest
        rcases LruCache.find?_put hrest with ⟨hname, hdata⟩ | ⟨-, hold⟩
        · exact Or.inr ⟨e, List.mem_cons_self, hname.symm, hdata.symm⟩
        · exact Or.inl hold
      · exact Or.inr ⟨e', List.mem_cons_of_mem e hmem, hdata⟩
  have hreissued : ∀ (l : List (COutPoint × CAssetCacheReissueAsset)) (st' : AssetState),
      (l.foldl (dumpReissue st.passets) st').passetsCache.find? name = some data →
        st'.passetsCache.find? name = some data := by
    intro l
    induction l with
    | nil => exact fun _ h => h
    | cons e l ih =>
      intro st' h
      have hrest := ih _ h
      rw [dumpReissue] at hrest
      split at hrest
      · rw [LruCache.find?_erase] at hrest
        split at hrest
        · cases hrest
        · exact hrest
      · exact hrest
  rw [dump_passetsCache, dumpReissues_eq] at h
  have hissues := hreissued _ _ h
  rw [dumpIssues] at hissues
  rcases hadded _ _ hissues with hold | hnew
  · exact Or.inl (hremoved _ _ hold)
  · exact Or.inr hnew

theorem OwnRecords.dump (h : OwnRecords st) : OwnRecords (st.dumpCacheToDatabase env) := by
  refine ⟨OwnCache.empty, fun name data hfind => ?_, fun name data hfind => ?_⟩
  · rcases find?_passetsCache_dump hfind with hold | ⟨e, -, hname, rfl⟩
    · exact h.cached name data hold
    · exact hname
  · rw [dump_passetsdb] at hfind
    rcases @find?_dumpReissues st.passets name (dumpIssues st.passets st) h.passets.reissued with
      ⟨-, hsame⟩ | ⟨e, -, -, asset, hasset, hdata⟩
    · rw [hsame, find?_dumpIssues h.passets.issued, Option.or_eq_some_iff] at hfind
      rcases hfind with hnew | ⟨-, hold⟩
      · obtain ⟨item, hitem, rfl⟩ := Option.map_eq_some_iff.1 hnew
        exact h.passets.issued name item hitem
      · split at hold
        · cases hold
        · exact h.stored name data hold
    · rw [hdata] at hfind
      cases hfind
      exact h.passets.reissued name asset hasset

theorem OwnRecords.read (h : OwnRecords st) (lookup : CacheRead) :
    OwnRecords (st.read env lookup) := by
  cases lookup with
  | asset name =>
    refine ⟨h.passets, fun k data hfind => ?_, h.stored⟩
    simp only [AssetState.read] at hfind
    split at hfind
    · rw [LruCache.find?_touch] at hfind
      exact h.cached k data hfind
    · split at hfind
      · rcases LruCache.find?_put hfind with ⟨hk, rfl⟩ | ⟨-, hold⟩
        · exact hk.symm
        · exact h.cached k data hold
      · exact h.cached k data hfind
  | verifier name => exact ⟨h.passets, h.cached, h.stored⟩
  | qualifier name address => exact ⟨h.passets, h.cached, h.stored⟩
  | restriction name address => exact ⟨h.passets, h.cached, h.stored⟩
  | globalRestriction name => exact ⟨h.passets, h.cached, h.stored⟩

theorem OwnRecords.step {n n' : Node} {e : NodeEvent} (hn : OwnRecords n.st)
    (h : (node env).step n e = some n') : OwnRecords n'.st := by
  cases e with
  | connectTip ctx block =>
    obtain ⟨s, hs, hgenesis, -, -, blockUndo, hst⟩ := connectTip_eq_some h
    rw [hst]
    have hgenesis' : block.hash ≠ (env.withTip ctx).params.hashGenesisBlock := hgenesis
    exact ⟨(connectBlock_own hn hgenesis' hs).flushInto hn.passets, hn.cached, hn.stored⟩
  | disconnectTip ctx =>
    obtain ⟨block, vtxundo, s, -, hs, -, -, hst⟩ := disconnectTip_eq_some h
    rw [hst]
    exact ⟨(disconnectBlock_own hs).flushInto hn.passets, hn.cached, hn.stored⟩
  | dump =>
    cases h
    exact hn.dump
  | read lookup =>
    cases h
    exact hn.read lookup

/-- **Every run** keeps the records under their names. -/
theorem ownRecords_exec {events : List NodeEvent} {n : Node}
    (h : (node env).exec .genesis events = some n) : OwnRecords n.st := by
  have halong : (node env).Along (fun _ _ => True) .genesis events :=
    Machine.Along.of_forall fun _ _ _ => trivial
  exact Machine.exec_invariant (I := fun n : Node => OwnRecords n.st)
    (fun _ _ _ hn _ hstep => hn.step hstep) OwnRecords.genesis halong h

end UnemployCoin
