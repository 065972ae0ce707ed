import UnemployCoin.RecordRefinement
import UnemployCoin.ReplayBlocks
import UnemployCoin.VerifierRefinement
/-!
# The asset state after a restart

What is left of the asset state when the process is started again is the databases.  Replaying
blocks does not touch it.
-/

namespace UnemployCoin

open Check CAssetsCache Toggles

variable {env : Env} {st st' : AssetState} {nameOf : COutPoint → Bytes}
  {chainOf : uint256 → List CBlock} {K : Set (Bytes × Bytes)} {chain : List CBlock} {n n' : Node}

/-- The asset state of a process that has just been started: **only the databases** are left. -/
def AssetState.restarted (st : AssetState) : AssetState :=
  { AssetState.genesis with passetsdb := st.passetsdb, prestricteddb := st.prestricteddb }

/-- The databases hold what the blocks of a chain make of the assets. -/
structure StoredOn (env : Env) (K : Set (Bytes × Bytes)) (st : AssetState) (chain : List CBlock) :
    Prop where
  records : ∀ name, (st.passetsdb.assetData.find? name).map CDatabasedAssetData.asset =
    assetOn env chain name
  verifiers : ∀ name, st.prestricteddb.verifiers.find? name = verifierOn env chain name
  tags : ∀ key : Bytes × Bytes, st.prestricteddb.addressQualifiers.count key.swap = true ↔
    key ∈ taggedAddresses env chain
  addresses : ∀ key ∈ K, st.prestricteddb.restrictedAddresses.count key.swap = true ↔
    key ∈ frozenAddresses env chain
  assets : ∀ name, st.prestricteddb.globalRestrictions.count name = true ↔
    name ∈ frozenAssets env chain

/-- The databases hold the same; of the records, all but the height and the hash of the block. -/
structure SameEntries (K : Set (Bytes × Bytes)) (st st' : AssetState) : Prop where
  records : ∀ name, (st.passetsdb.assetData.find? name).map CDatabasedAssetData.asset =
    (st'.passetsdb.assetData.find? name).map CDatabasedAssetData.asset
  verifiers : ∀ name, st.prestricteddb.verifiers.find? name =
    st'.prestricteddb.verifiers.find? name
  tags : ∀ key, st.prestricteddb.addressQualifiers.count key =
    st'.prestricteddb.addressQualifiers.count key
  addresses : ∀ key ∈ K, st.prestricteddb.restrictedAddresses.count key.swap =
    st'.prestricteddb.restrictedAddresses.count key.swap
  assets : ∀ name, st.prestricteddb.globalRestrictions.count name =
    st'.prestricteddb.globalRestrictions.count name

theorem StoredOn.iff_sameEntries (h : StoredOn env K st' chain) :
    StoredOn env K st chain ↔ SameEntries K st st' := by
  constructor
  · refine fun hst => ⟨fun name => ?_, fun name => ?_, fun key => ?_, fun key hkey => ?_,
      fun name => ?_⟩
    · rw [hst.records, h.records]
    · rw [hst.verifiers, h.verifiers]
    · rw [Bool.eq_iff_iff, ← Prod.swap_swap key, hst.tags, h.tags]
    · rw [Bool.eq_iff_iff, hst.addresses key hkey, h.addresses key hkey]
    · rw [Bool.eq_iff_iff, hst.assets, h.assets]
  · refine fun hsame => ⟨fun name => ?_, fun name => ?_, fun key => ?_, fun key hkey => ?_,
      fun name => ?_⟩
    · rw [hsame.records, h.records]
    · rw [hsame.verifiers, h.verifiers]
    · rw [hsame.tags, h.tags]
    · rw [hsame.addresses key hkey, h.addresses key hkey]
    · rw [hsame.assets, h.assets]

/-! ## A node that is tracked -/

/-- What holds of the blocks of a chain that a node has connected. -/
structure ChainFacts (env : Env) (nameOf : COutPoint → Bytes) (chainOf : uint256 → List CBlock)
    (K : Set (Bytes × Bytes)) (chain : List CBlock) : Prop where
  verifiers : ChainVerifiers env chainOf chain
  freezes : ChainChanges env K chain
  tags : ChainTags env K chain
  records : ChainRecords env chainOf chain
  range : ∀ name asset, assetOn env chain name = some asset → InRange asset
  covers : ∀ name, reissuedIn env name (chainTxs chain) ≤ amountOf (assetOn env chain name)
  nonneg : ReissuesNonneg env (chainTxs chain)
  named : ReissuesNamed env nameOf (chainTxs chain)
  first : IssuesFirst env chain

theorem ChainFacts.nil : ChainFacts env nameOf chainOf K [] where
  verifiers := trivial
  freezes := trivial
  tags := trivial
  records := trivial
  range _ _ h := by cases h
  covers _ := le_rfl
  nonneg _ h := nomatch h
  named _ h := nomatch h
  first := trivial

theorem ChainFacts.chainOf_head {block : CBlock}
    (h : ChainFacts env nameOf chainOf K (block :: chain)) :
    chainOf block.hash = block :: chain := h.records.2.1

structure NodeTracked (env : Env) (nameOf : COutPoint → Bytes) (chainOf : uint256 → List CBlock)
    (K : Set (Bytes × Bytes)) (n : Node) : Prop where
  verifiers : VerifiersTracked env chainOf n
  freezes : FreezesTracked env K n
  tags : ∃ log, TagsTracked env K log n
  records : RecordsTracked env nameOf chainOf n

theorem NodeTracked.genesis : NodeTracked env nameOf chainOf K .genesis :=
  ⟨.genesis, .genesis, ⟨_, .genesis⟩, .genesis⟩

/-- The condition on a step: those for the verifier strings, the freezes, the tags and the
records. -/
structure AssetStep (env : Env) (nameOf : COutPoint → Bytes) (chainOf : uint256 → List CBlock)
    (K : Set (Bytes × Bytes)) (n : Node) (e : NodeEvent) : Prop where
  verifiers : VerifierStep env chainOf n e
  freezes : FreezeStep env K n e
  tags : TagStep env K n e
  records : RecordStep env nameOf chainOf n e

theorem NodeTracked.step {e : NodeEvent} (hn : NodeTracked env nameOf chainOf K n)
    (hinj : Set.InjOn (fun key : Bytes × Bytes => cacheHash env key.1 key.2) K)
    (he : AssetStep env nameOf chainOf K n e) (h : (node env).step n e = some n') :
    NodeTracked env nameOf chainOf K n' := by
  obtain ⟨log, htags⟩ := hn.tags
  exact ⟨hn.verifiers.step he.verifiers h, hn.freezes.step hinj he.freezes h,
    ⟨_, htags.step hinj he.tags h⟩, hn.records.step he.records h⟩

theorem NodeTracked.facts (hn : NodeTracked env nameOf chainOf K n) :
    ChainFacts env nameOf chainOf K n.chainActive := by
  obtain ⟨log, htags⟩ := hn.tags
  have hbounded := hn.records.bounded
  refine ⟨hn.verifiers.blocks, hn.freezes.changes, htags.changes, hn.records.blocks,
    fun name asset hasset => ?_, fun name => ?_, hbounded.nonneg, hbounded.named, hbounded.first⟩
  · rw [← hn.records.answer] at hasset
    exact hbounded.range name asset hasset
  · rw [← hn.records.answer]
    exact hbounded.covers name

theorem NodeTracked.stored (hn : NodeTracked env nameOf chainOf K n)
    (hempty : n.st.passets = .empty) : StoredOn env K n.st n.chainActive := by
  obtain ⟨log, htags⟩ := hn.tags
  refine ⟨fun name => ?_, fun name => ?_, fun key => ?_, fun key hkey => ?_, fun name => ?_⟩
  · rw [← hn.records.answer, assetOf_stored hn.records.bounded.views hempty]
  · have hunstaged : Slots.Unstaged (verifierLayers n.st).staged name := by
      rw [verifierLayers, hempty]
      exact ⟨rfl, rfl⟩
    exact hn.verifiers.layers.stored hunstaged
  · have hside : side (tagLayers n.st).staged key = none := by
      rw [tagLayers, hempty]
      exact side_empty
    constructor
    · intro hcount
      exact (htags.layers.of_side_none (htags.stored key hcount).1 hside).1 hcount
    · intro hmem
      exact (htags.layers.of_side_none (htags.changes.taggedAddresses_subset hmem).1 hside).2 hmem
  · refine hn.freezes.addresses.of_side_none hkey ?_
    rw [addressLayers, hempty]
    exact side_empty
  · refine hn.freezes.assets.of_side_none (Set.mem_univ name) ?_
    rw [assetLayers, hempty]
    exact side_empty

/-- **After a dump** the databases hold what the active chain says. -/
theorem NodeTracked.dump_stored (hn : NodeTracked env nameOf chainOf K n)
    (hinj : Set.InjOn (fun key : Bytes × Bytes => cacheHash env key.1 key.2) K) :
    StoredOn env K (n.st.dumpCacheToDatabase env) n.chainActive := by
  have hdumped : NodeTracked env nameOf chainOf K { n with st := n.st.dumpCacheToDatabase env } :=
    hn.step (e := .dump) hinj ⟨trivial, trivial, trivial, trivial⟩ rfl
  exact hdumped.stored rfl

/-! ## What is read -/

/-- **The asset state follows the chain.**  The databases hold, and the lookups find, what the
blocks of the active chain make of the assets. -/
structure AssetsFollow (env : Env) (K : Set (Bytes × Bytes)) (n : Node) : Prop where
  stored : StoredOn env K n.st n.chainActive
  records : ∀ name, assetOf n.st .empty name = assetOn env n.chainActive name
  exist : ∀ name, CAssetsCache.empty.checkIfAssetExists env n.st name =
    (env.fReindex || (assetOn env n.chainActive name).isSome)
  verifiers : ∀ name fSkipTempCache,
    CAssetsCache.empty.getAssetVerifierStringIfExists n.st name fSkipTempCache =
      verifierOn env n.chainActive name
  tags : ∀ name address fSkipTempCache, (name, address) ∈ K →
    (CAssetsCache.empty.checkForAddressQualifier env n.st name address fSkipTempCache = true ↔
      CarriesTag (taggedAddresses env n.chainActive) name address)
  addresses : ∀ name address fSkipTempCache, (name, address) ∈ K →
    (CAssetsCache.empty.checkForAddressRestriction env n.st name address fSkipTempCache = true ↔
      (name, address) ∈ frozenAddresses env n.chainActive)
  assets : ∀ name fSkipTempCache,
    CAssetsCache.empty.checkForGlobalRestriction n.st name fSkipTempCache = true ↔
      name ∈ frozenAssets env n.chainActive

theorem TagsTracked.staged_eq_nil {log : TagHistory} (hn : TagsTracked env K log n)
    (hempty : n.st.passets = .empty) : log.staged = [] := by
  rw [List.eq_nil_iff_forall_not_mem]
  intro e he
  have hside := hn.onSide e.1
  rw [hempty] at hside
  have hnone : last? log.staged e.1 = none := hside.symm
  exact last?_eq_none.1 hnone e he rfl

theorem NodeTracked.follows (hn : NodeTracked env nameOf chainOf K n)
    (hempty : n.st.passets = .empty) : AssetsFollow env K n := by
  obtain ⟨log, htags⟩ := hn.tags
  have hviews := hn.records.bounded.views
  refine ⟨hn.stored hempty, hn.records.answer, fun name => ?_, fun name fSkipTempCache => ?_,
    fun name address fSkipTempCache hkey => ?_, fun name address fSkipTempCache hkey => ?_,
    fun name fSkipTempCache => ?_⟩
  · rw [Bool.eq_iff_iff, checkIfAssetExists_iff hviews, Bool.or_eq_true, ← hn.records.answer,
      isSome_assetOf hviews hviews.localViews]
  · rw [getAssetVerifierStringIfExists_unstaged fSkipTempCache ⟨rfl, rfl⟩,
      hn.verifiers.layers.answer]
  · have hskip : CAssetsCache.empty.checkForAddressQualifier env n.st name address fSkipTempCache =
        CAssetsCache.empty.checkForAddressQualifier env n.st name address true := by
      cases fSkipTempCache <;> rfl
    rw [hskip, htags.checkForAddressQualifier_iff hkey, reported_iff_carriesTag,
      htags.staged_eq_nil hempty]
    refine Or.inr fun htouched => ?_
    obtain ⟨x, hx, -⟩ := htouched
    cases hx
  · have hskip : CAssetsCache.empty.checkForAddressRestriction env n.st name address
        fSkipTempCache =
          CAssetsCache.empty.checkForAddressRestriction env n.st name address true := by
      cases fSkipTempCache <;> rfl
    rw [hskip, checkForAddressRestriction_tip]
    exact hn.freezes.addresses.answer _ hkey
  · have hskip : CAssetsCache.empty.checkForGlobalRestriction n.st name fSkipTempCache =
        CAssetsCache.empty.checkForGlobalRestriction n.st name true := by
      cases fSkipTempCache <;> rfl
    rw [hskip, checkForGlobalRestriction_tip]
    exact hn.freezes.assets.answer _ (Set.mem_univ name)

/-- **A restart.**  A node that starts on databases which hold what a chain says answers for that
chain. -/
theorem NodeTracked.restart (hn : NodeTracked env nameOf chainOf K n)
    (hfacts : ChainFacts env nameOf chainOf K chain) (hstored : StoredOn env K st chain)
    (hblockUndo : st.passetsdb.blockUndo = n.st.passetsdb.blockUndo)
    (hst : n'.st = st.restarted) (hchain : n'.chainActive = chain)
    (hundo : ∀ hash, n'.undo.count hash = true → n.undo.count hash = true) :
    NodeTracked env nameOf chainOf K n' := by
  have hdb : n'.st.passetsdb.blockUndo = n.st.passetsdb.blockUndo := by
    rw [hst]
    exact hblockUndo
  have hown : OwnRecords n'.st := by
    rw [hst]
    refine ⟨OwnCache.empty, fun _ _ h => (nomatch h), fun name data hdata => ?_⟩
    have hdata' : st.passetsdb.assetData.find? name = some data := hdata
    have hasset := hstored.records name
    rw [hdata', Option.map_some] at hasset
    exact strName_of_assetOn hasset.symm
  have hviews : StoredViews nameOf n'.st := by
    refine ⟨hown, ?_, ?_, ?_, ?_⟩
    · rw [hst]
      exact Staged.Exclusive.empty
    · rw [hst]
      exact fun _ _ h => nomatch h
    · rw [hst]
      exact Pending.empty
    · rw [hst]
      exact fun _ h => nomatch h
  have hanswer : ∀ name, assetOf n'.st .empty name = assetOn env chain name := by
    intro name
    rw [assetOf_stored hviews (by rw [hst]; rfl), hst]
    exact hstored.records name
  subst hchain
  refine ⟨⟨hown, ?_, hfacts.verifiers, ?_, hn.verifiers.undo.lose hundo hdb⟩,
    ⟨?_, ?_, hfacts.freezes⟩,
    ⟨⟨n'.chainActive, []⟩, rfl, ?_, hfacts.tags, fun _ h => (nomatch h), fun key => ?_,
      fun key x => ?_, fun key hcount => ?_⟩,
    ⟨⟨hviews, ?_, ?_, hfacts.nonneg, hfacts.named, hfacts.first,
      hn.records.bounded.undo.lose hundo hdb⟩, hanswer, hfacts.records,
      hn.records.undo.lose hundo hdb⟩⟩
  · rw [hst]
    exact Slots.Tracks.of_db _ hstored.verifiers
  · rw [hst]
    exact fun _ h => nomatch h
  · rw [hst]
    exact Tracks.of_db _ hstored.addresses
  · rw [hst]
    exact Tracks.of_db _ fun name _ => hstored.assets name
  · rw [hst]
    exact Tracks.of_db _ fun key _ => hstored.tags key
  · rw [hst]
    exact side_empty
  · have hempty : n'.st.passets.mapRootQualifierAddressesAdd = ∅ := by
      rw [hst]
      rfl
    rw [hempty, subTags_empty]
    exact iff_of_false (Set.notMem_empty x) fun hmem => absurd hmem.1 List.not_mem_nil
  · rw [hst] at hcount
    exact hfacts.tags.taggedAddresses_subset ((hstored.tags key).1 hcount)
  · intro name asset hasset
    rw [hanswer] at hasset
    exact hfacts.range name asset hasset
  · intro name
    rw [hanswer]
    exact hfacts.covers name

theorem rollback_assetsCache {tree : BlockTree} (hassets : env.dep.areAssetsDeployed = false)
    {pindex fork : List uint256} {view view' : CCoinsView} {cache cache' : CAssetsCache}
    (h : rollback env tree st pindex fork view cache = .ok (view', cache')) : cache' = cache := by
  induction pindex generalizing view cache with
  | nil =>
    rw [rollback] at h
    split at h
    · cases h
      rfl
    · cases h
  | cons hash pprev ih =>
    rw [rollback] at h
    split at h
    · cases h
      rfl
    · split at h
      · obtain ⟨s, hs, hrest⟩ := bind_ok.1 h
        have hkept : s.assetsCache = cache := by
          refine disconnectBlock_invariant (I := fun c => c = cache) ?_ rfl hs
          intro tx c c' _ hc hdown
          rw [downdateAssets, hassets, if_neg Bool.false_ne_true] at hdown
          cases hdown
          exact hc
        exact (ih hrest).trans hkept
      · exact ih h

/-- **`ReplayBlocks` does not touch the asset state** of a process that has just been started.  The
best block is then the one that the interrupted write was for. -/
theorem replayBlocks_assets {P : VersionBitsParams} {tree : BlockTree} {db db' : ChainstateDB}
    (hempty : st.passets = .empty) (h : replayBlocks P env tree st db = .ok (db', st')) :
    st' = st ∧ db'.headBlocks = [] ∧
      (db' = db ∨ ∃ hashOld, db.headBlocks = [db'.bestBlock, hashOld]) := by
  rw [replayBlocks, replayBlocksWith] at h
  have hassets : (env.atRestart P).dep.areAssetsDeployed = false := by
    rw [Env.atRestart, deployments_restart]
    rfl
  split at h
  · rename_i hheads
    cases h
    exact ⟨rfl, hheads, Or.inl rfl⟩
  · rename_i hashNew hashOld hheads
    rw [demand_bind] at h
    obtain ⟨pindexNew, hindex, h⟩ := h
    obtain ⟨⟨pindexOld, pindexFork⟩, -, h⟩ := bind_ok.1 h
    obtain ⟨⟨cache, assetsCache⟩, hroll, h⟩ := bind_ok.1 h
    obtain ⟨cache', -, h⟩ := bind_ok.1 h
    cases h
    have hsame : assetsCache = .empty := by
      rw [rollback_assetsCache hassets hroll, hempty]
    refine ⟨?_, rfl, Or.inr ⟨hashOld, ?_⟩⟩
    · have hflush : CAssetsCache.empty.flushInto .empty = .empty := rfl
      rw [AssetState.flush, hsame, hempty, hflush, ← hempty]
    · have hhead := tree.indexed hashNew pindexNew hindex
      rw [hheads, List.headD_eq_head?_getD, hhead, Option.getD_some]
  · cases h

end UnemployCoin
