import UnemployCoin.AssetUpdates
/-!
# Existence and metadata agree

The operations of `AddCoins` and `DisconnectBlock` on a local cache, with a flush or a dump between
blocks, as a machine.  Removing an issue leaves the data of its reissues behind; in every run in
which that never happens, an asset exists exactly if its metadata is found.
-/

namespace UnemployCoin

open Check CAssetsCache

/-- The globals, and the local cache while a block is connected or disconnected on one. -/
structure AssetCaches where
  st : AssetState
  block : Option CAssetsCache

def AssetCaches.cache (s : AssetCaches) : CAssetsCache := s.block.getD .empty

def AssetCaches.genesis : AssetCaches := ⟨.genesis, none⟩

inductive AssetOperation where
  | addNewAsset (record : WithAddress CNewAsset) (nHeight : ℤ) (blockHash : uint256)
  | removeNewAsset (record : WithAddress CNewAsset)
  | addReissueAsset (reissue : WithAddress CReissueAsset) (out : COutPoint)
  | removeReissueAsset (reissue : WithAddress CReissueAsset) (out : COutPoint)
      (vUndoIPFS : List (Bytes × CBlockAssetUndo))
  /-- `Flush` of the local cache, which ends its block. -/
  | flush
  /-- `DumpCacheToDatabase`, between blocks. -/
  | dump
  | read (lookup : CacheRead)

/-- `DisconnectBlock` removes a reissue of an asset that exists. -/
def undoReissueAsset (env : Env) (st : AssetState) (cache : CAssetsCache)
    (reissue : WithAddress CReissueAsset) (out : COutPoint)
    (vUndoIPFS : List (Bytes × CBlockAssetUndo)) : Option CAssetsCache :=
  if cache.checkIfAssetExists env st reissue.1.strName then
    cache.removeReissueAsset env st reissue.1 reissue.2 out vUndoIPFS
  else some cache

/-- The caches as a machine.  A failure that `AddCoins` only logs changes nothing; one that makes
`DisconnectBlock` fail is no step. -/
def assetCaches (env : Env) : Machine AssetCaches AssetOperation where
  step s
    | .addNewAsset record nHeight blockHash =>
      some { s with block := tryAddNewAsset env s.st nHeight blockHash s.cache record }
    | .removeNewAsset record =>
      match undoNewAsset env s.st s.cache record with
      | .ok cache => some { s with block := cache }
      | .error _ => none
    | .addReissueAsset reissue out =>
      some { s with
        block := (s.cache.addReissueAsset env s.st reissue.1 reissue.2 out).getD s.cache }
    | .removeReissueAsset reissue out vUndoIPFS =>
      (undoReissueAsset env s.st s.cache reissue out vUndoIPFS).map fun cache =>
        { s with block := some cache }
    | .flush => some ⟨s.st.flush s.cache, none⟩
    | .dump =>
      if s.block.isNone then some { s with st := s.st.dumpCacheToDatabase env } else none
    | .read lookup => some { s with st := s.st.read env lookup }

/-- The condition on an operation.  The output of a reissue tells the name, and an issue that is
removed has **no data of a reissue**. -/
def OperationStep (nameOf : COutPoint → Bytes) (s : AssetCaches) : AssetOperation → Prop
  | .removeNewAsset record =>
    s.cache.mapReissuedAssetData.find? record.1.strName = none ∧
      s.st.passets.mapReissuedAssetData.find? record.1.strName = none
  | .addReissueAsset reissue out => nameOf out = reissue.1.strName
  | .removeReissueAsset reissue out _ => nameOf out = reissue.1.strName
  | _ => True

/-! ## What a run keeps -/

variable {env : Env} {st : AssetState} {cache : CAssetsCache} {name : Bytes}
  {nameOf : COutPoint → Bytes}

structure ViewsKept (nameOf : COutPoint → Bytes) (s : AssetCaches) : Prop where
  stored : StoredViews nameOf s.st
  views : LocalViews nameOf s.st s.cache

theorem ViewsKept.start : ViewsKept nameOf .genesis :=
  ⟨StoredViews.genesis, StoredViews.genesis.localViews⟩

theorem LocalViews.read (h : LocalViews nameOf st cache) (lookup : CacheRead) :
    LocalViews nameOf (st.read env lookup) cache := by
  obtain ⟨hpassets, hdb, -⟩ := read_passets env st lookup
  refine ⟨h.own, h.exclusive, h.pending, ?_⟩
  rw [hpassets]
  intro name hname
  rw [Known, hpassets, hdb]
  exact h.reissued name hname

/-- **Every operation** that meets the condition keeps it. -/
theorem ViewsKept.step {s s' : AssetCaches} {e : AssetOperation} (hs : ViewsKept nameOf s)
    (he : OperationStep nameOf s e) (h : (assetCaches env).step s e = some s') :
    ViewsKept nameOf s' := by
  cases e with
  | addNewAsset record nHeight blockHash =>
    cases h
    exact ⟨hs.stored, (hs.views.tryAddNewAsset hs.stored record).1⟩
  | removeNewAsset record =>
    simp only [assetCaches] at h
    split at h
    · rename_i cache hundo
      cases h
      exact ⟨hs.stored, (hs.views.undoNewAsset hs.stored he.1 he.2 hundo).1⟩
    · cases h
  | addReissueAsset reissue out =>
    cases h
    refine ⟨hs.stored, ?_⟩
    cases hadd : s.cache.addReissueAsset env s.st reissue.1 reissue.2 out with
    | none => exact hs.views
    | some cache => exact (hs.views.addReissueAsset hs.stored he hadd).1
  | removeReissueAsset reissue out vUndoIPFS =>
    obtain ⟨cache, hundo, rfl⟩ := Option.map_eq_some_iff.1 h
    rw [undoReissueAsset] at hundo
    split at hundo
    · exact ⟨hs.stored, (hs.views.removeReissueAsset hs.stored he hundo).1⟩
    · cases hundo
      exact ⟨hs.stored, hs.views⟩
  | flush =>
    cases h
    have hstored := hs.stored.flush hs.views
    exact ⟨hstored, hstored.localViews⟩
  | dump =>
    simp only [assetCaches] at h
    split at h
    · rename_i hempty
      cases h
      have hstored : StoredViews nameOf (s.st.dumpCacheToDatabase env) := hs.stored.dump
      refine ⟨hstored, ?_⟩
      rw [AssetCaches.cache, Option.isNone_iff_eq_none.1 hempty]
      exact hstored.localViews
    · cases h
  | read lookup =>
    cases h
    exact ⟨hs.stored.read lookup, hs.views.read lookup⟩

theorem checkIfAssetExists_eq (hreindex : env.fReindex = false) (hst : StoredViews nameOf st)
    (hcache : LocalViews nameOf st cache) :
    cache.checkIfAssetExists env st name = (cache.getAssetMetaDataIfExists st name).isSome := by
  have hsome : (assetOf st cache name).isSome =
      (cache.getAssetMetaDataIfExists st name).isSome := Option.isSome_map
  rw [← hsome, Bool.eq_iff_iff, checkIfAssetExists_iff hst, isSome_assetOf hst hcache, hreindex]
  simp

/-- **Existence and metadata agree** in every state that operations which meet the condition reach,
and a dump changes neither of the answers, nor the asset; it keeps what else is returned, the
height and the hash of a block, for the assets with no data of a reissue. -/
theorem views_agree {events : List AssetOperation} {s : AssetCaches}
    (hreindex : env.fReindex = false)
    (halong : (assetCaches env).Along (OperationStep nameOf) .genesis events)
    (h : (assetCaches env).exec .genesis events = some s) :
    (∀ name, s.cache.checkIfAssetExists env s.st name =
      (s.cache.getAssetMetaDataIfExists s.st name).isSome) ∧
    ∀ s', (assetCaches env).step s .dump = some s' → ∀ name,
      s'.cache.checkIfAssetExists env s'.st name = s.cache.checkIfAssetExists env s.st name ∧
        assetOf s'.st s'.cache name = assetOf s.st s.cache name ∧
        (s'.cache.getAssetMetaDataIfExists s'.st name =
            s.cache.getAssetMetaDataIfExists s.st name ↔
          s.st.passets.mapReissuedAssetData.find? name = none) := by
  have hs : ViewsKept nameOf s :=
    Machine.exec_invariant (fun _ _ _ hs he hstep => hs.step he hstep) ViewsKept.start halong h
  have hanswer : ∀ {s : AssetCaches}, ViewsKept nameOf s → ∀ name,
      s.cache.checkIfAssetExists env s.st name = (assetOf s.st s.cache name).isSome := by
    intro s hs name
    rw [checkIfAssetExists_eq hreindex hs.stored hs.views, assetOf, Option.isSome_map]
  refine ⟨fun name => checkIfAssetExists_eq hreindex hs.stored hs.views, fun s' hdump name => ?_⟩
  have hs' : ViewsKept nameOf s' := hs.step (e := .dump) trivial hdump
  obtain ⟨hcache, hcache', hst⟩ : s.cache = .empty ∧ s'.cache = .empty ∧
      s'.st = s.st.dumpCacheToDatabase env := by
    simp only [assetCaches] at hdump
    split at hdump
    · rename_i hempty
      cases hdump
      have hnone : s.cache = .empty := by
        rw [AssetCaches.cache, Option.isNone_iff_eq_none.1 hempty, Option.getD_none]
      exact ⟨hnone, hnone, rfl⟩
    · cases hdump
  have hsame : assetOf s'.st s'.cache name = assetOf s.st s.cache name := by
    rw [hcache, hcache', hst]
    exact assetOf_dump hs.stored
  refine ⟨by rw [hanswer hs', hanswer hs, hsame], hsame, ?_⟩
  rw [hcache, hcache', hst]
  exact metaData_dump_iff hs.stored

/-! ### Sample runs -/

def sampleRecord : WithAddress CNewAsset := (⟨ascii "NAME", COIN, 0, 1, 0, []⟩, [1])

def sampleReissue : WithAddress CReissueAsset := (⟨ascii "NAME", COIN, -1, 1, []⟩, [1])

/-- `NAME` is issued and reissued, and both are undone. -/
def staleRun : List AssetOperation :=
  [.addNewAsset sampleRecord 1 1, .flush, .addReissueAsset sampleReissue ⟨2, 0⟩, .flush,
    .removeReissueAsset sampleReissue ⟨2, 0⟩ [], .flush, .removeNewAsset sampleRecord]

/-- **Stale data.**  `NAME` does not exist any more, but has metadata. -/
theorem staleData_found :
    ∃ s, (assetCaches sampleEnv).exec .genesis staleRun = some s ∧
      sampleEnv.fReindex = false ∧
      s.cache.checkIfAssetExists sampleEnv s.st (ascii "NAME") = false ∧
      (s.cache.getAssetMetaDataIfExists s.st (ascii "NAME")).isSome = true := by
  have hrun : ((assetCaches sampleEnv).exec .genesis staleRun).map (fun s =>
      (s.cache.checkIfAssetExists sampleEnv s.st (ascii "NAME"),
        (s.cache.getAssetMetaDataIfExists s.st (ascii "NAME")).isSome)) = some (false, true) := by
    decide +kernel
  obtain ⟨s, hexec, hs⟩ := Option.map_eq_some_iff.1 hrun
  obtain ⟨hexists, hfound⟩ := Prod.mk.inj hs
  exact ⟨s, hexec, rfl, hexists, hfound⟩

/-- With a dump in between the reissue leaves nothing behind. -/
def dumpedRun : List AssetOperation :=
  [.addNewAsset sampleRecord 1 1, .addReissueAsset sampleReissue ⟨2, 0⟩, .flush, .dump,
    .removeNewAsset sampleRecord, .flush]

theorem dumpedRun_agrees :
    ∃ s, (assetCaches sampleEnv).exec .genesis dumpedRun = some s ∧
      s.cache.checkIfAssetExists sampleEnv s.st (ascii "NAME") =
        (s.cache.getAssetMetaDataIfExists s.st (ascii "NAME")).isSome ∧
      ∀ s', (assetCaches sampleEnv).step s .dump = some s' → ∀ name,
        s'.cache.checkIfAssetExists sampleEnv s'.st name =
            s.cache.checkIfAssetExists sampleEnv s.st name ∧
          assetOf s'.st s'.cache name = assetOf s.st s.cache name ∧
          (s'.cache.getAssetMetaDataIfExists s'.st name =
              s.cache.getAssetMetaDataIfExists s.st name ↔
            s.st.passets.mapReissuedAssetData.find? name = none) := by
  have hrun : ((assetCaches sampleEnv).exec .genesis dumpedRun).isSome = true := by
    decide +kernel
  obtain ⟨s, hexec⟩ := Option.isSome_iff_exists.1 hrun
  have hmaps : ((assetCaches sampleEnv).exec .genesis (dumpedRun.take 4)).all (fun s =>
      decide (s.cache.mapReissuedAssetData.find? (ascii "NAME") = none ∧
        s.st.passets.mapReissuedAssetData.find? (ascii "NAME") = none)) = true := by
    decide +kernel
  have halong : (assetCaches sampleEnv).Along (OperationStep fun _ => ascii "NAME")
      .genesis (dumpedRun.take 4 ++ dumpedRun.drop 4) := by
    refine Machine.Along.append (Machine.Along.of_forall fun e he s => ?_) fun t ht => ?_
    · simp only [dumpedRun, List.take_succ_cons, List.take_zero, List.mem_cons, List.not_mem_nil,
        or_false] at he
      rcases he with rfl | rfl | rfl | rfl
      · trivial
      · rfl
      · trivial
      · trivial
    · rw [ht] at hmaps
      have hnone := of_decide_eq_true hmaps
      exact ⟨hnone, fun _ _ => ⟨trivial, fun _ _ => trivial⟩⟩
  rw [List.take_append_drop] at halong
  exact ⟨s, hexec, (views_agree rfl halong hexec).1 _, (views_agree rfl halong hexec).2⟩

end UnemployCoin
