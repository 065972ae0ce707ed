import UnemployCoin.AssetRestart
/-!
# The asset state across crashes

`FlushStateToDisk` (`validation.cpp`) writes the coins, and then `DumpCacheToDatabase` the assets,
into databases of their own.  **No marker is common to both**: a process that is started again goes
by the best block of the coins, and `ReplayBlocks` brings only the coins up to it.
-/

namespace UnemployCoin

open Check CAssetsCache

variable {env : Env} {st : AssetState} {nameOf : COutPoint → Bytes} {K : Set (Bytes × Bytes)}
  {P : VersionBitsParams} {tree : BlockTree}

/-! ## The writes of a dump -/

/-- `EraseAssetData` of a round over `setNewAssetsToRemove`. -/
def eraseAssetData (st : AssetState) (name : Bytes) : AssetState :=
  { st with
    passetsCache := st.passetsCache.erase name
    passetsdb := { st.passetsdb with assetData := st.passetsdb.assetData.erase name } }

/-- `EraseVerifier` of the same round. -/
def eraseVerifier (st : AssetState) (name : Bytes) : AssetState :=
  { st with
    prestricteddb :=
      { st.prestricteddb with verifiers := st.prestricteddb.verifiers.erase name } }

/-- What `DumpCacheToDatabase` does, **one write after the other**. -/
def dumpWrites (env : Env) (cache : CAssetsCache) : List (AssetState → AssetState) :=
  (cache.newAssets.toRemove.entries.flatMap fun e =>
      [fun st => eraseAssetData st e.1, fun st => eraseVerifier st e.1]) ++
    cache.newAssets.toAdd.entries.map (fun e st => dumpNewAsset st e) ++
    cache.newReissue.toAdd.entries.map (fun e st => dumpReissue cache st e) ++
    cache.newReissue.toRemove.entries.map (fun e st => dumpUndoReissue cache st e) ++
    cache.newRestrictedVerifier.toAdd.entries.map (fun e st => dumpVerifier st e) ++
    cache.newRestrictedVerifier.toRemove.entries.map (fun e st => dumpUndoVerifier st e) ++
    cache.newQualifierAddress.toAdd.entries.map (fun e st => dumpQualifier env false st e) ++
    cache.newQualifierAddress.toRemove.entries.map (fun e st => dumpQualifier env true st e) ++
    cache.newRestrictedAddress.toAdd.entries.map (fun e st => dumpRestricted env false st e) ++
    cache.newRestrictedAddress.toRemove.entries.map (fun e st => dumpRestricted env true st e) ++
    cache.newRestrictedGlobal.toAdd.entries.map (fun e st => dumpGlobal false st e) ++
    cache.newRestrictedGlobal.toRemove.entries.map (fun e st => dumpGlobal true st e)

def AssetState.apply (st : AssetState) (writes : List (AssetState → AssetState)) : AssetState :=
  writes.foldl (fun st write => write st) st

theorem AssetState.apply_append (writes writes' : List (AssetState → AssetState)) :
    st.apply (writes ++ writes') = (st.apply writes).apply writes' := List.foldl_append

theorem AssetState.apply_map {α : Type} (f : AssetState → α → AssetState) (l : List α) :
    st.apply (l.map fun e st => f st e) = l.foldl f st := by
  rw [AssetState.apply, List.foldl_map]

/-- **The dump is its writes.** -/
theorem dumpCacheToDatabase_eq : st.dumpCacheToDatabase env =
    { st.apply (dumpWrites env st.passets) with passets := .empty } := by
  have hremoved : ∀ (l : List (Bytes × CAssetCacheNewAsset)) (st : AssetState),
      st.apply (l.flatMap fun e =>
        [fun st => eraseAssetData st e.1, fun st => eraseVerifier st e.1]) =
        l.foldl dumpRemovedAsset st := by
    intro l
    induction l with
    | nil => exact fun _ => rfl
    | cons e l ih =>
      intro st
      rw [List.flatMap_cons, AssetState.apply_append, ih]
      rfl
  rw [dumpWrites]
  simp only [AssetState.apply_append, AssetState.apply_map, hremoved]
  rfl

/-- The databases when only some of the writes were made; `written` tells which, by their places.  A
loop goes through its set in an order of its own, so these need not be the first ones. -/
def AssetState.dumpPart (env : Env) (written : ℕ → Bool) (st : AssetState) : AssetState :=
  st.apply (((dumpWrites env st.passets).zipIdx.filter fun e => written e.2).map Prod.fst)

theorem blockUndo_dumpWrites {cache : CAssetsCache} {write : AssetState → AssetState}
    (h : write ∈ dumpWrites env cache) :
    (write st).passetsdb.blockUndo = st.passetsdb.blockUndo := by
  have hreissue : ∀ e : COutPoint × CAssetCacheReissueAsset,
      (dumpReissue cache st e).passetsdb.blockUndo = st.passetsdb.blockUndo := by
    intro e
    rw [dumpReissue]
    split <;> rfl
  simp only [dumpWrites, List.mem_append, List.mem_flatMap, List.mem_map, List.mem_cons,
    List.not_mem_nil, or_false] at h
  rcases h with (((((((((((⟨e, -, rfl | rfl⟩ | ⟨e, -, rfl⟩) | ⟨e, -, rfl⟩) | ⟨e, -, rfl⟩) |
    ⟨e, -, rfl⟩) | ⟨e, -, rfl⟩) | ⟨e, -, rfl⟩) | ⟨e, -, rfl⟩) | ⟨e, -, rfl⟩) | ⟨e, -, rfl⟩) |
    ⟨e, -, rfl⟩) | ⟨e, -, rfl⟩)
  · rfl
  · rfl
  · rfl
  · exact hreissue e
  · show (dumpUndoReissue cache st e).passetsdb.blockUndo = _
    rw [dumpUndoReissue]
    split
    · rfl
    · exact hreissue e
  · rfl
  · show (dumpUndoVerifier st e).passetsdb.blockUndo = _
    rw [dumpUndoVerifier]
    split <;> rfl
  · show (dumpQualifier env false st e).passetsdb.blockUndo = _
    rw [dumpQualifier]
    split <;> rfl
  · show (dumpQualifier env true st e).passetsdb.blockUndo = _
    rw [dumpQualifier]
    split <;> rfl
  · show (dumpRestricted env false st e).passetsdb.blockUndo = _
    rw [dumpRestricted]
    split <;> rfl
  · show (dumpRestricted env true st e).passetsdb.blockUndo = _
    rw [dumpRestricted]
    split <;> rfl
  · show (dumpGlobal false st e).passetsdb.blockUndo = _
    rw [dumpGlobal]
    split <;> rfl
  · show (dumpGlobal true st e).passetsdb.blockUndo = _
    rw [dumpGlobal]
    split <;> rfl

theorem blockUndo_dumpPart {written : ℕ → Bool} :
    (st.dumpPart env written).passetsdb.blockUndo = st.passetsdb.blockUndo := by
  rw [AssetState.dumpPart, AssetState.apply]
  refine List.foldlRecOn (motive := fun st' : AssetState =>
    st'.passetsdb.blockUndo = st.passetsdb.blockUndo) _ _ rfl fun st' hst' write hwrite => ?_
  obtain ⟨e, he, rfl⟩ := List.mem_map.1 hwrite
  have hmem := List.fst_mem_of_mem_zipIdx (List.mem_of_mem_filter he)
  exact (blockUndo_dumpWrites hmem).trans hst'

/-! ## A node and its databases -/

/-- The blocks above the genesis block on the chain that ends with some hash, tip first. -/
def BlockTree.blocksOf (tree : BlockTree) (hash : uint256) : List CBlock :=
  ((tree.mapBlockIndex hash).getD []).dropLast.map tree.readBlock

def Node.tipHash (env : Env) (n : Node) : uint256 :=
  match n.chainActive with
  | [] => env.params.hashGenesisBlock
  | block :: _ => block.hash

/-- A node, and the database that its coins are written to.  The databases of the assets are in the
state of the node. -/
structure System where
  node : Node
  chainstate : ChainstateDB

/-- A node that has connected the genesis block only, and has written nothing. -/
def System.start : System := ⟨.genesis, ⟨∅, 0, []⟩⟩

/-- How far `FlushStateToDisk` has come when the process dies. -/
inductive CrashPoint where
  | idle
  | coins (written : List (COutPoint × CCoinsCacheEntry))
  /-- The coins are written, and some of the writes of the dump are made. -/
  | assets (written : ℕ → Bool)

def System.onDisk (env : Env) (s : System) : CrashPoint → ChainstateDB × AssetState
  | .idle => (s.chainstate, s.node.st)
  | .coins written =>
    (s.chainstate.batchWritePart written (s.node.tipHash env), s.node.st)
  | .assets written =>
    (⟨s.node.view, s.node.tipHash env, []⟩, s.node.st.dumpPart env written)

inductive SystemEvent where
  | connectTip (ctx : TipContext) (block : CBlock)
  | disconnectTip (ctx : TipContext)
  | read (lookup : CacheRead)
  /-- `FlushStateToDisk`, to its end.  The assets are dumped only if they are active. -/
  | flush (fAssetsDeployed : Bool)
  /-- The process dies and is started again.  The places of some undo files are lost with the block
  indexes that were not written. -/
  | crash (point : CrashPoint) (lost : List uint256)

/-- `ReplayBlocks` and `LoadChainTip`: the process is started on its databases. -/
def System.restart (P : VersionBitsParams) (env : Env) (tree : BlockTree) (s : System)
    (point : CrashPoint) (lost : List uint256) : Option System :=
  match replayBlocks P env tree (s.onDisk env point).2.restarted (s.onDisk env point).1 with
  | .error _ => none
  | .ok (chainstate, st) =>
    some ⟨⟨st, chainstate.coins, tree.blocksOf chainstate.bestBlock,
      lost.foldl (fun undo hash => undo.erase hash) s.node.undo⟩, chainstate⟩

def system (P : VersionBitsParams) (env : Env) (tree : BlockTree) : Machine System SystemEvent where
  step s
    | .connectTip ctx block => (s.node.connectTip env ctx block).map fun n => { s with node := n }
    | .disconnectTip ctx => (s.node.disconnectTip env ctx).map fun n => { s with node := n }
    | .read lookup => some { s with node := { s.node with st := s.node.st.read env lookup } }
    | .flush fAssetsDeployed =>
      some
        { node :=
            if fAssetsDeployed then { s.node with st := s.node.st.dumpCacheToDatabase env }
            else s.node
          chainstate := ⟨s.node.view, s.node.tipHash env, []⟩ }
    | .crash point lost => s.restart P env tree point lost

/-- The writes of the dump that are not made would not change what the databases hold.  While
`FlushStateToDisk` is not running none is due. -/
def CrashHarmless (env : Env) (K : Set (Bytes × Bytes)) (s : System) : CrashPoint → Prop
  | .idle => True
  | point => SameEntries K (s.onDisk env point).2 (s.node.st.dumpCacheToDatabase env)

/-- The condition on a step.  That of a node on the steps of one; a flush that does not dump the
assets, and a crash, only when **the writes that are left out change nothing**. -/
def SystemStep (env : Env) (nameOf : COutPoint → Bytes) (tree : BlockTree) (K : Set (Bytes × Bytes))
    (s : System) : SystemEvent → Prop
  | .connectTip ctx block =>
    AssetStep env nameOf tree.blocksOf K s.node (.connectTip ctx block)
  | .disconnectTip ctx => AssetStep env nameOf tree.blocksOf K s.node (.disconnectTip ctx)
  | .read lookup => AssetStep env nameOf tree.blocksOf K s.node (.read lookup)
  | .flush fAssetsDeployed => fAssetsDeployed = false →
    SameEntries K s.node.st (s.node.st.dumpCacheToDatabase env)
  | .crash point _ => CrashHarmless env K s point

/-! ## What a run keeps -/

/-- What holds of a node and its databases along a run: the databases hold what the chain of the
best block of the coins makes of the assets. -/
structure SystemTracked (env : Env) (nameOf : COutPoint → Bytes) (tree : BlockTree)
    (K : Set (Bytes × Bytes)) (s : System) : Prop where
  tracked : NodeTracked env nameOf tree.blocksOf K s.node
  facts : ChainFacts env nameOf tree.blocksOf K (tree.blocksOf s.chainstate.bestBlock)
  disk : StoredOn env K s.node.st (tree.blocksOf s.chainstate.bestBlock)
  whole : s.chainstate.headBlocks = []

variable {s s' : System} {n : Node}

theorem SystemTracked.start : SystemTracked env nameOf tree K .start := by
  have hnil : tree.blocksOf System.start.chainstate.bestBlock = [] := by
    have hnull : tree.mapBlockIndex System.start.chainstate.bestBlock = none := tree.null
    rw [BlockTree.blocksOf, hnull]
    rfl
  refine ⟨.genesis, ?_, ?_, rfl⟩
  · rw [hnil]
    exact .nil
  · rw [hnil]
    have hgenesis : NodeTracked env nameOf tree.blocksOf K .genesis := .genesis
    exact hgenesis.stored rfl

theorem NodeTracked.blocksOf_tipHash (hn : NodeTracked env nameOf tree.blocksOf K n)
    (hgenesis : tree.mapBlockIndex env.params.hashGenesisBlock =
      some [env.params.hashGenesisBlock]) :
    tree.blocksOf (n.tipHash env) = n.chainActive := by
  have hfacts := hn.facts
  rw [Node.tipHash]
  cases hchain : n.chainActive with
  | nil =>
    simp only
    rw [BlockTree.blocksOf, hgenesis]
    rfl
  | cons block chain =>
    rw [hchain] at hfacts
    exact hfacts.chainOf_head

theorem StoredOn.congr {st' : AssetState} {chain : List CBlock} (h : StoredOn env K st chain)
    (hassets : st'.passetsdb.assetData = st.passetsdb.assetData)
    (hrestricted : st'.prestricteddb = st.prestricteddb) : StoredOn env K st' chain := by
  refine ⟨fun name => ?_, ?_, ?_, ?_, ?_⟩
  · rw [hassets]
    exact h.records name
  · rw [hrestricted]
    exact h.verifiers
  · rw [hrestricted]
    exact h.tags
  · rw [hrestricted]
    exact h.addresses
  · rw [hrestricted]
    exact h.assets

theorem SystemTracked.stored_onDisk (hs : SystemTracked env nameOf tree K s)
    (hinj : Set.InjOn (fun key : Bytes × Bytes => cacheHash env key.1 key.2) K)
    (hgenesis : tree.mapBlockIndex env.params.hashGenesisBlock =
      some [env.params.hashGenesisBlock])
    {point : CrashPoint} {chainstate : ChainstateDB} (hwhole : chainstate.headBlocks = [])
    (hbest : chainstate = (s.onDisk env point).1 ∨
      ∃ hashOld, (s.onDisk env point).1.headBlocks = [chainstate.bestBlock, hashOld]) :
    ChainFacts env nameOf tree.blocksOf K (tree.blocksOf chainstate.bestBlock) ∧
      (StoredOn env K (s.onDisk env point).2 (tree.blocksOf chainstate.bestBlock) ↔
        CrashHarmless env K s point) := by
  have htip := hs.tracked.blocksOf_tipHash hgenesis
  have hdump := hs.tracked.dump_stored hinj
  rw [← htip] at hdump
  have hfacts := hs.tracked.facts
  rw [← htip] at hfacts
  cases point with
  | idle =>
    have hsame : chainstate = s.chainstate := by
      rcases hbest with hsame | ⟨hashOld, hheads⟩
      · exact hsame
      · have hnone : s.chainstate.headBlocks = [chainstate.bestBlock, hashOld] := hheads
        rw [hs.whole] at hnone
        cases hnone
    rw [hsame]
    exact ⟨hs.facts, iff_of_true hs.disk trivial⟩
  | coins written =>
    have htarget : chainstate.bestBlock = s.node.tipHash env := by
      rcases hbest with hsame | ⟨hashOld, hheads⟩
      · -- The write was interrupted, so the blocks were replayed.
        rw [hsame] at hwhole
        cases hwhole
      · have hheads' : [s.node.tipHash env, s.chainstate.oldTip] =
            [chainstate.bestBlock, hashOld] := hheads
        exact (List.cons_eq_cons.1 hheads').1.symm
    rw [htarget]
    exact ⟨hfacts, hdump.iff_sameEntries⟩
  | assets written =>
    have htarget : chainstate.bestBlock = s.node.tipHash env := by
      rcases hbest with hsame | ⟨hashOld, hheads⟩
      · rw [hsame]
        rfl
      · cases hheads
    rw [htarget]
    exact ⟨hfacts, hdump.iff_sameEntries⟩

theorem blockUndo_onDisk {point : CrashPoint} :
    (s.onDisk env point).2.passetsdb.blockUndo = s.node.st.passetsdb.blockUndo := by
  cases point with
  | idle => rfl
  | coins written => rfl
  | assets written =>
    simp only [System.onDisk]
    exact blockUndo_dumpPart

/-- **A crash.**  The asset state follows the best block of the coins exactly if no write that
matters was left out, and then the node goes on from there. -/
theorem SystemTracked.crash (hs : SystemTracked env nameOf tree K s)
    (hinj : Set.InjOn (fun key : Bytes × Bytes => cacheHash env key.1 key.2) K)
    (hgenesis : tree.mapBlockIndex env.params.hashGenesisBlock =
      some [env.params.hashGenesisBlock])
    {point : CrashPoint} {lost : List uint256} (h : s.restart P env tree point lost = some s') :
    (AssetsFollow env K s'.node ↔ CrashHarmless env K s point) ∧
      (CrashHarmless env K s point → SystemTracked env nameOf tree K s') := by
  rw [System.restart] at h
  split at h
  · cases h
  · rename_i chainstate st hreplay
    cases h
    have hempty : (s.onDisk env point).2.restarted.passets = .empty := rfl
    obtain ⟨rfl, hwhole, hbest⟩ := replayBlocks_assets hempty hreplay
    obtain ⟨hfacts, hharmless⟩ := hs.stored_onDisk hinj hgenesis hwhole hbest
    have htracked : CrashHarmless env K s point → SystemTracked env nameOf tree K
        ⟨⟨(s.onDisk env point).2.restarted, chainstate.coins, tree.blocksOf chainstate.bestBlock,
          lost.foldl (fun undo hash => undo.erase hash) s.node.undo⟩, chainstate⟩ := by
      intro hpoint
      have hstored := hharmless.2 hpoint
      refine ⟨hs.tracked.restart hfacts hstored blockUndo_onDisk rfl rfl fun hash hhash => ?_,
        hfacts, hstored.congr rfl rfl, hwhole⟩
      rw [StdMap.count, Slots.find?_foldl_erase_keys] at hhash
      split at hhash
      · cases hhash
      · exact hhash
    refine ⟨⟨fun hfollow => hharmless.1 (hfollow.stored.congr rfl rfl), fun hpoint => ?_⟩, htracked⟩
    exact (htracked hpoint).tracked.follows rfl

theorem SystemTracked.nodeStep {e : NodeEvent} {n' : Node}
    (hs : SystemTracked env nameOf tree K s)
    (hinj : Set.InjOn (fun key : Bytes × Bytes => cacheHash env key.1 key.2) K)
    (he : AssetStep env nameOf tree.blocksOf K s.node e) (h : (node env).step s.node e = some n')
    (hassets : n'.st.passetsdb.assetData = s.node.st.passetsdb.assetData)
    (hrestricted : n'.st.prestricteddb = s.node.st.prestricteddb) :
    SystemTracked env nameOf tree K { s with node := n' } :=
  ⟨hs.tracked.step hinj he h, hs.facts, hs.disk.congr hassets hrestricted, hs.whole⟩

/-- **Every step** keeps it. -/
theorem SystemTracked.step {e : SystemEvent} (hs : SystemTracked env nameOf tree K s)
    (hinj : Set.InjOn (fun key : Bytes × Bytes => cacheHash env key.1 key.2) K)
    (hgenesis : tree.mapBlockIndex env.params.hashGenesisBlock =
      some [env.params.hashGenesisBlock])
    (he : SystemStep env nameOf tree K s e) (h : (system P env tree).step s e = some s') :
    SystemTracked env nameOf tree K s' := by
  cases e with
  | connectTip ctx block =>
    obtain ⟨n', hn', rfl⟩ := Option.map_eq_some_iff.1 h
    obtain ⟨_, -, -, -, -, blockUndo, hst⟩ := connectTip_eq_some hn'
    exact hs.nodeStep hinj he hn' (by rw [hst]) (by rw [hst])
  | disconnectTip ctx =>
    obtain ⟨n', hn', rfl⟩ := Option.map_eq_some_iff.1 h
    obtain ⟨_, _, _, -, -, -, -, hst⟩ := disconnectTip_eq_some hn'
    exact hs.nodeStep hinj he hn' (by rw [hst]; rfl) (by rw [hst]; rfl)
  | read lookup =>
    cases h
    obtain ⟨-, hdb, hrestricted⟩ := read_passets env s.node.st lookup
    exact hs.nodeStep hinj he rfl (congrArg CAssetsDB.assetData hdb) hrestricted
  | flush fAssetsDeployed =>
    cases h
    have htip := hs.tracked.blocksOf_tipHash hgenesis
    have hdump := hs.tracked.dump_stored hinj
    have hfacts := hs.tracked.facts
    rw [← htip] at hdump hfacts
    cases fAssetsDeployed with
    | true =>
      have hdumped : NodeTracked env nameOf tree.blocksOf K
          { s.node with st := s.node.st.dumpCacheToDatabase env } :=
        hs.tracked.step (e := .dump) hinj ⟨trivial, trivial, trivial, trivial⟩ rfl
      exact ⟨hdumped, hfacts, hdump, rfl⟩
    | false => exact ⟨hs.tracked, hfacts, hdump.iff_sameEntries.2 (he rfl), rfl⟩
  | crash point lost => exact (hs.crash hinj hgenesis h).2 he

/-- **The asset state across crashes.**  Take any run along `SystemStep`, and a crash after it.
When the process is started again, the asset state is what the blocks up to the best block of the
coins make of it if and only if the writes that the crash left out would not have changed what the
databases hold. -/
theorem restart_follows_iff {events : List SystemEvent} {point : CrashPoint} {lost : List uint256}
    (hinj : Set.InjOn (fun key : Bytes × Bytes => cacheHash env key.1 key.2) K)
    (hgenesis : tree.mapBlockIndex env.params.hashGenesisBlock =
      some [env.params.hashGenesisBlock])
    (halong : (system P env tree).Along (SystemStep env nameOf tree K) .start events)
    (h : (system P env tree).exec .start events = some s)
    (hcrash : (system P env tree).step s (.crash point lost) = some s') :
    AssetsFollow env K s'.node ↔ CrashHarmless env K s point := by
  have hs : SystemTracked env nameOf tree K s :=
    Machine.exec_invariant (fun _ _ _ hs he hstep => hs.step hinj hgenesis he hstep) .start halong h
  exact (hs.crash hinj hgenesis hcrash).1

/-! ### Sample runs -/

theorem crashHarmless_all : CrashHarmless env K s (.assets fun _ => true) := by
  have hpart : s.node.st.dumpPart env (fun _ => true) =
      s.node.st.apply (dumpWrites env s.node.st.passets) := by
    rw [AssetState.dumpPart, List.filter_true, List.zipIdx_map_fst]
  simp only [CrashHarmless, System.onDisk, hpart]
  rw [dumpCacheToDatabase_eq]
  generalize s.node.st.apply (dumpWrites env s.node.st.passets) = st
  exact ⟨fun _ => rfl, fun _ => rfl, fun _ => rfl, fun _ _ => rfl, fun _ => rfl⟩

def systemConnects (blocks : List (TipContext × CBlock)) : List SystemEvent :=
  blocks.map fun e => .connectTip e.1 e.2

theorem exec_systemConnects {blocks : List (TipContext × CBlock)} :
    (system P env tree).exec s (systemConnects blocks) =
      ((node env).exec s.node (connects blocks)).map fun n => { s with node := n } := by
  induction blocks generalizing s with
  | nil => rfl
  | cons e blocks ih =>
    change ((s.node.connectTip env e.1 e.2).map _).bind _ =
      Option.map _ ((s.node.connectTip env e.1 e.2).bind _)
    cases s.node.connectTip env e.1 e.2 with
    | none => rfl
    | some n => exact ih

theorem systemConnects_along {blocks : List (TipContext × CBlock)}
    (h : (node env).Along (AssetStep env nameOf tree.blocksOf K) s.node (connects blocks)) :
    (system P env tree).Along (SystemStep env nameOf tree K) s (systemConnects blocks) := by
  induction blocks generalizing s with
  | nil => trivial
  | cons e blocks ih =>
    obtain ⟨hstep, hrest⟩ := h
    refine ⟨hstep, fun t ht => ih ?_⟩
    obtain ⟨n', hn', rfl⟩ := Option.map_eq_some_iff.1 ht
    exact hrest n' hn'

theorem assetStep_of_quiet {ctx : TipContext} {block : CBlock}
    (hhash : tree.blocksOf block.hash = block :: n.chainActive)
    (hcoinbase : CoinbaseWithoutAssets (env.withTip ctx) block)
    (hnamed : ReissuesNamed env nameOf block.vtx)
    (hverifiers : ∀ b ∈ block :: n.chainActive, verifiersOf env b.vtx = [])
    (hcommands : commandsOf env block.vtx = []) :
    AssetStep env nameOf tree.blocksOf K n (.connectTip ctx block) := by
  rw [List.forall_mem_cons] at hverifiers
  have hcommands' : CoinbaseWithoutCommands (env.withTip ctx) block :=
    Or.inr fun tx htx _ => List.flatMap_eq_nil_iff.1 hcommands tx htx
  refine ⟨⟨hcoinbase, ?_, hhash⟩, ⟨hcommands', fun e he => ?_⟩, ⟨hcommands', fun e he => ?_⟩,
    hcoinbase, hnamed, hhash⟩
  · exact verifierBlock_of_quiet hverifiers.1 fun name _ => verifierOn_eq_none hverifiers.2
  · rw [hcommands] at he
    cases he
  · rw [tagsOf, hcommands] at he
    cases he

def minedChain (n : ℕ) : List (TipContext × CBlock) :=
  (List.range n).map fun h => (quietContext, coinbaseBlock (h + 1))

/-- `NAME` is issued from the coin of the first block. -/
def issueMinedBlock : CBlock := ⟨1001, [coinbaseTx 1001 (5000 * COIN), issueTx 2001 ⟨1, 0⟩]⟩

def issuedChain : List (TipContext × CBlock) := minedChain 102 ++ [(activeContext, issueMinedBlock)]

def issuedBlocks : List CBlock := issuedChain.map Prod.snd

theorem issuedBlocks_nodup : (issuedBlocks.map CBlock.hash).Nodup :=
  nodup_of_isChain (by decide +kernel)

theorem issuedTxs_nodup : ((issuedBlocks.flatMap CBlock.vtx).map CTransaction.hash).Nodup :=
  nodup_of_isChain (by decide +kernel)

theorem chainOfHash_head? {blocks : List CBlock} {block : CBlock} {hash : uint256}
    (h : (chainOfHash blocks hash).head? = some block) : block.hash = hash ∧ block ∈ blocks := by
  rw [chainOfHash] at h
  have hmem := List.mem_of_mem_head? h
  refine ⟨?_, List.mem_reverse.1 ((List.dropWhile_suffix _).mem hmem)⟩
  have hstop := List.head?_dropWhile_not (fun block => decide (block.hash ≠ hash)) blocks.reverse
  rw [h] at hstop
  simpa using hstop

/-- The blocks above the genesis block are those of the chain. -/
def issuedTree : BlockTree where
  mapBlockIndex := fun hash =>
    if hash = 0 then none
    else if hash = payableEnv.params.hashGenesisBlock then some [hash]
    else if (chainOfHash issuedBlocks hash).head? = none then none
    else some ((chainOfHash issuedBlocks hash).map CBlock.hash ++
      [payableEnv.params.hashGenesisBlock])
  readBlock := fun hash => (chainOfHash issuedBlocks hash).head?.getD ⟨hash, []⟩
  readUndo := fun _ => []
  null := rfl
  indexed := by
    intro hash pindex h
    split at h
    · cases h
    · split at h
      · cases h
        rfl
      · split at h
        · cases h
        · rename_i hsome
          cases h
          obtain ⟨block, hblock⟩ := Option.ne_none_iff_exists'.1 hsome
          rw [List.head?_append, List.head?_map, hblock]
          exact congrArg some (chainOfHash_head? hblock).1
  ids := by
    have hread : ∀ hash, ∀ tx ∈ ((chainOfHash issuedBlocks hash).head?.getD ⟨hash, []⟩).vtx,
        tx ∈ issuedBlocks.flatMap CBlock.vtx := by
      intro hash tx htx
      cases hblock : (chainOfHash issuedBlocks hash).head? with
      | none =>
        rw [hblock] at htx
        cases htx
      | some block =>
        rw [hblock] at htx
        exact List.mem_flatMap.2 ⟨block, (chainOfHash_head? hblock).2, htx⟩
    intro hash hash' tx htx tx' htx' heq
    exact List.inj_on_of_nodup_map issuedTxs_nodup (hread hash tx htx) (hread hash' tx' htx') heq

theorem issuedTree_blocksOf {pre post : List CBlock} {block : CBlock}
    (h : issuedBlocks = pre ++ block :: post) :
    issuedTree.blocksOf block.hash = block :: pre.reverse := by
  have hread : ∀ {pre post : List CBlock} {block : CBlock}, issuedBlocks = pre ++ block :: post →
      chainOfHash issuedBlocks block.hash = block :: pre.reverse := by
    intro pre post block h
    have hnodup := issuedBlocks_nodup
    rw [h] at hnodup ⊢
    exact chainOfHash_append hnodup
  have hnamed : ∀ hash ∈ issuedBlocks.map CBlock.hash,
      hash ≠ 0 ∧ hash ≠ payableEnv.params.hashGenesisBlock := by decide +kernel
  obtain ⟨hzero, hgenesis⟩ := hnamed block.hash (by rw [h]; simp)
  have hindex : issuedTree.mapBlockIndex block.hash =
      some ((block :: pre.reverse).map CBlock.hash ++ [payableEnv.params.hashGenesisBlock]) := by
    simp only [issuedTree, if_neg hzero, if_neg hgenesis, hread h, List.head?_cons, reduceCtorEq,
      if_false]
  rw [BlockTree.blocksOf, hindex, Option.getD_some, List.dropLast_concat, List.map_map]
  refine (List.map_congr_left fun b hb => ?_).trans (List.map_id _)
  have hmem : b ∈ issuedBlocks := by
    rw [h]
    simp only [List.mem_append, List.mem_cons, List.mem_reverse] at hb ⊢
    tauto
  obtain ⟨pre', post', hsplit⟩ := List.append_of_mem hmem
  show (chainOfHash issuedBlocks b.hash).head?.getD _ = b
  rw [hread hsplit]
  rfl

theorem issuedChain_quiet : ∀ e ∈ issuedChain,
    CoinbaseWithoutAssets (payableEnv.withTip e.1) e.2 ∧
      ReissuesNamed payableEnv nameOf e.2.vtx ∧
      verifiersOf payableEnv e.2.vtx = [] ∧ commandsOf payableEnv e.2.vtx = [] := by
  intro e he
  rcases List.mem_append.1 he with hmem | hmem
  · obtain ⟨h, -, rfl⟩ := List.mem_map.1 hmem
    have hkind : ∀ tx ∈ (coinbaseBlock (h + 1)).vtx, tx.assetTxKind payableEnv = .other := by
      intro tx htx
      obtain rfl := List.mem_singleton.1 htx
      rfl
    refine ⟨Or.inr fun tx htx _ => hkind tx htx, fun tx htx hreissue => ?_, rfl, rfl⟩
    rw [hkind tx htx] at hreissue
    cases hreissue
  · obtain rfl := List.mem_singleton.1 hmem
    have hkinds : ∀ tx ∈ issueMinedBlock.vtx, tx.assetTxKind payableEnv ≠ .reissue := by
      decide +kernel
    exact ⟨Or.inl rfl, fun tx htx hreissue => absurd hreissue (hkinds tx htx), by decide +kernel,
      by decide +kernel⟩

theorem issuedChain_along :
    (system P payableEnv issuedTree).Along (SystemStep payableEnv nameOf issuedTree K) .start
      (systemConnects issuedChain) := by
  refine systemConnects_along (along_connects fun pre e post hsplit t ht => ?_)
  have hchain : t.chainActive = (pre.map Prod.snd).reverse := by
    rw [ht]
    exact List.append_nil _
  have hmem : ∀ e' ∈ pre ++ [e], e' ∈ issuedChain := by
    intro e' he'
    rw [hsplit]
    simp only [List.mem_append, List.mem_cons, List.not_mem_nil, or_false] at he' ⊢
    tauto
  obtain ⟨hcoinbase, hnamed, -, hcommands⟩ :=
    @issuedChain_quiet nameOf e (hmem e (by simp))
  refine assetStep_of_quiet ?_ hcoinbase hnamed (fun b hb => ?_) hcommands
  · rw [hchain]
    refine @issuedTree_blocksOf _ (post.map Prod.snd) _ ?_
    rw [issuedBlocks, hsplit, List.map_append, List.map_cons]
  · have hblock : b ∈ (pre ++ [e]).map Prod.snd := by
      rw [hchain] at hb
      simp only [List.map_append, List.mem_append, List.mem_cons, List.mem_reverse, List.map_cons,
        List.map_nil, List.not_mem_nil, or_false] at hb ⊢
      tauto
    obtain ⟨e', he', rfl⟩ := List.mem_map.1 hblock
    exact (@issuedChain_quiet nameOf e' (hmem e' he')).2.2.1

theorem exec_issuedChain : (system P payableEnv issuedTree).exec .start
    (systemConnects issuedChain) =
    ((node payableEnv).exec (coinbaseNode 1 102) (connects [(activeContext, issueMinedBlock)])).map
      fun n => { System.start with node := n } := by
  rw [exec_systemConnects, issuedChain, connects_append]
  exact congrArg (Option.map _) (exec_coinbases ⟨rfl, rfl⟩ (by decide) _)

/-- **An issue that is lost.**  The coins of the block are written, the asset is not.  The process
is started again on a chain that issues an asset which nobody finds. -/
theorem lostIssue : ∃ s s',
    (system regTestVersionBits payableEnv issuedTree).exec .start (systemConnects issuedChain) =
      some s ∧
    (system regTestVersionBits payableEnv issuedTree).step s (.crash (.assets fun _ => false) []) =
      some s' ∧
    ¬AssetsFollow payableEnv ∅ s'.node := by
  have hrun : (((system regTestVersionBits payableEnv issuedTree).exec .start
      (systemConnects issuedChain)).bind fun s =>
        (system regTestVersionBits payableEnv issuedTree).step s
          (.crash (.assets fun _ => false) [])).map (fun s' =>
        ((assetOf s'.node.st .empty (ascii "NAME")).isSome,
          (assetOn payableEnv s'.node.chainActive (ascii "NAME")).isSome)) =
      some (false, true) := by
    rw [exec_issuedChain]
    decide +kernel
  obtain ⟨s', hs', hfound⟩ := Option.map_eq_some_iff.1 hrun
  obtain ⟨s, hexec, hcrash⟩ := Option.bind_eq_some_iff.1 hs'
  obtain ⟨hnone, hsome⟩ := Prod.mk.inj hfound
  refine ⟨s, s', hexec, hcrash, fun hfollow => ?_⟩
  rw [hfollow.records, hsome] at hnone
  cases hnone

/-- With every write of the dump made, the asset is found. -/
theorem keptIssue_follows : ∃ s s',
    (system regTestVersionBits payableEnv issuedTree).exec .start (systemConnects issuedChain) =
      some s ∧
    (system regTestVersionBits payableEnv issuedTree).step s (.crash (.assets fun _ => true) []) =
      some s' ∧
    AssetsFollow payableEnv {frozenKey} s'.node := by
  have hrun : (((system regTestVersionBits payableEnv issuedTree).exec .start
      (systemConnects issuedChain)).bind fun s =>
        (system regTestVersionBits payableEnv issuedTree).step s
          (.crash (.assets fun _ => true) [])).isSome = true := by
    rw [exec_issuedChain]
    decide +kernel
  obtain ⟨s', hs'⟩ := Option.isSome_iff_exists.1 hrun
  obtain ⟨s, hexec, hcrash⟩ := Option.bind_eq_some_iff.1 hs'
  refine ⟨s, s', hexec, hcrash, ?_⟩
  exact (@restart_follows_iff _ (fun _ => []) _ _ _ _ _ _ _ _ (Set.injOn_singleton _ _)
    (by decide +kernel) issuedChain_along hexec hcrash).2 crashHarmless_all

end UnemployCoin
