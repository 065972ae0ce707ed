import UnemployCoin.Freezes
import UnemployCoin.UniqueIssuance
/-!
# The asset caches answer for the frozen sets

Whatever blocks are connected and disconnected, and whenever the caches are dumped, the lookups
of a freeze answer as the commands of the active chain say.
-/

namespace UnemployCoin

open Check CAssetsCache Toggles

variable {env : Env}

/-! ## The node -/

/-- The commands of a block are for known keys and change the sets of the chain below it. -/
structure BlockChanges (env : Env) (K : Set (Bytes × Bytes)) (block : CBlock)
    (chain : List CBlock) : Prop where
  addressesKnown : Known (addressCoding env) K
    ((commandsOf env block.vtx).filterMap addressCommand)
  addresses : Changes (addressCoding env) (frozenAddresses env chain)
    ((commandsOf env block.vtx).filterMap addressCommand)
  assetsKnown : Known assetCoding Set.univ ((commandsOf env block.vtx).filterMap assetCommand)
  assets : Changes assetCoding (frozenAssets env chain)
    ((commandsOf env block.vtx).filterMap assetCommand)

def ChainChanges (env : Env) (K : Set (Bytes × Bytes)) : List CBlock → Prop
  | [] => True
  | block :: chain => BlockChanges env K block chain ∧ ChainChanges env K chain

structure FreezesTracked (env : Env) (K : Set (Bytes × Bytes)) (n : Node) : Prop where
  addresses : Tracks (addressCoding env) K (addressLayers n.st)
    (frozenAddresses env n.chainActive)
  assets : Tracks assetCoding Set.univ (assetLayers n.st) (frozenAssets env n.chainActive)
  changes : ChainChanges env K n.chainActive

/-- The condition on a step.  The addresses that a connected block freezes or unfreezes, and those
that are looked up, are in `K`; no coinbase carries a command; and what is active when a block with
commands is connected is active when it is disconnected. -/
def FreezeStep (env : Env) (K : Set (Bytes × Bytes)) (n : Node) : NodeEvent → Prop
  | .connectTip ctx block =>
    CoinbaseWithoutCommands (env.withTip ctx) block ∧
      ∀ e ∈ (commandsOf env block.vtx).filterMap addressCommand, e.1 ∈ K
  | .disconnectTip ctx => ∀ block ∈ n.chainActive.head?, commandsOf env block.vtx ≠ [] →
    ctx.dep.areAssetsDeployed = true ∧ ctx.dep.areRestrictedAssetsDeployed = true
  | .read (.restriction name address) => (name, address) ∈ K
  | .read _ | .dump => True

variable {K : Set (Bytes × Bytes)} {n n' : Node}

theorem FreezesTracked.genesis : FreezesTracked env K .genesis :=
  ⟨Tracks.empty _, Tracks.empty _, trivial⟩

theorem FreezesTracked.blockChanges {block : CBlock} (hn : FreezesTracked env K n)
    (hknown : ∀ e ∈ (commandsOf env block.vtx).filterMap addressCommand, e.1 ∈ K)
    (hchanges : ∀ command ∈ commandsOf env block.vtx, CommandChanges env n.st command) :
    BlockChanges env K block n.chainActive := by
  have haddress : ∀ e ∈ (commandsOf env block.vtx).filterMap addressCommand,
      CommandChanges env n.st (.restricted e.1.1 e.1.2 e.2) := by
    intro e he
    obtain ⟨command, hcommand, hread⟩ := List.mem_filterMap.1 he
    cases command with
    | qualifier => cases hread
    | restricted =>
      cases hread
      exact hchanges _ hcommand
    | global => cases hread
  have hasset : ∀ e ∈ (commandsOf env block.vtx).filterMap assetCommand,
      CommandChanges env n.st (.global e.1 e.2) := by
    intro e he
    obtain ⟨command, hcommand, hread⟩ := List.mem_filterMap.1 he
    cases command with
    | qualifier => cases hread
    | restricted => cases hread
    | global =>
      cases hread
      exact hchanges _ hcommand
  refine ⟨fun e he => ⟨hknown e he, (haddress e he).1⟩, fun e he => ?_,
    fun e he => ⟨Set.mem_univ _, (hasset e he).1⟩, fun e he => ?_⟩
  · refine (haddress e he).2.trans ?_
    rw [← hn.addresses.answer e.1 (hknown e he), Bool.not_eq_true]
  · refine (hasset e he).2.trans ?_
    rw [← hn.assets.answer e.1 (Set.mem_univ _), Bool.not_eq_true]

theorem FreezesTracked.connectTip {ctx : TipContext} {block : CBlock}
    (hn : FreezesTracked env K n) (he : FreezeStep env K n (.connectTip ctx block))
    (h : n.connectTip env ctx block = some n') : FreezesTracked env K n' := by
  obtain ⟨hcoinbase, hknown⟩ := he
  obtain ⟨s, hs, hgenesis, -, hchain, blockUndo, hst⟩ := connectTip_eq_some h
  have hgenesis' : block.hash ≠ (env.withTip ctx).params.hashGenesisBlock := hgenesis
  obtain ⟨hstaged, hcommands⟩ := connectBlock_freezes hgenesis' hcoinbase hs
  have hchanges : BlockChanges env K block n.chainActive := hn.blockChanges hknown hcommands
  have haddress : s.assetsCache.newRestrictedAddress =
      stageAll ((commandsOf env block.vtx).filterMap addressCommand) := congrArg Prod.fst hstaged
  have hasset : s.assetsCache.newRestrictedGlobal =
      stageAll ((commandsOf env block.vtx).filterMap assetCommand) := congrArg Prod.snd hstaged
  have haddressLayers : addressLayers n'.st = { addressLayers n.st with
      staged := Staged.flush true s.assetsCache.newRestrictedAddress
        n.st.passets.newRestrictedAddress } := by rw [hst]; rfl
  have hassetLayers : assetLayers n'.st = { assetLayers n.st with
      staged := Staged.flush true s.assetsCache.newRestrictedGlobal
        n.st.passets.newRestrictedGlobal } := by rw [hst]; rfl
  refine ⟨?_, ?_, ?_⟩
  · rw [haddressLayers, haddress, hchain]
    exact hn.addresses.connect hchanges.addressesKnown
  · rw [hassetLayers, hasset, hchain]
    exact hn.assets.connect hchanges.assetsKnown
  · rw [hchain]
    exact ⟨hchanges, hn.changes⟩

theorem FreezesTracked.disconnectTip {ctx : TipContext} (hn : FreezesTracked env K n)
    (he : FreezeStep env K n (.disconnectTip ctx)) (h : n.disconnectTip env ctx = some n') :
    FreezesTracked env K n' := by
  obtain ⟨block, vtxundo, s, hchain, hs, -, -, hst⟩ := disconnectTip_eq_some h
  have hdep : commandsOf (env.withTip ctx) block.vtx ≠ [] →
      ctx.dep.areAssetsDeployed = true ∧ ctx.dep.areRestrictedAssetsDeployed = true :=
    he block (by rw [hchain]; rfl)
  have hstaged := disconnectBlock_freezes hdep hs
  have hchanges := hn.changes
  rw [hchain] at hchanges
  obtain ⟨hblock, hrest⟩ := hchanges
  have haddress : s.assetsCache.newRestrictedAddress =
      stageRemovals ((commandsOf env block.vtx.reverse).filterMap addressCommand) :=
    congrArg Prod.fst hstaged
  have hasset : s.assetsCache.newRestrictedGlobal =
      stageRemovals ((commandsOf env block.vtx.reverse).filterMap assetCommand) :=
    congrArg Prod.snd hstaged
  have haddressLayers : addressLayers n'.st = { addressLayers n.st with
      staged := Staged.flush true s.assetsCache.newRestrictedAddress
        n.st.passets.newRestrictedAddress } := by rw [hst]; rfl
  have hassetLayers : assetLayers n'.st = { assetLayers n.st with
      staged := Staged.flush true s.assetsCache.newRestrictedGlobal
        n.st.passets.newRestrictedGlobal } := by rw [hst]; rfl
  have haddresses := hn.addresses
  have hassets := hn.assets
  rw [hchain] at haddresses hassets
  refine ⟨?_, ?_, hrest⟩
  · rw [haddressLayers, haddress]
    refine haddresses.disconnect hblock.addressesKnown hblock.addresses fun e => ?_
    simp only [List.mem_filterMap, mem_commandsOf_reverse]
  · rw [hassetLayers, hasset]
    refine hassets.disconnect hblock.assetsKnown hblock.assets fun e => ?_
    simp only [List.mem_filterMap, mem_commandsOf_reverse]

theorem FreezesTracked.dump (hn : FreezesTracked env K n)
    (hinj : Set.InjOn (addressCoding env).cacheKey K) :
    FreezesTracked env K { n with st := n.st.dumpCacheToDatabase env } := by
  refine ⟨?_, ?_, hn.changes⟩
  · simp only [addressLayers_dump hn.addresses]
    exact hn.addresses.dump hinj
  · simp only [assetLayers_dump hn.assets]
    exact hn.assets.dump (Set.injOn_id _)

theorem FreezesTracked.read (hn : FreezesTracked env K n)
    (hinj : Set.InjOn (addressCoding env).cacheKey K) {lookup : CacheRead}
    (he : FreezeStep env K n (.read lookup)) :
    FreezesTracked env K { n with st := n.st.read env lookup } := by
  cases lookup with
  | asset name => exact ⟨hn.addresses, hn.assets, hn.changes⟩
  | verifier name => exact ⟨hn.addresses, hn.assets, hn.changes⟩
  | qualifier name address => exact ⟨hn.addresses, hn.assets, hn.changes⟩
  | restriction name address => exact ⟨hn.addresses.load hinj he, hn.assets, hn.changes⟩
  | globalRestriction name =>
    exact ⟨hn.addresses, hn.assets.load (Set.injOn_id _) (Set.mem_univ name), hn.changes⟩

theorem FreezesTracked.step {e : NodeEvent} (hn : FreezesTracked env K n)
    (hinj : Set.InjOn (addressCoding env).cacheKey K) (he : FreezeStep env K n e)
    (h : (node env).step n e = some n') : FreezesTracked env K n' := by
  cases e with
  | connectTip ctx block => exact hn.connectTip he h
  | disconnectTip ctx => exact hn.disconnectTip he h
  | dump =>
    cases h
    exact hn.dump hinj
  | read lookup =>
    cases h
    exact hn.read hinj he

/-- **The caches answer as the chain says.**  After any run along `FreezeStep`, an address is
frozen for an asset, or an asset as a whole, if and only if the commands of the active chain make
it so. -/
theorem checkRestriction_iff_frozen {events : List NodeEvent}
    (hinj : Set.InjOn (fun key : Bytes × Bytes => cacheHash env key.1 key.2) K)
    (halong : (node env).Along (FreezeStep env K) .genesis events)
    (h : (node env).exec .genesis events = some n) (cache : CAssetsCache) :
    (∀ name address, (name, address) ∈ K →
      (cache.checkForAddressRestriction env n.st name address true = true ↔
        (name, address) ∈ frozenAddresses env n.chainActive)) ∧
      ∀ name, cache.checkForGlobalRestriction n.st name true = true ↔
        name ∈ frozenAssets env n.chainActive := by
  have hn : FreezesTracked env K n :=
    Machine.exec_invariant (fun _ _ _ hn he hstep => hn.step hinj he hstep) .genesis halong h
  refine ⟨fun name address hkey => ?_, fun name => ?_⟩
  · rw [checkForAddressRestriction_tip]
    exact hn.addresses.answer _ hkey
  · rw [checkForGlobalRestriction_tip]
    exact hn.assets.answer _ (Set.mem_univ name)

/-! ### Freezes of one address -/

/-- The owner token of `NAME`, to key 1. -/
def transferOwnerNAME : CTxOut where
  nValue := 0
  scriptPubKey := CAssetTransfer.constructTransaction ⟨ascii "NAME!", OWNER_ASSET_AMOUNT, [], 0⟩
    (getScriptForKeyID (keyHash 1))

/-- A command that freezes or unfreezes key 1 for `$NAME`. -/
def freezeOutput (flag : Int8) : CTxOut where
  nValue := 0
  scriptPubKey := [OP_UNEMP_ASSET] ++ CScript.pushData (keyHash 1) ++
    CScript.pushData (CNullAssetTxData.serialize ⟨ascii "$NAME", flag⟩)

def frozenKey : Bytes × Bytes := (ascii "$NAME", addressOf payableEnv (freezeOutput 1).scriptPubKey)

/-- The owner of `NAME` freezes key 1. -/
def freezeBlock : CBlock :=
  ⟨1002, [coinbaseTx 1002 (5000 * COIN),
    ⟨2002, [⟨⟨2001, 1⟩, []⟩], [transferOwnerNAME, freezeOutput 1]⟩]⟩

def freezeRun : List NodeEvent :=
  connects (coinbaseChain 101) ++ [.connectTip activeContext issueBlock,
    .connectTip activeContext freezeBlock, .dump]

theorem freezeRun_frozen :
    ∃ n, (node payableEnv).exec .genesis freezeRun = some n ∧
      CAssetsCache.empty.checkForAddressRestriction payableEnv n.st frozenKey.1 frozenKey.2 true =
        true ∧ frozenKey ∈ frozenAddresses payableEnv n.chainActive := by
  have hrun : ((node payableEnv).exec .genesis freezeRun).map (fun n =>
      CAssetsCache.empty.checkForAddressRestriction payableEnv n.st frozenKey.1 frozenKey.2 true) =
        some true := by
    rw [freezeRun, exec_coinbaseChain ⟨rfl, rfl⟩ (by decide)]
    decide +kernel
  obtain ⟨n, hexec, hfrozen⟩ := Option.map_eq_some_iff.1 hrun
  have hinj : Set.InjOn (fun key : Bytes × Bytes => cacheHash payableEnv key.1 key.2)
      {frozenKey} := Set.injOn_singleton _ _
  have halong : (node payableEnv).Along (FreezeStep payableEnv {frozenKey}) .genesis
      freezeRun := by
    refine Machine.Along.of_forall fun e he s => ?_
    rcases List.mem_append.1 he with hmem | hmem
    · obtain ⟨pair, hpair, rfl⟩ := List.mem_map.1 hmem
      obtain ⟨h, -, rfl⟩ := List.mem_map.1 hpair
      have hnone : commandsOf payableEnv (coinbaseBlock h).vtx = [] := rfl
      refine ⟨Or.inr fun tx htx _ => List.flatMap_eq_nil_iff.1 hnone tx htx, ?_⟩
      rw [hnone]
      exact fun _ hmem => nomatch hmem
    · simp only [List.mem_cons, List.not_mem_nil, or_false] at hmem
      rcases hmem with rfl | rfl | rfl
      · have hnone : commandsOf payableEnv issueBlock.vtx = [] := by decide +kernel
        refine ⟨Or.inl rfl, ?_⟩
        rw [hnone]
        exact fun _ hmem => nomatch hmem
      · have hone : (commandsOf payableEnv freezeBlock.vtx).filterMap addressCommand =
            [(frozenKey, .FREEZE_ADDRESS)] := by decide +kernel
        refine ⟨Or.inl rfl, ?_⟩
        rw [hone]
        exact fun e he => congrArg Prod.fst (List.mem_singleton.1 he)
      · trivial
  have hanswer := checkRestriction_iff_frozen hinj halong hexec .empty
  exact ⟨n, hexec, hfrozen, (hanswer.1 _ _ rfl).1 hfrozen⟩

def coinbaseUnfreezeBlock : CBlock :=
  let coinbase := coinbaseTx 1001 (5000 * COIN)
  ⟨1001, [{ coinbase with vout := coinbase.vout ++ [transferOwnerNAME, freezeOutput 0] }]⟩

/-- The coinbase is not checked against the caches.  It unfreezes an address that is not frozen,
and when it is undone the address is frozen. -/
theorem coinbaseUnfreeze_freezes :
    ∃ n, (node payableEnv).exec .genesis [.connectTip uncheckedContext coinbaseUnfreezeBlock,
        .disconnectTip uncheckedContext] = some n ∧
      CAssetsCache.empty.checkForAddressRestriction payableEnv n.st frozenKey.1 frozenKey.2 true =
        true ∧ frozenKey ∉ frozenAddresses payableEnv n.chainActive := by
  have hrun : ((node payableEnv).exec .genesis
      [.connectTip uncheckedContext coinbaseUnfreezeBlock,
        .disconnectTip uncheckedContext]).map (fun n =>
      (CAssetsCache.empty.checkForAddressRestriction payableEnv n.st frozenKey.1 frozenKey.2 true,
        n.chainActive)) = some (true, []) := by
    decide +kernel
  obtain ⟨n, hexec, hn⟩ := Option.map_eq_some_iff.1 hrun
  obtain ⟨hfrozen, hchain⟩ := Prod.mk.inj hn
  refine ⟨n, hexec, hfrozen, ?_⟩
  rw [hchain]
  exact Set.notMem_empty _

end UnemployCoin
