import UnemployCoin.FreezeRefinement
import UnemployCoin.TagRefinement
import UnemployCoin.Verifiers
/-!
# The asset caches answer for the verifier strings

A verifier string that a block sets is staged **over** nothing: when the block sets one for the same
asset again, the first one stays.  Where no block does that, the lookup finds what the blocks of the
active chain set last.
-/

namespace UnemployCoin

open Check CAssetsCache

variable {env : Env} {st : AssetState} {cache cache' : CAssetsCache}

/-! ## A dump -/

theorem verifierLayers_dumpIssues : verifierLayers (dumpIssues cache st) =
    (verifierLayers st).eraseAll (cache.newAssets.toRemove.entries.map Prod.fst) := by
  have hadd : ∀ (st : AssetState) (e : Bytes × CAssetCacheNewAsset),
      verifierLayers (dumpNewAsset st e) = verifierLayers st := fun _ _ => rfl
  have hremove : ∀ (l : List (Bytes × CAssetCacheNewAsset)) (st : AssetState),
      verifierLayers (l.foldl dumpRemovedAsset st) =
        (verifierLayers st).eraseAll (l.map Prod.fst) := by
    intro l
    induction l with
    | nil => exact fun _ => rfl
    | cons e l ih =>
      intro st
      rw [List.foldl_cons, ih]
      rfl
  rw [dumpIssues, foldl_keeps hadd, hremove]

theorem verifierLayers_dumpReissues :
    verifierLayers (dumpReissues cache st) = verifierLayers st :=
  dumpReissues_keeps fun _ _ _ _ _ => rfl

theorem verifierLayers_dumpUndoVerifier {e : Bytes × CAssetCacheRestrictedVerifiers} :
    verifierLayers (dumpUndoVerifier st e) = (verifierLayers st).write verifierCoding true e := by
  obtain ⟨name, verifier, fUndoingRessiue⟩ := e
  cases fUndoingRessiue <;> rfl

theorem verifierLayers_dumpVerifiers : verifierLayers (dumpVerifiers cache st) =
    cache.newRestrictedVerifier.toRemove.entries.foldl
      (Slots.Layers.write verifierCoding true)
      (cache.newRestrictedVerifier.toAdd.entries.foldl (Slots.Layers.write verifierCoding false)
        (verifierLayers st)) := by
  have hadd : ∀ (st : AssetState) (e : Bytes × CAssetCacheRestrictedVerifiers),
      verifierLayers (dumpVerifier st e) = (verifierLayers st).write verifierCoding false e :=
    fun _ _ => rfl
  rw [dumpVerifiers, foldl_commutes fun _ _ _ => verifierLayers_dumpUndoVerifier,
    foldl_commutes fun _ _ _ => hadd _ _]

theorem verifierLayers_dumpCommands : verifierLayers (dumpGlobals cache
    (dumpRestrictions env cache (dumpQualifiers env cache st))) = verifierLayers st :=
  (dumpGlobals_keeps fun _ _ _ => rfl).trans
    ((dumpRestrictions_keeps fun _ _ _ => rfl).trans (dumpQualifiers_keeps fun _ _ _ => rfl))

theorem verifierLayers_dump : verifierLayers (st.dumpCacheToDatabase env) =
    ((verifierLayers st).eraseAll (st.passets.newAssets.toRemove.entries.map Prod.fst)).dump
      verifierCoding := by
  have hdump : verifierLayers (st.dumpCacheToDatabase env) =
      { verifierLayers (dumpGlobals st.passets (dumpRestrictions env st.passets
          (dumpQualifiers env st.passets (dumpVerifiers st.passets (dumpReissues st.passets
            (dumpIssues st.passets st)))))) with staged := ∅ } := rfl
  rw [hdump, verifierLayers_dumpCommands, verifierLayers_dumpVerifiers, verifierLayers_dumpReissues,
    verifierLayers_dumpIssues]
  rfl

/-! ## The invariant -/

variable {e : Bytes × Bytes} {tx : CTransaction}

theorem issued_of_setsVerifier {fCheckDuplicateInputs fMempoolCheck
    fBlockCheck : Bool}
    (htx : checkTransaction env tx fCheckDuplicateInputs fMempoolCheck fBlockCheck = .ok ())
    (h : setsVerifier env tx = some e) :
    resetsVerifier env tx = some e ∨ e.1 ∈ issuedNames env tx := by
  rw [setsVerifier] at h
  split at h
  · rename_i hkind
    split at h
    · cases h
    · cases h
      obtain ⟨record, hrecord⟩ := checkAssetTx_of_checkTransaction htx
      rw [checkAssetTx, hkind] at hrecord
      simp only [checkNewRestrictedTx, unit_map_ok, unit_bind] at hrecord
      have hverify := hrecord.1.1
      simp only [CTransaction.verifyNewRestrictedAsset, require_bind, demand_bind] at hverify
      obtain ⟨-, -, issued, hissued, -⟩ := hverify
      have hspec := assetTxKind_spec env tx
      rw [hkind] at hspec
      have hread : tx.restrictedAssetFromTransaction env = some issued := by
        rw [CTransaction.restrictedAssetFromTransaction, if_pos hspec, hissued]
      have hmem : issued ∈ newRecords env tx := by
        rw [newRecords, hkind, hread]
        exact List.mem_singleton.2 rfl
      right
      rw [hread]
      exact issuedNames_of_newRecords hmem
  · exact Or.inl h

/-- Every block of a chain meets `VerifierBlock`, and its hash tells it and the chain below. -/
def ChainVerifiers (env : Env) (chainOf : uint256 → List CBlock) : List CBlock → Prop
  | [] => True
  | block :: chain => VerifierBlock env (verifierOn env chain) block ∧
      chainOf block.hash = block :: chain ∧ ChainVerifiers env chainOf chain

/-- The undo data of a block brings back what the chain below the block says. -/
def UndoesVerifiers (env : Env) (chainOf : uint256 → List CBlock) (hash : uint256)
    (vUndoData : List (Bytes × CBlockAssetUndo)) : Prop :=
  ∀ block chain, chainOf hash = block :: chain →
    VerifierUndo env (verifierOn env chain) block.vtx vUndoData

structure VerifiersTracked (env : Env) (chainOf : uint256 → List CBlock) (n : Node) : Prop where
  own : OwnRecords n.st
  layers : Slots.Tracks verifierCoding (verifierLayers n.st) (verifierOn env n.chainActive)
  blocks : ChainVerifiers env chainOf n.chainActive
  removed : ∀ name, n.st.passets.newAssets.toRemove.count name = true →
    verifierOn env n.chainActive name = none
  undo : UndoTracked (UndoesVerifiers env chainOf) n

variable {chainOf : uint256 → List CBlock} {n n' : Node}

theorem VerifiersTracked.genesis : VerifiersTracked env chainOf .genesis where
  own := OwnRecords.genesis
  layers := Slots.Tracks.empty _
  blocks := trivial
  removed _ h := by cases h
  undo := UndoTracked.genesis

/-! ## The steps -/

/-- The condition on a step.  A connected block sets no verifier string twice, and more generally
meets `VerifierBlock`; no coinbase issues or reissues; the hash of a block tells the block and the
chain below it.  When a block that sets verifier strings is disconnected, assets are active, and
those that it reissued with a verifier string exist. -/
def VerifierStep (env : Env) (chainOf : uint256 → List CBlock) (n : Node) : NodeEvent → Prop
  | .connectTip ctx block =>
    CoinbaseWithoutAssets (env.withTip ctx) block ∧
      VerifierBlock env (verifierOn env n.chainActive) block ∧
      chainOf block.hash = block :: n.chainActive
  | .disconnectTip ctx => ∀ block ∈ n.chainActive.head?,
    (verifiersOf env block.vtx ≠ [] → ctx.dep.areAssetsDeployed = true) ∧
      ∀ tx ∈ block.vtx, ∀ e, resetsVerifier env tx = some e →
        CAssetsCache.empty.checkIfAssetExists env n.st e.1 = true
  | .dump | .read _ => True

variable {f : Bytes → Option Bytes} {block : CBlock} {ctx : TipContext}

theorem verifierBlock_withTip
    (h : VerifierBlock env f block) : VerifierBlock (env.withTip ctx) f block :=
  ⟨h.once, h.first, h.known, h.fresh⟩

theorem VerifiersTracked.connectTip
    (hn : VerifiersTracked env chainOf n) (he : VerifierStep env chainOf n (.connectTip ctx block))
    (h : n.connectTip env ctx block = some n') : VerifiersTracked env chainOf n' := by
  obtain ⟨hcoinbase, hb, hhash⟩ := he
  obtain ⟨s, hs, hgenesis, -, hchain, blockUndo, hst⟩ := connectTip_eq_some h
  have hgenesis' : block.hash ≠ (env.withTip ctx).params.hashGenesisBlock := hgenesis
  have hstaged := connectBlock_verifiers hn.own hn.layers hgenesis' hcoinbase
    (verifierBlock_withTip hb) hs
  have hissues := connectBlock_localIssues hgenesis' hcoinbase hs
  have hlayers : verifierLayers n'.st = { verifierLayers n.st with
      staged := Staged.flush true s.assetsCache.newRestrictedVerifier
        n.st.passets.newRestrictedVerifier } := by rw [hst]; rfl
  refine ⟨hn.own.step (e := .connectTip ctx block) h, ?_, ?_, fun name hname => ?_, ?_⟩
  · rw [hlayers, hchain]
    have hoverlay : Slots.overlay verifierCoding s.assetsCache.newRestrictedVerifier
        (verifierOn env n.chainActive) = verifierOn env (block :: n.chainActive) := by
      funext name
      have hsame : verifiersOf (env.withTip ctx) block.vtx = verifiersOf env block.vtx := rfl
      rw [Slots.overlay, hstaged.removed, hstaged.added, hsame, verifierOn]
      cases Toggles.last? (verifiersOf env block.vtx) name <;> rfl
    rw [← hoverlay]
    exact hn.layers.flush s.assetsCache.newRestrictedVerifier
  · rw [hchain]
    exact ⟨hb, hhash, hn.blocks⟩
  · -- What is removed below and not issued by the block has no verifier string, and gets none.
    rw [hst] at hname
    have hflush : (s.assetsCache.flushInto n.st.passets).newAssets.toRemove.count name = true :=
      hname
    have hcount := hflush
    rw [flushInto] at hcount
    simp only at hcount
    rw [Staged.count_flush_toRemove, hissues.noRemoval, Bool.false_or, Bool.and_eq_true,
      Bool.not_eq_true'] at hcount
    obtain ⟨hadd, hremove⟩ := hcount
    have hbelow := hn.removed name hremove
    rw [hchain, verifierOn, hbelow, Option.or_none, Toggles.last?_eq_none]
    intro e hmem heq
    obtain ⟨tx, htx, hsets⟩ := mem_verifiersOf.1 hmem
    obtain ⟨hblock, -, -⟩ := connectBlock_ok hgenesis' hs
    obtain ⟨-, -, -, -, -, htxs⟩ := checkBlock_ok hblock
    rcases issued_of_setsVerifier (htxs tx htx) hsets with hresets | hissued
    · have hknown := hb.known tx htx e hresets
      rw [heq] at hknown
      exact hknown hbelow
    · have hadded := hissues.added tx htx e.1 hissued
      rw [heq, hadd] at hadded
      cases hadded
  · refine hn.undo.connectTip h hs fun block' chain hblock' => ?_
    rw [hhash, List.cons.injEq] at hblock'
    obtain ⟨rfl, rfl⟩ := hblock'
    exact ⟨hstaged.undo.changed, hstaged.undo.found⟩

theorem VerifiersTracked.disconnectTip (hn : VerifiersTracked env chainOf n)
    (he : VerifierStep env chainOf n (.disconnectTip ctx))
    (h : n.disconnectTip env ctx = some n') : VerifiersTracked env chainOf n' := by
  obtain ⟨block, vtxundo, s, hchain, hcount, hs, hundo, hst⟩ := disconnectTip_undo h
  obtain ⟨hdep, hexists⟩ := he block (by rw [hchain]; rfl)
  have hblocks := hn.blocks
  rw [hchain] at hblocks
  obtain ⟨hb, hhash, hrest⟩ := hblocks
  have hdata := hn.undo.recorded block.hash hcount block n'.chainActive hhash
  have hundone := disconnectBlock_verifiers hn.own
    (verifierBlock_withTip hb) ⟨hdata.changed, hdata.found⟩ hexists hdep hs
  have hlayers : verifierLayers n'.st = { verifierLayers n.st with
      staged := Staged.flush true s.assetsCache.newRestrictedVerifier
        n.st.passets.newRestrictedVerifier } := by rw [hst]; rfl
  refine ⟨hn.own.step (e := .disconnectTip ctx) h, ?_, hrest, fun name hname => ?_, ?_⟩
  · have hoverlay : Slots.overlay verifierCoding s.assetsCache.newRestrictedVerifier
        (verifierOn env n.chainActive) = verifierOn env n'.chainActive := by
      funext name
      rw [Slots.overlay, hundone.added]
      cases hremove : s.assetsCache.newRestrictedVerifier.toRemove.find? name with
      | some item => exact (hundone.removed name item hremove).1
      | none =>
        have hlast : Toggles.last? (verifiersOf env block.vtx) name = none := by
          rw [Toggles.last?_eq_none]
          intro e hmem heq
          obtain ⟨tx, htx, hsets⟩ := mem_verifiersOf.1 hmem
          have hreverse : e ∈ verifiersOf env block.vtx.reverse :=
            mem_verifiersOf.2 ⟨tx, List.mem_reverse.2 htx, hsets⟩
          have hstaged := hundone.undone e hreverse
          rw [heq] at hstaged
          exact hstaged hremove
        simp only
        rw [hchain, verifierOn, hlast, Option.none_or]
    rw [hlayers, ← hoverlay]
    exact hn.layers.flush s.assetsCache.newRestrictedVerifier
  · rw [hst] at hname
    have hflush : (s.assetsCache.flushInto n.st.passets).newAssets.toRemove.count name = true :=
      hname
    rw [flushInto] at hflush
    simp only at hflush
    rw [Staged.count_flush_toRemove, Bool.or_eq_true, Bool.and_eq_true] at hflush
    rcases hflush with htop | ⟨-, hbottom⟩
    · exact hb.fresh name (hundone.removals.removed name htop)
    · have hbelow := hn.removed name hbottom
      rw [hchain, verifierOn, Option.or_eq_none_iff] at hbelow
      exact hbelow.2
  · refine hn.undo.congr hundo ?_
    rw [hst]
    rfl

theorem VerifiersTracked.dump (hn : VerifiersTracked env chainOf n) :
    VerifiersTracked env chainOf { n with st := n.st.dumpCacheToDatabase env } := by
  refine ⟨hn.own.dump, ?_, hn.blocks, fun _ h => (nomatch h), hn.undo.congr rfl blockUndo_dump⟩
  have herase : ∀ name ∈ n.st.passets.newAssets.toRemove.entries.map Prod.fst,
      verifierOn env n.chainActive name = none := by
    intro name hname
    obtain ⟨e, hmem, rfl⟩ := List.mem_map.1 hname
    exact hn.removed e.1 (StdMap.count_of_find? (StdMap.mem_entries.1 hmem))
  simp only [verifierLayers_dump]
  exact (hn.layers.erase herase).dump

theorem VerifiersTracked.read (hn : VerifiersTracked env chainOf n) (lookup : CacheRead) :
    VerifiersTracked env chainOf { n with st := n.st.read env lookup } := by
  obtain ⟨hpassets, hdb, -⟩ := read_passets env n.st lookup
  refine ⟨hn.own.read lookup, ?_, hn.blocks, ?_, hn.undo.congr rfl ?_⟩
  · cases lookup with
    | asset name => exact hn.layers
    | verifier name => exact hn.layers.load name
    | qualifier name address => exact hn.layers
    | restriction name address => exact hn.layers
    | globalRestriction name => exact hn.layers
  · simp only [hpassets]
    exact hn.removed
  · simp only [hdb]

theorem VerifiersTracked.step {e : NodeEvent} (hn : VerifiersTracked env chainOf n)
    (he : VerifierStep env chainOf n e) (h : (node env).step n e = some n') :
    VerifiersTracked env chainOf n' := by
  cases e with
  | connectTip ctx block => exact hn.connectTip he h
  | disconnectTip ctx => exact hn.disconnectTip he h
  | dump =>
    cases h
    exact hn.dump
  | read lookup =>
    cases h
    exact hn.read lookup

/-- **The last verifier string.**  After any run along `VerifierStep`, and with an empty local
cache, the lookup finds the verifier string that the blocks of the active chain set last, and
nothing if none did. -/
theorem getAssetVerifierString_eq_verifierOn {events : List NodeEvent}
    (halong : (node env).Along (VerifierStep env chainOf) .genesis events)
    (h : (node env).exec .genesis events = some n) (name : Bytes) (fSkipTempCache : Bool) :
    CAssetsCache.empty.getAssetVerifierStringIfExists n.st name fSkipTempCache =
      verifierOn env n.chainActive name := by
  have hn : VerifiersTracked env chainOf n :=
    Machine.exec_invariant (I := fun n : Node => VerifiersTracked env chainOf n)
      (fun _ _ _ hn he hstep => hn.step he hstep) .genesis halong h
  rw [getAssetVerifierStringIfExists_unstaged fSkipTempCache ⟨rfl, rfl⟩, hn.layers.answer]

/-! ### Verifier strings of one asset -/

def verifierOutput (verifier : String) : CTxOut where
  nValue := 0
  scriptPubKey := [OP_UNEMP_ASSET, OP_RESERVED] ++
    CScript.pushData (CNullAssetTxVerifierString.serialize ⟨ascii verifier⟩)

/-- `NAME` and `#TAG` are issued. -/
def issueOwnersBlock : CBlock :=
  ⟨1001, [coinbaseTx 1001 (5000 * COIN), issueTx 2001 ⟨0, 0⟩,
    ⟨2002, [⟨⟨1, 0⟩, []⟩], [burnOutput (1000 * COIN), newTag "#TAG"]⟩]⟩

/-- `$NAME` is issued with the verifier string `true`. -/
def issueRestrictedBlock : CBlock :=
  ⟨1002, [coinbaseTx 1002 (5000 * COIN),
    ⟨2003, [⟨⟨2, 0⟩, []⟩, ⟨⟨2001, 1⟩, []⟩],
      [burnOutput (1500 * COIN), transferOwnerNAME, verifierOutput "true",
        ⟨0, CNewAsset.constructTransaction ⟨ascii "$NAME", COIN, 0, 1, 0, []⟩
          (getScriptForKeyID (keyHash 1))⟩]⟩]⟩

/-- A reissue of `$NAME` that only sets its verifier string. -/
def resetTx (hash : uint256) (coin owner : COutPoint) (verifier : String) : CTransaction :=
  ⟨hash, [⟨coin, []⟩, ⟨owner, []⟩],
    [burnOutput (100 * COIN), transferOwnerNAME, verifierOutput verifier,
      ⟨0, CReissueAsset.constructTransaction ⟨ascii "$NAME", 0, -1, 1, []⟩
        (getScriptForKeyID (keyHash 1))⟩]⟩

/-- The verifier string becomes `TAG`. -/
def resetBlock : CBlock :=
  ⟨1003, [coinbaseTx 1003 (5000 * COIN), resetTx 2004 ⟨3, 0⟩ ⟨2003, 1⟩ "TAG"]⟩

/-- It becomes `TAG`, and then `true` again. -/
def resetTwiceBlock : CBlock :=
  ⟨1003, [coinbaseTx 1003 (5000 * COIN), resetTx 2004 ⟨3, 0⟩ ⟨2003, 1⟩ "TAG",
    resetTx 2005 ⟨4, 0⟩ ⟨2004, 1⟩ "true"]⟩

/-- The blocks up to the issue of `$NAME`. -/
def restrictedChain : List (TipContext × CBlock) :=
  coinbaseChain 104 ++ [(activeContext, issueOwnersBlock), (activeContext, issueRestrictedBlock)]

/-- The verifier string is set to `TAG`, which is dumped and undone. -/
def resetRun : List NodeEvent :=
  connects (restrictedChain ++ [(activeContext, resetBlock)]) ++
    [.dump, .disconnectTip activeContext]

def chainOfHash (blocks : List CBlock) (hash : uint256) : List CBlock :=
  blocks.reverse.dropWhile fun block => decide (block.hash ≠ hash)

theorem chainOfHash_append {pre post : List CBlock}
    (h : ((pre ++ block :: post).map CBlock.hash).Nodup) :
    chainOfHash (pre ++ block :: post) block.hash = block :: pre.reverse := by
  rw [List.map_append, List.map_cons, List.nodup_append, List.nodup_cons] at h
  have hpost : ∀ b ∈ post.reverse, decide (b.hash ≠ block.hash) = true := by
    intro b hmem
    rw [decide_eq_true_eq]
    intro heq
    exact h.2.1.1 (List.mem_map.2 ⟨b, List.mem_reverse.1 hmem, heq⟩)
  rw [chainOfHash, List.reverse_append, List.reverse_cons, List.append_assoc,
    List.singleton_append, List.dropWhile_append_of_pos hpost, List.dropWhile_cons_of_neg (by simp)]

theorem verifierBlock_of_quiet
    (h : verifiersOf env block.vtx = []) (hnames : ∀ name ∈ blockNames env block, f name = none) :
    VerifierBlock env f block := by
  have hnone : ∀ tx ∈ block.vtx, ∀ e, resetsVerifier env tx ≠ some e := by
    intro tx htx e he
    have hmem : e ∈ verifiersOf env block.vtx :=
      mem_verifiersOf.2 ⟨tx, htx, setsVerifier_of_resets he⟩
    rw [h] at hmem
    cases hmem
  refine ⟨by rw [h]; exact List.nodup_nil, ?_, fun tx htx e he => absurd he (hnone tx htx e),
    hnames⟩
  intro pre tx post e hvtx he
  exact absurd he (hnone tx (by rw [hvtx]; simp) e)

theorem verifierOn_eq_none {chain : List CBlock} {name : Bytes}
    (h : ∀ block ∈ chain, verifiersOf env block.vtx = []) : verifierOn env chain name = none := by
  induction chain with
  | nil => rfl
  | cons block chain ih =>
    rw [List.forall_mem_cons] at h
    rw [verifierOn, h.1, ih h.2]
    rfl

theorem coinbaseChain_quiet (n : ℕ) :
    ∀ e ∈ coinbaseChain n, verifiersOf env e.2.vtx = [] ∧ blockNames env e.2 = ∅ ∧
      CoinbaseWithoutAssets (env.withTip e.1) e.2 := by
  intro e he
  obtain ⟨h, -, rfl⟩ := List.mem_map.1 he
  refine ⟨rfl, ?_, Or.inr fun tx htx _ => ?_⟩
  · rw [Set.eq_empty_iff_forall_notMem]
    rintro name ⟨tx, htx, hname⟩
    obtain rfl := List.mem_singleton.1 htx
    have hnone : issuedNames env (coinbaseTx h (5000 * COIN)) = [] := rfl
    rw [hnone] at hname
    cases hname
  · obtain rfl := List.mem_singleton.1 htx
    rfl

def resetBlocks : List CBlock := (restrictedChain ++ [(activeContext, resetBlock)]).map Prod.snd

theorem resetBlocks_nodup : (resetBlocks.map CBlock.hash).Nodup :=
  nodup_of_isChain (by decide +kernel)

theorem resetBlock_verifiers :
    verifiersOf tagEnv issueOwnersBlock.vtx = [] ∧
      verifiersOf tagEnv issueRestrictedBlock.vtx = [(ascii "$NAME", ascii "true")] ∧
      verifiersOf tagEnv resetBlock.vtx = [(ascii "$NAME", ascii "TAG")] ∧
      issueRestrictedBlock.vtx.map (resetsVerifier tagEnv) = [none, none] ∧
      resetBlock.vtx.map (recordedName tagEnv) = [none, some (ascii "$NAME")] ∧
      resetBlock.vtx.map (resetsVerifier tagEnv) = [none, some (ascii "$NAME", ascii "TAG")] ∧
      resetBlock.vtx.map (issuedNames tagEnv) = [[], []] := by
  decide +kernel

theorem resetsVerifier_of_map {txs : List CTransaction}
    (h : ∀ o ∈ txs.map (resetsVerifier env), o = none) (htx : tx ∈ txs) :
    resetsVerifier env tx ≠ some e := by
  intro he
  have hnone := h _ (List.mem_map_of_mem htx)
  rw [he] at hnone
  cases hnone

theorem issueRestrictedBlock_verifiers (hf : ∀ name, f name = none) :
    VerifierBlock tagEnv f issueRestrictedBlock := by
  obtain ⟨-, hsets, -, hresets, -⟩ := resetBlock_verifiers
  have hnone : ∀ tx ∈ issueRestrictedBlock.vtx, ∀ e, resetsVerifier tagEnv tx ≠ some e := by
    intro tx htx e
    refine resetsVerifier_of_map (fun o ho => ?_) htx
    rw [hresets] at ho
    simpa using ho
  constructor
  · rw [hsets]
    exact List.nodup_singleton _
  · intro pre tx post e hvtx he
    exact absurd he (hnone tx (by rw [hvtx]; simp) e)
  · exact fun tx htx e he => absurd he (hnone tx htx e)
  · exact fun name _ => hf name

theorem resetBlock_resets (htx : tx ∈ resetBlock.vtx)
    (he : resetsVerifier tagEnv tx = some e) : e.1 = ascii "$NAME" := by
  obtain ⟨-, -, -, -, -, hresets, -⟩ := resetBlock_verifiers
  have hmem : some e ∈ resetBlock.vtx.map (resetsVerifier tagEnv) := by
    rw [← he]
    exact List.mem_map_of_mem htx
  rw [hresets] at hmem
  simp only [List.mem_cons, reduceCtorEq, Option.some.injEq, List.not_mem_nil, or_false,
    false_or] at hmem
  rw [hmem]

theorem resetBlock_verifierBlock (hf : f (ascii "$NAME") ≠ none) :
    VerifierBlock tagEnv f resetBlock := by
  obtain ⟨-, -, hsets, -, hrecorded, -, hnames⟩ := resetBlock_verifiers
  constructor
  · rw [hsets]
    exact List.nodup_singleton _
  · -- Only the last transaction records, so nothing is recorded before a reissue.
    intro pre tx post e hvtx he tx' htx' hrecord
    have hlength : pre.length + (post.length + 1) = 2 := by
      have htwo := congrArg List.length hvtx
      rw [List.length_append, List.length_cons] at htwo
      exact htwo.symm
    rw [hvtx, List.map_append] at hrecorded
    have hpre : pre.map (recordedName tagEnv) = [none, some (ascii "$NAME")].take pre.length := by
      rw [← hrecorded, List.take_left' (List.length_map ..)]
    have hmem : some e.1 ∈ pre.map (recordedName tagEnv) := by
      rw [← hrecord]
      exact List.mem_map_of_mem htx'
    rw [hpre] at hmem
    have hshort : pre.length ≤ 1 := by omega
    have htake : [none, some (ascii "$NAME")].take pre.length <+: [none] := by
      refine List.prefix_of_prefix_length_le (List.take_prefix _ _) ⟨_, rfl⟩ ?_
      rw [List.length_take]
      exact (Nat.min_le_left _ _).trans hshort
    have hnone := htake.subset hmem
    simp at hnone
  · intro tx htx e he
    rw [resetBlock_resets htx he]
    exact hf
  · rintro name ⟨tx, htx, hissued⟩
    have hmem : issuedNames tagEnv tx ∈ resetBlock.vtx.map (issuedNames tagEnv) :=
      List.mem_map_of_mem htx
    rw [hnames] at hmem
    simp only [List.mem_cons, List.not_mem_nil, or_false, or_self] at hmem
    rw [hmem] at hissued
    cases hissued

theorem resetBlocks_along : (node tagEnv).Along (VerifierStep tagEnv (chainOfHash resetBlocks))
    .genesis (connects (restrictedChain ++ [(activeContext, resetBlock)])) := by
  obtain ⟨howners, hissued, -⟩ := resetBlock_verifiers
  have hchainOf : ∀ pre e post,
      restrictedChain ++ [(activeContext, resetBlock)] = pre ++ e :: post →
      chainOfHash resetBlocks e.2.hash = e.2 :: (pre.map Prod.snd).reverse := by
    intro pre e post hsplit
    have hblocks : resetBlocks = pre.map Prod.snd ++ e.2 :: post.map Prod.snd := by
      rw [resetBlocks, hsplit, List.map_append, List.map_cons]
    have hnodup := resetBlocks_nodup
    rw [hblocks] at hnodup ⊢
    exact chainOfHash_append hnodup
  have hquiet : ∀ name,
      verifierOn tagEnv ((coinbaseChain 104).map Prod.snd).reverse name = none := by
    intro name
    refine verifierOn_eq_none fun block hmem => ?_
    obtain ⟨e, he, rfl⟩ := List.mem_map.1 (List.mem_reverse.1 hmem)
    exact (coinbaseChain_quiet 104 e he).1
  have hactive : ∀ block, CoinbaseWithoutAssets (tagEnv.withTip activeContext) block :=
    fun _ => Or.inl rfl
  refine along_connects fun pre e post hsplit t ht => ?_
  have hhash := hchainOf pre e post hsplit
  have ht' : t.chainActive = (pre.map Prod.snd).reverse := by
    rw [ht]
    exact List.append_nil _
  rw [← ht'] at hhash
  rw [restrictedChain, List.append_assoc, List.append_eq_append_iff] at hsplit
  rcases hsplit with ⟨rest, rfl, hrest⟩ | ⟨rest, hcoinbases, hrest⟩
  · -- One of the last three blocks.
    rw [List.map_append, List.reverse_append] at ht'
    rcases rest with _ | ⟨a, _ | ⟨b, _ | ⟨c, rest⟩⟩⟩
    · simp only [List.nil_append, List.cons_append, List.cons.injEq] at hrest
      obtain ⟨rfl, -⟩ := hrest
      refine ⟨hactive _, ?_, hhash⟩
      refine verifierBlock_of_quiet howners fun name _ => ?_
      rw [ht']
      exact hquiet name
    · simp only [List.nil_append, List.cons_append, List.cons.injEq] at hrest
      obtain ⟨rfl, rfl, -⟩ := hrest
      refine ⟨hactive _, issueRestrictedBlock_verifiers fun name => ?_, hhash⟩
      rw [ht']
      exact (congrArg₂ Option.or (congrArg (Toggles.last? · name) howners) (hquiet name)).trans rfl
    · simp only [List.nil_append, List.cons_append, List.cons.injEq] at hrest
      obtain ⟨rfl, rfl, rfl, -⟩ := hrest
      refine ⟨hactive _, resetBlock_verifierBlock ?_, hhash⟩
      rw [ht']
      have hlast : verifierOn tagEnv (issueRestrictedBlock :: (issueOwnersBlock ::
          ((coinbaseChain 104).map Prod.snd).reverse)) (ascii "$NAME") = some (ascii "true") := by
        rw [verifierOn, hissued]
        rfl
      exact fun hnone => Option.some_ne_none _ (hlast.symm.trans hnone)
    · simp at hrest
  · -- A coinbase block, or the first of the last three.
    cases rest with
    | nil =>
      simp only [List.append_nil] at hcoinbases
      simp only [List.nil_append, List.cons_append, List.cons.injEq] at hrest
      obtain ⟨rfl, -⟩ := hrest
      refine ⟨hactive _, ?_, hhash⟩
      refine verifierBlock_of_quiet howners fun name _ => ?_
      rw [ht', ← hcoinbases]
      exact hquiet name
    | cons a rest =>
      simp only [List.cons_append, List.cons.injEq] at hrest
      obtain ⟨rfl, -⟩ := hrest
      have hmem : e ∈ coinbaseChain 104 := by rw [hcoinbases]; simp
      obtain ⟨hnone, hnames, hcoinbase⟩ := coinbaseChain_quiet 104 e hmem
      refine ⟨hcoinbase, verifierBlock_of_quiet hnone fun name hname => ?_, hhash⟩
      rw [hnames] at hname
      exact absurd hname (Set.notMem_empty _)

/-- `TAG` is undone, and the verifier string of the issue is found again. -/
theorem resetRun_found :
    ∃ n, (node tagEnv).exec .genesis resetRun = some n ∧
      CAssetsCache.empty.getAssetVerifierStringIfExists n.st (ascii "$NAME") false =
        some (ascii "true") := by
  have hrun : ((node tagEnv).exec .genesis (connects (restrictedChain ++
      [(activeContext, resetBlock)]))).map (fun t =>
        (CAssetsCache.empty.checkIfAssetExists tagEnv (t.st.dumpCacheToDatabase tagEnv)
          (ascii "$NAME"), ((node tagEnv).exec t [.dump, .disconnectTip activeContext]).isSome)) =
      some (true, true) := by
    rw [restrictedChain, List.append_assoc, connects_append,
      exec_coinbaseChain ⟨rfl, rfl⟩ (by decide)]
    decide +kernel
  obtain ⟨t, ht, hrest⟩ := Option.map_eq_some_iff.1 hrun
  obtain ⟨hexists, hsome⟩ := Prod.mk.inj hrest
  obtain ⟨n, hn⟩ := Option.isSome_iff_exists.1 hsome
  have hexec : (node tagEnv).exec .genesis resetRun = some n := Machine.exec_append.2 ⟨t, ht, hn⟩
  have hchain := chainActive_connects ht
  have halong : (node tagEnv).Along (VerifierStep tagEnv (chainOfHash resetBlocks)) .genesis
      resetRun := by
    refine resetBlocks_along.append fun t' ht' => ⟨trivial, fun u hu => ⟨?_, fun _ _ => trivial⟩⟩
    rw [ht] at ht'
    cases ht'
    cases hu
    intro block hblock
    rw [hchain, List.map_append, List.reverse_append] at hblock
    obtain rfl := Option.some.inj hblock
    refine ⟨fun _ => rfl, fun tx htx e he => ?_⟩
    rw [resetBlock_resets htx he]
    exact hexists
  refine ⟨n, hexec, ?_⟩
  rw [getAssetVerifierString_eq_verifierOn halong hexec]
  obtain ⟨u, hu, hdisconnect⟩ := Machine.exec_cons.1 hn
  obtain ⟨v, hv, hlast⟩ := Machine.exec_cons.1 hdisconnect
  cases hu
  cases hlast
  have hstep : Node.disconnectTip tagEnv { t with st := t.st.dumpCacheToDatabase tagEnv }
      activeContext = some n := hv
  obtain ⟨block, -, -, hbelow, -⟩ := disconnectTip_eq_some hstep
  have hsplit : block :: n.chainActive = t.chainActive := hbelow.symm
  rw [hchain, List.map_append, List.reverse_append] at hsplit
  obtain ⟨-, hsplit⟩ := List.cons.inj hsplit
  obtain ⟨-, hissued, -⟩ := resetBlock_verifiers
  have hnext : n.chainActive = issueRestrictedBlock :: (issueOwnersBlock ::
      ((coinbaseChain 104).map Prod.snd).reverse) := by
    rw [hsplit]
    rfl
  rw [hnext, verifierOn, hissued]
  rfl

/-- A block that sets a verifier string twice: the first one is found, not the last one. -/
theorem resetTwice_first :
    ∃ n, (node tagEnv).exec .genesis
        (connects (restrictedChain ++ [(activeContext, resetTwiceBlock)])) = some n ∧
      CAssetsCache.empty.getAssetVerifierStringIfExists n.st (ascii "$NAME") false =
        some (ascii "TAG") ∧
      verifierOn tagEnv n.chainActive (ascii "$NAME") = some (ascii "true") := by
  have hrun : ((node tagEnv).exec .genesis (connects (restrictedChain ++
      [(activeContext, resetTwiceBlock)]))).map (fun n =>
        (CAssetsCache.empty.getAssetVerifierStringIfExists n.st (ascii "$NAME") false,
          verifierOn tagEnv n.chainActive (ascii "$NAME"))) =
      some (some (ascii "TAG"), some (ascii "true")) := by
    rw [restrictedChain, List.append_assoc, connects_append,
      exec_coinbaseChain ⟨rfl, rfl⟩ (by decide)]
    decide +kernel
  obtain ⟨n, hexec, hn⟩ := Option.map_eq_some_iff.1 hrun
  obtain ⟨hfound, hlast⟩ := Prod.mk.inj hn
  exact ⟨n, hexec, hfound, hlast⟩

end UnemployCoin
