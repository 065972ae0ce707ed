import UnemployCoin.RecordHistory
/-!
# The asset caches answer for the records of the chain

The record that a lookup finds is what the blocks of the active chain make of the asset.  Undoing a
block brings the records below it back where its reissues can be undone (`ReissuesUndoable`): the
undo data is that of the **first** reissue of an asset, so what only a later one changes stays.
-/

namespace UnemployCoin

open Check CAssetsCache

variable {env : Env} {nameOf : COutPoint → Bytes} {chainOf : uint256 → List CBlock} {n n' : Node}

/-! ## The invariant -/

/-- Every block of a chain meets `RecordBlock`, and its hash tells it and the chain below. -/
def ChainRecords (env : Env) (chainOf : uint256 → List CBlock) : List CBlock → Prop
  | [] => True
  | block :: chain => RecordBlock env (assetOn env chain) block ∧
      chainOf block.hash = block :: chain ∧ ChainRecords env chainOf chain

/-- The undo data of a block is of the records below the block. -/
def UndoesRecords (env : Env) (chainOf : uint256 → List CBlock) (hash : uint256)
    (vUndoData : List (Bytes × CBlockAssetUndo)) : Prop :=
  ∀ block chain, chainOf hash = block :: chain →
    RecordUndo env (assetOn env chain) block.vtx vUndoData

structure RecordsTracked (env : Env) (nameOf : COutPoint → Bytes) (chainOf : uint256 → List CBlock)
    (n : Node) : Prop where
  bounded : ReissuesBounded env nameOf n
  answer : ∀ name, assetOf n.st .empty name = assetOn env n.chainActive name
  blocks : ChainRecords env chainOf n.chainActive
  undo : UndoTracked (UndoesRecords env chainOf) n

theorem RecordsTracked.genesis : RecordsTracked env nameOf chainOf .genesis where
  bounded := ReissuesBounded.genesis
  answer _ := rfl
  blocks := trivial
  undo := UndoTracked.genesis

theorem ChainRecords.wellFormed {chain : List CBlock} (h : ChainRecords env chainOf chain)
    {name : Bytes} {asset : CNewAsset} (hasset : assetOn env chain name = some asset) :
    asset.WellFormed := by
  induction chain generalizing asset with
  | nil => cases hasset
  | cons block chain ih =>
    obtain ⟨hb, -, hrest⟩ := h
    exact foldl_recordAfter_wellFormed (fun below hbelow => ih hrest hbelow) hb.records hasset

/-! ## The steps -/

/-- The condition on a step.  No coinbase issues or reissues; the output of a reissue tells the
name; the hash of a block tells the block and the chain below it.  When a block is disconnected, no
reissue of an asset that it issues is pending in `passets`, or in the block; its reissues can be
undone; and assets are active if it issues or reissues any. -/
def RecordStep (env : Env) (nameOf : COutPoint → Bytes) (chainOf : uint256 → List CBlock)
    (n : Node) : NodeEvent → Prop
  | .connectTip ctx block =>
    CoinbaseWithoutAssets (env.withTip ctx) block ∧ ReissuesNamed env nameOf block.vtx ∧
      chainOf block.hash = block :: n.chainActive
  | .disconnectTip ctx => ∀ block ∈ n.chainActive.head?,
    IssuesApartFromReissues env n.st block ∧
      ReissuesUndoable env (assetOn env n.chainActive.tail) block ∧
      ∀ tx ∈ block.vtx, tx.assetTxKind env ≠ .other → ctx.dep.areAssetsDeployed = true
  | .dump | .read _ => True

theorem RecordStep.reissueStep {e : NodeEvent} (he : RecordStep env nameOf chainOf n e) :
    ReissueStep env nameOf n e := by
  cases e with
  | connectTip ctx block => exact ⟨he.1, he.2.1⟩
  | disconnectTip ctx => exact fun block hblock => (he block hblock).1
  | dump => trivial
  | read lookup => trivial

theorem RecordsTracked.connectTip {ctx : TipContext} {block : CBlock}
    (hn : RecordsTracked env nameOf chainOf n)
    (he : RecordStep env nameOf chainOf n (.connectTip ctx block))
    (h : n.connectTip env ctx block = some n') : RecordsTracked env nameOf chainOf n' := by
  obtain ⟨s, hs, hgenesis, -, hchain, blockUndo, hst⟩ := connectTip_eq_some h
  have hviews := hn.bounded.views
  have hblock := hn.bounded.connected he.reissueStep hgenesis hs
  have hwf : ∀ name asset, assetOf n.st .empty name = some asset → asset.WellFormed := by
    intro name asset hasset
    rw [hn.answer] at hasset
    exact hn.blocks.wellFormed hasset
  have hrecords : RecordsConnected env n.st block.vtx s.assetsCache s.vUndoAssetData :=
    have hconnected : RecordsConnected (env.withTip ctx) n.st block.vtx s.assetsCache
        s.vUndoAssetData :=
      connectBlock_records hviews hn.bounded.range hwf hgenesis he.1 he.2.1 hs
    ⟨hconnected.answer, hconnected.waiting, hconnected.undo, hconnected.known, hconnected.records⟩
  obtain ⟨hcoinbase, hnamed, hhash⟩ := he
  obtain ⟨-, hanswer⟩ := hblock.assetOf_flush hviews hst
  have hbelow : (fun name => assetOf n.st .empty name) = assetOn env n.chainActive :=
    funext hn.answer
  refine ⟨(hn.bounded.connectTip ⟨hcoinbase, hnamed⟩ h).1, fun name => ?_, ?_, ?_⟩
  · rw [hanswer, hchain, assetOn, ← hn.answer]
    cases hcount : n.st.passets.newAssets.toRemove.count name with
    | true =>
      -- Where a removal is waiting, nothing was found.
      have hnone : assetOf n.st .empty name = none := by
        refine (assetOf_eq_none hviews hviews.localViews).2 ?_
        rintro ⟨-, hremove, -⟩
        rw [hcount] at hremove
        cases hremove
      rw [if_pos rfl, hnone]
      exact hrecords.waiting name hcount
    | false =>
      rw [if_neg Bool.false_ne_true]
      exact hrecords.answer name hcount
  · rw [hchain]
    refine ⟨⟨fun tx htx name hissues => ?_, fun tx htx name hreissue hnone => ?_, hrecords.records⟩,
      hhash, hn.blocks⟩
    · obtain ⟨record, hrecord, rfl⟩ := hissues
      rw [← hn.answer]
      exact (assetOf_eq_none hviews hviews.localViews).2
        (hblock.first tx htx _ (issuedNames_of_newRecords hrecord))
    · obtain ⟨hkind, rfl⟩ := hreissue
      rw [← hn.answer] at hnone
      exact hrecords.known tx htx hkind hnone
  · refine hn.undo.connectTip h hs fun block' chain hblock' => ?_
    rw [hhash, List.cons.injEq] at hblock'
    obtain ⟨rfl, rfl⟩ := hblock'
    rw [← hbelow]
    exact hrecords.undo

theorem RecordsTracked.disconnectTip {ctx : TipContext} (hn : RecordsTracked env nameOf chainOf n)
    (he : RecordStep env nameOf chainOf n (.disconnectTip ctx))
    (h : n.disconnectTip env ctx = some n') : RecordsTracked env nameOf chainOf n' := by
  obtain ⟨block, vtxundo, s, hchain, hcount, hs, hundo, hst⟩ := disconnectTip_undo h
  obtain ⟨hapart, hundoable, hdep⟩ := he block (by rw [hchain]; rfl)
  rw [hchain, List.tail_cons] at hundoable
  have hblocks := hn.blocks
  rw [hchain] at hblocks
  obtain ⟨hb, hhash, hrest⟩ := hblocks
  have hready := (hn.bounded.ready hapart hchain hcount).withTip ctx
  have hdisconnected := disconnectBlock_reissues hn.bounded.views hready hs
  have hdata := hn.undo.recorded block.hash hcount block n'.chainActive hhash
  have hrecords : ∀ name, assetOf n.st s.assetsCache name = assetOn env n'.chainActive name := by
    refine disconnectBlock_records hn.bounded.views hready ⟨hb.fresh, hb.known, hb.records⟩
      ⟨hundoable.reissuable, hundoable.covered⟩ hdata
      (fun name asset hasset => hrest.wellFormed hasset) hdep (fun name => ?_) hs
    rw [hn.answer, hchain]
    rfl
  refine ⟨hn.bounded.disconnectTip (fun block' hblock' => (he block' hblock').1) h, fun name => ?_,
    hrest, ?_⟩
  · rw [hst, hdisconnected.assetOf_flush hn.bounded.views, hrecords]
  · refine hn.undo.congr hundo ?_
    rw [hst]
    rfl

theorem RecordsTracked.step {e : NodeEvent} (hn : RecordsTracked env nameOf chainOf n)
    (he : RecordStep env nameOf chainOf n e) (h : (node env).step n e = some n') :
    RecordsTracked env nameOf chainOf n' := by
  cases e with
  | connectTip ctx block => exact hn.connectTip he h
  | disconnectTip ctx => exact hn.disconnectTip he h
  | dump =>
    cases h
    refine ⟨hn.bounded.dump, fun name => ?_, hn.blocks, hn.undo.congr rfl blockUndo_dump⟩
    rw [assetOf_dump hn.bounded.views]
    exact hn.answer name
  | read lookup =>
    cases h
    refine ⟨hn.bounded.read lookup, fun name => ?_, hn.blocks, hn.undo.congr rfl ?_⟩
    · rw [assetOf_read hn.bounded.views]
      exact hn.answer name
    · rw [(read_passets env n.st lookup).2.1]

end UnemployCoin
