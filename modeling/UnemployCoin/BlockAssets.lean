import UnemployCoin.OwnRecords
import UnemployCoin.UniqueIssuance
/-!
# The assets of a block

Which transactions of a block issue or reissue assets, and what was checked of them.
-/

namespace UnemployCoin

open Check CAssetsCache

variable {env : Env} {st : AssetState} {cache cache' : CAssetsCache} {tx : CTransaction}
  {name : Bytes}

/-! ## Asset transactions -/

theorem assetTxKind_of_no_assets
    (h : ∀ out ∈ tx.vout, out.scriptPubKey.isAssetScript = none) : tx.assetTxKind env = .other := by
  have hlast : ∀ nType fIsOwner, (tx.lastScript.assetDataIndex nType fIsOwner).isSome = false := by
    intro nType fIsOwner
    by_cases hnil : tx.lastScript = []
    · rw [hnil]
      rfl
    · obtain ⟨out, hout, hscript⟩ := exists_last hnil
      rw [← hscript, CScript.assetDataIndex, h out hout]
      rfl
  have hnew : tx.lastScript.isScriptNewAsset.isSome = false := hlast _ _
  have hreissue : tx.lastScript.isScriptReissueAsset.isSome = false := hlast _ _
  rw [CTransaction.assetTxKind, CTransaction.isNewAsset, CTransaction.isReissueAsset,
    CTransaction.isNewUniqueAsset, CTransaction.isNewMsgChannelAsset,
    CTransaction.isNewQualifierAsset, CTransaction.isNewRestrictedAsset, hnew, hreissue]
  simp

def CoinbaseWithoutAssets (env : Env) (block : CBlock) : Prop :=
  env.dep.areCoinbaseCheckAssetsDeployed = true ∨
    ∀ tx ∈ block.vtx, tx.isCoinBase = true → tx.assetTxKind env = .other

theorem assetTxKind_of_coinbaseCheck {fCheckDuplicateInputs fMempoolCheck fBlockCheck : Bool}
    (hdep : env.dep.areCoinbaseCheckAssetsDeployed = true) (hcoinbase : tx.isCoinBase = true)
    (h : checkTransaction env tx fCheckDuplicateInputs fMempoolCheck fBlockCheck = .ok ()) :
    tx.assetTxKind env = .other := by
  simp only [checkTransaction, require_bind] at h
  obtain ⟨-, -, -, h⟩ := h
  obtain ⟨s, -, h⟩ := bind_ok.1 h
  simp only [unit_bind] at h
  obtain ⟨-, -, hinputs, -⟩ := h
  simp only [checkInputsFormat, require_bind, onlyIf_bind, hcoinbase, require_ok, hdep,
    Bool.not_true, Bool.false_or, forall_const, List.all_eq_true] at hinputs
  obtain ⟨-, ⟨-, hnone⟩, -⟩ := hinputs
  refine assetTxKind_of_no_assets fun out hout => ?_
  have hclean := hnone out hout
  rw [Bool.not_eq_true', Bool.or_eq_false_iff, Option.isSome_eq_false_iff,
    Option.isNone_iff_eq_none] at hclean
  exact hclean.1

theorem connectTx_contextual {ctx : BlockContext} {blockHash : uint256} {s s' : ConnectState}
    (hbase : tx.isCoinBase = false) (hdep : env.dep.areAssetsDeployed = true)
    (h : connectTx env st ctx blockHash s tx = .ok s') :
    contextualCheckAssetTx env st s.assetsCache tx (ctx.mempool.names false) = .ok () := by
  have hfees := (connectTx_ok h).1
  rw [feesAfter, hbase, if_neg Bool.false_ne_true] at hfees
  obtain ⟨-, -, -, -, hactive, -⟩ := checkConnectTx_ok.1 hfees
  obtain ⟨v, hv⟩ := hactive hdep
  obtain ⟨-, -, -, -, -, hctx, -⟩ := checkTxAssets_ok.1 hv
  exact hctx

theorem connectTx_kind {ctx : BlockContext} {block : CBlock} {s s' : ConnectState}
    (hcoinbase : CoinbaseWithoutAssets env block)
    (hblock : checkBlock env ctx.rules block = .ok ()) (htx : tx ∈ block.vtx)
    (h : connectTx env st ctx block.hash s tx = .ok s') :
    tx.assetTxKind env = .other ∨ (env.dep.areAssetsDeployed = true ∧
      contextualCheckAssetTx env st s.assetsCache tx (ctx.mempool.names false) = .ok ()) := by
  obtain ⟨-, -, -, -, -, htxs⟩ := checkBlock_ok hblock
  cases hbase : tx.isCoinBase with
  | true =>
    left
    rcases hcoinbase with hdep | hnone
    · exact assetTxKind_of_coinbaseCheck hdep hbase (htxs tx htx)
    · exact hnone tx htx hbase
  | false =>
    cases hdep : env.dep.areAssetsDeployed with
    | false =>
      left
      have hfees := (connectTx_ok h).1
      rw [feesAfter, hbase, if_neg Bool.false_ne_true] at hfees
      obtain ⟨-, -, -, hinactive, -⟩ := checkConnectTx_ok.1 hfees
      have hnone := hinactive hdep
      rw [checkAssetsNotActive, forEach_ok] at hnone
      refine assetTxKind_of_no_assets fun out hout => ?_
      have hclean := hnone out hout
      rw [require_bind, Bool.not_eq_true', Option.isSome_eq_false_iff,
        Option.isNone_iff_eq_none] at hclean
      exact hclean.1
    | true =>
      right
      exact ⟨rfl, connectTx_contextual hbase hdep h⟩

theorem reissueAssetFromTransaction_of_kind (h : tx.assetTxKind env = .reissue) :
    tx.reissueAssetFromTransaction env = reissueAssetFromScript env tx.lastScript := by
  have hkind := assetTxKind_spec env tx
  rw [h] at hkind
  rw [CTransaction.reissueAssetFromTransaction, if_pos hkind]

theorem reissue_of_contextualCheck {mempoolNames : Option (StdMap Bytes uint256)}
    (hkind : tx.assetTxKind env = .reissue)
    (h : contextualCheckAssetTx env st cache tx mempoolNames = .ok ()) :
    ∃ reissue address data, tx.reissueAssetFromTransaction env = some (reissue, address) ∧
      contextualCheckReissueAsset env st cache reissue tx = .ok () ∧
      cache.getAssetMetaDataIfExists st reissue.strName = some data := by
  rw [contextualCheckAssetTx, hkind] at h
  simp only [contextualCheckReissueTx, demand_bind, withPrefix, mapError_ok] at h
  obtain ⟨⟨reissue, address⟩, hread, hcheck⟩ := h
  have hdata := hcheck
  rw [contextualCheckReissueAsset, demand_bind] at hdata
  obtain ⟨record, -, hdata⟩ := hdata
  rw [unit_bind, demand_bind] at hdata
  obtain ⟨-, data, hfound, -⟩ := hdata
  rw [← reissueAssetFromTransaction_of_kind hkind] at hread
  exact ⟨reissue, address, data, hread, hcheck, hfound⟩

theorem issuedNames_of_kind {fCheckDuplicateInputs fMempoolCheck fBlockCheck : Bool}
    (hkind : tx.assetTxKind env = .other)
    (h : checkTransaction env tx fCheckDuplicateInputs fMempoolCheck fBlockCheck = .ok ()) :
    name ∉ issuedNames env tx := by
  obtain ⟨record, hrecord⟩ := checkAssetTx_of_checkTransaction h
  rw [checkAssetTx, hkind] at hrecord
  simp only [unit_map_ok] at hrecord
  exact issuedNames_of_other hrecord.1

theorem connectBlock_localIssues {view : CCoinsView} {ctx : BlockContext} {block : CBlock}
    {s : ConnectState} (hgenesis : block.hash ≠ env.params.hashGenesisBlock)
    (hcoinbase : CoinbaseWithoutAssets env block)
    (h : connectBlock env st ctx block view .empty = .ok s) :
    LocalIssues env block.vtx s.assetsCache.newAssets := by
  obtain ⟨hblock, hfold, -⟩ := connectBlock_ok hgenesis h
  obtain ⟨-, -, -, -, -, htxs⟩ := checkBlock_ok hblock
  refine foldlM_prefix_invariant (I := fun txs (s : ConnectState) =>
    LocalIssues env txs s.assetsCache.newAssets) ?_ LocalIssues.empty hfold
  rintro pre tx post s s' hvtx hlocal hround
  have htx : tx ∈ block.vtx := by rw [hvtx]; simp
  rw [(connectTx_ok hround).2.2.1]
  refine hlocal.updateAssets (htxs tx htx) fun name hname => ?_
  rcases connectTx_kind hcoinbase hblock htx hround with hother | ⟨hdep, hcheck⟩
  · exact absurd hname (issuedNames_of_kind hother (htxs tx htx))
  · obtain ⟨record, hrecord, rfl⟩ := (mem_issuedNames (htxs tx htx)).1 hname
    exact ⟨hdep, not_exists_of_newRecords hcheck hrecord⟩

/-! ## Undo data -/

/-- The undo data that a node keeps for a block meets a condition on the hash of the block and the
data.  For a block that it has no undo file of there is none, or what is left of a connection that
was forgotten. -/
structure UndoTracked (P : uint256 → List (Bytes × CBlockAssetUndo) → Prop) (n : Node) : Prop where
  recorded : ∀ hash, n.undo.count hash = true → P hash (n.undoAssetData hash)
  forgotten : ∀ hash, n.undo.count hash = false →
    n.undoAssetData hash = [] ∨ P hash (n.undoAssetData hash)

section Undo

variable {P : uint256 → List (Bytes × CBlockAssetUndo) → Prop} {n n' : Node} {ctx : TipContext}
  {block : CBlock}

theorem UndoTracked.genesis : UndoTracked P .genesis :=
  ⟨fun _ h => (nomatch h), fun _ _ => Or.inl rfl⟩

theorem undoAssetData_connectTip {s : ConnectState} (h : n.connectTip env ctx block = some n')
    (hs : connectBlock (env.withTip ctx) n.st ⟨ctx.rules, n.height + 1, ctx.mempool⟩ block n.view
      .empty = .ok s) :
    (n'.undo = n.undo ∧ n.undo.count block.hash = true ∧
        ∀ hash, n'.undoAssetData hash = n.undoAssetData hash) ∨
      (n.undo.count block.hash = false ∧ (∀ hash, n'.undo.count hash =
          (decide (hash = block.hash) || n.undo.count hash)) ∧
        ∀ hash, n'.undoAssetData hash =
          if hash = block.hash ∧ s.vUndoAssetData ≠ [] then s.vUndoAssetData
          else n.undoAssetData hash) := by
  rw [Node.connectTip] at h
  split at h
  · cases h
  · rw [hs] at h
    cases h
    simp only [Node.writeUndo, Node.undoAssetData]
    cases hcount : n.undo.count block.hash with
    | true =>
      rw [if_pos rfl]
      exact Or.inl ⟨rfl, rfl, fun _ => rfl⟩
    | false =>
      rw [if_neg Bool.false_ne_true]
      refine Or.inr ⟨rfl, fun hash => StdMap.count_assign _ _ _ _, fun hash => ?_⟩
      cases hdata : s.vUndoAssetData with
      | nil =>
        simp only [List.isEmpty_nil, if_true, ne_eq, not_true_eq_false, and_false, if_false]
        rfl
      | cons e l =>
        simp only [List.isEmpty_cons, Bool.false_eq_true, if_false, ne_eq, reduceCtorEq,
          not_false_eq_true, and_true]
        have hflush : ∀ st : AssetState, (st.flush s.assetsCache).passetsdb = st.passetsdb :=
          fun _ => rfl
        rw [hflush, StdMap.find?_assign]
        split
        · rfl
        · rfl

theorem UndoTracked.connectTip {s : ConnectState} (hn : UndoTracked P n)
    (h : n.connectTip env ctx block = some n')
    (hs : connectBlock (env.withTip ctx) n.st ⟨ctx.rules, n.height + 1, ctx.mempool⟩ block n.view
      .empty = .ok s)
    (hP : P block.hash s.vUndoAssetData) : UndoTracked P n' := by
  rcases undoAssetData_connectTip h hs with ⟨hundo, -, hdata⟩ | ⟨hnew, hcount, hdata⟩
  · constructor
    · intro hash hhash
      rw [hundo] at hhash
      rw [hdata]
      exact hn.recorded hash hhash
    · intro hash hhash
      rw [hundo] at hhash
      rw [hdata]
      exact hn.forgotten hash hhash
  · constructor
    · intro hash hhash
      rw [hdata]
      by_cases heq : hash = block.hash
      · subst heq
        split
        · exact hP
        · rename_i hnot
          have hnil : s.vUndoAssetData = [] := by
            by_contra hne
            exact hnot ⟨rfl, hne⟩
          rcases hn.forgotten _ hnew with hold | hold
          · rw [hold, ← hnil]
            exact hP
          · exact hold
      · rw [if_neg fun hand => heq hand.1]
        rw [hcount, decide_eq_false heq, Bool.false_or] at hhash
        exact hn.recorded hash hhash
    · intro hash hhash
      rw [hcount, Bool.or_eq_false_iff, decide_eq_false_iff_not] at hhash
      rw [hdata, if_neg fun hand => hhash.1 hand.1]
      exact hn.forgotten hash hhash.2

theorem disconnectTip_undo (h : n.disconnectTip env ctx = some n') :
    ∃ block vtxundo s, n.chainActive = block :: n'.chainActive ∧
      n.undo.count block.hash = true ∧
      disconnectBlock (env.withTip ctx) n.st n.height block vtxundo
        (n.undoAssetData block.hash) n.view .empty = .ok s ∧
      n'.undo = n.undo ∧ n'.st = n.st.flush s.assetsCache := by
  rw [Node.disconnectTip] at h
  split at h
  · cases h
  · rename_i block chain hchain
    split at h
    · cases h
    · rename_i vtxundo hundo
      split at h
      · cases h
      · rename_i s hs
        split at h
        · cases h
          exact ⟨block, vtxundo, s, hchain, StdMap.count_of_find? hundo, hs, rfl, rfl⟩
        · cases h

theorem UndoTracked.lose (hn : UndoTracked P n)
    (hundo : ∀ hash, n'.undo.count hash = true → n.undo.count hash = true)
    (hdb : n'.st.passetsdb.blockUndo = n.st.passetsdb.blockUndo) : UndoTracked P n' := by
  have hdata : ∀ hash, n'.undoAssetData hash = n.undoAssetData hash := by
    intro hash
    rw [Node.undoAssetData, hdb, Node.undoAssetData]
  refine ⟨fun hash hhash => ?_, fun hash hhash => ?_⟩
  · rw [hdata]
    exact hn.recorded hash (hundo hash hhash)
  · rw [hdata]
    cases hcount : n.undo.count hash with
    | true => exact Or.inr (hn.recorded hash hcount)
    | false => exact hn.forgotten hash hcount

theorem UndoTracked.congr (hn : UndoTracked P n) (hundo : n'.undo = n.undo)
    (hdb : n'.st.passetsdb.blockUndo = n.st.passetsdb.blockUndo) : UndoTracked P n' := by
  refine hn.lose (fun hash hhash => ?_) hdb
  rw [← hundo]
  exact hhash

theorem blockUndo_dump : (st.dumpCacheToDatabase env).passetsdb.blockUndo =
    st.passetsdb.blockUndo := by
  rw [dump_passetsdb]
  exact (dumpReissues_keeps (g := fun st => st.passetsdb.blockUndo) fun _ _ _ _ _ => rfl).trans
    (dumpIssues_keeps (g := fun st => st.passetsdb.blockUndo) (fun _ _ => rfl) fun _ _ => rfl)

end Undo

end UnemployCoin
