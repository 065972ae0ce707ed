import UnemployCoin.Dump
import UnemployCoin.IssuedRecords
/-!
# Names are issued once

Along the active chain no two transactions issue the same asset name.
-/

namespace UnemployCoin

open Check CAssetsCache StdMap

variable {env : Env} {st : AssetState} {cache cache' : CAssetsCache} {tx : CTransaction}
  {name : Bytes}

def chainTxs (chain : List CBlock) : List CTransaction := chain.flatMap CBlock.vtx

def IssueApart (env : Env) (tx tx' : CTransaction) : Prop :=
  ∀ name ∈ issuedNames env tx, name ∉ issuedNames env tx'

/-- The globals know the name as issued, in the caches or in the database. -/
def Recorded (st : AssetState) (name : Bytes) : Prop :=
  st.passets.newAssets.toRemove.count name = false ∧
    (st.passets.newAssets.toAdd.count name = true ∨ st.passetsdb.assetData.count name = true)

theorem checkIfAssetExists_of_recorded (hst : Recorded st name)
    (hlocal : cache.newAssets.toRemove.count name = false) :
    cache.checkIfAssetExists env st name = true := by
  obtain ⟨hremove, hadd⟩ := hst
  rw [checkIfAssetExists, hlocal, hremove]
  rcases hadd with hadd | hadd <;> simp [hadd]

theorem checkIfAssetExists_of_local (hst : st.passets.newAssets.toRemove.count name = false)
    (hremove : cache.newAssets.toRemove.count name = false)
    (hadd : cache.newAssets.toAdd.count name = true) :
    cache.checkIfAssetExists env st name = true := by
  rw [checkIfAssetExists, hst, hremove, hadd]
  simp

/-! ## The local cache while a block is connected -/

/-- What the transactions connected so far have staged in the local cache. -/
structure LocalIssues (env : Env) (txs : List CTransaction)
    (newAssets : Staged Bytes CAssetCacheNewAsset) : Prop where
  ownNames : OwnNames newAssets.toAdd
  noRemoval : ∀ name, newAssets.toRemove.count name = false
  added : ∀ tx ∈ txs, ∀ name ∈ issuedNames env tx, newAssets.toAdd.count name = true

theorem LocalIssues.empty : LocalIssues env [] CAssetsCache.empty.newAssets := by
  refine ⟨fun k item hitem => ?_, fun _ => rfl, fun _ hmem => nomatch hmem⟩
  rw [CAssetsCache.empty, Staged.toAdd_empty, find?_empty] at hitem
  cases hitem

section AddRecord

variable {nHeight : ℤ} {blockHash : uint256} {record : WithAddress CNewAsset}

theorem tryAddNewAsset_of_exists (h : cache.checkIfAssetExists env st record.1.strName = true) :
    tryAddNewAsset env st nHeight blockHash cache record = cache := by
  rw [tryAddNewAsset, addNewAsset, if_pos h, Option.getD_none]

theorem tryAddNewAsset_of_not_exists
    (h : cache.checkIfAssetExists env st record.1.strName = false) :
    tryAddNewAsset env st nHeight blockHash cache record =
      { cache with
        newAssets := cache.newAssets.add false record.1.strName
          ⟨record.1, record.2, nHeight, blockHash⟩ } := by
  rw [tryAddNewAsset, addNewAsset, h, if_neg Bool.false_ne_true, Option.getD_some]

theorem OwnNames.add {s : Staged Bytes CAssetCacheNewAsset} {k : Bytes}
    {item : CAssetCacheNewAsset} (h : OwnNames s.toAdd) (hitem : item.asset.strName = k) :
    OwnNames (s.add false k item).toAdd := by
  intro k' found hfound
  rw [Staged.find?_add_toAdd] at hfound
  split at hfound
  · rename_i hk
    subst hk
    cases hold : s.toAdd.find? k' with
    | none =>
      rw [hold, putValue_none] at hfound
      cases hfound
      exact hitem
    | some old =>
      rw [hold, putValue_false_some] at hfound
      cases hfound
      exact h k' _ hold
  · exact h k' found hfound

theorem LocalIssues.tryAddNewAsset {txs : List CTransaction}
    (h : LocalIssues env txs cache.newAssets) :
    LocalIssues env txs (tryAddNewAsset env st nHeight blockHash cache record).newAssets := by
  cases hexists : cache.checkIfAssetExists env st record.1.strName with
  | true =>
    rw [tryAddNewAsset_of_exists hexists]
    exact h
  | false =>
    rw [tryAddNewAsset_of_not_exists hexists]
    refine ⟨h.ownNames.add rfl, fun name => ?_, fun tx htx name hname => ?_⟩
    · simp [h.noRemoval name]
    · simp [h.added tx htx name hname]

theorem checkIfAssetExists_tryAddNewAsset (h : name ≠ record.1.strName) :
    (UnemployCoin.tryAddNewAsset env st nHeight blockHash cache record).checkIfAssetExists env st
      name = cache.checkIfAssetExists env st name := by
  cases hexists : cache.checkIfAssetExists env st record.1.strName with
  | true => rw [tryAddNewAsset_of_exists hexists]
  | false =>
    rw [tryAddNewAsset_of_not_exists hexists]
    exact checkIfAssetExists_congr (by simp [h]) (by simp [h])

theorem foldl_tryAddNewAsset_count {l : List (WithAddress CNewAsset)}
    (h : ∀ record ∈ l, cache.newAssets.toAdd.count record.1.strName = true ∨
      cache.checkIfAssetExists env st record.1.strName = false) :
    ∀ record ∈ l, (l.foldl (UnemployCoin.tryAddNewAsset env st nHeight blockHash)
      cache).newAssets.toAdd.count record.1.strName = true := by
  have hkeep : ∀ (l : List (WithAddress CNewAsset)) (cache : CAssetsCache) (k : Bytes),
      cache.newAssets.toAdd.count k = true →
        (l.foldl (UnemployCoin.tryAddNewAsset env st nHeight blockHash)
          cache).newAssets.toAdd.count k = true := by
    intro l
    induction l with
    | nil => exact fun _ _ hk => hk
    | cons record l ih =>
      intro cache k hk
      refine ih _ k ?_
      cases hexists : cache.checkIfAssetExists env st record.1.strName with
      | true => rwa [tryAddNewAsset_of_exists hexists]
      | false => simp [tryAddNewAsset_of_not_exists hexists, hk]
  induction l generalizing cache with
  | nil => exact fun _ hmem => absurd hmem List.not_mem_nil
  | cons record l ih =>
    rw [List.forall_mem_cons] at h ⊢
    have hfirst : (UnemployCoin.tryAddNewAsset env st nHeight blockHash cache
        record).newAssets.toAdd.count record.1.strName = true := by
      rcases h.1 with hadd | hexists
      · exact hkeep [record] cache _ hadd
      · simp [tryAddNewAsset_of_not_exists hexists]
    refine ⟨hkeep l _ _ hfirst, ih fun record' hmem => ?_⟩
    by_cases hname : record'.1.strName = record.1.strName
    · rw [hname]
      exact Or.inl hfirst
    · rw [checkIfAssetExists_tryAddNewAsset hname]
      exact (h.2 record' hmem).imp_left (hkeep [record] cache _)

end AddRecord

theorem LocalIssues.updateAssets {txs : List CTransaction} {nHeight : ℤ} {blockHash : uint256}
    (h : LocalIssues env txs cache.newAssets)
    (htx : checkTransaction env tx true false true = .ok ())
    (hnew : ∀ name ∈ issuedNames env tx, env.dep.areAssetsDeployed = true ∧
      cache.checkIfAssetExists env st name = false) :
    LocalIssues env (txs ++ [tx]) (updateAssets env st nHeight blockHash tx cache).1.newAssets := by
  have hfold : ∀ (l : List (WithAddress CNewAsset)) (cache : CAssetsCache),
      LocalIssues env txs cache.newAssets →
        LocalIssues env txs (l.foldl (UnemployCoin.tryAddNewAsset env st nHeight blockHash)
          cache).newAssets := by
    intro l
    induction l with
    | nil => exact fun _ hcache => hcache
    | cons record l ih => exact fun _ hcache => ih _ hcache.tryAddNewAsset
  rw [updateAssets_newAssets htx]
  cases hdep : env.dep.areAssetsDeployed with
  | false =>
    rw [if_neg Bool.false_ne_true]
    refine ⟨h.ownNames, h.noRemoval, fun tx' htx' name hname => ?_⟩
    rcases List.mem_append.1 htx' with hmem | hmem
    · exact h.added tx' hmem name hname
    · obtain rfl := List.mem_singleton.1 hmem
      have hactive := (hnew name hname).1
      rw [hdep] at hactive
      cases hactive
  | true =>
    rw [if_pos rfl]
    have hall := hfold (newRecords env tx) cache h
    refine ⟨hall.ownNames, hall.noRemoval, fun tx' htx' name hname => ?_⟩
    rcases List.mem_append.1 htx' with hmem | hmem
    · exact hall.added tx' hmem name hname
    · obtain rfl := List.mem_singleton.1 hmem
      obtain ⟨record, hrecord, rfl⟩ := (mem_issuedNames htx).1 hname
      refine foldl_tryAddNewAsset_count (fun record' hrecord' => Or.inr ?_) record hrecord
      exact (hnew _ ((mem_issuedNames htx).2 ⟨record', hrecord', rfl⟩)).2

theorem not_exists_of_connectTx {ctx : BlockContext} {blockHash : uint256} {s s' : ConnectState}
    (hnotcoinbase : tx.isCoinBase = false)
    (htx : checkTransaction env tx true false true = .ok ())
    (h : connectTx env st ctx blockHash s tx = .ok s') :
    ∀ name ∈ issuedNames env tx, env.dep.areAssetsDeployed = true ∧
      s.assetsCache.checkIfAssetExists env st name = false := by
  have hfees := (connectTx_ok h).1
  rw [feesAfter, hnotcoinbase, if_neg Bool.false_ne_true] at hfees
  obtain ⟨-, -, -, hinactive, hactive, -⟩ := checkConnectTx_ok.1 hfees
  intro name hname
  cases hdep : env.dep.areAssetsDeployed with
  | false => exact absurd hname (issuedNames_of_not_active (hinactive hdep))
  | true =>
    obtain ⟨v, hv⟩ := hactive hdep
    obtain ⟨-, -, -, -, -, hctx, -⟩ := checkTxAssets_ok.1 hv
    obtain ⟨record, hrecord, rfl⟩ := (mem_issuedNames htx).1 hname
    exact ⟨rfl, not_exists_of_newRecords hctx hrecord⟩

/-- A block whose coinbase issues nothing, and that does not issue a name twice that `passets` is
about to remove. -/
def NoStaleRemoval (env : Env) (st : AssetState) (block : CBlock) : Prop :=
  (∀ tx ∈ block.vtx, tx.isCoinBase = true → issuedNames env tx = []) ∧
    ∀ name, st.passets.newAssets.toRemove.count name = true →
      (block.vtx.filter fun tx => decide (name ∈ issuedNames env tx)).length ≤ 1

/-- What holds of the transactions of a block connected so far. -/
structure IssuesFresh (env : Env) (st : AssetState) (txs : List CTransaction) : Prop where
  apart : txs.Pairwise (IssueApart env)
  notRecorded : ∀ tx ∈ txs, ∀ name ∈ issuedNames env tx, ¬ Recorded st name

/-- **Connecting a block.**  Its transactions issue distinct names, none of which was recorded,
and leave them in the local cache. -/
theorem connectBlock_issues {view : CCoinsView} {ctx : BlockContext} {block : CBlock}
    {s : ConnectState} (hgenesis : block.hash ≠ env.params.hashGenesisBlock)
    (hstale : NoStaleRemoval env st block)
    (h : connectBlock env st ctx block view .empty = .ok s) :
    LocalIssues env block.vtx s.assetsCache.newAssets ∧ IssuesFresh env st block.vtx := by
  obtain ⟨hblock, hfold, -⟩ := connectBlock_ok hgenesis h
  obtain ⟨-, -, -, -, -, htxs⟩ := checkBlock_ok hblock
  refine foldlM_prefix_invariant (I := fun txs (s : ConnectState) =>
    LocalIssues env txs s.assetsCache.newAssets ∧ IssuesFresh env st txs) ?_ ?_ hfold
  · rintro pre tx post s s' hvtx ⟨hlocal, hfresh⟩ hround
    have htx : tx ∈ block.vtx := by rw [hvtx]; simp
    have hcheck := htxs tx htx
    have hcache := (connectTx_ok hround).2.2.1
    have hnew : ∀ name ∈ issuedNames env tx, env.dep.areAssetsDeployed = true ∧
        s.assetsCache.checkIfAssetExists env st name = false := by
      cases hcoinbase : tx.isCoinBase with
      | true =>
        rw [hstale.1 tx htx hcoinbase]
        exact fun _ hmem => absurd hmem List.not_mem_nil
      | false => exact not_exists_of_connectTx hcoinbase hcheck hround
    refine ⟨by rw [hcache]; exact hlocal.updateAssets hcheck hnew, ?_, ?_⟩
    · rw [List.pairwise_append]
      refine ⟨hfresh.apart, List.pairwise_singleton _ _, fun tx' htx' tx'' htx'' => ?_⟩
      obtain rfl := List.mem_singleton.1 htx''
      intro name hname' hname
      -- Both issue the name, so `passets` is not about to remove it.
      have hremove : st.passets.newAssets.toRemove.count name = false := by
        by_contra hcount
        have hone := hstale.2 name (by simpa using hcount)
        have htwo : [tx', tx''].Sublist
            (block.vtx.filter fun tx => decide (name ∈ issuedNames env tx)) := by
          have hsub : [tx', tx''].Sublist block.vtx := by
            rw [hvtx]
            exact (List.singleton_sublist.2 htx').append (List.singleton_sublist.2 (by simp))
          have := hsub.filter fun tx => decide (name ∈ issuedNames env tx)
          simpa [hname, hname'] using this
        have := htwo.length_le
        simp only [List.length_cons, List.length_nil] at this
        omega
      have hexists : s.assetsCache.checkIfAssetExists env st name = true :=
        checkIfAssetExists_of_local hremove (hlocal.noRemoval name)
          (hlocal.added tx' htx' name hname')
      rw [(hnew name hname).2] at hexists
      cases hexists
    · intro tx' htx' name hname hrecorded
      rcases List.mem_append.1 htx' with hmem | hmem
      · exact hfresh.notRecorded tx' hmem name hname hrecorded
      · obtain rfl := List.mem_singleton.1 hmem
        have hexists : s.assetsCache.checkIfAssetExists env st name = true :=
          checkIfAssetExists_of_recorded hrecorded (hlocal.noRemoval name)
        rw [(hnew name hname).2] at hexists
        cases hexists
  · exact ⟨LocalIssues.empty, List.Pairwise.nil,
      fun _ hmem => absurd hmem List.not_mem_nil⟩

/-! ## The local cache while a block is disconnected -/

/-- What has been staged in the local cache while transactions issuing some names are undone. -/
structure LocalRemovals (names : Set Bytes) (newAssets : Staged Bytes CAssetCacheNewAsset) :
    Prop where
  noAddition : ∀ name, newAssets.toAdd.count name = false
  removed : ∀ name, newAssets.toRemove.count name = true → name ∈ names

theorem undoNewAsset_newAssets {record : WithAddress CNewAsset}
    (h : undoNewAsset env st cache record = .ok cache') :
    cache'.newAssets = cache.newAssets ∨
      cache'.newAssets =
        cache.newAssets.remove false record.1.strName ⟨record.1, record.2, 0, 0⟩ := by
  rw [undoNewAsset] at h
  split at h
  · rename_i hexists
    rw [removeNewAsset, if_pos hexists, demand_ok] at h
    cases h
    exact Or.inr rfl
  · cases h
    exact Or.inl rfl

theorem LocalRemovals.undoNewAsset {names : Set Bytes} {record : WithAddress CNewAsset}
    (hcache : LocalRemovals names cache.newAssets) (hrecord : record.1.strName ∈ names)
    (h : UnemployCoin.undoNewAsset env st cache record = .ok cache') :
    LocalRemovals names cache'.newAssets := by
  rcases undoNewAsset_newAssets h with hsame | hremove
  · rw [hsame]
    exact hcache
  · rw [hremove]
    refine ⟨fun name => ?_, fun name hname => ?_⟩
    · rw [Staged.count_remove_toAdd, hcache.noAddition, Bool.and_false]
    · rw [Staged.count_remove_toRemove, Bool.or_eq_true, decide_eq_true_eq] at hname
      rcases hname with rfl | hname
      · exact hrecord
      · exact hcache.removed name hname

def blockNames (env : Env) (block : CBlock) : Set Bytes :=
  {name | ∃ tx ∈ block.vtx, name ∈ issuedNames env tx}

theorem LocalRemovals.downdateAssets {block : CBlock} {tx : CTransaction}
    {vUndoData : List (Bytes × CBlockAssetUndo)}
    (hcache : LocalRemovals (blockNames env block) cache.newAssets) (htx : tx ∈ block.vtx)
    (h : downdateAssets env st vUndoData tx cache = .ok cache') :
    LocalRemovals (blockNames env block) cache'.newAssets := by
  rcases downdateAssets_newAssets h with hsame | ⟨c, hc, hsame⟩
  · rw [hsame]
    exact hcache
  · rw [hsame]
    refine foldlM_invariant (I := fun cache : CAssetsCache =>
      LocalRemovals (blockNames env block) cache.newAssets) ?_ hcache hc
    intro cache record cache' hrecord hI hundo
    exact hI.undoNewAsset ⟨tx, htx, issuedNames_of_newRecords hrecord⟩ hundo

/-- **Disconnecting a block.**  Only names that it issues are removed. -/
theorem disconnectBlock_removals {nHeight : ℕ} {block : CBlock} {vtxundo : List CTxUndo}
    {vUndoData : List (Bytes × CBlockAssetUndo)} {view : CCoinsView} {s : DisconnectState}
    (h : disconnectBlock env st nHeight block vtxundo vUndoData view .empty = .ok s) :
    LocalRemovals (blockNames env block) s.assetsCache.newAssets := by
  refine disconnectBlock_invariant (I := fun cache =>
    LocalRemovals (blockNames env block) cache.newAssets) ?_ ?_ h
  · exact fun tx cache cache' htx hcache hround => hcache.downdateAssets htx hround
  · exact ⟨fun _ => rfl, fun _ hname => nomatch hname⟩

/-! ## The node -/

structure IssuesKept (env : Env) (n : Node) : Prop where
  ownNames : OwnNames n.st.passets.newAssets.toAdd
  recorded : ∀ tx ∈ chainTxs n.chainActive, ∀ name ∈ issuedNames env tx, Recorded n.st name
  apart : (chainTxs n.chainActive).Pairwise (IssueApart env)

/-- The condition on a step: a connected block meets `NoStaleRemoval`. -/
def StepWithoutStaleRemoval (env : Env) (n : Node) : NodeEvent → Prop
  | .connectTip _ block => NoStaleRemoval env n.st block
  | _ => True

theorem IssuesKept.genesis (env : Env) : IssuesKept env .genesis := by
  refine ⟨fun k item hitem => ?_, fun _ hmem => (nomatch hmem), List.Pairwise.nil⟩
  have hnone : Node.genesis.st.passets.newAssets.toAdd.find? k = none := rfl
  rw [hnone] at hitem
  cases hitem

variable {n n' : Node}

theorem recorded_flush
    (h : cache.newAssets.toAdd.count name = true ∧ cache.newAssets.toRemove.count name = false ∨
      Recorded st name ∧ cache.newAssets.toRemove.count name = false) :
    Recorded (st.flush cache) name := by
  have hremove : (st.flush cache).passets.newAssets.toRemove.count name =
      (cache.newAssets.toRemove.count name ||
        !cache.newAssets.toAdd.count name && st.passets.newAssets.toRemove.count name) :=
    Staged.count_flush_toRemove
  have hadd : (st.flush cache).passets.newAssets.toAdd.count name =
      (!cache.newAssets.toRemove.count name &&
        (cache.newAssets.toAdd.count name || st.passets.newAssets.toAdd.count name)) :=
    Staged.count_flush_toAdd
  rw [Recorded, hremove, hadd]
  rcases h with ⟨hlocal, hnot⟩ | ⟨⟨hst, hknown⟩, hnot⟩
  · simp [hlocal, hnot]
  · refine ⟨by simp [hnot, hst], ?_⟩
    rcases hknown with hknown | hstored
    · exact Or.inl (by simp [hnot, hknown])
    · exact Or.inr hstored

theorem ownNames_flush (hst : OwnNames st.passets.newAssets.toAdd)
    (hcache : OwnNames cache.newAssets.toAdd) :
    OwnNames (st.flush cache).passets.newAssets.toAdd := by
  intro k item hitem
  rcases Staged.of_find?_flush_toAdd hitem with htop | hbottom
  · exact hcache k item htop
  · exact hst k item hbottom

theorem IssuesKept.connectTip {ctx : TipContext} {block : CBlock} (hn : IssuesKept env n)
    (hstale : NoStaleRemoval env n.st block) (h : n.connectTip env ctx block = some n') :
    IssuesKept env n' := by
  obtain ⟨s, hs, hgenesis, -, hchain, blockUndo, hst⟩ := connectTip_eq_some h
  have hstale' : NoStaleRemoval (env.withTip ctx) n.st block := hstale
  have hgenesis' : block.hash ≠ (env.withTip ctx).params.hashGenesisBlock := hgenesis
  obtain ⟨hlocal, hfresh⟩ := connectBlock_issues hgenesis' hstale' hs
  have htxs : chainTxs n'.chainActive = block.vtx ++ chainTxs n.chainActive := by
    rw [hchain, chainTxs, List.flatMap_cons, chainTxs]
  have hrecorded : ∀ name, Recorded (n.st.flush s.assetsCache) name → Recorded n'.st name := by
    intro name hname
    rw [hst]
    exact hname
  refine ⟨?_, ?_, ?_⟩
  · rw [hst]
    exact ownNames_flush hn.ownNames hlocal.ownNames
  · rw [htxs]
    intro tx htx name hname
    refine hrecorded name (recorded_flush ?_)
    rcases List.mem_append.1 htx with hmem | hmem
    · exact Or.inl ⟨hlocal.added tx hmem name hname, hlocal.noRemoval name⟩
    · exact Or.inr ⟨hn.recorded tx hmem name hname, hlocal.noRemoval name⟩
  · rw [htxs, List.pairwise_append]
    refine ⟨hfresh.apart, hn.apart, fun tx htx tx' htx' name hname hname' => ?_⟩
    exact hfresh.notRecorded tx htx name hname (hn.recorded tx' htx' name hname')

theorem IssuesKept.disconnectTip {ctx : TipContext} (hn : IssuesKept env n)
    (h : n.disconnectTip env ctx = some n') : IssuesKept env n' := by
  obtain ⟨block, vtxundo, s, hchain, hs, -, -, hst⟩ := disconnectTip_eq_some h
  have hlocal := disconnectBlock_removals hs
  have htxs : chainTxs n.chainActive = block.vtx ++ chainTxs n'.chainActive := by
    rw [hchain, chainTxs, List.flatMap_cons, chainTxs]
  have hapart := hn.apart
  rw [htxs, List.pairwise_append] at hapart
  obtain ⟨-, hrest, hacross⟩ := hapart
  refine ⟨?_, fun tx htx name hname => ?_, hrest⟩
  · rw [hst]
    refine ownNames_flush hn.ownNames fun k item hitem => ?_
    have hnone := count_eq_false.1 (hlocal.noAddition k)
    rw [hnone] at hitem
    cases hitem
  · rw [hst]
    have hknown := hn.recorded tx (by rw [htxs]; exact List.mem_append_right _ htx) name hname
    refine recorded_flush (Or.inr ⟨hknown, ?_⟩)
    by_contra hcount
    rw [Bool.not_eq_false] at hcount
    obtain ⟨tx', htx', hname'⟩ := hlocal.removed name hcount
    exact hacross tx' htx' tx htx name hname' hname

theorem IssuesKept.dump (hn : IssuesKept env n) :
    IssuesKept env { n with st := n.st.dumpCacheToDatabase env } := by
  refine ⟨fun k item hitem => ?_, fun tx htx name hname => ?_, hn.apart⟩
  · have hnone : (n.st.dumpCacheToDatabase env).passets.newAssets.toAdd.find? k = none := rfl
    rw [hnone] at hitem
    cases hitem
  · obtain ⟨hremove, hknown⟩ := hn.recorded tx htx name hname
    exact ⟨rfl, Or.inr (count_dump hn.ownNames hremove hknown)⟩

theorem IssuesKept.read (hn : IssuesKept env n) (lookup : CacheRead) :
    IssuesKept env { n with st := n.st.read env lookup } := by
  obtain ⟨hpassets, hdb, -⟩ := read_passets env n.st lookup
  refine ⟨?_, fun tx htx name hname => ?_, hn.apart⟩
  · simp only [hpassets]
    exact hn.ownNames
  · have hknown := hn.recorded tx htx name hname
    rw [Recorded] at hknown ⊢
    simp only [hpassets, hdb]
    exact hknown

theorem IssuesKept.step {e : NodeEvent} (hn : IssuesKept env n)
    (he : StepWithoutStaleRemoval env n e) (h : (node env).step n e = some n') :
    IssuesKept env n' := by
  cases e with
  | connectTip ctx block => exact hn.connectTip he h
  | disconnectTip ctx => exact hn.disconnectTip h
  | dump =>
    cases h
    exact hn.dump
  | read lookup =>
    cases h
    exact hn.read lookup

/-- **No name is issued twice.**  After any run in which no connected block issues twice a name
that `passets` is about to remove, no two transactions of the active chain issue one name. -/
theorem chain_issues_apart {events : List NodeEvent}
    (halong : (node env).Along (StepWithoutStaleRemoval env) .genesis events)
    (h : (node env).exec .genesis events = some n) :
    (chainTxs n.chainActive).Pairwise (IssueApart env) :=
  (Machine.exec_invariant (fun _ _ _ hn he hstep => hn.step he hstep) (IssuesKept.genesis env)
    halong h).apart

/-! ### A name issued twice -/

/-- A block that issues `NAME` once. -/
def issueBlock : CBlock := ⟨1001, [coinbaseTx 1001 (5000 * COIN), issueTx 2001 ⟨0, 0⟩]⟩

/-- A block that issues `NAME` twice. -/
def doubleIssueBlock : CBlock :=
  ⟨1002, [coinbaseTx 1002 (5000 * COIN), issueTx 2002 ⟨0, 0⟩, issueTx 2003 ⟨1, 0⟩]⟩

def staleRemovalRun : List NodeEvent :=
  connects (coinbaseChain 101) ++ [.connectTip activeContext issueBlock,
    .disconnectTip activeContext, .connectTip activeContext doubleIssueBlock]

/-- Until the removal of `NAME` is written, a block that issues it twice is accepted. -/
theorem staleRemovalRun_issues_twice :
    ∃ n, (node payableEnv).exec .genesis staleRemovalRun = some n ∧
      ¬ (chainTxs n.chainActive).Pairwise (IssueApart payableEnv) := by
  have hrun : ((node payableEnv).exec .genesis staleRemovalRun).map
      (fun n => n.chainActive.take 1) = some [doubleIssueBlock] := by
    rw [staleRemovalRun, exec_coinbaseChain ⟨rfl, rfl⟩ (by decide)]
    decide +kernel
  obtain ⟨n, hexec, hchain⟩ := Option.map_eq_some_iff.1 hrun
  refine ⟨n, hexec, fun hapart => ?_⟩
  have hsub : [issueTx 2002 ⟨0, 0⟩, issueTx 2003 ⟨1, 0⟩].Sublist (chainTxs n.chainActive) := by
    rw [← List.take_append_drop 1 n.chainActive, hchain, chainTxs, List.flatMap_append]
    exact ((List.sublist_cons_self _ _).trans (List.sublist_append_left _ _))
  have htwo := hapart.sublist hsub
  rw [List.pairwise_cons] at htwo
  have hmem : ∀ hash prevout, ascii "NAME" ∈ issuedNames payableEnv (issueTx hash prevout) := by
    intro hash prevout
    have hnames : issuedNames payableEnv (issueTx hash prevout) =
        issuedNames payableEnv (issueTx 0 ⟨0, 0⟩) := rfl
    rw [hnames]
    decide +kernel
  exact htwo.1 _ (List.mem_singleton.2 rfl) (ascii "NAME") (hmem _ _) (hmem _ _)

theorem noStaleRemoval_single {block : CBlock} {coinbase : CTransaction} {txs : List CTransaction}
    (hvtx : block.vtx = coinbase :: txs) (hcoinbase : issuedNames env coinbase = [])
    (hothers : ∀ tx ∈ txs, tx.isCoinBase = false) (htxs : txs.length ≤ 1) :
    NoStaleRemoval env st block := by
  rw [NoStaleRemoval, hvtx]
  refine ⟨List.forall_mem_cons.2 ⟨fun _ => hcoinbase, fun tx hmem hbase => ?_⟩, fun name _ => ?_⟩
  · rw [hothers tx hmem] at hbase
    cases hbase
  · rw [List.filter_cons_of_neg (by rw [hcoinbase]; simp)]
    exact (List.length_filter_le _ _).trans htxs

def otherIssueTx (hash : uint256) (prevout : COutPoint) : CTransaction where
  hash := hash
  vin := [⟨prevout, []⟩]
  vout :=
    let asset : CNewAsset := ⟨ascii "OTHER", COIN, 0, 1, 0, []⟩
    [⟨500 * COIN, getScriptForKeyID (keyHash 2)⟩,
      ⟨0, asset.constructOwnerTransaction (getScriptForKeyID (keyHash 1))⟩,
      ⟨0, asset.constructTransaction (getScriptForKeyID (keyHash 1))⟩]

def otherIssueBlock : CBlock :=
  ⟨1003, [coinbaseTx 1003 (5000 * COIN), otherIssueTx 2004 ⟨1, 0⟩]⟩

def issueRun : List NodeEvent :=
  connects (coinbaseChain 101) ++ [.connectTip activeContext issueBlock,
    .connectTip activeContext otherIssueBlock, .dump, .disconnectTip activeContext,
    .connectTip activeContext otherIssueBlock]

/-- `NAME` and `OTHER` are issued once, the second again after a reorganisation. -/
theorem issueRun_apart :
    ∃ n, (node payableEnv).exec .genesis issueRun = some n ∧
      n.chainActive.take 2 = [otherIssueBlock, issueBlock] ∧
      (chainTxs n.chainActive).Pairwise (IssueApart payableEnv) := by
  have hrun : ((node payableEnv).exec .genesis issueRun).map
      (fun n => n.chainActive.take 2) = some [otherIssueBlock, issueBlock] := by
    rw [issueRun, exec_coinbaseChain ⟨rfl, rfl⟩ (by decide)]
    decide +kernel
  obtain ⟨n, hexec, hchain⟩ := Option.map_eq_some_iff.1 hrun
  have hcoinbase : ∀ hash nValue, issuedNames payableEnv (coinbaseTx hash nValue) = [] :=
    fun _ _ => rfl
  have hissue : ∀ st, NoStaleRemoval payableEnv st issueBlock := fun _ =>
    noStaleRemoval_single rfl (hcoinbase _ _) (by decide +kernel) (Nat.le_refl 1)
  have hother : ∀ st, NoStaleRemoval payableEnv st otherIssueBlock := fun _ =>
    noStaleRemoval_single rfl (hcoinbase _ _) (by decide +kernel) (Nat.le_refl 1)
  refine ⟨n, hexec, hchain, chain_issues_apart (Machine.Along.of_forall fun e he s => ?_) hexec⟩
  rcases List.mem_append.1 he with hmem | hmem
  · obtain ⟨pair, hpair, rfl⟩ := List.mem_map.1 hmem
    obtain ⟨h, -, rfl⟩ := List.mem_map.1 hpair
    exact noStaleRemoval_single rfl (hcoinbase _ _) (fun _ hmem => nomatch hmem) (Nat.zero_le 1)
  · simp only [List.mem_cons, List.not_mem_nil, or_false] at hmem
    obtain rfl | rfl | rfl | rfl | rfl := hmem
    · exact hissue _
    · exact hother _
    · trivial
    · trivial
    · exact hother _

end UnemployCoin
