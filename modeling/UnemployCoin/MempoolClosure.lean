import UnemployCoin.MempoolNode
/-!
# The mempool is closed

Every input of a transaction in the mempool should be an output of another one or a coin of the
tip, and no two transactions should spend one outpoint.  During a reorganisation the transactions
in the queue count as well.

It holds along every run in which nothing is left behind: no child of a transaction that a block
evicts for its assets, none of an output that is not stored as a coin, and none of a transaction
that is refused **after** it has been stored again.
-/

namespace UnemployCoin

open Check StdMap

namespace CTxMemPool

variable {pool pool' : CTxMemPool} {hash child : uint256} {tx : CTransaction} {o : COutPoint}
  {source source' : COutPoint → Prop} {leaving : uint256 → Prop}

/-- Every input is an outpoint of `source` or made by another transaction of the mempool, and no two
transactions spend one outpoint. -/
structure Closed (source : COutPoint → Prop) (pool : CTxMemPool) : Prop where
  keyed : pool.Keyed
  apart : pool.Apart
  fed : pool.Fed source fun _ => False

theorem Closed.empty : empty.Closed source where
  keyed := fun _ _ h => nomatch h
  apart := fun _ _ _ _ h => nomatch h
  fed := fun _ _ h => nomatch h

theorem Closed.congr (h : pool.Closed source) (hmap : pool'.mapTx = pool.mapTx) :
    pool'.Closed source where
  keyed hash tx hfind := by
    rw [hmap] at hfind
    exact h.keyed hash tx hfind
  apart hash tx hash' tx' hfind hfind' := by
    rw [hmap] at hfind hfind'
    exact h.apart hash tx hash' tx' hfind hfind'
  fed := h.fed.congr hmap

theorem Closed.mono (h : pool.Closed source) (hsource : ∀ o, source o → source' o) :
    pool.Closed source' := ⟨h.keyed, h.apart, h.fed.mono hsource fun _ h => h⟩

theorem Closed.of_spent (h : pool.Closed source)
    (hspent : ∀ hash tx, pool.mapTx.find? hash = some tx → ∀ txin ∈ tx.vin, source txin.prevout →
      source' txin.prevout ∨ pool.Makes hash txin.prevout) : pool.Closed source' where
  keyed := h.keyed
  apart := h.apart
  fed hash tx hfind hstays txin hmem := by
    rcases h.fed hash tx hfind hstays txin hmem with hsource | hmakes
    · exact hspent hash tx hfind txin hmem hsource
    · exact Or.inr hmakes

theorem Closed.swept (h : pool.Closed source) (hswept : Swept (fun _ => False) pool pool') :
    pool'.Closed source where
  keyed := hswept.keyed h.keyed
  apart := hswept.apart h.apart
  fed := hswept.fed h.keyed h.fed fun _ _ hfalse => hfalse.elim

theorem live_picked (hkeyed : pool.Keyed) (picks : CTransaction → Bool) :
    ∀ hash ∈ (pool.txs.filter picks).map CTransaction.hash, pool.Live hash := by
  intro hash hmem
  obtain ⟨tx, htx, rfl⟩ := List.mem_map.1 hmem
  obtain ⟨hash, hfind⟩ := mem_txs.1 (List.mem_filter.1 htx).1
  rw [hkeyed hash tx hfind]
  exact count_of_find? hfind

theorem Closed.evict (h : pool.Closed source) (picks : CTransaction → Bool) :
    (pool.removeStaged (pool.picked picks)).Closed source :=
  h.swept (removeWithDescendants_swept h.keyed (live_picked h.keyed picks))

theorem removeRecursive_spends (hkeyed : pool.Keyed) (hapart : pool.Apart) {origTx : CTransaction}
    {txin : CTxIn} (hfind : (pool.removeRecursive origTx).mapTx.find? hash = some tx)
    (hmem : txin ∈ tx.vin) : txin.prevout ∉ origTx.outpoints := by
  intro hout
  have hswept : Swept (fun _ => False) pool (pool.removeRecursive origTx) :=
    removeRecursive_swept hkeyed origTx
  have hbefore := hswept.find? hfind
  have hspec := descendants_closed hkeyed (live_of_recursive_roots hkeyed origTx)
  have hgone : hash ∈ (if pool.mapTx.count origTx.hash then [origTx.hash]
      else origTx.outputs.filterMap fun e =>
        (pool.nextTx e.1).map CTransaction.hash).foldl pool.calculateDescendants [] := by
    split at hspec
    · rename_i hcount
      rw [if_pos hcount]
      refine hspec.1 origTx.hash (hspec.2 _ (List.mem_singleton.2 rfl)) hash ?_
      exact (mem_children hkeyed).2 ⟨tx, hbefore, txin, hmem, hash_of_mem_outpoints hout⟩
    · rename_i hcount
      rw [if_neg hcount]
      refine hspec.2 hash (List.mem_filterMap.2 ?_)
      obtain ⟨e, he, heq⟩ := List.mem_map.1 hout
      obtain ⟨tx', hnext, hhash⟩ := nextTx_of_spends hkeyed hapart hbefore hmem
      refine ⟨e, he, ?_⟩
      rw [heq, hnext, Option.map_some, hhash]
  rw [removeRecursive, removeWithDescendants, mapTx_removeStaged, if_pos hgone] at hfind
  cases hfind

theorem Closed.removeRecursive (h : pool.Closed fun o => source o ∨ o ∈ tx.outpoints) :
    (pool.removeRecursive tx).Closed source := by
  refine (h.swept (removeRecursive_swept h.keyed tx)).of_spent ?_
  intro hash tx' hfind txin hmem hsource
  refine Or.inl (hsource.resolve_right ?_)
  exact removeRecursive_spends h.keyed h.apart hfind hmem

/-! ## Accepting -/

theorem count_view {coinsTip : CCoinsView} (h : (pool.view coinsTip).count o = true) :
    coinsTip.count o = true ∨ ∃ hash tx, pool.mapTx.find? hash = some tx ∧ o ∈ tx.outpoints := by
  have houtputs : ∀ (l : List (COutPoint × CTxOut)) (view : CCoinsView),
      (l.foldl (fun view e => view.assign e.1 ⟨e.2, false, MEMPOOL_HEIGHT⟩) view).count o = true →
        view.count o = true ∨ o ∈ l.map Prod.fst := by
    intro l
    induction l with
    | nil => exact fun _ hcount => Or.inl hcount
    | cons e l ih =>
      intro view hcount
      rw [List.map_cons, List.mem_cons]
      rcases ih _ hcount with hcount | hmem
      · rw [count_assign, Bool.or_eq_true, decide_eq_true_eq] at hcount
        rcases hcount with rfl | hcount
        · exact Or.inr (Or.inl rfl)
        · exact Or.inl hcount
      · exact Or.inr (Or.inr hmem)
  have htxs : ∀ (txs : List CTransaction) (view : CCoinsView),
      (txs.foldl (fun view tx => tx.outputs.foldl (fun view e =>
        view.assign e.1 ⟨e.2, false, MEMPOOL_HEIGHT⟩) view) view).count o = true →
        view.count o = true ∨ ∃ tx ∈ txs, o ∈ tx.outpoints := by
    intro txs
    induction txs with
    | nil => exact fun _ hcount => Or.inl hcount
    | cons tx txs ih =>
      intro view hcount
      rcases ih _ hcount with hcount | ⟨tx', hmem, hout⟩
      · refine (houtputs tx.outputs view hcount).imp_right fun hout => ?_
        exact ⟨tx, List.mem_cons_self, hout⟩
      · exact Or.inr ⟨tx', List.mem_cons_of_mem _ hmem, hout⟩
  refine (htxs pool.txs coinsTip h).imp_right ?_
  rintro ⟨tx, hmem, hout⟩
  obtain ⟨hash, hfind⟩ := mem_txs.1 hmem
  exact ⟨hash, tx, hfind, hout⟩

section Accept

variable {env : Env} {ctx : AcceptContext} {v : List (Bytes × uint256)}

theorem inputs_of_checkAccept (h : pool.checkAccept env ctx tx = .ok v) :
    pool.mapTx.count tx.hash = false ∧
      (∀ txin ∈ tx.vin, (pool.view ctx.coinsTip).count txin.prevout = true) ∧
      (∀ txin ∈ tx.vin, ∀ txConflict, pool.nextTx txin.prevout = some txConflict →
        txConflict.hash ∈ ctx.allConflicting) ∧ ctx.passes pool tx = true := by
  rw [checkAccept, unit_bind] at h
  obtain ⟨-, h⟩ := h
  simp only [require_bind, Bool.not_eq_true', List.all_eq_true] at h
  obtain ⟨hcoinbase, hnew, hconflicts, h⟩ := h
  obtain ⟨fees, hinputs, h⟩ := bind_ok.1 h
  rw [checkTxInputs, require_bind, CCoinsView.haveInputs, hcoinbase, Bool.false_or,
    List.all_eq_true] at hinputs
  refine ⟨hnew, hinputs.1, ?_, ?_⟩
  · intro txin hmem txConflict hnext
    have hcontains := hconflicts txin hmem
    rw [hnext] at hcontains
    exact List.contains_iff_mem.1 hcontains
  · simp only [onlyIf_bind] at h
    obtain ⟨-, h⟩ := h
    split at h
    · obtain ⟨v', -, h⟩ := bind_ok.1 h
      simp only [require_bind] at h
      exact h.1
    · obtain ⟨v', -, h⟩ := bind_ok.1 h
      simp only [require_bind] at h
      exact h.1

theorem acceptToMemoryPool_mapTx (hcheck : pool.checkAccept env ctx tx = .ok v) :
    (pool.acceptToMemoryPool env ctx tx).1.mapTx = (pool.stored ctx tx).mapTx := by
  by_cases htrimmed : tx.hash ∈ ctx.trimmed
  · rw [acceptToMemoryPool_trimmed hcheck htrimmed]
  · obtain ⟨names, -, htracks, -⟩ := acceptToMemoryPool_tracks hcheck htrimmed
    rw [htracks.mapTx, (addReissues_frame v).1]

theorem Closed.addUnchecked (h : pool.Closed source) (hnew : pool.mapTx.count tx.hash = false)
    (hfed : ∀ txin ∈ tx.vin, source txin.prevout ∨ pool.Makes tx.hash txin.prevout)
    (hfree : ∀ hash tx', pool.mapTx.find? hash = some tx' → ∀ txin' ∈ tx'.vin, ∀ txin ∈ tx.vin,
      txin'.prevout ≠ txin.prevout) : (pool.addUnchecked tx).Closed source := by
  have hadded : ∀ {hash' tx'}, (pool.addUnchecked tx).mapTx.find? hash' = some tx' →
      (hash' = tx.hash ∧ tx' = tx) ∨ pool.mapTx.find? hash' = some tx' := by
    intro hash' tx' hfind
    rw [CTxMemPool.addUnchecked, find?_assign] at hfind
    split at hfind
    · rename_i heq
      exact Or.inl ⟨heq, (Option.some.inj hfind).symm⟩
    · exact Or.inr hfind
  have hmakes : ∀ {hash' o}, pool.Makes hash' o → (pool.addUnchecked tx).Makes hash' o := by
    rintro hash' o ⟨maker, tx', hne, hfind, hout⟩
    refine ⟨maker, tx', hne, ?_, hout⟩
    have hother : maker ≠ tx.hash := by
      rintro rfl
      rw [count_of_find? hfind] at hnew
      cases hnew
    rw [CTxMemPool.addUnchecked, find?_assign_ne hother]
    exact hfind
  constructor
  · intro hash' tx' hfind
    rcases hadded hfind with ⟨rfl, rfl⟩ | hfind
    · rfl
    · exact h.keyed hash' tx' hfind
  · intro hash₁ tx₁ hash₂ tx₂ hfind₁ hfind₂ txin₁ hmem₁ txin₂ hmem₂ heq
    rcases hadded hfind₁ with ⟨rfl, rfl⟩ | hold₁
    · rcases hadded hfind₂ with ⟨rfl, rfl⟩ | hold₂
      · rfl
      · exact absurd heq.symm (hfree hash₂ tx₂ hold₂ txin₂ hmem₂ txin₁ hmem₁)
    · rcases hadded hfind₂ with ⟨rfl, rfl⟩ | hold₂
      · exact absurd heq (hfree hash₁ tx₁ hold₁ txin₁ hmem₁ txin₂ hmem₂)
      · exact h.apart hash₁ tx₁ hash₂ tx₂ hold₁ hold₂ txin₁ hmem₁ txin₂ hmem₂ heq
  · intro hash' tx' hfind _ txin hmem
    rcases hadded hfind with ⟨rfl, rfl⟩ | hfind
    · exact (hfed txin hmem).imp_right hmakes
    · exact (h.fed hash' tx' hfind not_false txin hmem).imp_right hmakes

variable {node : Node} {rules : PoolRules}

theorem live_setConflicts (hkeyed : pool.Keyed) :
    ∀ hash ∈ pool.setConflicts tx, pool.Live hash := by
  intro hash hmem
  obtain ⟨txin, -, hnext⟩ := List.mem_filterMap.1 hmem
  obtain ⟨tx', hspender, rfl⟩ := Option.map_eq_some_iff.1 hnext
  exact count_of_find? (nextTx_some hkeyed hspender).1

/-- **A transaction that is stored** spends coins of the tip and outputs of the mempool only, and
the mempool stays closed. -/
theorem Closed.stored (h : pool.Closed source)
    (hcheck : pool.checkAccept (AcceptContext.env (pool.contextOf node rules tx) env)
      (pool.contextOf node rules tx) tx = .ok v)
    (hsource : ∀ o, node.view.count o = true → source o) :
    (pool.stored (pool.contextOf node rules tx) tx).Closed source ∧
      (pool.stored (pool.contextOf node rules tx) tx).Fed (fun o => node.view.count o = true)
        fun hash => hash ≠ tx.hash := by
  obtain ⟨hnew, hview, hconflicts, hpasses⟩ := inputs_of_checkAccept hcheck
  have hreplaced : Swept (fun _ => False) pool (pool.removeStaged (pool.allConflicting tx)) :=
    removeWithDescendants_swept h.keyed (live_setConflicts h.keyed)
  have hclosed := h.swept hreplaced
  have hparents : ∀ txin ∈ tx.vin, txin.prevout.hash ∉ pool.allConflicting tx := by
    have hnone : (!(tx.vin.any fun txin => (pool.allConflicting tx).contains txin.prevout.hash) &&
        rules.passes pool tx) = true := hpasses
    rw [Bool.and_eq_true, Bool.not_eq_true', List.any_eq_false] at hnone
    intro txin hmem hin
    exact hnone.1 txin hmem (List.contains_iff_mem.2 hin)
  -- The parents in the mempool stay.
  have hfed : ∀ txin ∈ tx.vin, node.view.count txin.prevout = true ∨
      (pool.removeStaged (pool.allConflicting tx)).Makes tx.hash txin.prevout := by
    intro txin hmem
    refine (count_view (hview txin hmem)).imp_right ?_
    rintro ⟨hash', tx', hfind, hout⟩
    have hhash : txin.prevout.hash = hash' :=
      (hash_of_mem_outpoints hout).trans (h.keyed hash' tx' hfind)
    refine ⟨hash', tx', ?_, ?_, hout⟩
    · rintro rfl
      rw [count_of_find? hfind] at hnew
      cases hnew
    · rw [mapTx_removeStaged, if_neg (by rw [← hhash]; exact hparents txin hmem)]
      exact hfind
  have hfree : ∀ hash' tx', (pool.removeStaged (pool.allConflicting tx)).mapTx.find? hash' =
      some tx' → ∀ txin' ∈ tx'.vin, ∀ txin ∈ tx.vin, txin'.prevout ≠ txin.prevout := by
    intro hash' tx' hfind txin' hmem' txin hmem heq
    obtain ⟨txConflict, hnext, hhash⟩ :=
      nextTx_of_spends h.keyed h.apart (find?_removeStaged hfind) hmem'
    rw [heq] at hnext
    have hgone : hash' ∈ pool.allConflicting tx := by
      rw [← hhash]
      exact hconflicts txin hmem txConflict hnext
    rw [mapTx_removeStaged, if_pos hgone] at hfind
    cases hfind
  have hnew' : (pool.removeStaged (pool.allConflicting tx)).mapTx.count tx.hash = false := by
    rw [StdMap.count, mapTx_removeStaged, count_eq_false.1 hnew, ite_self]
    rfl
  have hadded := hclosed.addUnchecked hnew'
    (fun txin hmem => (hfed txin hmem).imp_left (hsource _)) hfree
  have htrimmed : Swept (fun _ => False)
      ((pool.removeStaged (pool.allConflicting tx)).addUnchecked tx)
      (pool.stored (pool.contextOf node rules tx) tx) :=
    removeWithDescendants_swept hadded.keyed (live_picked hadded.keyed rules.limits)
  refine ⟨hadded.swept htrimmed, htrimmed.fed hadded.keyed ?_ fun _ _ hfalse => hfalse.elim⟩
  -- The inputs of the new transaction alone.
  intro hash' tx' hfind hstays txin hmem
  rw [not_not] at hstays
  subst hstays
  obtain rfl : tx' = tx := by
    rw [CTxMemPool.addUnchecked, find?_assign_self] at hfind
    exact (Option.some.inj hfind).symm
  refine (hfed txin hmem).imp_right ?_
  rintro ⟨maker, tx₁, hne, hfind₁, hout⟩
  refine ⟨maker, tx₁, hne, ?_, hout⟩
  rw [CTxMemPool.addUnchecked, find?_assign_ne hne]
  exact hfind₁

end Accept

/-! ## A block -/

/-- The transactions that go because they conflict with a block: one spends what a transaction of
the block spends, or an output of one that goes.  What the block confirms is not among them. -/
inductive Conflicts (pool : CTxMemPool) (vtx : List CTransaction) : uint256 → Prop
  | spends {hash : uint256} {tx b : CTransaction} {txin txin' : CTxIn} :
      pool.mapTx.find? hash = some tx → hash ∉ vtx.map CTransaction.hash → b ∈ vtx → txin ∈ tx.vin →
        txin' ∈ b.vin → txin.prevout = txin'.prevout → Conflicts pool vtx hash
  | child {hash child : uint256} : Conflicts pool vtx hash → child ∈ pool.children hash →
      child ∉ vtx.map CTransaction.hash → Conflicts pool vtx child

section Block

variable {env : Env} {st : AssetState} {coins coinsTip : CCoinsView} {vtx : List CTransaction}
  {data : CAssetsCache} {queuedTx : List CTransaction}

theorem Conflicts.live (hkeyed : pool.Keyed) (h : pool.Conflicts vtx hash) :
    pool.Live hash ∧ hash ∉ vtx.map CTransaction.hash := by
  cases h with
  | spends hfind hnot _ _ _ _ => exact ⟨count_of_find? hfind, hnot⟩
  | child _ hchild hnot => exact ⟨live_of_mem_children hkeyed hchild, hnot⟩

theorem Conflicts.gone (hkeyed : pool.Keyed) (hapart : pool.Apart) (h : pool.Conflicts vtx hash) :
    ¬(vtx.foldl removeForTx pool).Live hash := by
  have hswept : Swept (fun hash => hash ∈ vtx.map CTransaction.hash) pool
      (vtx.foldl removeForTx pool) :=
    foldl_removeForTx_swept hkeyed fun b hb => List.mem_map_of_mem hb
  induction h with
  | @spends hash tx b txin txin' hfind _ hb hmem hmem' heq =>
    intro hlive
    obtain ⟨tx', hfind'⟩ := count_eq_true.1 hlive
    cases hfind.symm.trans (hswept.find? hfind')
    exact foldl_removeForTx_spends hkeyed hapart hb hmem' hfind' hmem heq
  | @child hash child hconflicts hchild _ ih =>
    obtain ⟨hlive, hnot⟩ := hconflicts.live hkeyed
    exact hswept.gone hkeyed hlive ih hnot hchild

/-- The transactions that a block leaves in the mempool. -/
structure Stays (env : Env) (st : AssetState) (coinsTip : CCoinsView) (vtx : List CTransaction)
    (data : CAssetsCache) (pool : CTxMemPool) (hash : uint256) : Prop where
  unconfirmed : hash ∉ vtx.map CTransaction.hash
  apart : ¬pool.Conflicts vtx hash
  valid : hash ∉ (pool.invalidated env st coinsTip data).map CTransaction.hash

/-- What a block takes from the mempool leaves no orphan: no transaction that stays spends an output
that is not stored as a coin, or an output of a transaction that is evicted for its assets.  A
hash stands for one transaction. -/
structure LeavesNoOrphan (env : Env) (st : AssetState) (coinsTip : CCoinsView)
    (vtx : List CTransaction) (data : CAssetsCache) (queuedTx : List CTransaction)
    (pool : CTxMemPool) : Prop where
  same : ∀ b ∈ vtx, (∀ tx, pool.mapTx.find? b.hash = some tx → tx = b) ∧
    ∀ tx ∈ queuedTx, tx.hash = b.hash → tx = b
  spendable : ∀ hash tx, pool.mapTx.find? hash = some tx →
    pool.Stays env st coinsTip vtx data hash → ∀ txin ∈ tx.vin,
      ∀ b ∈ vtx, ∀ e ∈ b.outputs, e.1 = txin.prevout → e.2.scriptPubKey.isUnspendable = false
  evicted : ∀ hash tx, pool.mapTx.find? hash = some tx →
    pool.Stays env st coinsTip vtx data hash → ∀ txin ∈ tx.vin,
      ∀ e ∈ pool.invalidated env st coinsTip data,
        e.hash ∉ vtx.map CTransaction.hash → txin.prevout.hash ≠ e.hash

/-- The queue once the transactions of a block are out of it. -/
def unconfirmedOf (queuedTx vtx : List CTransaction) : List CTransaction :=
  queuedTx.filter fun tx => !(vtx.map CTransaction.hash).contains tx.hash

/-- **A block keeps the mempool closed**, when it leaves no orphan. -/
theorem Closed.removeForBlock
    (h : pool.Closed fun o => coins.count o = true ∨ ∃ q ∈ queuedTx, o ∈ q.outpoints)
    (horphan : LeavesNoOrphan env st coinsTip vtx data queuedTx pool)
    (hcoins : ∀ o, (∀ b ∈ vtx, ∀ txin ∈ b.vin, txin.prevout ≠ o) →
      (coins.count o = true ∨ ∃ b ∈ vtx, ∃ txout, (o, txout) ∈ b.outputs ∧
        txout.scriptPubKey.isUnspendable = false) → coinsTip.count o = true) :
    (pool.removeForBlock env st coinsTip vtx data).Closed fun o =>
      coinsTip.count o = true ∨ ∃ q ∈ unconfirmedOf queuedTx vtx, o ∈ q.outpoints := by
  have hconfirmed : Swept (fun hash => hash ∈ vtx.map CTransaction.hash) pool
      (vtx.foldl removeForTx pool) :=
    foldl_removeForTx_swept h.keyed fun b hb => List.mem_map_of_mem hb
  have hevicted : Swept
      (fun hash => hash ∈ (pool.invalidated env st coinsTip data).map CTransaction.hash)
      (vtx.foldl removeForTx pool) (pool.removeForBlock env st coinsTip vtx data) :=
    foldl_removeForTx_swept (hconfirmed.keyed h.keyed) fun e he => List.mem_map_of_mem he
  -- No transaction that is left was to go.
  have hunconfirmed : ∀ hash, (vtx.foldl removeForTx pool).Live hash →
      hash ∉ vtx.map CTransaction.hash ∧ ¬pool.Conflicts vtx hash := by
    intro hash hlive
    refine ⟨fun hmem => ?_, fun hconflicts => hconflicts.gone h.keyed h.apart hlive⟩
    obtain ⟨b, hb, rfl⟩ := List.mem_map.1 hmem
    exact not_live_of_foldl_removeForTx hb hlive
  have hvalid : ∀ hash, (pool.removeForBlock env st coinsTip vtx data).Live hash →
      hash ∉ (pool.invalidated env st coinsTip data).map CTransaction.hash := by
    intro hash hlive hmem
    obtain ⟨e, he, rfl⟩ := List.mem_map.1 hmem
    exact not_live_of_foldl_removeForTx he hlive
  -- The outputs of the block count until all of it is done.
  have hfed : pool.Fed (fun o => (coins.count o = true ∨ ∃ q ∈ queuedTx, o ∈ q.outpoints) ∨
      ∃ b ∈ vtx, o ∈ b.outpoints) fun _ => False :=
    h.fed.mono (fun _ => Or.inl) fun _ hl => hl
  have hfed₁ := hconfirmed.fed h.keyed hfed (by
    intro hash tx hmem hfind child tx' _ _ txin _ hout
    obtain ⟨b, hb, rfl⟩ := List.mem_map.1 hmem
    rw [(horphan.same b hb).1 tx hfind] at hout
    exact Or.inr ⟨b, hb, hout⟩)
  -- The evicted transactions need not be fed, and have no child that stays.
  have hleaving : (vtx.foldl removeForTx pool).Fed
      (fun o => (coins.count o = true ∨ ∃ q ∈ queuedTx, o ∈ q.outpoints) ∨
        ∃ b ∈ vtx, o ∈ b.outpoints)
      fun hash => hash ∈ (pool.invalidated env st coinsTip data).map CTransaction.hash :=
    hfed₁.mono (fun _ ho => ho) fun _ hfalse => hfalse.elim
  have hfed₂ := hevicted.fed (hconfirmed.keyed h.keyed) hleaving (by
    intro hash tx hmem hfind child tx' hfind' hstays txin hin hout
    have hlive' := hunconfirmed child (count_of_find? hfind')
    obtain ⟨e, he, rfl⟩ := List.mem_map.1 hmem
    refine absurd ?_ (horphan.evicted child tx' (hconfirmed.find? hfind')
      ⟨hlive'.1, hlive'.2, hstays⟩ txin hin e he
      (hunconfirmed e.hash (count_of_find? hfind)).1)
    rw [hash_of_mem_outpoints hout]
    exact hconfirmed.keyed h.keyed e.hash tx hfind)
  refine ⟨hevicted.keyed (hconfirmed.keyed h.keyed), hevicted.apart (hconfirmed.apart h.apart),
    fun hash tx hfind _ txin hmem => ?_⟩
  have hlive : (pool.removeForBlock env st coinsTip vtx data).Live hash :=
    count_of_find? hfind
  have hbefore := hevicted.find? hfind
  have hstays : pool.Stays env st coinsTip vtx data hash :=
    ⟨(hunconfirmed hash (count_of_find? hbefore)).1,
      (hunconfirmed hash (count_of_find? hbefore)).2, hvalid hash hlive⟩
  have hkept : ∀ b ∈ vtx, ∀ txin' ∈ b.vin, txin'.prevout ≠ txin.prevout := fun b hb txin' hin =>
    (foldl_removeForTx_spends h.keyed h.apart hb hin hbefore hmem).symm
  -- An output of the block is a coin, as it can be spent.
  have hcreated : (∃ b ∈ vtx, txin.prevout ∈ b.outpoints) → coinsTip.count txin.prevout = true := by
    rintro ⟨b, hb, hout⟩
    obtain ⟨e, he, heq⟩ := List.mem_map.1 hout
    refine hcoins _ hkept (Or.inr ⟨b, hb, e.2, ?_, ?_⟩)
    · rw [← heq]
      exact he
    · exact horphan.spendable hash tx (hconfirmed.find? hbefore) hstays txin hmem b hb e he heq
  rcases hfed₂ hash tx hfind (hvalid hash hlive) txin hmem with hsource | hmakes
  · refine Or.inl ?_
    rcases hsource with (hcount | ⟨q, hq, hout⟩) | hblock
    · exact Or.inl (hcoins _ hkept (Or.inl hcount))
    · by_cases hmem' : q.hash ∈ vtx.map CTransaction.hash
      · obtain ⟨b, hb, heq⟩ := List.mem_map.1 hmem'
        rw [(horphan.same b hb).2 q hq heq.symm] at hout
        exact Or.inl (hcreated ⟨b, hb, hout⟩)
      · refine Or.inr ⟨q, List.mem_filter.2 ⟨hq, ?_⟩, hout⟩
        rw [Bool.not_eq_true', ← Bool.not_eq_true, List.contains_iff_mem]
        exact hmem'
    · exact Or.inl (hcreated hblock)
  · exact Or.inr hmakes

end Block

end CTxMemPool

/-! ## Steps -/

namespace MempoolNode

variable {env : Env} {s s' : MempoolNode} {rules : PoolRules} {tx : CTransaction}
  {queuedTx : List CTransaction} {fAddToMempool : Bool}

/-- Where the inputs of the mempool may come from besides the mempool: the coins of the tip, and
the transactions that are to be resubmitted. -/
def Source (s : MempoolNode) (o : COutPoint) : Prop :=
  s.node.view.count o = true ∨ ∃ q ∈ s.queuedTx, o ∈ q.outpoints

def Orderly (env : Env) (s : MempoolNode) : MempoolEvent → Prop
  | .connectTip ctx block data => ∀ node,
    s.node.connectTip env { ctx with mempool := s.pool.state } block = some node →
      CTxMemPool.LeavesNoOrphan { env with dep := ctx.dep } node.st node.view block.vtx data
        s.queuedTx (block.vtx.foldl CTxMemPool.clearReissue s.pool)
  | .disconnectTip _ => ∀ b ∈ s.node.chainActive.head?.elim [] CBlock.vtx,
    ∀ tx ∈ s.queuedTx ++ s.node.chainActive.head?.elim [] CBlock.vtx, tx.hash = b.hash → tx = b
  | .resubmit fAddToMempool rules => fAddToMempool = true → ∀ tx ∈ s.queuedTx.getLast?,
    s.pool.children tx.hash = [] ∨
      s.pool.RefusesCleanly ((s.context (bypassLimits rules) tx).env env)
        (s.context (bypassLimits rules) tx) tx
  | _ => True

theorem closed_accept (h : s.pool.Closed s.Source) :
    (s.acceptToMemoryPool env rules tx).1.Closed s.Source := by
  rw [acceptToMemoryPool]
  cases hcheck : s.pool.checkAccept ((s.context rules tx).env env) (s.context rules tx) tx with
  | error reason =>
    rw [CTxMemPool.acceptToMemoryPool, hcheck]
    exact h
  | ok v =>
    exact (h.stored hcheck fun o => Or.inl).1.congr (CTxMemPool.acceptToMemoryPool_mapTx hcheck)

theorem accepted_of_clean {env : Env} {pool : CTxMemPool} {ctx : CTxMemPool.AcceptContext}
    {v : List (Bytes × uint256)} (hcheck : pool.checkAccept env ctx tx = .ok v)
    (hstays : tx.hash ∉ ctx.trimmed) (hclean : pool.RefusesCleanly env ctx tx) :
    (pool.acceptToMemoryPool env ctx tx).2 = .ok () := by
  have htx := (CTxMemPool.checkAccept_ok hcheck).1
  have hstored : ((pool.removeStaged ctx.allConflicting).addUnchecked tx).removeStaged
      ctx.trimmed = pool.stored ctx tx := rfl
  rw [CTxMemPool.RefusesCleanly, hcheck, if_neg hstays] at hclean
  rw [CTxMemPool.acceptToMemoryPool, hcheck]
  simp only [hstored, CTxMemPool.count_stored, Bool.not_not, decide_eq_false hstays,
    Bool.false_eq_true, if_false]
  cases hdep : env.dep.areAssetsDeployed with
  | false => rfl
  | true =>
    have hstops := @CTxMemPool.trackOutputs_error_iff env ((pool.stored ctx tx).addReissues v)
      tx.hash tx.vout (nodup_poolChanges htx)
    simp only [CTxMemPool.addReissues_tracks, CTxMemPool.stored_tracks] at hstops
    simp only [if_true]
    generalize ((pool.stored ctx tx).addReissues v).trackOutputs env tx.hash tx.vout = r
      at hstops ⊢
    obtain ⟨pool₁, verdict⟩ := r
    cases verdict with
    | ok u => rfl
    | error reason =>
      obtain ⟨change, hmem, htracked⟩ := hstops.1 ⟨reason, rfl⟩
      rw [hclean rfl hdep change hmem] at htracked
      cases htracked

theorem trimmed_bypassLimits : (s.context (bypassLimits rules) tx).trimmed = [] := by
  have hnone : ∀ txs : List CTransaction, txs.filter (fun _ => false) = [] := fun txs =>
    List.filter_eq_nil_iff.2 fun _ _ => Bool.false_ne_true
  have htrimmed : (s.context (bypassLimits rules) tx).trimmed =
      ((s.pool.removeStaged (s.pool.allConflicting tx)).addUnchecked tx).picked fun _ => false :=
    rfl
  rw [htrimmed, CTxMemPool.picked, hnone]
  rfl

theorem closed_stored {pool : CTxMemPool} {source : COutPoint → Prop}
    (hfind : pool.mapTx.find? tx.hash = some tx)
    (hclosed : pool.Closed fun o => source o ∨ o ∈ tx.outpoints)
    (hfed : pool.Fed source fun hash => hash ≠ tx.hash) : pool.Closed source := by
  refine hclosed.of_spent fun hash tx' hfind' txin hmem hsource => ?_
  rcases hsource with hsource | hout
  · exact Or.inl hsource
  · by_cases heq : hash = tx.hash
    · exact hfed hash tx' hfind' (not_not.2 heq) txin hmem
    · exact Or.inr ⟨tx.hash, tx, Ne.symm heq, hfind, hout⟩

/-- A transaction that goes alone leaves no orphan where no other spends an output of it. -/
theorem closed_removeStaged {pool : CTxMemPool} {source : COutPoint → Prop}
    (hself : ∀ tx', pool.mapTx.find? tx.hash = some tx' → tx' = tx)
    (hclosed : pool.Closed fun o => source o ∨ o ∈ tx.outpoints)
    (hapart : ∀ hash tx', hash ≠ tx.hash → pool.mapTx.find? hash = some tx' →
      ∀ txin ∈ tx'.vin, txin.prevout ∉ tx.outpoints) :
    (pool.removeStaged [tx.hash]).Closed source := by
  have hswept : CTxMemPool.Swept (fun hash => hash = tx.hash) pool (pool.removeStaged [tx.hash]) :=
    CTxMemPool.Swept.refl.step fun hash hmem => Or.inl (List.mem_singleton.1 hmem)
  have hgone : (pool.removeStaged [tx.hash]).Closed fun o => source o ∨ o ∈ tx.outpoints := by
    refine ⟨hswept.keyed hclosed.keyed, hswept.apart hclosed.apart,
      hswept.fed hclosed.keyed hclosed.fed ?_⟩
    rintro hash tx₀ rfl hfind₀ child tx₁ - - txin - hout
    rw [hself tx₀ hfind₀] at hout
    exact Or.inr hout
  refine hgone.of_spent fun hash tx₁ hfind₁ txin hmem hsource => Or.inl ?_
  refine hsource.resolve_right (hapart hash tx₁ ?_ (hswept.find? hfind₁) txin hmem)
  rintro rfl
  rw [CTxMemPool.mapTx_removeStaged, if_pos (List.mem_singleton.2 rfl)] at hfind₁
  cases hfind₁

/-- **A transaction of the queue is stored again, or leaves no orphan.** -/
theorem closed_resubmitted (h : s.pool.Closed s.Source) (hqueue : s.queuedTx = queuedTx ++ [tx])
    (hclean : fAddToMempool = true → s.pool.children tx.hash = [] ∨
      s.pool.RefusesCleanly ((s.context (bypassLimits rules) tx).env env)
        (s.context (bypassLimits rules) tx) tx) :
    (s.resubmitted env fAddToMempool rules tx).Closed fun o =>
      s.node.view.count o = true ∨ ∃ q ∈ queuedTx, o ∈ q.outpoints := by
  have hsplit : ∀ o, s.Source o → (s.node.view.count o = true ∨ ∃ q ∈ queuedTx, o ∈ q.outpoints) ∨
      o ∈ tx.outpoints := by
    rintro o (hcount | ⟨q, hq, hout⟩)
    · exact Or.inl (Or.inl hcount)
    · rw [hqueue, List.mem_append, List.mem_singleton] at hq
      rcases hq with hq | rfl
      · exact Or.inl (Or.inr ⟨q, hq, hout⟩)
      · exact Or.inr hout
  have hbefore := h.mono hsplit
  rw [resubmitted]
  split
  · exact hbefore.removeRecursive
  · rename_i hadd
    rw [Bool.or_eq_true, not_or, Bool.not_eq_true', Bool.not_eq_false] at hadd
    have htrimmed : tx.hash ∉ (s.context (bypassLimits rules) tx).trimmed := by
      rw [trimmed_bypassLimits]
      exact List.not_mem_nil
    cases hcheck : s.pool.checkAccept ((s.context (bypassLimits rules) tx).env env)
        (s.context (bypassLimits rules) tx) tx with
    | error reason =>
      have hresult : s.acceptToMemoryPool env (bypassLimits rules) tx =
          (s.pool, .error reason) := by
        rw [acceptToMemoryPool, CTxMemPool.acceptToMemoryPool, hcheck]
      rw [hresult]
      simp only
      rw [removeRefused, Bool.and_not_self, if_neg Bool.false_ne_true]
      exact hbefore.removeRecursive
    | ok v =>
      obtain ⟨hclosed, hfed⟩ := h.stored hcheck fun o => Or.inl
      obtain ⟨hnew, -, -, -⟩ := CTxMemPool.inputs_of_checkAccept hcheck
      have hmap : (s.acceptToMemoryPool env (bypassLimits rules) tx).1.mapTx =
          (s.pool.stored (s.context (bypassLimits rules) tx) tx).mapTx :=
        CTxMemPool.acceptToMemoryPool_mapTx hcheck
      have hlive : (s.pool.stored (s.context (bypassLimits rules) tx) tx).mapTx.count tx.hash =
          true := by
        rw [CTxMemPool.count_stored, decide_eq_false htrimmed]
        rfl
      have haccepted := accepted_of_clean hcheck htrimmed
      have hsame : s.acceptToMemoryPool env (bypassLimits rules) tx =
          s.pool.acceptToMemoryPool ((s.context (bypassLimits rules) tx).env env)
            (s.context (bypassLimits rules) tx) tx := rfl
      rw [← hsame] at haccepted
      have hclosed' := (hclosed.congr hmap).mono hsplit
      have hfed' := hfed.congr hmap
      rw [← hmap] at hlive
      have hother : ∀ hash tx', hash ≠ tx.hash →
          (s.acceptToMemoryPool env (bypassLimits rules) tx).1.mapTx.find? hash = some tx' →
            s.pool.mapTx.find? hash = some tx' := by
        intro hash tx' hne hfind
        rw [hmap] at hfind
        exact (CTxMemPool.find?_stored hne hfind).1
      have hself : ∀ tx', (s.acceptToMemoryPool env (bypassLimits rules) tx).1.mapTx.find? tx.hash =
          some tx' → tx' = tx := by
        intro tx' hfind
        rw [hmap] at hfind
        exact CTxMemPool.find?_stored_self hfind
      generalize s.acceptToMemoryPool env (bypassLimits rules) tx = r
        at haccepted hclosed' hfed' hlive hother hself ⊢
      obtain ⟨pool, verdict⟩ := r
      obtain ⟨tx', hfind⟩ := count_eq_true.1 hlive
      cases hself tx' hfind
      cases verdict with
      | ok u =>
        exact closed_stored hfind hclosed' (hfed'.mono (fun o => Or.inl) fun _ hl => hl)
      | error reason =>
        -- It has been stored and goes alone, so it must have no child.
        have hnone : s.pool.children tx.hash = [] := by
          refine (hclean hadd.1).resolve_right fun hrefuses => ?_
          cases haccepted hrefuses
        have hrefused : s.removeRefused pool tx = pool.removeStaged [tx.hash] := by
          rw [removeRefused, hlive, hnew]
          rfl
        simp only
        rw [hrefused]
        refine closed_removeStaged hself hclosed' fun hash tx₁ hne hfind₁ txin hmem hout => ?_
        have hchild : hash ∈ s.pool.children tx.hash :=
          (CTxMemPool.mem_children h.keyed).2 ⟨tx₁, hother hash tx₁ hne hfind₁, txin, hmem,
            hash_of_mem_outpoints hout⟩
        rw [hnone] at hchild
        cases hchild

theorem mem_addTransaction {q : CTransaction} (hq : q ∈ queuedTx) :
    q ∈ addTransaction queuedTx tx := by
  rw [addTransaction]
  split
  · exact hq
  · exact List.mem_append_left _ hq

theorem mem_foldl_addTransaction {txs : List CTransaction} :
    (∀ q ∈ queuedTx, q ∈ txs.foldl addTransaction queuedTx) ∧
      (∀ b ∈ txs, ∃ q ∈ txs.foldl addTransaction queuedTx, q.hash = b.hash) ∧
      ∀ q ∈ txs.foldl addTransaction queuedTx, q ∈ queuedTx ++ txs := by
  induction txs generalizing queuedTx with
  | nil => exact ⟨fun _ hq => hq, fun _ hb => (nomatch hb), fun _ hq => List.mem_append_left _ hq⟩
  | cons tx txs ih =>
    obtain ⟨hkept, hadded, hsub⟩ := @ih (addTransaction queuedTx tx)
    refine ⟨fun q hq => hkept q (mem_addTransaction hq), ?_, ?_⟩
    · intro b hb
      rcases List.mem_cons.1 hb with rfl | hb
      · have hthere : ∃ q ∈ addTransaction queuedTx b, q.hash = b.hash := by
          rw [addTransaction]
          split
          · rename_i hcontains
            exact List.mem_map.1 (List.contains_iff_mem.1 hcontains)
          · exact ⟨b, List.mem_append_right _ (List.mem_singleton.2 rfl), rfl⟩
        obtain ⟨q, hq, hhash⟩ := hthere
        exact ⟨q, hkept q hq, hhash⟩
      · exact hadded b hb
    · intro q hq
      have hmem := hsub q hq
      rw [addTransaction] at hmem
      split at hmem
      · rcases List.mem_append.1 hmem with hmem | hmem
        · exact List.mem_append_left _ hmem
        · exact List.mem_append_right _ (List.mem_cons_of_mem _ hmem)
      · rw [List.append_assoc, List.singleton_append] at hmem
        exact hmem

/-- **One step** that leaves no orphan keeps the mempool closed. -/
theorem closed_step {e : MempoolEvent} (h : s.pool.Closed s.Source) (horderly : Orderly env s e)
    (hstep : (mempoolNode env).step s e = some s') : s'.pool.Closed s'.Source := by
  cases e with
  | accept rules tx =>
    cases hstep
    exact closed_accept h
  | evict picks =>
    cases hstep
    exact h.evict picks
  | connectTip ctx block data =>
    have hconnect : s.connectTip env ctx block data = some s' := hstep
    rw [connectTip] at hconnect
    obtain ⟨node, hnode, rfl⟩ := Option.map_eq_some_iff.1 hconnect
    obtain ⟨reissuedAssets, reissuedTx, hframe⟩ := CTxMemPool.clearReissues_frame block.vtx s.pool
    have hcleared : (block.vtx.foldl CTxMemPool.clearReissue s.pool).Closed s.Source :=
      h.congr (by rw [hframe])
    refine hcleared.removeForBlock (horderly node hnode) fun o hkept hthere => ?_
    exact count_connectTip hnode hkept hthere
  | disconnectTip ctx =>
    have hdisconnect : s.disconnectTip env ctx = some s' := hstep
    rw [disconnectTip] at hdisconnect
    obtain ⟨node, hnode, rfl⟩ := Option.map_eq_some_iff.1 hdisconnect
    obtain ⟨hkept, hadded, hsub⟩ := @mem_foldl_addTransaction s.queuedTx
      (s.node.chainActive.head?.elim [] CBlock.vtx).reverse
    refine h.mono fun o hsource => ?_
    rcases hsource with hcount | ⟨q, hq, hout⟩
    · by_cases hblock : ∃ b ∈ s.node.chainActive.head?.elim [] CBlock.vtx, o ∈ b.outpoints
      · obtain ⟨b, hb, hout⟩ := hblock
        obtain ⟨q, hq, hhash⟩ := hadded b (List.mem_reverse.2 hb)
        have hmem := hsub q hq
        rw [List.mem_append, List.mem_reverse, ← List.mem_append] at hmem
        refine Or.inr ⟨q, hq, ?_⟩
        rw [horderly b hb q hmem hhash]
        exact hout
      · refine Or.inl (count_disconnectTip hnode hcount fun b hb hout => ?_)
        exact hblock ⟨b, hb, hout⟩
    · exact Or.inr ⟨q, hkept q hq, hout⟩
  | dropQueued =>
    have hdrop : s.dropQueued = some s' := hstep
    rw [dropQueued] at hdrop
    split at hdrop
    · cases hdrop
    · rename_i tx queuedTx hqueue
      cases hdrop
      refine CTxMemPool.Closed.removeRecursive (h.mono fun o hsource => ?_)
      rcases hsource with hcount | ⟨q, hq, hout⟩
      · exact Or.inl (Or.inl hcount)
      · rw [hqueue, List.mem_cons] at hq
        rcases hq with rfl | hq
        · exact Or.inr hout
        · exact Or.inl (Or.inr ⟨q, hq, hout⟩)
  | resubmit fAddToMempool rules =>
    have hresubmit : s.resubmit env fAddToMempool rules = some s' := hstep
    rw [resubmit] at hresubmit
    obtain ⟨tx, hlast, rfl⟩ := Option.map_eq_some_iff.1 hresubmit
    have hqueue : s.queuedTx = s.queuedTx.dropLast ++ [tx] :=
      (List.dropLast_append_getLast? tx hlast).symm
    exact closed_resubmitted h hqueue fun hadd => horderly hadd tx hlast
  | dump =>
    cases hstep
    exact h
  | read lookup =>
    cases hstep
    exact h

/-- A test of `Orderly`: no transaction of the mempool spends what `LeavesNoOrphan` names, and a
transaction that is resubmitted has no child or changes nothing that the mempool tracks. -/
def isOrderly (env : Env) (s : MempoolNode) : MempoolEvent → Bool
  | .connectTip ctx block data =>
    (s.node.connectTip env { ctx with mempool := s.pool.state } block).all fun (node : Node) =>
      (fun pool : CTxMemPool =>
        decide (∀ b ∈ block.vtx, (∀ tx ∈ pool.mapTx.find? b.hash, tx = b) ∧
          ∀ tx ∈ s.queuedTx, tx.hash = b.hash → tx = b) &&
        decide (∀ entry ∈ pool.mapTx.entries, ∀ txin ∈ entry.2.vin,
          (∀ b ∈ block.vtx, ∀ e ∈ b.outputs, e.1 = txin.prevout →
            e.2.scriptPubKey.isUnspendable = false) ∧
          ∀ e ∈ pool.invalidated { env with dep := ctx.dep } node.st node.view data,
            e.hash ∉ block.vtx.map CTransaction.hash → txin.prevout.hash ≠ e.hash))
        (block.vtx.foldl CTxMemPool.clearReissue s.pool)
  | .disconnectTip _ => decide (∀ b ∈ s.node.chainActive.head?.elim [] CBlock.vtx,
      ∀ tx ∈ s.queuedTx ++ s.node.chainActive.head?.elim [] CBlock.vtx, tx.hash = b.hash → tx = b)
  | .resubmit _ rules => decide (∀ tx ∈ s.queuedTx.getLast?, s.pool.children tx.hash = [] ∨
      CTxMemPool.poolChanges ((s.context (bypassLimits rules) tx).env env) tx.vout = [])
  | _ => true

theorem orderly_of_isOrderly {e : MempoolEvent} (h : s.isOrderly env e = true) :
    Orderly env s e := by
  cases e with
  | connectTip ctx block data =>
    intro node hnode
    have htest := (Option.all_eq_true _ _).1 h node hnode
    simp only [Bool.and_eq_true, decide_eq_true_eq] at htest
    obtain ⟨hsame, hspent⟩ := htest
    exact ⟨hsame,
      fun hash tx hfind _ txin hin => (hspent _ (mem_entries.2 hfind) txin hin).1,
      fun hash tx hfind _ txin hin => (hspent _ (mem_entries.2 hfind) txin hin).2⟩
  | disconnectTip ctx =>
    intro b hb tx htx heq
    exact of_decide_eq_true h b hb tx htx heq
  | resubmit fAddToMempool rules =>
    intro _ tx hlast
    refine (of_decide_eq_true h tx hlast).imp id fun hnone _ => ?_
    rw [trimmed_bypassLimits, if_neg List.not_mem_nil, hnone]
    exact fun _ change hmem => absurd hmem List.not_mem_nil
  | _ => trivial

/-- **The mempool is closed** in every state of a run from an empty mempool that leaves no orphan,
and once no reorganisation is going on its inputs are outputs of the mempool or coins of the tip. -/
theorem closed_along {n : Node} {es : List MempoolEvent}
    (halong : (mempoolNode env).Along (Orderly env) ⟨n, .empty, []⟩ es)
    (hexec : (mempoolNode env).exec ⟨n, .empty, []⟩ es = some s) :
    s.pool.Closed s.Source ∧
      (s.queuedTx = [] → s.pool.Closed fun o => s.node.view.count o = true) := by
  have hclosed : s.pool.Closed s.Source :=
    Machine.exec_invariant (I := fun s : MempoolNode => s.pool.Closed s.Source)
      (fun _ _ _ h horderly hstep => closed_step h horderly hstep) .empty halong hexec
  refine ⟨hclosed, fun hqueue => hclosed.mono fun o hsource => hsource.resolve_right ?_⟩
  rintro ⟨q, hq, -⟩
  rw [hqueue] at hq
  cases hq

end MempoolNode

/-! ### A transaction that is evicted, and its child -/

/-- Rules under which everything passes and nothing is limited. -/
def openRules : PoolRules := ⟨.all, fun _ _ => true, fun _ => false⟩

def matureNode : Option Node := (node tagEnv).exec .genesis (connects (coinbaseChain 101))

/-- `#TAG` is issued. -/
def issueTagBlock : CBlock :=
  ⟨1001, [coinbaseTx 1001 (5000 * COIN),
    ⟨2001, [⟨⟨0, 0⟩, []⟩], [burnOutput (1000 * COIN), newTag "#TAG"]⟩]⟩

/-- `#TAG` is issued by another transaction. -/
def rivalTx : CTransaction where
  hash := 3001
  vin := [⟨⟨1, 0⟩, []⟩]
  vout := [burnOutput (1000 * COIN), newTag "#TAG"]

def rivalChildTx : CTransaction where
  hash := 3002
  vin := [⟨⟨3001, 0⟩, []⟩]
  vout := [burnOutput (900 * COIN)]

/-- The assets of the block that issues `#TAG`. -/
def issueTagData (n : Node) : Option CAssetsCache :=
  ((connectBlock (tagEnv.withTip activeContext) n.st ⟨sampleRules, n.height + 1, .empty⟩
    issueTagBlock n.view .empty).map ConnectState.assetsCache).toOption

/-- Both transactions are in the mempool when the block comes. -/
def rivalEvents (data : CAssetsCache) : List MempoolEvent :=
  [.accept openRules rivalTx, .accept openRules rivalChildTx,
    .connectTip activeContext issueTagBlock data]

/-- It spends an output of the transaction that issues `#TAG` in the block. -/
def tagChildTx : CTransaction where
  hash := 2002
  vin := [⟨⟨2001, 0⟩, []⟩]
  vout := [burnOutput (900 * COIN)]

def apartTx : CTransaction where
  hash := 3003
  vin := [⟨⟨1, 0⟩, []⟩]
  vout := [burnOutput (1000 * COIN)]

/-- Three transactions are accepted, a block confirms the first of them, and a reorganisation
disconnects it and resubmits what it held. -/
def keptEvents (data : CAssetsCache) : List MempoolEvent :=
  (issueTagBlock.vtx.drop 1 ++ [tagChildTx, apartTx]).map (.accept openRules) ++
    [.connectTip activeContext issueTagBlock data, .disconnectTip activeContext,
      .resubmit true openRules, .resubmit true openRules]

/-- The child is kept, without its parent and then with it again. -/
theorem tagChild_closed : ∃ n data s, matureNode = some n ∧ issueTagData n = some data ∧
    (mempoolNode tagEnv).exec ⟨n, .empty, []⟩ (keptEvents data) = some s ∧ s.queuedTx = [] ∧
    s.pool.mapTx.keys = [2001, 3003, 2002] ∧ s.pool.Closed s.Source ∧
      (s.queuedTx = [] → s.pool.Closed fun o => s.node.view.count o = true) := by
  have hrun : (matureNode.bind fun n => (issueTagData n).bind fun data =>
      ((mempoolNode tagEnv).exec ⟨n, .empty, []⟩ (keptEvents data)).map fun s =>
        (s.queuedTx, s.pool.mapTx.keys, (mempoolNode tagEnv).tests
          (MempoolNode.isOrderly tagEnv) ⟨n, .empty, []⟩ (keptEvents data))) =
        some ([], [2001, 3003, 2002], true) := by
    rw [matureNode, ← List.append_nil (connects _), exec_coinbaseChain ⟨rfl, rfl⟩ (by decide)]
    decide +kernel
  obtain ⟨n, hn, hdata⟩ := Option.bind_eq_some_iff.1 hrun
  obtain ⟨data, hdata, hs⟩ := Option.bind_eq_some_iff.1 hdata
  obtain ⟨s, hexec, hresult⟩ := Option.map_eq_some_iff.1 hs
  obtain ⟨hqueue, hresult⟩ := Prod.mk.inj hresult
  obtain ⟨hkeys, htests⟩ := Prod.mk.inj hresult
  exact ⟨n, data, s, hn, hdata, hexec, hqueue, hkeys, MempoolNode.closed_along
    (Machine.Along.of_tests (fun _ _ => MempoolNode.orderly_of_isOrderly) htests) hexec⟩

/-- The transaction that issues the name of a new asset is evicted, and its child stays in the
mempool **without** its input. -/
theorem rivalChild_orphaned : ∃ n data s, matureNode = some n ∧ issueTagData n = some data ∧
    (mempoolNode tagEnv).exec ⟨n, .empty, []⟩ (rivalEvents data) = some s ∧ s.queuedTx = [] ∧
    s.pool.mapTx.find? rivalChildTx.hash = some rivalChildTx ∧
    s.pool.mapTx.count rivalTx.hash = false ∧ s.node.view.count ⟨rivalTx.hash, 0⟩ = false ∧
    ¬s.pool.Closed fun o => s.node.view.count o = true := by
  have hrun : (matureNode.bind fun n => (issueTagData n).bind fun data =>
      ((mempoolNode tagEnv).exec ⟨n, .empty, []⟩ (rivalEvents data)).map fun s =>
        (s.queuedTx, s.pool.mapTx.find? rivalChildTx.hash, s.pool.mapTx.count rivalTx.hash,
          s.node.view.count ⟨rivalTx.hash, 0⟩)) =
        some ([], some rivalChildTx, false, false) := by
    rw [matureNode, ← List.append_nil (connects _), exec_coinbaseChain ⟨rfl, rfl⟩ (by decide)]
    decide +kernel
  obtain ⟨n, hn, hdata⟩ := Option.bind_eq_some_iff.1 hrun
  obtain ⟨data, hdata, hs⟩ := Option.bind_eq_some_iff.1 hdata
  obtain ⟨s, hexec, hresult⟩ := Option.map_eq_some_iff.1 hs
  obtain ⟨hqueue, hresult⟩ := Prod.mk.inj hresult
  obtain ⟨hchild, hresult⟩ := Prod.mk.inj hresult
  obtain ⟨hgone, hcoin⟩ := Prod.mk.inj hresult
  refine ⟨n, data, s, hn, hdata, hexec, hqueue, hchild, hgone, hcoin, fun hclosed => ?_⟩
  rcases hclosed.fed _ _ hchild not_false _ List.mem_cons_self with hcount | hmakes
  · cases hcoin.symm.trans hcount
  · obtain ⟨hash, tx, -, hfind, hout⟩ := hmakes
    have hhash : rivalTx.hash = hash :=
      (hash_of_mem_outpoints hout).trans (hclosed.keyed hash tx hfind)
    rw [hhash, count_of_find? hfind] at hgone
    cases hgone

end UnemployCoin
