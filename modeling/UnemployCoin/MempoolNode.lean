import UnemployCoin.MempoolSweeps
import UnemployCoin.CoinsRestored
/-!
# A node with its mempool

What the validation of a node (`validation.cpp`) does with the mempool: it offers transactions,
takes out what a block confirms, and after a reorganisation resubmits the transactions of the blocks
that are gone.  Until then these are in the queue of `DisconnectedBlockTransactions`.

The scripts, the fees and the limits of the mempool decide what is accepted and what is evicted, so
what they decide comes with each step.
-/

namespace UnemployCoin

open Check

/-- A node with its mempool, and the `DisconnectedBlockTransactions` in order of insertion. -/
structure MempoolNode where
  node : Node
  pool : CTxMemPool
  queuedTx : List CTransaction

/-- What decides about a transaction besides the coins and the assets. -/
structure PoolRules where
  dep : Deployments
  /-- The other checks: standard, final, the fees, the scripts. -/
  passes : CTxMemPool → CTransaction → Bool
  /-- What `LimitMempoolSize` picks. -/
  limits : CTransaction → Bool

inductive MempoolEvent where
  | accept (rules : PoolRules) (tx : CTransaction)
  /-- `removeForReorg`, `Expire` and `TrimToSize`. -/
  | evict (picks : CTransaction → Bool)
  /-- `ConnectTip`, with any data about the assets of the block. -/
  | connectTip (ctx : TipContext) (block : CBlock) (data : CAssetsCache)
  | disconnectTip (ctx : TipContext)
  | dropQueued
  /-- A round of `UpdateMempoolForReorg`. -/
  | resubmit (fAddToMempool : Bool) (rules : PoolRules)
  | dump
  | read (lookup : CacheRead)

namespace CTxMemPool

variable (pool : CTxMemPool)

/-- `setConflicts`: the transactions that spend what a new one spends. -/
def setConflicts (tx : CTransaction) : List uint256 :=
  tx.vin.filterMap fun txin => (pool.nextTx txin.prevout).map CTransaction.hash

/-- `allConflicting`: these and their descendants. -/
def allConflicting (tx : CTransaction) : List uint256 :=
  (pool.setConflicts tx).foldl pool.calculateDescendants []

/-- The transactions that a test picks, and their descendants. -/
def picked (picks : CTransaction → Bool) : List uint256 :=
  ((pool.txs.filter picks).map CTransaction.hash).foldl pool.calculateDescendants []

/-- What accepting a transaction reads at the tip of a node.  A transaction with an ancestor among
`setConflicts` is refused; so its inputs are no outputs of `allConflicting`. -/
def contextOf (node : Node) (rules : PoolRules) (tx : CTransaction) : AcceptContext where
  dep := rules.dep
  st := node.st
  coinsTip := node.view
  nSpendHeight := node.height + 1
  passes pool' tx' :=
    !(tx.vin.any fun txin => (pool.allConflicting tx).contains txin.prevout.hash) &&
      rules.passes pool' tx'
  allConflicting := pool.allConflicting tx
  trimmed := ((pool.removeStaged (pool.allConflicting tx)).addUnchecked tx).picked rules.limits

end CTxMemPool

/-- `addTransaction`; the queue has one transaction for each hash. -/
def addTransaction (queuedTx : List CTransaction) (tx : CTransaction) : List CTransaction :=
  if (queuedTx.map CTransaction.hash).contains tx.hash then queuedTx else queuedTx ++ [tx]

namespace MempoolNode

variable (env : Env) (s : MempoolNode)

def context (rules : PoolRules) (tx : CTransaction) : CTxMemPool.AcceptContext :=
  s.pool.contextOf s.node rules tx

def acceptToMemoryPool (rules : PoolRules) (tx : CTransaction) : CTxMemPool × Verdict :=
  s.pool.acceptToMemoryPool ((s.context rules tx).env env) (s.context rules tx) tx

/-- A block changes the tip, what it has confirmed or made invalid leaves the mempool, and nothing
of it has to be resubmitted. -/
def connectTip (ctx : TipContext) (block : CBlock) (data : CAssetsCache) : Option MempoolNode :=
  (s.node.connectTip env { ctx with mempool := s.pool.state } block).map fun node =>
    { node := node
      pool := s.pool.connectTip { env with dep := ctx.dep } node.st node.view block.vtx data
      queuedTx := s.queuedTx.filter fun tx => !(block.vtx.map CTransaction.hash).contains tx.hash }

/-- The transactions of the block are queued, last one first. -/
def disconnectTip (ctx : TipContext) : Option MempoolNode :=
  (s.node.disconnectTip env ctx).map fun node =>
    { node := node
      pool := s.pool
      queuedTx := (s.node.chainActive.head?.elim [] CBlock.vtx).reverse.foldl addTransaction
        s.queuedTx }

def dropQueued : Option MempoolNode :=
  match s.queuedTx with
  | [] => none
  | tx :: queuedTx => some { s with pool := s.pool.removeRecursive tx, queuedTx := queuedTx }

def bypassLimits (rules : PoolRules) : PoolRules := { rules with limits := fun _ => false }

/-- `removeRecursive` of a transaction that is refused.  The children that it finds there once it
is stored are linked to it only afterwards, by `UpdateTransactionsFromBlock`, so it goes **alone**
when it has just been stored. -/
def removeRefused (pool : CTxMemPool) (tx : CTransaction) : CTxMemPool :=
  if pool.mapTx.count tx.hash && !s.pool.mapTx.count tx.hash then pool.removeStaged [tx.hash]
  else pool.removeRecursive tx

/-- The mempool once a transaction of the queue is accepted again, or removed with what depends on
it. -/
def resubmitted (fAddToMempool : Bool) (rules : PoolRules) (tx : CTransaction) : CTxMemPool :=
  if !fAddToMempool || tx.isCoinBase then s.pool.removeRecursive tx
  else
    match s.acceptToMemoryPool env (bypassLimits rules) tx with
    | (pool, .ok ()) => pool
    | (pool, .error _) => s.removeRefused pool tx

/-- A round of `UpdateMempoolForReorg`, which takes the queue from its end. -/
def resubmit (fAddToMempool : Bool) (rules : PoolRules) : Option MempoolNode :=
  s.queuedTx.getLast?.map fun tx =>
    { s with
      pool := s.resubmitted env fAddToMempool rules tx
      queuedTx := s.queuedTx.dropLast }

end MempoolNode

def mempoolNode (env : Env) : Machine MempoolNode MempoolEvent where
  step s
    | .accept rules tx => some { s with pool := (s.acceptToMemoryPool env rules tx).1 }
    | .evict picks => some { s with pool := s.pool.removeStaged (s.pool.picked picks) }
    | .connectTip ctx block data => s.connectTip env ctx block data
    | .disconnectTip ctx => s.disconnectTip env ctx
    | .dropQueued => s.dropQueued
    | .resubmit fAddToMempool rules => s.resubmit env fAddToMempool rules
    | .dump => some { s with node := { s.node with st := s.node.st.dumpCacheToDatabase env } }
    | .read lookup => some { s with node := { s.node with st := s.node.st.read env lookup } }

/-! ## The coins of the tip -/

variable {env : Env} {view v w : CCoinsView} {tx : CTransaction} {nHeight : ℕ} {o : COutPoint}

theorem count_update {txundo : CTxUndo} (h : v.update env tx nHeight = .ok (w, txundo))
    (hkept : ∀ txin ∈ tx.vin, txin.prevout ≠ o)
    (hthere : v.count o = true ∨ (tx.createdCoin nHeight o).isSome = true) : w.count o = true := by
  have hadded : ∀ v₁ : CCoinsView, v₁.addOutputs tx nHeight = .ok w → v₁.find? o = v.find? o →
      w.count o = true := by
    intro v₁ hadd hfind
    rw [StdMap.count, find?_addOutputs hadd, Option.isSome_or, hfind, Bool.or_eq_true]
    exact hthere.symm
  cases htx : tx.isCoinBase with
  | true => exact hadded v (update_coinbase htx h) rfl
  | false =>
    obtain ⟨v₁, hspend, hadd⟩ := update_other htx h
    have hunspent : (tx.vin.any fun txin => txin.prevout == o) = false := by
      rw [List.any_eq_false]
      exact fun txin hmem => beq_eq_false_iff_ne.2 (hkept txin hmem) ▸ Bool.false_ne_true
    refine hadded v₁ hadd ?_
    rw [find?_spendInputs hspend, hunspent, if_neg Bool.false_ne_true]

theorem count_updateAll {txs : List CTransaction} {vtxundo : List CTxUndo}
    (h : v.updateAll env nHeight txs = .ok (w, vtxundo))
    (hkept : ∀ b ∈ txs, ∀ txin ∈ b.vin, txin.prevout ≠ o)
    (hthere : v.count o = true ∨ ∃ b ∈ txs, (b.createdCoin nHeight o).isSome = true) :
    w.count o = true := by
  induction txs generalizing v vtxundo with
  | nil =>
    cases h
    refine hthere.resolve_right ?_
    rintro ⟨b, hb, -⟩
    cases hb
  | cons tx txs ih =>
    rw [List.forall_mem_cons] at hkept
    obtain ⟨v₁, txundo, vtxundo', hupdate, hrest, -⟩ := updateAll_cons h
    refine ih hrest hkept.2 ?_
    rcases hthere with hcount | ⟨b, hb, hcreated⟩
    · exact Or.inl (count_update hupdate hkept.1 (Or.inl hcount))
    · rcases List.mem_cons.1 hb with rfl | hb
      · exact Or.inl (count_update hupdate hkept.1 (Or.inr hcreated))
      · exact Or.inr ⟨b, hb, hcreated⟩

/-- **The coins after a block**: those before it and those it creates, unless it spends them. -/
theorem count_connectTip {n n' : Node} {ctx : TipContext} {block : CBlock}
    (h : n.connectTip env ctx block = some n')
    (hkept : ∀ b ∈ block.vtx, ∀ txin ∈ b.vin, txin.prevout ≠ o)
    (hthere : n.view.count o = true ∨ ∃ b ∈ block.vtx, ∃ txout, (o, txout) ∈ b.outputs ∧
      txout.scriptPubKey.isUnspendable = false) : n'.view.count o = true := by
  obtain ⟨s, hs, hgenesis, hview, -, -⟩ := connectTip_eq_some h
  have hgenesis' : block.hash ≠ (env.withTip ctx).params.hashGenesisBlock := hgenesis
  obtain ⟨-, hupdates⟩ := updateAll_of_connectBlock hgenesis' hs
  rw [hview]
  refine count_updateAll hupdates hkept (hthere.imp_right ?_)
  rintro ⟨b, hb, txout, hout, hspendable⟩
  exact ⟨b, hb, createdCoin_isSome hout hspendable _⟩

theorem count_unspendOutputs (hout : o ∉ tx.outpoints) (hcount : view.count o = true) :
    (unspendOutputs env tx nHeight view).1.count o = true := by
  refine List.foldlRecOn (motive := fun r : CCoinsView × Bool => r.1.count o = true)
    tx.outputs _ hcount ?_
  intro r hr e he
  have hne : o ≠ e.1 := by
    rintro rfl
    exact hout (List.mem_map_of_mem he)
  dsimp only
  split
  · exact hr
  · rw [CCoinsView.spendCoin]
    split
    · exact hr
    · rename_i coin hcoin
      simp only [StdMap.count_erase, hr, Bool.and_true]
      simpa using hne

theorem addCoin_of_applyTxInUndo {undo : Coin} {out : COutPoint} {r : CCoinsView × Bool}
    (h : applyTxInUndo env view undo out = .ok r) :
    ∃ coin, view.addCoin out coin (!!view.count out) = .ok r.1 := by
  rw [applyTxInUndo] at h
  dsimp only at h
  split at h
  · simp only [bind_ok] at h
    obtain ⟨alternate, -, coin, -, view', hadd, h⟩ := h
    cases h
    exact ⟨coin, hadd⟩
  · simp only [bind_ok] at h
    obtain ⟨coin, -, view', hadd, h⟩ := h
    cases h
    exact ⟨coin, hadd⟩

theorem count_restoreInputs {vin : List CTxIn} {txundo : CTxUndo} {r : CCoinsView × Bool}
    (h : restoreInputs env vin txundo view = .ok r) (hcount : view.count o = true) :
    r.1.count o = true := by
  rw [restoreInputs, require_bind] at h
  refine foldlM_invariant (I := fun r : CCoinsView × Bool => r.1.count o = true) ?_ hcount h.2
  rintro r ⟨txin, undo⟩ r' - hr hstep
  simp only [bind_ok] at hstep
  obtain ⟨⟨view', clean⟩, happly, hstep⟩ := hstep
  cases hstep
  obtain ⟨coin, hadd⟩ := addCoin_of_applyTxInUndo happly
  rw [CCoinsView.addCoin, require_bind] at hadd
  obtain ⟨-, hadd⟩ := hadd
  split at hadd
  · cases hadd
    exact hr
  · simp only [require_bind, pure_ok] at hadd
    rw [← hadd.2, StdMap.count_assign, hr, Bool.or_true]

/-- **The coins after a block is undone**: those before, but the outputs of the block. -/
theorem count_disconnectTip {n n' : Node} {ctx : TipContext}
    (h : n.disconnectTip env ctx = some n') (hcount : n.view.count o = true)
    (hout : ∀ b ∈ n.chainActive.head?.elim [] CBlock.vtx, o ∉ b.outpoints) :
    n'.view.count o = true := by
  obtain ⟨block, vtxundo, s, hchain, hs, -, hview, -⟩ := disconnectTip_eq_some h
  rw [hchain] at hout
  rw [disconnectBlock, require_bind] at hs
  obtain ⟨-, hs⟩ := hs
  rw [hview]
  refine foldlM_invariant (I := fun r : DisconnectState => r.view.count o = true) ?_ hcount hs
  rintro r ⟨tx, txundo⟩ r' hmem hr hstep
  have htx : o ∉ tx.outpoints := hout tx (List.of_mem_zip (List.mem_reverse.1 hmem)).1
  have hunspent : (unspendOutputs (env.withTip ctx) tx n.height r.view).1.count o = true :=
    count_unspendOutputs htx hr
  have hcoins := (disconnectTx_ok.1 hstep).1
  rw [disconnectTxCoins] at hcoins
  cases txundo with
  | none =>
    have heq : (unspendOutputs (env.withTip ctx) tx n.height r.view).1 = r'.view :=
      congrArg Prod.fst (Except.ok.inj hcoins)
    rw [← heq]
    exact hunspent
  | some txundo =>
    simp only at hcoins
    cases hrestore : restoreInputs (env.withTip ctx) tx.vin txundo
        (unspendOutputs (env.withTip ctx) tx n.height r.view).1 with
    | error reason =>
      rw [hrestore] at hcoins
      cases hcoins
    | ok restored =>
      rw [hrestore] at hcoins
      have heq : restored.1 = r'.view := congrArg Prod.fst (Except.ok.inj hcoins)
      rw [← heq]
      exact count_restoreInputs hrestore hunspent

end UnemployCoin
