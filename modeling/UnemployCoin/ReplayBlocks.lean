import UnemployCoin.Activation
import UnemployCoin.CoinsCache
import UnemployCoin.CoinsRestored
import UnemployCoin.Node
import UnemployCoin.Lib.Replay
/-!
# Replaying blocks

`ReplayBlocks` and `RollforwardBlock` (`validation.cpp`) bring the coins in the database to the tip
that an interrupted `BatchWrite` (`txdb.cpp`) was to write.  It runs before there is an active
chain, so **no deployment is active** then (`deployments_restart`).
-/

namespace UnemployCoin

open Check

/-- `CCoinsViewDB` with its best block and its head blocks; 0 where there is none. -/
structure ChainstateDB where
  coins : CCoinsView
  bestBlock : uint256
  headBlocks : List uint256

namespace ChainstateDB

/-- The tip that a write starts from; it may be in the middle of replaying. -/
def oldTip (db : ChainstateDB) : uint256 :=
  if db.bestBlock = 0 then
    match db.headBlocks with
    | [_, old] => old
    | _ => 0
  else db.bestBlock

/-- `BatchWrite`, after the batches with some of the entries. -/
def batchWritePart (db : ChainstateDB) (written : List (COutPoint × CCoinsCacheEntry))
    (hashBlock : uint256) : ChainstateDB where
  coins := written.foldl CCoinsViewDB.writeEntry db.coins
  bestBlock := 0
  headBlocks := [hashBlock, db.oldTip]

/-- `BatchWrite`, to its end. -/
def batchWrite (db : ChainstateDB) (mapCoins : StdMap COutPoint CCoinsCacheEntry)
    (hashBlock : uint256) : ChainstateDB where
  coins := mapCoins.entries.foldl CCoinsViewDB.writeEntry db.coins
  bestBlock := hashBlock
  headBlocks := []

end ChainstateDB

/-- The block index and the block files.  An index entry is the chain that ends with it, as hashes,
tip first; the null pointer is the empty chain. -/
structure BlockTree where
  mapBlockIndex : uint256 → Option (List uint256)
  /-- `ReadBlockFromDisk`. -/
  readBlock : uint256 → CBlock
  /-- `UndoReadFromDisk`. -/
  readUndo : uint256 → List CTxUndo
  null : mapBlockIndex 0 = none
  indexed : ∀ hash pindex, mapBlockIndex hash = some pindex → pindex.head? = some hash
  /-- A transaction hash is that of one transaction. -/
  ids : ∀ hash hash', ∀ tx ∈ (readBlock hash).vtx, ∀ tx' ∈ (readBlock hash').vtx,
    tx.hash = tx'.hash → tx = tx'

/-- `GetAncestor` at a height. -/
def getAncestor (pindex : List uint256) (height : ℕ) : List uint256 :=
  pindex.drop (pindex.length - (height + 1))

/-- The loop of `LastCommonAncestor`. -/
def climbToCommon : List uint256 → List uint256 → Option (List uint256)
  | [], [] => some []
  | a :: pa, b :: pb => if a :: pa = b :: pb then some (a :: pa) else climbToCommon pa pb
  | _, _ => none

def lastCommonAncestor (pa pb : List uint256) : Option (List uint256) :=
  if pa.length > pb.length then climbToCommon (getAncestor pa (pb.length - 1)) pb
  else if pb.length > pa.length then climbToCommon pa (getAncestor pb (pa.length - 1))
  else climbToCommon pa pb

/-! ## `ReplayBlocks` -/

/-- `AddCoins` with `check`: **every addition may be an overwrite**. -/
def CCoinsView.addOutputsChecked (view : CCoinsView) (tx : CTransaction) (nHeight : ℕ) :
    Except String CCoinsView :=
  tx.outputs.foldlM (fun view (outpoint, txout) =>
    view.addCoin outpoint ⟨txout, tx.isCoinBase, nHeight⟩ (view.count outpoint)) view

/-- One round of the loop of `RollforwardBlock`, which has no asset cache. -/
def rollforwardTx (env : Env) (nHeight : ℕ) (view : CCoinsView) (tx : CTransaction) :
    Except String CCoinsView :=
  let view := if tx.isCoinBase then view
    else tx.vin.foldl (fun view txin => (view.spendCoin env txin.prevout).1) view
  view.addOutputsChecked tx nHeight

def rollforwardBlock (env : Env) (block : CBlock) (nHeight : ℕ) (view : CCoinsView) :
    Except String CCoinsView :=
  block.vtx.foldlM (rollforwardTx env nHeight) view

section Replay

variable (env : Env) (tree : BlockTree) (st : AssetState)

def rollback : List uint256 → List uint256 → CCoinsView → CAssetsCache →
    Except String (CCoinsView × CAssetsCache)
  | [], pindexFork, cache, assetsCache =>
    if pindexFork = [] then .ok (cache, assetsCache) else .error "null pointer"
  | hash :: pprev, pindexFork, cache, assetsCache =>
    if hash :: pprev = pindexFork then .ok (cache, assetsCache)
    -- Never disconnect the genesis block.
    else if pprev.length > 0 then do
      let s ← disconnectBlock env st pprev.length (tree.readBlock hash) (tree.readUndo hash)
        ((st.passetsdb.blockUndo.find? hash).getD []) cache assetsCache
      rollback pprev pindexFork s.view s.assetsCache
    else rollback pprev pindexFork cache assetsCache

def rollforwardAt (pindexNew : List uint256) (cache : CCoinsView) (nHeight : ℕ) :
    Except String CCoinsView :=
  match getAncestor pindexNew nHeight with
  | [] => .error "null pointer"
  | hash :: _ => rollforwardBlock env (tree.readBlock hash) nHeight cache

def rollforward (pindexNew : List uint256) (nForkHeight : ℕ) (cache : CCoinsView) :
    Except String CCoinsView :=
  (List.range' (nForkHeight + 1) (pindexNew.length - 1 - nForkHeight)).foldlM
    (rollforwardAt env tree pindexNew) cache

/-- The old tip and the fork; both are the null pointer where the old tip is 0. -/
def findFork (hashOld : uint256) (pindexNew : List uint256) :
    Except String (List uint256 × List uint256) :=
  -- The old tip is 0 if this was the first write.
  if hashOld = 0 then .ok ([], [])
  else do
    let pindexOld ← demand (tree.mapBlockIndex hashOld)
      "reorganization from unknown block requested"
    let pindexFork ← demand (lastCommonAncestor pindexOld pindexNew) "assert(pa == pb)"
    require (decide (pindexFork ≠ [])) "assert(pindexFork != nullptr)"
    return (pindexOld, pindexFork)

/-- `ReplayBlocks`, under the deployments that are active. -/
def replayBlocksWith (db : ChainstateDB) : Except String (ChainstateDB × AssetState) :=
  match db.headBlocks with
  | [] => .ok (db, st)
  | [hashNew, hashOld] => do
    let pindexNew ← demand (tree.mapBlockIndex hashNew)
      "reorganization to unknown block requested"
    let (pindexOld, pindexFork) ← findFork tree hashOld pindexNew
    let (cache, assetsCache) ← rollback env tree st pindexOld pindexFork db.coins st.passets
    let cache ← rollforward env tree pindexNew (pindexFork.length - 1) cache
    return (⟨cache, pindexNew.headD 0, []⟩, st.flush assetsCache)
  | _ => .error "unknown inconsistent state"

end Replay

/-- What is deployed when blocks are replayed: the process has just been started, and `chainActive`
is empty. -/
def Env.atRestart (env : Env) (P : VersionBitsParams) : Env :=
  { env with dep := (ActivationState.started []).deployments P }

def replayBlocks (P : VersionBitsParams) (env : Env) (tree : BlockTree) (st : AssetState)
    (db : ChainstateDB) : Except String (ChainstateDB × AssetState) :=
  replayBlocksWith (env.atRestart P) tree st db

theorem stateFor_nil (P : VersionBitsParams) (id : DeploymentPos) :
    stateFor P id [] = .THRESHOLD_DEFINED := by
  rw [stateFor, periodEnd, List.drop_nil, stateAt, List.length_nil, Nat.zero_div]
  rfl

/-- **Nothing is deployed** before there is a chain. -/
theorem deployments_restart (P : VersionBitsParams) :
    (ActivationState.started []).deployments P = .none := by
  have hunset : ∀ id, (isDeployed P (.started []) id).1 = false := by
    intro id
    rw [isDeployed_eq (started_holds []).1, ActivationState.started, stateFor_nil]
    cases id <;> rfl
  rw [ActivationState.deployments]
  simp only [areAssetsDeployed, isRip5Active, areTransferScriptsSizeDeployed,
    areEnforcedValuesDeployed, areCoinbaseCheckAssetsDeployed, hunset]
  rfl

/-! ## A transaction -/

variable {env env' : Env} {view view' v w d d' : CCoinsView} {tx : CTransaction} {nHeight : ℕ}

def CTransaction.spends (tx : CTransaction) (out : COutPoint) : Bool :=
  !tx.isCoinBase && tx.vin.any fun txin => txin.prevout == out

def CTransaction.touched (tx : CTransaction) (nHeight : ℕ) : Set COutPoint :=
  {out | (tx.createdCoin nHeight out).isSome = true ∨ tx.spends out = true}

def CTransaction.redo (tx : CTransaction) (nHeight : ℕ) (coins : COutPoint → Option Coin)
    (out : COutPoint) : Option Coin :=
  (tx.createdCoin nHeight out).or (if tx.spends out then none else coins out)

theorem redo_overwrites (tx : CTransaction) (nHeight : ℕ) :
    Overwrites (tx.touched nHeight) (tx.redo nHeight) where
  inside := fun out hout f g => by
    rw [CTransaction.redo, CTransaction.redo]
    rcases hout with hcreated | hspent
    · obtain ⟨coin, hcoin⟩ := Option.isSome_iff_exists.1 hcreated
      rw [hcoin, Option.some_or, Option.some_or]
    · rw [if_pos hspent, if_pos hspent]
  outside := fun out hout f => by
    obtain ⟨hcreated, hspent⟩ := not_or.1 hout
    rw [CTransaction.redo, Option.not_isSome_iff_eq_none.1 hcreated, Option.none_or,
      if_neg hspent]

theorem spends_coinbase (htx : tx.isCoinBase = true) (out : COutPoint) : tx.spends out = false := by
  rw [CTransaction.spends, htx]
  rfl

/-- **What a transaction makes of the coins**, when it is connected. -/
theorem find?_update {txundo : CTxUndo} (h : v.update env tx nHeight = .ok (w, txundo))
    (out : COutPoint) : w.find? out = tx.redo nHeight v.find? out := by
  by_cases htx : tx.isCoinBase = true
  · rw [find?_addOutputs (update_coinbase htx h), CTransaction.redo, spends_coinbase htx,
      if_neg Bool.false_ne_true]
  · rw [Bool.not_eq_true] at htx
    obtain ⟨v₁, hspend, hadd⟩ := update_other htx h
    rw [find?_addOutputs hadd, find?_spendInputs hspend, CTransaction.redo, CTransaction.spends,
      htx, Bool.not_false, Bool.true_and]

/-! ### Redone -/

theorem values_of_foldlM_addCoin {coin : CTxOut → Coin}
    {overwrite : CCoinsView → COutPoint × CTxOut → Bool} {l : List (COutPoint × CTxOut)}
    (hcoin : ∀ txout, (coin txout).out = txout)
    (h : l.foldlM (fun view e => CCoinsView.addCoin view e.1 (coin e.2) (overwrite view e)) v =
      .ok w) : ∀ e ∈ l, e.2.nValue ≠ -1 := by
  induction l generalizing v with
  | nil => exact fun e hmem => nomatch hmem
  | cons e l ih =>
    rw [List.foldlM_cons, bind_ok] at h
    obtain ⟨v₁, hadd, hrest⟩ := h
    rw [CCoinsView.addCoin, require_bind, hcoin] at hadd
    rw [List.forall_mem_cons]
    exact ⟨bne_iff_ne.1 hadd.1, ih hrest⟩

theorem values_of_addOutputs (h : v.addOutputs tx nHeight = .ok w) :
    ∀ e ∈ tx.outputs, e.2.nValue ≠ -1 :=
  values_of_foldlM_addCoin (fun _ => rfl) (foldlM_of_addOutputs h)

theorem addCoin_count (d : CCoinsView) {coin : Coin} (hvalue : coin.out.nValue ≠ -1)
    (out : COutPoint) :
    ∃ d', d.addCoin out coin (d.count out) = .ok d' ∧ d.addCoin out coin true = .ok d' := by
  have hcheck : (coin.out.nValue != -1) = true := bne_iff_ne.2 hvalue
  have hover : (d.count out || !d.count out) = true := by cases d.count out <;> rfl
  simp only [CCoinsView.addCoin, hcheck, hover, Bool.true_or]
  split
  · exact ⟨d, rfl, rfl⟩
  · exact ⟨d.assign out coin, rfl, rfl⟩

theorem find?_addOutputsChecked (nHeight : ℕ) (d : CCoinsView)
    (hvalues : ∀ e ∈ tx.outputs, e.2.nValue ≠ -1) :
    ∃ d', d.addOutputsChecked tx nHeight = .ok d' ∧
      ∀ out, d'.find? out = (tx.createdCoin nHeight out).or (d.find? out) := by
  have hfold : ∀ {l : List (COutPoint × CTxOut)} (d : CCoinsView),
      (∀ e ∈ l, e.2.nValue ≠ -1) → ∃ d', l.foldlM (fun view e =>
          CCoinsView.addCoin view e.1 (coinOf tx nHeight e.2) (view.count e.1)) d = .ok d' ∧
        l.foldlM (fun view e =>
          CCoinsView.addCoin view e.1 (coinOf tx nHeight e.2) true) d = .ok d' := by
    intro l
    induction l with
    | nil => exact fun d _ => ⟨d, rfl, rfl⟩
    | cons e l ih =>
      intro d hvalues
      rw [List.forall_mem_cons] at hvalues
      have hvalue : (coinOf tx nHeight e.2).out.nValue ≠ -1 := hvalues.1
      obtain ⟨d₁, hcount, htrue⟩ := addCoin_count d hvalue e.1
      obtain ⟨d', hcounts, htrues⟩ := ih d₁ hvalues.2
      refine ⟨d', ?_, ?_⟩
      · rw [List.foldlM_cons, bind_ok]
        exact ⟨d₁, hcount, hcounts⟩
      · rw [List.foldlM_cons, bind_ok]
        exact ⟨d₁, htrue, htrues⟩
  obtain ⟨d', hchecked, hadded⟩ := hfold d hvalues
  exact ⟨d', hchecked, (find?_foldlM_addCoin (fun _ => rfl) (outputs_nodup tx) hadded).1⟩

theorem find?_spendCoin (d : CCoinsView) (outpoint out : COutPoint) :
    (d.spendCoin env outpoint).1.find? out = if outpoint = out then none else d.find? out := by
  rw [CCoinsView.spendCoin]
  cases hfind : d.find? outpoint with
  | none =>
    dsimp only
    split
    · rename_i hout
      rw [← hout, hfind]
    · rfl
  | some coin =>
    dsimp only
    rw [StdMap.find?_erase]
    simp only [eq_comm]

theorem find?_spendCoins (vin : List CTxIn) (d : CCoinsView) (out : COutPoint) :
    (vin.foldl (fun view txin => (view.spendCoin env txin.prevout).1) d).find? out =
      if vin.any fun txin => txin.prevout == out then none else d.find? out := by
  induction vin generalizing d with
  | nil => rfl
  | cons txin vin ih =>
    rw [List.foldl_cons, ih, find?_spendCoin, List.any_cons]
    by_cases hout : txin.prevout = out
    · rw [beq_iff_eq.2 hout, Bool.true_or, if_pos rfl, if_pos hout, ite_self]
    · rw [beq_eq_false_iff_ne.2 hout, Bool.false_or, if_neg hout]

/-- **A transaction is redone** on any coins. -/
theorem rollforwardTx_eq (env : Env) (nHeight : ℕ) (d : CCoinsView)
    (hvalues : ∀ e ∈ tx.outputs, e.2.nValue ≠ -1) :
    ∃ d', rollforwardTx env nHeight d tx = .ok d' ∧
      ∀ out, d'.find? out = tx.redo nHeight d.find? out := by
  obtain ⟨d', hadd, hfind⟩ := find?_addOutputsChecked nHeight
    (if tx.isCoinBase then d
    else tx.vin.foldl (fun view txin => (view.spendCoin env txin.prevout).1) d) hvalues
  refine ⟨d', hadd, fun out => ?_⟩
  rw [hfind, CTransaction.redo, CTransaction.spends]
  cases tx.isCoinBase with
  | true => rfl
  | false =>
    rw [if_neg Bool.false_ne_true, find?_spendCoins]
    rfl

theorem find?_unspendOutputs (env : Env) (tx : CTransaction) (nHeight : ℕ) (d : CCoinsView)
    (out : COutPoint) : (unspendOutputs env tx nHeight d).1.find? out =
      if (tx.createdCoin nHeight out).isSome then none else d.find? out := by
  have hfold : ∀ (l : List (COutPoint × CTxOut)) (s : CCoinsView × Bool),
      (l.foldl (fun s e =>
        if e.2.scriptPubKey.isUnspendable then s
        else
          let r := CCoinsView.spendCoin env s.1 e.1
          (r.1, s.2 && r.2.2 && decide (r.2.1 = some ⟨e.2, tx.isCoinBase, nHeight⟩))) s).1.find?
          out = if (spendableOutput l out).isSome then none else s.1.find? out := by
    intro l
    induction l with
    | nil => exact fun _ => rfl
    | cons e l ih =>
      intro s
      rw [List.foldl_cons, ih]
      by_cases hskip : e.2.scriptPubKey.isUnspendable = true
      · rw [if_pos hskip, spendableOutput_skip hskip]
      · rw [if_neg hskip]
        dsimp only
        rw [find?_spendCoin]
        by_cases hkey : e.1 = out
        · subst hkey
          rw [spendableOutput_self (Bool.not_eq_true _ ▸ hskip), if_pos rfl, ite_self,
            Option.isSome_some, if_pos rfl]
        · rw [if_neg hkey, spendableOutput_ne hkey]
  rw [CTransaction.createdCoin, Option.isSome_map]
  exact hfold tx.outputs (d, true)

theorem find?_restoreInputs (env' : Env) {txundo : CTxUndo} (hv : v.Valid)
    (h : spendInputs env tx.vin v = .ok (w, txundo)) (d : CCoinsView) :
    ∃ d' clean, restoreInputs env' tx.vin txundo d = .ok (d', clean) ∧
      ∀ out, d'.find? out =
        if tx.vin.any fun txin => txin.prevout == out then v.find? out else d.find? out := by
  have hfold : ∀ {vin : List CTxIn} {v : CCoinsView} {txundo : CTxUndo}, v.Valid →
      spendInputs env vin v = .ok (w, txundo) → txundo.length = vin.length ∧ ∃ d' clean,
        (vin.zip txundo).reverse.foldlM (restoreInput env') (d, true) = .ok (d', clean) ∧
        ∀ out, d'.find? out =
          if vin.any fun txin => txin.prevout == out then v.find? out else d.find? out := by
    intro vin
    induction vin with
    | nil =>
      intro v txundo _ h
      cases h
      exact ⟨rfl, d, true, rfl, fun _ => rfl⟩
    | cons txin vin ih =>
      intro v txundo hv h
      obtain ⟨coin, vprevout, rfl, hfind, hrest⟩ := spendInputs_cons h
      obtain ⟨hlength, d₁, clean, hfold, hfound⟩ := ih (hv.erase txin.prevout) hrest
      refine ⟨by rw [List.length_cons, List.length_cons, hlength],
        d₁.assign txin.prevout coin, clean && (!d₁.count txin.prevout && canRestore env' coin),
        ?_, fun out => ?_⟩
      · rw [List.zip_cons_cons, List.reverse_cons, List.foldlM_append, hfold, bind_ok]
        refine ⟨_, rfl, ?_⟩
        rw [List.foldlM_cons, restoreInput, applyTxInUndo_eq (hv _ _ hfind)]
        rfl
      · rw [StdMap.find?_assign, List.any_cons]
        by_cases hout : out = txin.prevout
        · rw [if_pos hout, hout, beq_self_eq_true, Bool.true_or, if_pos rfl, hfind]
        · rw [if_neg hout, hfound, StdMap.find?_erase_ne hout,
            beq_eq_false_iff_ne.2 (Ne.symm hout), Bool.false_or]
  obtain ⟨hlength, d', clean, hrestored, hfind⟩ := hfold hv h
  refine ⟨d', clean, ?_, hfind⟩
  rw [restoreInputs, hlength, decide_eq_true rfl]
  exact hrestored

/-- The undo data of a transaction, as `DisconnectBlock` has it. -/
def undoOf (tx : CTransaction) (txundo : CTxUndo) : Option CTxUndo :=
  if tx.isCoinBase then none else some txundo

/-- **A transaction is undone** on any coins: what it changed is as before it. -/
theorem undoTx_replaces (env' : Env) {txundo : CTxUndo} (hv : v.Valid)
    (hfresh : tx.isCoinBase = true → ∀ out, (tx.createdCoin nHeight out).isSome = true →
      v.find? out = none)
    (h : v.update env tx nHeight = .ok (w, txundo)) (d : CCoinsView) (clean : Bool) :
    ∃ d' clean', disconnectTxCoins env' nHeight (d, clean) (tx, undoOf tx txundo) =
        .ok (d', clean') ∧
      Replaces (tx.touched nHeight) v.find? d.find? d'.find? := by
  by_cases htx : tx.isCoinBase = true
  · refine ⟨(unspendOutputs env' tx nHeight d).1, clean && (unspendOutputs env' tx nHeight d).2,
      ?_, ?_, ?_⟩
    · rw [disconnectTxCoins, undoOf, if_pos htx]
    · intro out hout
      rw [CTransaction.touched, Set.mem_ofPred_eq, spends_coinbase htx] at hout
      have hcreated := hout.resolve_right Bool.false_ne_true
      rw [find?_unspendOutputs, if_pos hcreated, hfresh htx out hcreated]
    · intro out hout
      rw [find?_unspendOutputs, if_neg (not_or.1 hout).1]
  · rw [Bool.not_eq_true] at htx
    obtain ⟨v₁, hspend, hadd⟩ := update_other htx h
    obtain ⟨d', restored, hrestore, hfind⟩ := find?_restoreInputs env' hv hspend
      (unspendOutputs env' tx nHeight d).1
    have hspends : ∀ out, (tx.vin.any fun txin => txin.prevout == out) = tx.spends out := by
      intro out
      rw [CTransaction.spends, htx, Bool.not_false, Bool.true_and]
    simp only [hspends, find?_unspendOutputs] at hfind
    refine ⟨d', clean && (unspendOutputs env' tx nHeight d).2 && restored, ?_, ?_, ?_⟩
    · rw [disconnectTxCoins, undoOf, htx, if_neg Bool.false_ne_true]
      dsimp only
      rw [hrestore]
      rfl
    · intro out hout
      rw [hfind]
      by_cases hspent : tx.spends out = true
      · rw [if_pos hspent]
      · -- The coin is new, so there was none before.
        have hcreated := hout.resolve_right hspent
        obtain ⟨coin, hcoin⟩ := Option.isSome_iff_exists.1 hcreated
        have hnone := fresh_of_addOutputs hadd htx hcoin
        rw [find?_spendInputs hspend, hspends, if_neg hspent] at hnone
        rw [if_neg hspent, if_pos hcreated, hnone]
    · intro out hout
      obtain ⟨hcreated, hspent⟩ := not_or.1 hout
      rw [hfind, if_neg hspent, if_neg hcreated]

/-! ## A block -/

def touchedBy (nHeight : ℕ) (txs : List CTransaction) : Set COutPoint :=
  {out | ∃ tx ∈ txs, out ∈ tx.touched nHeight}

def redoAll (nHeight : ℕ) (txs : List CTransaction) (coins : COutPoint → Option Coin) :
    COutPoint → Option Coin :=
  txs.foldl (fun coins tx => tx.redo nHeight coins) coins

theorem redoAll_overwrites (nHeight : ℕ) (txs : List CTransaction) :
    Overwrites (touchedBy nHeight txs) (redoAll nHeight txs) :=
  Overwrites.foldl (fun tx => redo_overwrites tx nHeight) txs

theorem touchedBy_cons (nHeight : ℕ) (tx : CTransaction) (txs : List CTransaction) :
    touchedBy nHeight (tx :: txs) = touchedBy nHeight txs ∪ tx.touched nHeight := by
  rw [Set.union_comm]
  ext out
  simp only [touchedBy, Set.mem_ofPred_eq, Set.mem_union, List.mem_cons, exists_eq_or_imp]

/-- **What a block makes of the coins**, when it is connected. -/
theorem find?_updateAll {txs : List CTransaction} {vtxundo : List CTxUndo}
    (h : v.updateAll env nHeight txs = .ok (w, vtxundo)) :
    w.find? = redoAll nHeight txs v.find? := by
  induction txs generalizing v vtxundo with
  | nil =>
    cases h
    rfl
  | cons tx txs ih =>
    obtain ⟨v₁, txundo, vtxundo', hupdate, hrest, -⟩ := updateAll_cons h
    rw [ih hrest, funext (find?_update hupdate)]
    rfl

theorem values_of_updateAll {txs : List CTransaction} {vtxundo : List CTxUndo}
    (h : v.updateAll env nHeight txs = .ok (w, vtxundo)) :
    ∀ tx ∈ txs, ∀ e ∈ tx.outputs, e.2.nValue ≠ -1 := by
  induction txs generalizing v vtxundo with
  | nil => exact fun _ hmem => nomatch hmem
  | cons tx txs ih =>
    obtain ⟨v₁, txundo, vtxundo', hupdate, hrest, -⟩ := updateAll_cons h
    rw [List.forall_mem_cons]
    refine ⟨?_, ih hrest⟩
    by_cases htx : tx.isCoinBase = true
    · exact values_of_addOutputs (update_coinbase htx hupdate)
    · obtain ⟨v₀, -, hadd⟩ := update_other (Bool.not_eq_true _ ▸ htx) hupdate
      exact values_of_addOutputs hadd

/-- **A block is redone** on any coins. -/
theorem rollforwardBlock_eq (env : Env) (nHeight : ℕ) {block : CBlock}
    (hvalues : ∀ tx ∈ block.vtx, ∀ e ∈ tx.outputs, e.2.nValue ≠ -1) (d : CCoinsView) :
    ∃ d', rollforwardBlock env block nHeight d = .ok d' ∧
      d'.find? = redoAll nHeight block.vtx d.find? := by
  rw [rollforwardBlock]
  generalize block.vtx = txs at hvalues
  induction txs generalizing d with
  | nil => exact ⟨d, rfl, rfl⟩
  | cons tx txs ih =>
    rw [List.forall_mem_cons] at hvalues
    obtain ⟨d₁, hstep, hfind⟩ := rollforwardTx_eq env nHeight d hvalues.1
    obtain ⟨d', hrest, hfinds⟩ := ih d₁ hvalues.2
    refine ⟨d', ?_, ?_⟩
    · rw [List.foldlM_cons, bind_ok]
      exact ⟨d₁, hstep, hrest⟩
    · rw [hfinds, funext hfind]
      rfl

theorem find?_before {txundo : CTxUndo} (h : v.update env tx nHeight = .ok (w, txundo)) :
    ∀ out ∉ tx.touched nHeight, v.find? out = w.find? out := by
  intro out hout
  rw [find?_update h, (redo_overwrites tx nHeight).outside out hout]

theorem undoTxs_replaces (env' : Env) {txs : List CTransaction} {vtxundo : List CTxUndo}
    (hv : v.Valid) (hheight : 0 < nHeight) (htxs : ∀ tx ∈ txs, tx.isCoinBase = false)
    (h : v.updateAll env nHeight txs = .ok (w, vtxundo)) (d : CCoinsView) (clean : Bool) :
    vtxundo.length = txs.length ∧ ∃ d' clean',
      (txs.zip (vtxundo.map some)).reverse.foldlM (disconnectTxCoins env' nHeight) (d, clean) =
        .ok (d', clean') ∧
      Replaces (touchedBy nHeight txs) v.find? d.find? d'.find? := by
  induction txs generalizing v vtxundo with
  | nil =>
    cases h
    refine ⟨rfl, d, clean, rfl, ?_, fun _ _ => rfl⟩
    rintro out ⟨tx, hmem, -⟩
    cases hmem
  | cons tx txs ih =>
    rw [List.forall_mem_cons] at htxs
    obtain ⟨v₁, txundo, vtxundo', hupdate, hrest, rfl⟩ := updateAll_cons h
    obtain ⟨hlength, d₁, clean₁, hfold, hreplaced⟩ :=
      ih (hv.update hheight hupdate) htxs.2 hrest
    have hcoinbase : tx.isCoinBase ≠ true := by
      rw [htxs.1]
      exact Bool.false_ne_true
    obtain ⟨d', clean', hstep, hhead⟩ :=
      undoTx_replaces env' hv (fun htx => absurd htx hcoinbase) hupdate d₁ clean₁
    rw [undoOf, if_neg hcoinbase] at hstep
    rw [if_neg hcoinbase]
    refine ⟨by rw [List.length_cons, List.length_cons, hlength], d', clean', ?_, ?_⟩
    · rw [List.map_cons, List.zip_cons_cons, List.reverse_cons, List.foldlM_append, hfold, bind_ok]
      refine ⟨_, rfl, ?_⟩
      rw [List.foldlM_cons, hstep]
      rfl
    · rw [touchedBy_cons]
      exact hreplaced.trans hhead (find?_before hupdate)

def CBlock.Fresh (block : CBlock) (nHeight : ℕ) (view : CCoinsView) : Prop :=
  ∀ coinbase ∈ block.vtx.take 1, ∀ out, (coinbase.createdCoin nHeight out).isSome = true →
    view.find? out = none

/-- **A block is undone** on any coins, where no assets are deployed: what it changed is as before
it. -/
theorem disconnectBlock_replaces (st : AssetState) (vUndoData : List (Bytes × CBlockAssetUndo))
    {block : CBlock} {vtxundo : List CTxUndo} (hassets : env'.dep.areAssetsDeployed = false)
    (hblock : block.CoinbaseFirst) (hv : v.Valid) (hheight : 0 < nHeight)
    (hfresh : block.Fresh nHeight v)
    (h : v.updateAll env nHeight block.vtx = .ok (w, vtxundo)) (d : CCoinsView)
    (cache : CAssetsCache) :
    ∃ s, disconnectBlock env' st nHeight block vtxundo vUndoData d cache = .ok s ∧
      s.assetsCache = cache ∧
      Replaces (touchedBy nHeight block.vtx) v.find? d.find? s.view.find? := by
  obtain ⟨coinbase, txs, hvtx, hcoinbase, htxs⟩ := hblock
  rw [CBlock.Fresh, hvtx] at hfresh
  rw [hvtx] at h
  obtain ⟨v₁, txundo, vtxundo', hupdate, hrest, rfl⟩ := updateAll_cons h
  obtain ⟨hlength, d₁, clean₁, hfold, hreplaced⟩ :=
    undoTxs_replaces env' (hv.update hheight hupdate) hheight htxs hrest d true
  obtain ⟨d', clean', hstep, hhead⟩ := undoTx_replaces env' hv
    (fun _ => hfresh coinbase List.mem_cons_self) hupdate d₁ clean₁
  rw [undoOf, if_pos hcoinbase] at hstep
  have hskip : ∀ l : List CTransaction,
      l.foldlM (fun cache tx => downdateAssets env' st vUndoData tx cache) cache = .ok cache := by
    intro l
    induction l with
    | nil => rfl
    | cons tx l ih =>
      rw [List.foldlM_cons, downdateAssets, hassets, if_neg Bool.false_ne_true]
      exact ih
  refine ⟨⟨d', cache, clean'⟩, ?_, rfl, ?_⟩
  · rw [if_pos hcoinbase, disconnectBlock, require_bind, hvtx, disconnectTxs_ok]
    refine ⟨by rw [List.length_cons, hlength, decide_eq_true rfl], ?_, hskip _⟩
    rw [List.zip_cons_cons, List.reverse_cons, List.foldlM_append, hfold, bind_ok]
    refine ⟨_, rfl, ?_⟩
    rw [List.foldlM_cons, hstep]
    rfl
  · rw [hvtx, touchedBy_cons]
    exact hreplaced.trans hhead (find?_before hupdate)

end UnemployCoin
