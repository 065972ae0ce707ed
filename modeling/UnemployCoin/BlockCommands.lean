import UnemployCoin.Authorization
import UnemployCoin.CommandFrames
/-!
# The commands of a block

Connecting a block stages its commands in the local cache, in order, and disconnecting it undoes
them, those of the last transaction first.  Nothing else that a block does changes tags or
freezes, so the part of the local cache that holds them is made by the commands alone.
-/

namespace UnemployCoin

open Check CAssetsCache

variable {env : Env} {st : AssetState} {cache cache' : CAssetsCache} {tx : CTransaction}

def commandsOf (env : Env) (txs : List CTransaction) : List NullCommand :=
  txs.flatMap (nullCommands env)

theorem commandsOf_append (txs txs' : List CTransaction) :
    commandsOf env (txs ++ txs') = commandsOf env txs ++ commandsOf env txs' := by
  rw [commandsOf, List.flatMap_append, commandsOf, commandsOf]

theorem commandsOf_singleton (tx : CTransaction) : commandsOf env [tx] = nullCommands env tx := by
  rw [commandsOf, List.flatMap_singleton]

variable {command : NullCommand}

theorem mem_commandsOf_reverse {txs : List CTransaction} :
    command ∈ commandsOf env txs.reverse ↔ command ∈ commandsOf env txs := by
  simp only [commandsOf, List.mem_flatMap, List.mem_reverse]

theorem addCommand_commandPart (h : cache.commandPart = cache'.commandPart)
    (command : NullCommand) :
    (cache.addCommand command).commandPart = (cache'.addCommand command).commandPart := by
  obtain ⟨m, a, r, v, q, ra, rg, add, rem⟩ := cache
  obtain ⟨m', a', r', v', q', ra', rg', add', rem'⟩ := cache'
  simp only [commandPart, Prod.mk.injEq] at h
  obtain ⟨rfl, rfl, rfl, rfl, rfl⟩ := h
  cases command with
  | qualifier name address type =>
    simp only [addCommand, addQualifierAddress, updateRootQualifiers]
    split
    · split <;> rfl
    · rfl
  | restricted => rfl
  | global => rfl

theorem removeCommand_commandPart (h : cache.commandPart = cache'.commandPart)
    (command : NullCommand) :
    (cache.removeCommand command).commandPart = (cache'.removeCommand command).commandPart := by
  obtain ⟨m, a, r, v, q, ra, rg, add, rem⟩ := cache
  obtain ⟨m', a', r', v', q', ra', rg', add', rem'⟩ := cache'
  simp only [commandPart, Prod.mk.injEq] at h
  obtain ⟨rfl, rfl, rfl, rfl, rfl⟩ := h
  cases command with
  | qualifier name address type =>
    simp only [removeCommand, removeQualifierAddress, updateRootQualifiers]
    split
    · split <;> rfl
    · rfl
  | restricted => rfl
  | global => rfl

theorem foldl_commandPart {f : CAssetsCache → NullCommand → CAssetsCache}
    (hf : ∀ {c c' : CAssetsCache}, c.commandPart = c'.commandPart → ∀ command,
      (f c command).commandPart = (f c' command).commandPart)
    (h : cache.commandPart = cache'.commandPart) (commands : List NullCommand) :
    (commands.foldl f cache).commandPart = (commands.foldl f cache').commandPart := by
  induction commands generalizing cache cache' with
  | nil => exact h
  | cons command commands ih =>
    rw [List.foldl_cons, List.foldl_cons]
    exact ih (hf h command)

/-! ## Connecting a block -/

theorem isNullAsset_of_nullCommand {out : CTxOut}
    (h : nullCommand env out = some command) : out.scriptPubKey.isNullAsset = true := by
  rw [CScript.isNullAsset]
  rw [nullCommand] at h
  split at h
  · rename_i hdata
    rw [hdata, Bool.true_or, Bool.true_or]
  · split at h
    · rename_i hglobal
      rw [hglobal, Bool.or_true, Bool.true_or]
    · cases h

/-- A command that some output carries, and whose output passed the check at the tip. -/
def CommandChecked (env : Env) (st : AssetState) (command : NullCommand) : Prop :=
  env.dep.areAssetsDeployed = true ∧ ∃ cache out, nullCommand env out = some command ∧
    checkNullAssetOutput env st cache out = .ok ()

variable {ctx : BlockContext}

theorem commandChecked_of_connectTx {blockHash : uint256}
    {s s' : ConnectState} (hnotcoinbase : tx.isCoinBase = false)
    (h : connectTx env st ctx blockHash s tx = .ok s')
    (hcommand : command ∈ nullCommands env tx) : CommandChecked env st command := by
  obtain ⟨out, hout, hread⟩ := List.mem_filterMap.1 hcommand
  have hnull := isNullAsset_of_nullCommand hread
  have hfees := (connectTx_ok h).1
  rw [feesAfter, hnotcoinbase, if_neg Bool.false_ne_true] at hfees
  obtain ⟨-, -, -, hinactive, hactive, -⟩ := checkConnectTx_ok.1 hfees
  cases hdep : env.dep.areAssetsDeployed with
  | false =>
    have hnone := hinactive hdep
    rw [checkAssetsNotActive, forEach_ok] at hnone
    have hnot := hnone out hout
    simp only [require_bind, require_ok, hnull, Bool.not_true, Bool.false_eq_true] at hnot
    exact hnot.2.elim
  | true =>
    obtain ⟨v, hv⟩ := hactive hdep
    obtain ⟨-, -, -, scan, hscan, -⟩ := checkTxAssets_ok.1 hv
    obtain ⟨a, a', hround⟩ := foldlM_forall_mem hscan out hout
    simp only [scanAssetOutput, require_bind, onlyIf_bind] at hround
    exact ⟨hdep, _, out, hread, hround.2.1 hnull⟩

theorem ofFlag_of_verifyChange {α : Type} {flag : Int8} {fCurrent : Bool}
    {alreadySet notSet : String} {on off : α} (hne : on ≠ off)
    (h : verifyChange flag fCurrent alreadySet notSet = .ok ()) :
    (ofFlag flag on off = on ∨ ofFlag flag on off = off) ∧
      (ofFlag flag on off = on ↔ fCurrent = false) := by
  simp only [verifyChange, unit_bind, require_ok, Bool.or_eq_true, beq_iff_eq, bne_iff_ne,
    Bool.not_eq_true'] at h
  obtain ⟨-, hset, hnotset⟩ := h
  rw [ofFlag]
  by_cases hflag : flag = 0
  · rw [if_neg (not_not.2 hflag)]
    have hcurrent : fCurrent = true := hnotset.resolve_left (not_not.2 hflag)
    refine ⟨Or.inr rfl, iff_of_false hne.symm ?_⟩
    rw [hcurrent]
    exact Bool.true_eq_false_eq_False
  · rw [if_pos hflag]
    exact ⟨Or.inl rfl, iff_of_true rfl (hset.resolve_left hflag)⟩

theorem nullCommands_of_coinbaseCheck {fCheckDuplicateInputs fMempoolCheck fBlockCheck : Bool}
    (hdep : env.dep.areCoinbaseCheckAssetsDeployed = true) (hcoinbase : tx.isCoinBase = true)
    (h : checkTransaction env tx fCheckDuplicateInputs fMempoolCheck fBlockCheck = .ok ()) :
    nullCommands env tx = [] := by
  simp only [checkTransaction, require_bind] at h
  obtain ⟨-, -, -, h⟩ := h
  obtain ⟨s, -, h⟩ := bind_ok.1 h
  simp only [unit_bind] at h
  obtain ⟨-, -, hinputs, -⟩ := h
  simp only [checkInputsFormat, require_bind, onlyIf_bind, hcoinbase, require_ok, hdep,
    Bool.not_true, Bool.false_or, forall_const, List.all_eq_true] at hinputs
  obtain ⟨-, ⟨-, hnone⟩, -⟩ := hinputs
  rw [nullCommands, List.filterMap_eq_nil_iff]
  intro out hout
  cases hread : nullCommand env out with
  | none => rfl
  | some command =>
    have hclean := hnone out hout
    rw [isNullAsset_of_nullCommand hread, Bool.or_true] at hclean
    cases hclean

/-- The coinbase of a block is checked for commands, or carries none. -/
def CoinbaseWithoutCommands (env : Env) (block : CBlock) : Prop :=
  env.dep.areCoinbaseCheckAssetsDeployed = true ∨
    ∀ tx ∈ block.vtx, tx.isCoinBase = true → nullCommands env tx = []

variable {block : CBlock}

theorem commandChecked_of_round {s s' : ConnectState}
    (hcoinbase : CoinbaseWithoutCommands env block)
    (hblock : checkBlock env ctx.rules block = .ok ()) (htx : tx ∈ block.vtx)
    (h : connectTx env st ctx block.hash s tx = .ok s')
    (hcommand : command ∈ nullCommands env tx) : CommandChecked env st command := by
  obtain ⟨-, -, -, -, -, htxs⟩ := checkBlock_ok hblock
  cases hbase : tx.isCoinBase with
  | false => exact commandChecked_of_connectTx hbase h hcommand
  | true =>
    have hnone : nullCommands env tx = [] := by
      rcases hcoinbase with hdep | hnone
      · exact nullCommands_of_coinbaseCheck hdep hbase (htxs tx htx)
      · exact hnone tx htx hbase
    rw [hnone] at hcommand
    cases hcommand

theorem updateAssets_commandPart {nHeight : ℤ} {blockHash : uint256}
    (hdep : nullCommands env tx ≠ [] → env.dep.areAssetsDeployed = true)
    (h : cache.commandPart = cache'.commandPart) :
    (updateAssets env st nHeight blockHash tx cache).1.commandPart =
      ((nullCommands env tx).foldl addCommand cache').commandPart := by
  rw [updateAssets]
  split
  · exact foldl_commandPart addCommand_commandPart (addAssets_commandPart.trans h) _
  · rename_i hnot
    have hnone : nullCommands env tx = [] := by
      by_contra hsome
      exact hnot (hdep hsome)
    rw [hnone]
    exact h

variable {view : CCoinsView}

theorem commandChecked_of_connectBlock
    {s : ConnectState} (hgenesis : block.hash ≠ env.params.hashGenesisBlock)
    (hcoinbase : CoinbaseWithoutCommands env block)
    (h : connectBlock env st ctx block view .empty = .ok s)
    (hcommand : command ∈ commandsOf env block.vtx) : CommandChecked env st command := by
  obtain ⟨hblock, hfold, -⟩ := connectBlock_ok hgenesis h
  obtain ⟨tx, htx, hmem⟩ := List.mem_flatMap.1 hcommand
  obtain ⟨t, t', hround⟩ := foldlM_forall_mem hfold tx htx
  exact commandChecked_of_round hcoinbase hblock htx hround hmem

/-- **Connecting a block.**  Its commands are staged in the local cache. -/
theorem connectBlock_commandPart
    {s : ConnectState} (hgenesis : block.hash ≠ env.params.hashGenesisBlock)
    (hcoinbase : CoinbaseWithoutCommands env block)
    (h : connectBlock env st ctx block view .empty = .ok s) :
    s.assetsCache.commandPart =
      ((commandsOf env block.vtx).foldl addCommand .empty).commandPart := by
  obtain ⟨hblock, hfold, -⟩ := connectBlock_ok hgenesis h
  refine foldlM_prefix_invariant (I := fun txs (s : ConnectState) =>
    s.assetsCache.commandPart = ((commandsOf env txs).foldl addCommand .empty).commandPart)
    ?_ rfl hfold
  rintro pre tx post s s' hvtx hstaged hround
  have htx : tx ∈ block.vtx := by rw [hvtx]; simp
  rw [(connectTx_ok hround).2.2.1, commandsOf_append, commandsOf_singleton, List.foldl_append]
  refine updateAssets_commandPart (fun hsome => ?_) hstaged
  obtain ⟨command, hcommand⟩ := List.exists_mem_of_ne_nil _ hsome
  exact (commandChecked_of_round hcoinbase hblock htx hround hcommand).1

theorem downdateAssets_commandPart {vUndoData : List (Bytes × CBlockAssetUndo)} {c : CAssetsCache}
    (hcache : cache.commandPart = c.commandPart)
    (hdep : nullCommands env tx ≠ [] →
      env.dep.areAssetsDeployed = true ∧ env.dep.areRestrictedAssetsDeployed = true)
    (h : downdateAssets env st vUndoData tx cache = .ok cache') :
    cache'.commandPart = ((nullCommands env tx).foldl removeCommand c).commandPart := by
  have hnone : (env.dep.areAssetsDeployed = false ∨
      env.dep.areRestrictedAssetsDeployed = false) → nullCommands env tx = [] := by
    intro hnot
    by_contra hsome
    obtain ⟨hassets, hrestricted⟩ := hdep hsome
    rw [hassets, hrestricted] at hnot
    simp at hnot
  rw [downdateAssets] at h
  cases hassets : env.dep.areAssetsDeployed with
  | false =>
    rw [hassets, if_neg Bool.false_ne_true] at h
    cases h
    rw [hnone (Or.inl hassets)]
    exact hcache
  | true =>
    rw [hassets, if_pos rfl, bind_ok] at h
    obtain ⟨c', hc', h⟩ := h
    rw [unit_bind, onlyIf_bind, pure_ok] at h
    obtain ⟨-, -, rfl⟩ := h
    have hkept := (removeAssets_commandPart hc').trans hcache
    cases hrestricted : env.dep.areRestrictedAssetsDeployed with
    | false =>
      rw [if_neg Bool.false_ne_true, hnone (Or.inr hrestricted)]
      exact hkept
    | true =>
      rw [if_pos rfl]
      exact foldl_commandPart removeCommand_commandPart hkept _

/-- **Disconnecting a block.**  Its commands are undone in the local cache, those of the last
transaction first. -/
theorem disconnectBlock_commandPart {nHeight : ℕ} {vtxundo : List CTxUndo}
    {vUndoData : List (Bytes × CBlockAssetUndo)} {s : DisconnectState}
    (hdep : commandsOf env block.vtx ≠ [] →
      env.dep.areAssetsDeployed = true ∧ env.dep.areRestrictedAssetsDeployed = true)
    (h : disconnectBlock env st nHeight block vtxundo vUndoData view .empty = .ok s) :
    s.assetsCache.commandPart =
      ((commandsOf env block.vtx.reverse).foldl removeCommand .empty).commandPart := by
  refine disconnectBlock_history (I := fun done (cache : CAssetsCache) =>
    cache.commandPart = ((commandsOf env done).foldl removeCommand .empty).commandPart) ?_ rfl h
  intro pre tx post cache cache' hsplit hstaged hround
  have hmem : tx ∈ block.vtx := by
    rw [← List.mem_reverse, hsplit]
    simp
  rw [commandsOf_append, commandsOf_singleton, List.foldl_append]
  refine downdateAssets_commandPart hstaged (fun hsome => hdep fun hnil => ?_) hround
  exact hsome (List.flatMap_eq_nil_iff.1 hnil tx hmem)

end UnemployCoin
