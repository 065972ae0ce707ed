import UnemployCoin.Node
/-!
# Blocks and the mempool

`CheckTxAssets` refuses a reissue of an asset that `mapReissuedAssets` has for another
transaction.  The mempool fills this map, and connecting a block reads it.
-/

namespace UnemployCoin

open Check

variable {env : Env} {st : AssetState} {cache : CAssetsCache} {view : CCoinsView}
  {tx : CTransaction} {names : Option (StdMap Bytes uint256)} {m : StdMap Bytes uint256}

/-- An output reissues an asset that is mapped to another transaction. -/
def outputConflict (env : Env) (m : StdMap Bytes uint256) (tx : CTransaction) (txout : CTxOut) :
    Bool :=
  match reissueAssetFromScript env txout.scriptPubKey with
  | some (reissue, _) =>
    match m.find? reissue.strName with
    | some hash => hash != tx.hash
    | none => false
  | none => false

def txConflict (env : Env) (m : StdMap Bytes uint256) (tx : CTransaction) : Bool :=
  tx.vout.any (outputConflict env m tx)

/-- Some transaction of a block does.  The coinbase and the genesis block are not checked. -/
def blockConflict (env : Env) (m : StdMap Bytes uint256) (block : CBlock) : Bool :=
  block.hash != env.params.hashGenesisBlock &&
    block.vtx.any fun tx => !tx.isCoinBase && txConflict env m tx

theorem outputConflict_of_no_reissue {txout : CTxOut}
    (h : txout.scriptPubKey.isAssetScript.map AssetScriptType.nType ≠ some .TX_REISSUE_ASSET) :
    outputConflict env m tx txout = false := by
  rw [outputConflict]
  cases hrec : reissueAssetFromScript env txout.scriptPubKey with
  | none => rfl
  | some record =>
    obtain ⟨i, hi, -⟩ := recordFromScript_eq_some hrec
    obtain hs := assetDataIndex_eq_some hi
    rw [hs] at h
    exact absurd rfl h

theorem scanReissue_mempool {s r : AssetScan} {txout : CTxOut} :
    (∃ s', scanReissue env m tx s txout = .ok s') ↔
      (∃ r', scanReissue env ∅ tx r txout = .ok r') ∧ outputConflict env m tx txout = false := by
  simp only [scanReissue, outputConflict, demand_bind]
  cases hrec : reissueAssetFromScript env txout.scriptPubKey with
  | none => simp
  | some record =>
    obtain ⟨reissue, address⟩ := record
    cases hm : m.find? reissue.strName with
    | none => simp [hm, pure_ok]
    | some hash => by_cases hhash : hash = tx.hash <;> simp [hm, pure_ok, hhash]

theorem scanAssetOutput_mempool {s r : AssetScan} {txout : CTxOut} :
    (∃ s', scanAssetOutput env st cache m tx s txout = .ok s') ↔
      (∃ r', scanAssetOutput env st cache ∅ tx r txout = .ok r') ∧
        outputConflict env m tx txout = false := by
  simp only [scanAssetOutput, require_bind, onlyIf_bind, exists_and_left, and_assoc]
  refine and_congr_right fun _ => and_congr_right fun _ => ?_
  split
  · rename_i htype
    rw [outputConflict_of_no_reissue (by rw [htype]; simp)]
    simp only [scanTransferOutput, demand_bind, unit_bind, pure_ok, and_true]
    constructor
    · rintro ⟨s', record, hrec, h₁, h₂, -⟩
      exact ⟨_, record, hrec, h₁, h₂, rfl⟩
    · rintro ⟨s', record, hrec, h₁, h₂, -⟩
      exact ⟨_, record, hrec, h₁, h₂, rfl⟩
  · exact scanReissue_mempool
  · rename_i hother
    rw [outputConflict_of_no_reissue hother]
    exact ⟨fun _ => ⟨⟨r, rfl⟩, rfl⟩, fun _ => ⟨s, rfl⟩⟩

theorem foldlM_scanAssetOutput_mempool {l : List CTxOut} {s r : AssetScan} :
    (∃ s', l.foldlM (scanAssetOutput env st cache m tx) s = .ok s') ↔
      (∃ r', l.foldlM (scanAssetOutput env st cache ∅ tx) r = .ok r') ∧
        l.any (outputConflict env m tx) = false := by
  induction l generalizing s r with
  | nil => simp [pure_ok]
  | cons txout l ih =>
    simp only [List.foldlM_cons, bind_ok, List.any_cons, Bool.or_eq_false_iff]
    constructor
    · rintro ⟨s', s₁, h₁, hrest⟩
      obtain ⟨⟨r₁, hr₁⟩, hout⟩ := (scanAssetOutput_mempool (r := r)).1 ⟨s₁, h₁⟩
      obtain ⟨⟨r', hr'⟩, hl⟩ := (ih (r := r₁)).1 ⟨s', hrest⟩
      exact ⟨⟨r', r₁, hr₁, hr'⟩, hout, hl⟩
    · rintro ⟨⟨r', r₁, hr₁, hr'⟩, hout, hl⟩
      obtain ⟨s₁, h₁⟩ := (scanAssetOutput_mempool (s := s)).2 ⟨⟨r₁, hr₁⟩, hout⟩
      obtain ⟨s', hs'⟩ := (ih (s := s₁)).2 ⟨⟨r', hr'⟩, hl⟩
      exact ⟨s', s₁, h₁, hs'⟩

theorem checkTxAssets_mempool :
    (∃ v, checkTxAssets env st cache tx view names m = .ok v) ↔
      (∃ v, checkTxAssets env st cache tx view names ∅ = .ok v) ∧ txConflict env m tx = false := by
  simp only [checkTxAssets_ok]
  constructor
  · rintro ⟨v, hinputs, totalInputs, hin, s, hout, hctx, htotals, -⟩
    obtain ⟨⟨r, hr⟩, hconflict⟩ := (foldlM_scanAssetOutput_mempool (r := ⟨∅, []⟩)).1 ⟨s, hout⟩
    have hsame : r.totalOutputs = s.totalOutputs := by
      rw [foldlM_scanAssetOutput hr, foldlM_scanAssetOutput hout]
    rw [← hsame] at htotals
    exact ⟨⟨_, hinputs, totalInputs, hin, r, hr, hctx, htotals, rfl⟩, hconflict⟩
  · rintro ⟨⟨v, hinputs, totalInputs, hin, r, hr, hctx, htotals, -⟩, hconflict⟩
    obtain ⟨s, hs⟩ := (foldlM_scanAssetOutput_mempool (s := ⟨∅, []⟩)).2 ⟨⟨r, hr⟩, hconflict⟩
    have hsame : s.totalOutputs = r.totalOutputs := by
      rw [foldlM_scanAssetOutput hs, foldlM_scanAssetOutput hr]
    rw [← hsame] at htotals
    exact ⟨_, hinputs, totalInputs, hin, s, hs, hctx, htotals, rfl⟩

/-! ## One block -/

def BlockContext.withoutMempool (ctx : BlockContext) : BlockContext :=
  { ctx with mempool := .empty }

variable {ctx : BlockContext} {s s' : ConnectState} {blockHash : uint256} {fees : CAmount}

theorem no_conflict_of_not_active (h : checkAssetsNotActive tx = .ok ()) :
    txConflict env m tx = false := by
  rw [checkAssetsNotActive, forEach_ok] at h
  rw [txConflict, List.any_eq_false]
  intro txout hmem
  have hout := h txout hmem
  rw [require_bind, Bool.not_eq_true', Option.isSome_eq_false_iff,
    Option.isNone_iff_eq_none] at hout
  rw [outputConflict_of_no_reissue (by rw [hout.1]; simp)]
  exact Bool.false_ne_true

theorem checkConnectTx_mempool :
    checkConnectTx env st ctx s tx = .ok fees ↔
      checkConnectTx env st ctx.withoutMempool s tx = .ok fees ∧
        txConflict env ctx.mempool.mapReissuedAssets tx = false := by
  rw [checkConnectTx_ok, checkConnectTx_ok]
  constructor
  · rintro ⟨txfee, hfee, hrange, hinactive, hactive, hlocks, rfl⟩
    cases hdep : env.dep.areAssetsDeployed with
    | false =>
      exact ⟨⟨txfee, hfee, hrange, fun _ => hinactive hdep, fun h => (nomatch h), hlocks, rfl⟩,
        no_conflict_of_not_active (hinactive hdep)⟩
    | true =>
      obtain ⟨hok, hconflict⟩ := checkTxAssets_mempool.1 (hactive hdep)
      exact ⟨⟨txfee, hfee, hrange, fun h => (nomatch h), fun _ => hok, hlocks, rfl⟩, hconflict⟩
  · rintro ⟨⟨txfee, hfee, hrange, hinactive, hactive, hlocks, rfl⟩, hconflict⟩
    exact ⟨txfee, hfee, hrange, hinactive,
      fun hdep => checkTxAssets_mempool.2 ⟨hactive hdep, hconflict⟩, hlocks, rfl⟩

theorem feesAfter_mempool :
    feesAfter env st ctx s tx = .ok fees ↔
      feesAfter env st ctx.withoutMempool s tx = .ok fees ∧
        (!tx.isCoinBase && txConflict env ctx.mempool.mapReissuedAssets tx) = false := by
  rw [feesAfter, feesAfter]
  cases htx : tx.isCoinBase with
  | true => simp
  | false =>
    rw [if_neg Bool.false_ne_true, if_neg Bool.false_ne_true, Bool.not_false, Bool.true_and]
    exact checkConnectTx_mempool

theorem connectTx_mempool :
    connectTx env st ctx blockHash s tx = .ok s' ↔
      connectTx env st ctx.withoutMempool blockHash s tx = .ok s' ∧
        (!tx.isCoinBase && txConflict env ctx.mempool.mapReissuedAssets tx) = false := by
  rw [connectTx, connectTx, bind_ok, bind_ok]
  constructor
  · rintro ⟨nFees, hfees, hrest⟩
    obtain ⟨hok, hconflict⟩ := feesAfter_mempool.1 hfees
    exact ⟨⟨nFees, hok, hrest⟩, hconflict⟩
  · rintro ⟨⟨nFees, hok, hrest⟩, hconflict⟩
    exact ⟨nFees, feesAfter_mempool.2 ⟨hok, hconflict⟩, hrest⟩

theorem foldlM_connectTx_mempool {l : List CTransaction} :
    l.foldlM (connectTx env st ctx blockHash) s = .ok s' ↔
      l.foldlM (connectTx env st ctx.withoutMempool blockHash) s = .ok s' ∧
        (l.any fun tx => !tx.isCoinBase && txConflict env ctx.mempool.mapReissuedAssets tx) =
          false := by
  induction l generalizing s with
  | nil => simp
  | cons tx l ih =>
    simp only [List.foldlM_cons, bind_ok, List.any_cons, Bool.or_eq_false_iff]
    constructor
    · rintro ⟨s₁, h₁, hrest⟩
      obtain ⟨hok, htx⟩ := connectTx_mempool.1 h₁
      obtain ⟨hl, hconflict⟩ := ih.1 hrest
      exact ⟨⟨s₁, hok, hl⟩, htx, hconflict⟩
    · rintro ⟨⟨s₁, hok, hl⟩, htx, hconflict⟩
      exact ⟨s₁, connectTx_mempool.2 ⟨hok, htx⟩, ih.2 ⟨hl, hconflict⟩⟩

theorem connectBlock_mempool {block : CBlock} :
    connectBlock env st ctx block view cache = .ok s ↔
      connectBlock env st ctx.withoutMempool block view cache = .ok s ∧
        blockConflict env ctx.mempool.mapReissuedAssets block = false := by
  rw [connectBlock, connectBlock, unit_bind, unit_bind, blockConflict]
  by_cases hgenesis : block.hash = env.params.hashGenesisBlock
  · simp only [hgenesis, if_true, bne_self_eq_false, Bool.false_and, and_true]
    rfl
  · have hbne : (block.hash != env.params.hashGenesisBlock) = true := by simpa using hgenesis
    simp only [if_neg hgenesis, hbne, Bool.true_and, bind_ok]
    constructor
    · rintro ⟨hblock, s₁, h₁, hrest⟩
      obtain ⟨hok, hconflict⟩ := foldlM_connectTx_mempool.1 h₁
      exact ⟨⟨hblock, s₁, hok, hrest⟩, hconflict⟩
    · rintro ⟨⟨hblock, s₁, hok, hrest⟩, hconflict⟩
      exact ⟨hblock, s₁, foldlM_connectTx_mempool.2 ⟨hok, hconflict⟩, hrest⟩

/-- Whether `ConnectBlock` accepts a block. -/
def isAccepted (env : Env) (st : AssetState) (ctx : BlockContext) (block : CBlock)
    (view : CCoinsView) (cache : CAssetsCache) : Bool :=
  (connectBlock env st ctx block view cache).isOk

theorem isAccepted_mempool {block : CBlock} :
    isAccepted env st ctx block view cache =
      (isAccepted env st ctx.withoutMempool block view cache &&
        !blockConflict env ctx.mempool.mapReissuedAssets block) := by
  have hok : ∀ v : Except String ConnectState, v.isOk = true ↔ ∃ s, v = .ok s := by
    intro v
    cases v <;> simp [Except.isOk, Except.toBool]
  rw [Bool.eq_iff_iff, Bool.and_eq_true, Bool.not_eq_true', isAccepted, isAccepted, hok, hok]
  constructor
  · rintro ⟨s, hs⟩
    obtain ⟨hwithout, hconflict⟩ := connectBlock_mempool.1 hs
    exact ⟨⟨s, hwithout⟩, hconflict⟩
  · rintro ⟨⟨s, hwithout⟩, hconflict⟩
    exact ⟨s, connectBlock_mempool.2 ⟨hwithout, hconflict⟩⟩

/-- **Two mempools, one verdict.**  A block gets the same verdict with two mempools exactly when
both of them or neither conflicts with its reissues, or it is refused whatever they hold. -/
theorem verdict_eq_iff {block : CBlock} {m₁ m₂ : MempoolState} :
    isAccepted env st { ctx with mempool := m₁ } block view cache =
        isAccepted env st { ctx with mempool := m₂ } block view cache ↔
      (isAccepted env st ctx.withoutMempool block view cache = true →
        blockConflict env m₁.mapReissuedAssets block =
          blockConflict env m₂.mapReissuedAssets block) := by
  have h₁ : isAccepted env st { ctx with mempool := m₁ } block view cache =
      (isAccepted env st ctx.withoutMempool block view cache &&
        !blockConflict env m₁.mapReissuedAssets block) := isAccepted_mempool
  have h₂ : isAccepted env st { ctx with mempool := m₂ } block view cache =
      (isAccepted env st ctx.withoutMempool block view cache &&
        !blockConflict env m₂.mapReissuedAssets block) := isAccepted_mempool
  rw [h₁, h₂]
  cases isAccepted env st ctx.withoutMempool block view cache with
  | false => simp
  | true => simp

/-- All rules are active and the burn address of a reissue can be paid. -/
def reissueEnv : Env := { unenforcedEnv with dep := .all }

/-- A block with the reissue of `ROOT`. -/
def reissueBlock : CBlock := ⟨50, [coinbaseTx 9 (5000 * COIN), reissueTx 0]⟩

/-- The mempool has another reissue of `ROOT`. -/
def reissueMempool : MempoolState :=
  ⟨∅, StdMap.assign ∅ 77 (ascii "ROOT"), StdMap.assign ∅ (ascii "ROOT") 77⟩

theorem reissueBlock_verdicts :
    isAccepted reissueEnv rootState ⟨sampleRules, 200, .empty⟩ reissueBlock rootView .empty =
        true ∧
      isAccepted reissueEnv rootState ⟨sampleRules, 200, reissueMempool⟩ reissueBlock rootView
        .empty = false := by
  decide +kernel

end UnemployCoin
