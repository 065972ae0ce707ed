import UnemployCoin.Node
import Mathlib.Algebra.Order.BigOperators.Group.List
/-!
# Supply

The native value of all unspent outputs along a chain of connected blocks, in exact integers.
-/

namespace UnemployCoin

open Check StdMap

/-! ## The value of a view -/

def utxoValue (view : CCoinsView) : ℤ := view.sum fun _ coin => coin.out.nValue.toInt

def CoinsNonneg (view : CCoinsView) : Prop :=
  ∀ outpoint coin, view.find? outpoint = some coin → 0 ≤ coin.out.nValue.toInt

variable {env : Env} {st : AssetState} {view view' : CCoinsView} {outpoint : COutPoint}
  {coin : Coin} {tx : CTransaction} {nHeight : ℕ}

theorem coinsNonneg_empty : CoinsNonneg ∅ := by
  intro outpoint coin hcoin
  rw [find?_empty] at hcoin
  cases hcoin

theorem CoinsNonneg.erase (h : CoinsNonneg view) (outpoint : COutPoint) :
    CoinsNonneg (view.erase outpoint) := by
  intro o coin hcoin
  rw [find?_erase] at hcoin
  split at hcoin
  · cases hcoin
  · exact h o coin hcoin

theorem CoinsNonneg.assign (h : CoinsNonneg view) (hcoin : 0 ≤ coin.out.nValue.toInt) :
    CoinsNonneg (view.assign outpoint coin) := by
  intro o c hc
  rw [find?_assign] at hc
  split at hc
  · cases hc
    exact hcoin
  · exact h o c hc

theorem coinValue_nonneg (h : CoinsNonneg view) (o : COutPoint) : 0 ≤ coinValue view o := by
  rw [coinValue]
  cases hcoin : view.find? o with
  | none => exact Int.le_refl 0
  | some coin => exact h o coin hcoin

theorem utxoValue_erase (view : CCoinsView) (o : COutPoint) :
    utxoValue view = coinValue view o + utxoValue (view.erase o) := by
  rw [coinValue]
  cases hcoin : view.find? o with
  | none => rw [erase_eq_self hcoin, Option.map_none, Option.getD_none, Int.zero_add]
  | some coin => exact sum_erase _ hcoin

theorem utxoValue_assign_le (h : CoinsNonneg view) :
    utxoValue (view.assign outpoint coin) ≤ coin.out.nValue.toInt + utxoValue view := by
  have hassign : utxoValue (view.assign outpoint coin) =
      coin.out.nValue.toInt + utxoValue (view.erase outpoint) := sum_assign _ _ _ _
  have herase := utxoValue_erase view outpoint
  have hnonneg := coinValue_nonneg h outpoint
  omega

theorem coinValue_erase {o : COutPoint} (h : o ≠ outpoint) :
    coinValue (view.erase outpoint) o = coinValue view o := by
  rw [coinValue, find?_erase_ne h, coinValue]

theorem sum_coinValue_le (h : CoinsNonneg view) {l : List COutPoint} (hnodup : l.Nodup) :
    0 ≤ (l.map (coinValue view)).sum ∧ (l.map (coinValue view)).sum ≤ utxoValue view := by
  induction l generalizing view with
  | nil =>
    refine ⟨Int.le_refl 0, ?_⟩
    rw [List.map_nil, List.sum_nil, utxoValue, StdMap.sum]
    refine List.sum_nonneg fun n hn => ?_
    obtain ⟨⟨o, coin⟩, hmem, rfl⟩ := List.mem_map.1 hn
    exact h o coin (mem_entries.1 hmem)
  | cons o l ih =>
    rw [List.nodup_cons] at hnodup
    have hrest := ih (h.erase o) hnodup.2
    have hsame : l.map (coinValue (view.erase o)) = l.map (coinValue view) :=
      List.map_congr_left fun o' ho' => coinValue_erase fun heq => hnodup.1 (heq ▸ ho')
    have herase := utxoValue_erase view o
    have hnonneg := coinValue_nonneg h o
    rw [hsame] at hrest
    rw [List.map_cons, List.sum_cons]
    omega

theorem addCoin_utxoValue {possible_overwrite : Bool} (h : CoinsNonneg view)
    (hcoin : 0 ≤ coin.out.nValue.toInt)
    (hadd : view.addCoin outpoint coin possible_overwrite = .ok view') :
    CoinsNonneg view' ∧ utxoValue view' ≤ coin.out.nValue.toInt + utxoValue view := by
  rw [CCoinsView.addCoin, require_bind] at hadd
  obtain ⟨-, hadd⟩ := hadd
  split at hadd
  · cases hadd
    exact ⟨h, by omega⟩
  · rw [require_bind, pure_ok] at hadd
    obtain ⟨-, rfl⟩ := hadd
    exact ⟨h.assign hcoin, utxoValue_assign_le h⟩

theorem foldlM_addCoin_utxoValue {l : List (COutPoint × CTxOut)} (h : CoinsNonneg view)
    (hl : ∀ e ∈ l, 0 ≤ e.2.nValue.toInt)
    (hadd : l.foldlM (fun view e =>
      view.addCoin e.1 ⟨e.2, tx.isCoinBase, nHeight⟩ tx.isCoinBase) view = .ok view') :
    CoinsNonneg view' ∧ utxoValue view' ≤ valueOut (l.map Prod.snd) + utxoValue view := by
  induction l generalizing view with
  | nil =>
    cases hadd
    exact ⟨h, by rw [List.map_nil, valueOut_nil, Int.zero_add]⟩
  | cons e l ih =>
    rw [List.forall_mem_cons] at hl
    rw [List.foldlM_cons, bind_ok] at hadd
    obtain ⟨view₁, h₁, hrest⟩ := hadd
    obtain ⟨hnonneg₁, hvalue₁⟩ := addCoin_utxoValue h hl.1 h₁
    obtain ⟨hnonneg, hvalue⟩ := ih hnonneg₁ hl.2 hrest
    refine ⟨hnonneg, ?_⟩
    rw [List.map_cons, valueOut_cons]
    simp only at hvalue₁
    omega

theorem addOutputs_utxoValue (h : CoinsNonneg view)
    (hout : ∀ txout ∈ tx.vout, 0 ≤ txout.nValue.toInt)
    (hadd : view.addOutputs tx nHeight = .ok view') :
    CoinsNonneg view' ∧ utxoValue view' ≤ valueOut tx.vout + utxoValue view := by
  have hl : ∀ e ∈ tx.outputs, 0 ≤ e.2.nValue.toInt := by
    intro e he
    have hmem := List.mem_map_of_mem (f := Prod.snd) he
    rw [outputs_map_snd] at hmem
    exact hout e.2 hmem
  have := foldlM_addCoin_utxoValue h hl hadd
  rwa [outputs_map_snd] at this

theorem spendInputs_utxoValue {vin : List CTxIn} {txundo : CTxUndo} (h : CoinsNonneg view)
    (hspend : spendInputs env vin view = .ok (view', txundo)) :
    CoinsNonneg view' ∧
      utxoValue view' + (vin.map fun txin => coinValue view txin.prevout).sum = utxoValue view ∧
      ∀ txin ∈ vin, view.count txin.prevout = true := by
  induction vin generalizing view view' txundo with
  | nil =>
    cases hspend
    exact ⟨h, by rw [List.map_nil, List.sum_nil, Int.add_zero], fun _ hmem => nomatch hmem⟩
  | cons txin vin ih =>
    rw [spendInputs] at hspend
    split at hspend
    · rename_i view₁ coin hcoin
      obtain ⟨hfind, rfl⟩ := spendCoin_eq hcoin
      rw [bind_ok] at hspend
      obtain ⟨⟨view₂, vprevout⟩, hrest, heq⟩ := hspend
      cases heq
      obtain ⟨hnonneg, hvalue, hcount⟩ := ih (h.erase txin.prevout) hrest
      -- An input of the rest is still there, so it is not the coin spent here.
      have hne : ∀ txin' ∈ vin, txin'.prevout ≠ txin.prevout := by
        intro txin' hmem heq
        have := hcount txin' hmem
        rw [heq, count_erase, decide_eq_true rfl] at this
        cases this
      have hsame : (vin.map fun txin' => coinValue (view.erase txin.prevout) txin'.prevout) =
          vin.map fun txin' => coinValue view txin'.prevout :=
        List.map_congr_left fun txin' hmem => coinValue_erase (hne txin' hmem)
      refine ⟨hnonneg, ?_, List.forall_mem_cons.2 ⟨count_of_find? hfind, ?_⟩⟩
      · have herase := utxoValue_erase view txin.prevout
        rw [hsame] at hvalue
        rw [List.map_cons, List.sum_cons]
        omega
      · intro txin' hmem
        have := hcount txin' hmem
        rw [count_erase, Bool.and_eq_true] at this
        exact this.2
    · cases hspend

/-! ## One transaction -/

/-- The value that the outputs of a transaction have beyond what `GetValueOut` counts, at most. -/
def uncountedValue (dep : Deployments) (tx : CTransaction) : ℤ :=
  if dep.areEnforcedValuesDeployed then 0 else valueWhere isReissueOutput tx.vout

variable {ctx : BlockContext} {s s' : ConnectState} {blockHash : uint256} {fees : CAmount}

theorem update_utxoValue {txundo : CTxUndo} (h : CoinsNonneg view)
    (hout : ∀ txout ∈ tx.vout, 0 ≤ txout.nValue.toInt)
    (hupdate : view.update env tx nHeight = .ok (view', txundo)) :
    CoinsNonneg view' ∧ utxoValue view' + (if tx.isCoinBase then 0 else valueIn view tx) ≤
      valueOut tx.vout + utxoValue view := by
  rw [CCoinsView.update, bind_ok] at hupdate
  simp only [CCoinsView.spendTx] at hupdate
  obtain ⟨⟨view₁, undo⟩, hspend, hupdate⟩ := hupdate
  simp only [bind_ok, pure_ok] at hupdate
  obtain ⟨view₂, hadd, heq⟩ := hupdate
  cases heq
  cases htx : tx.isCoinBase with
  | true =>
    rw [htx, if_pos rfl] at hspend
    cases hspend
    obtain ⟨hnonneg, hvalue⟩ := addOutputs_utxoValue h hout hadd
    refine ⟨hnonneg, ?_⟩
    rw [if_pos rfl]
    omega
  | false =>
    rw [htx, if_neg Bool.false_ne_true] at hspend
    obtain ⟨hnonneg₁, hvalue₁, -⟩ := spendInputs_utxoValue h hspend
    obtain ⟨hnonneg, hvalue⟩ := addOutputs_utxoValue hnonneg₁ hout hadd
    refine ⟨hnonneg, ?_⟩
    rw [if_neg Bool.false_ne_true, valueIn]
    omega

/-- What the loop over the transactions keeps. -/
structure FeesExact (s : ConnectState) : Prop where
  nonneg : CoinsNonneg s.view
  range : moneyRange s.nFees = true

theorem checkTransaction_nonneg (h : checkTransaction env tx true false true = .ok ()) :
    ∀ txout ∈ tx.vout, 0 ≤ txout.nValue.toInt := by
  intro txout hmem
  obtain ⟨s, s', hscan⟩ := scanOutput_of_checkTransaction h txout hmem
  exact nValue_nonneg hscan

theorem connectTx_utxoValue (hs : FeesExact s) (hnotcoinbase : tx.isCoinBase = false)
    (htx : checkTransaction env tx true false true = .ok ())
    (h : connectTx env st ctx blockHash s tx = .ok s') :
    FeesExact s' ∧ utxoValue s'.view + s'.nFees.toInt ≤
      utxoValue s.view + s.nFees.toInt + uncountedValue env.dep tx := by
  obtain ⟨hfees, ⟨txundo, hupdate⟩, -⟩ := connectTx_ok h
  rw [feesAfter, hnotcoinbase, if_neg Bool.false_ne_true] at hfees
  obtain ⟨txfee, hfee, hrange, -, -, -, hsum⟩ := checkConnectTx_ok.1 hfees
  obtain ⟨hexact, hfeerange⟩ := checkTxInputs_exact hfee
  obtain ⟨hnonneg, hvalue⟩ := update_utxoValue hs.nonneg (checkTransaction_nonneg htx) hupdate
  have hcounted := valueOut_le_counted (scanOutput_of_checkTransaction htx)
    env.dep.areEnforcedValuesDeployed
  have hadd := toInt_add_of_moneyRange hs.range hfeerange
  rw [hnotcoinbase, if_neg Bool.false_ne_true] at hvalue
  rw [hsum] at hrange hadd
  refine ⟨⟨hnonneg, hrange⟩, ?_⟩
  rw [hadd, uncountedValue]
  omega

theorem connectCoinbase_utxoValue (hs : FeesExact s) (hcoinbase : tx.isCoinBase = true)
    (htx : checkTransaction env tx true false true = .ok ())
    (h : connectTx env st ctx blockHash s tx = .ok s') :
    FeesExact s' ∧ s'.nFees = s.nFees ∧
      utxoValue s'.view ≤ utxoValue s.view + valueOut tx.vout := by
  obtain ⟨hfees, ⟨txundo, hupdate⟩, -⟩ := connectTx_ok h
  rw [feesAfter, hcoinbase, if_pos rfl] at hfees
  obtain ⟨hnonneg, hvalue⟩ := update_utxoValue hs.nonneg (checkTransaction_nonneg htx) hupdate
  rw [hcoinbase, if_pos rfl] at hvalue
  have hsame : s'.nFees = s.nFees := (Except.ok.inj hfees).symm
  exact ⟨⟨hnonneg, by rw [hsame]; exact hs.range⟩, hsame, by omega⟩

theorem foldlM_connectTx_utxoValue {l : List CTransaction} (hs : FeesExact s)
    (hl : ∀ tx ∈ l, tx.isCoinBase = false ∧ checkTransaction env tx true false true = .ok ())
    (h : l.foldlM (connectTx env st ctx blockHash) s = .ok s') :
    FeesExact s' ∧ utxoValue s'.view + s'.nFees.toInt ≤
      utxoValue s.view + s.nFees.toInt + (l.map (uncountedValue env.dep)).sum := by
  induction l generalizing s with
  | nil =>
    cases h
    exact ⟨hs, by rw [List.map_nil, List.sum_nil]; omega⟩
  | cons tx l ih =>
    rw [List.forall_mem_cons] at hl
    rw [List.foldlM_cons, bind_ok] at h
    obtain ⟨s₁, h₁, hrest⟩ := h
    obtain ⟨hs₁, hvalue₁⟩ := connectTx_utxoValue hs hl.1.1 hl.1.2 h₁
    obtain ⟨hs', hvalue⟩ := ih hs₁ hl.2 hrest
    refine ⟨hs', ?_⟩
    rw [List.map_cons, List.sum_cons]
    omega

/-! ## One block -/

theorem getBlockSubsidy_range (nHeight : ℕ) (params : CChainParams) :
    0 ≤ (getBlockSubsidy nHeight params).toInt ∧
      (getBlockSubsidy nHeight params).toInt ≤ 5000 * 10 ^ 8 := by
  have hshift : ∀ k < 64, 0 ≤ ((5000 * COIN) >>> Int64.ofNat k).toInt ∧
      ((5000 * COIN) >>> Int64.ofNat k).toInt ≤ 5000 * 10 ^ 8 := by
    decide +kernel
  unfold getBlockSubsidy
  dsimp only
  split
  · exact ⟨by decide, by decide⟩
  · exact hshift _ (by omega)

def ReissuesWithoutValue (dep : Deployments) (block : CBlock) : Prop :=
  dep.areEnforcedValuesDeployed = true ∨
    ∀ tx ∈ block.vtx, ∀ txout ∈ tx.vout, isReissueOutput txout = true → txout.nValue = 0

theorem valueWhere_eq_zero {p : CTxOut → Bool} {vout : List CTxOut}
    (h : ∀ txout ∈ vout, p txout = true → txout.nValue = 0) : valueWhere p vout = 0 := by
  induction vout with
  | nil => rfl
  | cons txout vout ih =>
    rw [List.forall_mem_cons] at h
    rw [valueWhere_cons, ih h.2]
    split
    · rename_i hp
      rw [h.1 hp]
      rfl
    · rfl

theorem uncountedValue_eq_zero {dep : Deployments} {block : CBlock}
    (h : ReissuesWithoutValue dep block) (htx : tx ∈ block.vtx) : uncountedValue dep tx = 0 := by
  rw [uncountedValue]
  rcases h with henforced | hzero
  · rw [henforced, if_pos rfl]
  · rw [valueWhere_eq_zero (hzero tx htx), ite_self]

theorem checkCoinbaseReward_ok {nFees : CAmount} {coinbase : CTransaction} {ctx : BlockContext}
    (hrange : moneyRange nFees = true)
    (h : checkCoinbaseReward env ctx nFees coinbase = .ok ()) :
    valueWhere (isCounted env.dep.areEnforcedValuesDeployed) coinbase.vout ≤
      nFees.toInt + (getBlockSubsidy ctx.nHeight env.params).toInt := by
  rw [checkCoinbaseReward, demand_bind] at h
  obtain ⟨actual, hactual, h⟩ := h
  rw [require_ok, decide_eq_true_eq, Int64.le_iff_toInt_le] at h
  obtain ⟨-, hvalue⟩ := toInt_getValueOut hactual
  have hsubsidy := getBlockSubsidy_range ctx.nHeight env.params
  rw [moneyRange_iff, toInt_MAX_MONEY] at hrange
  have hadd : (nFees + getBlockSubsidy ctx.nHeight env.params).toInt =
      nFees.toInt + (getBlockSubsidy ctx.nHeight env.params).toInt := by
    rw [Int64.toInt_add, Totals.bmod_eq]
    omega
  rw [hadd, hvalue] at h
  exact h

/-- **A block adds at most its subsidy.** -/
theorem connectBlock_utxoValue {block : CBlock} {cache : CAssetsCache} {ctx : BlockContext}
    {s : ConnectState} (hgenesis : block.hash ≠ env.params.hashGenesisBlock)
    (hreissues : ReissuesWithoutValue env.dep block) (hview : CoinsNonneg view)
    (h : connectBlock env st ctx block view cache = .ok s) :
    CoinsNonneg s.view ∧
      utxoValue s.view ≤ utxoValue view + (getBlockSubsidy ctx.nHeight env.params).toInt := by
  obtain ⟨hblock, hfold, hreward⟩ := connectBlock_ok hgenesis h
  obtain ⟨coinbase, txs, hvtx, hcoinbase, hothers, htxs⟩ := checkBlock_ok hblock
  have hzero : ∀ tx ∈ block.vtx, uncountedValue env.dep tx = 0 := fun tx hmem =>
    uncountedValue_eq_zero hreissues hmem
  rw [hvtx] at hfold hreward htxs hzero
  rw [List.forall_mem_cons] at htxs hzero
  rw [List.foldlM_cons, bind_ok] at hfold
  obtain ⟨s₁, h₁, hrest⟩ := hfold
  have hzeroRange : moneyRange 0 = true := by decide
  have hstart : FeesExact ⟨view, cache, 0, 0, [], []⟩ := ⟨hview, hzeroRange⟩
  obtain ⟨hs₁, hfees₁, hvalue₁⟩ := connectCoinbase_utxoValue hstart hcoinbase htxs.1 h₁
  obtain ⟨hs, hvalue⟩ := foldlM_connectTx_utxoValue hs₁
    (fun tx hmem => ⟨hothers tx hmem, htxs.2 tx hmem⟩) hrest
  have hothersZero : (txs.map (uncountedValue env.dep)).sum = 0 := by
    refine List.sum_eq_zero fun n hn => ?_
    obtain ⟨tx, hmem, rfl⟩ := List.mem_map.1 hn
    exact hzero.2 tx hmem
  have hcounted := valueOut_le_counted (scanOutput_of_checkTransaction htxs.1)
    env.dep.areEnforcedValuesDeployed
  have hpaid := checkCoinbaseReward_ok hs.range (hreward coinbase List.mem_cons_self)
  have huncounted := hzero.1
  rw [uncountedValue] at huncounted
  have hfees₁' : s₁.nFees.toInt = 0 := by rw [hfees₁]; rfl
  refine ⟨hs.nonneg, ?_⟩
  simp only at hvalue₁
  omega

/-! ## A chain -/

/-- The subsidies of the heights up to `n`. -/
def subsidies (params : CChainParams) (n : ℕ) : ℤ :=
  ((List.range n).map fun h => (getBlockSubsidy (h + 1) params).toInt).sum

theorem subsidies_succ (params : CChainParams) (n : ℕ) :
    subsidies params (n + 1) = subsidies params n + (getBlockSubsidy (n + 1) params).toInt := by
  rw [subsidies, List.range_succ, List.map_append, List.sum_append, List.map_singleton,
    List.sum_singleton, subsidies]

structure SupplyBounded (params : CChainParams) (n : Node) : Prop where
  nonneg : CoinsNonneg n.view
  bounded : utxoValue n.view ≤ subsidies params n.height

theorem SupplyBounded.genesis (params : CChainParams) : SupplyBounded params .genesis :=
  ⟨coinsNonneg_empty, Int.le_refl 0⟩

theorem SupplyBounded.connectTip {n n' : Node} {ctx : TipContext} {block : CBlock}
    (hn : SupplyBounded env.params n) (hreissues : ReissuesWithoutValue ctx.dep block)
    (h : n.connectTip env ctx block = some n') : SupplyBounded env.params n' := by
  obtain ⟨s, hs, hgenesis, hview, hchain, -⟩ := connectTip_eq_some h
  have hheight : n'.height = n.height + 1 := by
    rw [Node.height, hchain, List.length_cons, Node.height]
  have hgenesis' : block.hash ≠ (env.withTip ctx).params.hashGenesisBlock := hgenesis
  obtain ⟨hnonneg, hvalue⟩ := connectBlock_utxoValue hgenesis' hreissues hn.nonneg hs
  refine ⟨by rw [hview]; exact hnonneg, ?_⟩
  have hbounded := hn.bounded
  have hparams : (env.withTip ctx).params = env.params := rfl
  rw [hparams] at hvalue
  rw [hview, hheight, subsidies_succ]
  simp only at hvalue
  omega

theorem SupplyBounded.connects {blocks : List (TipContext × CBlock)} {n n' : Node}
    (hn : SupplyBounded env.params n)
    (hreissues : ∀ e ∈ blocks, ReissuesWithoutValue e.1.dep e.2)
    (h : (node env).exec n (connects blocks) = some n') :
    SupplyBounded env.params n' ∧ n'.height = n.height + blocks.length := by
  induction blocks generalizing n with
  | nil =>
    cases h
    exact ⟨hn, rfl⟩
  | cons e blocks ih =>
    rw [List.forall_mem_cons] at hreissues
    obtain ⟨n₁, h₁, hrest⟩ := Machine.exec_cons.1 h
    obtain ⟨hbounded, hheight⟩ := ih (hn.connectTip hreissues.1 h₁) hreissues.2 hrest
    refine ⟨hbounded, ?_⟩
    have hheight₁ : n₁.height = n.height + 1 := by
      obtain ⟨s, -, -, -, hchain, -⟩ := connectTip_eq_some h₁
      rw [Node.height, hchain, List.length_cons, Node.height]
    rw [hheight, hheight₁, List.length_cons]
    omega

/-- **The supply is in range** along a chain whose subsidies are, if no reissue has value before
the enforced values are active. -/
theorem utxoValue_le_MAX_MONEY {blocks : List (TipContext × CBlock)} {n : Node}
    (hsubsidies : subsidies env.params blocks.length ≤ MAX_MONEY.toInt)
    (hreissues : ∀ e ∈ blocks, ReissuesWithoutValue e.1.dep e.2)
    (h : (node env).exec .genesis (connects blocks) = some n) :
    utxoValue n.view ≤ MAX_MONEY.toInt ∧
      ∀ outpoints : List COutPoint, outpoints.Nodup →
        0 ≤ (outpoints.map (coinValue n.view)).sum ∧
          (outpoints.map (coinValue n.view)).sum ≤ MAX_MONEY.toInt := by
  obtain ⟨hbounded, hheight⟩ := (SupplyBounded.genesis env.params).connects hreissues h
  have hheight' : n.height = blocks.length := by rw [hheight]; exact Nat.zero_add _
  have hvalue := hbounded.bounded
  rw [hheight'] at hvalue
  refine ⟨by omega, fun outpoints hnodup => ?_⟩
  obtain ⟨hnonneg, hle⟩ := sum_coinValue_le hbounded.nonneg hnodup
  exact ⟨hnonneg, by omega⟩

/-! ### The main chain beyond 200,000 blocks -/

theorem exec_coinbaseChain_nil {n : ℕ} (hn : n ≤ 2000000) :
    (node sampleEnv).exec .genesis (connects (coinbaseChain n)) = some (coinbaseNode 0 n) := by
  rw [← List.append_nil (connects _), exec_coinbaseChain ⟨rfl, rfl⟩ hn]
  rfl

theorem utxoValue_coinbaseNode (h : ℕ) :
    utxoValue (coinbaseNode 0 h).view = 5000 * 10 ^ 8 * h := by
  induction h with
  | zero => rfl
  | succ h ih =>
    have hsum : utxoValue ((coinbaseNode 0 h).view.assign ⟨h, 0⟩ (subsidyCoin h)) =
        5000 * 10 ^ 8 + utxoValue (coinbaseNode 0 h).view :=
      sum_assign_fresh _ (find?_byHeight (coinbaseOut_injective 0) _ (Nat.le_refl h))
    have hview : (coinbaseNode 0 h).view.assign ⟨h, 0⟩ (subsidyCoin h) =
        (coinbaseNode 0 (h + 1)).view := assign_byHeight (coinbaseOut_injective 0) subsidyCoin h
    rw [← hview, hsum, ih]
    push_cast
    omega

theorem subsidies_main {h : ℕ} (hh : h ≤ 2000000) :
    subsidies CMainParams h = 5000 * 10 ^ 8 * h := by
  induction h with
  | zero => rfl
  | succ h ih =>
    have hcoin : (5000 * COIN).toInt = 5000 * 10 ^ 8 := by decide
    rw [subsidies_succ, ih (by omega), getBlockSubsidy_main (by omega), hcoin]
    push_cast
    omega

/-- A chain of 200,000 such blocks is worth at most `MAX_MONEY`. -/
theorem coinbaseChain_in_range :
    ∃ n, (node sampleEnv).exec .genesis (connects (coinbaseChain 200000)) = some n ∧
      utxoValue n.view ≤ MAX_MONEY.toInt := by
  have hexec : (node sampleEnv).exec .genesis (connects (coinbaseChain 200000)) =
      some (coinbaseNode 0 200000) := exec_coinbaseChain_nil (by omega)
  have hlength : (coinbaseChain 200000).length = 200000 := by
    rw [coinbaseChain, List.length_map, List.length_range]
  have hsubsidies : subsidies sampleEnv.params (coinbaseChain 200000).length ≤
      MAX_MONEY.toInt := by
    have hmain : subsidies sampleEnv.params 200000 = 5000 * 10 ^ 8 * (200000 : ℕ) :=
      subsidies_main (by omega)
    rw [hlength, hmain, toInt_MAX_MONEY]
    omega
  have hreissues : ∀ e ∈ coinbaseChain 200000, ReissuesWithoutValue e.1.dep e.2 := by
    intro e he
    obtain ⟨h, -, rfl⟩ := List.mem_map.1 he
    refine Or.inr fun tx htx txout hout hreissue => ?_
    obtain rfl := List.mem_singleton.1 htx
    obtain rfl := List.mem_singleton.1 hout
    have hnot : isReissueOutput ⟨5000 * COIN, getScriptForKeyID (keyHash 3)⟩ = false := by
      decide +kernel
    rw [hnot] at hreissue
    cases hreissue
  exact ⟨_, hexec, (utxoValue_le_MAX_MONEY hsubsidies hreissues hexec).1⟩

/-- A chain of 200,001 blocks that claim their subsidies is worth more than `MAX_MONEY`. -/
theorem coinbaseChain_exceeds :
    ∃ n, (node sampleEnv).exec .genesis (connects (coinbaseChain 200001)) = some n ∧
      sampleEnv.params = CMainParams ∧ MAX_MONEY.toInt < utxoValue n.view := by
  refine ⟨_, exec_coinbaseChain_nil (by omega), rfl, ?_⟩
  rw [utxoValue_coinbaseNode, toInt_MAX_MONEY]
  omega

end UnemployCoin
