import UnemployCoin.Authorization
/-!
# Native value of a transaction

What `CheckTxInputs` says about the coins a transaction spends and the values of its outputs, in
exact integers.  `GetValueOut` counts every output once the enforced values are active, and only
those without an asset before; `CheckTransaction` keeps the values of asset outputs at zero,
except those of a reissue.
-/

namespace UnemployCoin

open Check

variable {env : Env} {view : CCoinsView} {tx : CTransaction} {nSpendHeight : ℕ} {fee : CAmount}

/-! ## Exact sums -/

def valueOut (vout : List CTxOut) : ℤ := (vout.map fun txout => txout.nValue.toInt).sum

def valueWhere (p : CTxOut → Bool) (vout : List CTxOut) : ℤ :=
  (vout.map fun txout => if p txout then txout.nValue.toInt else 0).sum

def isReissueOutput (txout : CTxOut) : Bool :=
  txout.scriptPubKey.isAssetScript.map AssetScriptType.nType == some .TX_REISSUE_ASSET

/-- An output that `GetValueOut` does not skip. -/
def isCounted (fAreEnforcedValues : Bool) (txout : CTxOut) : Bool :=
  !(!fAreEnforcedValues && txout.scriptPubKey.isAssetScript.isSome)

def coinValue (view : CCoinsView) (prevout : COutPoint) : ℤ :=
  ((view.find? prevout).map fun coin => coin.out.nValue.toInt).getD 0

def valueIn (view : CCoinsView) (tx : CTransaction) : ℤ :=
  (tx.vin.map fun txin => coinValue view txin.prevout).sum

@[simp] theorem valueOut_nil : valueOut [] = 0 := rfl

@[simp] theorem valueOut_cons (txout : CTxOut) (vout : List CTxOut) :
    valueOut (txout :: vout) = txout.nValue.toInt + valueOut vout := by
  rw [valueOut, List.map_cons, List.sum_cons, valueOut]

@[simp] theorem valueWhere_nil (p : CTxOut → Bool) : valueWhere p [] = 0 := rfl

@[simp] theorem valueWhere_cons (p : CTxOut → Bool) (txout : CTxOut) (vout : List CTxOut) :
    valueWhere p (txout :: vout) =
      (if p txout then txout.nValue.toInt else 0) + valueWhere p vout := by
  rw [valueWhere, List.map_cons, List.sum_cons, valueWhere]

theorem toInt_MAX_MONEY : MAX_MONEY.toInt = 10 ^ 17 := by decide

theorem moneyRange_iff {n : CAmount} :
    moneyRange n = true ↔ 0 ≤ n.toInt ∧ n.toInt ≤ MAX_MONEY.toInt := by
  rw [moneyRange, Bool.and_eq_true, decide_eq_true_eq, decide_eq_true_eq, Int64.le_iff_toInt_le,
    Int64.le_iff_toInt_le, Int64.toInt_zero]

theorem toInt_add_of_moneyRange {a b : CAmount} (ha : moneyRange a = true)
    (hb : moneyRange b = true) : (a + b).toInt = a.toInt + b.toInt := by
  rw [moneyRange_iff, toInt_MAX_MONEY] at ha hb
  rw [Int64.toInt_add, Totals.bmod_eq]
  omega

theorem toInt_sub_of_moneyRange {a b : CAmount} (ha : moneyRange a = true)
    (hb : moneyRange b = true) : (a - b).toInt = a.toInt - b.toInt := by
  rw [moneyRange_iff, toInt_MAX_MONEY] at ha hb
  rw [Int64.toInt_sub, Totals.bmod_eq]
  omega

theorem toInt_foldlM_valueOut {fAreEnforcedValues : Bool} {vout : List CTxOut} {n m : CAmount}
    (hn : moneyRange n = true)
    (h : vout.foldlM (fun nValueOut txout =>
      if !fAreEnforcedValues && txout.scriptPubKey.isAssetScript.isSome then some nValueOut
      else if moneyRange txout.nValue && moneyRange (nValueOut + txout.nValue) then
        some (nValueOut + txout.nValue)
      else none) n = some m) :
    moneyRange m = true ∧ m.toInt = n.toInt + valueWhere (isCounted fAreEnforcedValues) vout := by
  induction vout generalizing n with
  | nil =>
    cases h
    exact ⟨hn, (Int.add_zero _).symm⟩
  | cons txout vout ih =>
    rw [List.foldlM_cons, Option.bind_eq_bind, Option.bind_eq_some_iff] at h
    obtain ⟨n', hn', hrest⟩ := h
    by_cases hskip : (!fAreEnforcedValues && txout.scriptPubKey.isAssetScript.isSome) = true
    · rw [if_pos hskip] at hn'
      cases hn'
      obtain ⟨hm, hvalue⟩ := ih hn hrest
      refine ⟨hm, ?_⟩
      rw [hvalue, valueWhere_cons, isCounted, hskip, Bool.not_true, if_neg Bool.false_ne_true,
        Int.zero_add]
    · rw [if_neg hskip] at hn'
      simp only [Option.ite_none_right_eq_some, Bool.and_eq_true] at hn'
      obtain ⟨⟨hvalue, hsum⟩, heq⟩ := hn'
      cases heq
      obtain ⟨hm, htotal⟩ := ih hsum hrest
      refine ⟨hm, ?_⟩
      rw [Bool.not_eq_true] at hskip
      rw [htotal, toInt_add_of_moneyRange hn hvalue, valueWhere_cons, isCounted, hskip,
        Bool.not_false, if_pos rfl, Int.add_assoc]

theorem toInt_getValueOut {fAreEnforcedValues : Bool} {n : CAmount}
    (h : tx.getValueOut fAreEnforcedValues = some n) :
    moneyRange n = true ∧ n.toInt = valueWhere (isCounted fAreEnforcedValues) tx.vout := by
  obtain ⟨hn, hvalue⟩ := toInt_foldlM_valueOut (by decide) h
  exact ⟨hn, by rw [hvalue, Int64.toInt_zero, Int.zero_add]⟩

theorem toInt_foldlM_addValueIn {l : List CTxIn} {n m : CAmount} (hn : moneyRange n = true)
    (h : l.foldlM (addValueIn view nSpendHeight) n = .ok m) :
    moneyRange m = true ∧
      m.toInt = n.toInt + (l.map fun txin => coinValue view txin.prevout).sum := by
  induction l generalizing n with
  | nil =>
    cases h
    exact ⟨hn, (Int.add_zero _).symm⟩
  | cons txin l ih =>
    rw [List.foldlM_cons, bind_ok] at h
    obtain ⟨n', hn', hrest⟩ := h
    simp only [addValueIn, demand_bind, require_bind, Bool.and_eq_true, pure_ok] at hn'
    obtain ⟨coin, hcoin, -, ⟨hvalue, hsum⟩, rfl⟩ := hn'
    obtain ⟨hm, htotal⟩ := ih hsum hrest
    refine ⟨hm, ?_⟩
    rw [htotal, toInt_add_of_moneyRange hn hvalue, List.map_cons, List.sum_cons, coinValue, hcoin,
      Option.map_some, Option.getD_some, Int.add_assoc]

/-- **The fee is exact.**  It is what the counted outputs leave of the coins spent, and it is in
range. -/
theorem checkTxInputs_exact (h : checkTxInputs env tx view nSpendHeight = .ok fee) :
    fee.toInt + valueWhere (isCounted env.dep.areEnforcedValuesDeployed) tx.vout = valueIn view tx ∧
      moneyRange fee = true := by
  rw [checkTxInputs, require_bind] at h
  obtain ⟨-, h⟩ := h
  obtain ⟨nValueIn, hin, h⟩ := bind_ok.1 h
  simp only [demand_bind, require_bind, pure_ok] at h
  obtain ⟨value_out, hout, -, hfee, rfl⟩ := h
  obtain ⟨hinrange, hinvalue⟩ := toInt_foldlM_addValueIn (by decide) hin
  obtain ⟨houtrange, houtvalue⟩ := toInt_getValueOut hout
  refine ⟨?_, hfee⟩
  rw [toInt_sub_of_moneyRange hinrange houtrange, houtvalue, hinvalue, Int64.toInt_zero, valueIn]
  omega

/-! ## The values of asset outputs -/

section Outputs

variable {fCheckDuplicateInputs fMempoolCheck fBlockCheck : Bool}

theorem scanOutput_of_checkTransaction
    (h : checkTransaction env tx fCheckDuplicateInputs fMempoolCheck fBlockCheck = .ok ()) :
    ∀ txout ∈ tx.vout, ∃ s s', scanOutput env fMempoolCheck fBlockCheck s txout = .ok s' := by
  simp only [checkTransaction, require_bind] at h
  obtain ⟨-, -, -, h⟩ := h
  obtain ⟨s, hscan, -⟩ := bind_ok.1 h
  exact foldlM_forall_mem hscan

theorem nValue_nonneg {txout : CTxOut} {s s' : OutputScan}
    (h : scanOutput env fMempoolCheck fBlockCheck s txout = .ok s') : 0 ≤ txout.nValue.toInt := by
  rw [scanOutput, bind_ok] at h
  obtain ⟨s₁, h₁, -⟩ := h
  simp only [scanValue, require_bind, decide_eq_true_eq] at h₁
  exact Int64.le_iff_toInt_le.1 h₁.1

theorem nValue_eq_zero {txout : CTxOut} {s s' : OutputScan}
    (h : scanOutput env fMempoolCheck fBlockCheck s txout = .ok s')
    (hasset : txout.scriptPubKey.isAssetScript.isSome = true)
    (hreissue : txout.scriptPubKey.isAssetScript.map AssetScriptType.nType ≠
      some .TX_REISSUE_ASSET) : txout.nValue.toInt = 0 := by
  rw [scanOutput, bind_ok] at h
  obtain ⟨s₁, -, h⟩ := h
  obtain ⟨s₂, -, h⟩ := bind_ok.1 h
  rw [scanAsset] at h
  split at h
  · rename_i hnone
    rw [Option.map_eq_none_iff] at hnone
    rw [hnone] at hasset
    cases hasset
  · simp only [scanTransfer, demand_bind, require_bind, beq_iff_eq] at h
    obtain ⟨record, -, type, -, -, -, -, hzero, -⟩ := h
    rw [hzero, Int64.toInt_zero]
  · simp only [require_bind, beq_iff_eq] at h
    rw [h.1, Int64.toInt_zero]
  · rename_i hsome
    exact absurd hsome hreissue
  · cases h

theorem valueOut_le_counted {vout : List CTxOut}
    (h : ∀ txout ∈ vout, ∃ s s', scanOutput env fMempoolCheck fBlockCheck s txout = .ok s')
    (fAreEnforcedValues : Bool) :
    valueOut vout ≤ valueWhere (isCounted fAreEnforcedValues) vout +
      if fAreEnforcedValues then 0 else valueWhere isReissueOutput vout := by
  induction vout with
  | nil => cases fAreEnforcedValues <;> exact Int.le_refl _
  | cons txout vout ih =>
    rw [List.forall_mem_cons] at h
    obtain ⟨⟨s, s', hscan⟩, hrest⟩ := h
    have ih := ih hrest
    have hnonneg := nValue_nonneg hscan
    rw [valueOut_cons, valueWhere_cons, valueWhere_cons]
    cases fAreEnforcedValues with
    | true =>
      simp only [isCounted, Bool.not_true, Bool.false_and, Bool.not_false, if_true] at ih ⊢
      omega
    | false =>
      simp only [Bool.false_eq_true, if_false] at ih ⊢
      by_cases hasset : txout.scriptPubKey.isAssetScript.isSome = true
      · by_cases hreissue : isReissueOutput txout = true
        · rw [if_pos hreissue]
          split <;> omega
        · have hzero := nValue_eq_zero hscan hasset (by simpa [isReissueOutput] using hreissue)
          rw [if_neg hreissue]
          split <;> omega
      · have hcounted : isCounted false txout = true := by simp [isCounted, hasset]
        rw [if_pos hcounted]
        split <;> omega

end Outputs

/-- **No value from nothing.**  The outputs of a transaction are worth at most the coins it
spends.  Before the enforced values are active, the value of a reissue output comes on top. -/
theorem valueOut_le_valueIn {fCheckDuplicateInputs fMempoolCheck fBlockCheck : Bool}
    (htx : checkTransaction env tx fCheckDuplicateInputs fMempoolCheck fBlockCheck = .ok ())
    (hin : checkTxInputs env tx view nSpendHeight = .ok fee) :
    valueOut tx.vout ≤ valueIn view tx +
      if env.dep.areEnforcedValuesDeployed then 0 else valueWhere isReissueOutput tx.vout := by
  have hcounted := valueOut_le_counted (scanOutput_of_checkTransaction htx)
    env.dep.areEnforcedValuesDeployed
  obtain ⟨hfee, hrange⟩ := checkTxInputs_exact hin
  have := (moneyRange_iff.1 hrange).1
  omega

/-! ### A reissue with value -/

/-- Burn addresses that can be paid, before the enforced values are active. -/
def unenforcedEnv : Env :=
  { sampleEnv with
    params :=
      { CMainParams with strReissueAssetBurnAddress := ascii "UNAdiGx5PWEsPRiq4jtvgEWPngMi7rkdiG" }
    dep := { Deployments.all with areEnforcedValuesDeployed := false } }

/-- A reissue of `ROOT` by its owner, whose reissue output has some native value. -/
def reissueTx (nValue : CAmount) : CTransaction where
  hash := 8
  vin := [⟨⟨7, 0⟩, []⟩, ⟨⟨7, 1⟩, []⟩]
  vout := [⟨100 * COIN, getScriptForKeyID (keyHash 2)⟩, transferOwnerROOT,
    ⟨nValue, CReissueAsset.constructTransaction ⟨ascii "ROOT", COIN, -1, 1, []⟩
      (getScriptForKeyID (keyHash 1))⟩]

/-- `ROOT` with units 0, issued in block 1. -/
def rootState : AssetState :=
  { AssetState.genesis with
    passetsdb :=
      { assetData := StdMap.assign ∅ (ascii "ROOT") ⟨⟨ascii "ROOT", COIN, 0, 1, 0, []⟩, 1, 1⟩
        blockUndo := ∅ } }

theorem reissueTx_conserves : valueOut (reissueTx 0).vout ≤ valueIn rootView (reissueTx 0) := by
  have htx : checkTransaction unenforcedEnv (reissueTx 0) true false true = .ok () := by
    decide +kernel
  have hin : checkTxInputs unenforcedEnv (reissueTx 0) rootView 200 = .ok (100 * COIN) := by
    decide +kernel
  have hle := valueOut_le_valueIn htx hin
  have hzero : valueWhere isReissueOutput (reissueTx 0).vout = 0 := by decide +kernel
  rw [hzero, ite_self, Int.add_zero] at hle
  exact hle

/-- A reissue output of 1000 coins is accepted from a transaction that spends 200. -/
theorem valuedReissueTx_accepted :
    (reissueTx (1000 * COIN)).isCoinBase = false ∧
      checkTransaction unenforcedEnv (reissueTx (1000 * COIN)) true false true = .ok () ∧
      checkTxInputs unenforcedEnv (reissueTx (1000 * COIN)) rootView 200 = .ok (100 * COIN) ∧
      checkTxAssets unenforcedEnv rootState .empty (reissueTx (1000 * COIN)) rootView none ∅ =
        .ok [(ascii "ROOT", 8)] ∧
      valueOut (reissueTx (1000 * COIN)).vout = 1100 * 10 ^ 8 ∧
      valueIn rootView (reissueTx (1000 * COIN)) = 200 * 10 ^ 8 := by
  decide +kernel

end UnemployCoin
