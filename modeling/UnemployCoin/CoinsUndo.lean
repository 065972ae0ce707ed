import UnemployCoin.DisconnectBlock
/-!
# Undoing the coins of a block

`DisconnectBlock` takes the outputs of each transaction away again and puts back the coins that
its undo data has, the last transaction first.  The coins are those before the transactions, and
the result is clean unless `SpendCoin` or `UndoAssetCoin` refuses an asset.
-/

namespace UnemployCoin

open Check StdMap

variable {env : Env} {view view' v w : CCoinsView} {tx : CTransaction} {nHeight : ℕ}

/-- A coin that a view can hold: it is not spent, `AddCoin` does not skip it, and its height is
known, since the outputs of the genesis block are in no view. -/
structure Coin.Valid (coin : Coin) : Prop where
  unspent : coin.out.nValue ≠ -1
  spendable : coin.out.scriptPubKey.isUnspendable = false
  height : coin.nHeight ≠ 0

def CCoinsView.Valid (view : CCoinsView) : Prop :=
  ∀ out coin, view.find? out = some coin → coin.Valid

def SameCoins (v w : CCoinsView) : Prop := ∀ out, v.find? out = w.find? out

theorem CCoinsView.Valid.erase (h : view.Valid) (out : COutPoint) :
    CCoinsView.Valid (view.erase out) := by
  intro out' coin hcoin
  rw [find?_erase] at hcoin
  split at hcoin
  · cases hcoin
  · exact h out' coin hcoin

/-! ## Outputs -/

def coinOf (tx : CTransaction) (nHeight : ℕ) (txout : CTxOut) : Coin :=
  ⟨txout, tx.isCoinBase, nHeight⟩

def spendableOutput (l : List (COutPoint × CTxOut)) (out : COutPoint) : Option CTxOut :=
  (l.find? fun e => e.1 == out && !e.2.scriptPubKey.isUnspendable).map Prod.snd

def CTransaction.createdCoin (tx : CTransaction) (nHeight : ℕ) (out : COutPoint) : Option Coin :=
  (spendableOutput tx.outputs out).map (coinOf tx nHeight)

variable {l : List (COutPoint × CTxOut)} {e : COutPoint × CTxOut}

theorem spendableOutput_skip
    (h : e.2.scriptPubKey.isUnspendable = true) (out : COutPoint) :
    spendableOutput (e :: l) out = spendableOutput l out := by
  have hcond : (e.1 == out && !e.2.scriptPubKey.isUnspendable) = false := by
    rw [h, Bool.not_true, Bool.and_false]
  simp only [spendableOutput, List.find?_cons, hcond]

theorem spendableOutput_self
    (h : e.2.scriptPubKey.isUnspendable = false) : spendableOutput (e :: l) e.1 = some e.2 := by
  have hcond : (e.1 == e.1 && !e.2.scriptPubKey.isUnspendable) = true := by
    rw [h, beq_self_eq_true]
    rfl
  simp only [spendableOutput, List.find?_cons, hcond, Option.map_some]

variable {out : COutPoint}

theorem spendableOutput_ne (h : e.1 ≠ out) : spendableOutput
    (e :: l) out = spendableOutput l out := by
  have hcond : (e.1 == out && !e.2.scriptPubKey.isUnspendable) = false := by
    rw [beq_eq_false_iff_ne.2 h, Bool.false_and]
  simp only [spendableOutput, List.find?_cons, hcond]

theorem mem_of_spendableOutput {txout : CTxOut}
    (h : spendableOutput l out = some txout) :
    (out, txout) ∈ l ∧ txout.scriptPubKey.isUnspendable = false := by
  obtain ⟨e, he, rfl⟩ := Option.map_eq_some_iff.1 h
  have hcond := List.find?_some he
  rw [Bool.and_eq_true, beq_iff_eq, Bool.not_eq_true'] at hcond
  have hmem := List.mem_of_find?_eq_some he
  obtain ⟨rfl, hspendable⟩ := hcond
  exact ⟨hmem, hspendable⟩

theorem spendableOutput_eq_none
    (h : out ∉ l.map Prod.fst) : spendableOutput l out = none := by
  cases hout : spendableOutput l out with
  | none => rfl
  | some txout =>
    exact absurd (List.mem_map_of_mem (f := Prod.fst) (mem_of_spendableOutput hout).1) h

theorem createdCoin_isSome {txout : CTxOut} (hout : (out, txout) ∈ tx.outputs)
    (hspendable : txout.scriptPubKey.isUnspendable = false) (nHeight : ℕ) :
    (tx.createdCoin nHeight out).isSome = true := by
  rw [CTransaction.createdCoin, spendableOutput, Option.isSome_map, Option.isSome_map,
    List.find?_isSome]
  refine ⟨(out, txout), hout, ?_⟩
  simp [hspendable]

theorem find?_foldlM_addCoin {coin : CTxOut → Coin} {overwrite : Bool}
    (hcoin : ∀ txout, (coin txout).out = txout)
    (hl : (l.map Prod.fst).Nodup)
    (h : l.foldlM (fun view e => CCoinsView.addCoin view e.1 (coin e.2) overwrite) v = .ok w) :
    (∀ out, w.find? out = ((spendableOutput l out).map coin).or (v.find? out)) ∧
      (∀ out txout, spendableOutput l out = some txout → txout.nValue ≠ -1) ∧
      (overwrite = false → ∀ out txout, spendableOutput l out = some txout →
        v.find? out = none) := by
  induction l generalizing v with
  | nil =>
    cases h
    refine ⟨fun _ => rfl, ?_, ?_⟩
    · intro out txout hnone
      cases hnone
    · intro _ out txout hnone
      cases hnone
  | cons e l ih =>
    rw [List.map_cons, List.nodup_cons] at hl
    rw [List.foldlM_cons, bind_ok] at h
    obtain ⟨v₁, hadd, hrest⟩ := h
    obtain ⟨hfind, hvalue, hfresh⟩ := ih hl.2 hrest
    rw [CCoinsView.addCoin, require_bind, hcoin] at hadd
    obtain ⟨hunspent, hadd⟩ := hadd
    by_cases hskip : e.2.scriptPubKey.isUnspendable = true
    · rw [if_pos hskip] at hadd
      cases hadd
      simp only [spendableOutput_skip hskip]
      exact ⟨hfind, hvalue, hfresh⟩
    · have hspendable : e.2.scriptPubKey.isUnspendable = false := Bool.not_eq_true _ ▸ hskip
      rw [if_neg hskip, require_bind, pure_ok] at hadd
      obtain ⟨hover, rfl⟩ := hadd
      have hother : spendableOutput l e.1 = none := spendableOutput_eq_none hl.1
      refine ⟨fun out => ?_, fun out txout hout => ?_, fun hno out txout hout => ?_⟩
      · by_cases hkey : e.1 = out
        · subst hkey
          rw [hfind, hother, spendableOutput_self hspendable, find?_assign_self]
          rfl
        · rw [hfind, spendableOutput_ne hkey, find?_assign_ne (Ne.symm hkey)]
      · by_cases hkey : e.1 = out
        · subst hkey
          rw [spendableOutput_self hspendable] at hout
          cases hout
          exact bne_iff_ne.1 hunspent
        · rw [spendableOutput_ne hkey] at hout
          exact hvalue out txout hout
      · by_cases hkey : e.1 = out
        · subst hkey
          rw [hno, Bool.false_or, Bool.not_eq_true', count_eq_false] at hover
          exact hover
        · rw [spendableOutput_ne hkey] at hout
          have hnone := hfresh hno out txout hout
          rwa [find?_assign_ne (Ne.symm hkey)] at hnone

theorem foldlM_of_addOutputs (h : v.addOutputs tx nHeight = .ok w) :
    tx.outputs.foldlM (fun view e =>
      CCoinsView.addCoin view e.1 (coinOf tx nHeight e.2) tx.isCoinBase) v = .ok w := h

theorem find?_addOutputs (h : v.addOutputs tx nHeight = .ok w) (out : COutPoint) :
    w.find? out = (tx.createdCoin nHeight out).or (v.find? out) :=
  (find?_foldlM_addCoin (fun _ => rfl) (outputs_nodup tx) (foldlM_of_addOutputs h)).1 out

theorem fresh_of_addOutputs (h : v.addOutputs tx nHeight = .ok w) (htx : tx.isCoinBase = false)
    {coin : Coin} (hcreated : tx.createdCoin nHeight out = some coin) :
    v.find? out = none := by
  obtain ⟨txout, hout, -⟩ := Option.map_eq_some_iff.1 hcreated
  have hadded := find?_foldlM_addCoin (fun _ => rfl) (outputs_nodup tx) (foldlM_of_addOutputs h)
  exact hadded.2.2 htx out txout hout

theorem CCoinsView.Valid.addOutputs (hv : v.Valid) (hheight : 0 < nHeight)
    (h : v.addOutputs tx nHeight = .ok w) : w.Valid := by
  intro out coin hcoin
  rw [find?_addOutputs h] at hcoin
  cases hcreated : tx.createdCoin nHeight out with
  | none =>
    rw [hcreated, Option.none_or] at hcoin
    exact hv out coin hcoin
  | some coin' =>
    rw [hcreated, Option.some_or] at hcoin
    cases hcoin
    obtain ⟨txout, hout, rfl⟩ := Option.map_eq_some_iff.1 hcreated
    have hadded := find?_foldlM_addCoin (fun _ => rfl) (outputs_nodup tx) (foldlM_of_addOutputs h)
    exact ⟨hadded.2.1 out txout hout, (mem_of_spendableOutput hout).2, Nat.ne_of_gt hheight⟩

/-- `SpendCoin` goes through on an output that is there. -/
def canSpend (env : Env) (txout : CTxOut) : Bool :=
  txout.scriptPubKey.isUnspendable || !env.dep.areAssetsDeployed || trySpendCoin env txout

theorem unspend_foldl (env : Env) (hl : (l.map Prod.fst).Nodup)
    (hv : ∀ out txout, spendableOutput l out = some txout →
      v.find? out = some (coinOf tx nHeight txout)) (b : Bool) :
    let s := l.foldl (fun s e =>
      if e.2.scriptPubKey.isUnspendable then s
      else
        let r := CCoinsView.spendCoin env s.1 e.1
        (r.1, s.2 && r.2.2 && decide (r.2.1 = some ⟨e.2, tx.isCoinBase, nHeight⟩))) (v, b)
    s.2 = (b && (l.map Prod.snd).all (canSpend env)) ∧
      ∀ out, s.1.find? out =
        if (spendableOutput l out).isSome then none else v.find? out := by
  induction l generalizing v b with
  | nil => exact ⟨(Bool.and_true b).symm, fun _ => rfl⟩
  | cons e l ih =>
    rw [List.map_cons, List.nodup_cons] at hl
    rw [List.foldl_cons, List.map_cons, List.all_cons]
    by_cases hskip : e.2.scriptPubKey.isUnspendable = true
    · have hskipped := spendableOutput_skip (l := l) hskip
      have hspend : canSpend env e.2 = true := by
        rw [canSpend, hskip, Bool.true_or, Bool.true_or]
      simp only [hskipped] at hv ⊢
      rw [if_pos hskip, hspend, Bool.true_and]
      exact ih hl.2 hv b
    · have hspendable : e.2.scriptPubKey.isUnspendable = false := Bool.not_eq_true _ ▸ hskip
      have hcoin := hv e.1 e.2 (spendableOutput_self hspendable)
      have hother : spendableOutput l e.1 = none := spendableOutput_eq_none hl.1
      have hstep : CCoinsView.spendCoin env v e.1 =
          (v.erase e.1, some (coinOf tx nHeight e.2), canSpend env e.2) := by
        rw [CCoinsView.spendCoin, hcoin, canSpend, hspendable, Bool.false_or]
        rfl
      have hflag : decide (some (coinOf tx nHeight e.2) =
          some ⟨e.2, tx.isCoinBase, nHeight⟩) = true := decide_eq_true rfl
      have hrest : ∀ out txout, spendableOutput l out = some txout →
          (v.erase e.1).find? out = some (coinOf tx nHeight txout) := by
        intro out txout hout
        have hkey : e.1 ≠ out := by
          intro hkey
          rw [← hkey, hother] at hout
          cases hout
        rw [find?_erase_ne (Ne.symm hkey)]
        exact hv out txout (by rw [spendableOutput_ne hkey, hout])
      obtain ⟨hclean, hfind⟩ := ih hl.2 hrest (b && canSpend env e.2)
      simp only [if_neg hskip, hstep, hflag, Bool.and_true]
      refine ⟨by rw [hclean, Bool.and_assoc], fun out => ?_⟩
      rw [hfind]
      by_cases hkey : e.1 = out
      · subst hkey
        rw [hother, spendableOutput_self hspendable, find?_erase_self]
        rfl
      · rw [spendableOutput_ne hkey, find?_erase_ne (Ne.symm hkey)]

theorem unspendOutputs_eq (env : Env) (hadd : v.addOutputs tx nHeight = .ok w)
    (hsame : SameCoins view w) :
    (unspendOutputs env tx nHeight view).2 = tx.vout.all (canSpend env) ∧
      ∀ out, (unspendOutputs env tx nHeight view).1.find? out =
        if (tx.createdCoin nHeight out).isSome then none else v.find? out := by
  have hview : ∀ out txout, spendableOutput tx.outputs out = some txout →
      view.find? out = some (coinOf tx nHeight txout) := by
    intro out txout hout
    rw [hsame out, find?_addOutputs hadd, CTransaction.createdCoin, hout]
    rfl
  obtain ⟨hclean, hfind⟩ := unspend_foldl env (outputs_nodup tx) hview true
  rw [outputs_map_snd, Bool.true_and] at hclean
  refine ⟨hclean, fun out => ?_⟩
  have hout : (unspendOutputs env tx nHeight view).1.find? out =
      if (spendableOutput tx.outputs out).isSome then none else view.find? out := hfind out
  rw [hout, CTransaction.createdCoin, Option.isSome_map]
  by_cases hcreated : (spendableOutput tx.outputs out).isSome = true
  · rw [if_pos hcreated, if_pos hcreated]
  · have hnone : spendableOutput tx.outputs out = none :=
      Option.not_isSome_iff_eq_none.1 hcreated
    rw [if_neg hcreated, if_neg hcreated, hsame out, find?_addOutputs hadd,
      CTransaction.createdCoin, hnone]
    rfl

theorem sameCoins_unspendOutputs (env : Env) (htx : tx.isCoinBase = false)
    (hadd : v.addOutputs tx nHeight = .ok w) (hsame : SameCoins view w) :
    SameCoins (unspendOutputs env tx nHeight view).1 v := by
  intro out
  rw [(unspendOutputs_eq env hadd hsame).2]
  cases hcreated : tx.createdCoin nHeight out with
  | none => rw [Option.isSome_none, if_neg Bool.false_ne_true]
  | some coin => rw [Option.isSome_some, if_pos rfl, fresh_of_addOutputs hadd htx hcreated]

/-! ## Inputs -/

/-- `UndoAssetCoin` goes through, where it is called. -/
def canRestore (env : Env) (coin : Coin) : Bool :=
  !(env.dep.areAssetsDeployed && coin.isAsset) || undoAssetCoin env coin

variable {txundo : CTxUndo} {vin : List CTxIn}

theorem spendInputs_cons {txin : CTxIn}
    (h : spendInputs env (txin :: vin) v = .ok (w, txundo)) :
    ∃ coin vprevout, txundo = coin :: vprevout ∧ v.find? txin.prevout = some coin ∧
      spendInputs env vin (v.erase txin.prevout) = .ok (w, vprevout) := by
  rw [spendInputs] at h
  split at h
  · rename_i v₁ coin hcoin
    obtain ⟨hfind, rfl⟩ := spendCoin_eq hcoin
    rw [bind_ok] at h
    obtain ⟨⟨v₂, vprevout⟩, hrest, heq⟩ := h
    cases heq
    exact ⟨coin, vprevout, rfl, hfind, hrest⟩
  · cases h

theorem find?_spendInputs
    (h : spendInputs env vin v = .ok (w, txundo)) (out : COutPoint) :
    w.find? out = if vin.any fun txin => txin.prevout == out then none else v.find? out := by
  induction vin generalizing v txundo with
  | nil =>
    cases h
    rfl
  | cons txin vin ih =>
    obtain ⟨coin, vprevout, -, -, hrest⟩ := spendInputs_cons h
    rw [ih hrest, List.any_cons]
    by_cases hout : txin.prevout = out
    · rw [beq_iff_eq.2 hout, Bool.true_or, if_pos rfl, ← hout, find?_erase_self, ite_self]
    · rw [beq_eq_false_iff_ne.2 hout, Bool.false_or, find?_erase_ne (Ne.symm hout)]

theorem CCoinsView.Valid.spendInputs (hv : v.Valid)
    (h : spendInputs env vin v = .ok (w, txundo)) : w.Valid := by
  induction vin generalizing v txundo with
  | nil =>
    cases h
    exact hv
  | cons txin vin ih =>
    obtain ⟨coin, vprevout, -, -, hrest⟩ := spendInputs_cons h
    exact ih (hv.erase txin.prevout) hrest

theorem applyTxInUndo_eq {coin : Coin} (hcoin : coin.Valid) (out : COutPoint) :
    applyTxInUndo env v coin out =
      .ok (v.assign out coin, !v.count out && canRestore env coin) := by
  have hvalue : (coin.out.nValue != -1) = true := bne_iff_ne.2 hcoin.unspent
  have hover : (!!v.count out || !v.count out) = true := by cases v.count out <;> rfl
  have hadd : v.addCoin out coin (!!v.count out) = .ok (v.assign out coin) := by
    simp only [CCoinsView.addCoin, hvalue, hcoin.spendable, hover, require, if_true]
    rfl
  simp only [applyTxInUndo, if_neg hcoin.height, pure_bind, hadd]
  rfl

def restoreInput (env : Env) (s : CCoinsView × Bool) (e : CTxIn × Coin) :
    Except String (CCoinsView × Bool) := do
  let (view, clean) ← applyTxInUndo env s.1 e.2 e.1.prevout
  return (view, s.2 && clean)

theorem restoreInput_foldlM (env' : Env) (hv : v.Valid)
    (h : spendInputs env vin v = .ok (w, txundo)) (hsame : SameCoins view w) :
    txundo.length = vin.length ∧ ∃ view',
      (vin.zip txundo).reverse.foldlM (restoreInput env') (view, true) =
        .ok (view', txundo.all (canRestore env')) ∧ SameCoins view' v := by
  induction vin generalizing v txundo with
  | nil =>
    cases h
    exact ⟨rfl, view, rfl, hsame⟩
  | cons txin vin ih =>
    obtain ⟨coin, vprevout, rfl, hfind, hrest⟩ := spendInputs_cons h
    obtain ⟨hlength, view₁, hfold, hsame₁⟩ := ih (hv.erase txin.prevout) hrest
    have hcount : view₁.count txin.prevout = false := by
      rw [count_eq_false, hsame₁, find?_erase_self]
    have hstep : restoreInput env' (view₁, vprevout.all (canRestore env')) (txin, coin) =
        .ok (view₁.assign txin.prevout coin,
          vprevout.all (canRestore env') && canRestore env' coin) := by
      simp only [restoreInput, applyTxInUndo_eq (hv _ _ hfind), hcount, Bool.not_false,
        Bool.true_and]
      rfl
    refine ⟨by rw [List.length_cons, List.length_cons, hlength],
      view₁.assign txin.prevout coin, ?_, ?_⟩
    · rw [List.zip_cons_cons, List.reverse_cons, List.foldlM_append, hfold, List.all_cons,
        Bool.and_comm]
      have hone : ∀ s, [(txin, coin)].foldlM (restoreInput env') s =
          restoreInput env' s (txin, coin) := fun s => by
        rw [List.foldlM_cons]
        exact bind_pure _
      exact (hone _).trans hstep
    · intro out
      rw [find?_assign]
      by_cases hout : out = txin.prevout
      · rw [if_pos hout, hout, hfind]
      · rw [if_neg hout, hsame₁, find?_erase_ne hout]

theorem restoreInputs_eq (env' : Env) (hv : v.Valid)
    (h : spendInputs env tx.vin v = .ok (w, txundo)) (hsame : SameCoins view w) :
    ∃ view', restoreInputs env' tx.vin txundo view =
        .ok (view', txundo.all (canRestore env')) ∧ SameCoins view' v := by
  obtain ⟨hlength, view', hfold, hsame'⟩ := restoreInput_foldlM env' hv h hsame
  refine ⟨view', ?_, hsame'⟩
  rw [restoreInputs, hlength, decide_eq_true rfl]
  exact hfold

/-! ## Transactions -/

/-- The calls of `UpdateCoins` in `ConnectBlock`: the view, and the undo data of all but the
coinbase. -/
def CCoinsView.updateAll (env : Env) (nHeight : ℕ) :
    List CTransaction → CCoinsView → Except String (CCoinsView × List CTxUndo)
  | [], view => .ok (view, [])
  | tx :: txs, view => do
    let (view, txundo) ← view.update env tx nHeight
    let (view, vtxundo) ← updateAll env nHeight txs view
    return (view, if tx.isCoinBase then vtxundo else txundo :: vtxundo)

theorem update_coinbase (htx : tx.isCoinBase = true)
    (h : v.update env tx nHeight = .ok (w, txundo)) : v.addOutputs tx nHeight = .ok w := by
  rw [CCoinsView.update, CCoinsView.spendTx, if_pos htx, bind_ok] at h
  obtain ⟨⟨v₁, undo⟩, hspend, h⟩ := h
  cases hspend
  simp only [bind_ok, pure_ok] at h
  obtain ⟨v₂, hadd, heq⟩ := h
  cases heq
  exact hadd

theorem update_other (htx : tx.isCoinBase = false)
    (h : v.update env tx nHeight = .ok (w, txundo)) :
    ∃ v₁, spendInputs env tx.vin v = .ok (v₁, txundo) ∧ v₁.addOutputs tx nHeight = .ok w := by
  rw [CCoinsView.update, CCoinsView.spendTx, htx, if_neg Bool.false_ne_true, bind_ok] at h
  obtain ⟨⟨v₁, undo⟩, hspend, h⟩ := h
  simp only [bind_ok, pure_ok] at h
  obtain ⟨v₂, hadd, heq⟩ := h
  cases heq
  exact ⟨v₁, hspend, hadd⟩

theorem updateAll_cons {txs : List CTransaction} {vtxundo : List CTxUndo}
    (h : v.updateAll env nHeight (tx :: txs) = .ok (w, vtxundo)) :
    ∃ v₁ txundo vtxundo', v.update env tx nHeight = .ok (v₁, txundo) ∧
      v₁.updateAll env nHeight txs = .ok (w, vtxundo') ∧
      vtxundo = if tx.isCoinBase then vtxundo' else txundo :: vtxundo' := by
  rw [CCoinsView.updateAll, bind_ok] at h
  obtain ⟨⟨v₁, txundo⟩, hupdate, h⟩ := h
  simp only [bind_ok, pure_ok] at h
  obtain ⟨⟨v₂, vtxundo'⟩, hrest, heq⟩ := h
  cases heq
  exact ⟨v₁, txundo, vtxundo', hupdate, hrest, rfl⟩

/-- The coins in one round of the loop of `DisconnectBlock`. -/
def disconnectTxCoins (env : Env) (nHeight : ℕ) (s : CCoinsView × Bool)
    (e : CTransaction × Option CTxUndo) : Except String (CCoinsView × Bool) :=
  let spent := unspendOutputs env e.1 nHeight s.1
  match e.2 with
  | none => .ok (spent.1, s.2 && spent.2)
  | some txundo =>
    (restoreInputs env e.1.vin txundo spent.1).map fun r => (r.1, s.2 && spent.2 && r.2)

section Disconnect

variable {st : AssetState} {vUndoData : List (Bytes × CBlockAssetUndo)}

theorem disconnectTx_ok {s s' : DisconnectState} {e : CTransaction × Option CTxUndo} :
    disconnectTx env st nHeight vUndoData s e = .ok s' ↔
      disconnectTxCoins env nHeight (s.view, s.fClean) e = .ok (s'.view, s'.fClean) ∧
        downdateAssets env st vUndoData e.1 s.assetsCache = .ok s'.assetsCache := by
  obtain ⟨view', cache', fClean'⟩ := s'
  obtain ⟨tx, txundo⟩ := e
  rw [disconnectTx, disconnectTxCoins]
  simp only
  rw [bind_ok]
  cases txundo with
  | none =>
    simp only [Except.ok.injEq]
    constructor
    · rintro ⟨cache, hassets, h⟩
      cases h
      exact ⟨by rw [Bool.and_true], hassets⟩
    · rintro ⟨hcoins, hassets⟩
      cases hcoins
      refine ⟨cache', hassets, ?_⟩
      rw [bind_ok]
      exact ⟨(_, true), rfl, by rw [pure_ok, Bool.and_true]⟩
  | some txundo =>
    simp only
    cases hrestore : restoreInputs env tx.vin txundo (unspendOutputs env tx nHeight s.view).1 with
    | error e =>
      constructor
      · rintro ⟨cache, -, h⟩
        cases h
      · rintro ⟨hcoins, -⟩
        cases hcoins
    | ok r =>
      constructor
      · rintro ⟨cache, hassets, h⟩
        cases h
        exact ⟨rfl, hassets⟩
      · rintro ⟨hcoins, hassets⟩
        cases hcoins
        exact ⟨cache', hassets, rfl⟩

theorem disconnectTxs_ok {l : List (CTransaction × Option CTxUndo)} {s s' : DisconnectState} :
    l.foldlM (disconnectTx env st nHeight vUndoData) s = .ok s' ↔
      l.foldlM (disconnectTxCoins env nHeight) (s.view, s.fClean) =
          .ok (s'.view, s'.fClean) ∧
        (l.map Prod.fst).foldlM (fun cache tx => downdateAssets env st vUndoData tx cache)
          s.assetsCache = .ok s'.assetsCache := by
  induction l generalizing s with
  | nil =>
    obtain ⟨view, cache, fClean⟩ := s
    obtain ⟨view', cache', fClean'⟩ := s'
    simp only [List.foldlM_nil, List.map_nil, pure_ok, Prod.mk.injEq, DisconnectState.mk.injEq]
    constructor
    · rintro ⟨hview, hcache, hclean⟩
      exact ⟨⟨hview, hclean⟩, hcache⟩
    · rintro ⟨⟨hview, hclean⟩, hcache⟩
      exact ⟨hview, hcache, hclean⟩
  | cons e l ih =>
    simp only [List.foldlM_cons, List.map_cons, bind_ok]
    constructor
    · rintro ⟨s₁, hstep, hrest⟩
      obtain ⟨hcoins, hassets⟩ := disconnectTx_ok.1 hstep
      obtain ⟨hcoins', hassets'⟩ := ih.1 hrest
      exact ⟨⟨_, hcoins, hcoins'⟩, ⟨_, hassets, hassets'⟩⟩
    · rintro ⟨⟨⟨view, fClean⟩, hcoins, hcoins'⟩, ⟨cache, hassets, hassets'⟩⟩
      have hstep : disconnectTx env st nHeight vUndoData s e = .ok ⟨view, cache, fClean⟩ :=
        disconnectTx_ok.2 ⟨hcoins, hassets⟩
      exact ⟨⟨view, cache, fClean⟩, hstep, ih.2 ⟨hcoins', hassets'⟩⟩

end Disconnect

theorem disconnectTxCoins_eq (env' : Env) (hv : v.Valid) (htx : tx.isCoinBase = false)
    (h : v.update env tx nHeight = .ok (w, txundo)) (hsame : SameCoins view w) (b : Bool) :
    ∃ view', disconnectTxCoins env' nHeight (view, b) (tx, some txundo) =
        .ok (view', b && tx.vout.all (canSpend env') && txundo.all (canRestore env')) ∧
      SameCoins view' v := by
  obtain ⟨v₁, hspend, hadd⟩ := update_other htx h
  obtain ⟨hclean, -⟩ := unspendOutputs_eq env' hadd hsame
  have hsame₁ := sameCoins_unspendOutputs env' htx hadd hsame
  obtain ⟨view', hrestore, hsame'⟩ := restoreInputs_eq env' hv hspend hsame₁
  refine ⟨view', ?_, hsame'⟩
  simp only [disconnectTxCoins, hrestore, hclean, Except.map]

theorem CCoinsView.Valid.update (hv : v.Valid) (hheight : 0 < nHeight)
    (h : v.update env tx nHeight = .ok (w, txundo)) : w.Valid := by
  cases htx : tx.isCoinBase with
  | true => exact hv.addOutputs hheight (update_coinbase htx h)
  | false =>
    obtain ⟨v₁, hspend, hadd⟩ := update_other htx h
    exact (hv.spendInputs hspend).addOutputs hheight hadd

theorem disconnectTxs_eq (env' : Env) {txs : List CTransaction} {vtxundo : List CTxUndo}
    (hv : v.Valid) (hheight : 0 < nHeight) (htxs : ∀ tx ∈ txs, tx.isCoinBase = false)
    (h : v.updateAll env nHeight txs = .ok (w, vtxundo)) (hsame : SameCoins view w) :
    vtxundo.length = txs.length ∧ ∃ view',
      (txs.zip (vtxundo.map some)).reverse.foldlM (disconnectTxCoins env' nHeight) (view, true) =
        .ok (view', (txs.zip vtxundo).all fun e =>
          e.1.vout.all (canSpend env') && e.2.all (canRestore env')) ∧
      SameCoins view' v := by
  induction txs generalizing v vtxundo with
  | nil =>
    cases h
    exact ⟨rfl, view, rfl, hsame⟩
  | cons tx txs ih =>
    rw [List.forall_mem_cons] at htxs
    obtain ⟨v₁, txundo, vtxundo', hupdate, hrest, rfl⟩ := updateAll_cons h
    rw [htxs.1]
    obtain ⟨hlength, view₁, hfold, hsame₁⟩ := ih (hv.update hheight hupdate) htxs.2 hrest
    obtain ⟨view', hstep, hsame'⟩ :=
      disconnectTxCoins_eq env' hv htxs.1 hupdate hsame₁
        ((txs.zip vtxundo').all fun e =>
          e.1.vout.all (canSpend env') && e.2.all (canRestore env'))
    refine ⟨?_, view', ?_, hsame'⟩
    · rw [if_neg Bool.false_ne_true, List.length_cons, List.length_cons, hlength]
    · rw [if_neg Bool.false_ne_true, List.map_cons, List.zip_cons_cons, List.reverse_cons,
        List.foldlM_append, hfold, List.zip_cons_cons, List.all_cons, Bool.and_comm,
        ← Bool.and_assoc]
      have hone : ∀ s, [(tx, some txundo)].foldlM (disconnectTxCoins env' nHeight) s =
          disconnectTxCoins env' nHeight s (tx, some txundo) := fun s => by
        rw [List.foldlM_cons]
        exact bind_pure _
      exact (hone _).trans hstep

end UnemployCoin
