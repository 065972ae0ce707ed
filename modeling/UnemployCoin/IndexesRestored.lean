import UnemployCoin.CoinsRestored
import UnemployCoin.Indexes
/-!
# The indexes after a block is undone

Connecting a block and disconnecting it brings the indexes by address back, when no input of the
block spends an output that pays a **public key** and its transactions are new.  The spent index
comes back only when there was nothing to write to it.
-/

namespace UnemployCoin

open Check Batch StdMap

variable {env : Env} {nHeight : ℕ} {tx : CTransaction} {v w view : CCoinsView}

/-! ## Batches -/

namespace IndexBatch

variable {b b' b'' : IndexBatch}

@[simp] theorem empty_append : empty.append b = b := rfl

@[simp] theorem append_empty : b.append empty = b := by
  obtain ⟨address, unspent, spent⟩ := b
  simp [append, empty]

theorem append_assoc : (b.append b').append b'' = b.append (b'.append b'') := by
  simp [append, List.append_assoc]

theorem concat_append (l l' : List IndexBatch) :
    concat (l ++ l') = (concat l).append (concat l') := by
  induction l with
  | nil => rfl
  | cons b l ih => exact (congrArg b.append ih).trans append_assoc.symm

theorem addressIndex_concat (l : List IndexBatch) :
    (concat l).addressIndex = l.flatMap addressIndex := by
  induction l with
  | nil => rfl
  | cons b l ih =>
    rw [List.flatMap_cons, ← ih]
    rfl

theorem unspentWrites_append : (b.append b').unspentWrites = b.unspentWrites ++ b'.unspentWrites :=
  List.map_append

theorem unspentWrites_concat (l : List IndexBatch) :
    (concat l).unspentWrites = l.flatMap unspentWrites := by
  induction l with
  | nil => rfl
  | cons b l ih =>
    rw [List.flatMap_cons, ← ih, ← unspentWrites_append]
    rfl

end IndexBatch

/-! ## What is undone -/

/-- What undoing the inputs of transaction `i` writes, from input `n` on, for the coins that it
spent. -/
def undoInputs (env : Env) (nHeight i : ℕ) (txhash : uint256) (vin : List CTxIn)
    (coins : List Coin) (n : ℕ) : IndexBatch :=
  .concat (((vin.zip coins).zipIdx n).reverse.map fun ((txin, coin), j) =>
    disconnectInput env nHeight i txhash j txin.prevout coin)

/-- What undoing the outputs of transaction `i` writes. -/
def undoOutputs (env : Env) (nHeight i : ℕ) (tx : CTransaction) : IndexBatch :=
  .concat (tx.vout.zipIdx.reverse.map fun (out, k) => disconnectOutput env nHeight i tx.hash k out)

/-- The coins that a transaction spends, if it is not the coinbase. -/
def coinsOf : Option CTxUndo → List Coin
  | none => []
  | some txundo => txundo

/-- What undoing some transactions writes, from number `i` on. -/
def undoTxs (env : Env) (nHeight : ℕ) : ℕ → List (CTransaction × Option CTxUndo) → IndexBatch
  | _, [] => .empty
  | i, (tx, txundo) :: l =>
    (undoTxs env nHeight (i + 1) l).append
      ((undoOutputs env nHeight i tx).append
        (undoInputs env nHeight i tx.hash tx.vin (coinsOf txundo) 0))

variable {txhash : uint256} {vin : List CTxIn}

theorem undoInputs_nil {i n : ℕ} :
    undoInputs env nHeight i txhash vin [] n = .empty := by
  rw [undoInputs, List.zip_nil_right]
  rfl

variable {txin : CTxIn}

theorem undoInputs_cons {i n : ℕ}
    {coin : Coin} {coins : List Coin} :
    undoInputs env nHeight i txhash (txin :: vin) (coin :: coins) n =
      (undoInputs env nHeight i txhash vin coins (n + 1)).append
        (disconnectInput env nHeight i txhash n txin.prevout coin) := by
  have hlist : ((txin :: vin).zip (coin :: coins)).zipIdx n =
      ((txin, coin), n) :: (vin.zip coins).zipIdx (n + 1) := rfl
  rw [undoInputs, hlist, List.reverse_cons, List.map_append, IndexBatch.concat_append]
  exact congrArg _ IndexBatch.append_empty

theorem disconnectInputRound_eq {i j : ℕ} {coin : Coin} (hcoin : coin.Valid)
    (txin : CTxIn) (b : IndexBatch) :
    disconnectInputRound env nHeight i txhash (v, b) ((txin, coin), j) =
      .ok (v.assign txin.prevout coin,
        b.append (disconnectInput env nHeight i txhash j txin.prevout coin)) := by
  have haccess : CCoinsView.accessCoin (v.assign txin.prevout coin) txin.prevout = coin := by
    rw [CCoinsView.accessCoin, find?_assign_self, Option.getD_some]
  simp only [disconnectInputRound, applyTxInUndo_eq hcoin, bind, Except.bind, haccess]
  rfl

theorem disconnectInputRound_foldlM (nHeight i n : ℕ) (txhash : uint256)
    {txundo : CTxUndo} (hv : v.Valid) (h : spendInputs env vin v = .ok (w, txundo))
    (hsame : SameCoins view w) (b : IndexBatch) :
    ∃ view', ((vin.zip txundo).zipIdx n).reverse.foldlM
        (disconnectInputRound env nHeight i txhash) (view, b) =
        .ok (view', b.append (undoInputs env nHeight i txhash vin txundo n)) ∧
      SameCoins view' v := by
  induction vin generalizing v txundo n with
  | nil =>
    cases h
    refine ⟨view, ?_, hsame⟩
    exact congrArg (fun b => Except.ok (view, b)) IndexBatch.append_empty.symm
  | cons txin vin ih =>
    obtain ⟨coin, vprevout, rfl, hfind, hrest⟩ := spendInputs_cons h
    obtain ⟨view₁, hfold, hsame₁⟩ := ih (n + 1) (hv.erase txin.prevout) hrest
    refine ⟨view₁.assign txin.prevout coin, ?_, fun out => ?_⟩
    · have hlist : ((txin :: vin).zip (coin :: vprevout)).zipIdx n =
          ((txin, coin), n) :: (vin.zip vprevout).zipIdx (n + 1) := rfl
      rw [hlist, List.reverse_cons, List.foldlM_append, hfold, undoInputs_cons,
        ← IndexBatch.append_assoc]
      refine (List.foldlM_cons (m := Except String) ..).trans ?_
      rw [disconnectInputRound_eq (hv _ _ hfind)]
      rfl
    · rw [find?_assign]
      by_cases hout : out = txin.prevout
      · rw [if_pos hout, hout, hfind]
      · rw [if_neg hout, hsame₁, find?_erase_ne hout]

variable {i : ℕ}

theorem disconnectTxIndexes_other {txundo : CTxUndo} (hv : v.Valid)
    (htx : tx.isCoinBase = false) (h : v.update env tx nHeight = .ok (w, txundo))
    (hsame : SameCoins view w) (b : IndexBatch) :
    ∃ view', disconnectTxIndexes env nHeight (view, b) ((tx, some txundo), i) =
        .ok (view', b.append ((undoOutputs env nHeight i tx).append
          (undoInputs env nHeight i tx.hash tx.vin txundo 0))) ∧
      SameCoins view' v := by
  obtain ⟨v₁, hspend, hadd⟩ := update_other htx h
  have hsame₁ := sameCoins_unspendOutputs env htx hadd hsame
  obtain ⟨view', hfold, hsame'⟩ :=
    disconnectInputRound_foldlM nHeight i 0 tx.hash hv hspend hsame₁ .empty
  refine ⟨view', ?_, hsame'⟩
  rw [IndexBatch.empty_append] at hfold
  simp only [disconnectTxIndexes, disconnectInputs, hfold, bind, Except.bind]
  rw [IndexBatch.append_assoc]
  rfl

variable {txs : List CTransaction} {vtxundo : List CTxUndo}

theorem disconnectTxsIndexes_eq
    (hv : v.Valid) (hheight : 0 < nHeight) (htxs : ∀ tx ∈ txs, tx.isCoinBase = false)
    (h : v.updateAll env nHeight txs = .ok (w, vtxundo)) (hsame : SameCoins view w)
    (b : IndexBatch) :
    ∃ view', ((txs.zip (vtxundo.map some)).zipIdx i).reverse.foldlM
        (disconnectTxIndexes env nHeight) (view, b) =
        .ok (view', b.append (undoTxs env nHeight i (txs.zip (vtxundo.map some)))) ∧
      SameCoins view' v := by
  induction txs generalizing v vtxundo i with
  | nil =>
    cases h
    refine ⟨view, ?_, hsame⟩
    exact congrArg (fun b => Except.ok (view, b)) IndexBatch.append_empty.symm
  | cons tx txs ih =>
    rw [List.forall_mem_cons] at htxs
    obtain ⟨v₁, txundo, vtxundo', hupdate, hrest, rfl⟩ := updateAll_cons h
    rw [htxs.1, if_neg Bool.false_ne_true]
    obtain ⟨view₁, hfold, hsame₁⟩ := ih (i := i + 1) (hv.update hheight hupdate) htxs.2 hrest
    have hlist : ((tx :: txs).zip ((txundo :: vtxundo').map some)).zipIdx i =
        ((tx, some txundo), i) :: (txs.zip (vtxundo'.map some)).zipIdx (i + 1) := rfl
    obtain ⟨view', hstep, hsame'⟩ := disconnectTxIndexes_other (i := i) hv htxs.1 hupdate hsame₁
      (b.append (undoTxs env nHeight (i + 1) (txs.zip (vtxundo'.map some))))
    refine ⟨view', ?_, hsame'⟩
    rw [hlist, List.reverse_cons, List.foldlM_append, hfold]
    refine (List.foldlM_cons (m := Except String) ..).trans ?_
    rw [hstep, IndexBatch.append_assoc]
    rfl

/-- **What undoing a block writes**, in terms of the coins that its transactions spent. -/
theorem disconnectIndexes_eq {coinbase : CTransaction} (hcoinbase : coinbase.isCoinBase = true)
    (htxs : ∀ tx ∈ txs, tx.isCoinBase = false) (hv : v.Valid) (hheight : 0 < nHeight)
    (h : v.updateAll env nHeight (coinbase :: txs) = .ok (w, vtxundo)) :
    disconnectIndexes env nHeight (coinbase :: txs) vtxundo w =
      .ok (undoTxs env nHeight 0 ((coinbase :: txs).zip (none :: vtxundo.map some))) := by
  obtain ⟨v₁, txundo, vtxundo', hupdate, hrest, rfl⟩ := updateAll_cons h
  rw [hcoinbase, if_pos rfl]
  obtain ⟨view₁, hfold, -⟩ := disconnectTxsIndexes_eq (i := 1) (hv.update hheight hupdate)
    hheight htxs hrest (fun _ => rfl) .empty
  have hlist : ((coinbase :: txs).zip (none :: vtxundo'.map some)).zipIdx =
      ((coinbase, none), 0) :: (txs.zip (vtxundo'.map some)).zipIdx 1 := rfl
  rw [IndexBatch.empty_append] at hfold
  have hnone : undoInputs env nHeight 0 coinbase.hash coinbase.vin (coinsOf none) 0 = .empty :=
    undoInputs_nil
  rw [disconnectIndexes, hlist, List.reverse_cons, List.foldlM_append, hfold,
    List.zip_cons_cons, undoTxs, hnone, IndexBatch.append_empty]
  exact congrArg Except.ok IndexBatch.append_empty

/-! ## The unspent outputs -/

def CAddressUnspentValue.stored (value : CAddressUnspentValue) : Option CAddressUnspentValue :=
  if value.isNull then none else some value

def Indexed (env : Env) (view : CCoinsView)
    (m : StdMap CAddressUnspentKey CAddressUnspentValue) : Prop :=
  ∀ out coin t, view.find? out = some coin → indexTarget env coin.out = some t →
    m.find? (t.unspentKey out) =
      CAddressUnspentValue.stored ⟨t.amount, coin.out.scriptPubKey, coin.nHeight⟩

/-- What the inputs of transaction `i` write, from input `n` on. -/
def connectInputs (env : Env) (nHeight i : ℕ) (txhash : uint256) (view : CCoinsView)
    (vin : List CTxIn) (n : ℕ) : IndexBatch :=
  .concat ((vin.zipIdx n).map fun (txin, j) =>
    connectInput env nHeight i txhash j txin.prevout (view.accessCoin txin.prevout).out)

/-- What the outputs of transaction `i` write. -/
def connectOutputs (env : Env) (nHeight i : ℕ) (tx : CTransaction) : IndexBatch :=
  .concat (tx.vout.zipIdx.map fun (out, k) => connectOutput env nHeight i tx.hash k out)

theorem connectTxIndexes_coinbase (htx : tx.isCoinBase = true) :
    connectTxIndexes env nHeight i tx v = connectOutputs env nHeight i tx := by
  rw [connectTxIndexes, htx, if_pos rfl]
  rfl

theorem connectTxIndexes_other (htx : tx.isCoinBase = false) :
    connectTxIndexes env nHeight i tx v =
      (connectInputs env nHeight i tx.hash v tx.vin 0).append
      (connectOutputs env nHeight i tx) := by
  rw [connectTxIndexes, htx, if_neg Bool.false_ne_true, IndexBatch.concat_append]
  rfl

theorem connectInputs_cons {i n : ℕ} :
    connectInputs env nHeight i txhash v (txin :: vin) n =
      (connectInput env nHeight i txhash n txin.prevout (v.accessCoin txin.prevout).out).append
        (connectInputs env nHeight i txhash v vin (n + 1)) := rfl

def outputWrites (env : Env) (nHeight : ℕ) (tx : CTransaction) :
    List (CAddressUnspentKey × Option CAddressUnspentValue) :=
  tx.outputs.flatMap fun (out, txout) => (indexTarget env txout).toList.map fun t =>
    (t.unspentKey out, CAddressUnspentValue.stored ⟨t.amount, txout.scriptPubKey, nHeight⟩)

def outputKeys (env : Env) (tx : CTransaction) : List CAddressUnspentKey :=
  tx.outputs.reverse.flatMap fun (out, txout) =>
    (indexTarget env txout).toList.map fun t => t.unspentKey out

theorem unspentWrites_connectOutputs :
    (connectOutputs env nHeight i tx).unspentWrites = outputWrites env nHeight tx := by
  rw [connectOutputs, IndexBatch.unspentWrites_concat, List.flatMap_map, outputWrites,
    CTransaction.outputs, List.flatMap_map]
  congr 1
  funext e
  simp only [IndexBatch.unspentWrites, connectOutput]
  cases indexTarget env e.1 <;> rfl

theorem unspentWrites_undoOutputs : (undoOutputs env nHeight i tx).unspentWrites =
    (outputKeys env tx).map fun key => (key, none) := by
  rw [undoOutputs, IndexBatch.unspentWrites_concat, List.flatMap_map, outputKeys,
    CTransaction.outputs, ← List.map_reverse, List.flatMap_map, List.map_flatMap]
  congr 1
  funext e
  simp only [IndexBatch.unspentWrites, disconnectOutput]
  cases indexTarget env e.1 <;> rfl

theorem mem_outputWrites {e : CAddressUnspentKey × Option CAddressUnspentValue} :
    e ∈ outputWrites env nHeight tx ↔ ∃ out txout t, (out, txout) ∈ tx.outputs ∧
      indexTarget env txout = some t ∧ t.unspentKey out = e.1 ∧
        CAddressUnspentValue.stored ⟨t.amount, txout.scriptPubKey, nHeight⟩ = e.2 := by
  obtain ⟨key, value⟩ := e
  simp only [outputWrites, List.mem_flatMap, List.mem_map, Option.mem_toList, Prod.mk.injEq,
    Prod.exists]
  constructor
  · rintro ⟨out, txout, hmem, t, ht, hkey, hvalue⟩
    exact ⟨out, txout, t, hmem, ht, hkey, hvalue⟩
  · rintro ⟨out, txout, t, hmem, ht, hkey, hvalue⟩
    exact ⟨out, txout, hmem, t, ht, hkey, hvalue⟩

theorem mem_outputKeys {key : CAddressUnspentKey} :
    key ∈ outputKeys env tx ↔ ∃ out txout t, (out, txout) ∈ tx.outputs ∧
      indexTarget env txout = some t ∧ t.unspentKey out = key := by
  simp only [outputKeys, List.mem_flatMap, List.mem_map, Option.mem_toList, List.mem_reverse,
    Prod.exists]
  constructor
  · rintro ⟨out, txout, hmem, t, ht, hkey⟩
    exact ⟨out, txout, t, hmem, ht, hkey⟩
  · rintro ⟨out, txout, t, hmem, ht, hkey⟩
    exact ⟨out, txout, hmem, t, ht, hkey⟩

theorem outputs_undone_iff {m : StdMap CAddressUnspentKey CAddressUnspentValue} :
    Undoes m (connectOutputs env nHeight i tx).unspentWrites
        (undoOutputs env nHeight i tx).unspentWrites ↔
      ∀ key ∈ outputKeys env tx, m.find? key = none := by
  rw [unspentWrites_connectOutputs, unspentWrites_undoOutputs]
  refine undoes_erasures_iff fun e he => ?_
  obtain ⟨out, txout, t, hmem, ht, hkey, -⟩ := mem_outputWrites.1 he
  exact mem_outputKeys.2 ⟨out, txout, t, hmem, ht, hkey⟩

/-- Every entry that connecting writes is one that undoing erases. -/
def Covers (b b' : IndexBatch) : Prop := ∀ e ∈ b'.addressIndex, e.1 ∈ b.addressIndex.map Prod.fst

theorem outputs_covered :
    Covers (undoOutputs env nHeight i tx) (connectOutputs env nHeight i tx) := by
  intro e he
  rw [connectOutputs, IndexBatch.addressIndex_concat] at he
  obtain ⟨b, hb, he⟩ := List.mem_flatMap.1 he
  obtain ⟨⟨out, k⟩, hmem, rfl⟩ := List.mem_map.1 hb
  refine List.mem_map.2 ⟨e, ?_, rfl⟩
  rw [undoOutputs, IndexBatch.addressIndex_concat, List.mem_flatMap]
  exact ⟨disconnectOutput env nHeight i tx.hash k out,
    List.mem_map.2 ⟨(out, k), List.mem_reverse.2 hmem, rfl⟩, he⟩

theorem blockHeight_undoTxs {l : List (CTransaction × Option CTxUndo)} :
    ∀ e ∈ (undoTxs env nHeight i l).addressIndex, e.1.blockHeight = nHeight := by
  have hinput : ∀ (txhash : uint256) (j : ℕ) (out : COutPoint) (coin : Coin) (i : ℕ),
      ∀ e ∈ (disconnectInput env nHeight i txhash j out coin).addressIndex,
        e.1.blockHeight = nHeight := by
    intro txhash j out coin i e he
    rw [disconnectInput] at he
    split at he
    · obtain rfl := List.mem_singleton.1 he
      rfl
    · split at he
      · obtain rfl := List.mem_singleton.1 he
        rfl
      · split at he
        · obtain rfl := List.mem_singleton.1 he
          rfl
        · split at he
          · obtain rfl := List.mem_singleton.1 he
            rfl
          · cases he
  induction l generalizing i with
  | nil => exact fun e he => nomatch he
  | cons x l ih =>
    intro e he
    rcases List.mem_append.1 he with he | he
    · exact ih e he
    · rcases List.mem_append.1 he with he | he
      · rw [undoOutputs, IndexBatch.addressIndex_concat] at he
        obtain ⟨b, hb, he⟩ := List.mem_flatMap.1 he
        obtain ⟨y, -, rfl⟩ := List.mem_map.1 hb
        simp only [disconnectOutput, List.mem_map] at he
        obtain ⟨t, -, rfl⟩ := he
        rfl
      · rw [undoInputs, IndexBatch.addressIndex_concat] at he
        obtain ⟨b, hb, he⟩ := List.mem_flatMap.1 he
        obtain ⟨y, -, rfl⟩ := List.mem_map.1 hb
        exact hinput _ _ _ _ _ e he

/-! ## The spent index -/

namespace IndexBatch

variable {b b' : IndexBatch}

theorem spentWrites_append : (b.append b').spentWrites = b.spentWrites ++ b'.spentWrites :=
  List.map_append

theorem spentWrites_concat (l : List IndexBatch) :
    (concat l).spentWrites = l.flatMap spentWrites := by
  induction l with
  | nil => rfl
  | cons b l ih =>
    rw [List.flatMap_cons, ← ih, ← spentWrites_append]
    rfl

end IndexBatch

theorem spentWrites_connectOutputs :
    (connectOutputs env nHeight i tx).spentWrites = [] := by
  rw [connectOutputs, IndexBatch.spentWrites_concat, List.flatMap_eq_nil_iff]
  intro b hb
  obtain ⟨e, -, rfl⟩ := List.mem_map.1 hb
  rfl

theorem spentWrites_connectInput {i j : ℕ} {out : COutPoint} {prevout : CTxOut}
    (htx : txhash ≠ 0) :
    ∃ value : CSpentIndexValue, value.blockHeight = nHeight ∧
      (connectInput env nHeight i txhash j out prevout).spentWrites =
        [(⟨out.hash, out.n⟩, some value)] := by
  refine ⟨⟨txhash, j, nHeight, prevout.nValue,
    ((indexTarget env prevout).map IndexTarget.addressType).getD 0,
    ((indexTarget env prevout).map IndexTarget.hashBytes).getD nullHash160⟩, rfl, ?_⟩
  have hnull : (txhash == 0) = false := beq_eq_false_iff_ne.2 htx
  simp only [IndexBatch.spentWrites, connectInput, List.map_cons, List.map_nil,
    CSpentIndexValue.isNull, hnull, Bool.false_eq_true, if_false]

theorem spentWrites_connectInputs {i n : ℕ}
    (htx : txhash ≠ 0) :
    (∀ e ∈ (connectInputs env nHeight i txhash v vin n).spentWrites,
      ∃ value, e.2 = some value ∧ value.blockHeight = nHeight) ∧
    ∀ txin ∈ vin, (⟨txin.prevout.hash, txin.prevout.n⟩ : CSpentIndexKey) ∈
      (connectInputs env nHeight i txhash v vin n).spentWrites.map Prod.fst := by
  induction vin generalizing n with
  | nil => exact ⟨List.forall_mem_nil _, List.forall_mem_nil _⟩
  | cons txin vin ih =>
    obtain ⟨hvalues, hkeys⟩ := ih (n := n + 1)
    obtain ⟨value, hheight, hwrites⟩ := spentWrites_connectInput (i := i) (j := n) htx
    rw [connectInputs_cons, IndexBatch.spentWrites_append, hwrites]
    refine ⟨fun e he => ?_, fun txin' hmem => ?_⟩
    · rcases List.mem_cons.1 he with rfl | he
      · exact ⟨value, rfl, hheight⟩
      · exact hvalues e he
    · rw [List.singleton_append, List.map_cons]
      rcases List.mem_cons.1 hmem with rfl | hmem
      · exact List.mem_cons_self
      · exact List.mem_cons_of_mem _ (hkeys txin' hmem)

theorem spentWrites_connectIndexes
    (hhashes : ∀ tx ∈ txs, tx.hash ≠ 0) :
    ∀ e ∈ (connectIndexes env nHeight i txs v).spentWrites,
      ∃ value, e.2 = some value ∧ value.blockHeight = nHeight := by
  induction txs generalizing v i with
  | nil => exact List.forall_mem_nil _
  | cons tx txs ih =>
    rw [List.forall_mem_cons] at hhashes
    intro e he
    rw [connectIndexes, IndexBatch.spentWrites_append, List.mem_append] at he
    rcases he with he | he
    · cases htx : tx.isCoinBase with
      | true =>
        rw [connectTxIndexes_coinbase htx, spentWrites_connectOutputs] at he
        cases he
      | false =>
        rw [connectTxIndexes_other htx, IndexBatch.spentWrites_append, spentWrites_connectOutputs,
          List.append_nil] at he
        exact (spentWrites_connectInputs hhashes.1).1 e he
    · cases hupdate : v.update env tx nHeight with
      | error err =>
        rw [hupdate] at he
        cases he
      | ok r =>
        rw [hupdate] at he
        exact ih hhashes.2 e he

theorem spent_mem_connectIndexes
    (hhashes : ∀ tx ∈ txs, tx.hash ≠ 0)
    (h : v.updateAll env nHeight txs = .ok (w, vtxundo)) (hmem : tx ∈ txs)
    (htx : tx.isCoinBase = false) (hin : txin ∈ tx.vin) :
    (⟨txin.prevout.hash, txin.prevout.n⟩ : CSpentIndexKey) ∈
      (connectIndexes env nHeight i txs v).spentWrites.map Prod.fst := by
  induction txs generalizing v vtxundo i with
  | nil => cases hmem
  | cons tx' txs ih =>
    rw [List.forall_mem_cons] at hhashes
    obtain ⟨v₁, txundo, vtxundo', hupdate, hrest, -⟩ := updateAll_cons h
    rw [connectIndexes, hupdate, IndexBatch.spentWrites_append, List.map_append, List.mem_append]
    rcases List.mem_cons.1 hmem with rfl | hmem
    · rw [connectTxIndexes_other htx, IndexBatch.spentWrites_append, spentWrites_connectOutputs,
        List.append_nil]
      exact Or.inl ((spentWrites_connectInputs hhashes.1).2 txin hin)
    · exact Or.inr (ih hhashes.2 hrest hmem)

/-! ## A block -/

/-- The entries of the indexes are about blocks below a height. -/
structure CBlockTreeDB.Below (db : CBlockTreeDB) (nHeight : ℕ) : Prop where
  address : ∀ key amount, db.addressIndex.find? key = some amount → key.blockHeight < nHeight
  spent : ∀ key value, db.spentIndex.find? key = some value → value.blockHeight < nHeight

structure CBlockTreeDB.Same (db db' : CBlockTreeDB) : Prop where
  address : Batch.Same db.addressIndex db'.addressIndex
  unspent : Batch.Same db.addressUnspentIndex db'.addressUnspentIndex
  spent : Batch.Same db.spentIndex db'.spentIndex

/-- Entries that a block writes to the spent index **stay** when it is undone. -/
theorem spentIndex_changed {db : CBlockTreeDB} (hdb : db.Below nHeight) {key : CSpentIndexKey}
    {b b' : IndexBatch}
    (hwrites : ∀ e ∈ b.spentWrites, ∃ value, e.2 = some value ∧ value.blockHeight = nHeight)
    (hkey : key ∈ b.spentWrites.map Prod.fst) :
    ¬Batch.Same ((db.connect b).disconnect b').spentIndex db.spentIndex := by
  intro hsame
  have hstays : (writeAll db.spentIndex b.spentWrites).find? key = db.spentIndex.find? key :=
    hsame key
  rw [find?_writeAll] at hstays
  cases hlast : Toggles.last? b.spentWrites key with
  | none =>
    obtain ⟨e, he, heq⟩ := List.mem_map.1 hkey
    exact Toggles.last?_eq_none.1 hlast e he heq
  | some value =>
    rw [hlast, Option.getD_some] at hstays
    obtain ⟨entry, hentry, hheight⟩ := hwrites _ (Toggles.mem_of_last? hlast)
    simp only at hentry
    rw [hentry] at hstays
    have hbelow := hdb.spent key entry hstays.symm
    omega

theorem addressIndex_restored {db : CBlockTreeDB} (hdb : db.Below nHeight) {b b' : IndexBatch}
    (hcovers : Covers b' b) (hheight : ∀ e ∈ b'.addressIndex, e.1.blockHeight = nHeight) :
    Batch.Same ((db.connect b).disconnect b').addressIndex db.addressIndex := by
  refine (undoes_erasures_iff fun e he => ?_).2 fun key hkey => ?_
  · obtain ⟨e', he', rfl⟩ := List.mem_map.1 he
    exact hcovers e' he'
  · obtain ⟨e, he, rfl⟩ := List.mem_map.1 hkey
    cases hfind : db.addressIndex.find? e.1 with
    | none => rfl
    | some amount =>
      have hbelow := hdb.address e.1 amount hfind
      have heq := hheight e he
      omega

section Block

variable {st : AssetState} {ctx : BlockContext} {block : CBlock} {cache : CAssetsCache}
  {s : ConnectState} {db : CBlockTreeDB}

/-- **The indexes come back** exactly when the block has no transaction but its coinbase, and the
coinbase replaces no entry. -/
theorem disconnectBlock_restoresIndexes_iff (hgenesis : block.hash ≠ env.params.hashGenesisBlock)
    (hview : view.Valid) (hheight : 0 < ctx.nHeight) (hdb : db.Below ctx.nHeight)
    (hhashes : ∀ tx ∈ block.vtx, tx.hash ≠ 0)
    (h : connectBlock env st ctx block view cache = .ok s) :
    ∃ b, disconnectIndexes env ctx.nHeight block.vtx s.vtxundo s.view = .ok b ∧
      (CBlockTreeDB.Same
          ((db.connect (connectIndexes env ctx.nHeight 0 block.vtx view)).disconnect b) db ↔
        (∀ tx ∈ block.vtx, tx.isCoinBase = true) ∧
          ∀ tx ∈ block.vtx, ∀ key ∈ outputKeys env tx,
            db.addressUnspentIndex.find? key = none) := by
  obtain ⟨⟨coinbase, txs, hvtx, hcoinbase, htxs⟩, hupdates⟩ := updateAll_of_connectBlock hgenesis h
  obtain ⟨hblock, -, -⟩ := connectBlock_ok hgenesis h
  obtain ⟨-, -, -, -, -, hchecks⟩ := checkBlock_ok hblock
  rw [hvtx] at hupdates hhashes hchecks ⊢
  refine ⟨_, disconnectIndexes_eq hcoinbase htxs hview hheight hupdates, ?_⟩
  cases txs with
  | cons tx txs =>
    have htx : tx.isCoinBase = false := htxs tx List.mem_cons_self
    have hmem : tx ∈ coinbase :: tx :: txs := List.mem_cons_of_mem _ List.mem_cons_self
    constructor
    · intro hsame
      obtain ⟨txin, vin, hvin⟩ := vin_of_checkTransaction (hchecks tx hmem)
      have hkey := spent_mem_connectIndexes (i := 0) hhashes hupdates hmem htx
        (by rw [hvin]; exact List.mem_cons_self)
      exact absurd hsame.spent
        (spentIndex_changed hdb (spentWrites_connectIndexes hhashes) hkey)
    · rintro ⟨hall, -⟩
      have htrue := hall tx hmem
      rw [htx] at htrue
      cases htrue
  | nil =>
    obtain ⟨v₁, txundo, vtxundo', hupdate, hrest, hundo⟩ := updateAll_cons hupdates
    have hconnect : connectIndexes env ctx.nHeight 0 [coinbase] view =
        connectOutputs env ctx.nHeight 0 coinbase := by
      rw [connectIndexes, hupdate, connectTxIndexes_coinbase hcoinbase]
      exact IndexBatch.append_empty
    have hundone : undoTxs env ctx.nHeight 0 ([coinbase].zip (none :: s.vtxundo.map some)) =
        undoOutputs env ctx.nHeight 0 coinbase := by
      rw [List.zip_cons_cons, List.zip_nil_left, undoTxs, coinsOf, undoInputs_nil,
        IndexBatch.append_empty]
      rfl
    rw [hconnect, hundone]
    constructor
    · intro hsame
      refine ⟨fun tx hmem => ?_, fun tx hmem => ?_⟩
      · rw [List.mem_singleton.1 hmem]
        exact hcoinbase
      · rw [List.mem_singleton.1 hmem]
        exact outputs_undone_iff.1 hsame.unspent
    · rintro ⟨-, hnew⟩
      refine ⟨addressIndex_restored hdb outputs_covered ?_,
        outputs_undone_iff.2 (hnew coinbase List.mem_cons_self), ?_⟩
      · intro e he
        refine @blockHeight_undoTxs env _ 0 [(coinbase, none)] e ?_
        rw [undoTxs, coinsOf, undoInputs_nil, IndexBatch.append_empty]
        exact he
      · have hnothing : (connectOutputs env ctx.nHeight 0 coinbase).spentWrites = [] :=
          spentWrites_connectOutputs
        intro key
        exact congrArg (fun l => (writeAll db.spentIndex l).find? key) hnothing

end Block

/-! ### Two blocks -/

def publicKeyScript : CScript := 0x21 :: 0x02 :: List.replicate 32 7 ++ [OP_CHECKSIG]

/-- The environment of the sample blocks, with a hash of twenty bytes. -/
def publicKeyEnv : Env := { reissueEnv with Hash160 := fun bytes => bytes.take 20 }

def publicKeyCoin : Coin := ⟨⟨5000 * COIN, publicKeyScript⟩, false, 100⟩

def publicKeyView : CCoinsView := StdMap.assign ∅ ⟨8, 0⟩ publicKeyCoin

def publicKeyUnspentKey : CAddressUnspentKey :=
  (publicKeyTarget publicKeyEnv publicKeyCoin.out).unspentKey ⟨8, 0⟩

def publicKeySpendKey : CAddressIndexKey :=
  (publicKeyTarget publicKeyEnv publicKeyCoin.out).indexKey 200 1 11 0 true

def publicKeyIndexes : CBlockTreeDB where
  addressIndex := StdMap.assign ∅
    ((publicKeyTarget publicKeyEnv publicKeyCoin.out).indexKey 100 0 8 0 false) (5000 * COIN)
  addressUnspentIndex := StdMap.assign ∅ publicKeyUnspentKey ⟨5000 * COIN, publicKeyScript, 100⟩
  spentIndex := ∅

theorem publicKeyView_valid : CCoinsView.Valid publicKeyView := by
  intro out coin hfind
  rw [publicKeyView, find?_assign, find?_empty] at hfind
  split at hfind
  · rw [← Option.some.inj hfind]
    exact ⟨by decide +kernel, by decide +kernel, by decide +kernel⟩
  · cases hfind

theorem publicKeyIndexes_below : publicKeyIndexes.Below 200 where
  address := fun key amount hfind => by
    rw [publicKeyIndexes, find?_assign, find?_empty] at hfind
    split at hfind
    · rename_i hkey
      rw [hkey]
      decide +kernel
    · cases hfind
  spent := fun key value hfind => by
    rw [publicKeyIndexes, find?_empty] at hfind
    cases hfind

/-- A block with only its coinbase, which pays an address, leaves the indexes as they were. -/
theorem coinbaseBlock_restored :
    ∃ s b, connectBlock publicKeyEnv .genesis ⟨sampleRules, 200, .empty⟩ (coinbaseBlock 9)
        publicKeyView .empty = .ok s ∧
      disconnectIndexes publicKeyEnv 200 (coinbaseBlock 9).vtx s.vtxundo s.view = .ok b ∧
      ((publicKeyIndexes.connect (connectIndexes publicKeyEnv 200 0 (coinbaseBlock 9).vtx
        publicKeyView)).disconnect b).Same publicKeyIndexes ∧
      outputKeys publicKeyEnv (coinbaseTx 9 (5000 * COIN)) ≠ [] := by
  have hrun : (connectBlock publicKeyEnv .genesis ⟨sampleRules, 200, .empty⟩ (coinbaseBlock 9)
      publicKeyView .empty).isOk = true := by
    decide +kernel
  cases hconnect : connectBlock publicKeyEnv .genesis ⟨sampleRules, 200, .empty⟩
      (coinbaseBlock 9) publicKeyView .empty with
  | error e =>
    rw [hconnect] at hrun
    cases hrun
  | ok s =>
    obtain ⟨b, hundo, hiff⟩ := disconnectBlock_restoresIndexes_iff (by decide +kernel)
      publicKeyView_valid (by decide) publicKeyIndexes_below (by decide) hconnect
    have hnew : ∀ tx ∈ (coinbaseBlock 9).vtx, ∀ key ∈ outputKeys publicKeyEnv tx,
        publicKeyIndexes.addressUnspentIndex.find? key = none := by
      decide +kernel
    exact ⟨s, b, rfl, hundo, hiff.2 ⟨by decide, hnew⟩, by decide +kernel⟩

def publicKeyBlock : CBlock where
  hash := 50
  vtx := [coinbaseTx 9 (5000 * COIN),
    ⟨11, [⟨⟨8, 0⟩, []⟩], [⟨5000 * COIN, getScriptForKeyID (keyHash 1)⟩]⟩]

/-- After it is connected and disconnected, the spend is still in the address index and in the
spent index, and the coin is **not** among the unspent outputs of its address any more. -/
theorem publicKeyBlock_spoils :
    ∃ s b, connectBlock publicKeyEnv .genesis ⟨sampleRules, 200, .empty⟩ publicKeyBlock
        publicKeyView .empty = .ok s ∧
      disconnectIndexes publicKeyEnv 200 publicKeyBlock.vtx s.vtxundo s.view = .ok b ∧
      Indexed publicKeyEnv publicKeyView publicKeyIndexes.addressUnspentIndex ∧
      let db := (publicKeyIndexes.connect
        (connectIndexes publicKeyEnv 200 0 publicKeyBlock.vtx publicKeyView)).disconnect b
      publicKeyIndexes.addressIndex.find? publicKeySpendKey = none ∧
        db.addressIndex.find? publicKeySpendKey = some (5000 * COIN * -1) ∧
      publicKeyIndexes.addressUnspentIndex.find? publicKeyUnspentKey ≠ none ∧
        db.addressUnspentIndex.find? publicKeyUnspentKey = none ∧
      publicKeyIndexes.spentIndex.find? ⟨8, 0⟩ = none ∧
        db.spentIndex.find? ⟨8, 0⟩ ≠ none := by
  have hrun : ((connectBlock publicKeyEnv .genesis ⟨sampleRules, 200, .empty⟩ publicKeyBlock
      publicKeyView .empty).bind fun s =>
        (disconnectIndexes publicKeyEnv 200 publicKeyBlock.vtx s.vtxundo s.view).map fun b =>
          let db := (publicKeyIndexes.connect
            (connectIndexes publicKeyEnv 200 0 publicKeyBlock.vtx publicKeyView)).disconnect b
          (db.addressIndex.find? publicKeySpendKey, db.addressUnspentIndex.find?
            publicKeyUnspentKey, (db.spentIndex.find? ⟨8, 0⟩).isSome)) =
      .ok (some (5000 * COIN * -1), none, true) := by
    decide +kernel
  obtain ⟨s, hs, hundo⟩ := bind_ok.1 hrun
  cases hdisconnect : disconnectIndexes publicKeyEnv 200 publicKeyBlock.vtx s.vtxundo s.view with
  | error e =>
    rw [hdisconnect] at hundo
    cases hundo
  | ok b =>
    rw [hdisconnect] at hundo
    obtain ⟨haddress, hrest⟩ := Prod.mk.inj (Except.ok.inj hundo)
    obtain ⟨hunspent, hspent⟩ := Prod.mk.inj hrest
    refine ⟨s, b, hs, hdisconnect, ?_, by decide +kernel, haddress, by decide +kernel, hunspent,
      by decide +kernel, ?_⟩
    · intro out coin t hfind ht
      rw [publicKeyView, find?_assign] at hfind
      split at hfind
      · rename_i hout
        cases hfind
        have htarget : indexTarget publicKeyEnv publicKeyCoin.out =
            some (publicKeyTarget publicKeyEnv publicKeyCoin.out) := by
          decide +kernel
        rw [htarget] at ht
        rw [← Option.some.inj ht, hout]
        decide +kernel
      · cases hfind
    · exact Option.isSome_iff_ne_none.1 hspent

end UnemployCoin
