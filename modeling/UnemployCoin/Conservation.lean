import UnemployCoin.CheckTxAssets
/-!
# Asset amounts in and out of a transaction

What `CheckTxAssets` adds up, and what the totals it compares say about the exact amounts.
-/

namespace UnemployCoin

open Check CAssetsCache StdMap

variable {env : Env} {st : AssetState} {cache : CAssetsCache} {view : CCoinsView}
  {tx : CTransaction} {mempoolNames : Option (StdMap Bytes uint256)}
  {mapReissuedAssets : StdMap Bytes uint256} {vPair : List (Bytes × uint256)}

def spentAsset (env : Env) (view : CCoinsView) (txin : CTxIn) : Option (Bytes × CAmount) := do
  let coin ← view.find? txin.prevout
  let data ← getAssetData env coin.out.scriptPubKey
  return (data.assetName, data.nAmount)

def spentAssets (env : Env) (view : CCoinsView) (tx : CTransaction) : List (Bytes × CAmount) :=
  tx.vin.filterMap (spentAsset env view)

def transferOutput (env : Env) (txout : CTxOut) : Option (Bytes × CAmount) := do
  let (transfer, _) ← transferAssetFromScript env txout.scriptPubKey
  return (transfer.strName, transfer.nAmount)

def transferOutputs (env : Env) (tx : CTransaction) : List (Bytes × CAmount) :=
  tx.vout.filterMap (transferOutput env)

/-- The 64-bit totals of a list of assets, on top of those in `m`. -/
def addAll (m : StdMap Bytes CAmount) (l : List (Bytes × CAmount)) : StdMap Bytes CAmount :=
  l.foldl (fun m e => Totals.add m e.1 e.2) m

/-! ## What the scripts say -/

theorem recordFromScript_eq_some {α : Type} {r : CDataStream α} {s : CScript} {index : Option ℕ}
    {record : WithAddress α} (h : recordFromScript env r s index = some record) :
    ∃ i, index = some i ∧ r.read (s.drop i) = some record.1 ∧ record.2 = addressOf env s := by
  rw [recordFromScript, Option.bind_eq_bind, Option.bind_eq_some_iff] at h
  obtain ⟨i, hi, h⟩ := h
  rw [Option.bind_eq_bind, Option.bind_eq_some_iff] at h
  obtain ⟨data, hdata, h⟩ := h
  cases h
  exact ⟨i, hi, hdata, rfl⟩

theorem assetDataIndex_eq_some {nType : txnouttype} {fIsOwner : Bool} {s : CScript} {i : ℕ}
    (h : s.assetDataIndex nType fIsOwner = some i) :
    s.isAssetScript = some ⟨nType, fIsOwner, i⟩ := by
  rw [CScript.assetDataIndex] at h
  cases hs : s.isAssetScript with
  | none =>
    rw [hs] at h
    cases h
  | some t =>
    rw [hs] at h
    simp only [Option.ite_none_right_eq_some] at h
    obtain ⟨⟨rfl, rfl⟩, h⟩ := h
    rw [← Option.some.inj h]

theorem isAssetScript_of_transfer {s : CScript} {record : WithAddress CAssetTransfer}
    (h : transferAssetFromScript env s = some record) :
    ∃ i, s.isAssetScript = some ⟨.TX_TRANSFER_ASSET, false, i⟩ := by
  obtain ⟨i, hi, -⟩ := recordFromScript_eq_some h
  obtain ⟨j, hj, -⟩ := Option.map_eq_some_iff.1 hi
  exact ⟨j, assetDataIndex_eq_some hj⟩

theorem transferOutput_eq_none {txout : CTxOut}
    (h : txout.scriptPubKey.isAssetScript.map AssetScriptType.nType ≠ some .TX_TRANSFER_ASSET) :
    transferOutput env txout = none := by
  cases hrec : transferAssetFromScript env txout.scriptPubKey with
  | none => simp [transferOutput, hrec]
  | some record =>
    obtain ⟨i, hi⟩ := isAssetScript_of_transfer hrec
    rw [hi] at h
    exact absurd rfl h

theorem getAssetData_eq_none {s : CScript} (h : s.isAssetScript = none) :
    getAssetData env s = none := by
  rw [getAssetData, h]

theorem scanAssetInput_ok {m m' : StdMap Bytes CAmount} {txin : CTxIn}
    (h : scanAssetInput env st cache view m txin = .ok m') :
    m' = addAll m (spentAsset env view txin).toList := by
  rw [scanAssetInput, demand_bind] at h
  obtain ⟨coin, hcoin, h⟩ := h
  have hspent : spentAsset env view txin =
      (getAssetData env coin.out.scriptPubKey).map fun data => (data.assetName, data.nAmount) := by
    rw [spentAsset, hcoin]
    cases hdata : getAssetData env coin.out.scriptPubKey <;> simp [hdata]
  split at h
  · rw [demand_bind] at h
    obtain ⟨data, hdata, h⟩ := h
    rw [require_bind, pure_ok] at h
    rw [hspent, hdata, ← h.2]
    rfl
  · rename_i hasset
    have hnone : coin.out.scriptPubKey.isAssetScript = none := by
      rw [Coin.isAsset, Bool.not_eq_true, Option.isSome_eq_false_iff] at hasset
      exact Option.isNone_iff_eq_none.1 hasset
    rw [pure_ok] at h
    rw [hspent, getAssetData_eq_none hnone, ← h]
    rfl

theorem foldlM_scanAssetInput {l : List CTxIn} {m m' : StdMap Bytes CAmount}
    (h : l.foldlM (scanAssetInput env st cache view) m = .ok m') :
    m' = addAll m (l.filterMap (spentAsset env view)) := by
  induction l generalizing m with
  | nil =>
    cases h
    rfl
  | cons txin l ih =>
    rw [List.foldlM_cons, bind_ok] at h
    obtain ⟨m₁, h₁, h⟩ := h
    rw [ih h, scanAssetInput_ok h₁]
    cases hs : spentAsset env view txin with
    | none => rw [List.filterMap_cons_none hs]; rfl
    | some e => rw [List.filterMap_cons_some hs]; rfl

theorem scanAssetOutput_ok {s s' : AssetScan} {txout : CTxOut}
    (h : scanAssetOutput env st cache mapReissuedAssets tx s txout = .ok s') :
    s'.totalOutputs = addAll s.totalOutputs (transferOutput env txout).toList := by
  rw [scanAssetOutput, require_bind, onlyIf_bind] at h
  obtain ⟨-, -, h⟩ := h
  split at h
  · rw [scanTransferOutput, demand_bind] at h
    obtain ⟨⟨transfer, address⟩, hrec, h⟩ := h
    simp only [unit_bind, pure_ok] at h
    rw [transferOutput, hrec, ← h.2.2]
    rfl
  · rename_i htype
    rw [transferOutput_eq_none (by rw [htype]; simp)]
    rw [scanReissue, demand_bind] at h
    obtain ⟨⟨reissue, address⟩, -, h⟩ := h
    simp only at h
    split at h
    · split at h
      · rw [pure_ok] at h
        rw [h]
        rfl
      · cases h
    · rw [pure_ok] at h
      rw [← h]
      rfl
  · rename_i htype _
    cases h
    rw [transferOutput_eq_none htype]
    rfl

theorem foldlM_scanAssetOutput {l : List CTxOut} {s s' : AssetScan}
    (h : l.foldlM (scanAssetOutput env st cache mapReissuedAssets tx) s = .ok s') :
    s'.totalOutputs = addAll s.totalOutputs (l.filterMap (transferOutput env)) := by
  induction l generalizing s with
  | nil =>
    cases h
    rfl
  | cons txout l ih =>
    rw [List.foldlM_cons, bind_ok] at h
    obtain ⟨s₁, h₁, h⟩ := h
    rw [ih h, scanAssetOutput_ok h₁]
    cases hs : transferOutput env txout with
    | none => rw [List.filterMap_cons_none hs]; rfl
    | some e => rw [List.filterMap_cons_some hs]; rfl

/-! ## The comparison -/

theorem checkTotals_ok {totalInputs totalOutputs : StdMap Bytes CAmount}
    (h : checkTotals totalInputs totalOutputs = .ok ()) (name : Bytes) :
    totalInputs.find? name = totalOutputs.find? name := by
  rw [checkTotals, unit_bind, forEach_ok, require_ok, beq_iff_eq] at h
  obtain ⟨hall, hsize⟩ := h
  have hfind : ∀ k v, totalOutputs.find? k = some v → totalInputs.find? k = some v := by
    intro k v hkv
    have := hall (k, v) (mem_entries.2 hkv)
    rw [demand_bind] at this
    obtain ⟨total, htotal, heq⟩ := this
    rw [require_ok, beq_iff_eq] at heq
    rw [htotal, heq]
  cases hout : totalOutputs.find? name with
  | some v => exact hfind name v hout
  | none =>
    have hcount := count_eq_of_size_eq (k := name) hsize fun k hk => by
      obtain ⟨v, hv⟩ := count_eq_true.1 hk
      exact count_of_find? (hfind k v hv)
    rw [count_eq_false.2 hout] at hcount
    exact count_eq_false.1 hcount.symm

theorem checkTxAssets_totals
    (h : checkTxAssets env st cache tx view mempoolNames mapReissuedAssets = .ok vPair)
    (name : Bytes) :
    (addAll ∅ (spentAssets env view tx)).find? name =
      (addAll ∅ (transferOutputs env tx)).find? name := by
  rw [checkTxAssets, require_bind] at h
  obtain ⟨-, h⟩ := h
  obtain ⟨totalInputs, hin, h⟩ := bind_ok.1 h
  obtain ⟨s, hout, h⟩ := bind_ok.1 h
  obtain ⟨-, h⟩ := unit_bind.1 h
  obtain ⟨htotals, -⟩ := unit_bind.1 h
  have := checkTotals_ok htotals name
  rw [foldlM_scanAssetInput hin, foldlM_scanAssetOutput hout] at this
  exact this

theorem count_addAll (l : List (Bytes × CAmount)) (name : Bytes) :
    (addAll ∅ l).count name = l.any fun e => e.1 = name := by
  rw [addAll, Totals.count_foldl_add, count_empty, Bool.false_or]

theorem valueAt_addAll (l : List (Bytes × CAmount)) (name : Bytes) :
    Totals.valueAt (addAll ∅ l) name = (Totals.exact l name).bmod (2 ^ 64) := by
  rw [addAll, Totals.toInt_foldl_add, Totals.valueAt, find?_empty, Option.getD_none,
    Int64.toInt_zero, Int.zero_add]

/-- **Whoever re-emits an asset spends it.**  Each name that an accepted transaction transfers
is the name of an input it spends. -/
theorem input_of_transfer
    (h : checkTxAssets env st cache tx view mempoolNames mapReissuedAssets = .ok vPair)
    {name : Bytes} (htransfer : transfersAsset env tx.vout name = true) :
    ∃ txin ∈ tx.vin, ∃ amount, spentAsset env view txin = some (name, amount) := by
  rw [transfersAsset, List.any_eq_true] at htransfer
  obtain ⟨txout, hmem, hout⟩ := htransfer
  split at hout
  · rename_i transfer address hrec
    rw [beq_iff_eq] at hout
    have hfind := checkTxAssets_totals h name
    have hcount : (addAll ∅ (transferOutputs env tx)).count name = true := by
      rw [count_addAll, List.any_eq_true]
      refine ⟨(transfer.strName, transfer.nAmount), List.mem_filterMap.2 ⟨txout, hmem, ?_⟩, ?_⟩
      · rw [transferOutput, hrec]
        rfl
      · rw [decide_eq_true_eq, hout]
    rw [StdMap.count, ← hfind, ← StdMap.count, count_addAll, List.any_eq_true] at hcount
    obtain ⟨⟨k, amount⟩, hspent, hk⟩ := hcount
    rw [decide_eq_true_eq] at hk
    obtain ⟨txin, htxin, hsome⟩ := List.mem_filterMap.1 hspent
    exact ⟨txin, htxin, amount, by rw [hsome, ← hk]⟩
  · cases hout

/-- **When an asset is conserved exactly.**  For a transaction that `CheckTxAssets` accepts,
whatever `CheckTransaction` says, and a name, the exact amounts in and out agree if and only if
both totals lie in the same window of `2 ^ 64` integers, that is, if they wrap equally often. -/
theorem exact_conservation_iff
    (hassets : checkTxAssets env st cache tx view mempoolNames mapReissuedAssets = .ok vPair)
    (name : Bytes) :
    Totals.exact (transferOutputs env tx) name = Totals.exact (spentAssets env view tx) name ↔
      Totals.wraps (transferOutputs env tx) name = Totals.wraps (spentAssets env view tx) name := by
  have htotals := checkTxAssets_totals hassets name
  refine Totals.exact_eq_iff ?_
  rw [← valueAt_addAll, ← valueAt_addAll, Totals.valueAt, Totals.valueAt, htotals]

/-! ### A wallet with one asset -/

def keyHash (b : UInt8) : Bytes := List.replicate 20 b

/-- The hash function on the addresses of the keys 1, 2 and 3.  A checksum is the first four
bytes of a hash. -/
def sampleHash (data : Bytes) : Bytes :=
  if data = 68 :: keyHash 1 then [180, 234, 234, 140]
  else if data = 68 :: keyHash 2 then [109, 233, 68, 49]
  else if data = 68 :: keyHash 3 then [204, 44, 241, 159]
  else []

def sampleEnv : Env where
  Hash := sampleHash
  Hash160 := fun _ => []
  params := CMainParams
  dep := .all
  fReindex := false
  uninitHeight := fun _ _ => 0

/-- The asset `ABC` with eight decimals, issued in block 1 and written to the database. -/
def issuedState : AssetState :=
  { AssetState.genesis with
    passetsdb :=
      { assetData := StdMap.assign ∅ (ascii "ABC") ⟨⟨ascii "ABC", 100, 8, 0, 0, []⟩, 1, 1⟩
        blockUndo := ∅ } }

/-- `nAmount` of `ABC` to key 1. -/
def transferABC (nAmount : CAmount) : CTxOut where
  nValue := 0
  scriptPubKey := CAssetTransfer.constructTransaction ⟨ascii "ABC", nAmount, [], 0⟩
    (getScriptForKeyID (keyHash 1))

/-- 100 of `ABC`. -/
def coinView : CCoinsView := StdMap.assign ∅ ⟨7, 0⟩ ⟨transferABC 100, false, 1⟩

/-- The coin of `coinView` split in some outputs. -/
def splitTx (amounts : List CAmount) : CTransaction where
  hash := 8
  vin := [⟨⟨7, 0⟩, []⟩]
  vout := amounts.map transferABC

/-- 60 and 40 for 100. -/
theorem exact_conservation_split :
    Totals.exact (transferOutputs sampleEnv (splitTx [60, 40])) (ascii "ABC") =
      Totals.exact (spentAssets sampleEnv coinView (splitTx [60, 40])) (ascii "ABC") := by
  have haccepted :
      checkTxAssets sampleEnv issuedState .empty (splitTx [60, 40]) coinView none ∅ = .ok [] := by
    decide +kernel
  exact (exact_conservation_iff haccepted (ascii "ABC")).2 (by decide +kernel)

/-- Three outputs whose sum is `100 + 2 ^ 64`. -/
def overflowTx : CTransaction := splitTx [9223372036854775807, 9223372036854775807, 102]

/-- `overflowTx` is accepted, although it multiplies the 100 of `ABC` that it spends. -/
theorem overflowTx_accepted :
    overflowTx.isCoinBase = false ∧
      checkTransaction sampleEnv overflowTx true false true = .ok () ∧
      checkTxAssets sampleEnv issuedState .empty overflowTx coinView none ∅ = .ok [] ∧
      Totals.exact (transferOutputs sampleEnv overflowTx) (ascii "ABC") = 100 + 2 ^ 64 ∧
      Totals.exact (spentAssets sampleEnv coinView overflowTx) (ascii "ABC") = 100 := by
  decide +kernel

end UnemployCoin
