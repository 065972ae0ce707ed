import UnemployCoin.Snapshots
import Mathlib.Algebra.Order.BigOperators.Group.List
/-!
# Distributing rewards

`DistributeRewardSnapshot` and `BuildTransaction` (`assets/rewards.cpp`).  The payments are sent in
batches.  A batch that was sent is known by its number only, and **every attempt makes the list of
payments anew**, from the metadata that the assets have then.
-/

namespace UnemployCoin

open StdMap AssetDirectory

def MAX_PAYMENTS_PER_TRANSACTION : ℕ := 1000

/-- The `nStatus` of a distribution. -/
inductive RewardStatus where
  | REWARD_ERROR
  | PROCESSING
  | COMPLETE
  | LOW_FUNDS
  | NOT_ENOUGH_FEE
  | LOW_REWARDS
  | STUCK_TX
  | NETWORK_ERROR
  | FAILED_CREATE_TRANSACTION
  | FAILED_COMMIT_TRANSACTION
  deriving DecidableEq

/-- What the wallet and the network say when a batch is looked at. -/
structure RewardWallet where
  /-- Nothing is to be broadcast, or there is a connection. -/
  canBroadcast : Bool
  balance : ℕ
  assetBalance : Bytes → ℕ
  /-- `CreateTransaction` for some recipients: a transaction, or the fee it would need. -/
  create : List OwnerAndAmount → Except ℕ uint256
  /-- `CreateTransferAssetTransaction` for some transfers, behind its checks of the wallet. -/
  createTransfer : Bytes → List OwnerAndAmount → Option uint256
  commit : uint256 → Bool
  /-- `GetWalletTx` and `GetDepthInMainChain`. -/
  depthInMainChain : uint256 → Option ℤ

/-- `CreateTransaction`: **no recipients, no transaction**. -/
def RewardWallet.createTransaction (w : RewardWallet) (recipients : List OwnerAndAmount) :
    Except ℕ uint256 :=
  if recipients = [] then .error 0 else w.create recipients

def RewardWallet.createTransferAssetTransaction (w : RewardWallet) (assetName : Bytes)
    (transfers : List OwnerAndAmount) : Option uint256 :=
  if w.balance = 0 then none
  else if !w.canBroadcast then none
  else if transfers = [] then none
  else w.createTransfer assetName transfers

/-- The payments of the batch that begins at `start`. -/
def batchFrom {α : Type} (payments : List α) (start : ℕ) : List α :=
  (payments.drop start).take MAX_PAYMENTS_PER_TRANSACTION

/-- `BuildTransaction`: a committed transaction, or the status of the distribution. -/
def buildTransaction (w : RewardWallet) (p : CRewardSnapshot) (payments : List OwnerAndAmount)
    (start : ℕ) : Except RewardStatus uint256 :=
  let batch := batchFrom payments start
  let totalPaymentAmt := (batch.map OwnerAndAmount.amount).sum
  if p.strDistributionAsset = ascii "UNEMP" then
    if !w.canBroadcast then .error .NETWORK_ERROR
    else if totalPaymentAmt > w.balance then .error .LOW_FUNDS
    else
      match w.createTransaction batch with
      | .error nFeeRequired =>
        .error (if totalPaymentAmt + nFeeRequired > w.balance then .NOT_ENOUGH_FEE
          else .FAILED_CREATE_TRANSACTION)
      | .ok txid => if w.commit txid then .ok txid else .error .FAILED_COMMIT_TRANSACTION
  else if totalPaymentAmt > w.assetBalance p.strDistributionAsset then .error .LOW_REWARDS
  else
    match w.createTransferAssetTransaction p.strDistributionAsset batch with
    | none => .error .FAILED_CREATE_TRANSACTION
    | some txid => if w.commit txid then .ok txid else .error .FAILED_COMMIT_TRANSACTION

/-- A batch whose transaction was committed. -/
structure RewardBatch where
  nBatchNumber : ℕ
  payments : List OwnerAndAmount
  txid : uint256

def RewardBatch.addresses (batch : RewardBatch) : List Bytes :=
  batch.payments.map OwnerAndAmount.address

/-- What is kept of a distribution: the transactions in the database, the status, and what the
wallet has committed. -/
structure RewardState where
  distributeTransactions : StdMap (uint256 × ℕ) uint256
  nStatus : RewardStatus
  committed : List RewardBatch

def RewardState.init : RewardState := ⟨∅, .PROCESSING, []⟩

/-- `AddDistributeTransaction` for a batch that was committed. -/
def RewardState.addBatch (s : RewardState) (hash : uint256) (batch : RewardBatch) : RewardState :=
  { s with
    distributeTransactions := s.distributeTransactions.assign (hash, batch.nBatchNumber) batch.txid
    committed := s.committed ++ [batch] }

/-- The loop over the batches from number `i` on, `k` of them.  A batch whose transaction is not in
a block yet ends the attempt, and so does one that cannot be built. -/
def sendBatches (hash : uint256) (wallet : ℕ → RewardWallet) (p : CRewardSnapshot)
    (payments : List OwnerAndAmount) : ℕ → ℕ → RewardState → RewardState
  | 0, _, s => s
  | k + 1, i, s =>
    match s.distributeTransactions.find? (hash, i) with
    | some txid =>
      match (wallet i).depthInMainChain txid with
      | some depth => if depth > 0 then sendBatches hash wallet p payments k (i + 1) s else s
      | none => sendBatches hash wallet p payments k (i + 1) s
    | none =>
      match buildTransaction (wallet i) p payments (i * MAX_PAYMENTS_PER_TRANSACTION) with
      | .error status => { s with nStatus := status }
      | .ok txid =>
        let batch := ⟨i, batchFrom payments (i * MAX_PAYMENTS_PER_TRANSACTION), txid⟩
        sendBatches hash wallet p payments k (i + 1) (s.addBatch hash batch)

/-- What an attempt finds: the chain, the snapshots, and the wallet at each batch. -/
structure RewardAttempt where
  renv : RewardEnv
  snapshots : CAssetSnapshotDB
  isLocked : Bool
  isInitialBlockDownload : Bool
  wallet : ℕ → RewardWallet

def nNumberOfTransactions (payments : ℕ) : ℕ := payments / MAX_PAYMENTS_PER_TRANSACTION + 1

def distributeRewardSnapshot (hash : uint256) (p : CRewardSnapshot) (s : RewardState)
    (a : RewardAttempt) : RewardState :=
  if a.isLocked then s
  else if a.isInitialBlockDownload then s
  else
    match a.snapshots.retrieveOwnershipSnapshot p.strOwnershipAsset p.nHeight with
    | none => s
    | some _ =>
      match generateDistributionList a.renv a.snapshots p with
      | none => s
      | some paymentDetails =>
        sendBatches hash a.wallet p paymentDetails (nNumberOfTransactions paymentDetails.length) 0 s

/-! ## The owners with a reward -/

/-- An owner whose exact share is at least one unit of the asset that is distributed. -/
def hasReward (modifiedPayment totalAmtOwned : ℕ) (o : OwnerAndAmount) : Bool :=
  decide (0 < o.amount) && decide (totalAmtOwned ≤ o.amount * modifiedPayment)

def rewardedOwners (a : RewardAttempt) (p : CRewardSnapshot) : Option (List Bytes) := do
  let asset ← distributionAsset a.renv p
  let _ ← a.renv.getAssetMetaDataIfExists p.strOwnershipAsset
  let snapshotEntry ← a.snapshots.retrieveOwnershipSnapshot p.strOwnershipAsset p.nHeight
  let owners := nonExceptionOwnerships a.renv p snapshotEntry.ownersAndAmounts
  if owners.length = 0 then none
  else return (owners.filter (hasReward (modifiedPayment p asset)
    (owners.map OwnerAndAmount.amount).sum)).map OwnerAndAmount.address

theorem unitScale_pos (units : Int8) : 0 < unitScale units := Nat.pow_pos (by decide)

theorem amount_le_sum {owners : List OwnerAndAmount} {o : OwnerAndAmount} (ho : o ∈ owners) :
    o.amount ≤ (owners.map OwnerAndAmount.amount).sum :=
  List.le_sum_of_mem (List.mem_map_of_mem ho)

/-- Three roundings, as a share of `x` units is worked out. -/
theorem rewardProduct_bounds {x : ℚ} (hx : 0 ≤ x) (modifiedPayment scale : ℕ) :
    x * modifiedPayment * scale * (1 - 1 / 2 ^ 64) ^ 3 ≤
        rewardProduct (longDouble x) modifiedPayment scale ∧
      rewardProduct (longDouble x) modifiedPayment scale ≤
        x * modifiedPayment * scale * (1 + 1 / 2 ^ 64) ^ 3 := by
  have h₁ := RoundEven.roundSignificand_nonneg hx 64
  have hpayment : (0 : ℚ) ≤ longDouble x * modifiedPayment := mul_nonneg h₁ (Nat.cast_nonneg _)
  have h₂ := RoundEven.roundSignificand_nonneg hpayment 64
  have hscale : (0 : ℚ) ≤ longDouble (longDouble x * modifiedPayment) * scale :=
    mul_nonneg h₂ (Nat.cast_nonneg _)
  constructor
  · calc x * modifiedPayment * scale * (1 - 1 / 2 ^ 64) ^ 3
        = x * (1 - 1 / 2 ^ 64) * modifiedPayment * (1 - 1 / 2 ^ 64) * scale *
            (1 - 1 / 2 ^ 64) := by ring
      _ ≤ longDouble x * modifiedPayment * (1 - 1 / 2 ^ 64) * scale * (1 - 1 / 2 ^ 64) := by
          gcongr
          exact RoundEven.le_roundSignificand hx 64
      _ ≤ longDouble (longDouble x * modifiedPayment) * scale * (1 - 1 / 2 ^ 64) := by
          gcongr
          exact RoundEven.le_roundSignificand hpayment 64
      _ ≤ rewardProduct (longDouble x) modifiedPayment scale :=
          RoundEven.le_roundSignificand hscale 64
  · calc rewardProduct (longDouble x) modifiedPayment scale
        ≤ longDouble (longDouble x * modifiedPayment) * scale * (1 + 1 / 2 ^ 64) :=
          RoundEven.roundSignificand_le hscale 64
      _ ≤ longDouble x * modifiedPayment * (1 + 1 / 2 ^ 64) * scale * (1 + 1 / 2 ^ 64) := by
          gcongr
          exact RoundEven.roundSignificand_le hpayment 64
      _ ≤ x * (1 + 1 / 2 ^ 64) * modifiedPayment * (1 + 1 / 2 ^ 64) * scale *
            (1 + 1 / 2 ^ 64) := by
          gcongr
          exact RoundEven.roundSignificand_le hx 64
      _ = x * modifiedPayment * scale * (1 + 1 / 2 ^ 64) ^ 3 := by ring

section Share

variable {scale modifiedPayment total amount : ℕ}

/-- What is paid is at least `units` whole units of the asset. -/
theorem le_rewardAmt_iff (hscale : 0 < scale) (htotal : 0 < total) (units : ℕ) :
    units * scale ≤ rewardAmt scale modifiedPayment total amount ↔
      (units * scale : ℚ) ≤
        rewardProduct (longDouble (amount / total)) modifiedPayment scale := by
  have hx : (0 : ℚ) ≤ amount / total := by positivity
  have hnonneg : 0 ≤ rewardProduct (longDouble (amount / total)) modifiedPayment scale :=
    le_trans (mul_nonneg (by positivity) (by norm_num)) (rewardProduct_bounds hx _ scale).1
  rw [rewardAmt, Nat.mul_le_mul_right_iff hscale, Nat.le_div_iff_mul_le hscale,
    Nat.le_floor_iff hnonneg, Nat.cast_mul]

theorem le_rewardAmt (hscale : 0 < scale) (htotal : 0 < total) {units : ℕ}
    (hlt : units * total < amount * modifiedPayment) (hmax : units * total < 2 ^ 62) :
    units * scale ≤ rewardAmt scale modifiedPayment total amount := by
  have hlt : (units * total + 1 : ℚ) ≤ amount * modifiedPayment := by exact_mod_cast hlt
  have hmax : (units * total : ℚ) ≤ 2 ^ 62 := by exact_mod_cast hmax.le
  have hT : (0 : ℚ) < total := by exact_mod_cast htotal
  refine (le_rewardAmt_iff hscale htotal units).2
    (le_trans ?_ (rewardProduct_bounds (by positivity) _ scale).1)
  have hround : (units * total : ℚ) ≤ (units * total + 1) * (1 - 1 / 2 ^ 64) ^ 3 := by linarith
  calc (units * scale : ℚ) = units * total / total * scale := by
        rw [mul_div_cancel_right₀ _ hT.ne']
    _ ≤ (units * total + 1) * (1 - 1 / 2 ^ 64) ^ 3 / total * scale := by gcongr
    _ ≤ amount * modifiedPayment * (1 - 1 / 2 ^ 64) ^ 3 / total * scale := by gcongr
    _ = amount / total * modifiedPayment * scale * (1 - 1 / 2 ^ 64) ^ 3 := by ring

theorem rewardAmt_lt (hscale : 0 < scale) (htotal : 0 < total) {units : ℕ}
    (hlt : amount * modifiedPayment < units * total) (hmax : amount * modifiedPayment < 2 ^ 62) :
    rewardAmt scale modifiedPayment total amount < units * scale := by
  have hlt : (amount * modifiedPayment + 1 : ℚ) ≤ units * total := by exact_mod_cast hlt
  have hmax : (amount * modifiedPayment : ℚ) ≤ 2 ^ 62 := by exact_mod_cast hmax.le
  have hS : (0 : ℚ) < scale := by exact_mod_cast hscale
  have hT : (0 : ℚ) < total := by exact_mod_cast htotal
  refine Nat.lt_of_not_le fun hle => absurd ((le_rewardAmt_iff hscale htotal units).1 hle)
    (not_le.2 (lt_of_le_of_lt (rewardProduct_bounds (by positivity) _ scale).2 ?_))
  calc (amount / total * modifiedPayment * scale * (1 + 1 / 2 ^ 64) ^ 3 : ℚ)
      = amount * modifiedPayment * (1 + 1 / 2 ^ 64) ^ 3 / total * scale := by ring
    _ < (amount * modifiedPayment + 1) / total * scale := by
        gcongr
        linarith
    _ ≤ units * total / total * scale := by gcongr
    _ = units * scale := by rw [mul_div_cancel_right₀ _ hT.ne']

/-- A share of exactly one unit comes out as one: `1 / 41 * 41` does not. -/
def keepsUnit (modifiedPayment scale : ℕ) : Bool :=
  decide ((scale : ℚ) ≤ rewardProduct (longDouble (1 / modifiedPayment)) modifiedPayment scale)

example : keepsUnit 40 1 = true ∧ keepsUnit 41 1 = false := by decide +kernel

theorem rewardAmt_pos_iff (hscale : 0 < scale) {o : OwnerAndAmount} (ho : o.amount ≤ total)
    (hmax : total < 2 ^ 62)
    (hunit : o.amount * modifiedPayment = total → keepsUnit modifiedPayment scale = true) :
    0 < rewardAmt scale modifiedPayment total o.amount ↔
      hasReward modifiedPayment total o = true := by
  have hone : 0 < rewardAmt scale modifiedPayment total o.amount ↔
      1 * scale ≤ rewardAmt scale modifiedPayment total o.amount := by
    rw [rewardAmt, Nat.mul_le_mul_right_iff hscale, Nat.mul_pos_iff_of_pos_right hscale]
    exact Iff.rfl
  rw [hone, hasReward, Bool.and_eq_true, decide_eq_true_iff, decide_eq_true_iff]
  rcases Nat.eq_zero_or_pos o.amount with hzero | hpos
  · refine iff_of_false (fun h => ?_) fun h => absurd h.1 (hzero ▸ Nat.lt_irrefl 0)
    have hnothing : rewardAmt scale modifiedPayment total 0 = 0 := by
      simp [rewardAmt, rewardProduct, longDouble, RoundEven.roundSignificand_zero]
    rw [hzero, hnothing, Nat.one_mul] at h
    exact Nat.not_le.2 hscale h
  have htotal : 0 < total := Nat.lt_of_lt_of_le hpos ho
  rcases Nat.lt_trichotomy (o.amount * modifiedPayment) total with hlt | heq | hgt
  · refine iff_of_false (Nat.not_le.2 (rewardAmt_lt hscale htotal ?_ (hlt.trans hmax)))
      fun h => absurd h.2 (Nat.not_le.2 hlt)
    rwa [Nat.one_mul]
  · refine iff_of_true ((le_rewardAmt_iff hscale htotal 1).2 ?_) ⟨hpos, heq.ge⟩
    have hshare : (o.amount / total : ℚ) = 1 / modifiedPayment := by
      have : (o.amount : ℚ) ≠ 0 := by exact_mod_cast hpos.ne'
      rw [← heq, Nat.cast_mul, div_mul_cancel_left₀ this, one_div]
    rw [hshare, Nat.cast_one, one_mul]
    exact of_decide_eq_true (hunit heq)
  · refine iff_of_true (le_rewardAmt hscale htotal ?_ ?_) ⟨hpos, hgt.le⟩ <;> rwa [Nat.one_mul]

end Share

/-- The roundings change nothing about who has a reward: less than `2 ^ 62` is owned in all, and
a share of exactly one unit comes out as one. -/
def SharesKept (p : CRewardSnapshot) (asset : CNewAsset) (owners : List OwnerAndAmount) : Prop :=
  let totalAmtOwned := (owners.map OwnerAndAmount.amount).sum
  totalAmtOwned < 2 ^ 62 ∧
    ∀ o ∈ owners, o.amount * modifiedPayment p asset = totalAmtOwned →
      keepsUnit (modifiedPayment p asset) (unitScale asset.units) = true

/-- **Who is paid**: the owners with a reward. -/
theorem addresses_paymentsTo {p : CRewardSnapshot} {asset : CNewAsset}
    {owners : List OwnerAndAmount} (h : SharesKept p asset owners) :
    (paymentsTo p asset owners).map OwnerAndAmount.address =
      (owners.filter (hasReward (modifiedPayment p asset)
        (owners.map OwnerAndAmount.amount).sum)).map OwnerAndAmount.address := by
  rw [paymentsTo, List.filter_map, List.map_map]
  refine congrArg₂ List.map rfl (List.filter_congr fun o ho => ?_)
  rw [Bool.eq_iff_iff]
  exact decide_eq_true_iff.trans
    (rewardAmt_pos_iff (unitScale_pos _) (amount_le_sum ho) h.1 (h.2 o ho))

/-- **What an attempt has to find**, if it makes a list at all. -/
def RewardAttempt.KeepsShares (a : RewardAttempt) (p : CRewardSnapshot) : Prop :=
  ∀ asset, distributionAsset a.renv p = some asset → ∀ snapshotEntry,
    a.snapshots.retrieveOwnershipSnapshot p.strOwnershipAsset p.nHeight = some snapshotEntry →
      SharesKept p asset (nonExceptionOwnerships a.renv p snapshotEntry.ownersAndAmounts)

theorem addresses_distributionList {a : RewardAttempt} {p : CRewardSnapshot}
    (h : a.KeepsShares p) :
    (generateDistributionList a.renv a.snapshots p).map
      (List.map OwnerAndAmount.address) = rewardedOwners a p := by
  rw [generateDistributionList, distributionList, rewardedOwners]
  cases hasset : distributionAsset a.renv p with
  | none => rfl
  | some asset =>
    cases a.renv.getAssetMetaDataIfExists p.strOwnershipAsset with
    | none => rfl
    | some ownershipAsset =>
      cases hsnapshot :
        a.snapshots.retrieveOwnershipSnapshot p.strOwnershipAsset p.nHeight with
      | none => rfl
      | some snapshotEntry =>
        simp only [Option.bind_eq_bind, Option.bind_some, Option.pure_def]
        split
        · rfl
        · rw [Option.map_some, addresses_paymentsTo (h asset hasset snapshotEntry hsnapshot)]

theorem nonExceptionOwnerships_nodup (renv : RewardEnv) (p : CRewardSnapshot)
    (owners : OwnersAndAmounts) :
    ((nonExceptionOwnerships renv p owners).map OwnerAndAmount.address).Nodup := by
  rw [nonExceptionOwnerships]
  refine (((List.mergeSort_perm _ _).map OwnerAndAmount.address).nodup_iff).2 ?_
  rw [List.map_map]
  exact owners.entries_nodup.sublist (List.filter_sublist.map Prod.fst)

theorem rewardedOwners_nodup {a : RewardAttempt} {p : CRewardSnapshot} {owners : List Bytes}
    (h : rewardedOwners a p = some owners) : owners.Nodup := by
  rw [rewardedOwners] at h
  obtain ⟨asset, -, h⟩ := Option.bind_eq_some_iff.1 h
  obtain ⟨ownershipAsset, -, h⟩ := Option.bind_eq_some_iff.1 h
  obtain ⟨snapshotEntry, -, h⟩ := Option.bind_eq_some_iff.1 h
  simp only [Option.pure_def] at h
  split at h
  · cases h
  · cases h
    exact (nonExceptionOwnerships_nodup _ _ _).sublist (List.filter_sublist.map _)

/-! ## Attempts -/

section Attempts

variable {hash : uint256} {p : CRewardSnapshot} {owners : List Bytes} {s : RewardState}
  {wallet : ℕ → RewardWallet} {payments : List OwnerAndAmount} {txid : uint256}

theorem batchFrom_ne_nil {w : RewardWallet} {start : ℕ}
    (h : buildTransaction w p payments start = .ok txid) : batchFrom payments start ≠ [] := by
  intro hnil
  rw [buildTransaction, hnil] at h
  rw [RewardWallet.createTransaction, if_pos rfl, RewardWallet.createTransferAssetTransaction,
    if_pos rfl] at h
  split_ifs at h

/-- What an attempt keeps: the batches that were committed are parts of one list, each of them
once, and the database has them. -/
structure Paid (hash : uint256) (owners : List Bytes) (s : RewardState) : Prop where
  part : ∀ batch ∈ s.committed, batch.payments ≠ [] ∧
    batch.addresses = batchFrom owners (batch.nBatchNumber * MAX_PAYMENTS_PER_TRANSACTION)
  once : (s.committed.map RewardBatch.nBatchNumber).Nodup
  known : ∀ i, s.distributeTransactions.count (hash, i) = true ↔
    i ∈ s.committed.map RewardBatch.nBatchNumber

theorem Paid.init : Paid hash owners .init where
  part := fun _ h => absurd h List.not_mem_nil
  once := List.nodup_nil
  known := fun _ => ⟨fun h => absurd h Bool.false_ne_true, fun h => absurd h List.not_mem_nil⟩

theorem Paid.withStatus (h : Paid hash owners s) (status : RewardStatus) :
    Paid hash owners { s with nStatus := status } := ⟨h.part, h.once, h.known⟩

theorem Paid.addBatch {batch : RewardBatch} (h : Paid hash owners s)
    (hnew : s.distributeTransactions.find? (hash, batch.nBatchNumber) = none)
    (hne : batch.payments ≠ [])
    (haddresses : batch.addresses =
      batchFrom owners (batch.nBatchNumber * MAX_PAYMENTS_PER_TRANSACTION)) :
    Paid hash owners (s.addBatch hash batch) := by
  have hfresh : batch.nBatchNumber ∉ s.committed.map RewardBatch.nBatchNumber := by
    intro hmem
    rw [← h.known, StdMap.count, hnew] at hmem
    cases hmem
  constructor
  · intro b hb
    rcases List.mem_append.1 hb with hb | hb
    · exact h.part b hb
    · rw [List.mem_singleton.1 hb]
      exact ⟨hne, haddresses⟩
  · simp only [RewardState.addBatch, List.map_append, List.map_singleton]
    refine List.nodup_append.2 ⟨h.once, List.nodup_singleton _, ?_⟩
    intro i hi j hj heq
    rw [heq, List.mem_singleton.1 hj] at hi
    exact hfresh hi
  · intro i
    simp only [RewardState.addBatch, List.map_append, List.map_singleton, List.mem_append,
      List.mem_singleton]
    rw [count_assign, ← h.known]
    simp only [Bool.or_eq_true, decide_eq_true_eq, Prod.mk.injEq, true_and]
    exact or_comm

theorem addresses_batchFrom (start : ℕ) :
    (batchFrom payments start).map OwnerAndAmount.address =
      batchFrom (payments.map OwnerAndAmount.address) start := by
  rw [batchFrom, batchFrom, List.map_take, List.map_drop]

/-- **The loop over the batches.** -/
theorem Paid.sendBatches (h : Paid hash owners s)
    (howners : payments.map OwnerAndAmount.address = owners) (k i : ℕ) :
    Paid hash owners (sendBatches hash wallet p payments k i s) := by
  induction k generalizing i s with
  | zero => exact h
  | succ k ih =>
    rw [UnemployCoin.sendBatches]
    cases hfind : s.distributeTransactions.find? (hash, i) with
    | some txid =>
      dsimp only
      split
      · split_ifs
        · exact ih h (i + 1)
        · exact h
      · exact ih h (i + 1)
    | none =>
      dsimp only
      cases hbuild : buildTransaction (wallet i) p payments (i * MAX_PAYMENTS_PER_TRANSACTION) with
      | error status => exact h.withStatus status
      | ok txid =>
        refine ih (h.addBatch hfind (batchFrom_ne_nil hbuild) ?_) (i + 1)
        rw [RewardBatch.addresses, addresses_batchFrom, howners]

/-- **An attempt** with these owners. -/
theorem Paid.distribute {a : RewardAttempt} (h : Paid hash owners s) (ha : a.KeepsShares p)
    (hsame : ∀ found, rewardedOwners a p = some found → found = owners) :
    Paid hash owners (distributeRewardSnapshot hash p s a) := by
  rw [distributeRewardSnapshot]
  split_ifs
  · exact h
  · exact h
  · cases a.snapshots.retrieveOwnershipSnapshot p.strOwnershipAsset p.nHeight with
    | none => exact h
    | some snapshotEntry =>
      cases hlist : generateDistributionList a.renv a.snapshots p with
      | none => exact h
      | some paymentDetails =>
        refine h.sendBatches (hsame _ ?_) _ 0
        rw [← addresses_distributionList ha, hlist, Option.map_some]

/-! ## What has been paid -/

def batchCount (owners : ℕ) : ℕ :=
  (owners + MAX_PAYMENTS_PER_TRANSACTION - 1) / MAX_PAYMENTS_PER_TRANSACTION

theorem lt_batchCount {i n : ℕ} : i < batchCount n ↔ i * MAX_PAYMENTS_PER_TRANSACTION < n := by
  rw [batchCount, MAX_PAYMENTS_PER_TRANSACTION]
  omega

theorem nNumberOfTransactions_iff (n : ℕ) :
    nNumberOfTransactions n = batchCount n ↔ ¬ MAX_PAYMENTS_PER_TRANSACTION ∣ n := by
  rw [nNumberOfTransactions, batchCount, MAX_PAYMENTS_PER_TRANSACTION]
  omega

theorem mem_batchFrom {x : Bytes} {i : ℕ} :
    x ∈ batchFrom owners (i * MAX_PAYMENTS_PER_TRANSACTION) ↔
      ∃ j, j / MAX_PAYMENTS_PER_TRANSACTION = i ∧ owners[j]? = some x := by
  rw [batchFrom, MAX_PAYMENTS_PER_TRANSACTION, List.mem_iff_getElem?]
  constructor
  · rintro ⟨j, hj⟩
    rw [List.getElem?_take] at hj
    split_ifs at hj with hlt
    rw [List.getElem?_drop] at hj
    exact ⟨i * 1000 + j, by omega, hj⟩
  · rintro ⟨j, hj, hget⟩
    refine ⟨j % 1000, ?_⟩
    rw [List.getElem?_take_of_lt (Nat.mod_lt _ (by decide)), List.getElem?_drop, ← hget]
    congr 1
    omega

theorem batchFrom_disjoint (hnd : owners.Nodup) {i j : ℕ} {x : Bytes}
    (hi : x ∈ batchFrom owners (i * MAX_PAYMENTS_PER_TRANSACTION))
    (hj : x ∈ batchFrom owners (j * MAX_PAYMENTS_PER_TRANSACTION)) : i = j := by
  obtain ⟨k, rfl, hk⟩ := mem_batchFrom.1 hi
  obtain ⟨l, rfl, hl⟩ := mem_batchFrom.1 hj
  have hlt := (List.getElem?_eq_some_iff.1 hk).1
  rw [(List.getElem?_inj hlt hnd).1 (hk.trans hl.symm)]

/-- **No owner is paid twice.** -/
theorem Paid.nodup (h : Paid hash owners s) (hnd : owners.Nodup) :
    (s.committed.flatMap RewardBatch.addresses).Nodup := by
  refine List.nodup_flatMap.2 ⟨fun batch hb => ?_, ?_⟩
  · rw [(h.part batch hb).2, batchFrom]
    exact hnd.sublist ((List.take_sublist _ _).trans (List.drop_sublist _ _))
  · refine (List.pairwise_map.1 h.once).imp_of_mem fun hb hb' hne x hx hx' => ?_
    rw [(h.part _ hb).2] at hx
    rw [(h.part _ hb').2] at hx'
    exact hne (batchFrom_disjoint hnd hx hx')

theorem Paid.lt_batchCount (h : Paid hash owners s) {i : ℕ}
    (hi : i ∈ s.committed.map RewardBatch.nBatchNumber) : i < batchCount owners.length := by
  obtain ⟨batch, hb, rfl⟩ := List.mem_map.1 hi
  obtain ⟨hne, haddresses⟩ := h.part batch hb
  rw [UnemployCoin.lt_batchCount]
  by_contra hge
  rw [batchFrom, List.drop_eq_nil_of_le (Nat.not_lt.1 hge), List.take_nil, RewardBatch.addresses,
    List.map_eq_nil_iff] at haddresses
  exact hne haddresses

theorem Paid.length_le (h : Paid hash owners s) :
    s.committed.length ≤ batchCount owners.length := by
  have hsub : s.committed.map RewardBatch.nBatchNumber ⊆ List.range (batchCount owners.length) :=
    fun i hi => List.mem_range.2 (h.lt_batchCount hi)
  have hle := (h.once.subperm hsub).length_le
  rwa [List.length_map, List.length_range] at hle

/-- **Every owner is paid once**, when as many batches are committed as there can be. -/
theorem Paid.all (h : Paid hash owners s) (hnd : owners.Nodup)
    (hall : s.committed.length = batchCount owners.length) {owner : Bytes} (ho : owner ∈ owners) :
    ∃! batch, batch ∈ s.committed ∧ owner ∈ batch.addresses := by
  have hsub : s.committed.map RewardBatch.nBatchNumber ⊆ List.range (batchCount owners.length) :=
    fun i hi => List.mem_range.2 (h.lt_batchCount hi)
  have hperm := (h.once.subperm hsub).perm_of_length_le (by
    rw [List.length_map, List.length_range, hall])
  obtain ⟨j, hj⟩ := List.mem_iff_getElem?.1 ho
  have hlt : j / MAX_PAYMENTS_PER_TRANSACTION < batchCount owners.length := by
    have := (List.getElem?_eq_some_iff.1 hj).1
    rw [UnemployCoin.lt_batchCount]
    exact Nat.lt_of_le_of_lt (Nat.div_mul_le_self _ _) this
  obtain ⟨batch, hb, hnumber⟩ := List.mem_map.1 (hperm.mem_iff.2 (List.mem_range.2 hlt))
  have hmem : ∀ b ∈ s.committed, owner ∈ b.addresses →
      b.nBatchNumber = j / MAX_PAYMENTS_PER_TRANSACTION := by
    intro b hb hob
    rw [(h.part b hb).2] at hob
    exact batchFrom_disjoint hnd hob (mem_batchFrom.2 ⟨j, rfl, hj⟩)
  refine ⟨batch, ⟨hb, ?_⟩, fun b ⟨hb', hob⟩ => ?_⟩
  · rw [(h.part batch hb).2, hnumber]
    exact mem_batchFrom.2 ⟨j, rfl, hj⟩
  · refine List.inj_on_of_nodup_map h.once hb' hb ?_
    rw [hmem b hb' hob, hnumber]

/-- Nothing ends the attempt: what was sent is in a block, and all batches can be built. -/
structure RunsThrough (hash : uint256) (p : CRewardSnapshot) (s : RewardState)
    (a : RewardAttempt) : Prop where
  unlocked : a.isLocked = false
  synced : a.isInitialBlockDownload = false
  confirmed : ∀ i txid depth, s.distributeTransactions.find? (hash, i) = some txid →
    (a.wallet i).depthInMainChain txid = some depth → 0 < depth
  built : ∀ payments, generateDistributionList a.renv a.snapshots p = some payments →
    ∀ i, i * MAX_PAYMENTS_PER_TRANSACTION < payments.length →
      ∃ txid, buildTransaction (a.wallet i) p payments (i * MAX_PAYMENTS_PER_TRANSACTION) =
        .ok txid

theorem count_sendBatches {k i j : ℕ}
    (hconfirmed : ∀ j, i ≤ j → ∀ txid depth, s.distributeTransactions.find? (hash, j) = some txid →
      (wallet j).depthInMainChain txid = some depth → 0 < depth)
    (hbuilt : ∀ i, i * MAX_PAYMENTS_PER_TRANSACTION < payments.length →
      ∃ txid, buildTransaction (wallet i) p payments (i * MAX_PAYMENTS_PER_TRANSACTION) = .ok txid)
    (hj : s.distributeTransactions.count (hash, j) = true ∨
      i ≤ j ∧ j < i + k ∧ j * MAX_PAYMENTS_PER_TRANSACTION < payments.length) :
    (sendBatches hash wallet p payments k i s).distributeTransactions.count (hash, j) = true := by
  induction k generalizing i s with
  | zero =>
    rcases hj with hj | ⟨hle, hlt, -⟩
    · exact hj
    · omega
  | succ k ih =>
    rw [sendBatches]
    cases hfind : s.distributeTransactions.find? (hash, i) with
    | some txid =>
      dsimp only
      have hnext : s.distributeTransactions.count (hash, j) = true ∨
          i + 1 ≤ j ∧ j < i + 1 + k ∧ j * MAX_PAYMENTS_PER_TRANSACTION < payments.length := by
        rcases hj with hj | ⟨hle, hlt, hsize⟩
        · exact .inl hj
        · rcases Nat.lt_or_eq_of_le hle with hlt' | rfl
          · exact .inr ⟨hlt', by omega, hsize⟩
          · exact .inl (count_of_find? hfind)
      have hrest := ih (fun j hj => hconfirmed j (Nat.le_of_succ_le hj)) hnext
      split
      · rename_i depth hdepth
        rw [if_pos (hconfirmed i (Nat.le_refl i) txid depth hfind hdepth)]
        exact hrest
      · exact hrest
    | none =>
      dsimp only
      cases hbuild : buildTransaction (wallet i) p payments (i * MAX_PAYMENTS_PER_TRANSACTION) with
      | error status =>
        rcases hj with hj | ⟨hle, -, hsize⟩
        · exact hj
        · obtain ⟨txid, htxid⟩ := hbuilt i
            (Nat.lt_of_le_of_lt (Nat.mul_le_mul_right _ hle) hsize)
          rw [hbuild] at htxid
          cases htxid
      | ok txid =>
        refine ih (fun j hj txid' depth hfind' => ?_) ?_
        · rw [RewardState.addBatch, find?_assign, if_neg fun heq => by
            have := (Prod.mk.inj heq).2
            dsimp only at this
            omega] at hfind'
          exact hconfirmed j (Nat.le_of_succ_le hj) txid' depth hfind'
        · rw [RewardState.addBatch, count_assign, Bool.or_eq_true]
          rcases hj with hj | ⟨hle, hlt, hsize⟩
          · exact .inl (.inr hj)
          · rcases Nat.lt_or_eq_of_le hle with hlt' | rfl
            · exact .inr ⟨hlt', by omega, hsize⟩
            · exact .inl (.inl (decide_eq_true rfl))

/-- **An attempt that runs through** leaves nothing to pay. -/
theorem Paid.runsThrough {a : RewardAttempt} (h : Paid hash owners s)
    (hkeeps : a.KeepsShares p) (ha : RunsThrough hash p s a)
    (howners : rewardedOwners a p = some owners) :
    (distributeRewardSnapshot hash p s a).committed.length = batchCount owners.length := by
  have hafter : Paid hash owners (distributeRewardSnapshot hash p s a) :=
    h.distribute hkeeps fun found hfound => Option.some.inj (hfound.symm.trans howners)
  refine Nat.le_antisymm hafter.length_le ?_
  have hlist := addresses_distributionList hkeeps
  rw [howners] at hlist
  obtain ⟨payments, hpayments, rfl⟩ := Option.map_eq_some_iff.1 hlist
  rw [List.length_map]
  have hsub : List.range (batchCount payments.length) ⊆
      (distributeRewardSnapshot hash p s a).committed.map RewardBatch.nBatchNumber := by
    intro i hi
    rw [← hafter.known, distributeRewardSnapshot, ha.unlocked, ha.synced,
      if_neg Bool.false_ne_true, if_neg Bool.false_ne_true, hpayments]
    have hlt := UnemployCoin.lt_batchCount.1 (List.mem_range.1 hi)
    have hplanned : i < nNumberOfTransactions payments.length := by
      rw [MAX_PAYMENTS_PER_TRANSACTION] at hlt
      rw [nNumberOfTransactions, MAX_PAYMENTS_PER_TRANSACTION]
      omega
    cases hsnapshot : a.snapshots.retrieveOwnershipSnapshot p.strOwnershipAsset p.nHeight with
    | none =>
      rw [generateDistributionList, hsnapshot, distributionList] at hpayments
      cases h₁ : distributionAsset a.renv p <;>
        cases h₂ : a.renv.getAssetMetaDataIfExists p.strOwnershipAsset <;>
          rw [h₁, h₂] at hpayments <;> cases hpayments
    | some snapshotEntry =>
      exact count_sendBatches (fun j _ => ha.confirmed j) (ha.built payments hpayments)
        (.inr ⟨Nat.zero_le i, by omega, hlt⟩)
  have hle := (List.nodup_range.subperm hsub).length_le
  rwa [List.length_map, List.length_range] at hle

end Attempts

/-- Rewards are paid once: what is to hold at any time. -/
structure PaidOnce (owners : List Bytes) (s : RewardState) : Prop where
  notEmpty : ∀ batch ∈ s.committed, batch.payments ≠ []
  once : (s.committed.flatMap RewardBatch.addresses).Nodup
  rewarded : ∀ address ∈ s.committed.flatMap RewardBatch.addresses, address ∈ owners
  count_le : s.committed.length ≤ batchCount owners.length
  all : s.committed.length = batchCount owners.length →
    ∀ owner ∈ owners, ∃! batch, batch ∈ s.committed ∧ owner ∈ batch.addresses

theorem Paid.paidOnce {hash : uint256} {owners : List Bytes} {s : RewardState}
    (h : Paid hash owners s) (hnd : owners.Nodup) : PaidOnce owners s where
  notEmpty := fun batch hb => (h.part batch hb).1
  once := h.nodup hnd
  rewarded := fun address ha => by
    obtain ⟨batch, hb, hin⟩ := List.mem_flatMap.1 ha
    rw [(h.part batch hb).2, batchFrom] at hin
    exact List.mem_of_mem_drop (List.mem_of_mem_take hin)
  count_le := h.length_le
  all := fun hall _ ho => h.all hnd hall ho

def smallOwner : OwnerAndAmount := ⟨ascii "small", 1⟩

def largeOwner : OwnerAndAmount := ⟨ascii "large", 1000⟩

def twoOwners : OwnersAndAmounts :=
  (StdMap.assign ∅ (ascii "small") 1).assign (ascii "large") 1000

def steadyWallet : RewardWallet where
  canBroadcast := true
  balance := 1000000000000
  assetBalance := fun _ => 1000000000000
  create := fun _ => .ok 7
  createTransfer := fun _ _ => some 7
  commit := fun _ => true
  depthInMainChain := fun _ => some 1

def assetWith (units : Int8) : CNewAsset := { CNewAsset.null with units := units }

/-- An attempt that finds the asset with some number of decimals. -/
def attemptWith (units : Int8) : RewardAttempt where
  renv :=
    { env := ⟨fun _ => [], fun _ => [], CMainParams, .all, false, fun _ _ => 0⟩
      strGlobalBurnAddress := []
      getAssetMetaDataIfExists := fun _ => some (assetWith units) }
  snapshots := StdMap.assign ∅ (heightAndName (ascii "ABC", 1)) (.of (ascii "ABC") 1 twoOwners)
  isLocked := false
  isInitialBlockDownload := false
  wallet := fun _ => steadyWallet

def twoRewards : CRewardSnapshot where
  strOwnershipAsset := ascii "ABC"
  strDistributionAsset := ascii "DEF"
  strExceptionAddresses := []
  nDistributionAmount := 200000000
  nHeight := 1

theorem find_twoOwners (units : Int8) :
    (attemptWith units).snapshots.retrieveOwnershipSnapshot twoRewards.strOwnershipAsset
      twoRewards.nHeight = some (.of (ascii "ABC") 1 twoOwners) := by
  rw [CAssetSnapshotDB.retrieveOwnershipSnapshot, attemptWith, find?_assign]
  exact if_pos rfl

theorem owners_attemptWith (units : Int8) : nonExceptionOwnerships (attemptWith units).renv
    twoRewards (CAssetSnapshotDBEntry.of (ascii "ABC") 1 twoOwners).ownersAndAmounts =
      [largeOwner, smallOwner] := by
  have hkept : (twoOwners.entries.filter fun e =>
      !(twoRewards.strExceptionAddresses.split ADDRESS_COMMA_DELIMITER).contains e.1 &&
        !(attemptWith 0).renv.isBurnAddress e.1).map
          (fun e => (⟨e.1, e.2.toNatClampNeg⟩ : OwnerAndAmount)) =
          [largeOwner, smallOwner] := by decide +kernel
  exact (congrArg (List.mergeSort · _) hkept).trans (List.mergeSort_of_pairwise (by decide))

theorem generate_twoRewards {units : Int8} {payments : List OwnerAndAmount}
    (h : paymentsTo twoRewards (assetWith units) [largeOwner, smallOwner] = payments) :
    generateDistributionList (attemptWith units).renv (attemptWith units).snapshots twoRewards =
      some payments := by
  have hasset : distributionAsset (attemptWith units).renv twoRewards = some (assetWith units) :=
    if_neg (by decide)
  have hownership : (attemptWith units).renv.getAssetMetaDataIfExists
      twoRewards.strOwnershipAsset = some (assetWith units) := rfl
  rw [generateDistributionList, find_twoOwners, distributionList, hasset, hownership]
  simp only [Option.bind_eq_bind, Option.bind_some, Option.pure_def]
  rw [owners_attemptWith, if_neg (by decide), h]

theorem generate_indivisible : generateDistributionList (attemptWith 0).renv
    (attemptWith 0).snapshots twoRewards = some [⟨ascii "large", 100000000⟩] :=
  generate_twoRewards (by decide +kernel)

theorem generate_divisible : generateDistributionList (attemptWith 8).renv
    (attemptWith 8).snapshots twoRewards =
      some [⟨ascii "large", 199800199⟩, ⟨ascii "small", 199800⟩] :=
  generate_twoRewards (by decide +kernel)

theorem keepsShares_attemptWith {units : Int8}
    (h : ∀ o ∈ [largeOwner, smallOwner], o.amount * modifiedPayment twoRewards (assetWith units) ≠
      1001) : (attemptWith units).KeepsShares twoRewards := by
  intro asset hasset snapshotEntry hsnapshot
  rw [find_twoOwners] at hsnapshot
  cases hsnapshot
  cases hasset
  rw [SharesKept, owners_attemptWith]
  exact ⟨by decide, fun o ho heq => absurd heq (h o ho)⟩

theorem distribute_attemptWith {units : Int8} {s : RewardState} {payments : List OwnerAndAmount}
    (h : generateDistributionList (attemptWith units).renv (attemptWith units).snapshots
      twoRewards = some payments) :
    distributeRewardSnapshot 0 twoRewards s (attemptWith units) =
      sendBatches 0 (fun _ => steadyWallet) twoRewards payments
        (nNumberOfTransactions payments.length) 0 s := by
  rw [distributeRewardSnapshot, find_twoOwners, h]
  rfl

end UnemployCoin
