import UnemployCoin.AssetDirectory
import UnemployCoin.Lib.KeyedStore
import UnemployCoin.Lib.RoundEven
import Mathlib.Data.Nat.Digits.Lemmas
import Mathlib.Data.Rat.Floor
/-!
# Ownership snapshots

`CSnapshotRequestDB` (`assets/snapshotrequestdb.cpp`), `CAssetSnapshotDB`
(`assets/assetsnapshotdb.cpp`) and the list of payments that is made from a snapshot
(`assets/rewards.cpp`).  Both stores have one key for a height and a name: the height in decimal
and then the name, with **nothing between them**.
-/

namespace UnemployCoin

/-- `std::to_string` of a height. -/
def decimal (n : ℕ) : Bytes :=
  if n = 0 then ascii "0" else (Nat.digits 10 n).reverse.map fun d => UInt8.ofNat (48 + d)

abbrev AssetAtHeight := Bytes × ℕ

def heightAndName (p : AssetAtHeight) : Bytes := decimal p.2 ++ p.1

/-! ## Snapshot requests -/

structure CSnapshotRequestDBEntry where
  assetName : Bytes
  heightForSnapshot : ℕ
  heightAndName : Bytes
  deriving DecidableEq

def CSnapshotRequestDBEntry.of (assetName : Bytes) (heightForSnapshot : ℕ) :
    CSnapshotRequestDBEntry :=
  ⟨assetName, heightForSnapshot, UnemployCoin.heightAndName (assetName, heightForSnapshot)⟩

abbrev CSnapshotRequestDB := StdMap Bytes CSnapshotRequestDBEntry

namespace CSnapshotRequestDB

def scheduleSnapshot (db : CSnapshotRequestDB) (assetName : Bytes) (heightForSnapshot : ℕ) :
    CSnapshotRequestDB :=
  let snapshotRequest := CSnapshotRequestDBEntry.of assetName heightForSnapshot
  db.assign snapshotRequest.heightAndName snapshotRequest

def retrieveSnapshotRequest (db : CSnapshotRequestDB) (assetName : Bytes)
    (heightForSnapshot : ℕ) : Option CSnapshotRequestDBEntry :=
  db.find? (heightAndName (assetName, heightForSnapshot))

def removeSnapshotRequest (db : CSnapshotRequestDB) (assetName : Bytes)
    (heightForSnapshot : ℕ) : CSnapshotRequestDB :=
  db.erase (heightAndName (assetName, heightForSnapshot))

end CSnapshotRequestDB

/-! ## Snapshots -/

open AssetDirectory

structure CAssetSnapshotDBEntry where
  height : ℕ
  assetName : Bytes
  ownersAndAmounts : OwnersAndAmounts
  heightAndName : Bytes

def CAssetSnapshotDBEntry.of (assetName : Bytes) (snapshotHeight : ℕ)
    (ownersAndAmounts : OwnersAndAmounts) : CAssetSnapshotDBEntry :=
  ⟨snapshotHeight, assetName, ownersAndAmounts,
    UnemployCoin.heightAndName (assetName, snapshotHeight)⟩

abbrev CAssetSnapshotDB := StdMap Bytes CAssetSnapshotDBEntry

/-- What a snapshot is to be written with, if there is one to write. -/
def ownershipSnapshot (env : Env) (assets : AssetsTable) (assetName : Bytes) (height : ℕ) :
    Option CAssetSnapshotDBEntry := do
  let ownersAndAmounts ← gatherOwners env assets assetName
  if ownersAndAmounts.size = 0 then none
  else return CAssetSnapshotDBEntry.of assetName height ownersAndAmounts

namespace CAssetSnapshotDB

/-- `AddAssetOwnershipSnapshot`: without a snapshot, nothing is written. -/
def addAssetOwnershipSnapshot (env : Env) (assets : AssetsTable) (db : CAssetSnapshotDB)
    (assetName : Bytes) (height : ℕ) : CAssetSnapshotDB :=
  match ownershipSnapshot env assets assetName height with
  | none => db
  | some snapshotEntry => db.assign snapshotEntry.heightAndName snapshotEntry

def retrieveOwnershipSnapshot (db : CAssetSnapshotDB) (assetName : Bytes) (height : ℕ) :
    Option CAssetSnapshotDBEntry :=
  db.find? (heightAndName (assetName, height))

def removeOwnershipSnapshot (db : CAssetSnapshotDB) (assetName : Bytes) (height : ℕ) :
    CAssetSnapshotDB :=
  db.erase (heightAndName (assetName, height))

end CAssetSnapshotDB

/-! ## Payments -/

/-- The fields of `CRewardSnapshot` that its hash covers. -/
structure CRewardSnapshot where
  strOwnershipAsset : Bytes
  strDistributionAsset : Bytes
  strExceptionAddresses : Bytes
  nDistributionAmount : ℕ
  nHeight : ℕ
  deriving DecidableEq

structure OwnerAndAmount where
  address : Bytes
  amount : ℕ
  deriving DecidableEq

/-- What the rewards read of the chain: the parameters, and the metadata of the assets **at this
moment**. -/
structure RewardEnv where
  env : Env
  strGlobalBurnAddress : Bytes
  getAssetMetaDataIfExists : Bytes → Option CNewAsset

def RewardEnv.isBurnAddress (renv : RewardEnv) (address : Bytes) : Bool :=
  let params := renv.env.params
  address == params.strIssueAssetBurnAddress ||
    address == params.strReissueAssetBurnAddress ||
    address == params.strIssueSubAssetBurnAddress ||
    address == params.strIssueUniqueAssetBurnAddress ||
    address == params.strIssueMsgChannelAssetBurnAddress ||
    address == params.strIssueQualifierAssetBurnAddress ||
    address == params.strIssueSubQualifierAssetBurnAddress ||
    address == params.strIssueRestrictedAssetBurnAddress ||
    address == params.strAddNullQualifierTagBurnAddress ||
    address == renv.strGlobalBurnAddress

def ADDRESS_COMMA_DELIMITER : UInt8 := 44

/-- `10 ^ (COIN_DIGITS_PAST_DECIMAL - units)`. -/
def unitScale (units : Int8) : ℕ := 10 ^ (8 - units.toInt).toNat

/-- The owners that are neither exceptions nor burn addresses, in the order of their addresses; what
an address has is not negative. -/
def nonExceptionOwnerships (renv : RewardEnv) (p : CRewardSnapshot) (owners : OwnersAndAmounts) :
    List OwnerAndAmount :=
  let exceptionAddressSet := p.strExceptionAddresses.split ADDRESS_COMMA_DELIMITER
  ((owners.entries.filter fun e =>
      !exceptionAddressSet.contains e.1 && !renv.isBurnAddress e.1).map fun e =>
    ⟨e.1, e.2.toNatClampNeg⟩).mergeSort fun a b => decide (a.address ≤ b.address)

/-- A `long double`: 64 significant bits. -/
def longDouble (x : ℚ) : ℚ := RoundEven.roundSignificand 64 x

/-- `percent * modifiedPaymentInAssetUnits * scale`, each operation rounded. -/
def rewardProduct (percent : ℚ) (modifiedPayment scale : ℕ) : ℚ :=
  longDouble (longDouble (percent * modifiedPayment) * scale)

/-- `rewardAmt`, cut off to an integer and then to the units of the asset. -/
def rewardAmt (scale modifiedPayment totalAmtOwned amount : ℕ) : ℕ :=
  let percent := longDouble (amount / totalAmtOwned)
  ⌊rewardProduct percent modifiedPayment scale⌋₊ / scale * scale

/-- The asset that is distributed; the default one stands for UNEMP. -/
def distributionAsset (renv : RewardEnv) (p : CRewardSnapshot) : Option CNewAsset :=
  if p.strDistributionAsset = ascii "UNEMP" then some .null
  else renv.getAssetMetaDataIfExists p.strDistributionAsset

/-- `modifiedPaymentInAssetUnits`. -/
def modifiedPayment (p : CRewardSnapshot) (asset : CNewAsset) : ℕ :=
  if p.strDistributionAsset = ascii "UNEMP" then p.nDistributionAmount
  else p.nDistributionAmount / unitScale asset.units

def paymentsTo (p : CRewardSnapshot) (asset : CNewAsset) (owners : List OwnerAndAmount) :
    List OwnerAndAmount :=
  let totalAmtOwned := (owners.map OwnerAndAmount.amount).sum
  (owners.map fun ownership => (⟨ownership.address, rewardAmt (unitScale asset.units)
    (modifiedPayment p asset) totalAmtOwned ownership.amount⟩ : OwnerAndAmount)).filter
      fun payment => decide (payment.amount > 0)

/-- `GenerateDistributionList` after the snapshot has been looked for. -/
def distributionList (renv : RewardEnv) (p : CRewardSnapshot)
    (snapshotEntry : Option CAssetSnapshotDBEntry) : Option (List OwnerAndAmount) := do
  let asset ← distributionAsset renv p
  let _ ← renv.getAssetMetaDataIfExists p.strOwnershipAsset
  let snapshotEntry ← snapshotEntry
  let owners := nonExceptionOwnerships renv p snapshotEntry.ownersAndAmounts
  if owners.length = 0 then none else return paymentsTo p asset owners

def generateDistributionList (renv : RewardEnv) (db : CAssetSnapshotDB) (p : CRewardSnapshot) :
    Option (List OwnerAndAmount) :=
  distributionList renv p (db.retrieveOwnershipSnapshot p.strOwnershipAsset p.nHeight)

/-! ## Which keys are equal -/

def ofDecimal (s : Bytes) : ℕ := Nat.ofDigits 10 (s.reverse.map fun b => b.toNat - 48)

theorem ofDecimal_decimal (n : ℕ) : ofDecimal (decimal n) = n := by
  by_cases hn : n = 0
  · rw [hn]
    decide
  · have hdigit : ∀ d ∈ Nat.digits 10 n, (UInt8.ofNat (48 + d)).toNat - 48 = d := by
      intro d hd
      have : d < 10 := Nat.digits_lt_base (by decide) hd
      rw [UInt8.toNat_ofNat']
      omega
    rw [ofDecimal, decimal, if_neg hn, ← List.map_reverse, List.reverse_reverse, List.map_map]
    refine (congrArg (Nat.ofDigits 10) ?_).trans (Nat.ofDigits_digits 10 n)
    exact (List.map_congr_left hdigit).trans (List.map_id _)

theorem decimal_injective : Function.Injective decimal :=
  Function.LeftInverse.injective ofDecimal_decimal

theorem isDigit_decimal (n : ℕ) : ∀ c ∈ decimal n, isDigit c = true := by
  intro c hc
  rw [decimal] at hc
  split at hc
  · have hall : ∀ c ∈ ascii "0", isDigit c = true := by decide +kernel
    exact hall c hc
  · obtain ⟨d, hd, rfl⟩ := List.mem_map.1 hc
    have hlt : d < 10 := Nat.digits_lt_base (by decide) (List.mem_reverse.1 hd)
    have hdigits : ∀ d < 10, isDigit (UInt8.ofNat (48 + d)) = true := by decide
    exact hdigits d hlt

theorem decimal_ne_nil (n : ℕ) : decimal n ≠ [] := by
  rw [decimal]
  split
  · decide
  · rename_i hn
    rw [ne_eq, List.map_eq_nil_iff, List.reverse_eq_nil_iff]
    exact Nat.digits_ne_nil_iff_ne_zero.2 hn

/-- **Which keys are equal**: one height goes on with the digits that its name has less. -/
theorem heightAndName_eq_iff (p q : AssetAtHeight) : heightAndName p = heightAndName q ↔
    (∃ digits, decimal q.2 = decimal p.2 ++ digits ∧ p.1 = digits ++ q.1) ∨
      ∃ digits, decimal p.2 = decimal q.2 ++ digits ∧ q.1 = digits ++ p.1 := by
  rw [heightAndName, heightAndName, List.append_eq_append_iff]

variable {env : Env} {dir : AddressDirectory} {owners : OwnersAndAmounts} {address : Bytes}
  {amount : ℕ}

end UnemployCoin
