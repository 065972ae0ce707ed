import UnemployCoin.Contextual
/-!
# The coins of the wallet

What the wallet may spend (`wallet/wallet.h`, `wallet/wallet.cpp`): its transactions, the coin
control of the user, and `AvailableCoinsAll`, which sorts the unspent outputs into coins and, by
name, assets.  Sums of amounts are those of `CAmount`.
-/

namespace UnemployCoin

namespace Wallet

def nativeValue (txout : CTxOut) : Option CAmount := some txout.nValue

/-- The amount of the asset of a coin, where `SelectAssetsMinConf` can read it. -/
def assetAmount (env : Env) (txout : CTxOut) : Option CAmount :=
  match txout.scriptPubKey.isAssetScript with
  | some ⟨.TX_NEW_ASSET, false, _⟩ =>
    (assetFromScript env txout.scriptPubKey).map fun (asset, _) => asset.nAmount
  | some ⟨.TX_TRANSFER_ASSET, _, _⟩ =>
    (transferAssetFromScript env txout.scriptPubKey).map fun (transfer, _) => transfer.nAmount
  | some ⟨.TX_NEW_ASSET, true, _⟩ =>
    (ownerAssetFromScript env txout.scriptPubKey).map fun _ => OWNER_ASSET_AMOUNT
  | some ⟨.TX_REISSUE_ASSET, _, _⟩ =>
    (reissueAssetFromScript env txout.scriptPubKey).map fun (reissue, _) => reissue.nAmount
  | _ => none

theorem assetAmount_eq (env : Env) (txout : CTxOut) :
    assetAmount env txout =
      (getAssetData env txout.scriptPubKey).map fun data => data.nAmount := by
  rw [assetAmount, getAssetData]
  cases txout.scriptPubKey.isAssetScript with
  | none => rfl
  | some type =>
    obtain ⟨nType, fIsOwner, i⟩ := type
    cases nType with
    | TX_NEW_ASSET =>
      cases fIsOwner <;> dsimp only <;> rw [Option.map_map] <;> rfl
    | TX_REISSUE_ASSET =>
      cases fIsOwner <;> dsimp only <;> rw [Option.map_map] <;> rfl
    | TX_TRANSFER_ASSET =>
      cases fIsOwner <;> dsimp only <;> rw [Option.map_map] <;> rfl
    | _ => cases fIsOwner <;> rfl

/-! ## The wallet -/

/-- A transaction of the wallet: its outputs, and what the chain and the mempool say of it. -/
structure CWalletTx where
  vout : List CTxOut
  /-- `CheckFinalTx`. -/
  fFinal : Bool
  fCoinBase : Bool
  nBlocksToMaturity : ℤ
  nDepthInMainChain : ℤ
  fInMempool : Bool
  fTrusted : Bool
  /-- `IsFromMe(ISMINE_ALL)`. -/
  fFromMe : Bool
  /-- `mapValue.count("replaces_txid")`. -/
  fReplaces : Bool
  /-- `mapValue.count("replaced_by_txid")`. -/
  fReplaced : Bool

inductive isminetype where
  | ISMINE_NO
  | ISMINE_WATCH_UNSOLVABLE
  | ISMINE_WATCH_SOLVABLE
  | ISMINE_SPENDABLE
  deriving DecidableEq, Repr

structure CWallet where
  mapWallet : StdMap uint256 CWalletTx
  isLockedCoin : COutPoint → Bool
  isSpent : COutPoint → Bool
  isMine : CTxOut → isminetype

structure CCoinControl where
  /-- `none` is `CNoDestination`. -/
  destChange : Option CTxDestination
  assetDestChange : Option CTxDestination
  fAllowOtherInputs : Bool
  fAllowWatchOnly : Bool
  setSelected : StdMap COutPoint Unit
  setAssetsSelected : StdMap COutPoint Unit

namespace CCoinControl

def hasSelected (coinControl : CCoinControl) : Bool := decide (0 < coinControl.setSelected.size)

def hasAssetSelected (coinControl : CCoinControl) : Bool :=
  decide (0 < coinControl.setAssetsSelected.size)

end CCoinControl

structure CInputCoin where
  outpoint : COutPoint
  txout : CTxOut
  deriving DecidableEq, Repr

/-- An output the wallet may spend, with what is read of its transaction. -/
structure COutput where
  coin : CInputCoin
  nDepth : ℤ
  fSpendable : Bool
  fSolvable : Bool
  fSafe : Bool
  fFromMe : Bool

def COutput.outpoint (out : COutput) : COutPoint := out.coin.outpoint

/-- The limits `AvailableCoinsAll` is called with, at their defaults.  It does not read the first
two. -/
structure CoinLimits where
  nMinimumAmount : CAmount := 1
  nMaximumAmount : CAmount := MAX_MONEY
  nMinimumSumAmount : CAmount := MAX_MONEY
  nMaximumCount : ℕ := 0
  nMinDepth : ℤ := 0
  nMaxDepth : ℤ := 9999999

/-! ## `AvailableCoinsAll` -/

structure AvailableCoins where
  vCoins : List COutput
  mapAssetCoins : StdMap Bytes (List COutput)
  nTotal : CAmount
  fUNEMPLimitHit : Bool
  mapAssetTotals : StdMap Bytes CAmount
  setAssetMaxFound : List Bytes

def AvailableCoins.empty : AvailableCoins := ⟨[], ∅, 0, false, ∅, []⟩

section AvailableCoins

variable (env : Env) (st : AssetState) (wallet : CWallet) (coinControl : CCoinControl)
  (limits : CoinLimits)

/-- Whether coins from an unconfirmed transaction are safe to spend. -/
def CWalletTx.safeTx (pcoin : CWalletTx) : Bool :=
  if pcoin.nDepthInMainChain = 0 ∧ (pcoin.fReplaces || pcoin.fReplaced) then false
  else pcoin.fTrusted

def usableTx (fOnlySafe : Bool) (pcoin : CWalletTx) : Bool :=
  pcoin.fFinal && !(pcoin.fCoinBase && decide (0 < pcoin.nBlocksToMaturity)) &&
    decide (0 ≤ pcoin.nDepthInMainChain) &&
    !(decide (pcoin.nDepthInMainChain = 0) && !pcoin.fInMempool) &&
    !(fOnlySafe && !pcoin.safeTx) &&
    !(decide (pcoin.nDepthInMainChain < limits.nMinDepth) ||
      decide (limits.nMaxDepth < pcoin.nDepthInMainChain))

def usableOutput (pcoin : CWalletTx) (coin : CInputCoin) : Option COutput :=
  let isAssetScript := coin.txout.scriptPubKey.isAssetScript.isSome
  let mine := wallet.isMine coin.txout
  if !isAssetScript && coinControl.hasSelected && !coinControl.fAllowOtherInputs &&
      !coinControl.setSelected.count coin.outpoint then none
  else if isAssetScript && coinControl.hasAssetSelected && !coinControl.fAllowOtherInputs &&
      !coinControl.setAssetsSelected.count coin.outpoint then none
  else if wallet.isLockedCoin coin.outpoint then none
  else if wallet.isSpent coin.outpoint then none
  else if mine = .ISMINE_NO then none
  else
    let fSpendableIn := decide (mine = .ISMINE_SPENDABLE) ||
      (coinControl.fAllowWatchOnly && decide (mine = .ISMINE_WATCH_SOLVABLE))
    let fSolvableIn := decide (mine = .ISMINE_SPENDABLE ∨ mine = .ISMINE_WATCH_SOLVABLE)
    some ⟨coin, pcoin.nDepthInMainChain, fSpendableIn, fSolvableIn, pcoin.safeTx, pcoin.fFromMe⟩

def usableOutputs (fOnlySafe : Bool) : List COutput :=
  (wallet.mapWallet.entries.filter fun entry => usableTx limits fOnlySafe entry.2).flatMap
    fun entry => entry.2.vout.zipIdx.filterMap fun p =>
      usableOutput wallet coinControl entry.2 ⟨⟨entry.1, p.2⟩, p.1⟩

/-- An output with an asset goes under its name, unless a restricted asset may not move from its
address or enough of the asset has been found. -/
def AvailableCoins.addAsset (found : AvailableCoins) (out : COutput) : AvailableCoins :=
  match getAssetData env out.coin.txout.scriptPubKey with
  | none => found
  | some data =>
    let assetName := data.assetName
    let address := encodeDestination env data.destination
    if assetName ∈ found.setAssetMaxFound then found
    else if isAssetNameAnRestricted assetName &&
        st.passets.checkForAddressRestriction env st assetName address true then found
    else
      let coins := (found.mapAssetCoins.find? assetName).getD [] ++ [out]
      let total := (found.mapAssetTotals.find? assetName).getD 0 + data.nAmount
      let sumFound := decide (limits.nMinimumSumAmount ≠ MAX_MONEY) &&
        decide (limits.nMinimumSumAmount ≤ total)
      let countFound := decide (0 < limits.nMaximumCount) &&
        decide (limits.nMaximumCount ≤ coins.length)
      { found with
        mapAssetCoins := found.mapAssetCoins.assign assetName coins
        mapAssetTotals := found.mapAssetTotals.assign assetName total
        setAssetMaxFound :=
          if sumFound || countFound then assetName :: found.setAssetMaxFound
          else found.setAssetMaxFound }

def AvailableCoins.addCoin (found : AvailableCoins) (out : COutput) : AvailableCoins :=
  if found.fUNEMPLimitHit || out.coin.txout.scriptPubKey.isAssetScript.isSome then found
  else
    let fSum := decide (limits.nMinimumSumAmount ≠ MAX_MONEY)
    let nTotal := if fSum then found.nTotal + out.coin.txout.nValue else found.nTotal
    let vCoins := found.vCoins ++ [out]
    { found with
      vCoins
      nTotal
      fUNEMPLimitHit := (fSum && decide (limits.nMinimumSumAmount ≤ nTotal)) ||
        (decide (0 < limits.nMaximumCount) && decide (limits.nMaximumCount ≤ vCoins.length)) }

/-- One output: under its asset if assets are asked for, and among the coins if they are. -/
def AvailableCoins.add (fGetUNEMP fGetAssets : Bool) (found : AvailableCoins) (out : COutput) :
    AvailableCoins :=
  let found :=
    if fGetAssets && env.dep.areAssetsDeployed &&
        out.coin.txout.scriptPubKey.isAssetScript.isSome then
      found.addAsset env st limits out
    else found
  if fGetUNEMP then found.addCoin limits out else found

def availableCoinsAll (fGetUNEMP fGetAssets fOnlySafe : Bool) : AvailableCoins :=
  (usableOutputs wallet coinControl limits fOnlySafe).foldl
    (AvailableCoins.add env st limits fGetUNEMP fGetAssets) .empty

end AvailableCoins

/-! ## Every output once -/

theorem map_filterMap_sublist {α β γ : Type*} {f : α → Option β} {key : β → γ} {key' : α → γ}
    (h : ∀ a b, f a = some b → key b = key' a) (l : List α) :
    ((l.filterMap f).map key).Sublist (l.map key') := by
  induction l with
  | nil => exact List.Sublist.slnil
  | cons a l ih =>
    cases hf : f a with
    | none =>
      rw [List.filterMap_cons_none hf]
      exact ih.cons (key' a)
    | some b =>
      rw [List.filterMap_cons_some hf, List.map_cons, List.map_cons, h a b hf]
      exact ih.cons_cons (key' a)

section Found

variable {env : Env} {st : AssetState} {wallet : CWallet} {coinControl : CCoinControl}
  {limits : CoinLimits}

theorem coin_of_usableOutput {pcoin : CWalletTx} {coin : CInputCoin} {out : COutput}
    (h : usableOutput wallet coinControl pcoin coin = some out) : out.coin = coin := by
  simp only [usableOutput] at h
  split at h
  · cases h
  split at h
  · cases h
  split at h
  · cases h
  split at h
  · cases h
  split at h
  · cases h
  · rw [← Option.some.inj h]

theorem usableOutputs_nodup (fOnlySafe : Bool) :
    ((usableOutputs wallet coinControl limits fOnlySafe).map COutput.outpoint).Nodup := by
  have hsub : ∀ entry : uint256 × CWalletTx,
      ((entry.2.vout.zipIdx.filterMap fun p =>
        usableOutput wallet coinControl entry.2 ⟨⟨entry.1, p.2⟩, p.1⟩).map
          COutput.outpoint).Sublist
        ((entry.2.vout.zipIdx.map Prod.snd).map (COutPoint.mk entry.1)) := by
    intro entry
    rw [List.map_map]
    apply map_filterMap_sublist
    intro p out hout
    rw [COutput.outpoint, coin_of_usableOutput hout]
    rfl
  rw [usableOutputs, List.map_flatMap, List.nodup_flatMap]
  constructor
  · intro entry _
    apply (hsub entry).nodup
    rw [List.zipIdx_map_snd]
    exact List.Nodup.map (fun i j hij => (COutPoint.mk.inj hij).2) List.nodup_range'
  · have hkeys : wallet.mapWallet.entries.Pairwise fun a b => a.1 ≠ b.1 :=
      List.pairwise_map.1 wallet.mapWallet.entries_nodup
    apply (hkeys.filter _).imp
    intro a b hne out ha hb
    obtain ⟨i, -, rfl⟩ := List.mem_map.1 ((hsub a).subset ha)
    obtain ⟨j, -, hj⟩ := List.mem_map.1 ((hsub b).subset hb)
    exact hne (COutPoint.mk.inj hj).1.symm

/-- Outputs to select from: each once, and none with a negative amount. -/
structure Selectable (amountOf : CTxOut → Option CAmount) (vCoins : List COutput) : Prop where
  nodup : (vCoins.map COutput.outpoint).Nodup
  nonneg : ∀ out ∈ vCoins, ∀ nAmount, amountOf out.coin.txout = some nAmount → 0 ≤ nAmount.toInt

/-- Outputs with assets under the names of these. -/
structure AssetCoins (env : Env) (mapAssetCoins : StdMap Bytes (List COutput)) : Prop where
  selectable : ∀ name coins, mapAssetCoins.find? name = some coins →
    Selectable (assetAmount env) coins
  named : ∀ name coins, mapAssetCoins.find? name = some coins → ∀ out ∈ coins,
    ∃ data, getAssetData env out.coin.txout.scriptPubKey = some data ∧ data.assetName = name
  apart : ∀ name name' coins coins', name ≠ name' → mapAssetCoins.find? name = some coins →
    mapAssetCoins.find? name' = some coins' →
    ∀ out ∈ coins, ∀ out' ∈ coins', out.outpoint ≠ out'.outpoint

end Found

end Wallet

end UnemployCoin
