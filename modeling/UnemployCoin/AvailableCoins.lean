import UnemployCoin.Lib.Stops
import UnemployCoin.RestrictedTransfers
import UnemployCoin.WalletCoins
/-!
# The outputs that the wallet offers

What `AvailableCoinsAll` (`wallet/wallet.cpp`) finds, for all arguments.
-/

namespace UnemployCoin

namespace Wallet

open Stops StdMap

/-! ## The outputs that are gone through -/

section Wanted

variable {wallet : CWallet} {coinControl : CCoinControl} {limits : CoinLimits} {fOnlySafe : Bool}
  {pcoin : CWalletTx} {coin : CInputCoin} {out : COutput}

def CCoinControl.Selects (coinControl : CCoinControl) (coin : CInputCoin) : Prop :=
  coinControl.fAllowOtherInputs = true ∨
    if coin.txout.scriptPubKey.isAssetScript.isSome then
      coinControl.hasAssetSelected = true → coinControl.setAssetsSelected.count coin.outpoint = true
    else coinControl.hasSelected = true → coinControl.setSelected.count coin.outpoint = true

/-- **An output that is wanted**, of a transaction of the wallet. -/
structure Wanted (wallet : CWallet) (coinControl : CCoinControl) (limits : CoinLimits)
    (fOnlySafe : Bool) (pcoin : CWalletTx) (coin : CInputCoin) : Prop where
  tx : wallet.mapWallet.find? coin.outpoint.hash = some pcoin
  txout : pcoin.vout[coin.outpoint.n]? = some coin.txout
  final : pcoin.fFinal = true
  mature : pcoin.fCoinBase = true → pcoin.nBlocksToMaturity ≤ 0
  depth : 0 ≤ pcoin.nDepthInMainChain
  pooled : pcoin.nDepthInMainChain = 0 → pcoin.fInMempool = true
  trusted : fOnlySafe = true → pcoin.fTrusted = true ∧
    (pcoin.nDepthInMainChain = 0 → pcoin.fReplaces = false ∧ pcoin.fReplaced = false)
  nMinDepth : limits.nMinDepth ≤ pcoin.nDepthInMainChain
  nMaxDepth : pcoin.nDepthInMainChain ≤ limits.nMaxDepth
  selected : coinControl.Selects coin
  unlocked : wallet.isLockedCoin coin.outpoint = false
  unspent : wallet.isSpent coin.outpoint = false
  owned : wallet.isMine coin.txout ≠ .ISMINE_NO

def listing (wallet : CWallet) (coinControl : CCoinControl) (pcoin : CWalletTx)
    (coin : CInputCoin) : COutput where
  coin := coin
  nDepth := pcoin.nDepthInMainChain
  fSpendable := decide (wallet.isMine coin.txout = .ISMINE_SPENDABLE) ||
    (coinControl.fAllowWatchOnly && decide (wallet.isMine coin.txout = .ISMINE_WATCH_SOLVABLE))
  fSolvable := decide (wallet.isMine coin.txout = .ISMINE_SPENDABLE ∨
    wallet.isMine coin.txout = .ISMINE_WATCH_SOLVABLE)
  fSafe := pcoin.safeTx
  fFromMe := pcoin.fFromMe

theorem safeTx_eq_true : pcoin.safeTx = true ↔ pcoin.fTrusted = true ∧
    (pcoin.nDepthInMainChain = 0 → pcoin.fReplaces = false ∧ pcoin.fReplaced = false) := by
  rw [CWalletTx.safeTx]
  by_cases hdepth : pcoin.nDepthInMainChain = 0
  · cases pcoin.fReplaces <;> cases pcoin.fReplaced <;> simp [hdepth]
  · simp [hdepth]

theorem usableTx_eq_true : usableTx limits fOnlySafe pcoin = true ↔
    pcoin.fFinal = true ∧ (pcoin.fCoinBase = true → pcoin.nBlocksToMaturity ≤ 0) ∧
      0 ≤ pcoin.nDepthInMainChain ∧ (pcoin.nDepthInMainChain = 0 → pcoin.fInMempool = true) ∧
      (fOnlySafe = true → pcoin.safeTx = true) ∧ limits.nMinDepth ≤ pcoin.nDepthInMainChain ∧
      pcoin.nDepthInMainChain ≤ limits.nMaxDepth := by
  simp [usableTx, and_assoc, imp_iff_not_or]

theorem usableOutput_eq_some : usableOutput wallet coinControl pcoin coin = some out ↔
    coinControl.Selects coin ∧ wallet.isLockedCoin coin.outpoint = false ∧
      wallet.isSpent coin.outpoint = false ∧ wallet.isMine coin.txout ≠ .ISMINE_NO ∧
      out = listing wallet coinControl pcoin coin := by
  have hselects : coinControl.Selects coin ↔
      ¬((!coin.txout.scriptPubKey.isAssetScript.isSome && coinControl.hasSelected &&
          !coinControl.fAllowOtherInputs &&
          !coinControl.setSelected.count coin.outpoint) = true) ∧
        ¬((coin.txout.scriptPubKey.isAssetScript.isSome && coinControl.hasAssetSelected &&
          !coinControl.fAllowOtherInputs &&
          !coinControl.setAssetsSelected.count coin.outpoint) = true) := by
    rw [CCoinControl.Selects]
    cases coin.txout.scriptPubKey.isAssetScript.isSome <;>
      cases coinControl.fAllowOtherInputs <;> simp
  rw [usableOutput, hselects]
  dsimp only
  split
  · rename_i hcoin
    exact iff_of_false (Option.some_ne_none _).symm fun h => h.1.1 hcoin
  split
  · rename_i hasset
    exact iff_of_false (Option.some_ne_none _).symm fun h => h.1.2 hasset
  split
  · rename_i hlocked
    refine iff_of_false (Option.some_ne_none _).symm fun h => Bool.false_ne_true ?_
    exact h.2.1.symm.trans hlocked
  split
  · rename_i hspent
    refine iff_of_false (Option.some_ne_none _).symm fun h => Bool.false_ne_true ?_
    exact h.2.2.1.symm.trans hspent
  split
  · rename_i howned
    exact iff_of_false (Option.some_ne_none _).symm fun h => h.2.2.2.1 howned
  · rename_i hcoin hasset hlocked hspent howned
    rw [Option.some.injEq]
    exact ⟨fun h => ⟨⟨hcoin, hasset⟩, Bool.eq_false_iff.2 hlocked, Bool.eq_false_iff.2 hspent,
      howned, h.symm⟩, fun h => h.2.2.2.2.symm⟩

theorem mem_usableOutputs : out ∈ usableOutputs wallet coinControl limits fOnlySafe ↔
    ∃ pcoin, Wanted wallet coinControl limits fOnlySafe pcoin out.coin ∧
      out = listing wallet coinControl pcoin out.coin := by
  rw [usableOutputs, List.mem_flatMap]
  constructor
  · rintro ⟨entry, hentry, h⟩
    obtain ⟨p, hp, hout⟩ := List.mem_filterMap.1 h
    obtain ⟨hentry, husable⟩ := List.mem_filter.1 hentry
    obtain ⟨hfinal, hmature, hdepth, hpooled, hsafe, hmin, hmax⟩ := usableTx_eq_true.1 husable
    obtain ⟨hselected, hunlocked, hunspent, howned, rfl⟩ := usableOutput_eq_some.1 hout
    exact ⟨entry.2, ⟨mem_entries.1 hentry, List.mem_zipIdx_iff_getElem?.1 hp, hfinal,
      hmature, hdepth, hpooled, fun h => safeTx_eq_true.1 (hsafe h), hmin, hmax, hselected,
      hunlocked, hunspent, howned⟩, rfl⟩
  · rintro ⟨pcoin, h, hout⟩
    have husable := usableTx_eq_true.2 ⟨h.final, h.mature, h.depth, h.pooled,
      fun hsafe => safeTx_eq_true.2 (h.trusted hsafe), h.nMinDepth, h.nMaxDepth⟩
    refine ⟨(out.coin.outpoint.hash, pcoin),
      List.mem_filter.2 ⟨mem_entries.2 h.tx, husable⟩, List.mem_filterMap.2
        ⟨(out.coin.txout, out.coin.outpoint.n), List.mem_zipIdx_iff_getElem?.2 h.txout, ?_⟩⟩
    exact usableOutput_eq_some.2 ⟨h.selected, h.unlocked, h.unspent, h.owned, hout⟩

end Wanted

/-! ## Caps -/

def worth (amountOf : CTxOut → Option CAmount) (out : COutput) : CAmount :=
  (amountOf out.coin.txout).getD 0

def CoinLimits.Met (limits : CoinLimits) (amountOf : CTxOut → Option CAmount) (l : List COutput) :
    Prop :=
  (limits.nMinimumSumAmount ≠ MAX_MONEY ∧
    limits.nMinimumSumAmount ≤ (l.map (worth amountOf)).sum) ∨
  (0 < limits.nMaximumCount ∧ limits.nMaximumCount ≤ l.length)

/-- A cap is met by the exact sum of the amounts. -/
def CoinLimits.MetExactly (limits : CoinLimits) (amountOf : CTxOut → Option CAmount)
    (l : List COutput) : Prop :=
  (limits.nMinimumSumAmount ≠ MAX_MONEY ∧
    limits.nMinimumSumAmount.toInt ≤ (l.map fun out => (worth amountOf out).toInt).sum) ∨
  (0 < limits.nMaximumCount ∧ limits.nMaximumCount ≤ l.length)

def native (out : COutput) : Bool := !out.coin.txout.scriptPubKey.isAssetScript.isSome

/-- An output with the asset `name`, which its address may move. -/
def movable (env : Env) (st : AssetState) (name : Bytes) (out : COutput) : Bool :=
  match getAssetData env out.coin.txout.scriptPubKey with
  | none => false
  | some data => decide (data.assetName = name) && !(isAssetNameAnRestricted name &&
      st.passets.checkForAddressRestriction env st name (encodeDestination env data.destination)
        true)

section Found

variable {env : Env} {st : AssetState} {wallet : CWallet} {coinControl : CCoinControl}
  {limits : CoinLimits} {fGetUNEMP fGetAssets : Bool} {seen : List COutput} {found : AvailableCoins}
  {name : Bytes}

theorem sum_concat {amountOf : CTxOut → Option CAmount} {l : List COutput} {out : COutput}
    {total n : CAmount}
    (htotal : total = (l.map (worth amountOf)).sum) (hn : worth amountOf out = n) :
    total + n = ((l ++ [out]).map (worth amountOf)).sum := by
  rw [List.map_append, List.sum_append, htotal, List.map_singleton, List.sum_singleton, hn]

/-- What has been found of the outputs without assets in `seen`. -/
structure CoinsFound (limits : CoinLimits) (seen : List COutput) (found : AvailableCoins) : Prop
    where
  stops : StopsAt (limits.Met nativeValue) seen found.vCoins
  hit : found.fUNEMPLimitHit = true ↔ found.vCoins ≠ [] ∧ limits.Met nativeValue found.vCoins
  total : limits.nMinimumSumAmount ≠ MAX_MONEY →
    found.nTotal = (found.vCoins.map (worth nativeValue)).sum

theorem CoinsFound.addAsset (h : CoinsFound limits seen found) (out : COutput) :
    CoinsFound limits seen (found.addAsset env st limits out) := by
  rw [AvailableCoins.addAsset]
  split
  · exact h
  dsimp only
  split
  · exact h
  split
  · exact h
  · exact ⟨h.stops, h.hit, h.total⟩

theorem CoinsFound.addCoin (h : CoinsFound limits seen found) (out : COutput) :
    CoinsFound limits (if native out then seen ++ [out] else seen)
      (found.addCoin limits out) := by
  rw [AvailableCoins.addCoin, native]
  cases hasset : out.coin.txout.scriptPubKey.isAssetScript.isSome with
  | true =>
    rw [Bool.or_true, if_pos rfl]
    exact h
  | false =>
    rw [Bool.or_false]
    by_cases hhit : found.fUNEMPLimitHit = true
    · rw [if_pos hhit]
      exact ⟨h.stops.stop (h.hit.1 hhit) out, h.hit, h.total⟩
    · rw [if_neg hhit]
      have htotal : limits.nMinimumSumAmount ≠ MAX_MONEY →
          found.nTotal + out.coin.txout.nValue =
            ((found.vCoins ++ [out]).map (worth nativeValue)).sum :=
        fun hsum => sum_concat (h.total hsum) rfl
      refine ⟨h.stops.concat (fun hmet => hhit (h.hit.2 hmet)) out, ?_, ?_⟩
      · dsimp only
        rw [and_iff_right (List.concat_ne_nil out found.vCoins), CoinLimits.Met]
        by_cases hsum : limits.nMinimumSumAmount = MAX_MONEY
        · simp [hsum]
        · simp [hsum, htotal hsum]
      · intro hsum
        dsimp only
        rw [if_pos (decide_eq_true hsum)]
        exact htotal hsum

/-- **What one output does to the coins.** -/
theorem CoinsFound.add (h : CoinsFound limits seen found) (out : COutput) :
    CoinsFound limits (if fGetUNEMP && native out then seen ++ [out] else seen)
      (found.add env st limits fGetUNEMP fGetAssets out) := by
  have hassets : CoinsFound limits seen (if fGetAssets && env.dep.areAssetsDeployed &&
      out.coin.txout.scriptPubKey.isAssetScript.isSome then found.addAsset env st limits out
      else found) := by
    split
    · exact h.addAsset out
    · exact h
  cases fGetUNEMP with
  | true => exact hassets.addCoin out
  | false => exact hassets

/-- What has been found of the outputs of an asset in `seen`. -/
structure NamedFound (env : Env) (limits : CoinLimits) (name : Bytes) (seen : List COutput)
    (found : AvailableCoins) : Prop where
  stops : StopsAt (limits.Met (assetAmount env)) seen
    ((found.mapAssetCoins.find? name).getD [])
  ne_nil : found.mapAssetCoins.find? name ≠ some []
  hit : name ∈ found.setAssetMaxFound ↔ (found.mapAssetCoins.find? name).getD [] ≠ [] ∧
    limits.Met (assetAmount env) ((found.mapAssetCoins.find? name).getD [])
  total : (found.mapAssetTotals.find? name).getD 0 =
    (((found.mapAssetCoins.find? name).getD []).map (worth (assetAmount env))).sum

theorem NamedFound.addCoin (h : NamedFound env limits name seen found) (out : COutput) :
    NamedFound env limits name seen (found.addCoin limits out) := by
  rw [AvailableCoins.addCoin]
  split
  · exact h
  · exact ⟨h.stops, h.ne_nil, h.hit, h.total⟩

theorem NamedFound.addAsset (h : NamedFound env limits name seen found) (out : COutput) :
    NamedFound env limits name (if movable env st name out then seen ++ [out] else seen)
      (found.addAsset env st limits out) := by
  rw [AvailableCoins.addAsset]
  cases hdata : getAssetData env out.coin.txout.scriptPubKey with
  | none =>
    have hmovable : movable env st name out = false := by rw [movable, hdata]
    rw [hmovable]
    exact h
  | some data =>
    have hmovable : movable env st name out = (decide (data.assetName = name) &&
        !(isAssetNameAnRestricted name && st.passets.checkForAddressRestriction env st name
          (encodeDestination env data.destination) true)) := by rw [movable, hdata]
    dsimp only
    by_cases hname : data.assetName = name
    · subst hname
      rw [decide_eq_true rfl, Bool.true_and] at hmovable
      cases hfrozen : isAssetNameAnRestricted data.assetName &&
          st.passets.checkForAddressRestriction env st data.assetName
            (encodeDestination env data.destination) true with
      | true =>
        rw [hfrozen] at hmovable
        rw [hmovable, if_pos rfl, ite_self]
        exact h
      | false =>
        rw [hfrozen] at hmovable
        rw [hmovable, if_neg Bool.false_ne_true]
        by_cases hhit : data.assetName ∈ found.setAssetMaxFound
        · rw [if_pos hhit]
          exact ⟨h.stops.stop (h.hit.1 hhit) out, h.ne_nil, h.hit, h.total⟩
        · rw [if_neg hhit]
          have hworth : worth (assetAmount env) out = data.nAmount := by
            rw [worth, assetAmount_eq, hdata]
            rfl
          have htotal := sum_concat h.total hworth
          have hne : (found.mapAssetCoins.find? data.assetName).getD [] ++ [out] ≠ [] :=
            List.concat_ne_nil out _
          constructor
          · dsimp only
            rw [find?_assign_self, Option.getD_some]
            exact h.stops.concat (fun hmet => hhit (h.hit.2 hmet)) out
          · dsimp only
            rw [find?_assign_self]
            exact fun heq => hne (Option.some.inj heq)
          · dsimp only
            rw [find?_assign_self, Option.getD_some, and_iff_right hne, CoinLimits.Met,
              ← htotal]
            split
            · rename_i hfound
              simpa using hfound
            · rename_i hfound
              simpa [hhit] using hfound
          · dsimp only
            rw [find?_assign_self, find?_assign_self, Option.getD_some,
              Option.getD_some]
            exact htotal
    · rw [decide_eq_false hname, Bool.false_and] at hmovable
      have hne : name ≠ data.assetName := Ne.symm hname
      rw [hmovable, if_neg Bool.false_ne_true]
      split
      · exact h
      split
      · exact h
      · constructor
        · dsimp only
          rw [find?_assign_ne hne]
          exact h.stops
        · dsimp only
          rw [find?_assign_ne hne]
          exact h.ne_nil
        · dsimp only
          rw [find?_assign_ne hne, ← h.hit]
          split
          · rw [List.mem_cons, or_iff_right hne]
          · rfl
        · dsimp only
          rw [find?_assign_ne hne, find?_assign_ne hne]
          exact h.total

theorem isSome_of_movable {out : COutput} (h : movable env st name out = true) :
    out.coin.txout.scriptPubKey.isAssetScript.isSome = true := by
  cases hasset : out.coin.txout.scriptPubKey.isAssetScript with
  | none =>
    rw [movable, getAssetData, hasset] at h
    cases h
  | some type => rfl

/-- **What one output does to an asset.** -/
theorem NamedFound.add (h : NamedFound env limits name seen found) (out : COutput) :
    NamedFound env limits name
      (if fGetAssets && env.dep.areAssetsDeployed && movable env st name out then seen ++ [out]
        else seen) (found.add env st limits fGetUNEMP fGetAssets out) := by
  have hassets : NamedFound env limits name
      (if fGetAssets && env.dep.areAssetsDeployed && movable env st name out then seen ++ [out]
        else seen)
      (if fGetAssets && env.dep.areAssetsDeployed &&
        out.coin.txout.scriptPubKey.isAssetScript.isSome then found.addAsset env st limits out
      else found) := by
    cases fGetAssets && env.dep.areAssetsDeployed with
    | false => exact h
    | true =>
      rw [Bool.true_and, Bool.true_and]
      by_cases hasset : out.coin.txout.scriptPubKey.isAssetScript.isSome = true
      · rw [if_pos hasset]
        exact h.addAsset out
      · rw [if_neg hasset, if_neg fun hmovable => hasset (isSome_of_movable hmovable)]
        exact h
  cases fGetUNEMP with
  | true => exact hassets.addCoin out
  | false => exact hassets

theorem coinsFound_empty : CoinsFound limits [] .empty where
  stops := .nil
  hit := by simp [AvailableCoins.empty]
  total _ := rfl

theorem namedFound_empty : NamedFound env limits name [] .empty := by
  have hnone : AvailableCoins.empty.mapAssetCoins.find? name = none := find?_empty name
  have hzero : AvailableCoins.empty.mapAssetTotals.find? name = none := find?_empty name
  constructor
  · rw [hnone]
    exact .nil
  · rw [hnone]
    exact nofun
  · rw [hnone]
    simp [AvailableCoins.empty]
  · rw [hnone, hzero]
    rfl

end Found

/-! ## All that is found -/

section Exact

variable {env : Env} {st : AssetState} {wallet : CWallet} {coinControl : CCoinControl}
  {limits : CoinLimits} {fGetUNEMP fGetAssets fOnlySafe : Bool}

theorem coinsFound : CoinsFound limits
    ((usableOutputs wallet coinControl limits fOnlySafe).filter fun out => fGetUNEMP && native out)
    (availableCoinsAll env st wallet coinControl limits fGetUNEMP fGetAssets fOnlySafe) :=
  foldl_filter (fun _ _ out h => h.add out) coinsFound_empty

theorem namedFound (name : Bytes) : NamedFound env limits name
    ((usableOutputs wallet coinControl limits fOnlySafe).filter fun out =>
      fGetAssets && env.dep.areAssetsDeployed && movable env st name out)
    (availableCoinsAll env st wallet coinControl limits fGetUNEMP fGetAssets fOnlySafe) :=
  foldl_filter (fun _ _ out h => h.add out) namedFound_empty

/-- The amount of an output is within the limits on one amount. -/
def CoinLimits.admits (limits : CoinLimits) (amountOf : CTxOut → Option CAmount)
    (out : COutput) : Bool :=
  (amountOf out.coin.txout).all fun nAmount =>
    decide (limits.nMinimumAmount ≤ nAmount ∧ nAmount ≤ limits.nMaximumAmount)

/-- All outputs of a list, or with caps those up to the first point where a cap is met. -/
structure Lists (limits : CoinLimits) (amountOf : CTxOut → Option CAmount)
    (all found : List COutput) : Prop where
  whole : limits.nMinimumSumAmount = MAX_MONEY → limits.nMaximumCount = 0 → found = all
  stops : StopsAt (limits.Met amountOf) all found
  /-- The sum is exact where it stays in 64 bits. -/
  stopsExactly : (∀ out ∈ all, 0 ≤ (worth amountOf out).toInt) →
    (all.map fun out => (worth amountOf out).toInt).sum < 2 ^ 63 →
      StopsAt (limits.MetExactly amountOf) all found

theorem lists_of_stops {amountOf : CTxOut → Option CAmount} {all found : List COutput}
    (h : StopsAt (limits.Met amountOf) all found) : Lists limits amountOf all found where
  whole := by
    intro hsum hcount
    apply h.eq_all
    rintro l (⟨hne, -⟩ | ⟨hpos, -⟩)
    · exact hne hsum
    · exact absurd hpos (Nat.not_lt.2 (Nat.le_of_eq hcount))
  stops := h
  stopsExactly := by
    intro hnonneg hsum
    refine h.congr fun l hl => ?_
    have hpart : ∀ out ∈ l, 0 ≤ (worth amountOf out).toInt := fun out hout =>
      hnonneg out (hl.subset hout)
    have hle : (l.map fun out => (worth amountOf out).toInt).sum ≤
        (all.map fun out => (worth amountOf out).toInt).sum := by
      obtain ⟨rest, rfl⟩ := hl
      rw [List.map_append, List.sum_append]
      refine le_add_of_nonneg_right (List.sum_nonneg (List.forall_mem_map.2 fun out hout => ?_))
      exact hnonneg out (List.mem_append_right l hout)
    have hexact : (l.map (worth amountOf)).sum.toInt =
        (l.map fun out => (worth amountOf out).toInt).sum := by
      have := @Totals.toInt_sum_of_lt (l.map (worth amountOf)) (List.forall_mem_map.2 hpart)
      rw [List.map_map] at this
      exact this (hle.trans_lt hsum)
    rw [CoinLimits.Met, CoinLimits.MetExactly, Int64.le_iff_toInt_le, hexact]

/-- **The listing is exact**, where the limits on one amount leave out none of the outputs. -/
theorem availableCoins_exact (env : Env) (st : AssetState) (wallet : CWallet)
    (coinControl : CCoinControl) (limits : CoinLimits) (fGetUNEMP fGetAssets fOnlySafe : Bool)
    (hadmits : ∀ out ∈ usableOutputs wallet coinControl limits fOnlySafe,
      limits.admits (if native out then nativeValue else assetAmount env) out = true) :
    ((usableOutputs wallet coinControl limits fOnlySafe).map COutput.outpoint).Nodup ∧
    (∀ out, out ∈ usableOutputs wallet coinControl limits fOnlySafe ↔
      ∃ pcoin, Wanted wallet coinControl limits fOnlySafe pcoin out.coin ∧
        out = listing wallet coinControl pcoin out.coin) ∧
    Lists limits nativeValue
      ((usableOutputs wallet coinControl limits fOnlySafe).filter fun out =>
        fGetUNEMP && (native out && limits.admits nativeValue out))
      (availableCoinsAll env st wallet coinControl limits fGetUNEMP fGetAssets fOnlySafe).vCoins ∧
    ∀ name, Lists limits (assetAmount env)
        ((usableOutputs wallet coinControl limits fOnlySafe).filter fun out =>
          fGetAssets && env.dep.areAssetsDeployed &&
            (movable env st name out && limits.admits (assetAmount env) out))
        (((availableCoinsAll env st wallet coinControl limits fGetUNEMP fGetAssets
          fOnlySafe).mapAssetCoins.find? name).getD []) ∧
      (availableCoinsAll env st wallet coinControl limits fGetUNEMP fGetAssets
        fOnlySafe).mapAssetCoins.find? name ≠ some [] := by
  refine ⟨usableOutputs_nodup fOnlySafe, fun out => mem_usableOutputs, ?_, fun name => ?_⟩
  · have hfilter : ((usableOutputs wallet coinControl limits fOnlySafe).filter fun out =>
          fGetUNEMP && (native out && limits.admits nativeValue out)) =
        (usableOutputs wallet coinControl limits fOnlySafe).filter fun out =>
          fGetUNEMP && native out := by
      apply List.filter_congr
      intro out hout
      have hin := hadmits out hout
      cases hnative : native out with
      | false => rfl
      | true =>
        rw [hnative, if_pos rfl] at hin
        rw [hin, Bool.true_and]
    rw [hfilter]
    exact lists_of_stops coinsFound.stops
  · have hfilter : ((usableOutputs wallet coinControl limits fOnlySafe).filter fun out =>
          fGetAssets && env.dep.areAssetsDeployed &&
            (movable env st name out && limits.admits (assetAmount env) out)) =
        (usableOutputs wallet coinControl limits fOnlySafe).filter fun out =>
          fGetAssets && env.dep.areAssetsDeployed && movable env st name out := by
      apply List.filter_congr
      intro out hout
      have hin := hadmits out hout
      cases hmovable : movable env st name out with
      | false => rfl
      | true =>
        have hnative : native out = false := by rw [native, isSome_of_movable hmovable]; rfl
        rw [hnative, if_neg Bool.false_ne_true] at hin
        rw [hin, Bool.true_and]
    rw [hfilter]
    exact ⟨lists_of_stops (namedFound name).stops, (namedFound name).ne_nil⟩

end Exact

/-! ## Limits and frozen addresses -/

/-- A wallet with one confirmed transaction, all of whose outputs are its own. -/
def confirmedWallet (vout : List CTxOut) : CWallet where
  mapWallet := StdMap.assign ∅ 1 ⟨vout, true, false, 0, 10, false, true, true, false, false⟩
  isLockedCoin _ := false
  isSpent _ := false
  isMine _ := .ISMINE_SPENDABLE

def plainControl : CCoinControl := ⟨none, none, false, false, ∅, ∅⟩

/-- `$NAME` is frozen at the address of key 1. -/
def frozenNAME : AssetState :=
  { AssetState.genesis with
    prestricteddb := { AssetState.genesis.prestricteddb with
      restrictedAddresses := StdMap.assign ∅
        (addressOf checksumEnv (getScriptForKeyID (keyHash 1)), ascii "$NAME") () } }

def cappedWallet : CWallet :=
  confirmedWallet [⟨5, []⟩, transferRestricted 2 7, transferRestricted 1 100, ⟨8, []⟩, ⟨20, []⟩,
    transferRestricted 2 6, transferRestricted 2 1]

def cappedLimits : CoinLimits := { nMinimumSumAmount := 12 }

def cappedCoins : AvailableCoins :=
  availableCoinsAll checksumEnv frozenNAME cappedWallet plainControl cappedLimits true true true

/-- At least 12 are asked for: two of three coins, and two of three outputs that are not frozen. -/
theorem availableCoins_exact_capped :
    cappedCoins.vCoins.map (worth nativeValue) = [5, 8] ∧
    ((cappedCoins.mapAssetCoins.find? (ascii "$NAME")).getD []).map
      (worth (assetAmount checksumEnv)) = [7, 6] ∧
    Lists cappedLimits nativeValue
      ((usableOutputs cappedWallet plainControl cappedLimits true).filter fun out =>
        native out && cappedLimits.admits nativeValue out) cappedCoins.vCoins ∧
    Lists cappedLimits (assetAmount checksumEnv)
      ((usableOutputs cappedWallet plainControl cappedLimits true).filter fun out =>
        movable checksumEnv frozenNAME (ascii "$NAME") out &&
          cappedLimits.admits (assetAmount checksumEnv) out)
      ((cappedCoins.mapAssetCoins.find? (ascii "$NAME")).getD []) := by
  obtain ⟨-, -, hcoins, hassets⟩ := availableCoins_exact checksumEnv frozenNAME cappedWallet
    plainControl cappedLimits true true true (by decide +kernel)
  exact ⟨by decide +kernel, by decide +kernel, hcoins, (hassets _).1⟩

/-- **A coin of 5 is listed where at least 10 are asked for**, and an output of the wallet with 100
of an asset, which is within the limits, is not, as the asset is frozen at its address. -/
theorem availableCoins_unbounded :
    (availableCoinsAll checksumEnv frozenNAME (confirmedWallet [⟨5, []⟩]) plainControl
        { nMinimumAmount := 10 } true true true).vCoins.map (fun out => out.coin) ≠
      ((usableOutputs (confirmedWallet [⟨5, []⟩]) plainControl { nMinimumAmount := 10 } true).filter
        fun out => native out && CoinLimits.admits { nMinimumAmount := 10 } nativeValue out).map
          (fun out => out.coin) ∧
    (((availableCoinsAll checksumEnv frozenNAME (confirmedWallet [transferRestricted 1 100])
        plainControl {} true true true).mapAssetCoins.find? (ascii "$NAME")).getD []).map
        (fun out => out.coin) ≠
      ((usableOutputs (confirmedWallet [transferRestricted 1 100]) plainControl {} true).filter
        fun out => decide ((getAssetData checksumEnv out.coin.txout.scriptPubKey).map
          (fun data => data.assetName) = some (ascii "$NAME")) &&
            CoinLimits.admits {} (assetAmount checksumEnv) out).map (fun out => out.coin) := by
  constructor <;> decide +kernel

end Wallet

end UnemployCoin
