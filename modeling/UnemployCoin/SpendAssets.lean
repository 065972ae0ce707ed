import UnemployCoin.CoinsCache
import UnemployCoin.Conservation
/-!
# Spending a coin with its asset

`CCoinsViewCache::SpendCoin` takes the coin out of the cache and then has `TrySpendCoin` take its
asset out of the asset cache (`coins.cpp`, `assets/assets.cpp`).  Where the second step fails, the
asset cache is as it was, but the coin is gone (`spendCoin_atomic`).
-/

namespace UnemployCoin

/-! ## Balances -/

structure CAssetCacheSpendAsset where
  assetName : Bytes
  address : Bytes
  nAmount : CAmount
  deriving DecidableEq, Repr

/-- What the index of assets reads besides the cache that is changed. -/
structure AssetIndex where
  fAssetIndex : Bool
  /-- The amounts in `passets`. -/
  passets : StdMap (Bytes × Bytes) CAmount
  /-- `ReadAssetAddressQuantity`. -/
  passetsdb : Bytes × Bytes → Option CAmount

/-- The balances of a `CAssetsCache`. -/
structure AssetBalances where
  mapAssetsAddressAmount : StdMap (Bytes × Bytes) CAmount
  vSpentAssets : List CAssetCacheSpendAsset

namespace AssetBalances

variable (env : Env) (index : AssetIndex) (cache : AssetBalances)

/-- `GetBestAssetAddressAmount`: the cache with the amount, if there is one. -/
def getBestAssetAddressAmount (pair : Bytes × Bytes) : AssetBalances × Bool :=
  if index.fAssetIndex then
    if cache.mapAssetsAddressAmount.count pair then (cache, true)
    else
      match index.passets.find? pair with
      | some nAmount =>
        ({ cache with
            mapAssetsAddressAmount := cache.mapAssetsAddressAmount.assign pair nAmount }, true)
      | none =>
        match index.passetsdb pair with
        | some nDBAmount =>
          ({ cache with
              mapAssetsAddressAmount := cache.mapAssetsAddressAmount.emplace pair nDBAmount }, true)
        | none => (cache, false)
  else (cache, false)

/-- The asset name, the address and the amount that `TrySpendCoin` reads from an asset script, or
nothing where it ends with an error at once. -/
def spentAsset (s : CScript) : AssetScriptType → Option (Bytes × Bytes × CAmount)
  | ⟨.TX_NEW_ASSET, false, _⟩ =>
    match assetFromScript env s with
    | some (asset, address) => some (asset.strName, address, asset.nAmount)
    | none => some ([], [], -1)
  | ⟨.TX_TRANSFER_ASSET, _, _⟩ =>
    match transferAssetFromScript env s with
    | some (transfer, address) => some (transfer.strName, address, transfer.nAmount)
    | none => some ([], [], -1)
  | ⟨.TX_NEW_ASSET, true, _⟩ =>
    (ownerAssetFromScript env s).map fun (assetName, address) =>
      (assetName, address, OWNER_ASSET_AMOUNT)
  | ⟨.TX_REISSUE_ASSET, _, _⟩ =>
    match reissueAssetFromScript env s with
    | some (reissue, address) => some (reissue.strName, address, reissue.nAmount)
    | none => some ([], [], -1)
  | _ => some ([], [], -1)

/-- The balance after an amount is spent, which is not below zero. -/
def spendAmount (assetName address : Bytes) (nAmount : CAmount) : AssetBalances :=
  match cache.getBestAssetAddressAmount index (assetName, address) with
  | (cache, true) =>
    let rest := (cache.mapAssetsAddressAmount.find? (assetName, address)).getD 0 - nAmount
    { mapAssetsAddressAmount :=
        cache.mapAssetsAddressAmount.assign (assetName, address) (if rest < 0 then 0 else rest)
      vSpentAssets := cache.vSpentAssets ++ [⟨assetName, address, nAmount⟩] }
  | (cache, false) => cache

/-- `CAssetsCache::TrySpendCoin`: the cache, and whether the asset could be read. -/
def trySpendCoin (txOut : CTxOut) : AssetBalances × Bool :=
  match txOut.scriptPubKey.isAssetScript with
  | none => (cache, true)
  | some type =>
    match spentAsset env txOut.scriptPubKey type with
    | none => (cache, false)
    | some (assetName, address, nAmount) =>
      if !address.isEmpty && !assetName.isEmpty then
        if index.fAssetIndex && decide (nAmount > 0) then
          (cache.spendAmount index assetName address nAmount, true)
        else (cache, true)
      else (cache, false)

end AssetBalances

/-- `CCoinsViewCache::SpendCoin` through the top cache: the stack, the asset cache and the
result. -/
def CoinsStack.spendCoinAndAsset {σ : Type} (V : BaseView σ) (env : Env) (index : AssetIndex)
    (s : CoinsStack σ) (outpoint : COutPoint) (assetsCache : Option AssetBalances) :
    CoinsStack σ × Option AssetBalances × Bool :=
  match CoinsStack.spendCoin V s.base outpoint s.caches with
  | (caches, none) => ({ s with caches := caches }, assetsCache, false)
  | (caches, some tempCoin) =>
    -- The coin is gone from here on.
    if env.dep.areAssetsDeployed then
      match assetsCache with
      | none => ({ s with caches := caches }, none, true)
      | some cache =>
        let (cache, result) := cache.trySpendCoin env index tempCoin.out
        ({ s with caches := caches }, some cache, result)
    else ({ s with caches := caches }, assetsCache, true)

/-! ## The asset -/

/-- An output with an asset script that cannot be read, or has no name or no address. -/
def HasUnreadableAsset (env : Env) (txOut : CTxOut) : Prop :=
  txOut.scriptPubKey.isAssetScript.isSome = true ∧
    ∀ data, getAssetData env txOut.scriptPubKey = some data →
      addressOf env txOut.scriptPubKey = [] ∨ data.assetName = []

section Asset

variable {env : Env} {index : AssetIndex} {txOut : CTxOut}

theorem address_of_recordFromScript {α : Type} {r : CDataStream α} {s : CScript} {i : Option ℕ}
    {record : WithAddress α} (h : recordFromScript env r s i = some record) :
    record.2 = addressOf env s := by
  obtain ⟨index, -, h⟩ := Option.bind_eq_some_iff.1 h
  obtain ⟨data, -, h⟩ := Option.bind_eq_some_iff.1 h
  rw [← Option.some.inj h]

theorem any_spentAsset {s : CScript} {type : AssetScriptType} (h : s.isAssetScript = some type) :
    ((AssetBalances.spentAsset env s type).any fun spent =>
        !spent.2.1.isEmpty && !spent.1.isEmpty) =
      (getAssetData env s).any fun data =>
        !(addressOf env s).isEmpty && !data.assetName.isEmpty := by
  obtain ⟨nType, fIsOwner, i⟩ := type
  rw [getAssetData, h]
  cases nType with
  | TX_NEW_ASSET =>
    cases fIsOwner with
    | false =>
      dsimp only [AssetBalances.spentAsset]
      cases hrecord : assetFromScript env s with
      | none => rfl
      | some record => simp [address_of_recordFromScript hrecord]
    | true =>
      dsimp only [AssetBalances.spentAsset]
      cases hrecord : ownerAssetFromScript env s with
      | none => rfl
      | some record => simp [address_of_recordFromScript hrecord]
  | TX_TRANSFER_ASSET =>
    dsimp only [AssetBalances.spentAsset]
    cases hrecord : transferAssetFromScript env s with
    | none => cases fIsOwner <;> rfl
    | some record => cases fIsOwner <;> simp [address_of_recordFromScript hrecord]
  | TX_REISSUE_ASSET =>
    dsimp only [AssetBalances.spentAsset]
    cases hrecord : reissueAssetFromScript env s with
    | none => cases fIsOwner <;> rfl
    | some record => cases fIsOwner <;> simp [address_of_recordFromScript hrecord]
  | _ => cases fIsOwner <;> rfl

theorem trySpendCoin_result (cache : AssetBalances) :
    (cache.trySpendCoin env index txOut).2 = trySpendCoin env txOut := by
  have hmatch : trySpendCoin env txOut = (!txOut.scriptPubKey.isAssetScript.isSome ||
      (getAssetData env txOut.scriptPubKey).any fun data =>
        !(addressOf env txOut.scriptPubKey).isEmpty && !data.assetName.isEmpty) := by
    rw [trySpendCoin]
    cases getAssetData env txOut.scriptPubKey <;> rfl
  rw [hmatch, AssetBalances.trySpendCoin]
  cases htype : txOut.scriptPubKey.isAssetScript with
  | none => rfl
  | some type =>
    rw [← any_spentAsset htype, Option.isSome_some, Bool.not_true, Bool.false_or]
    dsimp only
    cases AssetBalances.spentAsset env txOut.scriptPubKey type with
    | none => rfl
    | some spent =>
      rw [Option.any_some]
      dsimp only
      split
      · rename_i hread
        rw [hread]
        split <;> rfl
      · rename_i hread
        exact (Bool.eq_false_iff.2 hread).symm

/-- **A failed `TrySpendCoin` leaves the asset cache as it was.** -/
theorem trySpendCoin_failed {cache : AssetBalances}
    (h : (cache.trySpendCoin env index txOut).2 = false) :
    (cache.trySpendCoin env index txOut).1 = cache := by
  rw [AssetBalances.trySpendCoin] at h ⊢
  cases htype : txOut.scriptPubKey.isAssetScript with
  | none => rfl
  | some type =>
    rw [htype] at h
    dsimp only at h ⊢
    cases hspent : AssetBalances.spentAsset env txOut.scriptPubKey type with
    | none => rfl
    | some spent =>
      rw [hspent] at h
      dsimp only at h ⊢
      split
      · rename_i hread
        rw [if_pos hread] at h
        split at h <;> cases h
      · rfl

theorem trySpendCoin_eq_false : trySpendCoin env txOut = false ↔ HasUnreadableAsset env txOut := by
  rw [trySpendCoin, HasUnreadableAsset, Bool.or_eq_false_iff, Bool.not_eq_false']
  refine and_congr_right fun _ => ?_
  cases getAssetData env txOut.scriptPubKey with
  | none => exact iff_of_true rfl nofun
  | some data => simp [or_iff_not_imp_left]

end Asset

/-! ## The coin -/

section Coin

variable {σ : Type} {V : BaseView σ} {env : Env} {index : AssetIndex} {base : σ}
  {cache : CCoinsViewCache} {caches : List CCoinsViewCache}

theorem spendCoin_coin (outpoint : COutPoint) (hsound : SoundCaches V base (cache :: caches)) :
    (CoinsStack.spendCoin V base outpoint (cache :: caches)).2.bind Coin.unspent =
      seenThrough V base (cache :: caches) outpoint := by
  obtain ⟨-, hcaches⟩ := hsound
  obtain ⟨-, hbelow⟩ := ask_spec cache hcaches (getCoin_answers outpoint hcaches)
  rw [seenThrough, ← fetchCoin_entry hbelow, CoinsStack.spendCoin]
  dsimp only
  split
  · rename_i hfetch
    rw [hfetch]
    rfl
  · rename_i hfetch
    rw [hfetch]
    rfl

theorem spendCoinAndAsset_views {outpoint : COutPoint} {assetsCache : Option AssetBalances}
    (hsound : SoundCaches V base (cache :: caches)) :
    (CoinsStack.spendCoinAndAsset V env index ⟨cache :: caches, base⟩ outpoint
        assetsCache).1.views V =
      Function.update (seenThrough V base (cache :: caches)) outpoint none ::
        viewsOf V base caches := by
  have hviews := (spendCoin_views outpoint hsound).2
  rw [CoinsStack.spendCoinAndAsset]
  dsimp only
  split
  · rename_i caches' hspend
    rw [hspend] at hviews
    exact hviews
  · rename_i caches' tempCoin hspend
    rw [hspend] at hviews
    split
    · split <;> exact hviews
    · exact hviews

theorem eq_of_unspent {tempCoin coin : Coin} (h : tempCoin.unspent = some coin) :
    coin = tempCoin := by
  rw [Coin.unspent] at h
  split at h
  · cases h
  · exact (Option.some.inj h).symm

theorem spendCoinAndAsset_failed {s : CoinsStack σ} {outpoint : COutPoint}
    {assetsCache : Option AssetBalances} :
    ((s.spendCoinAndAsset V env index outpoint assetsCache).2.2 = false ↔
      (CoinsStack.spendCoin V s.base outpoint s.caches).2 = none ∨
        ∃ tempCoin, (CoinsStack.spendCoin V s.base outpoint s.caches).2 = some tempCoin ∧
          env.dep.areAssetsDeployed = true ∧ assetsCache ≠ none ∧
            HasUnreadableAsset env tempCoin.out) ∧
    ((s.spendCoinAndAsset V env index outpoint assetsCache).2.2 = false →
      (s.spendCoinAndAsset V env index outpoint assetsCache).2.1 = assetsCache) := by
  rw [CoinsStack.spendCoinAndAsset]
  match hspend : CoinsStack.spendCoin V s.base outpoint s.caches with
  | (caches, none) => exact ⟨iff_of_true rfl (.inl rfl), fun _ => rfl⟩
  | (caches, some tempCoin) =>
    dsimp only
    by_cases hdeployed : env.dep.areAssetsDeployed = true
    · rw [if_pos hdeployed]
      match assetsCache with
      | none =>
        refine ⟨iff_of_false nofun ?_, nofun⟩
        rintro (hnone | ⟨_, -, -, hsome, -⟩)
        · cases hnone
        · exact hsome rfl
      | some cache =>
        dsimp only
        refine ⟨?_, fun hfalse => congrArg some (trySpendCoin_failed hfalse)⟩
        rw [trySpendCoin_result, trySpendCoin_eq_false]
        constructor
        · exact fun hunreadable => .inr ⟨tempCoin, rfl, hdeployed, nofun, hunreadable⟩
        · rintro (hnone | ⟨tempCoin', heq, -, -, hunreadable⟩)
          · cases hnone
          · rw [Option.some.inj heq]
            exact hunreadable
    · rw [if_neg hdeployed]
      refine ⟨iff_of_false nofun ?_, nofun⟩
      rintro (hnone | ⟨_, -, hdeployed', -⟩)
      · cases hnone
      · exact hdeployed hdeployed'

/-- **`SpendCoin` fails with the coin gone exactly for a coin with an unreadable asset.**  In every
state that a stack of caches reaches: where it fails, the asset cache is as it was; and what is seen
of the coins is as it was, unless there was a coin and it was its asset that could not be read. -/
theorem spendCoin_atomic (hV : V.Writes) {ops : List CoinsOperation} {s : CoinsStack σ}
    (hallowed : (coinsStack V).Along (fun s op => op.Allowed (s.seen V)) ⟨[], base⟩ ops)
    (h : (coinsStack V).exec ⟨[], base⟩ ops = some s) (hcaches : s.caches ≠ [])
    (env : Env) (index : AssetIndex) (outpoint : COutPoint) (assetsCache : Option AssetBalances) :
    ((s.spendCoinAndAsset V env index outpoint assetsCache).2.2 = false →
      (s.spendCoinAndAsset V env index outpoint assetsCache).2.1 = assetsCache) ∧
    (((s.spendCoinAndAsset V env index outpoint assetsCache).2.2 = false →
        (s.spendCoinAndAsset V env index outpoint assetsCache).1.views V = s.views V) ↔
      ¬(env.dep.areAssetsDeployed = true ∧ assetsCache ≠ none ∧
        ∃ coin, s.seen V outpoint = some coin ∧ HasUnreadableAsset env coin.out)) := by
  obtain ⟨hsound, -⟩ := coinsStack_history hV hallowed h
  obtain ⟨caches, base⟩ := s
  obtain ⟨cache, caches, rfl⟩ := List.exists_cons_of_ne_nil hcaches
  have hviews := @spendCoinAndAsset_views _ V env index base cache caches outpoint
    assetsCache hsound
  have hcoin := spendCoin_coin outpoint hsound
  -- What is seen stays exactly where there is no coin to see.
  have hsame : (CoinsStack.spendCoinAndAsset V env index ⟨cache :: caches, base⟩ outpoint
      assetsCache).1.views V = CoinsStack.views V ⟨cache :: caches, base⟩ ↔
        CoinsStack.seen V ⟨cache :: caches, base⟩ outpoint = none := by
    rw [hviews, CoinsStack.views, viewsOf, CoinsStack.seen]
    constructor
    · intro heq
      have hhead := congrFun (List.cons.inj heq).1 outpoint
      rw [Function.update_self] at hhead
      exact hhead.symm
    · intro hnone
      rw [← hnone, Function.update_eq_self]
  obtain ⟨hfailed, hcache⟩ :=
    @spendCoinAndAsset_failed _ V env index ⟨cache :: caches, base⟩ outpoint assetsCache
  refine ⟨hcache, ?_⟩
  rw [hsame, hfailed, CoinsStack.seen, ← hcoin]
  constructor
  · rintro hnone ⟨hdeployed, hsome, coin, hseen, hunreadable⟩
    obtain ⟨tempCoin, hspend, hunspent⟩ := Option.bind_eq_some_iff.1 hseen
    rw [hnone (.inr ⟨tempCoin, hspend, hdeployed, hsome, eq_of_unspent hunspent ▸ hunreadable⟩)]
      at hseen
    cases hseen
  · rintro hnot (hnone | ⟨tempCoin, hspend, hdeployed, hsome, hunreadable⟩)
    · rw [hnone]
      rfl
    · rw [Option.eq_none_iff_forall_ne_some]
      intro coin hseen
      refine hnot ⟨hdeployed, hsome, coin, hseen, ?_⟩
      rw [hspend] at hseen
      exact eq_of_unspent hseen ▸ hunreadable

end Coin

/-! ### Sample coins -/

def cutTransferScript : CScript :=
  appendAsset (getScriptForKeyID (List.replicate 20 1)) UNEMP_T []

def oneCoinDB (script : CScript) : CCoinsViewDB :=
  ⟨StdMap.assign ∅ sampleOutpoint ⟨⟨0, script⟩, false, 7⟩, 0⟩

def oneCoinStack (script : CScript) : CoinsStack CCoinsViewDB := ⟨[.empty], oneCoinDB script⟩

theorem oneCoinStack_reached (script : CScript) :
    (coinsStack coinsViewDB).exec ⟨[], oneCoinDB script⟩ [.push] = some (oneCoinStack script) := rfl

def noIndex : AssetIndex := ⟨false, ∅, fun _ => none⟩

/-- An outpoint without a coin: the call fails and nothing changes. -/
theorem spendCoin_missing :
    ((oneCoinStack []).spendCoinAndAsset coinsViewDB sampleEnv noIndex ⟨2, 0⟩
        (some ⟨∅, []⟩)).2.2 = false ∧
      ((oneCoinStack []).spendCoinAndAsset coinsViewDB sampleEnv noIndex ⟨2, 0⟩
        (some ⟨∅, []⟩)).1.views coinsViewDB = (oneCoinStack []).views coinsViewDB := by
  have hfalse : ((oneCoinStack []).spendCoinAndAsset coinsViewDB sampleEnv noIndex ⟨2, 0⟩
      (some ⟨∅, []⟩)).2.2 = false := by decide +kernel
  obtain ⟨-, hviews⟩ := @spendCoin_atomic _ coinsViewDB (oneCoinDB []) coinsViewDB_writes [.push]
    (oneCoinStack []) ⟨trivial, fun _ _ => trivial⟩ (oneCoinStack_reached [])
    (List.cons_ne_nil _ _) sampleEnv noIndex ⟨2, 0⟩ (some ⟨∅, []⟩)
  refine ⟨hfalse, hviews.2 ?_ hfalse⟩
  rintro ⟨-, -, coin, hseen, -⟩
  have hnone : (oneCoinStack []).seen coinsViewDB ⟨2, 0⟩ = none := by decide +kernel
  rw [hnone] at hseen
  cases hseen

/-- **The coin is gone though `SpendCoin` has failed.** -/
theorem cutTransfer_spent :
    (coinsStack coinsViewDB).exec ⟨[], oneCoinDB cutTransferScript⟩ [.push] =
        some (oneCoinStack cutTransferScript) ∧
      ((oneCoinStack cutTransferScript).spendCoinAndAsset coinsViewDB sampleEnv noIndex
        sampleOutpoint (some ⟨∅, []⟩)).2.2 = false ∧
      ((oneCoinStack cutTransferScript).seen coinsViewDB sampleOutpoint).isSome = true ∧
      ((oneCoinStack cutTransferScript).spendCoinAndAsset coinsViewDB sampleEnv noIndex
        sampleOutpoint (some ⟨∅, []⟩)).1.seen coinsViewDB sampleOutpoint = none := by
  refine ⟨rfl, ?_, ?_, ?_⟩ <;> decide +kernel

end UnemployCoin
