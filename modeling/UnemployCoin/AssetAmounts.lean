import UnemployCoin.Conservation
/-!
# The two readers of the amount of an output

`AmountFromNewAssetScript`, `AmountFromTransferScript` and `AmountFromReissueScript`
(`script/script.cpp`), which `GetAssetAmountFromScript` goes through, read the record of an output
again, next to `GetAssetData` (`assets/assets.cpp`).
-/

namespace UnemployCoin

/-! ## Amounts of one kind -/

/-- The amount of the record behind index `nStartingIndex`. -/
def amountFromScript {α : Type} (r : CDataStream α) (nAmount : α → CAmount) (s : CScript)
    (nStartingIndex : Option ℕ) : Option CAmount := do
  let index ← nStartingIndex
  let data ← r.read (s.drop index)
  return nAmount data

def amountFromNewAssetScript (s : CScript) : Option CAmount :=
  amountFromScript CNewAsset.unserialize CNewAsset.nAmount s s.isScriptNewAsset

/-- `AmountFromTransferScript`, which reads behind the push **whatever is deployed**. -/
def amountFromTransferScript (s : CScript) : Option CAmount :=
  amountFromScript CAssetTransfer.unserialize CAssetTransfer.nAmount s s.isScriptTransferAsset

def amountFromReissueScript (s : CScript) : Option CAmount :=
  amountFromScript CReissueAsset.unserialize CReissueAsset.nAmount s s.isScriptReissueAsset

/-- What `GetAssetData` says of an output of one kind. -/
def assetDataOfType (env : Env) (nType : txnouttype) (fIsOwner : Bool) (s : CScript) :
    Option CAssetOutputEntry :=
  if (s.assetDataIndex nType fIsOwner).isSome then getAssetData env s else none

section Amounts

variable {env : Env} {s : CScript} {nType : txnouttype} {fIsOwner : Bool} {i : ℕ}

theorem assetDataIndex_of_isAssetScript (h : s.isAssetScript = some ⟨nType, fIsOwner, i⟩)
    (nType' : txnouttype) (fIsOwner' : Bool) :
    s.assetDataIndex nType' fIsOwner' =
      if nType = nType' ∧ fIsOwner = fIsOwner' then some i else none := by
  rw [CScript.assetDataIndex, h]

theorem amount_recordFromScript {α : Type} (r : CDataStream α) (nAmount : α → CAmount)
    (index : Option ℕ) :
    amountFromScript r nAmount s index =
      (recordFromScript env r s index).map fun record => nAmount record.1 := by
  cases index with
  | none => rfl
  | some index =>
    have hread : (recordFromScript env r s (some index)) =
        (r.read (s.drop index)).bind fun data => some (data, addressOf env s) := rfl
    have hamount : amountFromScript r nAmount s (some index) =
        (r.read (s.drop index)).bind fun data => some (nAmount data) := rfl
    rw [hread, hamount]
    cases r.read (s.drop index) <;> rfl

/-! ## What each kind of script carries -/

theorem getAssetData_newAsset (h : s.isAssetScript = some ⟨.TX_NEW_ASSET, false, i⟩) :
    (getAssetData env s).map CAssetOutputEntry.nAmount = amountFromNewAssetScript s := by
  rw [amountFromNewAssetScript, @amount_recordFromScript env, getAssetData, h]
  exact Option.map_map ..

theorem getAssetData_reissue (h : s.isAssetScript = some ⟨.TX_REISSUE_ASSET, fIsOwner, i⟩) :
    (getAssetData env s).map CAssetOutputEntry.nAmount = amountFromReissueScript s := by
  rw [amountFromReissueScript, @amount_recordFromScript env, getAssetData, h]
  exact Option.map_map ..

theorem getAssetData_transfer (h : s.isAssetScript = some ⟨.TX_TRANSFER_ASSET, fIsOwner, i⟩)
    (howner : fIsOwner = false) (hi : env.dep.areTransferScriptsSizeDeployed = false → i = 31) :
    (getAssetData env s).map CAssetOutputEntry.nAmount = amountFromTransferScript s := by
  subst howner
  have hindex : s.isScriptTransferAsset = some i := by
    rw [CScript.isScriptTransferAsset, assetDataIndex_of_isAssetScript h]
    rfl
  have hsame : (s.isScriptTransferAsset.map fun nStartingIndex =>
      if env.dep.areTransferScriptsSizeDeployed then nStartingIndex else 31) = some i := by
    rw [hindex, Option.map_some]
    cases hdep : env.dep.areTransferScriptsSizeDeployed with
    | true => rfl
    | false =>
      rw [hi hdep]
      rfl
  rw [amountFromTransferScript, @amount_recordFromScript env, hindex, getAssetData, h]
  dsimp only
  rw [transferAssetFromScript, hsame]
  exact Option.map_map ..

theorem getAssetData_owner (h : s.isAssetScript = some ⟨.TX_NEW_ASSET, true, i⟩) :
    (getAssetData env s).map CAssetOutputEntry.nAmount =
      (CDataStream.readString.read (s.drop i)).map fun _ => OWNER_ASSET_AMOUNT := by
  have hindex : s.isScriptOwnerAsset = some i := by
    rw [CScript.isScriptOwnerAsset, assetDataIndex_of_isAssetScript h]
    rfl
  have hread : ownerAssetFromScript env s =
      (CDataStream.readString.read (s.drop i)).bind fun name => some (name, addressOf env s) := by
    rw [ownerAssetFromScript, hindex]
    rfl
  rw [getAssetData, h]
  dsimp only
  rw [hread]
  cases CDataStream.readString.read (s.drop i) <;> rfl

theorem isAssetScript_cases {t : AssetScriptType} (h : s.isAssetScript = some t) :
    (t.nStartingIndex = 31 ∨ t.nStartingIndex = 32) ∧
    ((t.nType = .TX_TRANSFER_ASSET ∧ t.fIsOwner = false) ∨ t.nType = .TX_NEW_ASSET ∨
      (t.nType = .TX_REISSUE_ASSET ∧ t.fIsOwner = false)) := by
  have hindex : ∀ index, s.assetOpIndex = some index → index = 30 ∨ index = 31 := by
    intro index hop
    unfold CScript.assetOpIndex at hop
    split at hop
    · split at hop
      · exact .inl (Option.some.inj hop).symm
      · cases hop
    · split at hop
      · exact .inr (Option.some.inj hop).symm
      · cases hop
  unfold CScript.isAssetScript at h
  split at h
  · split at h
    · cases h
    · rename_i index hop
      have hstart : index + 1 = 31 ∨ index + 1 = 32 := by
        have := hindex index hop
        omega
      split at h
      · cases h
        exact ⟨hstart, .inl ⟨rfl, rfl⟩⟩
      · split at h
        · cases h
          exact ⟨hstart, .inr (.inl rfl)⟩
        · split at h
          · cases h
            exact ⟨hstart, .inr (.inl rfl)⟩
          · split at h
            · cases h
              exact ⟨hstart, .inr (.inr ⟨rfl, rfl⟩)⟩
            · cases h
  · cases h

theorem getAssetAmountFromScript_cases (s : CScript) :
    (s.isAssetScript = none ∧ getAssetAmountFromScript s = none) ∨
    (∃ i, s.isAssetScript = some ⟨.TX_NEW_ASSET, false, i⟩ ∧
      getAssetAmountFromScript s = amountFromNewAssetScript s) ∨
    (∃ i, s.isAssetScript = some ⟨.TX_NEW_ASSET, true, i⟩ ∧
      getAssetAmountFromScript s = some OWNER_ASSET_AMOUNT) ∨
    (∃ i, s.isAssetScript = some ⟨.TX_TRANSFER_ASSET, false, i⟩ ∧ (i = 31 ∨ i = 32) ∧
      getAssetAmountFromScript s = amountFromTransferScript s) ∨
    (∃ i, s.isAssetScript = some ⟨.TX_REISSUE_ASSET, false, i⟩ ∧
      getAssetAmountFromScript s = amountFromReissueScript s) := by
  have hamount : ∀ {α : Type} (r : CDataStream α) (nAmount : α → CAmount) (i : ℕ),
      amountFromScript r nAmount s (some i) = (r.read (s.drop i)).map nAmount := by
    intro α r nAmount i
    have hread : amountFromScript r nAmount s (some i) =
        (r.read (s.drop i)).bind fun data => some (nAmount data) := rfl
    rw [hread]
    cases r.read (s.drop i) <;> rfl
  cases h : s.isAssetScript with
  | none => exact .inl ⟨rfl, by rw [getAssetAmountFromScript, h]⟩
  | some t =>
    obtain ⟨nType, fIsOwner, i⟩ := t
    have hindex := assetDataIndex_of_isAssetScript h
    obtain ⟨hi, ⟨hkind, howner⟩ | hkind | ⟨hkind, howner⟩⟩ := isAssetScript_cases h
    · subst hkind howner
      refine .inr (.inr (.inr (.inl ⟨i, rfl, hi, ?_⟩)))
      rw [getAssetAmountFromScript, h, amountFromTransferScript, CScript.isScriptTransferAsset,
        hindex, if_pos ⟨rfl, rfl⟩, hamount]
    · subst hkind
      cases fIsOwner with
      | false =>
        refine .inr (.inl ⟨i, rfl, ?_⟩)
        rw [getAssetAmountFromScript, h, amountFromNewAssetScript, CScript.isScriptNewAsset,
          hindex, if_pos ⟨rfl, rfl⟩, hamount]
      | true => exact .inr (.inr (.inl ⟨i, rfl, by rw [getAssetAmountFromScript, h]⟩))
    · subst hkind howner
      refine .inr (.inr (.inr (.inr ⟨i, rfl, ?_⟩)))
      rw [getAssetAmountFromScript, h, amountFromReissueScript, CScript.isScriptReissueAsset,
        hindex, if_pos ⟨rfl, rfl⟩, hamount]

/-! ## The two readers -/

theorem amount_assetDataOfType {amount : CScript → Option CAmount}
    (hnone : s.assetDataIndex nType fIsOwner = none → amount s = none)
    (hsome : ∀ i, s.isAssetScript = some ⟨nType, fIsOwner, i⟩ →
      (getAssetData env s).map CAssetOutputEntry.nAmount = amount s) :
    amount s = (assetDataOfType env nType fIsOwner s).map CAssetOutputEntry.nAmount := by
  rw [assetDataOfType]
  cases hindex : s.assetDataIndex nType fIsOwner with
  | none => exact hnone hindex
  | some i => exact (hsome i (assetDataIndex_eq_some hindex)).symm

theorem type_of_getAssetData {data : CAssetOutputEntry} (h : getAssetData env s = some data) :
    s.isAssetScript.map AssetScriptType.nType = some data.type := by
  unfold getAssetData at h
  split at h
  · cases h
  all_goals first
    | cases h
    | rename_i hs
      obtain ⟨record, -, rfl⟩ := Option.map_eq_some_iff.1 h
      rw [hs]
      rfl

theorem amountFromTransferScript_eq
    (h : env.dep.areTransferScriptsSizeDeployed = false → s.isScriptTransferAsset ≠ some 32) :
    amountFromTransferScript s =
      (assetDataOfType env .TX_TRANSFER_ASSET false s).map CAssetOutputEntry.nAmount := by
  refine amount_assetDataOfType (fun hnone => ?_) fun i hi => ?_
  · rw [amountFromTransferScript, CScript.isScriptTransferAsset, hnone]
    rfl
  · refine getAssetData_transfer hi rfl fun hdep => ?_
    have hindex : s.isScriptTransferAsset = some i := by
      rw [CScript.isScriptTransferAsset, assetDataIndex_of_isAssetScript hi, if_pos ⟨rfl, rfl⟩]
    have hne : i ≠ 32 := fun heq => h hdep (by rw [hindex, heq])
    exact (isAssetScript_cases hi).1.resolve_right hne

theorem getAssetAmountFromScript_eq
    (h : env.dep.areTransferScriptsSizeDeployed = false → s.isScriptTransferAsset ≠ some 32)
    (howner : ∀ i, s.isScriptOwnerAsset = some i →
      (CDataStream.readString.read (s.drop i)).isSome) :
    getAssetAmountFromScript s = (getAssetData env s).map CAssetOutputEntry.nAmount := by
  rcases getAssetAmountFromScript_cases s with
    ⟨hs, hamount⟩ | ⟨i, hs, hamount⟩ | ⟨i, hs, hamount⟩ | ⟨i, hs, hi, hamount⟩ | ⟨i, hs, hamount⟩
  · rw [hamount, getAssetData_eq_none hs]
    rfl
  · rw [hamount, getAssetData_newAsset hs]
  · have hindex : s.isScriptOwnerAsset = some i := by
      rw [CScript.isScriptOwnerAsset, assetDataIndex_of_isAssetScript hs, if_pos ⟨rfl, rfl⟩]
    obtain ⟨name, hname⟩ := Option.isSome_iff_exists.1 (howner i hindex)
    rw [hamount, getAssetData_owner hs, hname]
    rfl
  · have hindex : s.isScriptTransferAsset = some i := by
      rw [CScript.isScriptTransferAsset, assetDataIndex_of_isAssetScript hs, if_pos ⟨rfl, rfl⟩]
    rw [hamount, getAssetData_transfer hs rfl fun hdep => ?_]
    exact hi.resolve_right fun heq => h hdep (by rw [hindex, heq])
  · rw [hamount, getAssetData_reissue hs]

theorem getAssetAmountFromScript_owner {i : ℕ} (h : s.isScriptOwnerAsset = some i) :
    getAssetAmountFromScript s = some OWNER_ASSET_AMOUNT ∧
      (getAssetData env s).map CAssetOutputEntry.nAmount =
        (CDataStream.readString.read (s.drop i)).map fun _ => OWNER_ASSET_AMOUNT := by
  have hs := assetDataIndex_eq_some h
  exact ⟨by rw [getAssetAmountFromScript, hs], getAssetData_owner hs⟩

theorem getAssetAmountFromScript_long (h : s.isScriptTransferAsset = some 32) :
    getAssetAmountFromScript s =
      (CAssetTransfer.unserialize.read (s.drop 32)).map CAssetTransfer.nAmount ∧
    (env.dep.areTransferScriptsSizeDeployed = false →
      (getAssetData env s).map CAssetOutputEntry.nAmount =
        (CAssetTransfer.unserialize.read (s.drop 31)).map CAssetTransfer.nAmount) := by
  have hs := assetDataIndex_eq_some h
  refine ⟨by rw [getAssetAmountFromScript, hs], fun hdep => ?_⟩
  have hread : transferAssetFromScript env s = recordFromScript env CAssetTransfer.unserialize s
      (some 31) := by
    rw [transferAssetFromScript, h, hdep]
    rfl
  have hamount := @amount_recordFromScript env s _ CAssetTransfer.unserialize CAssetTransfer.nAmount
    (some 31)
  have hdata : (getAssetData env s).map CAssetOutputEntry.nAmount =
      (recordFromScript env CAssetTransfer.unserialize s (some 31)).map fun record =>
        record.1.nAmount := by
    rw [getAssetData, hs]
    dsimp only
    rw [hread]
    exact Option.map_map ..
  have hvalue : amountFromScript CAssetTransfer.unserialize CAssetTransfer.nAmount s (some 31) =
      (CAssetTransfer.unserialize.read (s.drop 31)).bind fun data => some data.nAmount := rfl
  rw [hdata, ← hamount, hvalue]
  cases CAssetTransfer.unserialize.read (s.drop 31) <;> rfl

/-- **The amounts agree** with what `GetAssetData` gives, with two exceptions: an owner script has
its amount whether or not its name can be read, and before the transfer script sizes are active a
transfer whose push takes two bytes is read from byte 32 on for its amount, and from byte 31 on by
`GetAssetData`. -/
theorem amount_of_getAssetData (env : Env) (s : CScript) :
    (∀ data, getAssetData env s = some data →
      s.isAssetScript.map AssetScriptType.nType = some data.type) ∧
    amountFromNewAssetScript s =
      (assetDataOfType env .TX_NEW_ASSET false s).map CAssetOutputEntry.nAmount ∧
    amountFromReissueScript s =
      (assetDataOfType env .TX_REISSUE_ASSET false s).map CAssetOutputEntry.nAmount ∧
    ((env.dep.areTransferScriptsSizeDeployed = false → s.isScriptTransferAsset ≠ some 32) →
      amountFromTransferScript s =
        (assetDataOfType env .TX_TRANSFER_ASSET false s).map CAssetOutputEntry.nAmount) ∧
    ((env.dep.areTransferScriptsSizeDeployed = false → s.isScriptTransferAsset ≠ some 32) →
      (∀ i, s.isScriptOwnerAsset = some i → (CDataStream.readString.read (s.drop i)).isSome) →
      getAssetAmountFromScript s = (getAssetData env s).map CAssetOutputEntry.nAmount) ∧
    (∀ i, s.isScriptOwnerAsset = some i →
      getAssetAmountFromScript s = some OWNER_ASSET_AMOUNT ∧
      (getAssetData env s).map CAssetOutputEntry.nAmount =
        (CDataStream.readString.read (s.drop i)).map fun _ => OWNER_ASSET_AMOUNT) ∧
    (s.isScriptTransferAsset = some 32 →
      getAssetAmountFromScript s =
        (CAssetTransfer.unserialize.read (s.drop 32)).map CAssetTransfer.nAmount ∧
      (env.dep.areTransferScriptsSizeDeployed = false →
        (getAssetData env s).map CAssetOutputEntry.nAmount =
          (CAssetTransfer.unserialize.read (s.drop 31)).map CAssetTransfer.nAmount)) := by
  refine ⟨fun data => type_of_getAssetData, ?_, ?_, amountFromTransferScript_eq,
    getAssetAmountFromScript_eq, fun i => getAssetAmountFromScript_owner,
    getAssetAmountFromScript_long⟩
  · refine amount_assetDataOfType (fun hnone => ?_) fun i hi => getAssetData_newAsset hi
    rw [amountFromNewAssetScript, CScript.isScriptNewAsset, hnone]
    rfl
  · refine amount_assetDataOfType (fun hnone => ?_) fun i hi => getAssetData_reissue hi
    rw [amountFromReissueScript, CScript.isScriptReissueAsset, hnone]
    rfl

end Amounts

/-! ## Where they differ -/

/-- A transfer with a message and an expire time, whose push takes two bytes. -/
def longTransfer : CAssetTransfer :=
  ⟨ascii "AAAAAAAAAAAAAAAAAAAAAAAAAAAAAA", 100,
    IPFS_SHA2_256 :: IPFS_SHA2_256_LEN :: List.replicate 32 1, 5⟩

def longTransferScript : CScript :=
  longTransfer.constructTransaction (getScriptForKeyID (List.replicate 20 7))

def unreadableOwnerScript : CScript :=
  appendAsset (getScriptForKeyID (List.replicate 20 7)) UNEMP_O [200, 65, 65, 65]

def amountEnv (dep : Deployments) : Env where
  Hash := fun _ => [0, 0, 0, 0]
  Hash160 := fun _ => []
  params := CMainParams
  dep := dep
  fReindex := false
  uninitHeight := fun _ _ => 0

/-- The two readers on the long transfer, with the sizes active. -/
theorem longTransfer_amount :
    getAssetAmountFromScript longTransferScript =
        (getAssetData (amountEnv .all) longTransferScript).map CAssetOutputEntry.nAmount ∧
      getAssetAmountFromScript longTransferScript = some 100 := by
  obtain ⟨-, -, -, -, hamount, -, hlong⟩ :=
    amount_of_getAssetData (amountEnv .all) longTransferScript
  have howner : longTransferScript.isScriptOwnerAsset = none := by decide +kernel
  refine ⟨hamount (fun h => absurd h (by decide)) fun i hi => ?_, ?_⟩
  · rw [howner] at hi
    cases hi
  · rw [(hlong (by decide +kernel)).1]
    decide +kernel

/-- **A long transfer before the sizes are active, and an owner script without a name**, have an
amount where `GetAssetData` fails. -/
theorem amounts_differ :
    (getAssetAmountFromScript longTransferScript = some 100 ∧
      amountFromTransferScript longTransferScript = some 100 ∧
      getAssetData (amountEnv .none) longTransferScript = none) ∧
    getAssetAmountFromScript unreadableOwnerScript = some OWNER_ASSET_AMOUNT ∧
      getAssetData (amountEnv .all) unreadableOwnerScript = none := by
  refine ⟨⟨?_, ?_, ?_⟩, ?_, ?_⟩ <;> decide +kernel

end UnemployCoin
