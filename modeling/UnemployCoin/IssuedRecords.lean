import UnemployCoin.CommandFrames
import UnemployCoin.Node
/-!
# The assets a transaction issues

Connecting a transaction adds the records of `newRecords` to the asset cache, and disconnecting
it removes them.
-/

namespace UnemployCoin

open Check CAssetsCache

variable {env : Env} {st : AssetState} {cache cache' : CAssetsCache} {tx : CTransaction}
  {name : Bytes}

/-! ## Records -/

/-- The names of the new assets in the outputs of a transaction. -/
def issuedNames (env : Env) (tx : CTransaction) : List Bytes :=
  tx.vout.filterMap fun out => (assetFromScript env out.scriptPubKey).map fun r => r.1.strName

/-- The new assets that `AddCoins` and `DisconnectBlock` read from a transaction. -/
def newRecords (env : Env) (tx : CTransaction) : List (WithAddress CNewAsset) :=
  match tx.assetTxKind env with
  | .newAsset => (tx.assetFromTransaction env).toList
  | .newUnique => uniqueRecords env tx
  | .newMsgChannel => (tx.msgChannelAssetFromTransaction env).toList
  | .newQualifier => (tx.qualifierAssetFromTransaction env).toList
  | .newRestricted => (tx.restrictedAssetFromTransaction env).toList
  | .reissue | .other => []

theorem assetTxKind_spec (env : Env) (tx : CTransaction) : match tx.assetTxKind env with
    | .newAsset => tx.isNewAsset env = true
    | .reissue => tx.isReissueAsset = true
    | .newUnique => tx.isNewUniqueAsset env = true
    | .newMsgChannel => tx.isNewMsgChannelAsset env = true
    | .newQualifier => tx.isNewQualifierAsset env = true
    | .newRestricted => tx.isNewRestrictedAsset env = true
    | .other => True := by
  cases h : tx.assetTxKind env
  all_goals
    rw [CTransaction.assetTxKind] at h
    repeat' split at h
    all_goals first | assumption | trivial

variable {record : WithAddress CNewAsset}

theorem assetFromScript_of_type {types : List AssetType} {s : CScript}
    (h : newAssetOfType env types s = some record) :
    assetFromScript env s = some record := (newAssetOfType_eq_some.1 h).1

theorem mem_issuedNames_single
    (hrec : assetFromScript env tx.lastScript = some record)
    (hissues : countOutputs tx.vout .TX_NEW_ASSET false = 1) :
    name ∈ issuedNames env tx ↔ record.1.strName = name := by
  have hlast := isSome_of_assetFromScript hrec
  simp only [issuedNames, List.mem_filterMap, Option.map_eq_some_iff]
  constructor
  · rintro ⟨out, hmem, record', hrec', rfl⟩
    have hscript := eq_lastScript_of_count hissues hlast hmem (isSome_of_assetFromScript hrec')
    rw [hscript, hrec] at hrec'
    rw [Option.some.inj hrec']
  · rintro rfl
    have hne : tx.lastScript ≠ [] := by
      intro hnil
      rw [hnil] at hlast
      cases hlast
    obtain ⟨out, hmem, hscript⟩ := exists_last hne
    exact ⟨out, hmem, record, by rw [hscript, hrec], rfl⟩

theorem issuedNames_of_count (h : countOutputs tx.vout .TX_NEW_ASSET false = 0) :
    name ∉ issuedNames env tx := by
  simp only [issuedNames, List.mem_filterMap, Option.map_eq_some_iff]
  rintro ⟨out, hmem, record, hrec, -⟩
  exact no_issue_of_count h hmem hrec

theorem issuedNames_of_other (h : checkOtherTx tx = .ok ()) : name ∉ issuedNames env tx := by
  simp only [issuedNames, List.mem_filterMap, Option.map_eq_some_iff]
  rintro ⟨out, hmem, record, hrec, -⟩
  have hsome := isSome_of_assetFromScript hrec
  rw [CScript.isScriptNewAsset, assetDataIndex_of_other h hmem (by decide)] at hsome
  cases hsome

theorem mem_uniqueRecords :
    record ∈ uniqueRecords env tx ↔
      ∃ out ∈ tx.vout, uniqueAssetFromScript env out.scriptPubKey = some record := by
  rw [uniqueRecords, List.mem_filterMap]

variable {found : Option (WithAddress CNewAsset)}

theorem mem_issuedNames_found (hfound : found = some record)
    (hrec : assetFromScript env tx.lastScript = some record)
    (hissues : countOutputs tx.vout .TX_NEW_ASSET false = 1) :
    name ∈ issuedNames env tx ↔ ∃ record ∈ found.toList, record.1.strName = name := by
  rw [mem_issuedNames_single hrec hissues, hfound]
  simp

theorem mem_issuedNames_newUnique (h : tx.verifyNewUniqueAsset env = .ok ()) :
    name ∈ issuedNames env tx ↔ ∃ record ∈ uniqueRecords env tx, record.1.strName = name := by
  have hunique := uniqueAssetFromScript_of_verify h
  simp only [issuedNames, List.mem_filterMap, Option.map_eq_some_iff, mem_uniqueRecords]
  constructor
  · rintro ⟨out, hmem, record, hrec, hname⟩
    exact ⟨record, ⟨out, hmem, hunique out hmem record hrec⟩, hname⟩
  · rintro ⟨record, ⟨out, hmem, hrec⟩, hname⟩
    exact ⟨out, hmem, record, assetFromScript_of_type hrec, hname⟩

variable {fCheckDuplicateInputs fMempoolCheck fBlockCheck : Bool}

theorem checkNewAsset_of_newRecords
    (h : checkTransaction env tx fCheckDuplicateInputs fMempoolCheck fBlockCheck = .ok ()) :
    ∀ record ∈ newRecords env tx, checkNewAsset record.1 = .ok () := by
  obtain ⟨record, hrecord⟩ := checkAssetTx_of_checkTransaction h
  rw [checkAssetTx] at hrecord
  rw [newRecords]
  cases kind : tx.assetTxKind env with
  | newAsset =>
    rw [kind] at hrecord
    simp only [checkNewAssetTx, unit_map_ok, unit_bind, demand_bind] at hrecord
    obtain ⟨⟨-, found, hfound, -, hcheck⟩, -⟩ := hrecord
    rw [hfound]
    simpa using hcheck
  | newUnique =>
    rw [kind] at hrecord
    simp only [checkNewUniqueTx, unit_map_ok, unit_bind, forEach_ok] at hrecord
    intro found hmem
    obtain ⟨out, hout, hfound⟩ := mem_uniqueRecords.1 hmem
    have hcheck := hrecord.1.2 out hout
    rw [hfound] at hcheck
    exact mapError_ok.1 hcheck
  | newMsgChannel =>
    rw [kind] at hrecord
    simp only [checkNewMsgChannelTx, unit_map_ok, unit_bind, demand_bind] at hrecord
    obtain ⟨⟨-, found, hfound, hcheck⟩, -⟩ := hrecord
    rw [hfound]
    simpa using mapError_ok.1 hcheck
  | newQualifier =>
    rw [kind] at hrecord
    simp only [checkNewQualifierTx, unit_map_ok, unit_bind, demand_bind] at hrecord
    obtain ⟨⟨-, found, hfound, hcheck⟩, -⟩ := hrecord
    rw [hfound]
    simpa using mapError_ok.1 hcheck
  | newRestricted =>
    rw [kind] at hrecord
    simp only [checkNewRestrictedTx, unit_map_ok, unit_bind, demand_bind] at hrecord
    obtain ⟨⟨-, found, hfound, hcheck, -⟩, -⟩ := hrecord
    rw [hfound]
    simpa using mapError_ok.1 hcheck
  | reissue => exact List.forall_mem_nil _
  | other => exact List.forall_mem_nil _

theorem countReissues_le_one
    (h : checkTransaction env tx fCheckDuplicateInputs fMempoolCheck fBlockCheck = .ok ()) :
    countOutputs tx.vout .TX_REISSUE_ASSET false ≤ 1 := by
  obtain ⟨record, hrecord⟩ := checkAssetTx_of_checkTransaction h
  rw [checkAssetTx] at hrecord
  cases kind : tx.assetTxKind env with
  | newAsset =>
    rw [kind] at hrecord
    simp only [checkNewAssetTx, unit_map_ok, unit_bind, CTransaction.verifyNewAsset,
      demand_bind] at hrecord
    obtain ⟨⟨⟨-, -, -, -, -, -, -, -, -, -, hcounts⟩, -⟩, -⟩ := hrecord
    rw [(counts_of_require hcounts).2]
    exact Nat.zero_le 1
  | reissue =>
    rw [kind] at hrecord
    simp only [checkReissueTx, unit_bind, CTransaction.verifyReissueAsset, demand_bind, require_ok,
      Bool.and_eq_true, beq_iff_eq] at hrecord
    obtain ⟨⟨-, -, -, -, -, -, ⟨-, hcount⟩, -⟩, -⟩ := hrecord
    exact hcount.le
  | newUnique =>
    rw [kind] at hrecord
    simp only [checkNewUniqueTx, unit_map_ok, unit_bind,
      CTransaction.verifyNewUniqueAsset] at hrecord
    obtain ⟨⟨⟨-, hverify⟩, -⟩, -⟩ := hrecord
    obtain ⟨⟨assetRoot, names⟩, -, hverify⟩ := bind_ok.1 hverify
    simp only [require_bind, require_ok, Bool.and_eq_true, beq_iff_eq] at hverify
    obtain ⟨-, -, -, ⟨-, hcount⟩, -⟩ := hverify
    exact hcount.le.trans (Nat.zero_le 1)
  | newMsgChannel =>
    rw [kind] at hrecord
    simp only [checkNewMsgChannelTx, unit_map_ok, unit_bind, CTransaction.verifyNewMsgChannelAsset,
      demand_bind] at hrecord
    obtain ⟨⟨⟨-, -, -, -, -, -, hcounts⟩, -⟩, -⟩ := hrecord
    rw [(counts_of_require hcounts).2]
    exact Nat.zero_le 1
  | newQualifier =>
    rw [kind] at hrecord
    simp only [checkNewQualifierTx, unit_map_ok, unit_bind, CTransaction.verifyNewQualfierAsset,
      demand_bind] at hrecord
    obtain ⟨⟨⟨-, -, -, -, -, -, hcounts⟩, -⟩, -⟩ := hrecord
    rw [(counts_of_require hcounts).2]
    exact Nat.zero_le 1
  | newRestricted =>
    rw [kind] at hrecord
    simp only [checkNewRestrictedTx, unit_map_ok, unit_bind, CTransaction.verifyNewRestrictedAsset,
      demand_bind] at hrecord
    obtain ⟨⟨⟨-, -, -, -, -, -, hverify⟩, -⟩, -⟩ := hrecord
    obtain ⟨verifier, -, hcounts⟩ := bind_ok.1 hverify
    rw [(counts_of_require hcounts).2]
    exact Nat.zero_le 1
  | other =>
    rw [kind] at hrecord
    simp only [unit_map_ok] at hrecord
    rw [countOutputs_eq, List.countP_eq_zero.2]
    · exact Nat.zero_le 1
    · intro out hmem
      rw [assetDataIndex_of_other hrecord.1 hmem (by decide)]
      exact Bool.false_ne_true

theorem mem_issuedNames
    (h : checkTransaction env tx fCheckDuplicateInputs fMempoolCheck fBlockCheck = .ok ()) :
    name ∈ issuedNames env tx ↔ ∃ record ∈ newRecords env tx, record.1.strName = name := by
  obtain ⟨record, hrecord⟩ := checkAssetTx_of_checkTransaction h
  have hkind := assetTxKind_spec env tx
  rw [checkAssetTx] at hrecord
  rw [newRecords]
  cases kind : tx.assetTxKind env with
  | newAsset =>
    rw [kind] at hrecord hkind
    simp only [checkNewAssetTx, unit_map_ok, unit_bind] at hrecord
    have hverify := hrecord.1.1
    simp only [CTransaction.verifyNewAsset, require_bind, demand_bind] at hverify
    obtain ⟨-, -, -, record, hrec, -, -, -, -, -, hcounts⟩ := hverify
    refine mem_issuedNames_found ?_ hrec (counts_of_require hcounts).1
    rw [CTransaction.assetFromTransaction, if_pos hkind, hrec]
  | reissue =>
    rw [kind] at hrecord
    simp only [checkReissueTx, unit_bind] at hrecord
    have hverify := hrecord.1
    simp only [CTransaction.verifyReissueAsset, require_bind, demand_bind] at hverify
    obtain ⟨-, -, -, -, -, -, hcounts⟩ := hverify
    simp only [require_ok, Bool.and_eq_true, beq_iff_eq] at hcounts
    simp [issuedNames_of_count hcounts.2]
  | newUnique =>
    rw [kind] at hrecord
    simp only [checkNewUniqueTx, unit_map_ok, unit_bind] at hrecord
    exact mem_issuedNames_newUnique hrecord.1.1
  | newMsgChannel =>
    rw [kind] at hrecord hkind
    simp only [checkNewMsgChannelTx, unit_map_ok, unit_bind] at hrecord
    have hverify := hrecord.1.1
    simp only [CTransaction.verifyNewMsgChannelAsset, require_bind, demand_bind] at hverify
    obtain ⟨-, -, record, hrec, -, -, hcounts⟩ := hverify
    refine mem_issuedNames_found ?_ (assetFromScript_of_type hrec) (counts_of_require hcounts).1
    rw [CTransaction.msgChannelAssetFromTransaction, if_pos hkind, hrec]
  | newQualifier =>
    rw [kind] at hrecord hkind
    simp only [checkNewQualifierTx, unit_map_ok, unit_bind] at hrecord
    have hverify := hrecord.1.1
    simp only [CTransaction.verifyNewQualfierAsset, require_bind, demand_bind] at hverify
    obtain ⟨-, -, record, hrec, -, -, hcounts⟩ := hverify
    refine mem_issuedNames_found ?_ (assetFromScript_of_type hrec) (counts_of_require hcounts).1
    rw [CTransaction.qualifierAssetFromTransaction, if_pos hkind, hrec]
  | newRestricted =>
    rw [kind] at hrecord hkind
    simp only [checkNewRestrictedTx, unit_map_ok, unit_bind] at hrecord
    have hverify := hrecord.1.1
    simp only [CTransaction.verifyNewRestrictedAsset, require_bind, demand_bind] at hverify
    obtain ⟨-, -, record, hrec, -, -, hverify⟩ := hverify
    obtain ⟨verifier, -, hcounts⟩ := bind_ok.1 hverify
    refine mem_issuedNames_found ?_ (assetFromScript_of_type hrec) (counts_of_require hcounts).1
    rw [CTransaction.restrictedAssetFromTransaction, if_pos hkind, hrec]
  | other =>
    rw [kind] at hrecord
    simp only [unit_map_ok] at hrecord
    simp [issuedNames_of_other hrecord.1]

theorem output_of_lastScript (h : assetFromScript env tx.lastScript = some record) :
    ∃ out ∈ tx.vout, assetFromScript env out.scriptPubKey = some record := by
  have hlast := isSome_of_assetFromScript h
  have hne : tx.lastScript ≠ [] := by
    intro hnil
    rw [hnil] at hlast
    cases hlast
  obtain ⟨out, hmem, hscript⟩ := exists_last hne
  exact ⟨out, hmem, by rw [hscript, h]⟩

theorem output_of_newRecords (h : record ∈ newRecords env tx) :
    ∃ out ∈ tx.vout, assetFromScript env out.scriptPubKey = some record := by
  rw [newRecords] at h
  split at h
  case h_1 =>
    rw [Option.mem_toList] at h
    exact output_of_lastScript (Option.ite_none_right_eq_some.1 h).2
  case h_2 =>
    obtain ⟨out, hmem, hrec⟩ := mem_uniqueRecords.1 h
    exact ⟨out, hmem, assetFromScript_of_type hrec⟩
  case h_6 | h_7 => cases h
  all_goals
    rw [Option.mem_toList] at h
    exact output_of_lastScript (assetFromScript_of_type (Option.ite_none_right_eq_some.1 h).2)

theorem issuedNames_of_newRecords
    (h : record ∈ newRecords env tx) : record.1.strName ∈ issuedNames env tx := by
  obtain ⟨out, hmem, hrec⟩ := output_of_newRecords h
  exact List.mem_filterMap.2 ⟨out, hmem, by rw [hrec]; rfl⟩

theorem issuedNames_of_not_active (h : checkAssetsNotActive tx = .ok ()) :
    name ∉ issuedNames env tx := by
  rw [checkAssetsNotActive, forEach_ok] at h
  simp only [issuedNames, List.mem_filterMap, Option.map_eq_some_iff]
  rintro ⟨out, hmem, record, hrec, -⟩
  have hout := h out hmem
  rw [require_bind, Bool.not_eq_true', Option.isSome_eq_false_iff,
    Option.isNone_iff_eq_none] at hout
  have hsome := isSome_of_assetFromScript hrec
  rw [CScript.isScriptNewAsset, CScript.assetDataIndex, hout.1] at hsome
  cases hsome

variable {mempoolNames : Option (StdMap Bytes uint256)}

theorem not_exists_of_contextualCheckNewAsset {asset : CNewAsset}
    (h : contextualCheckNewAsset env st cache asset mempoolNames = .ok ()) :
    cache.checkIfAssetExists env st asset.strName = false := by
  simp only [contextualCheckNewAsset, unit_bind, require_ok, Bool.not_eq_true'] at h
  exact h.2.2.1

theorem contextualCheckNew_ok {serialization reason : String}
    (h : contextualCheckNew env st cache found serialization reason mempoolNames = .ok ())
    (hrecord : record ∈ found.toList) :
    ∃ names, contextualCheckNewAsset env st cache record.1 names = .ok () := by
  rw [contextualCheckNew, demand_bind] at h
  obtain ⟨record', hfound, h⟩ := h
  rw [hfound, Option.mem_toList] at hrecord
  obtain rfl := Option.some.inj hrecord
  simp only [withPrefix, mapError_ok] at h
  exact ⟨_, h⟩

theorem contextualCheckNewAsset_of_newRecords
    (h : contextualCheckAssetTx env st cache tx mempoolNames = .ok ())
    (hrecord : record ∈ newRecords env tx) :
    ∃ names, contextualCheckNewAsset env st cache record.1 names = .ok () := by
  have hkind := assetTxKind_spec env tx
  rw [contextualCheckAssetTx] at h
  rw [newRecords] at hrecord
  cases kind : tx.assetTxKind env with
  | newAsset =>
    rw [kind] at h hrecord hkind
    rw [CTransaction.assetFromTransaction, if_pos hkind] at hrecord
    exact contextualCheckNew_ok h hrecord
  | newUnique =>
    rw [kind] at h hrecord
    simp only [withPrefix, mapError_ok, contextualCheckUniqueAssetTx, forEach_ok] at h
    obtain ⟨out, hmem, hrec⟩ := mem_uniqueRecords.1 hrecord
    have hout := h out hmem
    rw [hrec] at hout
    exact ⟨none, hout⟩
  | newMsgChannel =>
    rw [kind] at h hrecord
    simp only [require_bind] at h
    exact contextualCheckNew_ok h.2 hrecord
  | newQualifier =>
    rw [kind] at h hrecord
    simp only [require_bind] at h
    exact contextualCheckNew_ok h.2 hrecord
  | newRestricted =>
    rw [kind] at h hrecord
    simp only [require_bind, contextualCheckRestrictedTx, demand_bind] at h
    obtain ⟨-, record', hfound, h⟩ := h
    rw [hfound, Option.mem_toList] at hrecord
    obtain rfl := Option.some.inj hrecord
    simp only [unit_bind, withPrefix, mapError_ok] at h
    exact ⟨_, h.1⟩
  | reissue =>
    rw [kind] at hrecord
    cases hrecord
  | other =>
    rw [kind] at hrecord
    cases hrecord

theorem not_exists_of_newRecords
    (h : contextualCheckAssetTx env st cache tx mempoolNames = .ok ())
    (hrecord : record ∈ newRecords env tx) :
    cache.checkIfAssetExists env st record.1.strName = false := by
  obtain ⟨names, hcheck⟩ := contextualCheckNewAsset_of_newRecords h hrecord
  exact not_exists_of_contextualCheckNewAsset hcheck

/-! ## Adding and removing the records -/

theorem checkIfAssetExists_congr
    (hremove : cache'.newAssets.toRemove.count name = cache.newAssets.toRemove.count name)
    (hadd : cache'.newAssets.toAdd.count name = cache.newAssets.toAdd.count name) :
    cache'.checkIfAssetExists env st name = cache.checkIfAssetExists env st name := by
  rw [checkIfAssetExists, checkIfAssetExists, hremove, hadd]

def CAssetsCache.viewPart (cache : CAssetsCache) :
    StdMap Bytes CNewAsset × Staged Bytes CAssetCacheNewAsset ×
      Staged COutPoint CAssetCacheReissueAsset :=
  (cache.mapReissuedAssetData, cache.newAssets, cache.newReissue)

theorem viewPart_of_recordPart (h : cache'.recordPart = cache.recordPart) :
    cache'.viewPart = cache.viewPart :=
  congrArg (fun part => (part.1, part.2.1, part.2.2.1)) h

/-- The reissue that a transaction is, and the address it goes to. -/
def reissueOf (env : Env) (tx : CTransaction) : WithAddress CReissueAsset :=
  (tx.reissueAssetFromTransaction env).getD (.null, [])

def CTransaction.reissueOut (tx : CTransaction) : COutPoint := ⟨tx.hash, tx.vout.length - 1⟩

def connectReissue (env : Env) (st : AssetState) (tx : CTransaction) (cache : CAssetsCache) :
    CAssetsCache :=
  if tx.assetTxKind env = .reissue then
    (cache.addReissueAsset env st (reissueOf env tx).1 (reissueOf env tx).2
      tx.reissueOut).getD cache
  else cache

theorem addReissue_viewPart (h : tx.assetTxKind env = .reissue) :
    (addReissue env st tx cache).1.viewPart = (connectReissue env st tx cache).viewPart := by
  rw [connectReissue, if_pos h]
  simp only [addReissue]
  split
  · rfl
  · rfl

theorem connectReissue_newAssets :
    (connectReissue env st tx cache).newAssets = cache.newAssets := by
  rw [connectReissue]
  split
  · rw [addReissueAsset]
    split <;> rfl
  · rfl

variable {nHeight : ℤ} {blockHash : uint256}

theorem addRestricted_viewPart :
    (addRestricted env st nHeight blockHash tx cache).viewPart =
      (tryAddNewAsset env st nHeight blockHash cache
        (orNull (tx.restrictedAssetFromTransaction env))).viewPart := by
  simp only [addRestricted]
  split <;> rfl

theorem orNull_mem (h : found.isSome = true) :
    found.toList = [orNull found] := by
  obtain ⟨record, rfl⟩ := Option.isSome_iff_exists.1 h
  rfl

theorem updateAssets_viewPart
    (h : checkTransaction env tx fCheckDuplicateInputs fMempoolCheck fBlockCheck = .ok ()) :
    (updateAssets env st nHeight blockHash tx cache).1.viewPart =
      if env.dep.areAssetsDeployed then
        ((newRecords env tx).foldl (tryAddNewAsset env st nHeight blockHash)
          (connectReissue env st tx cache)).viewPart
      else cache.viewPart := by
  rw [updateAssets]
  split
  swap
  · rfl
  simp only [viewPart_of_recordPart (addCommands_recordPart _ _)]
  have hkind := assetTxKind_spec env tx
  obtain ⟨record, hrecord⟩ := checkAssetTx_of_checkTransaction h
  rw [checkAssetTx] at hrecord
  cases kind : tx.assetTxKind env with
  | newAsset =>
    rw [kind] at hrecord
    simp only [checkNewAssetTx, unit_map_ok, unit_bind, demand_bind] at hrecord
    obtain ⟨⟨-, ⟨asset, address⟩, hfound, -⟩, -⟩ := hrecord
    rw [connectReissue, kind, if_neg (by decide), newRecords, kind]
    simp only
    rw [orNull_mem (by rw [hfound]; rfl), addAssets, kind]
    rfl
  | reissue =>
    rw [newRecords, addAssets, kind]
    exact addReissue_viewPart kind
  | newUnique =>
    rw [connectReissue, kind, if_neg (by decide), newRecords, addAssets, kind]
  | newMsgChannel =>
    rw [kind] at hkind
    have hfound : (tx.msgChannelAssetFromTransaction env).isSome = true := by
      rw [CTransaction.msgChannelAssetFromTransaction, if_pos hkind]
      exact (Bool.and_eq_true_iff.1 hkind).2
    rw [connectReissue, kind, if_neg (by decide), newRecords, addAssets, kind]
    simp only
    rw [orNull_mem hfound]
    rfl
  | newQualifier =>
    rw [kind] at hkind
    have hfound : (tx.qualifierAssetFromTransaction env).isSome = true := by
      rw [CTransaction.qualifierAssetFromTransaction, if_pos hkind]
      exact (Bool.and_eq_true_iff.1 hkind).2
    rw [connectReissue, kind, if_neg (by decide), newRecords, addAssets, kind]
    simp only
    rw [orNull_mem hfound]
    rfl
  | newRestricted =>
    rw [kind] at hkind
    have hfound : (tx.restrictedAssetFromTransaction env).isSome = true := by
      rw [CTransaction.restrictedAssetFromTransaction, if_pos hkind]
      exact (Bool.and_eq_true_iff.1 hkind).2
    rw [connectReissue, kind, if_neg (by decide), newRecords, addAssets, kind]
    simp only
    rw [orNull_mem hfound]
    exact addRestricted_viewPart
  | other =>
    rw [connectReissue, kind, if_neg (by decide), newRecords, addAssets, kind]
    rfl

theorem updateAssets_newAssets
    (h : checkTransaction env tx fCheckDuplicateInputs fMempoolCheck fBlockCheck = .ok ()) :
    (updateAssets env st nHeight blockHash tx cache).1.newAssets =
      if env.dep.areAssetsDeployed then
        ((newRecords env tx).foldl (tryAddNewAsset env st nHeight blockHash) cache).newAssets
      else cache.newAssets := by
  have hpart := congrArg (fun part => part.2.1) (@updateAssets_viewPart env st cache tx _ _ _
    nHeight blockHash h)
  have hviews : ∀ cache : CAssetsCache, cache.viewPart.2.1 = cache.newAssets := fun _ => rfl
  rw [hviews] at hpart
  rw [hpart]
  split
  · rw [hviews]
    by_cases hkind : tx.assetTxKind env = .reissue
    · rw [newRecords, hkind]
      exact connectReissue_newAssets
    · rw [connectReissue, if_neg hkind]
  · rfl

theorem removeCommands_newAssets (commands : List NullCommand) :
    (commands.foldl removeCommand cache).newAssets = cache.newAssets :=
  congrArg (fun part => part.2.1) (removeCommands_recordPart commands cache)

theorem removeReissueAsset_newAssets {reissue : CReissueAsset} {address : Bytes} {out : COutPoint}
    {vUndoIPFS : List (Bytes × CBlockAssetUndo)}
    (h : cache.removeReissueAsset env st reissue address out vUndoIPFS = some cache') :
    cache'.newAssets = cache.newAssets := by
  rw [removeReissueAsset] at h
  split at h
  · cases h
  · simp only at h
    split at h
    · split at h <;> cases h <;> rfl
    · cases h
      rfl

variable {vUndoData : List (Bytes × CBlockAssetUndo)}

theorem undoReissueOf_newAssets
    (h : undoReissueOf env st vUndoData tx cache = .ok cache') :
    cache'.newAssets = cache.newAssets := by
  rw [undoReissueOf, demand_bind] at h
  obtain ⟨⟨reissue, strAddress⟩, -, h⟩ := h
  simp only at h
  split at h
  · exact removeReissueAsset_newAssets (demand_ok.1 h)
  · cases h
    rfl

theorem undoNewAssetOf_eq
    (h : undoNewAssetOf env st found cache = .ok cache') :
    found.toList.foldlM (undoNewAsset env st) cache = .ok cache' := by
  rw [undoNewAssetOf, demand_bind] at h
  obtain ⟨record, rfl, h⟩ := h
  rw [Option.toList_some, List.foldlM_cons, h]
  rfl

theorem removeAssets_viewPart
    (hkind : tx.assetTxKind env ≠ .reissue)
    (h : removeAssets env st vUndoData tx cache = .ok cache') :
    ∃ c, (newRecords env tx).foldlM (undoNewAsset env st) cache = .ok c ∧
      cache'.viewPart = c.viewPart := by
  rw [removeAssets] at h
  rw [newRecords]
  cases kind : tx.assetTxKind env with
  | newAsset =>
    rw [kind] at h
    simp only [bind_ok, pure_ok] at h
    obtain ⟨c, hc, owner, -, rfl⟩ := h
    exact ⟨c, undoNewAssetOf_eq hc, rfl⟩
  | reissue => exact absurd kind hkind
  | newUnique =>
    rw [kind] at h
    exact ⟨cache', h, rfl⟩
  | newMsgChannel =>
    rw [kind] at h
    exact ⟨cache', undoNewAssetOf_eq h, rfl⟩
  | newQualifier =>
    rw [kind] at h
    exact ⟨cache', undoNewAssetOf_eq h, rfl⟩
  | newRestricted =>
    rw [kind] at h
    simp only [demand_bind] at h
    obtain ⟨record, hfound, h⟩ := h
    rw [bind_ok] at h
    obtain ⟨c, hc, h⟩ := h
    rw [bind_ok] at h
    obtain ⟨verifier, -, h⟩ := h
    cases h
    refine ⟨c, ?_, rfl⟩
    simp only [hfound, Option.toList_some, List.foldlM_cons, List.foldlM_nil, bind_pure]
    exact hc
  | other =>
    rw [kind] at h
    cases h
    exact ⟨cache, rfl, rfl⟩

theorem removeAssets_newAssets
    (h : removeAssets env st vUndoData tx cache = .ok cache') :
    ∃ c, (newRecords env tx).foldlM (undoNewAsset env st) cache = .ok c ∧
      cache'.newAssets = c.newAssets := by
  by_cases hkind : tx.assetTxKind env = .reissue
  · rw [removeAssets, hkind] at h
    rw [newRecords, hkind]
    exact ⟨cache, rfl, undoReissueOf_newAssets h⟩
  · obtain ⟨c, hc, hpart⟩ := removeAssets_viewPart hkind h
    exact ⟨c, hc, congrArg (fun part => part.2.1) hpart⟩

theorem downdateAssets_newAssets
    (h : downdateAssets env st vUndoData tx cache = .ok cache') :
    cache'.newAssets = cache.newAssets ∨
      ∃ c, (newRecords env tx).foldlM (undoNewAsset env st) cache = .ok c ∧
        cache'.newAssets = c.newAssets := by
  rw [downdateAssets] at h
  split at h
  · rw [bind_ok] at h
    obtain ⟨c, hc, h⟩ := h
    rw [unit_bind, onlyIf_bind, pure_ok] at h
    obtain ⟨-, -, rfl⟩ := h
    obtain ⟨c', hc', hsame⟩ := removeAssets_newAssets hc
    refine Or.inr ⟨c', hc', ?_⟩
    split
    · rw [removeCommands_newAssets, hsame]
    · exact hsame
  · cases h
    exact Or.inl rfl

end UnemployCoin
