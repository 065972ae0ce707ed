import UnemployCoin.MempoolRejection
/-!
# The names that the mempool issues

Two transactions of the mempool must not issue one name, since no block can have both.  When a
transaction comes in, `ContextualCheckNewAsset` looks its name up in `mapAssetToHash`, but for
**unique** assets the lookup is left out; and a transaction that is refused in the loop over the
outputs stays without its name in the map.
-/

namespace UnemployCoin

open Check StdMap

variable {env : Env} {tx : CTransaction} {name : Bytes}

def ownerMark : UInt8 := 33

theorem mem_split {s : Bytes} {b c : UInt8} (hmem : b ∈ s) (hne : b ≠ c) :
    ∃ p ∈ s.split c, b ∈ p := by
  induction s with
  | nil => cases hmem
  | cons a s ih =>
    cases hsplit : Bytes.split (a :: s) c with
    | nil => exact absurd hsplit (split_ne_nil _ c)
    | cons p ps =>
      rcases split_cons hsplit with ⟨rfl, rfl, hps⟩ | ⟨-, q, rfl, hq⟩
      · rcases List.mem_cons.1 hmem with rfl | hmem
        · exact absurd rfl hne
        · obtain ⟨p, hp, hb⟩ := ih hmem
          rw [hps] at hp
          exact ⟨p, List.mem_cons_of_mem _ hp, hb⟩
      · rcases List.mem_cons.1 hmem with rfl | hmem
        · exact ⟨b :: q, List.mem_cons_self, List.mem_cons_self⟩
        · obtain ⟨p, hp, hb⟩ := ih hmem
          rw [hq] at hp
          rcases List.mem_cons.1 hp with rfl | hp
          · exact ⟨a :: p, List.mem_cons_self, List.mem_cons_of_mem _ hb⟩
          · exact ⟨p, List.mem_cons_of_mem _ hp, hb⟩

theorem not_mem_of_isNameValidBeforeTag (h : isNameValidBeforeTag name = true) :
    ownerMark ∉ name := by
  intro hmem
  obtain ⟨p, hp, hmark⟩ := mem_split hmem (by decide : ownerMark ≠ SUB_NAME_DELIMITER)
  rw [isNameValidBeforeTag] at h
  split at h
  · cases h
  · rename_i front parts hsplit
    rw [Bool.and_eq_true, List.all_eq_true] at h
    obtain ⟨hfront, hparts⟩ := h
    rw [hsplit] at hp
    rcases List.mem_cons.1 hp with rfl | hp
    · simp only [isRootNameValid, isPartValid, Bool.and_eq_true] at hfront
      exact Regex.not_mem_of_regexMatch (by decide) hfront.1.1.1.1 hmark
    · have hpart := hparts p hp
      simp only [isSubNameValid, isPartValid, Bool.and_eq_true] at hpart
      exact Regex.not_mem_of_regexMatch (by decide) hpart.1.1.1 hmark

theorem isAssetNameAnOwner_of_mem {type : AssetType} (hvalid : isAssetNameValid name = some type)
    (hmark : ownerMark ∈ name) : isAssetNameAnOwner name = true := by
  rw [isAssetNameAnOwner, isAssetNameAn, hvalid, Option.isSome_some, Bool.true_and]
  by_contra hnot
  have htype := indicatedType_of_valid hvalid
  rw [isAssetNameValid, htype] at hvalid
  split at hvalid
  · cases hvalid
  · obtain ⟨hcheck, -⟩ := Option.ite_none_right_eq_some.1 hvalid
    rw [indicatedType, if_neg hnot] at htype
    -- The other indicators have no place for the mark.
    iterate 6
      split at htype
      · rename_i hmatch
        exact Regex.not_mem_of_regexMatch (by decide) hmatch hmark
    -- Without an indicator the name is checked as one without a tag.
    split at htype
    · subst htype
      simp only [isTypeCheckNameValid, Bool.and_eq_true] at hcheck
      exact not_mem_of_isNameValidBeforeTag hcheck.2 hmark
    · subst htype
      simp only [isTypeCheckNameValid, Bool.and_eq_true] at hcheck
      exact not_mem_of_isNameValidBeforeTag hcheck.2 hmark

/-! ## The names of a checked transaction -/

section Names

variable {fCheckDuplicateInputs fMempoolCheck fBlockCheck : Bool} {st : AssetState}
  {cache : CAssetsCache} {view : CCoinsView} {names m : StdMap Bytes uint256}
  {v : List (Bytes × uint256)}

theorem free_of_contextualCheckNewAsset {asset : CNewAsset}
    (h : contextualCheckNewAsset env st cache asset (some names) = .ok ()) :
    names.count asset.strName = false := by
  simp only [contextualCheckNewAsset, unit_bind, require_ok, Bool.not_eq_true'] at h
  exact h.2.2.2.1

theorem free_of_contextualCheckNew {record : WithAddress CNewAsset}
    {found : Option (WithAddress CNewAsset)} {serialization reason : String}
    (h : contextualCheckNew env st cache found serialization reason (some names) = .ok ())
    (hrecord : record ∈ found.toList) : names.count record.1.strName = false := by
  rw [contextualCheckNew, demand_bind] at h
  obtain ⟨record', hfound, h⟩ := h
  rw [hfound, Option.mem_toList] at hrecord
  obtain rfl := Option.some.inj hrecord
  simp only [withPrefix, mapError_ok] at h
  exact free_of_contextualCheckNewAsset h

/-- **The mempool is looked up** for every new name, unless it is that of a unique asset. -/
theorem free_of_newRecords {record : WithAddress CNewAsset}
    (h : contextualCheckAssetTx env st cache tx (some names) = .ok ())
    (hrecord : record ∈ newRecords env tx) (htype : assetTypeOf record.1.strName ≠ .UNIQUE) :
    names.count record.1.strName = false := by
  have hkind := assetTxKind_spec env tx
  rw [contextualCheckAssetTx] at h
  rw [newRecords] at hrecord
  cases kind : tx.assetTxKind env with
  | newAsset =>
    rw [kind] at h hrecord hkind
    rw [CTransaction.assetFromTransaction, if_pos hkind] at hrecord
    exact free_of_contextualCheckNew h hrecord
  | newUnique =>
    rw [kind] at hrecord
    obtain ⟨out, -, hrec⟩ := mem_uniqueRecords.1 hrecord
    obtain ⟨-, type, hmem, heq⟩ := newAssetOfType_eq_some.1 hrec
    rw [List.mem_singleton.1 hmem] at heq
    refine absurd ?_ htype
    rw [assetTypeOf, heq]
    rfl
  | newMsgChannel =>
    rw [kind] at h hrecord
    simp only [require_bind] at h
    exact free_of_contextualCheckNew h.2 hrecord
  | newQualifier =>
    rw [kind] at h hrecord
    simp only [require_bind] at h
    exact free_of_contextualCheckNew h.2 hrecord
  | newRestricted =>
    rw [kind] at h hrecord
    simp only [require_bind, contextualCheckRestrictedTx, demand_bind] at h
    obtain ⟨-, record', hfound, h⟩ := h
    rw [hfound, Option.mem_toList] at hrecord
    obtain rfl := Option.some.inj hrecord
    simp only [unit_bind, withPrefix, mapError_ok] at h
    exact free_of_contextualCheckNewAsset h.1
  | reissue =>
    rw [kind] at hrecord
    cases hrecord
  | other =>
    rw [kind] at hrecord
    cases hrecord

theorem free_of_checkTxAssets
    (htx : checkTransaction env tx fCheckDuplicateInputs fMempoolCheck fBlockCheck = .ok ())
    (h : checkTxAssets env st cache tx view (some names) m = .ok v)
    (hname : name ∈ issuedNames env tx) (htype : assetTypeOf name ≠ .UNIQUE) :
    names.find? name = none := by
  obtain ⟨record, hrecord, rfl⟩ := (mem_issuedNames htx).1 hname
  obtain ⟨-, totalInputs, -, s, -, hcontextual, -⟩ := checkTxAssets_ok.1 h
  exact count_eq_false.1 (free_of_newRecords hcontextual hrecord htype)

theorem trackedName_cases {out : CTxOut} (h : CTxMemPool.trackedName env out = some name) :
    (∃ record, assetFromScript env out.scriptPubKey = some record ∧ record.1.strName = name) ∨
      ((out.scriptPubKey.assetDataIndex .TX_NEW_ASSET true).isSome = true ∧
        (∃ record, ownerAssetFromScript env out.scriptPubKey = some record ∧ record.1 = name) ∧
          isAssetNameAnOwner name = false) := by
  rw [CTxMemPool.trackedName, Option.bind_eq_some_iff] at h
  obtain ⟨data, hdata, hname⟩ := h
  rw [Option.ite_none_right_eq_some, Bool.and_eq_true, beq_iff_eq, Bool.not_eq_true'] at hname
  obtain ⟨⟨htype, howner⟩, hname⟩ := hname
  rw [Option.some.inj hname] at howner
  rw [getAssetData] at hdata
  split at hdata
  · cases hdata
  · obtain ⟨record, hrecord, rfl⟩ := Option.map_eq_some_iff.1 hdata
    exact Or.inl ⟨record, hrecord, Option.some.inj hname⟩
  · rename_i index hscript
    obtain ⟨record, hrecord, rfl⟩ := Option.map_eq_some_iff.1 hdata
    refine Or.inr ⟨?_, ⟨record, hrecord, Option.some.inj hname⟩, howner⟩
    rw [CScript.assetDataIndex, hscript]
    rfl
  · obtain ⟨record, hrecord, rfl⟩ := Option.map_eq_some_iff.1 hdata
    cases htype
  · obtain ⟨record, hrecord, rfl⟩ := Option.map_eq_some_iff.1 hdata
    cases htype
  · cases hdata

theorem owners_of_require {nOwners nIssues nReissues : ℕ} {reason : String}
    (h : require ((getTxOutAssetTypes tx.vout).nOwners == nOwners &&
      (getTxOutAssetTypes tx.vout).nIssues == nIssues &&
      (getTxOutAssetTypes tx.vout).nReissues == nReissues) reason = .ok ()) :
    countOutputs tx.vout .TX_NEW_ASSET true = nOwners := by
  simp only [require_ok, Bool.and_eq_true, beq_iff_eq] at h
  exact h.1.1

theorem script_eq_of_count {nType : txnouttype} {fIsOwner : Bool} {out out' : CTxOut}
    (hcount : countOutputs tx.vout nType fIsOwner = 1) (hmem : out ∈ tx.vout)
    (hmem' : out' ∈ tx.vout) (hsome : (out.scriptPubKey.assetDataIndex nType fIsOwner).isSome)
    (hsome' : (out'.scriptPubKey.assetDataIndex nType fIsOwner).isSome) : out = out' := by
  rw [countOutputs_eq, List.countP_eq_length_filter, List.length_eq_one_iff] at hcount
  obtain ⟨a, ha⟩ := hcount
  have h₁ : out ∈ [a] := ha ▸ List.mem_filter.2 ⟨hmem, hsome⟩
  have h₂ : out' ∈ [a] := ha ▸ List.mem_filter.2 ⟨hmem', hsome'⟩
  rw [List.mem_singleton.1 h₁, List.mem_singleton.1 h₂]

theorem exists_owner (h : tx.ownerScript ≠ []) :
    ∃ out ∈ tx.vout, out.scriptPubKey = tx.ownerScript := by
  rw [CTransaction.ownerScript] at h ⊢
  cases hlast : tx.vout.dropLast.getLast? with
  | none =>
    rw [hlast] at h
    exact absurd rfl h
  | some out => exact ⟨out, List.dropLast_subset _ (List.mem_of_getLast? hlast), rfl⟩

theorem owner_of_checkTransaction {out : CTxOut} {record : WithAddress Bytes}
    (htx : checkTransaction env tx fCheckDuplicateInputs fMempoolCheck fBlockCheck = .ok ())
    (hout : out ∈ tx.vout)
    (hsome : (out.scriptPubKey.assetDataIndex .TX_NEW_ASSET true).isSome = true)
    (hrecord : ownerAssetFromScript env out.scriptPubKey = some record) :
    ownerMark ∈ record.1 := by
  have hnone : countOutputs tx.vout .TX_NEW_ASSET true ≠ 0 := by
    intro hzero
    rw [no_output_of_count hzero hout] at hsome
    cases hsome
  obtain ⟨kindRecord, hkind⟩ := checkAssetTx_of_checkTransaction htx
  rw [checkAssetTx] at hkind
  cases kind : tx.assetTxKind env with
  | newAsset =>
    rw [kind] at hkind
    simp only [checkNewAssetTx, unit_map_ok, unit_bind] at hkind
    have hverify := hkind.1.1
    simp only [CTransaction.verifyNewAsset, require_bind, demand_bind] at hverify
    obtain ⟨-, -, howner, asset, -, token, htoken, hname, -, -, hcounts⟩ := hverify
    have hne : tx.ownerScript ≠ [] := by
      intro hnil
      rw [hnil] at howner
      cases howner
    obtain ⟨out', hout', hscript⟩ := exists_owner hne
    rw [← hscript] at howner htoken
    rw [script_eq_of_count (owners_of_require hcounts) hout hout' hsome howner, htoken] at hrecord
    rw [← Option.some.inj hrecord, eq_of_beq hname]
    exact List.mem_append_right _ (by decide)
  | reissue =>
    rw [kind] at hkind
    simp only [checkReissueTx, unit_bind] at hkind
    have hverify := hkind.1
    simp only [CTransaction.verifyReissueAsset, require_bind, demand_bind, require_ok,
      Bool.and_eq_true, beq_iff_eq] at hverify
    obtain ⟨-, -, reissue, -, -, -, hcounts⟩ := hverify
    exact absurd hcounts.1.1 hnone
  | newUnique =>
    rw [kind] at hkind
    simp only [checkNewUniqueTx, unit_map_ok, unit_bind] at hkind
    have hverify := hkind.1.1
    simp only [CTransaction.verifyNewUniqueAsset, require_bind] at hverify
    obtain ⟨-, hverify⟩ := hverify
    obtain ⟨roots, -, hverify⟩ := bind_ok.1 hverify
    simp only [require_bind, require_ok, Bool.and_eq_true, beq_iff_eq] at hverify
    obtain ⟨-, -, -, hcounts⟩ := hverify
    exact absurd hcounts.1.1 hnone
  | newMsgChannel =>
    rw [kind] at hkind
    simp only [checkNewMsgChannelTx, unit_map_ok, unit_bind] at hkind
    have hverify := hkind.1.1
    simp only [CTransaction.verifyNewMsgChannelAsset, require_bind, demand_bind] at hverify
    obtain ⟨-, -, asset, -, -, -, hcounts⟩ := hverify
    exact absurd (owners_of_require hcounts) hnone
  | newQualifier =>
    rw [kind] at hkind
    simp only [checkNewQualifierTx, unit_map_ok, unit_bind] at hkind
    have hverify := hkind.1.1
    simp only [CTransaction.verifyNewQualfierAsset, require_bind, demand_bind] at hverify
    obtain ⟨-, -, asset, -, -, -, hcounts⟩ := hverify
    exact absurd (owners_of_require hcounts) hnone
  | newRestricted =>
    rw [kind] at hkind
    simp only [checkNewRestrictedTx, unit_map_ok, unit_bind] at hkind
    have hverify := hkind.1.1
    simp only [CTransaction.verifyNewRestrictedAsset, require_bind, demand_bind] at hverify
    obtain ⟨-, -, asset, -, -, -, hverify⟩ := hverify
    obtain ⟨verifier, -, hcounts⟩ := bind_ok.1 hverify
    exact absurd (owners_of_require hcounts) hnone
  | other =>
    rw [kind] at hkind
    simp only [unit_map_ok, checkOtherTx, forEach_ok] at hkind
    obtain ⟨i, hi⟩ := Option.isSome_iff_exists.1 hsome
    have hother := hkind.1 out hout
    rw [assetDataIndex_eq_some hi] at hother
    simp only [require_ok, beq_iff_eq] at hother
    cases hother

/-- The name is valid, and not that of a unique asset or an owner token. -/
def LookedUp (name : Bytes) : Prop :=
  (isAssetNameValid name).isSome = true ∧ isAssetNameAnOwner name = false ∧
    assetTypeOf name ≠ .UNIQUE

theorem lookedUp_of_issuedNames
    (htx : checkTransaction env tx fCheckDuplicateInputs fMempoolCheck fBlockCheck = .ok ())
    (hname : name ∈ issuedNames env tx) (htype : assetTypeOf name ≠ .UNIQUE) : LookedUp name := by
  obtain ⟨record, hrecord, rfl⟩ := (mem_issuedNames htx).1 hname
  have hcheck := checkNewAsset_of_newRecords htx record hrecord
  simp only [checkNewAsset, demand_bind, require_bind] at hcheck
  obtain ⟨type, hvalid, -, -, -, -, -, -, howner, -⟩ := hcheck
  rw [Bool.not_eq_true'] at howner
  exact ⟨by rw [hvalid]; rfl, howner, htype⟩

theorem issuedNames_of_trackedNames
    (htx : checkTransaction env tx fCheckDuplicateInputs fMempoolCheck fBlockCheck = .ok ())
    (hname : name ∈ CTxMemPool.trackedNames env tx) (hlooked : LookedUp name) :
    name ∈ issuedNames env tx := by
  obtain ⟨out, hout, htracked⟩ := List.mem_filterMap.1 hname
  rcases trackedName_cases htracked with ⟨record, hrecord, rfl⟩ | ⟨hsome, ⟨record, hrecord, rfl⟩, -⟩
  · exact List.mem_filterMap.2 ⟨out, hout, by rw [hrecord]; rfl⟩
  · obtain ⟨hvalid, hnot, -⟩ := hlooked
    obtain ⟨type, htype⟩ := Option.isSome_iff_exists.1 hvalid
    rw [isAssetNameAnOwner_of_mem htype (owner_of_checkTransaction htx hout hsome hrecord)] at hnot
    cases hnot

end Names

namespace CTxMemPool

variable {pool pool' : CTxMemPool} {untracked : uint256 → Prop} {hash : uint256}
  {ctx : AcceptContext} {v : List (Bytes × uint256)}

theorem addReissues_tracks_nil (l : List (Bytes × uint256)) :
    (pool.addReissues l).mapHashToAsset = pool.mapHashToAsset := by
  induction l generalizing pool with
  | nil => rfl
  | cons out l ih => exact ih

theorem acceptToMemoryPool_trimmed (hcheck : pool.checkAccept env ctx tx = .ok v)
    (htrimmed : tx.hash ∈ ctx.trimmed) :
    (pool.acceptToMemoryPool env ctx tx).1 = pool.stored ctx tx := by
  have hstored : ((pool.removeStaged ctx.allConflicting).addUnchecked tx).removeStaged
      ctx.trimmed = pool.stored ctx tx := rfl
  rw [acceptToMemoryPool, hcheck]
  simp only [hstored, count_stored, Bool.not_not, decide_eq_true htrimmed, if_true]

theorem acceptToMemoryPool_tracks (hcheck : pool.checkAccept env ctx tx = .ok v)
    (hstays : tx.hash ∉ ctx.trimmed) :
    ∃ names, (∀ name ∈ names, name ∈ trackedNames env tx) ∧
      Tracks tx.hash names ((pool.stored ctx tx).addReissues v)
        (pool.acceptToMemoryPool env ctx tx).1 ∧
      ((env.dep.areAssetsDeployed = true → ∀ change ∈ poolChanges env tx.vout,
        (pool.removeStaged (ctx.allConflicting ++ ctx.trimmed)).tracks change = false) →
          names = trackedNames env tx) := by
  obtain ⟨htx, -, -, hinactive⟩ := checkAccept_ok hcheck
  have hstored : ((pool.removeStaged ctx.allConflicting).addUnchecked tx).removeStaged
      ctx.trimmed = pool.stored ctx tx := rfl
  rw [acceptToMemoryPool, hcheck]
  simp only [hstored, count_stored, Bool.not_not, decide_eq_false hstays, Bool.false_eq_true,
    if_false]
  -- The loop over the inputs comes last, and tracks no name.
  have hinputs : ∀ pool₁ : CTxMemPool, ∀ names, Tracks tx.hash names
      ((pool.stored ctx tx).addReissues v) pool₁ → Tracks tx.hash names
        ((pool.stored ctx tx).addReissues v) (if env.dep.areRestrictedAssetsDeployed then
          tx.vin.foldl (trackInput env tx.hash ctx.coinsTip) pool₁ else pool₁) := by
    intro pool₁ names htracks
    split
    · have hall := htracks.trans (@trackInputs_tracks env pool₁ tx.hash ctx.coinsTip tx.vin)
      rw [List.append_nil] at hall
      exact hall
    · exact htracks
  cases hdep : env.dep.areAssetsDeployed with
  | false =>
    have hnil : trackedNames env tx = [] := List.filterMap_eq_nil_iff.2 fun out hout =>
      trackedName_of_no_asset ((hinactive hdep).2 out hout)
    exact ⟨[], fun _ hmem => absurd hmem List.not_mem_nil, hinputs _ [] Tracks.refl,
      fun _ => hnil.symm⟩
  | true =>
    simp only [if_true]
    have hstops := @trackOutputs_error_iff env ((pool.stored ctx tx).addReissues v) tx.hash
      tx.vout (nodup_poolChanges htx)
    simp only [addReissues_tracks, stored_tracks] at hstops
    obtain ⟨names, hsub, htracks, hall⟩ := @trackOutputs_tracks env
      ((pool.stored ctx tx).addReissues v) tx.hash tx.vout
    refine ⟨names, hsub, ?_, fun hnone => hall ?_⟩
    · generalize ((pool.stored ctx tx).addReissues v).trackOutputs env tx.hash tx.vout = r
        at htracks ⊢
      obtain ⟨pool₁, verdict⟩ := r
      cases verdict with
      | error reason => exact htracks
      | ok u => exact hinputs pool₁ names htracks
    · generalize ((pool.stored ctx tx).addReissues v).trackOutputs env tx.hash tx.vout = r
        at hstops ⊢
      obtain ⟨pool₁, verdict⟩ := r
      cases verdict with
      | ok u => rfl
      | error reason =>
        obtain ⟨change, hmem, htracked⟩ := hstops.1 ⟨reason, rfl⟩
        rw [hnone trivial change hmem] at htracked
        cases htracked

/-! ## The names of the mempool -/

def IssuedOnce (env : Env) (pool : CTxMemPool) : Prop :=
  ∀ hash tx hash' tx', pool.mapTx.find? hash = some tx → pool.mapTx.find? hash' = some tx' →
    ∀ name ∈ issuedNames env tx, name ∈ issuedNames env tx' → hash = hash'

def UniqueOnce (env : Env) (pool : CTxMemPool) : Prop :=
  ∀ hash tx hash' tx', pool.mapTx.find? hash = some tx → pool.mapTx.find? hash' = some tx' →
    ∀ name ∈ issuedNames env tx, assetTypeOf name = .UNIQUE → name ∈ issuedNames env tx' →
      hash = hash'

/-- The names that are looked up are in the map, but for those of the `untracked` transactions. -/
structure NamesTracked (env : Env) (untracked : uint256 → Prop) (pool : CTxMemPool) : Prop where
  valid : ∀ hash tx, pool.mapTx.find? hash = some tx → ∀ name ∈ issuedNames env tx,
    assetTypeOf name ≠ .UNIQUE → LookedUp name
  named : ∀ hash tx, pool.mapTx.find? hash = some tx → ¬untracked hash →
    ∀ name ∈ issuedNames env tx, LookedUp name → pool.mapAssetToHash.find? name = some hash
  back : ∀ hash name, pool.mapHashToAsset.find? hash = some name → LookedUp name →
    pool.mapAssetToHash.find? name = some hash
  alive : ∀ hash, pool.mapHashToAsset.count hash = true → pool.Live hash ∧ ¬untracked hash

theorem NamesTracked.empty : empty.NamesTracked env fun _ => False where
  valid := fun _ _ h => nomatch h
  named := fun _ _ h => nomatch h
  back := fun _ _ h => nomatch h
  alive := fun _ h => nomatch h

theorem NamesTracked.issuedOnce (h : pool.NamesTracked env fun _ => False)
    (hunique : pool.UniqueOnce env) : pool.IssuedOnce env := by
  intro hash tx hash' tx' hfind hfind' name hname hname'
  by_cases htype : assetTypeOf name = .UNIQUE
  · exact hunique hash tx hash' tx' hfind hfind' name hname htype hname'
  · have hlooked := h.valid hash tx hfind name hname htype
    have hone := h.named hash tx hfind not_false name hname hlooked
    have hother := h.named hash' tx' hfind' not_false name hname' hlooked
    exact Option.some.inj (hone.symm.trans hother)

/-! ### Removing -/

theorem removeUnchecked_names (pool : CTxMemPool) (hash : uint256) :
    (pool.mapHashToAsset.find? hash = none ∧
      (pool.removeUnchecked hash).mapAssetToHash = pool.mapAssetToHash ∧
      (pool.removeUnchecked hash).mapHashToAsset = pool.mapHashToAsset) ∨
    ∃ name, pool.mapHashToAsset.find? hash = some name ∧
      (pool.removeUnchecked hash).mapAssetToHash = pool.mapAssetToHash.erase name ∧
      (pool.removeUnchecked hash).mapHashToAsset = pool.mapHashToAsset.erase hash := by
  obtain ⟨f, g, hreissue⟩ := freeReissue_frame { pool with mapTx := pool.mapTx.erase hash } hash
  rw [removeUnchecked, hreissue, freeAsset]
  cases hfind : pool.mapHashToAsset.find? hash with
  | none =>
    exact Or.inl ⟨rfl, rfl, rfl⟩
  | some name =>
    exact Or.inr ⟨name, rfl, rfl, rfl⟩

theorem NamesTracked.removeUnchecked (h : pool.NamesTracked env untracked) :
    (pool.removeUnchecked hash).NamesTracked env untracked := by
  obtain ⟨hmapTx, -, -⟩ := removeUnchecked_frame pool hash
  have hold : ∀ {hash' tx'}, (pool.removeUnchecked hash).mapTx.find? hash' = some tx' →
      pool.mapTx.find? hash' = some tx' ∧ hash' ≠ hash := by
    intro hash' tx' hfind
    rw [hmapTx] at hfind
    exact find?_erase_eq_some.1 hfind
  have hlive : ∀ {hash'}, pool.Live hash' → hash' ≠ hash →
      (pool.removeUnchecked hash).Live hash' := by
    intro hash' hlive hne
    rw [Live, hmapTx, count_erase, Bool.and_eq_true]
    exact ⟨by simpa using hne, hlive⟩
  rcases removeUnchecked_names pool hash with ⟨hnone, hassets, hhashes⟩ |
    ⟨name₀, hname₀, hassets, hhashes⟩
  · refine ⟨fun hash' tx' hfind => h.valid hash' tx' (hold hfind).1,
      fun hash' tx' hfind htracked name hname hlooked => ?_, fun hash' name hback hlooked => ?_,
      fun hash' hcount => ?_⟩
    · rw [hassets]
      exact h.named hash' tx' (hold hfind).1 htracked name hname hlooked
    · rw [hhashes] at hback
      rw [hassets]
      exact h.back hash' name hback hlooked
    · rw [hhashes] at hcount
      obtain ⟨halive, htracked⟩ := h.alive hash' hcount
      refine ⟨hlive halive ?_, htracked⟩
      rintro rfl
      rw [count_eq_false.2 hnone] at hcount
      cases hcount
  · -- A name that is looked up and belongs to another transaction is not the one that goes.
    have hstays : ∀ {hash' name}, hash' ≠ hash → LookedUp name →
        pool.mapAssetToHash.find? name = some hash' →
          (pool.removeUnchecked hash).mapAssetToHash.find? name = some hash' := by
      intro hash' name hne hlooked hfind
      rw [hassets, find?_erase_ne]
      · exact hfind
      · rintro rfl
        have hback := h.back hash name hname₀ hlooked
        exact hne (Option.some.inj (hfind.symm.trans hback))
    have hother : ∀ {hash' name}, (pool.removeUnchecked hash).mapHashToAsset.find? hash' =
        some name → pool.mapHashToAsset.find? hash' = some name ∧ hash' ≠ hash := by
      intro hash' name hfind
      rw [hhashes, find?_erase] at hfind
      split at hfind
      · cases hfind
      · rename_i hne
        exact ⟨hfind, hne⟩
    refine ⟨fun hash' tx' hfind => h.valid hash' tx' (hold hfind).1,
      fun hash' tx' hfind htracked name hname hlooked => ?_, fun hash' name hback hlooked => ?_,
      fun hash' hcount => ?_⟩
    · obtain ⟨hfind, hne⟩ := hold hfind
      exact hstays hne hlooked (h.named hash' tx' hfind htracked name hname hlooked)
    · obtain ⟨hback, hne⟩ := hother hback
      exact hstays hne hlooked (h.back hash' name hback hlooked)
    · obtain ⟨name, hfind⟩ := count_eq_true.1 hcount
      obtain ⟨hfind, hne⟩ := hother hfind
      obtain ⟨halive, htracked⟩ := h.alive hash' (count_of_find? hfind)
      exact ⟨hlive halive hne, htracked⟩

theorem NamesTracked.removeStaged {stage : List uint256} (h : pool.NamesTracked env untracked) :
    (pool.removeStaged stage).NamesTracked env untracked := by
  induction stage generalizing pool with
  | nil => exact h
  | cons hash stage ih => exact ih h.removeUnchecked

theorem UniqueOnce.of_subset (h : pool.UniqueOnce env)
    (hsub : ∀ hash tx, pool'.mapTx.find? hash = some tx → pool.mapTx.find? hash = some tx) :
    pool'.UniqueOnce env := fun hash tx hash' tx' hfind hfind' =>
  h hash tx hash' tx' (hsub hash tx hfind) (hsub hash' tx' hfind')

theorem find?_removeStaged {stage : List uint256}
    (h : (pool.removeStaged stage).mapTx.find? hash = some tx) :
    pool.mapTx.find? hash = some tx := by
  rw [mapTx_removeStaged] at h
  split at h
  · cases h
  · exact h

/-! ### Accepting -/

/-- A checked transaction issues no name of a unique asset that a transaction which stays issues,
and where it issues a name that is looked up, the mempool has none of its changes. -/
structure IssuesApart (env : Env) (pool : CTxMemPool) (ctx : AcceptContext) (tx : CTransaction) :
    Prop where
  unique : ∀ hash tx', pool.mapTx.find? hash = some tx' → hash ∉ ctx.allConflicting →
    hash ∉ ctx.trimmed → ∀ name ∈ issuedNames env tx, assetTypeOf name = .UNIQUE →
      name ∉ issuedNames env tx'
  tracked : (∃ name ∈ issuedNames env tx, assetTypeOf name ≠ .UNIQUE) →
    ∀ change ∈ poolChanges env tx.vout,
      (pool.removeStaged (ctx.allConflicting ++ ctx.trimmed)).tracks change = false

theorem NamesTracked.addUnchecked (h : pool.NamesTracked env fun _ => False)
    (hvalid : ∀ name ∈ issuedNames env tx, assetTypeOf name ≠ .UNIQUE → LookedUp name)
    (hnew : ¬pool.Live tx.hash) :
    (pool.addUnchecked tx).NamesTracked env fun hash => hash = tx.hash := by
  have hfound : ∀ {hash tx'}, (pool.addUnchecked tx).mapTx.find? hash = some tx' →
      (hash = tx.hash ∧ tx' = tx) ∨ (hash ≠ tx.hash ∧ pool.mapTx.find? hash = some tx') := by
    intro hash tx' hfind
    rw [CTxMemPool.addUnchecked, find?_assign] at hfind
    split at hfind
    · rename_i heq
      exact Or.inl ⟨heq, (Option.some.inj hfind).symm⟩
    · rename_i hne
      exact Or.inr ⟨hne, hfind⟩
  refine ⟨fun hash tx' hfind => ?_, fun hash tx' hfind hne name hname hlooked => ?_, h.back,
    fun hash hcount => ?_⟩
  · rcases hfound hfind with ⟨-, rfl⟩ | ⟨-, hold⟩
    · exact hvalid
    · exact h.valid hash tx' hold
  · rcases hfound hfind with ⟨heq, -⟩ | ⟨-, hold⟩
    · exact absurd heq hne
    · exact h.named hash tx' hold not_false name hname hlooked
  · obtain ⟨halive, -⟩ := h.alive hash hcount
    refine ⟨?_, ?_⟩
    · rw [Live, CTxMemPool.addUnchecked, count_assign, Bool.or_eq_true]
      exact Or.inr halive
    · rintro rfl
      exact hnew halive

theorem find?_foldl_assign_hash {names : List Bytes} {m : StdMap Bytes uint256} {name : Bytes} :
    (names.foldl (fun m name => m.assign name hash) m).find? name =
      if name ∈ names then some hash else m.find? name := by
  induction names generalizing m with
  | nil => rfl
  | cons name' names ih =>
    rw [List.foldl_cons, ih, find?_assign]
    by_cases hmem : name ∈ names
    · simp [hmem]
    · by_cases heq : name = name' <;> simp [hmem, heq]

theorem find?_foldl_assign_name {names : List Bytes} {m : StdMap uint256 Bytes}
    {hash' : uint256} {name : Bytes}
    (h : (names.foldl (fun m name => m.assign hash name) m).find? hash' = some name) :
    (hash' = hash ∧ name ∈ names) ∨ m.find? hash' = some name := by
  induction names generalizing m with
  | nil => exact Or.inr h
  | cons name' names ih =>
    rw [List.foldl_cons] at h
    rcases ih h with ⟨heq, hmem⟩ | hold
    · exact Or.inl ⟨heq, List.mem_cons_of_mem _ hmem⟩
    · rw [find?_assign] at hold
      split at hold
      · rename_i heq
        rw [← Option.some.inj hold]
        exact Or.inl ⟨heq, List.mem_cons_self⟩
      · exact Or.inr hold

theorem NamesTracked.track {names : List Bytes}
    (h : pool.NamesTracked env fun hash => hash = tx.hash)
    (htracks : Tracks tx.hash names pool pool') (htx : pool.mapTx.find? tx.hash = some tx)
    (hfree : ∀ name ∈ names, LookedUp name → pool.mapAssetToHash.find? name = none)
    (hall : ∀ name ∈ issuedNames env tx, LookedUp name → name ∈ names) :
    pool'.NamesTracked env fun _ => False := by
  have hstays : ∀ {hash name}, LookedUp name → pool.mapAssetToHash.find? name = some hash →
      pool'.mapAssetToHash.find? name = some hash := by
    intro hash name hlooked hfind
    rw [htracks.mapAssetToHash, find?_foldl_assign_hash, if_neg]
    · exact hfind
    · intro hmem
      rw [hfree name hmem hlooked] at hfind
      cases hfind
  have hnew : ∀ {name}, name ∈ names → pool'.mapAssetToHash.find? name = some tx.hash := by
    intro name hmem
    rw [htracks.mapAssetToHash, find?_foldl_assign_hash, if_pos hmem]
  refine ⟨fun hash tx' hfind => ?_, fun hash tx' hfind _ name hname hlooked => ?_,
    fun hash name hback hlooked => ?_, fun hash hcount => ?_⟩
  · rw [htracks.mapTx] at hfind
    exact h.valid hash tx' hfind
  · rw [htracks.mapTx] at hfind
    by_cases hhash : hash = tx.hash
    · subst hhash
      rw [htx] at hfind
      obtain rfl := Option.some.inj hfind
      exact hnew (hall name hname hlooked)
    · exact hstays hlooked (h.named hash tx' hfind hhash name hname hlooked)
  · rw [htracks.mapHashToAsset] at hback
    rcases find?_foldl_assign_name hback with ⟨rfl, hmem⟩ | hold
    · exact hnew hmem
    · exact hstays hlooked (h.back hash name hold hlooked)
  · obtain ⟨name, hfind⟩ := count_eq_true.1 hcount
    rw [htracks.mapHashToAsset] at hfind
    rw [Live, htracks.mapTx]
    rcases find?_foldl_assign_name hfind with ⟨rfl, -⟩ | hold
    · exact ⟨count_of_find? htx, not_false⟩
    · exact ⟨(h.alive hash (count_of_find? hold)).1, not_false⟩

theorem NamesTracked.weaken (h : pool.NamesTracked env fun hash => hash = tx.hash)
    (hgone : pool.mapTx.find? tx.hash = none) : pool.NamesTracked env fun _ => False :=
  ⟨h.valid, fun hash tx' hfind _ => h.named hash tx' hfind (by
      rintro rfl
      rw [hgone] at hfind
      cases hfind),
    h.back, fun hash hcount => ⟨(h.alive hash hcount).1, not_false⟩⟩

theorem find?_stored_self {tx' : CTransaction}
    (h : (pool.stored ctx tx).mapTx.find? tx.hash = some tx') : tx' = tx := by
  rw [stored, mapTx_removeStaged] at h
  split at h
  · cases h
  · rw [CTxMemPool.addUnchecked, find?_assign_self] at h
    exact (Option.some.inj h).symm

theorem UniqueOnce.stored (h : pool.UniqueOnce env) (hapart : IssuesApart env pool ctx tx) :
    (pool.stored ctx tx).UniqueOnce env := by
  intro hash tx₁ hash' tx₂ hfind hfind' name hname htype hname'
  by_cases hhash : hash = tx.hash
  · subst hhash
    obtain rfl := find?_stored_self hfind
    by_cases hhash' : hash' = tx₁.hash
    · exact hhash'.symm
    · obtain ⟨hold, hconflicting, htrimmed⟩ := find?_stored hhash' hfind'
      exact absurd hname' (hapart.unique hash' tx₂ hold hconflicting htrimmed name hname htype)
  · obtain ⟨hold, hconflicting, htrimmed⟩ := find?_stored hhash hfind
    by_cases hhash' : hash' = tx.hash
    · subst hhash'
      obtain rfl := find?_stored_self hfind'
      exact absurd hname (hapart.unique hash tx₁ hold hconflicting htrimmed name hname' htype)
    · exact h hash tx₁ hash' tx₂ hold (find?_stored hhash' hfind').1 name hname htype hname'

theorem free_of_checkAccept (hcheck : pool.checkAccept env ctx tx = .ok v)
    (hname : name ∈ trackedNames env tx) (hlooked : LookedUp name) :
    pool.mapAssetToHash.find? name = none := by
  obtain ⟨htx, -, hactive, hinactive⟩ := checkAccept_ok hcheck
  have hissued := issuedNames_of_trackedNames htx hname hlooked
  cases hdep : env.dep.areAssetsDeployed with
  | true => exact free_of_checkTxAssets htx (hactive hdep) hissued hlooked.2.2
  | false =>
    obtain ⟨out, hout, htracked⟩ := List.mem_filterMap.1 hname
    rw [trackedName_of_no_asset ((hinactive hdep).2 out hout)] at htracked
    cases htracked

/-- **Accepting a transaction**, or refusing it, keeps the names tracked and those of unique assets
apart. -/
theorem NamesTracked.accept (h : pool.NamesTracked env fun _ => False)
    (hunique : pool.UniqueOnce env)
    (hapart : (pool.checkAccept env ctx tx).isOk = true → IssuesApart env pool ctx tx) :
    (pool.acceptToMemoryPool env ctx tx).1.NamesTracked env (fun _ => False) ∧
      (pool.acceptToMemoryPool env ctx tx).1.UniqueOnce env := by
  cases hcheck : pool.checkAccept env ctx tx with
  | error reason =>
    rw [acceptToMemoryPool, hcheck]
    exact ⟨h, hunique⟩
  | ok v =>
    rw [hcheck] at hapart
    replace hapart := hapart rfl
    obtain ⟨htx, hcount, -, -⟩ := checkAccept_ok hcheck
    have hnew : ¬(pool.removeStaged ctx.allConflicting).Live tx.hash := by
      intro hlive
      obtain ⟨tx', hfind⟩ := count_eq_true.1 hlive
      rw [count_of_find? (find?_removeStaged hfind)] at hcount
      cases hcount
    have hstored : (pool.stored ctx tx).NamesTracked env fun hash => hash = tx.hash :=
      (h.removeStaged.addUnchecked (fun name hname htype =>
        lookedUp_of_issuedNames htx hname htype) hnew).removeStaged
    have hunique' := hunique.stored hapart
    by_cases htrimmed : tx.hash ∈ ctx.trimmed
    · rw [acceptToMemoryPool_trimmed hcheck htrimmed]
      refine ⟨hstored.weaken (count_eq_false.1 ?_), hunique'⟩
      rw [count_stored, decide_eq_true htrimmed]
      rfl
    · obtain ⟨names, hsub, htracks, hall⟩ := acceptToMemoryPool_tracks hcheck htrimmed
      obtain ⟨hmapTx, hassets⟩ := @addReissues_frame (pool.stored ctx tx) v
      have hreissued : ((pool.stored ctx tx).addReissues v).NamesTracked env
          fun hash => hash = tx.hash := by
        refine ⟨?_, ?_, ?_, ?_⟩
        · rw [hmapTx]
          exact hstored.valid
        · rw [hmapTx, hassets]
          exact hstored.named
        · rw [hassets, addReissues_tracks_nil]
          exact hstored.back
        · rw [addReissues_tracks_nil]
          intro hash hcount
          rw [Live, hmapTx]
          exact hstored.alive hash hcount
      have hfound : ((pool.stored ctx tx).addReissues v).mapTx.find? tx.hash = some tx := by
        rw [hmapTx]
        have hlive : (pool.stored ctx tx).mapTx.count tx.hash = true := by
          rw [count_stored, decide_eq_false htrimmed]
          rfl
        obtain ⟨tx', hfind⟩ := count_eq_true.1 hlive
        rw [hfind, find?_stored_self hfind]
      have hfree : ∀ name ∈ names, LookedUp name →
          ((pool.stored ctx tx).addReissues v).mapAssetToHash.find? name = none := by
        intro name hmem hlooked
        rw [hassets]
        cases hsome : (pool.stored ctx tx).mapAssetToHash.find? name with
        | none => rfl
        | some hash =>
          have hadded :
              ((pool.removeStaged ctx.allConflicting).addUnchecked tx).mapAssetToHash.find? name =
                some hash :=
            mapAssetToHash_removeStaged hsome
          have hold : pool.mapAssetToHash.find? name = some hash :=
            mapAssetToHash_removeStaged hadded
          rw [free_of_checkAccept hcheck (hsub name hmem) hlooked] at hold
          cases hold
      refine ⟨hreissued.track htracks hfound hfree fun name hname hlooked => ?_, ?_⟩
      · rw [hall fun _ => hapart.tracked ⟨name, hname, hlooked.2.2⟩]
        exact trackedNames_of_issuedNames htx hname
      · refine hunique'.of_subset fun hash tx' hfind => ?_
        rw [htracks.mapTx, hmapTx] at hfind
        exact hfind

end CTxMemPool

def PoolEvent.IssuesApart (env : Env) (pool : CTxMemPool) : PoolEvent → Prop
  | .accept ctx tx => (pool.checkAccept (ctx.env env) ctx tx).isOk = true →
    CTxMemPool.IssuesApart (ctx.env env) pool ctx tx
  | _ => True

theorem namesTracked_env (ctx : CTxMemPool.AcceptContext) (pool : CTxMemPool) :
    (pool.NamesTracked (ctx.env env) (fun _ => False) ↔ pool.NamesTracked env fun _ => False) ∧
      (pool.UniqueOnce (ctx.env env) ↔ pool.UniqueOnce env) :=
  ⟨⟨fun h => ⟨h.valid, h.named, h.back, h.alive⟩, fun h => ⟨h.valid, h.named, h.back, h.alive⟩⟩,
    Iff.rfl⟩

theorem callStep_names {pool pool' : CTxMemPool} {e : PoolEvent}
    (h : pool.NamesTracked env (fun _ => False) ∧ pool.UniqueOnce env)
    (he : e.IssuesApart env pool) (hstep : callStep env pool e = some pool') :
    pool'.NamesTracked env (fun _ => False) ∧ pool'.UniqueOnce env := by
  have hremoved : ∀ (pool : CTxMemPool) (stage : List uint256),
      pool.NamesTracked env (fun _ => False) ∧ pool.UniqueOnce env →
        (pool.removeStaged stage).NamesTracked env (fun _ => False) ∧
          (pool.removeStaged stage).UniqueOnce env :=
    fun pool stage h => ⟨h.1.removeStaged,
      h.2.of_subset fun _ _ hfind => CTxMemPool.find?_removeStaged hfind⟩
  cases e with
  | accept ctx tx =>
    cases hstep
    rw [← (namesTracked_env ctx _).1, ← (namesTracked_env ctx _).2] at h ⊢
    exact h.1.accept h.2 he
  | removeUnchecked hash =>
    have hremove : poolStep env pool (.removeUnchecked hash) = some pool' := hstep
    rw [poolStep] at hremove
    split at hremove
    · cases hremove
      exact hremoved pool [hash] h
    · cases hremove
  | removeForReorg stale =>
    cases hstep
    exact hremoved pool _ h
  | connectTip dep st coinsTip vtx data =>
    cases hstep
    obtain ⟨f, g, hclear⟩ := CTxMemPool.clearReissues_frame vtx pool
    rw [CTxMemPool.connectTip, CTxMemPool.removeForBlock, CTxMemPool.foldl_removeForTx_eq,
      CTxMemPool.foldl_removeForTx_eq, hclear]
    exact hremoved _ _ (hremoved _ _ ⟨⟨h.1.valid, h.1.named, h.1.back, h.1.alive⟩, h.2⟩)

/-- **No name is issued twice** in the mempool after any run of calls that issue apart. -/
theorem issuedOnce_along {pool : CTxMemPool} {es : List PoolEvent}
    (halong : (callMachine env).Along (fun pool e => e.IssuesApart env pool) .empty es)
    (hexec : (callMachine env).exec .empty es = some pool) : pool.IssuedOnce env := by
  have hempty : CTxMemPool.empty.UniqueOnce env := fun _ _ _ _ hfind => (nomatch hfind)
  have hnames : pool.NamesTracked env (fun _ => False) ∧ pool.UniqueOnce env :=
    Machine.exec_invariant (I := fun pool : CTxMemPool =>
        pool.NamesTracked env (fun _ => False) ∧ pool.UniqueOnce env)
      (fun _ _ _ h he hstep => callStep_names h he hstep) ⟨.empty, hempty⟩ halong hexec
  exact hnames.1.issuedOnce hnames.2


/-! ### Two transactions with one unique asset -/

theorem exec_callMachine {pool pool' : CTxMemPool} {es : List PoolEvent}
    (h : (poolMachine env).exec pool es = some pool') :
    (callMachine env).exec pool es = some pool' := by
  induction es generalizing pool with
  | nil => exact h
  | cons e es ih =>
    obtain ⟨pool₁, hstep, hexec⟩ := Option.bind_eq_some_iff.1 h
    refine Option.bind_eq_some_iff.2 ⟨pool₁, ?_, ih hexec⟩
    cases e with
    | accept ctx tx =>
      have haccept : poolStep env pool (.accept ctx tx) = some pool₁ := hstep
      have hcall : (callMachine env).step pool (.accept ctx tx) =
          some (pool.acceptToMemoryPool (ctx.env env) ctx tx).1 := rfl
      rw [poolStep] at haccept
      split at haccept
      · rename_i hresult
        rw [hcall, hresult, haccept]
      · cases haccept
    | _ => exact hstep

/-- The owner token that the first transaction sends back is spent by one that issues another
asset. -/
def uniqueNextTx (hash : uint256) (strName : String) : CTransaction where
  hash := hash
  vin := [⟨⟨8, 0⟩, []⟩, ⟨⟨8, 1⟩, []⟩]
  vout := [burnOutput (5 * COIN), transferOwnerROOT, newTag strName]

/-- `ROOT#A` and `ROOT#B` are issued, and then `ROOT#C`. -/
def uniqueEvents : List PoolEvent :=
  [acceptAt .genesis rootView uniqueTx, acceptAt .genesis rootView (uniqueNextTx 10 "ROOT#C")]

theorem uniqueEvents_issuedOnce : ∃ pool, (callMachine uniqueEnv).exec .empty uniqueEvents =
    some pool ∧ pool.mapTx.keys = [10, 8] ∧ pool.IssuedOnce uniqueEnv := by
  have hrun : ((poolMachine uniqueEnv).exec .empty uniqueEvents).map (fun pool =>
      pool.mapTx.keys) = some [10, 8] := by
    decide +kernel
  obtain ⟨pool, hexec, hkeys⟩ := Option.map_eq_some_iff.1 hrun
  obtain ⟨env, henv⟩ : ∃ env, env = (contextAt .genesis rootView).env uniqueEnv := ⟨_, rfl⟩
  have hapart : ((CTxMemPool.empty.acceptToMemoryPool env (contextAt .genesis rootView)
      uniqueTx).1.mapTx.entries.all fun e =>
        (issuedNames env (uniqueNextTx 10 "ROOT#C")).all fun name =>
          decide (name ∉ issuedNames env e.2)) = true := by
    rw [henv]
    decide +kernel
  have hnone : CTxMemPool.poolChanges env (uniqueNextTx 10 "ROOT#C").vout = [] := by
    rw [henv]
    decide +kernel
  have hsecond : CTxMemPool.IssuesApart env (CTxMemPool.empty.acceptToMemoryPool env
      (contextAt .genesis rootView) uniqueTx).1 (contextAt .genesis rootView)
        (uniqueNextTx 10 "ROOT#C") := by
    refine ⟨fun hash tx' hfind _ _ name hname _ => ?_, fun _ => ?_⟩
    · have hentry := List.all_eq_true.1 hapart _ (StdMap.mem_entries.2 hfind)
      exact of_decide_eq_true (List.all_eq_true.1 hentry name hname)
    · rw [hnone]
      exact fun change hmem => absurd hmem List.not_mem_nil
  rw [henv] at hsecond
  have halong : (callMachine uniqueEnv).Along (fun pool e => e.IssuesApart uniqueEnv pool) .empty
      uniqueEvents := by
    refine ⟨fun _ => ⟨fun hash tx' hfind => (nomatch hfind), fun _ change _ => ?_⟩,
      fun pool₁ hpool₁ => ⟨fun _ => ?_, fun _ _ => trivial⟩⟩
    · cases change <;> rfl
    · rw [← Option.some.inj hpool₁]
      exact hsecond
  exact ⟨pool, exec_callMachine hexec, hkeys, issuedOnce_along halong (exec_callMachine hexec)⟩

/-- `ROOT#A` once more. -/
def uniqueAgainTx : CTransaction := uniqueNextTx 9 "ROOT#A"

/-- The mempool **accepts** two transactions that issue `ROOT#A`. -/
theorem uniqueAgainTx_accepted : ∃ pool,
    (poolMachine uniqueEnv).exec .empty [acceptAt .genesis rootView uniqueTx,
      acceptAt .genesis rootView uniqueAgainTx] = some pool ∧
    (callMachine uniqueEnv).exec .empty [acceptAt .genesis rootView uniqueTx,
      acceptAt .genesis rootView uniqueAgainTx] = some pool ∧ ¬pool.IssuedOnce uniqueEnv := by
  have hrun : ((poolMachine uniqueEnv).exec .empty [acceptAt .genesis rootView uniqueTx,
      acceptAt .genesis rootView uniqueAgainTx]).map (fun pool =>
        ((pool.mapTx.find? 8).any fun tx => (issuedNames uniqueEnv tx).contains (ascii "ROOT#A"),
          (pool.mapTx.find? 9).any fun tx =>
            (issuedNames uniqueEnv tx).contains (ascii "ROOT#A"))) = some (true, true) := by
    decide +kernel
  obtain ⟨pool, hexec, hnames⟩ := Option.map_eq_some_iff.1 hrun
  obtain ⟨hfirst, hsecond⟩ := Prod.mk.inj hnames
  simp only [Option.any_eq_true, List.contains_iff_mem] at hfirst hsecond
  obtain ⟨tx, hfind, hname⟩ := hfirst
  obtain ⟨tx', hfind', hname'⟩ := hsecond
  refine ⟨pool, hexec, exec_callMachine hexec, fun honce => ?_⟩
  exact absurd (honce 8 tx 9 tx' hfind hfind' _ hname hname') (by decide)

end UnemployCoin
