import UnemployCoin.ReissueBounds
import UnemployCoin.Verifiers
/-!
# The record of an asset along a chain

The blocks of a chain issue an asset and reissue it.  This module says what record that comes to,
and what becomes of it in the asset caches.
-/

namespace UnemployCoin

open Check CAssetsCache

variable {env : Env} {st : AssetState} {cache cache' : CAssetsCache} {tx : CTransaction}
  {name : Bytes} {nameOf : COutPoint → Bytes}

/-! ## The records of a chain -/

def issuedRecord (env : Env) (name : Bytes) (tx : CTransaction) : Option CNewAsset :=
  ((newRecords env tx).find? fun record => record.1.strName == name).map Prod.fst

def recordAfter (env : Env) (name : Bytes) (asset : Option CNewAsset) (tx : CTransaction) :
    Option CNewAsset :=
  if tx.assetTxKind env = .reissue then
    if name = (reissueOf env tx).1.strName then
      asset.map fun asset => applyReissue asset (reissueOf env tx).1
    else asset
  else asset.or (issuedRecord env name tx)

/-- The record of an asset after the blocks of a chain, tip first. -/
def assetOn (env : Env) : List CBlock → Bytes → Option CNewAsset
  | [], _ => none
  | block :: chain, name => block.vtx.foldl (recordAfter env name) (assetOn env chain name)

def Issues (env : Env) (name : Bytes) (tx : CTransaction) : Prop :=
  ∃ record ∈ newRecords env tx, record.1.strName = name

def Reissues (env : Env) (name : Bytes) (tx : CTransaction) : Prop :=
  tx.assetTxKind env = .reissue ∧ (reissueOf env tx).1.strName = name

theorem issuedRecord_eq_none (h : ¬Issues env name tx) : issuedRecord env name tx = none := by
  rw [issuedRecord, Option.map_eq_none_iff, List.find?_eq_none]
  intro record hrecord hname
  exact h ⟨record, hrecord, beq_iff_eq.1 hname⟩

theorem recordAfter_reissue {asset : Option CNewAsset} (h : Reissues env name tx) :
    recordAfter env name asset tx =
      asset.map fun asset => applyReissue asset (reissueOf env tx).1 := by
  rw [recordAfter, if_pos h.1, if_pos h.2.symm]

variable {asset : CNewAsset}

theorem recordAfter_other (h : ¬Reissues env name tx) :
    recordAfter env name (some asset) tx = some asset := by
  rw [recordAfter]
  split
  · rename_i hkind
    rw [if_neg fun hname => h ⟨hkind, hname.symm⟩]
  · rfl

theorem strName_of_assetOn {chain : List CBlock}
    (h : assetOn env chain name = some asset) : asset.strName = name := by
  have hround : ∀ (start : Option CNewAsset) (tx : CTransaction),
      (∀ asset, start = some asset → asset.strName = name) →
      ∀ asset, recordAfter env name start tx = some asset → asset.strName = name := by
    intro start tx hstart asset hasset
    rw [recordAfter] at hasset
    split at hasset
    · split at hasset
      · obtain ⟨below, hbelow, rfl⟩ := Option.map_eq_some_iff.1 hasset
        exact hstart below hbelow
      · exact hstart asset hasset
    · rcases Option.or_eq_some_iff.1 hasset with hbelow | ⟨-, hissued⟩
      · exact hstart asset hbelow
      · obtain ⟨record, hrecord, rfl⟩ := Option.map_eq_some_iff.1 hissued
        have hname := List.find?_some hrecord
        exact beq_iff_eq.1 hname
  induction chain generalizing asset with
  | nil => cases h
  | cons block chain ih =>
    exact List.foldlRecOn block.vtx (recordAfter env name)
      (motive := fun start => ∀ asset, start = some asset → asset.strName = name)
      (fun asset hasset => ih hasset) (fun start hstart tx _ => hround start tx hstart) asset h

section Connect

variable {nHeight : ℤ} {blockHash : uint256}

theorem assetOf_tryAddNewAsset (hreindex : env.fReindex = false) (hst : StoredViews nameOf st)
    (hcache : LocalViews nameOf st cache) (record : WithAddress CNewAsset)
    (hwaiting : st.passets.newAssets.toRemove.count name = false) :
    assetOf st (tryAddNewAsset env st nHeight blockHash cache record) name =
      (assetOf st cache name).or (if record.1.strName = name then some record.1 else none) := by
  cases hexists : cache.checkIfAssetExists env st record.1.strName with
  | true =>
    rw [tryAddNewAsset_of_exists hexists]
    split
    · rename_i hname
      have hknown := (checkIfAssetExists_iff hst).1 hexists
      rw [hreindex, hname] at hknown
      have hsome := (isSome_assetOf hst hcache).2 (hknown.resolve_left Bool.false_ne_true)
      obtain ⟨asset, hasset⟩ := Option.isSome_iff_exists.1 hsome
      rw [hasset]
      rfl
    · rw [Option.or_none]
  | false =>
    obtain ⟨c, hadd⟩ : ∃ c,
        cache.addNewAsset env st record.1 record.2 nHeight blockHash = some c := by
      rw [CAssetsCache.addNewAsset, hexists, if_neg Bool.false_ne_true]
      exact ⟨_, rfl⟩
    rw [tryAddNewAsset, hadd, Option.getD_some, assetOf_addNewAsset hst hcache hadd]
    by_cases hname : name = record.1.strName
    · have hunknown := not_known_of_not_exists hst hexists
      rw [← hname] at hunknown
      rw [if_pos hname, if_pos hname.symm, hwaiting, if_neg Bool.false_ne_true,
        (assetOf_eq_none hst hcache).2 hunknown, Option.none_or]
    · rw [if_neg hname, if_neg (Ne.symm hname), Option.or_none]

theorem find?_cons_record (record : WithAddress CNewAsset) (records : List (WithAddress CNewAsset))
    (asset : Option CNewAsset) :
    asset.or (((record :: records).find? fun record => record.1.strName == name).map Prod.fst) =
      (asset.or (if record.1.strName = name then some record.1 else none)).or
        ((records.find? fun record => record.1.strName == name).map Prod.fst) := by
  rw [Option.or_assoc, List.find?_cons]
  by_cases hname : record.1.strName = name
  · rw [beq_iff_eq.2 hname, if_pos hname]
    rfl
  · rw [beq_eq_false_iff_ne.2 hname, if_neg hname, Option.none_or]

theorem assetOf_foldl_tryAddNewAsset (hreindex : env.fReindex = false) (hst : StoredViews nameOf st)
    (records : List (WithAddress CNewAsset)) (hcache : LocalViews nameOf st cache)
    (hwaiting : st.passets.newAssets.toRemove.count name = false) :
    assetOf st (records.foldl (tryAddNewAsset env st nHeight blockHash) cache) name =
      (assetOf st cache name).or
        ((records.find? fun record => record.1.strName == name).map Prod.fst) := by
  induction records generalizing cache with
  | nil => exact (Option.or_none).symm
  | cons record records ih =>
    have hviews := (@LocalViews.tryAddNewAsset env st cache nameOf nHeight blockHash hst hcache
      record).1
    rw [List.foldl_cons, ih hviews, assetOf_tryAddNewAsset hreindex hst hcache record hwaiting,
      find?_cons_record]

theorem toAdd_foldl_of_waiting (hreindex : env.fReindex = false)
    (records : List (WithAddress CNewAsset))
    (hwaiting : st.passets.newAssets.toRemove.count name = true) :
    ((records.foldl (tryAddNewAsset env st nHeight blockHash) cache).newAssets.toAdd.find? name).map
        CAssetCacheNewAsset.asset =
      ((cache.newAssets.toAdd.find? name).map CAssetCacheNewAsset.asset).or
        ((records.find? fun record => record.1.strName == name).map Prod.fst) := by
  induction records generalizing cache with
  | nil => exact (Option.or_none).symm
  | cons record records ih =>
    rw [List.foldl_cons, ih, find?_cons_record]
    congr 1
    by_cases hname : record.1.strName = name
    · have hexists : cache.checkIfAssetExists env st record.1.strName = false := by
        rw [checkIfAssetExists, hreindex, hname, hwaiting]
        simp
      rw [tryAddNewAsset_of_not_exists hexists, if_pos hname]
      simp only [Staged.find?_add_toAdd, hname, if_true]
      cases cache.newAssets.toAdd.find? name <;> rfl
    · rw [if_neg hname, Option.or_none]
      cases hexists : cache.checkIfAssetExists env st record.1.strName with
      | true => rw [tryAddNewAsset_of_exists hexists]
      | false =>
        rw [tryAddNewAsset_of_not_exists hexists]
        simp only [Staged.find?_add_toAdd, if_neg (Ne.symm hname)]

end Connect

/-! ### What a reissue leaves to undo it -/

/-- Whether a reissue changes the hash, and whether it changes the units. -/
def reissueFlags (env : Env) (tx : CTransaction) : Bool × Bool :=
  (!(reissueOf env tx).1.strIPFSHash.isEmpty, (reissueOf env tx).1.nUnits != -1)

/-- The first of some reissues of an asset that leaves undo data. -/
def firstRecorder (env : Env) (name : Bytes) (txs : List CTransaction) : Option CTransaction :=
  txs.find? fun tx => recordedName env tx == some name

/-- What the undo data of an asset says: whether the hash and the units were changed, and what they
were. -/
def CBlockAssetUndo.recordPart (item : CBlockAssetUndo) : (Bool × Bool) × Bytes × Int8 :=
  ((item.fChangedIPFS, item.fChangedUnits), item.strIPFS, item.nUnits)

/-- The undo data of a block is that of the first reissue of each asset, with the record as it was
below the block. -/
def RecordUndo (env : Env) (f : Bytes → Option CNewAsset) (txs : List CTransaction)
    (vUndoData : List (Bytes × CBlockAssetUndo)) : Prop :=
  ∀ name asset, f name = some asset →
    (findUndoItem vUndoData name).map CBlockAssetUndo.recordPart =
      (firstRecorder env name txs).map fun tx =>
        (reissueFlags env tx, asset.strIPFSHash, asset.units)

theorem firstRecorder_append (txs : List CTransaction) :
    firstRecorder env name (txs ++ [tx]) = (firstRecorder env name txs).or
      (if recordedName env tx = some name then some tx else none) := by
  rw [firstRecorder, List.find?_append, firstRecorder, List.find?_cons]
  by_cases hname : recordedName env tx = some name
  · rw [beq_iff_eq.2 hname, if_pos hname]
  · rw [beq_eq_false_iff_ne.2 hname, if_neg hname]
    rfl

theorem recordedName_of_kind (h : tx.assetTxKind env ≠ .reissue) : recordedName env tx = none := by
  rw [recordedName, if_neg fun hand => h hand.1]

theorem name_of_recordedName (h : recordedName env tx = some name) :
    tx.assetTxKind env = .reissue ∧ name = (reissueOf env tx).1.strName := by
  rw [recordedName, Option.ite_none_right_eq_some] at h
  exact ⟨h.1.1, (Option.some.inj h.2).symm⟩

theorem reissueFlags_of_unrecorded (hkind : tx.assetTxKind env = .reissue)
    (h : recordedName env tx ≠ some (reissueOf env tx).1.strName) :
    reissueFlags env tx = (false, false) := by
  rw [recordedName] at h
  split at h
  · exact absurd rfl h
  · rename_i hquiet
    simp only [hkind, true_and, Bool.or_eq_true, not_or, Bool.not_eq_true] at hquiet
    rw [reissueFlags, hquiet.1.1, hquiet.1.2]

theorem applyReissue_of_flags :
    ((reissueFlags env tx).1 = false →
      (applyReissue asset (reissueOf env tx).1).strIPFSHash = asset.strIPFSHash ∧
        (applyReissue asset (reissueOf env tx).1).nHasIPFS = asset.nHasIPFS) ∧
    ((reissueFlags env tx).2 = false →
      (applyReissue asset (reissueOf env tx).1).units = asset.units) := by
  constructor
  · intro h
    rw [reissueFlags, Bool.not_eq_false', List.isEmpty_iff] at h
    rw [applyReissue, h]
    exact ⟨rfl, rfl⟩
  · intro h
    have hkeep : (reissueOf env tx).1.nUnits = -1 := by
      rw [reissueFlags, bne_eq_false_iff_eq] at h
      exact h
    rw [applyReissue, hkeep]
    rfl

/-! ### The loop -/

/-- A record has a name, and its flag says whether there is a hash. -/
structure CNewAsset.WellFormed (asset : CNewAsset) : Prop where
  named : asset.strName ≠ []
  flagged : asset.nHasIPFS = if asset.strIPFSHash = [] then 0 else 1

theorem CNewAsset.WellFormed.applyReissue {reissue : CReissueAsset}
    (h : asset.WellFormed) : (applyReissue asset reissue).WellFormed := by
  refine ⟨h.named, ?_⟩
  by_cases hkeep : reissue.strIPFSHash = []
  · have hflag : (CAssetsCache.applyReissue asset reissue).nHasIPFS = asset.nHasIPFS :=
      if_neg (not_not.2 hkeep)
    have hhash : (CAssetsCache.applyReissue asset reissue).strIPFSHash = asset.strIPFSHash :=
      if_neg (not_not.2 hkeep)
    rw [hflag, hhash]
    exact h.flagged
  · have hflag : (CAssetsCache.applyReissue asset reissue).nHasIPFS = 1 := if_pos hkeep
    have hhash : (CAssetsCache.applyReissue asset reissue).strIPFSHash = reissue.strIPFSHash :=
      if_pos hkeep
    rw [hflag, hhash, if_neg hkeep]

/-- What connecting some transactions has made of the records. -/
structure RecordsConnected (env : Env) (st : AssetState) (txs : List CTransaction)
    (cache : CAssetsCache) (vUndoData : List (Bytes × CBlockAssetUndo)) : Prop where
  answer : ∀ name, st.passets.newAssets.toRemove.count name = false →
    assetOf st cache name = txs.foldl (recordAfter env name) (assetOf st .empty name)
  waiting : ∀ name, st.passets.newAssets.toRemove.count name = true →
    (cache.newAssets.toAdd.find? name).map CAssetCacheNewAsset.asset =
      txs.foldl (recordAfter env name) none
  undo : RecordUndo env (fun name => assetOf st .empty name) txs vUndoData
  known : ∀ tx ∈ txs, tx.assetTxKind env = .reissue →
    assetOf st .empty (reissueOf env tx).1.strName = none →
    ∃ tx' ∈ txs, Issues env (reissueOf env tx).1.strName tx'
  records : ∀ tx ∈ txs, ∀ record ∈ newRecords env tx, record.1.WellFormed

theorem RecordsConnected.start : RecordsConnected env st [] .empty [] :=
  ⟨fun _ _ => rfl, fun _ _ => rfl, fun _ _ _ => rfl, fun _ h => (nomatch h), fun _ h => (nomatch h)⟩

variable {txs : List CTransaction}

theorem foldl_recordAfter_none
    (h : ∀ tx ∈ txs, ¬Issues env name tx) : txs.foldl (recordAfter env name) none = none := by
  induction txs with
  | nil => rfl
  | cons tx txs ih =>
    rw [List.forall_mem_cons] at h
    have hfirst : recordAfter env name none tx = none := by
      rw [recordAfter, issuedRecord_eq_none h.1, Option.map_none, ite_self, Option.or_none,
        ite_self]
    rw [List.foldl_cons, hfirst, ih h.2]

theorem foldl_recordAfter_wellFormed {start : Option CNewAsset}
    (hstart : ∀ asset, start = some asset → asset.WellFormed)
    (h : ∀ tx ∈ txs, ∀ record ∈ newRecords env tx, record.1.WellFormed)
    (hasset : txs.foldl (recordAfter env name) start = some asset) : asset.WellFormed := by
  induction txs generalizing start with
  | nil => exact hstart asset hasset
  | cons tx txs ih =>
    rw [List.forall_mem_cons] at h
    refine ih (fun asset' hasset' => ?_) h.2 hasset
    rw [recordAfter] at hasset'
    split at hasset'
    · split at hasset'
      · obtain ⟨below, hbelow, rfl⟩ := Option.map_eq_some_iff.1 hasset'
        exact (hstart below hbelow).applyReissue
      · exact hstart asset' hasset'
    · rcases Option.or_eq_some_iff.1 hasset' with hbelow | ⟨-, hissued⟩
      · exact hstart asset' hbelow
      · obtain ⟨record, hrecord, rfl⟩ := Option.map_eq_some_iff.1 hissued
        exact h.1 record (List.mem_of_find?_eq_some hrecord)

theorem foldl_recordAfter_some (txs : List CTransaction) (asset : CNewAsset) :
    ∃ asset', txs.foldl (recordAfter env name) (some asset) = some asset' ∧
      asset'.strName = asset.strName ∧ (asset.nHasIPFS = 1 → asset'.nHasIPFS = 1) ∧
      ((∀ tx ∈ txs, Reissues env name tx → (reissueFlags env tx).1 = false) →
        asset'.strIPFSHash = asset.strIPFSHash ∧ asset'.nHasIPFS = asset.nHasIPFS) ∧
      ((∀ tx ∈ txs, Reissues env name tx → (reissueFlags env tx).2 = false) →
        asset'.units = asset.units) := by
  induction txs generalizing asset with
  | nil => exact ⟨asset, rfl, rfl, id, fun _ => ⟨rfl, rfl⟩, fun _ => rfl⟩
  | cons tx txs ih =>
    rw [List.foldl_cons]
    by_cases htx : Reissues env name tx
    · rw [recordAfter_reissue htx, Option.map_some]
      obtain ⟨asset', hasset', hname, hflag, hhash, hunits⟩ :=
        ih (applyReissue asset (reissueOf env tx).1)
      obtain ⟨hkeepHash, hkeepUnits⟩ := @applyReissue_of_flags env tx asset
      refine ⟨asset', hasset', hname, fun hone => hflag ?_, fun hquiet => ?_, fun hquiet => ?_⟩
      · rw [applyReissue]
        dsimp only
        split
        · rfl
        · exact hone
      · rw [List.forall_mem_cons] at hquiet
        obtain ⟨hhash', hflag'⟩ := hhash hquiet.2
        obtain ⟨hhash₁, hflag₁⟩ := hkeepHash (hquiet.1 htx)
        exact ⟨hhash'.trans hhash₁, hflag'.trans hflag₁⟩
      · rw [List.forall_mem_cons] at hquiet
        exact (hunits hquiet.2).trans (hkeepUnits (hquiet.1 htx))
    · rw [recordAfter_other htx]
      obtain ⟨asset', hasset', hname, hflag, hhash, hunits⟩ := ih asset
      exact ⟨asset', hasset', hname, hflag,
        fun hquiet => hhash fun tx' htx' => hquiet tx' (List.mem_cons_of_mem _ htx'),
        fun hquiet => hunits fun tx' htx' => hquiet tx' (List.mem_cons_of_mem _ htx')⟩

theorem reissueFlags_of_firstRecorder
    (h : firstRecorder env name txs = none) {tx : CTransaction} (htx : tx ∈ txs)
    (hreissue : Reissues env name tx) : reissueFlags env tx = (false, false) := by
  rw [firstRecorder, List.find?_eq_none] at h
  obtain ⟨hkind, rfl⟩ := hreissue
  exact reissueFlags_of_unrecorded hkind fun hrecorded => h tx htx (beq_iff_eq.2 hrecorded)

theorem addReissue_recorded (hkind : tx.assetTxKind env = .reissue)
    (hasset : assetOf st cache (reissueOf env tx).1.strName = some asset)
    (hname : asset.strName = (reissueOf env tx).1.strName) :
    ((addReissue env st tx cache).2 = none ↔
      recordedName env tx ≠ some (reissueOf env tx).1.strName) := by
  have hread : (tx.reissueAssetFromTransaction env).getD (.null, []) = reissueOf env tx := rfl
  have hlookup : (cache.getAssetMetaDataIfExists st (reissueOf env tx).1.strName).map
      AssetMetaData.asset = some asset := hasset
  have hverifier : (if assetTypeOf (reissueOf env tx).1.strName = .RESTRICTED then tx.firstVerifier
      else none).isSome = (resetsVerifier env tx).isSome := by
    rw [resetsVerifier]
    simp only [hkind, true_and]
    split
    · rw [Option.isSome_map]
    · rfl
  rw [addReissue, hread, recordedName]
  simp only [hlookup, Option.getD_some, hname, hverifier, hkind, true_and]
  split
  · simp
  · simp

variable {vUndoData : List (Bytes × CBlockAssetUndo)} {blockHash : uint256} {nHeight : ℤ}

theorem RecordUndo.reissue {f : Bytes → Option CNewAsset}
    (h : RecordUndo env f txs vUndoData) (hdep : env.dep.areAssetsDeployed = true)
    (hkind : tx.assetTxKind env = .reissue)
    (hasset : assetOf st cache (reissueOf env tx).1.strName = some asset)
    (hname : asset.strName = (reissueOf env tx).1.strName)
    (hnonempty : (reissueOf env tx).1.strName ≠ [])
    (hbelow : ∀ below, f (reissueOf env tx).1.strName = some below →
      txs.foldl (recordAfter env (reissueOf env tx).1.strName) (some below) = some asset) :
    RecordUndo env f (txs ++ [tx]) (vUndoData ++
      (updateAssets env st nHeight blockHash tx cache).2.toList.filter fun e => !e.1.isEmpty) := by
  have hupdate : (updateAssets env st nHeight blockHash tx cache).2 =
      (addReissue env st tx cache).2 := by
    rw [updateAssets, if_pos hdep, addAssets, hkind]
  intro name below hfound
  rw [findUndoItem_append, firstRecorder_append, Option.map_or, Option.map_or, h name below hfound,
    hupdate]
  cases hfirst : firstRecorder env name txs with
  | some tx' => rfl
  | none =>
    rw [Option.map_none, Option.none_or, Option.none_or]
    by_cases hrecorded : recordedName env tx = some name
    · -- The first reissue of the asset that leaves undo data.
      obtain ⟨-, rfl⟩ := name_of_recordedName hrecorded
      obtain ⟨e, he⟩ : ∃ e, (addReissue env st tx cache).2 = some e := by
        refine Option.ne_none_iff_exists'.1 fun hnone => ?_
        exact (addReissue_recorded hkind hasset hname).1 hnone hrecorded
      obtain ⟨hkey, hipfs, hunits, holdIPFS, holdUnits⟩ := addReissue_undo hasset he
      obtain ⟨asset', hfold, -, -, hhash, hsame⟩ := @foldl_recordAfter_some env _ txs below
      rw [hbelow below hfound, Option.some.injEq] at hfold
      subst hfold
      replace hhash := (hhash fun tx' htx' hreissue => by
        rw [reissueFlags_of_firstRecorder hfirst htx' hreissue]).1
      replace hsame := hsame fun tx' htx' hreissue => by
        rw [reissueFlags_of_firstRecorder hfirst htx' hreissue]
      have hitem : findUndoItem ((some e).toList.filter fun e => !e.1.isEmpty)
          (reissueOf env tx).1.strName = some e.2 :=
        findUndoItem_singleton.2 ⟨hnonempty, by rw [← hkey]⟩
      rw [he, if_pos hrecorded, hitem, Option.map_some, Option.map_some, CBlockAssetUndo.recordPart,
        hipfs, hunits, holdIPFS, holdUnits, hhash, hsame, reissueFlags]
    · rw [if_neg hrecorded, Option.map_none, Option.map_eq_none_iff,
        Option.eq_none_iff_forall_ne_some]
      intro item hitem
      obtain ⟨-, hsome⟩ := findUndoItem_singleton.1 hitem
      have hkey : name = (reissueOf env tx).1.strName := (addReissue_undo hasset hsome).1
      rw [hkey] at hrecorded
      rw [(addReissue_recorded hkind hasset hname).2 hrecorded] at hsome
      cases hsome

theorem RecordUndo.other {f : Bytes → Option CNewAsset}
    (h : RecordUndo env f txs vUndoData) (hkind : tx.assetTxKind env ≠ .reissue) :
    RecordUndo env f (txs ++ [tx]) (vUndoData ++
      (updateAssets env st nHeight blockHash tx cache).2.toList.filter fun e => !e.1.isEmpty) := by
  have hnone : (updateAssets env st nHeight blockHash tx cache).2 = none := by
    cases hundo : (updateAssets env st nHeight blockHash tx cache).2 with
    | none => rfl
    | some e => exact absurd (updateAssets_undo hundo).1 hkind
  intro name below hfound
  rw [hnone, Option.toList_none, List.filter_nil, List.append_nil, firstRecorder_append,
    recordedName_of_kind hkind, if_neg (by simp), Option.or_none]
  exact h name below hfound

variable {record : WithAddress CNewAsset}

theorem hash_of_assetFromScript {s : CScript}
    (h : assetFromScript env s = some record) (hflag : record.1.nHasIPFS ≠ 1) :
    record.1.strIPFSHash = [] := by
  obtain ⟨i, -, hread, -⟩ := recordFromScript_eq_some h
  rw [CDataStream.read, Option.map_eq_some_iff] at hread
  obtain ⟨⟨asset, rest⟩, hread, heq⟩ := hread
  simp only at heq
  rw [← heq] at hflag ⊢
  clear heq h
  simp only [CNewAsset.unserialize, bind, StateT.bind, Option.bind_eq_some_iff] at hread
  obtain ⟨_, -, _, -, _, -, _, -, flag, -, hbody⟩ := hread
  split at hbody
  · simp only [StateT.bind, Option.bind_eq_bind, Option.bind_eq_some_iff] at hbody
    obtain ⟨hash, -, hpure⟩ := hbody
    rename_i hone
    cases hpure
    exact absurd (beq_iff_eq.1 hone) hflag
  · cases hbody
    rfl

variable {mempoolNames : Option (StdMap Bytes uint256)}

theorem wellFormed_of_check {s : CScript} (hread : assetFromScript env s = some record)
    (h : contextualCheckNewAsset env st cache record.1 mempoolNames = .ok ()) :
    record.1.WellFormed := by
  simp only [contextualCheckNewAsset, unit_bind, require_ok] at h
  obtain ⟨-, hcheck, -, -, hlength, -⟩ := h
  simp only [checkNewAsset, demand_bind, require_bind, require_ok] at hcheck
  obtain ⟨type, htype, -, -, -, -, -, -, -, -, -, -, -, -, hflag⟩ := hcheck
  constructor
  · intro hnil
    rw [hnil] at htype
    cases htype
  · by_cases hone : record.1.nHasIPFS = 1
    · rw [hone, if_neg]
      intro hnil
      rw [hone, hnil] at hlength
      simp at hlength
    · rw [hash_of_assetFromScript hread hone, if_pos rfl]
      simpa [hone] using hflag

theorem RecordsConnected.reissue
    (hst : StoredViews nameOf st) (hcache : LocalViews nameOf st cache)
    (h : RecordsConnected env st txs cache vUndoData)
    (htx : checkTransaction env tx true false true = .ok ())
    (hdep : env.dep.areAssetsDeployed = true) (hkind : tx.assetTxKind env = .reissue)
    (hout : nameOf tx.reissueOut = (reissueOf env tx).1.strName)
    (hcheck : contextualCheckAssetTx env st cache tx mempoolNames = .ok ())
    (hwf : ∀ name asset, assetOf st .empty name = some asset → asset.WellFormed) :
    RecordsConnected env st (txs ++ [tx])
      (updateAssets env st nHeight blockHash tx cache).1
      (vUndoData ++ (updateAssets env st nHeight blockHash tx cache).2.toList.filter
        fun e => !e.1.isEmpty) := by
  obtain ⟨reissue, address, data, hread, hreissue, hdata⟩ := reissue_of_contextualCheck hkind hcheck
  have hof : (reissueOf env tx).1 = reissue := by rw [reissueOf, hread, Option.getD_some]
  have hasset : assetOf st cache (reissueOf env tx).1.strName = some data.asset := by
    rw [hof, assetOf, hdata, Option.map_some]
  have hknown := (isSome_assetOf hst hcache).1 (by rw [hasset]; rfl)
  have hready := hknown.2.1
  obtain ⟨hviews, hanswers⟩ := @updateAssets_reissue env st cache tx nameOf nHeight blockHash hst
    hcache htx hdep hkind hout _ hasset
  have hnew : (updateAssets env st nHeight blockHash tx cache).1.newAssets = cache.newAssets := by
    rw [updateAssets_newAssets htx, if_pos hdep, newRecords, hkind, List.foldl_nil]
  have hfold : txs.foldl (recordAfter env (reissueOf env tx).1.strName)
      (assetOf st .empty (reissueOf env tx).1.strName) = some data.asset := by
    rw [← h.answer _ hready, hasset]
  have hname : data.asset.strName = (reissueOf env tx).1.strName :=
    getAssetMetaDataIfExists_name hst.own hcache.own (hof ▸ hdata)
  refine ⟨fun name hready' => ?_, fun name hwaiting => ?_, ?_, fun tx' htx' hkind' hnone => ?_,
    fun tx' htx' record hrecord => ?_⟩
  · rw [List.foldl_append, List.foldl_cons, List.foldl_nil, hanswers, ← h.answer name hready',
      recordAfter, if_pos hkind]
    by_cases hname : name = (reissueOf env tx).1.strName
    · rw [if_pos hname, if_pos hname, hname, hasset, Option.map_some]
    · rw [if_neg hname, if_neg hname]
  · have hname : name ≠ (reissueOf env tx).1.strName := by
      rintro rfl
      rw [hready] at hwaiting
      cases hwaiting
    rw [hnew, List.foldl_append, List.foldl_cons, List.foldl_nil, ← h.waiting name hwaiting,
      recordAfter, if_pos hkind, if_neg hname]
  · refine h.undo.reissue hdep hkind hasset ?_ ?_ fun below hbelow => ?_
    · exact hname
    · rw [← hname]
      exact (foldl_recordAfter_wellFormed (hwf _) h.records hfold).named
    · rw [← hbelow]
      exact hfold
  · rcases List.mem_append.1 htx' with hmem | hmem
    · obtain ⟨tx'', htx'', hissued⟩ := h.known tx' hmem hkind' hnone
      exact ⟨tx'', List.mem_append_left _ htx'', hissued⟩
    · obtain rfl := List.mem_singleton.1 hmem
      rw [hnone] at hfold
      by_contra hnot
      rw [foldl_recordAfter_none fun tx'' htx'' hissued =>
        hnot ⟨tx'', List.mem_append_left _ htx'', hissued⟩] at hfold
      cases hfold
  · rcases List.mem_append.1 htx' with hmem | hmem
    · exact h.records tx' hmem record hrecord
    · rw [List.mem_singleton.1 hmem, newRecords, hkind] at hrecord
      cases hrecord

theorem RecordsConnected.issue
    (hst : StoredViews nameOf st) (hcache : LocalViews nameOf st cache)
    (h : RecordsConnected env st txs cache vUndoData)
    (htx : checkTransaction env tx true false true = .ok ())
    (hkind : tx.assetTxKind env ≠ .reissue)
    (hcheck : tx.assetTxKind env = .other ∨ (env.dep.areAssetsDeployed = true ∧
      contextualCheckAssetTx env st cache tx mempoolNames = .ok ())) :
    RecordsConnected env st (txs ++ [tx])
      (updateAssets env st nHeight blockHash tx cache).1
      (vUndoData ++ (updateAssets env st nHeight blockHash tx cache).2.toList.filter
        fun e => !e.1.isEmpty) := by
  have hpart := @updateAssets_viewPart env st cache tx _ _ _ nHeight blockHash htx
  rw [connectReissue, if_neg hkind] at hpart
  -- A record that is added does not exist, so the node is not rebuilding its databases.
  have hparts : (newRecords env tx = [] ∨ env.fReindex = false) ∧
      (updateAssets env st nHeight blockHash tx cache).1.viewPart =
        ((newRecords env tx).foldl (tryAddNewAsset env st nHeight blockHash) cache).viewPart := by
    rcases hcheck with hother | ⟨hdep, hcheck⟩
    · have hnil : newRecords env tx = [] := by rw [newRecords, hother]
      rw [hnil, List.foldl_nil, ite_self] at hpart
      rw [hnil, List.foldl_nil]
      exact ⟨Or.inl rfl, hpart⟩
    · rw [if_pos hdep] at hpart
      refine ⟨?_, hpart⟩
      rcases hrecords : newRecords env tx with _ | ⟨record, records⟩
      · exact Or.inl rfl
      · right
        have hexists := not_exists_of_newRecords hcheck
          (show record ∈ newRecords env tx by rw [hrecords]; exact List.mem_cons_self)
        cases hreindex : env.fReindex with
        | true =>
          rw [checkIfAssetExists, hreindex, if_pos rfl] at hexists
          cases hexists
        | false => rfl
  obtain ⟨hreindex, hpart⟩ := hparts
  refine ⟨fun name hready => ?_, fun name hwaiting => ?_, h.undo.other hkind,
    fun tx' htx' hkind' hnone => ?_, fun tx' htx' record hrecord => ?_⟩
  · rw [List.foldl_append, List.foldl_cons, List.foldl_nil, ← h.answer name hready, recordAfter,
      if_neg hkind, assetOf_of_viewPart hpart]
    rcases hreindex with hnil | hreindex
    · rw [issuedRecord, hnil]
      exact (Option.or_none).symm
    · exact assetOf_foldl_tryAddNewAsset hreindex hst _ hcache hready
  · have hnew : (updateAssets env st nHeight blockHash tx cache).1.newAssets =
        ((newRecords env tx).foldl (tryAddNewAsset env st nHeight blockHash) cache).newAssets :=
      congrArg (fun part => part.2.1) hpart
    rw [List.foldl_append, List.foldl_cons, List.foldl_nil, ← h.waiting name hwaiting, recordAfter,
      if_neg hkind, hnew]
    rcases hreindex with hnil | hreindex
    · rw [issuedRecord, hnil]
      exact (Option.or_none).symm
    · exact toAdd_foldl_of_waiting hreindex _ hwaiting
  · rcases List.mem_append.1 htx' with hmem | hmem
    · obtain ⟨tx'', htx'', hissued⟩ := h.known tx' hmem hkind' hnone
      exact ⟨tx'', List.mem_append_left _ htx'', hissued⟩
    · rw [List.mem_singleton.1 hmem] at hkind'
      exact absurd hkind' hkind
  · rcases List.mem_append.1 htx' with hmem | hmem
    · exact h.records tx' hmem record hrecord
    · rw [List.mem_singleton.1 hmem] at hrecord
      rcases hcheck with hother | ⟨-, hcheck⟩
      · rw [newRecords, hother] at hrecord
        cases hrecord
      · obtain ⟨out, -, hread⟩ := output_of_newRecords hrecord
        obtain ⟨names, hpassed⟩ := contextualCheckNewAsset_of_newRecords hcheck hrecord
        exact wellFormed_of_check hread hpassed

/-- **Connecting a block** makes of the records what its transactions say. -/
theorem connectBlock_records {view : CCoinsView} {ctx : BlockContext} {block : CBlock}
    {s : ConnectState} (hst : StoredViews nameOf st)
    (hrange : ∀ name asset, assetOf st .empty name = some asset → InRange asset)
    (hwf : ∀ name asset, assetOf st .empty name = some asset → asset.WellFormed)
    (hgenesis : block.hash ≠ env.params.hashGenesisBlock)
    (hcoinbase : CoinbaseWithoutAssets env block) (hnamed : ReissuesNamed env nameOf block.vtx)
    (h : connectBlock env st ctx block view .empty = .ok s) :
    RecordsConnected env st block.vtx s.assetsCache s.vUndoAssetData := by
  obtain ⟨hblock, hfold, -⟩ := connectBlock_ok hgenesis h
  obtain ⟨-, -, -, -, -, htxs⟩ := checkBlock_ok hblock
  have hboth : ReissuesConnected env nameOf st block.vtx s.assetsCache s.vUndoAssetData ∧
      RecordsConnected env st block.vtx s.assetsCache s.vUndoAssetData := by
    refine foldlM_prefix_invariant (I := fun txs (s : ConnectState) =>
      ReissuesConnected env nameOf st txs s.assetsCache s.vUndoAssetData ∧
        RecordsConnected env st txs s.assetsCache s.vUndoAssetData) ?_
      ⟨ReissuesConnected.empty hst hrange, RecordsConnected.start⟩ hfold
    rintro pre tx post s s' hvtx ⟨hpre, hrecords⟩ hround
    have htx : tx ∈ block.vtx := by rw [hvtx]; simp
    refine ⟨hpre.round hst hcoinbase hnamed hblock htx hround, ?_⟩
    have hkinds := connectTx_kind hcoinbase hblock htx hround
    obtain ⟨-, -, hcache, hundo⟩ := connectTx_ok hround
    rw [hcache, hundo]
    by_cases hkind : tx.assetTxKind env = .reissue
    · obtain ⟨hdep, hcheck⟩ := hkinds.resolve_left (by rw [hkind]; decide)
      exact hrecords.reissue hst hpre.views (htxs tx htx) hdep hkind (hnamed tx htx hkind)
        hcheck hwf
    · exact hrecords.issue hst hpre.views (htxs tx htx) hkind hkinds
  exact hboth.2

/-! ## Disconnecting a block -/

/-- What holds of a block above records, for every one that is connected. -/
structure RecordBlock (env : Env) (f : Bytes → Option CNewAsset) (block : CBlock) : Prop where
  fresh : ∀ tx ∈ block.vtx, ∀ name, Issues env name tx → f name = none
  known : ∀ tx ∈ block.vtx, ∀ name, Reissues env name tx → f name = none →
    ∃ tx' ∈ block.vtx, Issues env name tx'
  records : ∀ tx ∈ block.vtx, ∀ record ∈ newRecords env tx, record.1.WellFormed

/-- The reissues of a block can be undone.  Each is of an asset that said so, and changes the hash
or the units only where the first one of the asset that leaves undo data does. -/
structure ReissuesUndoable (env : Env) (f : Bytes → Option CNewAsset) (block : CBlock) : Prop where
  reissuable : ∀ tx ∈ block.vtx, ∀ name, Reissues env name tx → ∀ asset, f name = some asset →
    asset.nReissuable = 1
  covered : ∀ tx ∈ block.vtx, ∀ name, Reissues env name tx →
    ∀ first, firstRecorder env name block.vtx = some first →
      ((reissueFlags env first).1 = false → (reissueFlags env tx).1 = false) ∧
        ((reissueFlags env first).2 = false → (reissueFlags env tx).2 = false)

/-- What undoing a reissue needs of an asset to bring a record back. -/
structure Restorable (below asset : CNewAsset) (item : Option CBlockAssetUndo) : Prop where
  name : asset.strName = below.strName
  hash : (∀ i, item = some i → i.fChangedIPFS = false) →
    asset.strIPFSHash = below.strIPFSHash ∧ asset.nHasIPFS = below.nHasIPFS
  units : (∀ i, item = some i → i.fChangedUnits = false) → asset.units = below.units
  flag : below.nHasIPFS = 1 → asset.nHasIPFS = 1

theorem Restorable.refl {below : CNewAsset} {item : Option CBlockAssetUndo} {nAmount : CAmount} :
    Restorable below { below with nAmount := nAmount, nReissuable := 1 } item :=
  ⟨rfl, fun _ => ⟨rfl, rfl⟩, fun _ => rfl, id⟩

/-- **Undoing a reissue** brings the record back, but for the amount. -/
theorem undoReissue_restores {below asset : CNewAsset} {reissue : CReissueAsset}
    {item : Option CBlockAssetUndo} (h : Restorable below asset item) (hwf : below.WellFormed)
    (hitem : ∀ i, item = some i → i.strIPFS = below.strIPFSHash ∧ i.nUnits = below.units) :
    undoReissue asset reissue item =
      { below with nAmount := asset.nAmount - reissue.nAmount, nReissuable := 1 } := by
  obtain ⟨hname, hhash, hunits, hflag⟩ := h
  cases item with
  | none =>
    obtain ⟨hhash', hflag'⟩ := hhash fun i hi => nomatch hi
    have hunits' := hunits fun i hi => nomatch hi
    rw [undoReissue, ← hname, ← hhash', ← hflag', ← hunits']
  | some i =>
    obtain ⟨hold, holdUnits⟩ := hitem i rfl
    have hrestored : (if i.fChangedIPFS = true then i.strIPFS else asset.strIPFSHash) =
        below.strIPFSHash := by
      cases hchanged : i.fChangedIPFS with
      | true => exact hold
      | false => exact (hhash fun _ hi => by rw [← Option.some.inj hi]; exact hchanged).1
    have hunits' : (if i.fChangedUnits = true then i.nUnits else asset.units) = below.units := by
      cases hchanged : i.fChangedUnits with
      | true => exact holdUnits
      | false => exact hunits fun _ hi => by rw [← Option.some.inj hi]; exact hchanged
    have hflag' : (if below.strIPFSHash = [] then 0 else asset.nHasIPFS) = below.nHasIPFS := by
      have hflagged := hwf.flagged
      split
      · rename_i hnil
        rw [hflagged, if_pos hnil]
      · rename_i hne
        rw [if_neg hne] at hflagged
        rw [hflagged, hflag hflagged]
    rw [undoReissue]
    simp only [hrestored, hunits', hflag', hname]

section Disconnect

variable {f : Bytes → Option CNewAsset} {block : CBlock} {below : CNewAsset}
  {pre post rest : List CTransaction} {vUndoData : List (Bytes × CBlockAssetUndo)}

theorem RecordUndo.item (h : RecordUndo env f block.vtx vUndoData) (hbelow : f name = some below)
    {i : CBlockAssetUndo} (hi : findUndoItem vUndoData name = some i) :
    ∃ first, firstRecorder env name block.vtx = some first ∧
      reissueFlags env first = (i.fChangedIPFS, i.fChangedUnits) ∧
      i.strIPFS = below.strIPFSHash ∧ i.nUnits = below.units := by
  have hitem := h name below hbelow
  rw [hi, Option.map_some] at hitem
  obtain ⟨first, hfirst, hparts⟩ := Option.map_eq_some_iff.1 hitem.symm
  obtain ⟨hflags, hold⟩ := Prod.mk.inj hparts
  obtain ⟨hhash, hunits⟩ := Prod.mk.inj hold
  exact ⟨first, hfirst, hflags, hhash.symm, hunits.symm⟩

theorem restorable_of_prefix (rest : List CTransaction) (h : RecordUndo env f block.vtx vUndoData)
    (hundoable : ReissuesUndoable env f block) (hbelow : f name = some below)
    (hrest : ∀ tx ∈ rest, tx ∈ block.vtx) :
    ∃ asset, rest.foldl (recordAfter env name) (some below) = some asset ∧
      Restorable below asset (findUndoItem vUndoData name) := by
  obtain ⟨asset, hasset, hname, hflag, hhash, hunits⟩ := @foldl_recordAfter_some env name rest below
  refine ⟨asset, hasset, hname, fun hquiet => hhash fun tx htx hreissue => ?_,
    fun hquiet => hunits fun tx htx hreissue => ?_, hflag⟩
  · cases hitem : findUndoItem vUndoData name with
    | none =>
      have hnone := h name below hbelow
      rw [hitem, Option.map_none, eq_comm, Option.map_eq_none_iff] at hnone
      rw [reissueFlags_of_firstRecorder hnone (hrest tx htx) hreissue]
    | some i =>
      obtain ⟨first, hfirst, hflags, -⟩ := h.item hbelow hitem
      refine (hundoable.covered tx (hrest tx htx) name hreissue first hfirst).1 ?_
      rw [hflags]
      exact hquiet i hitem
  · cases hitem : findUndoItem vUndoData name with
    | none =>
      have hnone := h name below hbelow
      rw [hitem, Option.map_none, eq_comm, Option.map_eq_none_iff] at hnone
      rw [reissueFlags_of_firstRecorder hnone (hrest tx htx) hreissue]
    | some i =>
      obtain ⟨first, hfirst, hflags, -⟩ := h.item hbelow hitem
      refine (hundoable.covered tx (hrest tx htx) name hreissue first hfirst).2 ?_
      rw [hflags]
      exact hquiet i hitem

/-- What undoing some transactions of a block has left of the records. -/
structure RecordsUndone (env : Env) (f : Bytes → Option CNewAsset) (st : AssetState)
    (block : CBlock) (done : List CTransaction) (cache : CAssetsCache) : Prop where
  issued : ∀ tx ∈ done, ∀ name, Issues env name tx → assetOf st cache name = none
  below : ∀ name below, f name = some below → ∀ rest, block.vtx = rest ++ done.reverse →
    ∃ asset, rest.foldl (recordAfter env name) (some below) = some asset ∧
      (assetOf st cache name = some asset ∨ (∃ tx ∈ done, Reissues env name tx) ∧
        assetOf st cache name = some { below with nAmount := asset.nAmount, nReissuable := 1 })
  other : ∀ name, f name = none → (∀ tx ∈ block.vtx, ¬Issues env name tx) →
    assetOf st cache name = none

theorem RecordsUndone.start
    (h : ∀ name, assetOf st .empty name = block.vtx.foldl (recordAfter env name) (f name)) :
    RecordsUndone env f st block [] .empty where
  issued _ h := nomatch h
  below name below hbelow rest hrest := by
    rw [List.reverse_nil, List.append_nil] at hrest
    obtain ⟨asset, hasset, -⟩ := @foldl_recordAfter_some env name rest below
    refine ⟨asset, hasset, Or.inl ?_⟩
    rw [h, hbelow, hrest, hasset]
  other name hnone hissues := by rw [h, hnone, foldl_recordAfter_none hissues]

theorem split_of_reverse (hvtx : block.vtx.reverse = pre ++ tx :: post) :
    block.vtx = (post.reverse ++ [tx]) ++ pre.reverse ∧ tx ∈ block.vtx ∧
      ∀ rest, block.vtx = rest ++ (pre ++ [tx]).reverse → rest = post.reverse := by
  have hsplit : block.vtx = (post.reverse ++ [tx]) ++ pre.reverse := by
    rw [← List.reverse_reverse block.vtx, hvtx, List.reverse_append, List.reverse_cons]
  refine ⟨hsplit, by simp [hsplit], fun rest hrest => ?_⟩
  rw [hsplit, List.reverse_append, List.reverse_singleton, ← List.append_assoc] at hrest
  exact (List.append_cancel_right (List.append_cancel_right hrest)).symm

theorem RecordsUndone.reissue (hst : StoredViews nameOf st) (hcache : LocalViews nameOf st cache)
    (hb : RecordBlock env f block) (hundoable : ReissuesUndoable env f block)
    (hundo : RecordUndo env f block.vtx vUndoData)
    (hwf : ∀ name asset, f name = some asset → asset.WellFormed)
    (hissued : ∀ tx ∈ block.vtx, ∀ name, Issues env name tx → ∀ tx' ∈ block.vtx,
      ¬Reissues env name tx')
    (hdep : env.dep.areAssetsDeployed = true) (hvtx : block.vtx.reverse = pre ++ tx :: post)
    (hkind : tx.assetTxKind env = .reissue)
    (hout : nameOf tx.reissueOut = (reissueOf env tx).1.strName)
    (h : RecordsUndone env f st block pre cache)
    (hdown : downdateAssets env st vUndoData tx cache = .ok cache') :
    RecordsUndone env f st block (pre ++ [tx]) cache' := by
  obtain ⟨hsplit, htx, hrests⟩ := split_of_reverse hvtx
  have hreissue : Reissues env (reissueOf env tx).1.strName tx := ⟨hkind, rfl⟩
  obtain ⟨-, -, hanswers⟩ := downdateAssets_reissue hst hcache hkind hout hdown
  -- The asset was there before the block.
  obtain ⟨below, hbelow⟩ : ∃ below, f (reissueOf env tx).1.strName = some below := by
    rw [← Option.ne_none_iff_exists']
    intro hnone
    obtain ⟨tx', htx', hissues⟩ := hb.known tx htx _ hreissue hnone
    exact hissued tx' htx' _ hissues tx htx hreissue
  obtain ⟨value, hvalue, hfound⟩ := h.below _ below hbelow _ hsplit
  rcases hanswers with ⟨hnone, -⟩ | ⟨asset, hasset, hanswers⟩
  · rw [hnone hdep] at hfound
    rcases hfound with hfound | ⟨-, hfound⟩ <;> cases hfound
  refine ⟨fun tx' htx' name hissues => ?_, fun name below' hbelow' rest hrest => ?_,
    fun name hnone hissues => ?_⟩
  · have hmem : tx' ∈ block.vtx := by
      rw [hsplit]
      simp only [List.mem_append, List.mem_reverse]
      rcases List.mem_append.1 htx' with hpre | hlast
      · exact Or.inr hpre
      · exact Or.inl (Or.inr hlast)
    have hne : name ≠ (reissueOf env tx).1.strName := by
      rintro rfl
      exact hissued tx' hmem _ hissues tx htx hreissue
    rw [hanswers, if_neg hne]
    rcases List.mem_append.1 htx' with hpre | hlast
    · exact h.issued tx' hpre name hissues
    · rw [List.mem_singleton.1 hlast] at hissues
      obtain ⟨record, hrecord, -⟩ := hissues
      rw [newRecords, hkind] at hrecord
      cases hrecord
  · obtain rfl := hrests rest hrest
    by_cases hname : name = (reissueOf env tx).1.strName
    · subst hname
      rw [hbelow, Option.some.injEq] at hbelow'
      subst hbelow'
      obtain ⟨before, hbefore, -⟩ := @foldl_recordAfter_some env (reissueOf env tx).1.strName
        post.reverse below
      rw [List.foldl_append, hbefore, List.foldl_cons, List.foldl_nil, recordAfter_reissue hreissue,
        Option.map_some, Option.some.injEq] at hvalue
      refine ⟨before, hbefore, Or.inr ⟨⟨tx, by simp, hreissue⟩, ?_⟩⟩
      -- Whatever is there has the amount of the record, and what the undo data brings back.
      have hparts : asset.nAmount = value.nAmount ∧
          Restorable below asset (findUndoItem vUndoData (reissueOf env tx).1.strName) := by
        rw [hasset] at hfound
        rcases hfound with hfound | ⟨-, hfound⟩
        · cases hfound
          refine ⟨rfl, ?_⟩
          obtain ⟨asset', hasset', hrestorable⟩ := restorable_of_prefix
            (post.reverse ++ [tx]) hundo hundoable hbelow fun tx' htx' => by
              rw [hsplit]
              exact List.mem_append_left _ htx'
          rw [List.foldl_append, hbefore, List.foldl_cons, List.foldl_nil,
            recordAfter_reissue hreissue, Option.map_some, hvalue, Option.some.injEq] at hasset'
          rw [hasset']
          exact hrestorable
        · cases hfound
          exact ⟨rfl, Restorable.refl⟩
      obtain ⟨hamount, hrestorable⟩ := hparts
      have hback : asset.nAmount - (reissueOf env tx).1.nAmount = before.nAmount := by
        rw [hamount, ← hvalue]
        exact Int64.add_sub_cancel _ _
      rw [hanswers, if_pos rfl, undoReissue_restores hrestorable (hwf _ _ hbelow) fun i hi => ?_,
        hback]
      obtain ⟨-, -, -, hold⟩ := hundo.item hbelow hi
      exact hold
    · obtain ⟨asset', hasset', hfound'⟩ := h.below name below' hbelow' _ hsplit
      rw [List.foldl_append, List.foldl_cons, List.foldl_nil] at hasset'
      obtain ⟨before, hbefore, -⟩ := @foldl_recordAfter_some env name post.reverse below'
      rw [hbefore, recordAfter_other fun hother => hname hother.2.symm,
        Option.some.injEq] at hasset'
      subst hasset'
      refine ⟨before, hbefore, ?_⟩
      rw [hanswers, if_neg hname]
      rcases hfound' with hfound' | ⟨⟨tx', htx', hother⟩, hsome⟩
      · exact Or.inl hfound'
      · exact Or.inr ⟨⟨tx', List.mem_append_left _ htx', hother⟩, hsome⟩
  · have hne : name ≠ (reissueOf env tx).1.strName := by
      rintro rfl
      rw [hbelow] at hnone
      cases hnone
    rw [hanswers, if_neg hne]
    exact h.other name hnone hissues

theorem RecordsUndone.issue (hst : StoredViews nameOf st) (hcache : LocalViews nameOf st cache)
    (hb : RecordBlock env f block)
    (hdep : tx.assetTxKind env ≠ .other → env.dep.areAssetsDeployed = true)
    (hvtx : block.vtx.reverse = pre ++ tx :: post) (hkind : tx.assetTxKind env ≠ .reissue)
    (hquiet : ∀ record ∈ newRecords env tx,
      cache.mapReissuedAssetData.find? record.1.strName = none ∧
        st.passets.mapReissuedAssetData.find? record.1.strName = none)
    (h : RecordsUndone env f st block pre cache)
    (hdown : downdateAssets env st vUndoData tx cache = .ok cache') :
    RecordsUndone env f st block (pre ++ [tx]) cache' := by
  obtain ⟨hsplit, htx, hrests⟩ := split_of_reverse hvtx
  obtain ⟨-, -, hanswers⟩ := downdateAssets_issue hst hcache hkind hquiet hdown
  have hkept : ∀ name, ¬Issues env name tx → assetOf st cache' name = assetOf st cache name :=
    fun name hissues => by rw [hanswers, if_neg fun hand => hissues hand.2]
  have hremoved : ∀ name, Issues env name tx → assetOf st cache' name = none := by
    intro name hissues
    have hactive : tx.assetTxKind env ≠ .other := by
      intro hother
      obtain ⟨record, hrecord, -⟩ := hissues
      rw [newRecords, hother] at hrecord
      cases hrecord
    rw [hanswers, if_pos ⟨hdep hactive, hissues⟩]
  refine ⟨fun tx' htx' name hissues => ?_, fun name below' hbelow' rest hrest => ?_,
    fun name hnone hissues => ?_⟩
  · by_cases hlast : Issues env name tx
    · exact hremoved name hlast
    · rw [hkept name hlast]
      rcases List.mem_append.1 htx' with hpre | hmem
      · exact h.issued tx' hpre name hissues
      · rw [List.mem_singleton.1 hmem] at hissues
        exact absurd hissues hlast
  · obtain rfl := hrests rest hrest
    have hissues : ¬Issues env name tx := by
      intro hissues
      rw [hb.fresh tx htx name hissues] at hbelow'
      cases hbelow'
    obtain ⟨asset, hasset, hfound⟩ := h.below name below' hbelow' _ hsplit
    rw [List.foldl_append, List.foldl_cons, List.foldl_nil] at hasset
    obtain ⟨before, hbefore, -⟩ := @foldl_recordAfter_some env name post.reverse below'
    rw [hbefore, recordAfter_other fun hother => hkind hother.1, Option.some.injEq] at hasset
    subst hasset
    refine ⟨before, hbefore, ?_⟩
    rw [hkept name hissues]
    rcases hfound with hfound | ⟨⟨tx', htx', hother⟩, hsome⟩
    · exact Or.inl hfound
    · exact Or.inr ⟨⟨tx', List.mem_append_left _ htx', hother⟩, hsome⟩
  · rw [hkept name (hissues tx htx)]
    exact h.other name hnone hissues

/-- **Disconnecting a block** brings the records below it back. -/
theorem disconnectBlock_records {nHeight : ℕ} {vtxundo : List CTxUndo} {view : CCoinsView}
    {s : DisconnectState} {amount : Bytes → ℤ} (hst : StoredViews nameOf st)
    (hready : DisconnectReady env nameOf st block amount vUndoData)
    (hb : RecordBlock env f block) (hundoable : ReissuesUndoable env f block)
    (hundo : RecordUndo env f block.vtx vUndoData)
    (hwf : ∀ name asset, f name = some asset → asset.WellFormed)
    (hdep : ∀ tx ∈ block.vtx, tx.assetTxKind env ≠ .other → env.dep.areAssetsDeployed = true)
    (htip : ∀ name, assetOf st .empty name = block.vtx.foldl (recordAfter env name) (f name))
    (h : disconnectBlock env st nHeight block vtxundo vUndoData view .empty = .ok s)
    (name : Bytes) :
    assetOf st s.assetsCache name = f name := by
  have hissued : ∀ tx ∈ block.vtx, ∀ name, Issues env name tx → ∀ tx' ∈ block.vtx,
      ¬Reissues env name tx' := by
    rintro tx htx name ⟨record, hrecord, rfl⟩ tx' htx' ⟨hkind, hname⟩
    exact (hready.apart _ ⟨tx, htx, issuedNames_of_newRecords hrecord⟩).2 tx' htx' hkind hname
  have hboth : ReissuesDisconnected env nameOf st block amount block.vtx.reverse s.assetsCache ∧
      RecordsUndone env f st block block.vtx.reverse s.assetsCache := by
    refine disconnectBlock_history (I := fun done cache =>
      ReissuesDisconnected env nameOf st block amount done cache ∧
        RecordsUndone env f st block done cache) ?_
      ⟨ReissuesDisconnected.start hst hready.range hready.covers, RecordsUndone.start htip⟩ h
    rintro pre tx post cache cache' hvtx ⟨hpre, hundone⟩ hdown
    have htx : tx ∈ block.vtx := by
      rw [← List.mem_reverse, hvtx]
      simp
    refine ⟨hpre.round hst hready hvtx hdown, ?_⟩
    by_cases hkind : tx.assetTxKind env = .reissue
    · exact hundone.reissue hst hpre.views hb hundoable hundo hwf hissued
        (hdep tx htx (by rw [hkind]; decide)) hvtx hkind (hready.named tx htx hkind) hdown
    · refine hundone.issue hst hpre.views hb (hdep tx htx) hvtx hkind
        (fun record hrecord => ?_) hdown
      have hmem : record.1.strName ∈ blockNames env block :=
        ⟨tx, htx, issuedNames_of_newRecords hrecord⟩
      exact ⟨hpre.quiet _ hmem, (hready.apart _ hmem).1⟩
  have hundone := hboth.2
  cases hname : f name with
  | some below =>
    obtain ⟨asset, hasset, hfound⟩ := hundone.below name below hname [] (by simp)
    rw [List.foldl_nil, Option.some.injEq] at hasset
    subst hasset
    rcases hfound with hfound | ⟨⟨tx, htx, hreissue⟩, hfound⟩
    · exact hfound
    · have hone := hundoable.reissuable tx (List.mem_reverse.1 htx) name hreissue below hname
      rw [hfound, ← hone]
  | none =>
    by_cases hissues : ∃ tx ∈ block.vtx, Issues env name tx
    · obtain ⟨tx, htx, hissues⟩ := hissues
      exact hundone.issued tx (List.mem_reverse.2 htx) name hissues
    · exact hundone.other name hname fun tx htx hissue => hissues ⟨tx, htx, hissue⟩

end Disconnect

end UnemployCoin
