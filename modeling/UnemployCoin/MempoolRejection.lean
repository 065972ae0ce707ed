import UnemployCoin.CommandAuthorization
import UnemployCoin.MempoolIndexes
/-!
# Transactions that the mempool refuses

`AcceptToMemoryPoolWorker` stores a transaction and only then goes through its outputs, where it
may still return an error.  The outputs that can do so are those of which the mempool takes one at
a time: a global freeze or unfreeze of an asset, and a tag put on an address or taken off it.  A
transaction cannot stand in its own way, since `CheckTransaction` lets no two of its outputs make
the same change, so what decides is whether the mempool has a change **already**.
-/

namespace UnemployCoin

open Check StdMap

/-- A change of which the mempool takes one at a time. -/
inductive PoolChange where
  | freeze (asset_name : Bytes)
  | unfreeze (asset_name : Bytes)
  | addTag (address asset_name : Bytes)
  | removeTag (address asset_name : Bytes)
  deriving DecidableEq

variable {env : Env}

def poolChange (env : Env) (out : CTxOut) : Option PoolChange :=
  if out.scriptPubKey.isAssetScript.isSome then none
  else if out.scriptPubKey.isNullGlobalRestrictionAssetTxDataScript then
    (globalAssetNullDataFromScript out.scriptPubKey).bind fun data =>
      if data.flag = 1 then some (.freeze data.asset_name)
      else if data.flag = 0 then some (.unfreeze data.asset_name)
      else none
  else if out.scriptPubKey.isNullAssetTxDataScript then
    (assetNullDataFromScript env out.scriptPubKey).bind fun record =>
      if !isAssetNameAQualifier record.1.asset_name false then none
      else if record.1.flag = 1 then some (.addTag record.2 record.1.asset_name)
      else some (.removeTag record.2 record.1.asset_name)
  else none

namespace CTxMemPool

variable {pool pool' : CTxMemPool} {hash : uint256}

def tracks (pool : CTxMemPool) : PoolChange → Bool
  | .freeze name => pool.globalFreezingAssetTransactions.forward.count name
  | .unfreeze name => pool.globalUnFreezingAssetTransactions.forward.count name
  | .addTag address name => pool.addressAddedTag.forward.count (address, name)
  | .removeTag address name => pool.addressRemoveTag.forward.count (address, name)

/-! ## The loop over the outputs -/

theorem tracks_trackAsset (data : CAssetOutputEntry) (change : PoolChange) :
    (pool.trackAsset env hash data).tracks change = pool.tracks change := by
  rw [trackAsset]
  split
  · split <;> cases change <;> rfl
  · split <;> cases change <;> rfl

/-- What the mempool does with the change of an output: it **refuses** one that it has. -/
inductive Takes (pool : CTxMemPool) : Option PoolChange → Except String CTxMemPool → Prop where
  | nothing {pool' : CTxMemPool} (h : ∀ change, pool'.tracks change = pool.tracks change) :
    Takes pool none (.ok pool')
  | refused {change : PoolChange} {reason : String} (h : pool.tracks change = true) :
    Takes pool (some change) (.error reason)
  | taken {change : PoolChange} {pool' : CTxMemPool} (h : pool.tracks change = false)
    (h' : ∀ change', pool'.tracks change' = (decide (change' = change) || pool.tracks change')) :
    Takes pool (some change) (.ok pool')

theorem Takes.same : Takes pool none (.ok pool) := .nothing fun _ => rfl

theorem trackGlobal_takes (data : CNullAssetTxData) : pool.Takes
    (if data.flag = 1 then some (.freeze data.asset_name)
      else if data.flag = 0 then some (.unfreeze data.asset_name) else none)
    (pool.trackGlobal hash data) := by
  rw [trackGlobal]
  split
  · split
    · rename_i hcount
      exact .refused hcount
    · rename_i hcount
      refine .taken (Bool.eq_false_of_not_eq_true hcount) fun change' => ?_
      cases change' with
      | freeze name => simp [tracks, TwoWay.link, TwoWay.count_insertAt]
      | _ => simp [tracks]
  · split
    · split
      · rename_i hcount
        exact .refused hcount
      · rename_i hcount
        refine .taken (Bool.eq_false_of_not_eq_true hcount) fun change' => ?_
        cases change' with
        | unfreeze name => simp [tracks, TwoWay.link, TwoWay.count_insertAt]
        | _ => simp [tracks]
    · exact .same

theorem trackTag_takes (data : CNullAssetTxData) (address : Bytes) : pool.Takes
    (if !isAssetNameAQualifier data.asset_name false then none
      else if data.flag = 1 then some (.addTag address data.asset_name)
      else some (.removeTag address data.asset_name))
    (pool.trackTag hash data address) := by
  rw [trackTag]
  split
  · exact .same
  · split
    · split
      · rename_i hcount
        exact .refused hcount
      · rename_i hcount
        refine .taken (Bool.eq_false_of_not_eq_true hcount) fun change' => ?_
        cases change' with
        | addTag address' name => simp [tracks, TwoWay.link, TwoWay.count_insertAt]
        | _ => simp [tracks]
    · split
      · rename_i hcount
        exact .refused hcount
      · rename_i hcount
        refine .taken (Bool.eq_false_of_not_eq_true hcount) fun change' => ?_
        cases change' with
        | removeTag address' name => simp [tracks, TwoWay.link, TwoWay.count_insertAt]
        | _ => simp [tracks]

theorem trackOutput_takes (out : CTxOut) :
    pool.Takes (poolChange env out) (pool.trackOutput env hash out) := by
  rw [trackOutput, poolChange]
  split
  · cases getAssetData env out.scriptPubKey with
    | none => exact .same
    | some data => exact .nothing (tracks_trackAsset data)
  · split
    · cases globalAssetNullDataFromScript out.scriptPubKey with
      | none => exact .same
      | some data => exact trackGlobal_takes data
    · split
      · cases assetNullDataFromScript env out.scriptPubKey with
        | none => exact .same
        | some record => exact trackTag_takes record.1 record.2
      · exact .same

def poolChanges (env : Env) (vout : List CTxOut) : List PoolChange :=
  vout.filterMap (poolChange env)

/-- **When the loop stops**: at outputs with distinct changes, if the mempool has one of them. -/
theorem trackOutputs_error_iff {vout : List CTxOut} (hnd : (poolChanges env vout).Nodup) :
    (∃ reason, (pool.trackOutputs env hash vout).2 = .error reason) ↔
      ∃ change ∈ poolChanges env vout, pool.tracks change = true := by
  induction vout generalizing pool with
  | nil => simp [trackOutputs, poolChanges]
  | cons out vout ih =>
    have htakes := @trackOutput_takes env pool hash out
    rw [trackOutputs]
    cases hchange : poolChange env out with
    | none =>
      have hchanges : poolChanges env (out :: vout) = poolChanges env vout :=
        List.filterMap_cons_none hchange
      rw [hchanges] at hnd ⊢
      rw [hchange] at htakes
      generalize pool.trackOutput env hash out = r at htakes ⊢
      cases htakes with
      | nothing h =>
        refine (ih hnd).trans ?_
        simp only [h]
    | some change =>
      have hchanges : poolChanges env (out :: vout) = change :: poolChanges env vout :=
        List.filterMap_cons_some hchange
      rw [hchanges] at hnd ⊢
      rw [hchange] at htakes
      rw [List.nodup_cons] at hnd
      generalize pool.trackOutput env hash out = r at htakes ⊢
      cases htakes with
      | refused h => exact ⟨fun _ => ⟨change, List.mem_cons_self, h⟩, fun _ => ⟨_, rfl⟩⟩
      | taken h h' =>
        refine (ih hnd.2).trans ?_
        constructor
        · rintro ⟨change', hmem, htracks⟩
          refine ⟨change', List.mem_cons_of_mem _ hmem, ?_⟩
          rw [h', Bool.or_eq_true, decide_eq_true_eq] at htracks
          rcases htracks with rfl | hold
          · exact absurd hmem hnd.1
          · exact hold
        · rintro ⟨change', hmem, htracks⟩
          rcases List.mem_cons.1 hmem with rfl | hmem
          · rw [h] at htracks
            cases htracks
          · refine ⟨change', hmem, ?_⟩
            rw [h', htracks, Bool.or_true]

theorem trackOutputs_mapTx (vout : List CTxOut) :
    (pool.trackOutputs env hash vout).1.mapTx = pool.mapTx := by
  obtain ⟨names, -, htracks, -⟩ := @trackOutputs_tracks env pool hash vout
  exact htracks.mapTx

end CTxMemPool

/-! ## Checked transactions -/

/-- The loop of `CheckTransaction` has seen a change of the asset, or of the asset and address. -/
def OutputScan.seen (s : OutputScan) : PoolChange → Prop
  | .freeze name | .unfreeze name => s.setNullGlobalAssetChanges.count name = true
  | .addTag address name | .removeTag address name =>
    (s.mapNullDataTxCount.find? (name, address)).getD 0 ≠ 0

theorem seen_congr {s s' : OutputScan} (hpairs : s'.mapNullDataTxCount = s.mapNullDataTxCount)
    (hglobals : s'.setNullGlobalAssetChanges = s.setNullGlobalAssetChanges) :
    s'.seen = s.seen := by
  funext change
  cases change <;> simp only [OutputScan.seen, hpairs, hglobals]

theorem not_global_of_nullAssetTxData {script : CScript}
    (h : script.isNullAssetTxDataScript = true) :
    script.isNullGlobalRestrictionAssetTxDataScript = false := by
  simp only [CScript.isNullAssetTxDataScript, Bool.and_eq_true, beq_iff_eq] at h
  have hne : ((0x14 : UInt8) == OP_RESERVED) = false := by decide
  rw [CScript.isNullGlobalRestrictionAssetTxDataScript, h.2, hne, Bool.and_false, Bool.false_and]

theorem poolChange_of_nullAssetTxData {out : CTxOut} {change : PoolChange}
    {data : CNullAssetTxData} {address : Bytes}
    (hnull : out.scriptPubKey.isNullAssetTxDataScript = true)
    (hrec : assetNullDataFromScript env out.scriptPubKey = some (data, address))
    (h : poolChange env out = some change) :
    change = .addTag address data.asset_name ∨ change = .removeTag address data.asset_name := by
  rw [poolChange, not_global_of_nullAssetTxData hnull, if_pos hnull, hrec] at h
  simp only [Option.bind_some, Bool.false_eq_true, if_false] at h
  split at h
  · cases h
  · split at h
    · cases h
    · split at h
      · exact Or.inl (Option.some.inj h).symm
      · exact Or.inr (Option.some.inj h).symm

theorem poolChange_of_nullGlobal {out : CTxOut} {change : PoolChange} {data : CNullAssetTxData}
    (hglobal : out.scriptPubKey.isNullGlobalRestrictionAssetTxDataScript = true)
    (hrec : globalAssetNullDataFromScript out.scriptPubKey = some data)
    (h : poolChange env out = some change) :
    change = .freeze data.asset_name ∨ change = .unfreeze data.asset_name := by
  rw [poolChange, if_pos hglobal, hrec] at h
  simp only [Option.bind_some] at h
  split at h
  · cases h
  · split at h
    · exact Or.inl (Option.some.inj h).symm
    · split at h
      · exact Or.inr (Option.some.inj h).symm
      · cases h

theorem scanNullAsset_seen {s s' : OutputScan} {out : CTxOut}
    (h : scanNullAsset env s out = .ok s') :
    (∀ change, s.seen change → s'.seen change) ∧
      ∀ change, poolChange env out = some change → ¬s.seen change ∧ s'.seen change := by
  rw [scanNullAsset] at h
  split at h
  · rename_i hnull
    rw [scanNullAssetTxData, demand_bind] at h
    obtain ⟨⟨data, address⟩, hrec, h⟩ := h
    simp only [unit_bind, require_ok, pure_ok, decide_eq_true_eq] at h
    obtain ⟨-, hcount, rfl⟩ := h
    have hzero : (s.mapNullDataTxCount.find? (data.asset_name, address)).getD 0 = 0 := by omega
    refine ⟨fun change hseen => ?_, fun change hchange => ?_⟩
    · cases change with
      | addTag address' name | removeTag address' name =>
        simp only [OutputScan.seen, find?_assign] at hseen ⊢
        split
        · exact Nat.succ_ne_zero _
        · exact hseen
      | freeze name | unfreeze name => exact hseen
    · rcases poolChange_of_nullAssetTxData hnull hrec hchange with rfl | rfl
      · refine ⟨fun hseen => hseen hzero, ?_⟩
        simp [OutputScan.seen]
      · refine ⟨fun hseen => hseen hzero, ?_⟩
        simp [OutputScan.seen]
  · rename_i hnull
    split at h
    · rename_i hglobal
      rw [scanNullGlobal, demand_bind] at h
      obtain ⟨data, hrec, h⟩ := h
      simp only [unit_bind, require_ok, pure_ok, Bool.not_eq_true'] at h
      obtain ⟨-, hfresh, rfl⟩ := h
      refine ⟨fun change hseen => ?_, fun change hchange => ?_⟩
      · cases change with
        | freeze name | unfreeze name =>
          simp only [OutputScan.seen, count_emplace, Bool.or_eq_true] at hseen ⊢
          exact Or.inr hseen
        | addTag address name | removeTag address name => exact hseen
      · have hunseen : ¬s.setNullGlobalAssetChanges.count data.asset_name = true := by
          rw [hfresh]
          exact Bool.false_ne_true
        have hnow : (s.setNullGlobalAssetChanges.emplace data.asset_name ()).count
            data.asset_name = true := by
          rw [count_emplace, decide_eq_true rfl, Bool.true_or]
        rcases poolChange_of_nullGlobal hglobal hrec hchange with rfl | rfl
        · exact ⟨hunseen, hnow⟩
        · exact ⟨hunseen, hnow⟩
    · rename_i hglobal
      have hnone : poolChange env out = none := by
        rw [poolChange, if_neg hglobal, if_neg hnull, ite_self]
      have hsame : s'.seen = s.seen := by
        split at h
        · rw [scanNullVerifier, unit_bind, require_bind, pure_ok] at h
          obtain ⟨-, -, rfl⟩ := h
          exact seen_congr rfl rfl
        · cases h
          rfl
      rw [hsame, hnone]
      exact ⟨fun _ => id, fun change hchange => absurd hchange (Option.some_ne_none _).symm⟩

theorem scanOutput_seen {fMempoolCheck fBlockCheck : Bool} {s s' : OutputScan} {out : CTxOut}
    (h : scanOutput env fMempoolCheck fBlockCheck s out = .ok s') :
    (∀ change, s.seen change → s'.seen change) ∧
      ∀ change, poolChange env out = some change → ¬s.seen change ∧ s'.seen change := by
  rw [scanOutput, bind_ok] at h
  obtain ⟨s₁, hvalue, h⟩ := h
  obtain ⟨s₂, hnull, hasset⟩ := bind_ok.1 h
  obtain ⟨-, hpairs, hglobals⟩ := scanValue_ok hvalue
  obtain ⟨hpairs', hglobals', -⟩ := scanAsset_ok hasset
  have hseen := scanNullAsset_seen hnull
  rw [seen_congr hpairs hglobals] at hseen
  rw [seen_congr hpairs' hglobals']
  exact hseen

theorem foldlM_scanOutput_seen {fMempoolCheck fBlockCheck : Bool} {vout : List CTxOut}
    {s s' : OutputScan} (h : vout.foldlM (scanOutput env fMempoolCheck fBlockCheck) s = .ok s') :
    (CTxMemPool.poolChanges env vout).Nodup ∧
      ∀ change ∈ CTxMemPool.poolChanges env vout, ¬s.seen change := by
  induction vout generalizing s with
  | nil => exact ⟨List.nodup_nil, fun change hmem => (nomatch hmem)⟩
  | cons out vout ih =>
    rw [List.foldlM_cons, bind_ok] at h
    obtain ⟨s₁, h₁, h⟩ := h
    obtain ⟨hmono, hone⟩ := scanOutput_seen h₁
    obtain ⟨hnd, hunseen⟩ := ih h
    have hrest : ∀ change ∈ CTxMemPool.poolChanges env vout, ¬s.seen change :=
      fun change hmem hseen => hunseen change hmem (hmono change hseen)
    cases hchange : poolChange env out with
    | none =>
      have hchanges : CTxMemPool.poolChanges env (out :: vout) =
          CTxMemPool.poolChanges env vout := List.filterMap_cons_none hchange
      rw [hchanges]
      exact ⟨hnd, hrest⟩
    | some change =>
      have hchanges : CTxMemPool.poolChanges env (out :: vout) =
          change :: CTxMemPool.poolChanges env vout := List.filterMap_cons_some hchange
      obtain ⟨hnew, hseen⟩ := hone change hchange
      rw [hchanges, List.nodup_cons, List.forall_mem_cons]
      exact ⟨⟨fun hmem => hunseen change hmem hseen, hnd⟩, hnew, hrest⟩

/-- **The changes of a checked transaction are distinct.** -/
theorem nodup_poolChanges {tx : CTransaction}
    {fCheckDuplicateInputs fMempoolCheck fBlockCheck : Bool}
    (h : checkTransaction env tx fCheckDuplicateInputs fMempoolCheck fBlockCheck = .ok ()) :
    (CTxMemPool.poolChanges env tx.vout).Nodup := by
  simp only [checkTransaction, require_bind] at h
  obtain ⟨-, -, -, h⟩ := h
  obtain ⟨s, hscan, -⟩ := bind_ok.1 h
  exact (foldlM_scanOutput_seen hscan).1

namespace CTxMemPool

variable {pool pool' : CTxMemPool} {hash : uint256}

/-! ## Removing -/

theorem freeReissue_mapTx (m : StdMap uint256 CTransaction) :
    { pool with mapTx := m }.freeReissue hash = { pool.freeReissue hash with mapTx := m } := by
  rw [freeReissue, freeReissue]
  cases pool.mapReissuedTx.find? hash with
  | none => rfl
  | some name =>
    simp only
    split <;> rfl

theorem freeAsset_mapTx (m : StdMap uint256 CTransaction) :
    { pool with mapTx := m }.freeAsset hash = { pool.freeAsset hash with mapTx := m } := by
  rw [freeAsset, freeAsset]
  cases pool.mapHashToAsset.find? hash with
  | none => rfl
  | some name => rfl

theorem removeUnchecked_mapTx (m : StdMap uint256 CTransaction) :
    { pool with mapTx := m }.removeUnchecked hash =
      { pool.removeUnchecked hash with mapTx := m.erase hash } := by
  have hfree : ∀ m, ({ pool with mapTx := m }.freeReissue hash).freeAsset hash =
      { (pool.freeReissue hash).freeAsset hash with mapTx := m } := by
    intro m
    rw [freeReissue_mapTx, freeAsset_mapTx]
  have hleft : { pool with mapTx := m }.removeUnchecked hash =
      (({ pool with mapTx := m.erase hash }.freeReissue hash).freeAsset hash).freeCommands hash :=
    rfl
  rw [hleft, hfree (m.erase hash), removeUnchecked, hfree (pool.mapTx.erase hash)]
  rfl

theorem removeStaged_mapTx (m : StdMap uint256 CTransaction) (stage : List uint256) :
    { pool with mapTx := m }.removeStaged stage =
      { pool.removeStaged stage with mapTx := m.eraseAll stage } := by
  induction stage generalizing pool m with
  | nil => rfl
  | cons hash stage ih =>
    have hstep : ({ pool with mapTx := m }.removeUnchecked hash).removeStaged stage =
        { (pool.removeUnchecked hash).removeStaged stage with
          mapTx := (m.erase hash).eraseAll stage } := by
      rw [removeUnchecked_mapTx, ih]
    exact hstep

theorem removeStaged_addUnchecked {stage : List uint256} {tx : CTransaction}
    (h : tx.hash ∈ stage) :
    (pool.addUnchecked tx).removeStaged stage = pool.removeStaged stage := by
  have hboth := @removeStaged_mapTx pool pool.mapTx stage
  rw [addUnchecked, removeStaged_mapTx, StdMap.eraseAll_assign _ _ h]
  exact hboth.symm

theorem stored_tracks (ctx : AcceptContext) (tx : CTransaction) (change : PoolChange) :
    (pool.stored ctx tx).tracks change =
      (pool.removeStaged (ctx.allConflicting ++ ctx.trimmed)).tracks change := by
  rw [stored, addUnchecked, removeStaged_mapTx, removeStaged_append]
  cases change <;> rfl

theorem addReissues_tracks (l : List (Bytes × uint256)) (change : PoolChange) :
    (pool.addReissues l).tracks change = pool.tracks change := by
  induction l generalizing pool with
  | nil => rfl
  | cons out l ih =>
    refine ih.trans ?_
    cases change <;> rfl

/-! ## Refusals -/

/-- The transactions that are replaced are in the mempool, and the limiter removes others. -/
structure AcceptContext.Fits (ctx : AcceptContext) (pool : CTxMemPool) : Prop where
  conflicting : ∀ hash ∈ ctx.allConflicting, pool.Live hash
  trimmed : ∀ hash ∈ ctx.trimmed, hash ∉ ctx.allConflicting

/-- The mempool is as it was, but for what the limiter has removed. -/
def Unchanged (pool : CTxMemPool) (ctx : AcceptContext) (pool' : CTxMemPool) : Prop :=
  pool' = pool ∨ pool' = pool.removeStaged ctx.trimmed

/-- If the transaction passes the checks, then it replaces none where the limiter removes it at
once, and elsewhere the mempool has none of its changes. -/
def RefusesCleanly (env : Env) (pool : CTxMemPool) (ctx : AcceptContext) (tx : CTransaction) :
    Prop :=
  (pool.checkAccept env ctx tx).isOk = true →
    if tx.hash ∈ ctx.trimmed then ctx.allConflicting = []
    else env.dep.areAssetsDeployed = true → ∀ change ∈ poolChanges env tx.vout,
      (pool.removeStaged (ctx.allConflicting ++ ctx.trimmed)).tracks change = false

section Refusal

variable {ctx : AcceptContext} {tx : CTransaction} {v : List (Bytes × uint256)}

theorem not_unchanged_of_gone (hlive : pool.Live hash) (htrimmed : hash ∉ ctx.trimmed)
    (hgone : ¬pool'.Live hash) : ¬pool.Unchanged ctx pool' := by
  rintro (rfl | rfl)
  · exact hgone hlive
  · refine hgone ?_
    obtain ⟨tx', hfind⟩ := count_eq_true.1 hlive
    refine count_of_find? (?_ : _ = some tx')
    rw [mapTx_removeStaged, if_neg htrimmed, hfind]

theorem not_unchanged_of_new (hnew : ¬pool.Live hash) (hlive : pool'.Live hash) :
    ¬pool.Unchanged ctx pool' := by
  rintro (rfl | rfl)
  · exact hnew hlive
  · obtain ⟨tx', hfind⟩ := count_eq_true.1 hlive
    rw [mapTx_removeStaged] at hfind
    split at hfind
    · cases hfind
    · exact hnew (count_of_find? hfind)

theorem count_stored :
    (pool.stored ctx tx).mapTx.count tx.hash = !decide (tx.hash ∈ ctx.trimmed) := by
  rw [stored, StdMap.count, mapTx_removeStaged]
  by_cases htrimmed : tx.hash ∈ ctx.trimmed
  · rw [if_pos htrimmed, decide_eq_true htrimmed]
    rfl
  · have hfind : ((pool.removeStaged ctx.allConflicting).addUnchecked tx).mapTx.find? tx.hash =
        some tx := find?_assign_self _ _ _
    rw [if_neg htrimmed, decide_eq_false htrimmed, hfind]
    rfl

theorem stored_unchanged_iff (hfits : ctx.Fits pool) (hnew : ¬pool.Live tx.hash)
    (htrimmed : tx.hash ∈ ctx.trimmed) :
    pool.Unchanged ctx (pool.stored ctx tx) ↔ ctx.allConflicting = [] := by
  constructor
  · intro hunchanged
    cases hconflicting : ctx.allConflicting with
    | nil => rfl
    | cons hash rest =>
      have hmem : hash ∈ ctx.allConflicting := by
        rw [hconflicting]
        exact List.mem_cons_self
      have hlive := hfits.conflicting hash hmem
      have hne : hash ≠ tx.hash := by
        rintro rfl
        exact hnew hlive
      refine absurd hunchanged (not_unchanged_of_gone hlive (fun h => hfits.trimmed hash h hmem) ?_)
      intro hstill
      obtain ⟨tx', hfind⟩ := count_eq_true.1 hstill
      exact (find?_stored hne hfind).2.1 hmem
  · intro hnil
    have hsame : pool.stored ctx tx = (pool.addUnchecked tx).removeStaged ctx.trimmed := by
      rw [stored, hnil]
      rfl
    rw [hsame, removeStaged_addUnchecked htrimmed]
    exact Or.inr rfl

/-- **When a refusal leaves the mempool as it was.** -/
theorem refusal_unchanged_iff (hfits : ctx.Fits pool) :
    (∀ pool' reason, pool.acceptToMemoryPool env ctx tx = (pool', .error reason) →
      pool.Unchanged ctx pool') ↔ pool.RefusesCleanly env ctx tx := by
  rw [RefusesCleanly, acceptToMemoryPool]
  cases hcheck : pool.checkAccept env ctx tx with
  | error reason =>
    simp only [Except.isOk, Except.toBool, Bool.false_eq_true, false_implies, iff_true]
    rintro pool' reason' heq
    exact Or.inl (Prod.mk.inj heq).1.symm
  | ok v =>
    obtain ⟨htx, hcount, -, -⟩ := checkAccept_ok hcheck
    have hnew : ¬pool.Live tx.hash := by
      rw [Live, hcount]
      exact Bool.false_ne_true
    have hstored : ((pool.removeStaged ctx.allConflicting).addUnchecked tx).removeStaged
        ctx.trimmed = pool.stored ctx tx := rfl
    simp only [hstored, count_stored, Bool.not_not, Except.isOk, Except.toBool, true_implies,
      decide_eq_true_eq]
    by_cases htrimmed : tx.hash ∈ ctx.trimmed
    · rw [if_pos htrimmed, if_pos htrimmed, ← stored_unchanged_iff hfits hnew htrimmed]
      constructor
      · intro h
        exact h _ _ rfl
      · rintro h pool' reason heq
        rw [← (Prod.mk.inj heq).1]
        exact h
    · rw [if_neg htrimmed, if_neg htrimmed]
      -- Where the loop over the outputs stops, the transaction stays.
      have hlive : ∀ pool' : CTxMemPool, pool'.mapTx = (pool.stored ctx tx).mapTx →
          pool'.Live tx.hash := by
        intro pool' hmapTx
        rw [Live, hmapTx, count_stored, decide_eq_false htrimmed]
        rfl
      cases hdep : env.dep.areAssetsDeployed with
      | false => simp
      | true =>
        have hstops := @trackOutputs_error_iff env ((pool.stored ctx tx).addReissues v) tx.hash
          tx.vout (nodup_poolChanges htx)
        have hmapTx := @trackOutputs_mapTx env ((pool.stored ctx tx).addReissues v) tx.hash tx.vout
        simp only [addReissues_tracks, stored_tracks] at hstops
        simp only [if_true, true_implies]
        generalize ((pool.stored ctx tx).addReissues v).trackOutputs env tx.hash tx.vout = r
          at hstops hmapTx ⊢
        obtain ⟨pool₁, verdict⟩ := r
        cases verdict with
        | error reason =>
          have hchanged : ¬pool.Unchanged ctx pool₁ := by
            refine not_unchanged_of_new hnew (hlive pool₁ ?_)
            exact hmapTx.trans (addReissues_frame v).1
          obtain ⟨change, hmem, htracks⟩ := hstops.1 ⟨reason, rfl⟩
          constructor
          · intro h
            exact absurd (h pool₁ reason rfl) hchanged
          · intro h
            rw [h change hmem] at htracks
            cases htracks
        | ok u =>
          constructor
          · intro _ change hmem
            refine Bool.eq_false_of_not_eq_true fun htracks => ?_
            obtain ⟨reason, hreason⟩ := hstops.2 ⟨change, hmem, htracks⟩
            cases hreason
          · rintro _ pool' reason heq
            cases (Prod.mk.inj heq).2

end Refusal

end CTxMemPool

/-! ### A tag that is put on an address twice -/

/-- What accepting a transaction at a tip reads, when it replaces none. -/
def contextAt (st : AssetState) (coinsTip : CCoinsView) : CTxMemPool.AcceptContext :=
  ⟨.all, st, coinsTip, 200, fun _ _ => true, [], []⟩

/-- `#TAG` is put on key 1 once more, with the token that the first transaction sends back. -/
def tagAgainTx : CTransaction where
  hash := 2004
  vin := [⟨⟨3, 0⟩, []⟩, ⟨⟨2003, 1⟩, []⟩]
  vout := [burnOutput 10000000, transferTag "#TAG", tagOutput "#TAG" 1]

/-- The limiter removes both transactions. -/
def trimAt (st : AssetState) (coinsTip : CCoinsView) : CTxMemPool.AcceptContext :=
  { contextAt st coinsTip with trimmed := [tagTx.hash, tagAgainTx.hash] }

theorem tagPool_answers : ∃ n pool, issuedTags = some n ∧
    (poolMachine tagEnv).exec .empty [acceptAt n.st n.view tagTx] = some pool ∧
    pool.mapTx.keys = [tagTx.hash] ∧
    (∃ pool', pool.acceptToMemoryPool tagEnv (contextAt n.st n.view) tagAgainTx =
      (pool', .error "bad-txns-adding-tag-already-in-mempool") ∧
        pool'.mapTx.count tagAgainTx.hash = true) ∧
    ∃ pool', pool.acceptToMemoryPool tagEnv (trimAt n.st n.view) tagAgainTx =
      (pool', .error "mempool full") ∧ pool'.mapTx.keys = [] := by
  have hrun : (issuedTags.bind fun n =>
      ((poolMachine tagEnv).exec .empty [acceptAt n.st n.view tagTx]).map fun pool =>
        let r := pool.acceptToMemoryPool tagEnv (contextAt n.st n.view) tagAgainTx
        let t := pool.acceptToMemoryPool tagEnv (trimAt n.st n.view) tagAgainTx
        (pool.mapTx.keys, (r.2, r.1.mapTx.count tagAgainTx.hash), t.2, t.1.mapTx.keys)) =
        some ([tagTx.hash], (.error "bad-txns-adding-tag-already-in-mempool", true),
          .error "mempool full", []) := by
    rw [issuedTags, exec_coinbaseChain ⟨rfl, rfl⟩ (by decide)]
    decide +kernel
  obtain ⟨n, hn, hpool⟩ := Option.bind_eq_some_iff.1 hrun
  obtain ⟨pool, hexec, hresult⟩ := Option.map_eq_some_iff.1 hpool
  refine ⟨n, pool, hn, hexec, ?_⟩
  generalize pool.acceptToMemoryPool tagEnv (contextAt n.st n.view) tagAgainTx = r at hresult ⊢
  generalize pool.acceptToMemoryPool tagEnv (trimAt n.st n.view) tagAgainTx = t at hresult ⊢
  obtain ⟨stored, reason⟩ := r
  obtain ⟨trimmed, full⟩ := t
  simp only [Prod.mk.injEq] at hresult
  obtain ⟨hkeys, ⟨rfl, hlive⟩, rfl, hnone⟩ := hresult
  exact ⟨hkeys, ⟨stored, rfl, hlive⟩, trimmed, rfl, hnone⟩

/-- The second transaction is stored and then removed by the limiter, with the first, whose output
it spends.  The refusal changes nothing else. -/
theorem tagAgainTx_trimmed : ∃ n pool pool', issuedTags = some n ∧
    (poolMachine tagEnv).exec .empty [acceptAt n.st n.view tagTx] = some pool ∧
    pool.mapTx.keys = [tagTx.hash] ∧
    pool.acceptToMemoryPool tagEnv (trimAt n.st n.view) tagAgainTx =
      (pool', .error "mempool full") ∧
    pool'.mapTx.keys = [] ∧ pool.Unchanged (trimAt n.st n.view) pool' := by
  obtain ⟨n, pool, hn, hexec, hkeys, -, pool', haccept, hnone⟩ := tagPool_answers
  have hfits : (trimAt n.st n.view).Fits pool :=
    ⟨fun _ hmem => absurd hmem List.not_mem_nil, fun _ _ => List.not_mem_nil⟩
  have hclean : pool.RefusesCleanly tagEnv (trimAt n.st n.view) tagAgainTx := by
    intro _
    have hmem : tagAgainTx.hash ∈ (trimAt n.st n.view).trimmed :=
      List.mem_cons_of_mem _ (List.mem_singleton_self _)
    rw [if_pos hmem]
    rfl
  exact ⟨n, pool, pool', hn, hexec, hkeys, haccept, hnone,
    (CTxMemPool.refusal_unchanged_iff hfits).2 hclean pool' _ haccept⟩

/-- The second transaction is refused **and** stored. -/
theorem tagAgainTx_stored : ∃ n pool pool', issuedTags = some n ∧
    (poolMachine tagEnv).exec .empty [acceptAt n.st n.view tagTx] = some pool ∧
    pool.acceptToMemoryPool tagEnv (contextAt n.st n.view) tagAgainTx =
      (pool', .error "bad-txns-adding-tag-already-in-mempool") ∧
    pool.mapTx.count tagAgainTx.hash = false ∧ pool'.mapTx.count tagAgainTx.hash = true ∧
    ¬pool.Unchanged (contextAt n.st n.view) pool' := by
  obtain ⟨n, pool, hn, hexec, hkeys, ⟨pool', haccept, hlive⟩, -⟩ := tagPool_answers
  have hnew : ¬pool.Live tagAgainTx.hash := by
    rw [CTxMemPool.Live, ← StdMap.mem_keys, hkeys]
    decide +kernel
  exact ⟨n, pool, pool', hn, hexec, haccept, Bool.eq_false_iff.2 hnew, hlive,
    CTxMemPool.not_unchanged_of_new hnew hlive⟩

end UnemployCoin
