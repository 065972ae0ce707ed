import UnemployCoin.IssuedRecords
import UnemployCoin.Mempool
import UnemployCoin.TagRefinement
/-!
# The indexes of the mempool

The indexes are filled when a transaction is accepted and emptied when it is removed.  They stay
exact as long as no accepted transaction issues **two** assets, or one that another transaction of
the mempool issues, and no removed one changes a **tag**: `mapHashToAsset` has one name for each
transaction, and the maps from transactions to tags are never emptied.
-/

namespace UnemployCoin

open Check TwoWay StdMap

variable {env : Env}

def reissuedNames (env : Env) (tx : CTransaction) : List Bytes :=
  tx.vout.filterMap fun out =>
    (reissueAssetFromScript env out.scriptPubKey).map fun record => record.1.strName

namespace CTxMemPool

variable {pool pool' : CTxMemPool} {untracked cleared : uint256 → Prop} {hash : uint256}

def Live (pool : CTxMemPool) (hash : uint256) : Prop := pool.mapTx.count hash = true

/-- The indexes of restricted assets, freezes and tags are exact. -/
structure CommandsExact (pool : CTxMemPool) (live : uint256 → Prop) : Prop where
  addressesMarkedFrozen : pool.addressesMarkedFrozen.Exact live
  assetMarkedGlobalFrozen : pool.assetMarkedGlobalFrozen.Exact live
  addressesQualifiersChanged : pool.addressesQualifiersChanged.Exact live
  assetVerifierChanged : pool.assetVerifierChanged.Exact live
  globalFreezingAssetTransactions : pool.globalFreezingAssetTransactions.Exact live
  globalUnFreezingAssetTransactions : pool.globalUnFreezingAssetTransactions.Exact live
  addressAddedTag : pool.addressAddedTag.Exact live
  addressRemoveTag : pool.addressRemoveTag.Exact live

/-- The indexes are exact, but that the names of the `untracked` transactions and the reissues of
the `cleared` ones are missing. -/
structure ExactBut (env : Env) (untracked cleared : uint256 → Prop) (pool : CTxMemPool) : Prop where
  keyed : ∀ hash tx, pool.mapTx.find? hash = some tx → tx.hash = hash
  names : Inverse pool.mapAssetToHash pool.mapHashToAsset
  named : ∀ name hash, pool.mapAssetToHash.find? name = some hash →
    pool.Live hash ∧ ¬untracked hash
  issued : ∀ hash tx, pool.mapTx.find? hash = some tx → ¬untracked hash →
    ∀ name ∈ issuedNames env tx, pool.mapAssetToHash.find? name = some hash
  reissues : Inverse pool.mapReissuedAssets pool.mapReissuedTx
  reissued : ∀ name hash, pool.mapReissuedAssets.find? name = some hash ↔
    (∃ tx, pool.mapTx.find? hash = some tx ∧ name ∈ reissuedNames env tx) ∧ ¬cleared hash
  commands : pool.CommandsExact pool.Live

/-- **The indexes are exact.**  Every hash in them is that of a transaction in the mempool, maps in
opposite directions are inverse, every name that a transaction issues is mapped to it, and the
reissues are those of the transactions. -/
def Exact (env : Env) (pool : CTxMemPool) : Prop :=
  pool.ExactBut env (fun _ => False) (fun _ => False)

def Untagged (pool : CTxMemPool) (hash : uint256) : Prop :=
  pool.addressAddedTag.backward.count hash = false ∧
    pool.addressRemoveTag.backward.count hash = false

theorem Exact.empty : empty.Exact env where
  keyed := fun _ _ h => nomatch h
  names := .empty
  named := fun _ _ h => nomatch h
  issued := fun _ _ h => nomatch h
  reissues := .empty
  reissued := fun _ _ =>
    ⟨fun h => (nomatch h), fun ⟨⟨_, h, _⟩, _⟩ => (nomatch h)⟩
  commands := ⟨.empty, .empty, .empty, .empty, .empty, .empty, .empty, .empty⟩

/-! ## Removing -/

theorem freeReissue_eq (h : Inverse pool.mapReissuedAssets pool.mapReissuedTx)
    (hash : uint256) :
    ∃ f g, pool.freeReissue hash = { pool with mapReissuedAssets := f, mapReissuedTx := g } ∧
      Inverse f g ∧ ∀ name hash', f.find? name = some hash' ↔
        pool.mapReissuedAssets.find? name = some hash' ∧ hash' ≠ hash := by
  rw [freeReissue]
  cases hfind : pool.mapReissuedTx.find? hash with
  | none =>
    refine ⟨_, _, rfl, h, fun name hash' => ⟨fun hname => ⟨hname, ?_⟩, And.left⟩⟩
    rintro rfl
    rw [(h name hash').1 hname] at hfind
    cases hfind
  | some name =>
    simp only [count_of_find? ((h name hash).2 hfind), if_true]
    exact ⟨_, _, rfl, h.erase hfind⟩

theorem clearReissue_eq (h : Inverse pool.mapReissuedAssets pool.mapReissuedTx)
    (tx : CTransaction) :
    ∃ f g, pool.clearReissue tx = { pool with mapReissuedAssets := f, mapReissuedTx := g } ∧
      Inverse f g ∧ ∀ name hash', f.find? name = some hash' ↔
        pool.mapReissuedAssets.find? name = some hash' ∧ hash' ≠ tx.hash := by
  rw [clearReissue]
  cases hfind : pool.mapReissuedTx.find? tx.hash with
  | none =>
    refine ⟨_, _, rfl, h, fun name hash' => ⟨fun hname => ⟨hname, ?_⟩, And.left⟩⟩
    rintro rfl
    rw [(h name tx.hash).1 hname] at hfind
    cases hfind
  | some name => exact ⟨_, _, rfl, h.erase hfind⟩

theorem freeAsset_eq (h : Inverse pool.mapAssetToHash pool.mapHashToAsset) (hash : uint256) :
    ∃ f g, pool.freeAsset hash = { pool with mapAssetToHash := f, mapHashToAsset := g } ∧
      Inverse f g ∧ ∀ name hash', f.find? name = some hash' ↔
        pool.mapAssetToHash.find? name = some hash' ∧ hash' ≠ hash := by
  rw [freeAsset]
  cases hfind : pool.mapHashToAsset.find? hash with
  | none =>
    refine ⟨_, _, rfl, h, fun name hash' => ⟨fun hname => ⟨hname, ?_⟩, And.left⟩⟩
    rintro rfl
    rw [(h name hash').1 hname] at hfind
    cases hfind
  | some name => exact ⟨_, _, rfl, h.erase hfind⟩

variable {tx : CTransaction} {hash' : uint256}

theorem find?_erase_eq_some {m : StdMap uint256 CTransaction} :
    (m.erase hash).find? hash' = some tx ↔
      m.find? hash' = some tx ∧ hash' ≠ hash := by
  rw [find?_erase]
  by_cases h : hash' = hash <;> simp [h]

theorem live_erase :
    { pool with mapTx := pool.mapTx.erase hash }.Live hash' ↔ pool.Live hash' ∧ hash' ≠ hash := by
  rw [Live, Live, count_erase]
  simp [and_comm]

theorem CommandsExact.mono {live live' : uint256 → Prop} (h : pool.CommandsExact live)
    (hlive : ∀ hash, live hash → live' hash) : pool.CommandsExact live' where
  addressesMarkedFrozen := h.addressesMarkedFrozen.mono hlive
  assetMarkedGlobalFrozen := h.assetMarkedGlobalFrozen.mono hlive
  addressesQualifiersChanged := h.addressesQualifiersChanged.mono hlive
  assetVerifierChanged := h.assetVerifierChanged.mono hlive
  globalFreezingAssetTransactions := h.globalFreezingAssetTransactions.mono hlive
  globalUnFreezingAssetTransactions := h.globalUnFreezingAssetTransactions.mono hlive
  addressAddedTag := h.addressAddedTag.mono hlive
  addressRemoveTag := h.addressRemoveTag.mono hlive

theorem CommandsExact.freeCommands {live : uint256 → Prop} (h : pool.CommandsExact live)
    (htags : pool.Untagged hash) :
    (pool.freeCommands hash).CommandsExact fun hash' => live hash' ∧ hash' ≠ hash where
  addressesMarkedFrozen := h.addressesMarkedFrozen.remove
  assetMarkedGlobalFrozen := h.assetMarkedGlobalFrozen.remove
  addressesQualifiersChanged := h.addressesQualifiersChanged.remove
  assetVerifierChanged := h.assetVerifierChanged.remove
  globalFreezingAssetTransactions := h.globalFreezingAssetTransactions.remove
  globalUnFreezingAssetTransactions := h.globalUnFreezingAssetTransactions.remove
  addressAddedTag := h.addressAddedTag.of_not_count htags.1
  addressRemoveTag := h.addressRemoveTag.of_not_count htags.2

/-- **Removing a transaction** that changes no tag keeps the indexes exact. -/
theorem ExactBut.removeUnchecked (h : pool.ExactBut env untracked cleared)
    (htags : pool.Untagged hash) : (pool.removeUnchecked hash).ExactBut env untracked cleared := by
  obtain ⟨f, g, hreissue, hinverse, hfind⟩ :=
    @freeReissue_eq { pool with mapTx := pool.mapTx.erase hash } h.reissues hash
  obtain ⟨f', g', hasset, hinverse', hfind'⟩ :=
    @freeAsset_eq { pool with
      mapTx := pool.mapTx.erase hash, mapReissuedAssets := f, mapReissuedTx := g } h.names hash
  have hlive : ∀ hash', pool.Live hash' ∧ hash' ≠ hash →
      (pool.removeUnchecked hash).Live hash' := by
    intro hash' hlive
    rw [CTxMemPool.removeUnchecked, hreissue, hasset]
    exact live_erase.2 hlive
  rw [CTxMemPool.removeUnchecked, hreissue, hasset] at hlive ⊢
  exact {
    keyed := fun hash' tx hfound => h.keyed hash' tx (find?_erase_eq_some.1 hfound).1
    names := hinverse'
    named := fun name hash' hname => by
      obtain ⟨hold, hne⟩ := (hfind' name hash').1 hname
      obtain ⟨halive, htracked⟩ := h.named name hash' hold
      exact ⟨hlive hash' ⟨halive, hne⟩, htracked⟩
    issued := fun hash' tx hfound htracked name hname => by
      obtain ⟨hold, hne⟩ := find?_erase_eq_some.1 hfound
      exact (hfind' name hash').2 ⟨h.issued hash' tx hold htracked name hname, hne⟩
    reissues := hinverse
    reissued := fun name hash' => by
      refine (hfind name hash').trans ?_
      rw [h.reissued name hash']
      constructor
      · rintro ⟨⟨⟨tx, hfound, hname⟩, hclear⟩, hne⟩
        exact ⟨⟨tx, find?_erase_eq_some.2 ⟨hfound, hne⟩, hname⟩, hclear⟩
      · rintro ⟨⟨tx, hfound, hname⟩, hclear⟩
        obtain ⟨hold, hne⟩ := find?_erase_eq_some.1 hfound
        exact ⟨⟨⟨tx, hold, hname⟩, hclear⟩, hne⟩
    commands := { (h.commands.freeCommands htags).mono hlive with } }

/-! ### What removing leaves -/

theorem freeReissue_frame (pool : CTxMemPool) (hash : uint256) :
    ∃ f g, pool.freeReissue hash = { pool with mapReissuedAssets := f, mapReissuedTx := g } := by
  rw [freeReissue]
  split
  · exact ⟨_, _, rfl⟩
  · split
    · exact ⟨_, _, rfl⟩
    · exact ⟨_, _, rfl⟩

theorem freeAsset_frame (pool : CTxMemPool) (hash : uint256) :
    ∃ f g, pool.freeAsset hash = { pool with mapAssetToHash := f, mapHashToAsset := g } := by
  rw [freeAsset]
  split
  · exact ⟨_, _, rfl⟩
  · exact ⟨_, _, rfl⟩

theorem removeUnchecked_frame (pool : CTxMemPool) (hash : uint256) :
    (pool.removeUnchecked hash).mapTx = pool.mapTx.erase hash ∧
      (pool.removeUnchecked hash).addressAddedTag.backward = pool.addressAddedTag.backward ∧
      (pool.removeUnchecked hash).addressRemoveTag.backward = pool.addressRemoveTag.backward := by
  obtain ⟨f, g, hreissue⟩ := freeReissue_frame { pool with mapTx := pool.mapTx.erase hash } hash
  obtain ⟨f', g', hasset⟩ := freeAsset_frame { pool with
    mapTx := pool.mapTx.erase hash, mapReissuedAssets := f, mapReissuedTx := g } hash
  rw [CTxMemPool.removeUnchecked, hreissue, hasset]
  exact ⟨rfl, rfl, rfl⟩

theorem untagged_removeUnchecked :
    (pool.removeUnchecked hash).Untagged hash' ↔ pool.Untagged hash' := by
  obtain ⟨-, hadded, hremoved⟩ := removeUnchecked_frame pool hash
  rw [Untagged, hadded, hremoved]
  rfl

theorem ExactBut.removeStaged {stage : List uint256} (h : pool.ExactBut env untracked cleared)
    (htags : ∀ hash ∈ stage, pool.Untagged hash) :
    (pool.removeStaged stage).ExactBut env untracked cleared := by
  induction stage generalizing pool with
  | nil => exact h
  | cons hash stage ih =>
    rw [List.forall_mem_cons] at htags
    exact ih (h.removeUnchecked htags.1) fun hash' hmem =>
      untagged_removeUnchecked.2 (htags.2 hash' hmem)

theorem mapTx_removeStaged (stage : List uint256) : (pool.removeStaged stage).mapTx.find? hash =
    if hash ∈ stage then none else pool.mapTx.find? hash := by
  induction stage generalizing pool with
  | nil => rfl
  | cons hash' stage ih =>
    have hstep : pool.removeStaged (hash' :: stage) =
        (pool.removeUnchecked hash').removeStaged stage := rfl
    rw [hstep, ih, (removeUnchecked_frame pool hash').1, find?_erase]
    by_cases hmem : hash ∈ stage
    · simp [hmem]
    · by_cases heq : hash = hash' <;> simp [hmem, heq]

theorem untagged_removeStaged {stage : List uint256} :
    (pool.removeStaged stage).Untagged hash ↔ pool.Untagged hash := by
  induction stage generalizing pool with
  | nil => exact Iff.rfl
  | cons hash' stage ih => exact ih.trans untagged_removeUnchecked

theorem removeStaged_append (stage stage' : List uint256) :
    pool.removeStaged (stage ++ stage') = (pool.removeStaged stage).removeStaged stage' :=
  List.foldl_append

/-! ## The transactions that a block removes -/

/-- What `removeConflict` removes. -/
def conflictRemovals (tx : CTransaction) (pool : CTxMemPool) (txin : CTxIn) : List uint256 :=
  match pool.nextTx txin.prevout with
  | some txConflict =>
    if txConflict.hash = tx.hash then []
    else
      (if pool.mapTx.count txConflict.hash then [txConflict.hash]
      else txConflict.outputs.filterMap fun e =>
        (pool.nextTx e.1).map CTransaction.hash).foldl pool.calculateDescendants []
  | none => []

/-- What the loop of `removeConflicts` removes. -/
def inputRemovals (tx : CTransaction) : CTxMemPool → List CTxIn → List uint256
  | _, [] => []
  | pool, txin :: vin =>
    pool.conflictRemovals tx txin ++ inputRemovals tx (removeConflict tx pool txin) vin

/-- What `removeForTx` removes. -/
def txRemovals (pool : CTxMemPool) (tx : CTransaction) : List uint256 :=
  let stage := if pool.mapTx.count tx.hash then [tx.hash] else []
  stage ++ inputRemovals tx (pool.removeStaged stage) tx.vin

def blockRemovals : CTxMemPool → List CTransaction → List uint256
  | _, [] => []
  | pool, tx :: vtx => pool.txRemovals tx ++ blockRemovals (removeForTx pool tx) vtx

theorem removeConflict_eq (tx : CTransaction) (pool : CTxMemPool) (txin : CTxIn) :
    removeConflict tx pool txin = pool.removeStaged (conflictRemovals tx pool txin) := by
  rw [removeConflict, conflictRemovals]
  cases pool.nextTx txin.prevout with
  | none => rfl
  | some txConflict =>
    simp only
    split
    · rfl
    · rfl

theorem foldl_removeConflict_eq (tx : CTransaction) (vin : List CTxIn) (pool : CTxMemPool) :
    vin.foldl (removeConflict tx) pool = pool.removeStaged (inputRemovals tx pool vin) := by
  induction vin generalizing pool with
  | nil => rfl
  | cons txin vin ih =>
    rw [List.foldl_cons, ih, inputRemovals, removeStaged_append, removeConflict_eq]

theorem removeForTx_eq (pool : CTxMemPool) (tx : CTransaction) :
    removeForTx pool tx = pool.removeStaged (pool.txRemovals tx) := by
  rw [removeForTx, removeConflicts, foldl_removeConflict_eq, txRemovals]
  split
  · rw [removeStaged_append]
  · rfl

theorem foldl_removeForTx_eq (vtx : List CTransaction) (pool : CTxMemPool) :
    vtx.foldl removeForTx pool = pool.removeStaged (pool.blockRemovals vtx) := by
  induction vtx generalizing pool with
  | nil => rfl
  | cons tx vtx ih =>
    rw [List.foldl_cons, ih, blockRemovals, removeStaged_append, removeForTx_eq]

variable {vtx : List CTransaction}

theorem not_live_of_foldl_removeForTx
    (hmem : tx ∈ vtx) : ¬(vtx.foldl removeForTx pool).Live tx.hash := by
  have hnone : ∀ (vtx : List CTransaction) (pool : CTxMemPool),
      pool.mapTx.find? tx.hash = none →
        (vtx.foldl removeForTx pool).mapTx.find? tx.hash = none := by
    intro vtx pool hfind
    rw [foldl_removeForTx_eq, mapTx_removeStaged, hfind, ite_self]
  suffices hgone : (vtx.foldl removeForTx pool).mapTx.find? tx.hash = none by
    rw [Live, count_eq_false.2 hgone]
    exact Bool.false_ne_true
  induction vtx generalizing pool with
  | nil => cases hmem
  | cons tx' vtx ih =>
    rw [List.foldl_cons]
    rcases List.mem_cons.1 hmem with rfl | hmem
    · refine hnone vtx _ ?_
      rw [removeForTx_eq, mapTx_removeStaged, txRemovals]
      by_cases hcount : pool.mapTx.count tx.hash = true
      · rw [if_pos hcount, if_pos (List.mem_append_left _ List.mem_cons_self)]
      · rw [count_eq_false.1 (Bool.eq_false_of_not_eq_true hcount), ite_self]
    · exact ih hmem

theorem ExactBut.clearReissue (h : pool.ExactBut env untracked cleared) (tx : CTransaction) :
    (pool.clearReissue tx).ExactBut env untracked fun hash => cleared hash ∨ hash = tx.hash := by
  obtain ⟨f, g, hclear, hinverse, hfind⟩ := clearReissue_eq h.reissues tx
  rw [hclear]
  exact { h with
    commands := { h.commands with }
    reissues := hinverse
    reissued := fun name hash => by
      refine (hfind name hash).trans ?_
      rw [h.reissued name hash, not_or, and_assoc] }

theorem ExactBut.clearReissues
    (h : pool.ExactBut env untracked cleared) :
    (vtx.foldl CTxMemPool.clearReissue pool).ExactBut env untracked
      fun hash => cleared hash ∨ ∃ tx ∈ vtx, hash = tx.hash := by
  induction vtx generalizing pool cleared with
  | nil => simpa using h
  | cons tx vtx ih =>
    have hrest := ih (h.clearReissue tx)
    rw [List.foldl_cons]
    have hsame : (fun hash => (cleared hash ∨ hash = tx.hash) ∨ ∃ tx' ∈ vtx, hash = tx'.hash) =
        fun hash => cleared hash ∨ ∃ tx' ∈ tx :: vtx, hash = tx'.hash := by
      funext hash
      rw [or_assoc]
      simp only [List.mem_cons, exists_eq_or_imp]
    rw [← hsame]
    exact hrest

theorem clearReissues_frame (vtx : List CTransaction) (pool : CTxMemPool) :
    ∃ f g, vtx.foldl CTxMemPool.clearReissue pool =
      { pool with mapReissuedAssets := f, mapReissuedTx := g } := by
  induction vtx generalizing pool with
  | nil => exact ⟨_, _, rfl⟩
  | cons tx vtx ih =>
    rw [List.foldl_cons, CTxMemPool.clearReissue]
    split
    · exact ih pool
    · exact ih _

/-! ## Tracking a transaction -/

/-- The name that acceptance maps to the transaction of an output. -/
def trackedName (env : Env) (out : CTxOut) : Option Bytes :=
  (getAssetData env out.scriptPubKey).bind fun data =>
    if data.type == .TX_NEW_ASSET && !isAssetNameAnOwner data.assetName then some data.assetName
    else none

/-- What tracking some names does besides the commands. -/
structure Tracks (hash : uint256) (names : List Bytes) (pool pool' : CTxMemPool) : Prop where
  mapTx : pool'.mapTx = pool.mapTx
  mapAssetToHash : pool'.mapAssetToHash =
    names.foldl (fun m name => m.assign name hash) pool.mapAssetToHash
  mapHashToAsset : pool'.mapHashToAsset =
    names.foldl (fun m name => m.assign hash name) pool.mapHashToAsset
  mapReissuedAssets : pool'.mapReissuedAssets = pool.mapReissuedAssets
  mapReissuedTx : pool'.mapReissuedTx = pool.mapReissuedTx

theorem Tracks.refl : Tracks hash [] pool pool := ⟨rfl, rfl, rfl, rfl, rfl⟩

theorem Tracks.trans {names names' : List Bytes} {pool'' : CTxMemPool}
    (h : Tracks hash names pool pool') (h' : Tracks hash names' pool' pool'') :
    Tracks hash (names ++ names') pool pool'' where
  mapTx := h'.mapTx.trans h.mapTx
  mapAssetToHash := by rw [h'.mapAssetToHash, h.mapAssetToHash, List.foldl_append]
  mapHashToAsset := by rw [h'.mapHashToAsset, h.mapHashToAsset, List.foldl_append]
  mapReissuedAssets := h'.mapReissuedAssets.trans h.mapReissuedAssets
  mapReissuedTx := h'.mapReissuedTx.trans h.mapReissuedTx

theorem trackAsset_tracks (data : CAssetOutputEntry) :
    Tracks hash (if data.type == .TX_NEW_ASSET && !isAssetNameAnOwner data.assetName then
      [data.assetName] else []) pool (pool.trackAsset env hash data) := by
  rw [trackAsset]
  cases data.type == .TX_NEW_ASSET && !isAssetNameAnOwner data.assetName with
  | true =>
    cases env.dep.areRestrictedAssetsDeployed && isAssetNameAnRestricted data.assetName with
    | true => exact ⟨rfl, rfl, rfl, rfl, rfl⟩
    | false => exact ⟨rfl, rfl, rfl, rfl, rfl⟩
  | false =>
    cases env.dep.areRestrictedAssetsDeployed && isAssetNameAnRestricted data.assetName with
    | true => exact ⟨rfl, rfl, rfl, rfl, rfl⟩
    | false => exact Tracks.refl

variable {data : CNullAssetTxData}

theorem trackGlobal_tracks
    (h : pool.trackGlobal hash data = .ok pool') : Tracks hash [] pool pool' := by
  rw [trackGlobal] at h
  split at h
  · split at h
    · cases h
    · cases h
      exact ⟨rfl, rfl, rfl, rfl, rfl⟩
  · split at h
    · split at h
      · cases h
      · cases h
        exact ⟨rfl, rfl, rfl, rfl, rfl⟩
    · cases h
      exact Tracks.refl

theorem trackTag_tracks {address : Bytes}
    (h : pool.trackTag hash data address = .ok pool') : Tracks hash [] pool pool' := by
  rw [trackTag] at h
  split at h
  · cases h
    exact Tracks.refl
  · split at h
    · split at h
      · cases h
      · cases h
        exact ⟨rfl, rfl, rfl, rfl, rfl⟩
    · split at h
      · cases h
      · cases h
        exact ⟨rfl, rfl, rfl, rfl, rfl⟩

variable {out : CTxOut}

theorem trackedName_of_no_asset (h : out.scriptPubKey.isAssetScript.isSome = false) :
    trackedName env out = none := by
  rw [Option.isSome_eq_false_iff, Option.isNone_iff_eq_none] at h
  rw [trackedName, getAssetData, h]
  rfl

theorem trackOutput_tracks (h : pool.trackOutput env hash out = .ok pool') :
    Tracks hash (trackedName env out).toList pool pool' := by
  rw [trackOutput] at h
  split at h
  · cases hdata : getAssetData env out.scriptPubKey with
    | none =>
      rw [hdata] at h
      cases h
      rw [trackedName, hdata]
      exact Tracks.refl
    | some data =>
      rw [hdata] at h
      cases h
      have htracks := @trackAsset_tracks env pool hash data
      rw [trackedName, hdata, Option.bind_some]
      split at htracks
      · rename_i hnew
        rw [if_pos hnew]
        exact htracks
      · rename_i hnew
        rw [if_neg hnew]
        exact htracks
  · rename_i hasset
    rw [trackedName_of_no_asset (Bool.eq_false_of_not_eq_true hasset)]
    split at h
    · split at h
      · cases h
        exact Tracks.refl
      · exact trackGlobal_tracks h
    · split at h
      · split at h
        · cases h
          exact Tracks.refl
        · exact trackTag_tracks h
      · cases h
        exact Tracks.refl

theorem filterMap_trackedName_cons (out : CTxOut) (vout : List CTxOut) :
    (out :: vout).filterMap (trackedName env) =
      (trackedName env out).toList ++ vout.filterMap (trackedName env) := by
  rw [List.filterMap_cons]
  cases trackedName env out <;> rfl

theorem trackOutputs_tracks (vout : List CTxOut) :
    ∃ names, (∀ name ∈ names, name ∈ vout.filterMap (trackedName env)) ∧
      Tracks hash names pool (pool.trackOutputs env hash vout).1 ∧
      ((pool.trackOutputs env hash vout).2 = .ok () →
        names = vout.filterMap (trackedName env)) := by
  induction vout generalizing pool with
  | nil => exact ⟨[], fun _ hmem => hmem, Tracks.refl, fun _ => rfl⟩
  | cons out vout ih =>
    rw [trackOutputs, filterMap_trackedName_cons]
    cases hout : pool.trackOutput env hash out with
    | error reason =>
      refine ⟨[], fun name hmem => (nomatch hmem), Tracks.refl, fun hok => ?_⟩
      cases hok
    | ok pool₁ =>
      obtain ⟨names, hsub, htracks, hall⟩ := @ih pool₁
      refine ⟨(trackedName env out).toList ++ names, fun name hmem => ?_,
        (trackOutput_tracks hout).trans htracks, fun hok => ?_⟩
      · rcases List.mem_append.1 hmem with hmem | hmem
        · exact List.mem_append_left _ hmem
        · exact List.mem_append_right _ (hsub name hmem)
      · rw [hall hok]

/-! ### The commands -/

variable {live : uint256 → Prop}

theorem trackAsset_commands (data : CAssetOutputEntry) (hcommands : pool.CommandsExact live)
    (hlive : live hash) : (pool.trackAsset env hash data).CommandsExact live := by
  rw [trackAsset]
  cases data.type == .TX_NEW_ASSET && !isAssetNameAnOwner data.assetName with
  | true =>
    cases env.dep.areRestrictedAssetsDeployed && isAssetNameAnRestricted data.assetName with
    | true =>
      exact { hcommands with
        addressesQualifiersChanged := hcommands.addressesQualifiersChanged.link hlive
        assetVerifierChanged := hcommands.assetVerifierChanged.link hlive }
    | false => exact { hcommands with }
  | false =>
    cases env.dep.areRestrictedAssetsDeployed && isAssetNameAnRestricted data.assetName with
    | true =>
      exact { hcommands with
        addressesQualifiersChanged := hcommands.addressesQualifiersChanged.link hlive
        assetVerifierChanged := hcommands.assetVerifierChanged.link hlive }
    | false => exact hcommands

theorem trackGlobal_commands
    (h : pool.trackGlobal hash data = .ok pool') (hcommands : pool.CommandsExact live)
    (hlive : live hash) : pool'.CommandsExact live := by
  rw [trackGlobal] at h
  split at h
  · split at h
    · cases h
    · cases h
      exact { hcommands with
        globalFreezingAssetTransactions :=
          hcommands.globalFreezingAssetTransactions.link hlive }
  · split at h
    · split at h
      · cases h
      · cases h
        exact { hcommands with
          globalUnFreezingAssetTransactions :=
            hcommands.globalUnFreezingAssetTransactions.link hlive }
    · cases h
      exact hcommands

theorem trackTag_commands {address : Bytes}
    (h : pool.trackTag hash data address = .ok pool') (hcommands : pool.CommandsExact live)
    (hlive : live hash) : pool'.CommandsExact live := by
  rw [trackTag] at h
  split at h
  · cases h
    exact hcommands
  · split at h
    · split at h
      · cases h
      · cases h
        exact { hcommands with addressAddedTag := hcommands.addressAddedTag.link hlive }
    · split at h
      · cases h
      · cases h
        exact { hcommands with addressRemoveTag := hcommands.addressRemoveTag.link hlive }

theorem trackOutput_commands (h : pool.trackOutput env hash out = .ok pool')
    (hcommands : pool.CommandsExact live) (hlive : live hash) : pool'.CommandsExact live := by
  rw [trackOutput] at h
  split at h
  · split at h
    · cases h
      exact hcommands
    · cases h
      exact trackAsset_commands _ hcommands hlive
  · split at h
    · split at h
      · cases h
        exact hcommands
      · exact trackGlobal_commands h hcommands hlive
    · split at h
      · split at h
        · cases h
          exact hcommands
        · exact trackTag_commands h hcommands hlive
      · cases h
        exact hcommands

theorem trackOutputs_commands {vout : List CTxOut}
    (h : pool.trackOutputs env hash vout = (pool', .ok ())) (hcommands : pool.CommandsExact live)
    (hlive : live hash) : pool'.CommandsExact live := by
  induction vout generalizing pool with
  | nil =>
    cases h
    exact hcommands
  | cons out vout ih =>
    rw [trackOutputs] at h
    cases hout : pool.trackOutput env hash out with
    | error reason =>
      rw [hout] at h
      cases h
    | ok pool₁ =>
      rw [hout] at h
      exact ih h (trackOutput_commands hout hcommands hlive)

theorem trackOutputs_spec {vout : List CTxOut}
    (h : pool.trackOutputs env hash vout = (pool', .ok ()))
    (hcommands : pool.CommandsExact live) (hlive : live hash) :
    pool'.CommandsExact live ∧ Tracks hash (vout.filterMap (trackedName env)) pool pool' := by
  obtain ⟨names, -, htracks, hall⟩ := @trackOutputs_tracks env pool hash vout
  rw [h] at htracks hall
  rw [← hall rfl]
  exact ⟨trackOutputs_commands h hcommands hlive, htracks⟩

variable {coinsTip : CCoinsView}

theorem trackInputs_tracks (vin : List CTxIn) :
    Tracks hash [] pool (vin.foldl (trackInput env hash coinsTip) pool) := by
  induction vin generalizing pool with
  | nil => exact Tracks.refl
  | cons txin vin ih =>
    have hstep : Tracks hash [] pool (trackInput env hash coinsTip pool txin) := by
      rw [trackInput]
      split
      · exact Tracks.refl
      · split
        · exact Tracks.refl
        · split
          · exact ⟨rfl, rfl, rfl, rfl, rfl⟩
          · exact Tracks.refl
    exact hstep.trans ih

theorem trackInputs_commands (vin : List CTxIn)
    (hcommands : pool.CommandsExact live) (hlive : live hash) :
    (vin.foldl (trackInput env hash coinsTip) pool).CommandsExact live := by
  induction vin generalizing pool with
  | nil => exact hcommands
  | cons txin vin ih =>
    refine ih ?_
    rw [trackInput]
    split
    · exact hcommands
    · split
      · exact hcommands
      · split
        · exact { hcommands with
            assetMarkedGlobalFrozen := hcommands.assetMarkedGlobalFrozen.link hlive
            addressesMarkedFrozen := hcommands.addressesMarkedFrozen.link hlive }
        · exact hcommands

/-! ## Names -/

def trackedNames (env : Env) (tx : CTransaction) : List Bytes := tx.vout.filterMap (trackedName env)

theorem trackedName_dep (dep : Deployments) (out : CTxOut) :
    trackedName { env with dep := dep } out = trackedName env out := by
  rw [trackedName, trackedName, getAssetData, getAssetData]
  cases out.scriptPubKey.isAssetScript with
  | none => rfl
  | some t =>
    obtain ⟨nType, fIsOwner, i⟩ := t
    cases nType with
    | TX_NEW_ASSET => cases fIsOwner <;> rfl
    | TX_TRANSFER_ASSET =>
      simp only [Option.bind_map]
      have hnone : ∀ o : Option (WithAddress CAssetTransfer), (o.bind fun e =>
          if (txnouttype.TX_TRANSFER_ASSET == .TX_NEW_ASSET) && !isAssetNameAnOwner e.1.strName
          then some e.1.strName else none) = none := by
        intro o
        cases o <;> rfl
      exact (hnone _).trans (hnone _).symm
    | _ => rfl

theorem trackedName_of_assetFromScript {record : WithAddress CNewAsset}
    (h : assetFromScript env out.scriptPubKey = some record)
    (howner : isAssetNameAnOwner record.1.strName = false) :
    trackedName env out = some record.1.strName := by
  obtain ⟨i, hi, -⟩ := recordFromScript_eq_some h
  rw [trackedName, getAssetData, assetDataIndex_eq_some hi]
  simp only [h, Option.map_some, Option.bind_some, beq_self_eq_true, Bool.true_and, howner,
    Bool.not_false, if_true]

theorem trackedNames_of_issuedNames {name : Bytes}
    {fCheckDuplicateInputs fMempoolCheck fBlockCheck : Bool}
    (h : checkTransaction env tx fCheckDuplicateInputs fMempoolCheck fBlockCheck = .ok ())
    (hname : name ∈ issuedNames env tx) : name ∈ trackedNames env tx := by
  obtain ⟨record, hrecord, rfl⟩ := (mem_issuedNames h).1 hname
  have hcheck := checkNewAsset_of_newRecords h record hrecord
  simp only [checkNewAsset, demand_bind, require_bind] at hcheck
  obtain ⟨-, -, -, -, -, -, -, -, howner, -⟩ := hcheck
  rw [Bool.not_eq_true'] at howner
  simp only [issuedNames, List.mem_filterMap, Option.map_eq_some_iff] at hname
  obtain ⟨out, hout, record', hrecord', heq⟩ := hname
  refine List.mem_filterMap.2 ⟨out, hout, ?_⟩
  rw [← heq] at howner ⊢
  exact trackedName_of_assetFromScript hrecord' howner

theorem reissuedNames_length
    {fCheckDuplicateInputs fMempoolCheck fBlockCheck : Bool}
    (h : checkTransaction env tx fCheckDuplicateInputs fMempoolCheck fBlockCheck = .ok ()) :
    reissuedNames env tx = [] ∨ ∃ name, reissuedNames env tx = [name] := by
  have hcount := countReissues_le_one h
  rw [countOutputs_eq] at hcount
  have hlength : ∀ l : List CTxOut, (l.filterMap fun out =>
      (reissueAssetFromScript env out.scriptPubKey).map fun record => record.1.strName).length ≤
        l.countP fun out =>
          (out.scriptPubKey.assetDataIndex .TX_REISSUE_ASSET false).isSome := by
    intro l
    induction l with
    | nil => exact Nat.le_refl _
    | cons out l ih =>
      rw [List.filterMap_cons, List.countP_cons]
      cases hrec : reissueAssetFromScript env out.scriptPubKey with
      | none =>
        rw [Option.map_none]
        exact ih.trans (Nat.le_add_right _ _)
      | some record =>
        have hsome := isSome_of_reissueAssetFromScript hrec
        rw [CScript.isScriptReissueAsset] at hsome
        rw [Option.map_some, hsome, if_pos rfl]
        exact Nat.succ_le_succ ih
  have hle := (hlength tx.vout).trans hcount
  rw [reissuedNames]
  rcases Nat.le_one_iff_eq_zero_or_eq_one.1 hle with hzero | hone
  · exact Or.inl (List.length_eq_zero_iff.1 hzero)
  · exact Or.inr (List.length_eq_one_iff.1 hone)

section Scan

variable {st : AssetState} {cache : CAssetsCache} {m : StdMap Bytes uint256} {tx : CTransaction}
  {view : CCoinsView}

theorem scanAssetOutput_vPair {s s' : AssetScan} {out : CTxOut}
    (hnot : ∀ name, m.find? name ≠ some tx.hash)
    (h : scanAssetOutput env st cache m tx s out = .ok s') :
    s'.vPairReissueAssets = s.vPairReissueAssets ++
        ((reissueAssetFromScript env out.scriptPubKey).toList.map fun record =>
          (record.1.strName, tx.hash)) ∧
      ∀ record ∈ reissueAssetFromScript env out.scriptPubKey,
        m.find? record.1.strName = none := by
  have hother : out.scriptPubKey.isAssetScript.map AssetScriptType.nType ≠
      some .TX_REISSUE_ASSET → reissueAssetFromScript env out.scriptPubKey = none := by
    intro hne
    cases hrec : reissueAssetFromScript env out.scriptPubKey with
    | none => rfl
    | some record =>
      obtain ⟨i, hi, -⟩ := recordFromScript_eq_some hrec
      rw [assetDataIndex_eq_some hi] at hne
      exact absurd rfl hne
  simp only [scanAssetOutput, require_bind, onlyIf_bind] at h
  obtain ⟨-, -, h⟩ := h
  split at h
  · rename_i htype
    rw [hother (by rw [htype]; simp)]
    simp only [scanTransferOutput, demand_bind, unit_bind, pure_ok] at h
    obtain ⟨record, -, -, -, rfl⟩ := h
    simp
  · simp only [scanReissue, demand_bind] at h
    obtain ⟨record, hrec, h⟩ := h
    rw [hrec]
    cases hfind : m.find? record.1.strName with
    | some hash =>
      simp only [hfind] at h
      split at h
      · rename_i hhash
        rw [hhash] at hfind
        exact absurd hfind (hnot _)
      · cases h
    | none =>
      simp only [hfind, pure_ok] at h
      subst h
      simpa using hfind
  · rename_i hne
    rw [hother hne]
    cases h
    simp

theorem foldlM_scanAssetOutput_vPair {l : List CTxOut} {s s' : AssetScan}
    (hnot : ∀ name, m.find? name ≠ some tx.hash)
    (h : l.foldlM (scanAssetOutput env st cache m tx) s = .ok s') :
    s'.vPairReissueAssets = s.vPairReissueAssets ++
        ((l.filterMap fun out => (reissueAssetFromScript env out.scriptPubKey).map fun record =>
          record.1.strName).map fun name => (name, tx.hash)) ∧
      ∀ out ∈ l, ∀ record ∈ reissueAssetFromScript env out.scriptPubKey,
        m.find? record.1.strName = none := by
  induction l generalizing s with
  | nil =>
    cases h
    simp
  | cons out l ih =>
    rw [List.foldlM_cons, bind_ok] at h
    obtain ⟨s₁, h₁, h⟩ := h
    obtain ⟨hpairs₁, hfind₁⟩ := scanAssetOutput_vPair hnot h₁
    obtain ⟨hpairs, hfind⟩ := ih h
    refine ⟨?_, List.forall_mem_cons.2 ⟨hfind₁, hfind⟩⟩
    rw [hpairs, hpairs₁, List.append_assoc, List.filterMap_cons]
    cases reissueAssetFromScript env out.scriptPubKey <;> rfl

theorem vPair_of_checkTxAssets {names : Option (StdMap Bytes uint256)}
    {v : List (Bytes × uint256)} (hnot : ∀ name, m.find? name ≠ some tx.hash)
    (h : checkTxAssets env st cache tx view names m = .ok v) :
    v = ((reissuedNames env tx).map fun name => (name, tx.hash)) ∧
      ∀ name ∈ reissuedNames env tx, m.find? name = none := by
  obtain ⟨-, totalInputs, -, s, hscan, -, -, rfl⟩ := checkTxAssets_ok.1 h
  obtain ⟨hpairs, hfind⟩ := foldlM_scanAssetOutput_vPair hnot hscan
  refine ⟨hpairs, fun name hname => ?_⟩
  simp only [reissuedNames, List.mem_filterMap, Option.map_eq_some_iff] at hname
  obtain ⟨out, hout, record, hrecord, rfl⟩ := hname
  exact hfind out hout record hrecord

end Scan

/-! ## Accepting -/

section Accept

variable {ctx : AcceptContext} {tx : CTransaction} {v : List (Bytes × uint256)}

theorem checkAccept_ok (h : pool.checkAccept env ctx tx = .ok v) :
    checkTransaction env tx true true false = .ok () ∧ pool.mapTx.count tx.hash = false ∧
      (env.dep.areAssetsDeployed = true → checkTxAssets env ctx.st .empty tx
        (pool.view ctx.coinsTip) (some pool.mapAssetToHash) pool.mapReissuedAssets = .ok v) ∧
      (env.dep.areAssetsDeployed = false → v = [] ∧
        ∀ out ∈ tx.vout, out.scriptPubKey.isAssetScript.isSome = false) := by
  rw [checkAccept, unit_bind] at h
  obtain ⟨htx, h⟩ := h
  simp only [require_bind, Bool.not_eq_true'] at h
  obtain ⟨-, hnew, -, h⟩ := h
  obtain ⟨fees, -, h⟩ := bind_ok.1 h
  simp only [onlyIf_bind, Bool.not_eq_true', require_ok, List.all_eq_true] at h
  obtain ⟨hinactive, h⟩ := h
  refine ⟨htx, hnew, fun hdep => ?_, fun hdep => ⟨?_, hinactive hdep⟩⟩
  · rw [if_pos hdep] at h
    obtain ⟨v', hassets, h⟩ := bind_ok.1 h
    simp only [require_bind, pure_ok] at h
    rw [← h.2]
    exact hassets
  · rw [hdep, if_neg Bool.false_ne_true] at h
    obtain ⟨v', hassets, h⟩ := bind_ok.1 h
    simp only [require_bind, pure_ok] at h
    rw [← h.2]
    exact (Except.ok.inj hassets).symm

theorem Exact.addUnchecked (h : pool.Exact env) (hnew : ¬pool.Live tx.hash) :
    (pool.addUnchecked tx).ExactBut env (fun hash => hash = tx.hash)
      fun hash => hash = tx.hash := by
  have hne : ∀ {hash tx'}, pool.mapTx.find? hash = some tx' → hash ≠ tx.hash := by
    rintro hash tx' hfind rfl
    exact hnew (count_of_find? hfind)
  have hold : ∀ {hash}, hash ≠ tx.hash →
      (pool.addUnchecked tx).mapTx.find? hash = pool.mapTx.find? hash :=
    fun hhash => find?_assign_ne hhash
  have hlive : ∀ hash, pool.Live hash → (pool.addUnchecked tx).Live hash := by
    intro hash hlive
    rw [Live, CTxMemPool.addUnchecked, count_assign, Bool.or_eq_true]
    exact Or.inr hlive
  exact {
    keyed := fun hash tx' hfind => by
      by_cases hhash : hash = tx.hash
      · subst hhash
        rw [CTxMemPool.addUnchecked, find?_assign_self] at hfind
        rw [← Option.some.inj hfind]
      · rw [hold hhash] at hfind
        exact h.keyed hash tx' hfind
    names := h.names
    named := fun name hash hname => by
      obtain ⟨halive, -⟩ := h.named name hash hname
      refine ⟨hlive hash halive, ?_⟩
      rintro rfl
      exact hnew halive
    issued := fun hash tx' hfind hhash => by
      rw [hold hhash] at hfind
      exact h.issued hash tx' hfind not_false
    reissues := h.reissues
    reissued := fun name hash => by
      refine (h.reissued name hash).trans ?_
      constructor
      · rintro ⟨⟨tx', hfind, hname⟩, -⟩
        exact ⟨⟨tx', by rw [hold (hne hfind)]; exact hfind, hname⟩, hne hfind⟩
      · rintro ⟨⟨tx', hfind, hname⟩, hhash⟩
        rw [hold hhash] at hfind
        exact ⟨⟨tx', hfind, hname⟩, not_false⟩
    commands := { h.commands.mono hlive with } }

theorem ExactBut.addReissues (h : pool.ExactBut env untracked fun hash => hash = tx.hash)
    (htx : pool.mapTx.find? tx.hash = some tx)
    (hone : reissuedNames env tx = [] ∨ ∃ name, reissuedNames env tx = [name])
    (hnone : ∀ name ∈ reissuedNames env tx, pool.mapReissuedAssets.find? name = none) :
    (pool.addReissues ((reissuedNames env tx).map fun name => (name, tx.hash))).ExactBut env
      untracked fun _ => False := by
  have hhash : pool.mapReissuedTx.find? tx.hash = none := by
    cases hfind : pool.mapReissuedTx.find? tx.hash with
    | none => rfl
    | some name =>
      exact absurd rfl ((h.reissued name tx.hash).1 ((h.reissues name tx.hash).2 hfind)).2
  rcases hone with hnil | ⟨name, hname⟩
  · rw [hnil]
    exact { h with
      commands := { h.commands with }
      reissued := fun name hash => by
        refine (h.reissued name hash).trans ?_
        constructor
        · rintro ⟨hfound, -⟩
          exact ⟨hfound, not_false⟩
        · rintro ⟨⟨tx', hfind, hmem⟩, -⟩
          refine ⟨⟨tx', hfind, hmem⟩, ?_⟩
          rintro rfl
          have hsame : tx = tx' := Option.some.inj (htx.symm.trans hfind)
          rw [← hsame, hnil] at hmem
          cases hmem }
  · have hfree := hnone name (by rw [hname]; exact List.mem_singleton_self name)
    have hassets : pool.mapReissuedAssets.emplace name tx.hash =
        pool.mapReissuedAssets.assign name tx.hash := by
      rw [StdMap.emplace, count_eq_false.2 hfree, if_neg Bool.false_ne_true]
    have htxs : pool.mapReissuedTx.emplace tx.hash name =
        pool.mapReissuedTx.assign tx.hash name := by
      rw [StdMap.emplace, count_eq_false.2 hhash, if_neg Bool.false_ne_true]
    have hadd : pool.addReissues [(name, tx.hash)] = { pool with
        mapReissuedAssets := pool.mapReissuedAssets.assign name tx.hash
        mapReissuedTx := pool.mapReissuedTx.assign tx.hash name } := by
      rw [← hassets, ← htxs]
      rfl
    rw [hname, List.map_cons, List.map_nil, hadd]
    exact { h with
      commands := { h.commands with }
      reissues := h.reissues.assign hfree hhash
      reissued := fun name' hash => by
        have hassign : (pool.mapReissuedAssets.assign name tx.hash).find? name' = some hash ↔
            (name' = name ∧ hash = tx.hash) ∨ pool.mapReissuedAssets.find? name' = some hash := by
          rw [find?_assign]
          by_cases heq : name' = name
          · subst heq
            rw [if_pos rfl, hfree]
            simp [eq_comm]
          · simp [heq]
        refine hassign.trans ?_
        rw [h.reissued name' hash]
        constructor
        · rintro (⟨rfl, rfl⟩ | ⟨hfound, -⟩)
          · exact ⟨⟨tx, htx, by rw [hname]; exact List.mem_singleton_self _⟩, not_false⟩
          · exact ⟨hfound, not_false⟩
        · rintro ⟨⟨tx', hfind, hmem⟩, -⟩
          by_cases heq : hash = tx.hash
          · subst heq
            have hsame : tx = tx' := Option.some.inj (htx.symm.trans hfind)
            rw [← hsame, hname] at hmem
            exact Or.inl ⟨List.mem_singleton.1 hmem, rfl⟩
          · exact Or.inr ⟨⟨tx', hfind, hmem⟩, heq⟩ }

theorem find?_foldl_assign {κ ρ : Type} [DecidableEq κ] {names : List Bytes} {name : Bytes}
    {g : Bytes → κ} {w : Bytes → ρ} {m : StdMap κ ρ} {k : κ} (hmem : name ∈ names)
    (hall : ∀ name' ∈ names, name' = name) :
    (names.foldl (fun m name' => m.assign (g name') (w name')) m).find? k =
      (m.assign (g name) (w name)).find? k := by
  have hrest : ∀ (l : List Bytes) (m : StdMap κ ρ), (∀ name' ∈ l, name' = name) →
      (l.foldl (fun m name' => m.assign (g name') (w name')) m).find? k =
        if l = [] then m.find? k else (m.assign (g name) (w name)).find? k := by
    intro l
    induction l with
    | nil => exact fun m _ => rfl
    | cons name' l ih =>
      intro m hl
      rw [List.forall_mem_cons] at hl
      rw [List.foldl_cons, ih _ hl.2, hl.1, if_neg (List.cons_ne_nil name l)]
      simp only [find?_assign]
      by_cases hk : k = g name <;> simp [hk]
  rw [hrest names m hall, if_neg (List.ne_nil_of_mem hmem)]

theorem ExactBut.track {names : List Bytes}
    (h : pool.ExactBut env (fun hash => hash = tx.hash) fun _ => False)
    (htracks : Tracks tx.hash names pool pool') (hcommands : pool'.CommandsExact pool.Live)
    (htx : pool.mapTx.find? tx.hash = some tx) (hone : ∀ a ∈ names, ∀ b ∈ names, a = b)
    (hfree : ∀ name ∈ names, pool.mapAssetToHash.find? name = none)
    (hissued : ∀ name ∈ issuedNames env tx, name ∈ names) : pool'.Exact env := by
  have hunnamed : pool.mapHashToAsset.find? tx.hash = none := by
    cases hfind : pool.mapHashToAsset.find? tx.hash with
    | none => rfl
    | some name => exact absurd rfl (h.named name tx.hash ((h.names name tx.hash).2 hfind)).2
  have hlive : pool'.Live = pool.Live := by
    funext hash
    rw [Live, Live, htracks.mapTx]
  -- What the maps of the names hold, whether there is a name or not.
  have hnames : Inverse pool'.mapAssetToHash pool'.mapHashToAsset ∧
      ∀ name hash, pool'.mapAssetToHash.find? name = some hash ↔
        (name ∈ names ∧ hash = tx.hash) ∨ pool.mapAssetToHash.find? name = some hash := by
    rw [htracks.mapAssetToHash, htracks.mapHashToAsset]
    cases hcase : names with
    | nil => exact ⟨h.names, fun name hash => by simp⟩
    | cons name rest =>
      rw [hcase] at hone hfree
      have hmem : name ∈ name :: rest := List.mem_cons_self
      have hall : ∀ name' ∈ name :: rest, name' = name := fun name' hname' =>
        hone name' hname' name hmem
      have hinverse := h.names.assign (hfree name hmem) hunnamed
      have hassets : ∀ k, ((name :: rest).foldl (fun m name' => m.assign name' tx.hash)
          pool.mapAssetToHash).find? k = (pool.mapAssetToHash.assign name tx.hash).find? k :=
        fun k => find?_foldl_assign (g := fun name' => name') (w := fun _ => tx.hash) hmem hall
      have hhashes : ∀ k, ((name :: rest).foldl (fun m name' => m.assign tx.hash name')
          pool.mapHashToAsset).find? k = (pool.mapHashToAsset.assign tx.hash name).find? k :=
        fun k => find?_foldl_assign (g := fun _ => tx.hash) (w := fun name' => name') hmem hall
      refine ⟨fun name' hash => ?_, fun name' hash => ?_⟩
      · rw [hassets, hhashes]
        exact hinverse name' hash
      · rw [hassets, find?_assign]
        by_cases hname : name' = name
        · subst hname
          rw [if_pos rfl, hfree name' hmem]
          simp [eq_comm]
        · rw [if_neg hname]
          have hnot : name' ∉ name :: rest := fun hmem' => hname (hall name' hmem')
          simp [hnot]
  exact {
    keyed := fun hash tx' hfind => by
      rw [htracks.mapTx] at hfind
      exact h.keyed hash tx' hfind
    names := hnames.1
    named := fun name hash hname => by
      rw [hlive]
      rcases (hnames.2 name hash).1 hname with ⟨-, rfl⟩ | hold
      · exact ⟨count_of_find? htx, not_false⟩
      · exact ⟨(h.named name hash hold).1, not_false⟩
    issued := fun hash tx' hfind _ name hname => by
      rw [htracks.mapTx] at hfind
      refine (hnames.2 name hash).2 ?_
      by_cases hhash : hash = tx.hash
      · subst hhash
        have hsame : tx = tx' := Option.some.inj (htx.symm.trans hfind)
        rw [← hsame] at hname
        exact Or.inl ⟨hissued name hname, rfl⟩
      · exact Or.inr (h.issued hash tx' hfind hhash name hname)
    reissues := by
      rw [htracks.mapReissuedAssets, htracks.mapReissuedTx]
      exact h.reissues
    reissued := fun name hash => by
      rw [htracks.mapReissuedAssets, htracks.mapTx]
      exact h.reissued name hash
    commands := by
      rw [hlive]
      exact hcommands }

theorem mapAssetToHash_removeStaged {stage : List uint256} {name : Bytes}
    (h : (pool.removeStaged stage).mapAssetToHash.find? name = some hash) :
    pool.mapAssetToHash.find? name = some hash := by
  induction stage generalizing pool with
  | nil => exact h
  | cons hash' stage ih =>
    have hone := ih h
    obtain ⟨f, g, hreissue⟩ :=
      freeReissue_frame { pool with mapTx := pool.mapTx.erase hash' } hash'
    rw [removeUnchecked, hreissue, freeCommands, freeAsset] at hone
    split at hone
    · exact hone
    · simp only [find?_erase] at hone
      split at hone
      · cases hone
      · exact hone

def stored (pool : CTxMemPool) (ctx : AcceptContext) (tx : CTransaction) : CTxMemPool :=
  ((pool.removeStaged ctx.allConflicting).addUnchecked tx).removeStaged ctx.trimmed

theorem acceptToMemoryPool_ok (h : pool.acceptToMemoryPool env ctx tx = (pool', .ok ())) :
    ∃ v pool₁, pool.checkAccept env ctx tx = .ok v ∧ (pool.stored ctx tx).Live tx.hash ∧
      (if env.dep.areAssetsDeployed then
        ((pool.stored ctx tx).addReissues v).trackOutputs env tx.hash tx.vout
      else ((pool.stored ctx tx).addReissues v, .ok ())) = (pool₁, .ok ()) ∧
      pool' = if env.dep.areRestrictedAssetsDeployed then
          tx.vin.foldl (trackInput env tx.hash ctx.coinsTip) pool₁
        else pool₁ := by
  rw [acceptToMemoryPool] at h
  cases hcheck : pool.checkAccept env ctx tx with
  | error reason =>
    rw [hcheck] at h
    cases h
  | ok v =>
    rw [hcheck] at h
    have hstored : ((pool.removeStaged ctx.allConflicting).addUnchecked tx).removeStaged
        ctx.trimmed = pool.stored ctx tx := rfl
    simp only [hstored] at h
    split at h
    · cases h
    · rename_i hcount
      cases htracked : (if env.dep.areAssetsDeployed then
        ((pool.stored ctx tx).addReissues v).trackOutputs env tx.hash tx.vout
        else ((pool.stored ctx tx).addReissues v, .ok ())) with
      | mk pool₁ verdict =>
        rw [htracked] at h
        cases verdict with
        | error reason => cases h
        | ok u =>
          refine ⟨v, pool₁, rfl, ?_, htracked, (Prod.mk.inj h).1.symm⟩
          rw [Live]
          simpa using hcount

theorem find?_stored {tx' : CTransaction} (hne : hash ≠ tx.hash)
    (h : (pool.stored ctx tx).mapTx.find? hash = some tx') :
    pool.mapTx.find? hash = some tx' ∧ hash ∉ ctx.allConflicting ∧ hash ∉ ctx.trimmed := by
  rw [stored, mapTx_removeStaged] at h
  split at h
  · cases h
  · rename_i htrimmed
    have hadd : ((pool.removeStaged ctx.allConflicting).addUnchecked tx).mapTx.find? hash =
        (pool.removeStaged ctx.allConflicting).mapTx.find? hash := find?_assign_ne hne
    rw [hadd, mapTx_removeStaged] at h
    split at h
    · cases h
    · rename_i hconflicting
      exact ⟨h, hconflicting, htrimmed⟩

/-- One name at most is tracked, and no transaction that stays has it. -/
structure OneName (env : Env) (pool : CTxMemPool) (ctx : AcceptContext) (tx : CTransaction) :
    Prop where
  one : ∀ a ∈ trackedNames env tx, ∀ b ∈ trackedNames env tx, a = b
  free : ∀ name ∈ trackedNames env tx, ∀ hash, pool.mapAssetToHash.find? name = some hash →
    hash ∈ ctx.allConflicting ∨ hash ∈ ctx.trimmed

theorem Exact.stored (h : pool.Exact env)
    (htags : ∀ hash ∈ ctx.allConflicting ++ ctx.trimmed, pool.Untagged hash)
    (hnew : pool.mapTx.count tx.hash = false) :
    (pool.stored ctx tx).ExactBut env (fun hash => hash = tx.hash)
      fun hash => hash = tx.hash := by
  simp only [List.mem_append] at htags
  have h₁ : (pool.removeStaged ctx.allConflicting).Exact env :=
    h.removeStaged fun hash hmem => htags hash (Or.inl hmem)
  have hnew₁ : ¬(pool.removeStaged ctx.allConflicting).Live tx.hash := by
    intro hlive
    rw [Live, count_eq_true] at hlive
    obtain ⟨tx', hfind⟩ := hlive
    rw [mapTx_removeStaged, count_eq_false.1 hnew, ite_self] at hfind
    cases hfind
  refine (h₁.addUnchecked hnew₁).removeStaged fun hash hmem => ?_
  exact untagged_removeStaged.2 (htags hash (Or.inr hmem))

theorem reissuedNames_env : reissuedNames (ctx.env env) tx = reissuedNames env tx := rfl

theorem trackedNames_env : trackedNames (ctx.env env) tx = trackedNames env tx :=
  List.filterMap_congr fun out _ => trackedName_dep ctx.dep out

theorem Exact.collected (h : pool.Exact env)
    (hcheck : pool.checkAccept (ctx.env env) ctx tx = .ok v) :
    v = ((reissuedNames env tx).map fun name => (name, tx.hash)) ∧
      ∀ name ∈ reissuedNames env tx, pool.mapReissuedAssets.find? name = none := by
  obtain ⟨-, hnew, hactive, hinactive⟩ := checkAccept_ok hcheck
  cases hdep : (ctx.env env).dep.areAssetsDeployed with
  | true =>
    have hnot : ∀ name, pool.mapReissuedAssets.find? name ≠ some tx.hash := by
      intro name hsome
      obtain ⟨⟨tx', hfind', -⟩, -⟩ := (h.reissued name tx.hash).1 hsome
      rw [count_of_find? hfind'] at hnew
      cases hnew
    have hpairs := vPair_of_checkTxAssets hnot (hactive hdep)
    rw [reissuedNames_env] at hpairs
    exact hpairs
  | false =>
    obtain ⟨rfl, hnone⟩ := hinactive hdep
    have hnil : reissuedNames env tx = [] := by
      rw [reissuedNames, List.filterMap_eq_nil_iff]
      intro out hout
      cases hrec : reissueAssetFromScript env out.scriptPubKey with
      | none => rfl
      | some record =>
        obtain ⟨i, hi, -⟩ := recordFromScript_eq_some hrec
        have hasset := hnone out hout
        rw [assetDataIndex_eq_some hi] at hasset
        cases hasset
    rw [hnil]
    exact ⟨rfl, List.forall_mem_nil _⟩

theorem addReissues_frame (l : List (Bytes × uint256)) :
    (pool.addReissues l).mapTx = pool.mapTx ∧
      (pool.addReissues l).mapAssetToHash = pool.mapAssetToHash := by
  induction l generalizing pool with
  | nil => exact ⟨rfl, rfl⟩
  | cons out l ih => exact ih

theorem trackOutputs_accept {pool₁ : CTxMemPool}
    (hcheck : pool.checkAccept (ctx.env env) ctx tx = .ok v)
    (htracked : (if (ctx.env env).dep.areAssetsDeployed then
        pool'.trackOutputs (ctx.env env) tx.hash tx.vout
      else (pool', .ok ())) = (pool₁, .ok ()))
    (hcommands : pool'.CommandsExact live) (hlive : live tx.hash) :
    pool₁.CommandsExact live ∧ Tracks tx.hash (trackedNames env tx) pool' pool₁ := by
  obtain ⟨-, -, -, hinactive⟩ := checkAccept_ok hcheck
  rw [← trackedNames_env]
  split at htracked
  · exact trackOutputs_spec htracked hcommands hlive
  · rename_i hdep
    obtain rfl := (Prod.mk.inj htracked).1
    have hnil : trackedNames (ctx.env env) tx = [] :=
      List.filterMap_eq_nil_iff.2 fun out hout => trackedName_of_no_asset
        ((hinactive (Bool.eq_false_of_not_eq_true hdep)).2 out hout)
    rw [hnil]
    exact ⟨hcommands, Tracks.refl⟩

theorem Exact.free (h : pool.Exact env)
    (htags : ∀ hash ∈ ctx.allConflicting ++ ctx.trimmed, pool.Untagged hash)
    (hnew : pool.mapTx.count tx.hash = false) (hname : OneName env pool ctx tx) :
    ∀ name ∈ trackedNames env tx, (pool.stored ctx tx).mapAssetToHash.find? name = none := by
  intro name hmem
  cases hsome : (pool.stored ctx tx).mapAssetToHash.find? name with
  | none => rfl
  | some hash =>
    obtain ⟨halive, hne⟩ := (h.stored htags hnew).named name hash hsome
    obtain ⟨tx', hfind'⟩ := count_eq_true.1 halive
    obtain ⟨-, hconflicting, htrimmed⟩ := find?_stored hne hfind'
    have hadded : ((pool.removeStaged ctx.allConflicting).addUnchecked tx).mapAssetToHash.find?
        name = some hash := mapAssetToHash_removeStaged hsome
    have hold : pool.mapAssetToHash.find? name = some hash := mapAssetToHash_removeStaged hadded
    rcases hname.free name hmem hash hold with hmem' | hmem'
    · exact absurd hmem' hconflicting
    · exact absurd hmem' htrimmed

/-- **Accepting a transaction** with one new name, or none, keeps the indexes exact. -/
theorem Exact.accept (h : pool.Exact env)
    (haccept : pool.acceptToMemoryPool (ctx.env env) ctx tx = (pool', .ok ()))
    (htags : ∀ hash ∈ ctx.allConflicting ++ ctx.trimmed, pool.Untagged hash)
    (hname : OneName env pool ctx tx) : pool'.Exact env := by
  obtain ⟨v, pool₁, hcheck, hlive, htracked, rfl⟩ := acceptToMemoryPool_ok haccept
  obtain ⟨htx, hnew, -, -⟩ := checkAccept_ok hcheck
  have hstored := h.stored htags hnew
  obtain ⟨rfl, hnone⟩ := h.collected hcheck
  obtain ⟨hmapTx, hassets⟩ := @addReissues_frame (pool.stored ctx tx)
    ((reissuedNames env tx).map fun name => (name, tx.hash))
  -- The hash of a transaction that is stored is its own.
  have hfound : (pool.stored ctx tx).mapTx.find? tx.hash = some tx := by
    obtain ⟨tx', hfind⟩ := count_eq_true.1 hlive
    rw [CTxMemPool.stored, mapTx_removeStaged] at hfind ⊢
    split at hfind
    · cases hfind
    · rename_i htrimmed
      rw [if_neg htrimmed]
      exact find?_assign_self _ _ _
  have hlength := reissuedNames_length htx
  rw [reissuedNames_env] at hlength
  have hreissued := hstored.addReissues hfound hlength fun name hmem => by
    cases hsome : (pool.stored ctx tx).mapReissuedAssets.find? name with
    | none => rfl
    | some hash =>
      obtain ⟨⟨tx', hfind', hmem'⟩, hne⟩ := (hstored.reissued name hash).1 hsome
      have hold := (h.reissued name hash).2 ⟨⟨tx', (find?_stored hne hfind').1, hmem'⟩, not_false⟩
      rw [hnone name hmem] at hold
      cases hold
  rw [← hmapTx] at hfound
  have hlive₁ := count_of_find? hfound
  obtain ⟨hcommands, htracks⟩ := trackOutputs_accept hcheck htracked hreissued.commands hlive₁
  have hfree := h.free htags hnew hname
  rw [← hassets] at hfree
  have hissued : ∀ name ∈ issuedNames env tx, name ∈ trackedNames env tx := by
    intro name hmem
    rw [← trackedNames_env]
    exact trackedNames_of_issuedNames htx hmem
  split
  · have hall := htracks.trans
      (@trackInputs_tracks (ctx.env env) pool₁ tx.hash ctx.coinsTip tx.vin)
    rw [List.append_nil] at hall
    exact hreissued.track hall (trackInputs_commands tx.vin hcommands hlive₁) hfound hname.one
      hfree hissued
  · exact hreissued.track htracks hcommands hfound hname.one hfree hissued

end Accept

/-- **Connecting a block** that removes no transaction with a tag keeps the indexes exact. -/
theorem Exact.connectTip {st : AssetState}
    {data : CAssetsCache} {env' : Env} (h : pool.Exact env)
    (htags : ∀ hash ∈ (vtx.foldl CTxMemPool.clearReissue pool).blockRemovals
      (vtx ++ (vtx.foldl CTxMemPool.clearReissue pool).invalidated env' st coinsTip data),
      pool.Untagged hash) :
    (pool.connectTip env' st coinsTip vtx data).Exact env := by
  obtain ⟨f, g, hframe⟩ := clearReissues_frame vtx pool
  have hcleared := @ExactBut.clearReissues _ _ _ _ vtx h
  have huntagged : ∀ hash, pool.Untagged hash →
      (vtx.foldl CTxMemPool.clearReissue pool).Untagged hash := by
    intro hash hhash
    rw [hframe]
    exact hhash
  have hblock : pool.connectTip env' st coinsTip vtx data =
      (vtx ++ (vtx.foldl CTxMemPool.clearReissue pool).invalidated env' st coinsTip data).foldl
        removeForTx (vtx.foldl CTxMemPool.clearReissue pool) := List.foldl_append.symm
  have hexact := hcleared.removeStaged fun hash hmem => huntagged hash (htags hash hmem)
  rw [hblock]
  have hgone : ∀ tx ∈ vtx, ¬((vtx ++ (vtx.foldl CTxMemPool.clearReissue pool).invalidated env' st
      coinsTip data).foldl removeForTx (vtx.foldl CTxMemPool.clearReissue pool)).Live tx.hash :=
    fun tx hmem => not_live_of_foldl_removeForTx (List.mem_append_left _ hmem)
  rw [← foldl_removeForTx_eq] at hexact
  exact { hexact with
    reissued := fun name hash => by
      refine (hexact.reissued name hash).trans (and_congr_right fun hfound => ?_)
      obtain ⟨tx, hfind, -⟩ := hfound
      simp only [false_or, not_false_eq_true, iff_true]
      rintro ⟨tx', hmem, rfl⟩
      exact hgone tx' hmem (count_of_find? hfind) }

end CTxMemPool

def PoolEvent.removals (env : Env) (pool : CTxMemPool) : PoolEvent → List uint256
  | .accept ctx _ => ctx.allConflicting ++ ctx.trimmed
  | .removeUnchecked hash => [hash]
  | .removeForReorg stale =>
    ((pool.txs.filter stale).map CTransaction.hash).foldl pool.calculateDescendants []
  | .connectTip dep st coinsTip vtx data =>
    let pool := vtx.foldl CTxMemPool.clearReissue pool
    pool.blockRemovals (vtx ++ pool.invalidated { env with dep := dep } st coinsTip data)

/-- The step removes no transaction that changes a tag, and accepts none with two new names or
with one that is taken. -/
structure PoolEvent.Regular (env : Env) (pool : CTxMemPool) (e : PoolEvent) : Prop where
  untagged : ∀ hash ∈ e.removals env pool, pool.Untagged hash
  oneName : ∀ ctx tx, e = .accept ctx tx → pool.OneName env ctx tx

theorem poolStep_exact {pool pool' : CTxMemPool} {e : PoolEvent} (h : pool.Exact env)
    (he : e.Regular env pool) (hstep : poolStep env pool e = some pool') : pool'.Exact env := by
  cases e with
  | accept ctx tx =>
    rw [poolStep] at hstep
    split at hstep
    · rename_i haccept
      cases hstep
      exact h.accept haccept he.untagged (he.oneName ctx tx rfl)
    · cases hstep
  | removeUnchecked hash =>
    rw [poolStep] at hstep
    split at hstep
    · cases hstep
      exact h.removeUnchecked (he.untagged hash List.mem_cons_self)
    · cases hstep
  | removeForReorg stale =>
    cases hstep
    exact h.removeStaged he.untagged
  | connectTip dep st coinsTip vtx data =>
    cases hstep
    exact h.connectTip he.untagged

/-- **The indexes are exact** after every run of regular steps. -/
theorem poolIndexes_exact {pool : CTxMemPool} {es : List PoolEvent}
    (halong : (poolMachine env).Along (fun pool e => e.Regular env pool) .empty es)
    (hexec : (poolMachine env).exec .empty es = some pool) : pool.Exact env :=
  Machine.exec_invariant (fun _ _ _ h he hstep => poolStep_exact h he hstep) .empty halong hexec

/-! ### A sub-asset, two unique assets and a tag -/

def acceptAt (st : AssetState) (coinsTip : CCoinsView) (tx : CTransaction) : PoolEvent :=
  .accept ⟨.all, st, coinsTip, 200, fun _ _ => true, [], []⟩ tx

/-- `ROOT/SUB` is issued, and the transaction is removed. -/
def subAssetEvents : List PoolEvent :=
  [acceptAt .genesis rootView subAssetTx, .removeUnchecked subAssetTx.hash]

theorem subAssetEvents_exact : ∃ pool, (poolMachine burnEnv).exec .empty subAssetEvents =
    some pool ∧ pool.Exact burnEnv := by
  have hrun : ((poolMachine burnEnv).exec .empty subAssetEvents).isSome = true := by
    decide +kernel
  obtain ⟨pool, hexec⟩ := Option.isSome_iff_exists.1 hrun
  have halong : (poolMachine burnEnv).Along (fun pool e => e.Regular burnEnv pool) .empty
      subAssetEvents := by
    refine ⟨⟨fun hash hmem => ?_, ?_⟩, fun pool₁ hstep => ?_⟩
    · cases hmem
    · intro ctx tx heq
      obtain ⟨rfl, rfl⟩ := PoolEvent.accept.inj heq
      have hnames : CTxMemPool.trackedNames burnEnv subAssetTx = [ascii "ROOT/SUB"] := by
        decide +kernel
      refine ⟨fun a ha b hb => ?_, fun name _ hash hfind => ?_⟩
      · rw [hnames] at ha hb
        rw [List.mem_singleton.1 ha, List.mem_singleton.1 hb]
      · cases hfind
    · have htags : ((poolMachine burnEnv).step .empty (acceptAt .genesis rootView subAssetTx)).all
          (fun pool => !pool.addressAddedTag.backward.count subAssetTx.hash &&
            !pool.addressRemoveTag.backward.count subAssetTx.hash) = true := by
        decide +kernel
      rw [hstep, Option.all_some, Bool.and_eq_true, Bool.not_eq_true', Bool.not_eq_true'] at htags
      refine ⟨⟨fun hash hmem => ?_, fun ctx tx heq => (nomatch heq)⟩, fun _ _ => trivial⟩
      rw [List.mem_singleton.1 hmem]
      exact htags
  exact ⟨pool, hexec, poolIndexes_exact halong hexec⟩

def uniqueEnv : Env :=
  { tagEnv with
    params :=
      { tagEnv.params with
        strIssueUniqueAssetBurnAddress := ascii "UNAdiGx5PWEsPRiq4jtvgEWPngMi7rkdiG" } }

/-- `ROOT#A` and `ROOT#B`, issued by the owner of `ROOT`. -/
def uniqueTx : CTransaction where
  hash := 8
  vin := [⟨⟨7, 0⟩, []⟩, ⟨⟨7, 1⟩, []⟩]
  vout := [burnOutput (10 * COIN), transferOwnerROOT, newTag "ROOT#A", newTag "ROOT#B"]

/-- The node when `#TAG` is issued. -/
def issuedTags : Option Node :=
  (node tagEnv).exec .genesis
    (connects (coinbaseChain 101) ++ [.connectTip activeContext issueTagsBlock])

/-- `#TAG` is put on key 1. -/
def tagTx : CTransaction where
  hash := 2003
  vin := [⟨⟨2, 0⟩, []⟩, ⟨⟨2002, 1⟩, []⟩]
  vout := [burnOutput 10000000, transferTag "#TAG", tagOutput "#TAG" 1]

def tagEvents (n : Node) : List PoolEvent :=
  [acceptAt n.st n.view tagTx, .removeUnchecked tagTx.hash]

/-- Of two unique assets only one leads back from the hash, and the hash of a tag **stays** in
`mapHashToAddressAddedTag` when the transaction is gone. -/
theorem poolIndexes_stale :
    (∃ pool, (poolMachine uniqueEnv).exec .empty [acceptAt .genesis rootView uniqueTx] =
        some pool ∧ pool.mapAssetToHash.find? (ascii "ROOT#A") = some 8 ∧
        pool.mapHashToAsset.find? 8 = some (ascii "ROOT#B") ∧ ¬pool.Exact uniqueEnv) ∧
      ∃ n pool, issuedTags = some n ∧
        (poolMachine tagEnv).exec .empty (tagEvents n) = some pool ∧
        pool.mapTx.count tagTx.hash = false ∧
        pool.addressAddedTag.backward.count tagTx.hash = true ∧ ¬pool.Exact tagEnv := by
  constructor
  · have hrun : ((poolMachine uniqueEnv).exec .empty [acceptAt .genesis rootView uniqueTx]).map
        (fun pool => (pool.mapAssetToHash.find? (ascii "ROOT#A"),
          pool.mapHashToAsset.find? 8)) = some (some 8, some (ascii "ROOT#B")) := by
      decide +kernel
    obtain ⟨pool, hexec, hmaps⟩ := Option.map_eq_some_iff.1 hrun
    obtain ⟨hasset, hhash⟩ := Prod.mk.inj hmaps
    refine ⟨pool, hexec, hasset, hhash, fun hexact => ?_⟩
    have hback := (hexact.names _ _).1 hasset
    rw [hhash] at hback
    exact absurd (Option.some.inj hback) (by decide)
  · have hrun : (issuedTags.bind fun n => ((poolMachine tagEnv).exec .empty (tagEvents n)).map
        fun pool => (pool.mapTx.count tagTx.hash,
          pool.addressAddedTag.backward.count tagTx.hash)) = some (false, true) := by
      rw [issuedTags, exec_coinbaseChain ⟨rfl, rfl⟩ (by decide)]
      decide +kernel
    obtain ⟨n, hn, hpool⟩ := Option.bind_eq_some_iff.1 hrun
    obtain ⟨pool, hexec, hcounts⟩ := Option.map_eq_some_iff.1 hpool
    obtain ⟨hgone, hstays⟩ := Prod.mk.inj hcounts
    refine ⟨n, pool, hn, hexec, hgone, hstays, fun hexact => ?_⟩
    have halive := hexact.commands.addressAddedTag.alive tagTx.hash hstays
    rw [CTxMemPool.Live, hgone] at halive
    cases halive

end UnemployCoin
