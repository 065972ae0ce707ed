import UnemployCoin.DisconnectBlock
import UnemployCoin.Dump
/-!
# What commands have to themselves

Tags and freezes are kept apart from the assets and their verifiers: issuing, reissuing and
undoing an asset changes nothing of them, and neither do the loops of a dump over the assets and
the verifiers.
-/

namespace UnemployCoin

open Check CAssetsCache

variable {env : Env} {st : AssetState} {cache cache' : CAssetsCache} {tx : CTransaction}

/-! ## The databases -/

/-- What commands change of the globals, behind the pending commands. -/
def AssetState.commandPart (st : AssetState) :
    CAssetsCache × (LruCache Bytes Unit × LruCache Bytes Unit × LruCache Bytes Unit) ×
      StdMap (Bytes × Bytes) Unit × StdMap (Bytes × Bytes) Unit × StdMap Bytes Unit :=
  (st.passets,
    (st.passetsQualifierCache, st.passetsRestrictionCache, st.passetsGlobalRestrictionCache),
    st.prestricteddb.addressQualifiers, st.prestricteddb.restrictedAddresses,
    st.prestricteddb.globalRestrictions)

theorem dumpIssues_commandPart : (dumpIssues cache st).commandPart = st.commandPart :=
  dumpIssues_keeps (fun _ _ => rfl) fun _ _ => rfl

theorem dumpReissues_commandPart : (dumpReissues cache st).commandPart = st.commandPart :=
  dumpReissues_keeps fun _ _ _ _ _ => rfl

theorem dumpVerifiers_commandPart : (dumpVerifiers cache st).commandPart = st.commandPart :=
  dumpVerifiers_keeps fun _ _ _ => rfl

def dumpAssets (cache : CAssetsCache) (st : AssetState) : AssetState :=
  dumpVerifiers cache (dumpReissues cache (dumpIssues cache st))

theorem dumpAssets_commandPart : (dumpAssets cache st).commandPart = st.commandPart := by
  rw [dumpAssets, dumpVerifiers_commandPart, dumpReissues_commandPart, dumpIssues_commandPart]

/-! ## The local cache -/

def CAssetsCache.commandPart (cache : CAssetsCache) :
    Staged (Bytes × Bytes) QualifierType × Staged (Bytes × Bytes) RestrictedType ×
      Staged Bytes RestrictedType × StdMap (Bytes × Bytes) (StdMap Bytes Unit) ×
      StdMap (Bytes × Bytes) (StdMap Bytes Unit) :=
  (cache.newQualifierAddress, cache.newRestrictedAddress, cache.newRestrictedGlobal,
    cache.mapRootQualifierAddressesAdd, cache.mapRootQualifierAddressesRemove)

theorem tryAddNewAsset_commandPart {nHeight : ℤ} {blockHash : uint256}
    (cache : CAssetsCache) (record : WithAddress CNewAsset) :
    (tryAddNewAsset env st nHeight blockHash cache record).commandPart = cache.commandPart := by
  rw [tryAddNewAsset, addNewAsset]
  split <;> rfl

theorem addAssets_commandPart {nHeight : ℤ} {blockHash : uint256} :
    (addAssets env st nHeight blockHash tx cache).1.commandPart = cache.commandPart := by
  have hreissue : ∀ (reissue : CReissueAsset) (address : Bytes) (out : COutPoint),
      ((cache.addReissueAsset env st reissue address out).getD cache).commandPart =
        cache.commandPart := by
    intro reissue address out
    rw [addReissueAsset]
    split <;> rfl
  rw [addAssets]
  split
  · exact tryAddNewAsset_commandPart _ _
  · simp only [addReissue]
    split <;> exact hreissue _ _ _
  · exact foldl_keeps tryAddNewAsset_commandPart _ _
  · exact tryAddNewAsset_commandPart _ _
  · exact tryAddNewAsset_commandPart _ _
  · simp only [addRestricted]
    split <;> exact tryAddNewAsset_commandPart _ _
  · rfl

theorem undoNewAsset_commandPart {record : WithAddress CNewAsset}
    (h : undoNewAsset env st cache record = .ok cache') :
    cache'.commandPart = cache.commandPart := by
  rw [undoNewAsset, removeNewAsset] at h
  split at h
  · rw [demand_ok] at h
    cases h
    rfl
  · cases h
    rfl

theorem removeReissueAsset_commandPart {reissue : CReissueAsset} {address : Bytes} {out : COutPoint}
    {vUndoIPFS : List (Bytes × CBlockAssetUndo)}
    (h : cache.removeReissueAsset env st reissue address out vUndoIPFS = some cache') :
    cache'.commandPart = cache.commandPart := by
  rw [removeReissueAsset] at h
  split at h
  · cases h
  · simp only at h
    split at h
    · split at h <;> cases h <;> rfl
    · cases h
      rfl

theorem removeAssets_commandPart {vUndoData : List (Bytes × CBlockAssetUndo)}
    (h : removeAssets env st vUndoData tx cache = .ok cache') :
    cache'.commandPart = cache.commandPart := by
  have hof : ∀ {record : Option (WithAddress CNewAsset)} {c : CAssetsCache},
      undoNewAssetOf env st record cache = .ok c → c.commandPart = cache.commandPart := by
    intro record c hc
    rw [undoNewAssetOf, demand_bind] at hc
    obtain ⟨record, -, hc⟩ := hc
    exact undoNewAsset_commandPart hc
  rw [removeAssets] at h
  split at h
  · rw [bind_ok] at h
    obtain ⟨c, hc, h⟩ := h
    rw [demand_bind] at h
    obtain ⟨owner, -, h⟩ := h
    cases h
    exact hof hc
  · rw [undoReissueOf, demand_bind] at h
    obtain ⟨⟨reissue, strAddress⟩, -, h⟩ := h
    simp only at h
    split at h
    · exact removeReissueAsset_commandPart (demand_ok.1 h)
    · cases h
      rfl
  · refine foldlM_invariant (I := fun c : CAssetsCache => c.commandPart = cache.commandPart)
      ?_ rfl h
    exact fun c record c' _ hc hundo => (undoNewAsset_commandPart hundo).trans hc
  · exact hof h
  · exact hof h
  · rw [demand_bind] at h
    obtain ⟨record, -, h⟩ := h
    rw [bind_ok] at h
    obtain ⟨c, hc, h⟩ := h
    rw [bind_ok] at h
    obtain ⟨verifier, -, h⟩ := h
    cases h
    have hkept : c.commandPart = cache.commandPart := undoNewAsset_commandPart hc
    exact hkept
  · cases h
    rfl

def CAssetsCache.recordPart (cache : CAssetsCache) :
    StdMap Bytes CNewAsset × Staged Bytes CAssetCacheNewAsset ×
      Staged COutPoint CAssetCacheReissueAsset × Staged Bytes CAssetCacheRestrictedVerifiers :=
  (cache.mapReissuedAssetData, cache.newAssets, cache.newReissue, cache.newRestrictedVerifier)

theorem updateRootQualifiers_recordPart {name address : Bytes} {fAdd : Bool} :
    (cache.updateRootQualifiers name address fAdd).recordPart = cache.recordPart := by
  rw [updateRootQualifiers]
  split
  · split <;> rfl
  · rfl

theorem addCommands_recordPart (commands : List NullCommand) (cache : CAssetsCache) :
    (commands.foldl addCommand cache).recordPart = cache.recordPart := by
  refine foldl_keeps (fun cache command => ?_) commands cache
  cases command with
  | qualifier => exact updateRootQualifiers_recordPart
  | restricted => rfl
  | global => rfl

theorem removeCommands_recordPart (commands : List NullCommand) (cache : CAssetsCache) :
    (commands.foldl removeCommand cache).recordPart = cache.recordPart := by
  refine foldl_keeps (fun cache command => ?_) commands cache
  cases command with
  | qualifier => exact updateRootQualifiers_recordPart
  | restricted => rfl
  | global => rfl

end UnemployCoin
