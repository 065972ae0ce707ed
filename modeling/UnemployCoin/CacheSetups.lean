import UnemployCoin.CheckReads
import UnemployCoin.Lib.Parallel
import UnemployCoin.Lib.StagedCopy
import UnemployCoin.VerifierRefinement
/-!
# Two cache setups

`TestBlockValidity` and `VerifyDB` connect a block on a **copy** of `passets`, `ConnectTip` on an
empty local cache (`validation.cpp`).  The lookups go through the local cache and `passets` alike,
so the two should come to the same.

`AddRestrictedVerifier` does not replace a verifier string that is staged already.  On a copy, the
staged one may be that of an earlier block.
-/

namespace UnemployCoin

open Check CAssetsCache StdMap

variable {env : Env} {st : AssetState} {P L C : CAssetsCache} {tx : CTransaction} {name : Bytes}

/-- `C` is a copy of `P` with the changes that `L` has. -/
structure CopiedCache (P L C : CAssetsCache) : Prop where
  reissued : ∀ name, C.mapReissuedAssetData.find? name =
    (L.mapReissuedAssetData.find? name).or (P.mapReissuedAssetData.find? name)
  assets : Staged.CopyOf false P.newAssets L.newAssets C.newAssets
  /-- Only an asset that is not there is issued. -/
  fresh : ∀ name, L.newAssets.toAdd.count name = true → P.newAssets.toAdd.find? name = none
  verifiers : Staged.CopyOf false P.newRestrictedVerifier L.newRestrictedVerifier
    C.newRestrictedVerifier
  qualifiers : Staged.CopyOf true P.newQualifierAddress L.newQualifierAddress C.newQualifierAddress
  restricted :
    Staged.CopyOf true P.newRestrictedAddress L.newRestrictedAddress C.newRestrictedAddress
  globals : Staged.CopyOf true P.newRestrictedGlobal L.newRestrictedGlobal C.newRestrictedGlobal
  touched : ∀ key, C.touched key = L.touched key ∪ P.touched key

theorem CopiedCache.start (P : CAssetsCache) : CopiedCache P .empty P where
  reissued _ := rfl
  assets := .start _ _
  fresh _ h := by cases h
  verifiers := .start _ _
  qualifiers := .start _ _
  restricted := .start _ _
  globals := .start _ _
  touched key := by
    have hempty : CAssetsCache.empty.touched key = ∅ :=
      Set.eq_empty_iff_forall_notMem.2 fun _ => mem_touched_empty
    rw [hempty, Set.empty_union]

/-! ### Lookups -/

theorem CopiedCache.checkIfAssetExists_eq (h : CopiedCache st.passets L C) (name : Bytes) :
    C.checkIfAssetExists env st name = L.checkIfAssetExists env st name := by
  have hnone : L.newAssets.toRemove.count name = false :=
    count_eq_false.2 (h.assets.noRemoval name)
  rw [checkIfAssetExists, checkIfAssetExists, hnone, h.assets.count_toAdd]
  cases hremove : st.passets.newAssets.toRemove.count name with
  | true => simp
  | false =>
    have hcopy : C.newAssets.toRemove.count name = false :=
      count_eq_false.2 (h.assets.toRemove_of_bottom (count_eq_false.1 hremove))
    rw [hcopy]
    cases L.newAssets.toAdd.count name <;> cases st.passets.newAssets.toAdd.count name <;> rfl

theorem CopiedCache.getAssetMetaDataIfExists_eq (h : CopiedCache st.passets L C) (name : Bytes) :
    C.getAssetMetaDataIfExists st name = L.getAssetMetaDataIfExists st name := by
  have hnone : L.newAssets.toRemove.count name = false :=
    count_eq_false.2 (h.assets.noRemoval name)
  rw [getAssetMetaDataIfExists, getAssetMetaDataIfExists, hnone, h.reissued]
  cases L.mapReissuedAssetData.find? name with
  | some asset => rfl
  | none =>
    cases st.passets.mapReissuedAssetData.find? name with
    | some asset => rfl
    | none =>
      simp only [Option.none_or]
      cases hremove : st.passets.newAssets.toRemove.count name with
      | true => simp
      | false =>
        have hcopy : C.newAssets.toRemove.count name = false :=
          count_eq_false.2 (h.assets.toRemove_of_bottom (count_eq_false.1 hremove))
        have hadd := h.assets.toAdd name
        rw [hcopy, hadd]
        cases htop : L.newAssets.toAdd.find? name with
        | none =>
          cases st.passets.newAssets.toAdd.find? name <;> rfl
        | some item =>
          have hfresh := h.fresh name (count_of_find? htop)
          rw [hfresh]
          rfl

/-- Each verifier string that is staged on top is the one that is staged below, if there is one. -/
def VerifiersMatch (P L : CAssetsCache) : Prop :=
  ∀ name item item', L.newRestrictedVerifier.toAdd.find? name = some item →
    P.newRestrictedVerifier.toAdd.find? name = some item' → item.verifier = item'.verifier

theorem CopiedCache.getAssetVerifierStringIfExists_eq (h : CopiedCache st.passets L C)
    (hmatch : VerifiersMatch st.passets L) (name : Bytes) (fSkipTempCache : Bool) :
    C.getAssetVerifierStringIfExists st name fSkipTempCache =
      L.getAssetVerifierStringIfExists st name fSkipTempCache := by
  cases fSkipTempCache with
  | true => exact getAssetVerifierStringIfExists_skip st L C name
  | false =>
    simp only [getAssetVerifierStringIfExists, if_neg Bool.false_ne_true]
    rw [h.verifiers.noRemoval, h.verifiers.toRemove, h.verifiers.toAdd]
    cases hremove : st.passets.newRestrictedVerifier.toRemove.find? name with
    | some item => cases L.newRestrictedVerifier.toAdd.count name <;> rfl
    | none =>
      rw [ite_self]
      cases htop : L.newRestrictedVerifier.toAdd.find? name with
      | none => cases st.passets.newRestrictedVerifier.toAdd.find? name <;> rfl
      | some item =>
        cases hbottom : st.passets.newRestrictedVerifier.toAdd.find? name with
        | none => rfl
        | some item' => exact congrArg some (hmatch name item item' htop hbottom).symm

/-- **The checks get the same answers.** -/
theorem CopiedCache.sameReads (h : CopiedCache st.passets L C)
    (hmatch : VerifiersMatch st.passets L) : SameReads env st L C :=
  ⟨h.checkIfAssetExists_eq, h.getAssetMetaDataIfExists_eq,
    fun name => h.getAssetVerifierStringIfExists_eq hmatch name false⟩

/-! ### Changes -/

theorem CopiedCache.tryAddNewAsset (h : CopiedCache st.passets L C)
    (hexclusive : st.passets.newAssets.Exclusive) (nHeight : ℤ) (blockHash : uint256)
    (record : WithAddress CNewAsset) :
    CopiedCache st.passets (tryAddNewAsset env st nHeight blockHash L record)
      (tryAddNewAsset env st nHeight blockHash C record) := by
  rw [UnemployCoin.tryAddNewAsset, UnemployCoin.tryAddNewAsset, addNewAsset, addNewAsset,
    h.checkIfAssetExists_eq]
  cases hexists : L.checkIfAssetExists env st record.1.strName with
  | true => exact h
  | false =>
    have hadd := h.assets.add record.1.strName
      (⟨record.1, record.2, nHeight, blockHash⟩ : CAssetCacheNewAsset)
    refine ⟨h.reissued, hadd, ?_, h.verifiers, h.qualifiers, h.restricted, h.globals, h.touched⟩
    intro name hname
    replace hname : (L.newAssets.add false record.1.strName
      ⟨record.1, record.2, nHeight, blockHash⟩).toAdd.count name = true := hname
    rw [Staged.count_add_toAdd, Bool.or_eq_true, decide_eq_true_eq] at hname
    rcases hname with rfl | hname
    · -- An asset that is staged in `passets` exists, unless it is staged to be removed.
      refine count_eq_false.1 (Bool.not_eq_true _ ▸ fun hadded => ?_)
      have hremove := (hexclusive record.1.strName).resolve_left fun hnone =>
        absurd hadded (by rw [count_eq_false.2 hnone]; exact Bool.false_ne_true)
      have hthere : L.checkIfAssetExists env st record.1.strName = true := by
        rw [checkIfAssetExists, count_eq_false.2 (h.assets.noRemoval _),
          count_eq_false.2 hremove, hadded]
        simp
      rw [hthere] at hexists
      cases hexists
    · exact h.fresh name hname

theorem CopiedCache.addReissueAsset (h : CopiedCache st.passets L C) (reissue : CReissueAsset)
    (address : Bytes) (out : COutPoint) :
    CopiedCache st.passets ((L.addReissueAsset env st reissue address out).getD L)
      ((C.addReissueAsset env st reissue address out).getD C) := by
  rw [CAssetsCache.addReissueAsset, CAssetsCache.addReissueAsset, h.getAssetMetaDataIfExists_eq]
  cases hdata : L.getAssetMetaDataIfExists st reissue.strName with
  | none => exact h
  | some data =>
    -- What the copy finds among the reissued assets is what the lookup has found.
    have hasset : (C.mapReissuedAssetData.find? reissue.strName).getD data.asset =
        (L.mapReissuedAssetData.find? reissue.strName).getD data.asset := by
      rw [h.reissued]
      cases htop : L.mapReissuedAssetData.find? reissue.strName with
      | some asset => rfl
      | none =>
        rw [getAssetMetaDataIfExists, htop] at hdata
        cases hbottom : st.passets.mapReissuedAssetData.find? reissue.strName with
        | none => rfl
        | some asset =>
          rw [hbottom] at hdata
          cases hdata
          rfl
    refine ⟨fun name => ?_, h.assets, h.fresh, h.verifiers, h.qualifiers, h.restricted, h.globals,
      h.touched⟩
    simp only [Option.getD_some, hasset, find?_assign]
    split
    · rfl
    · exact h.reissued name

theorem CopiedCache.addRestrictedVerifier (h : CopiedCache P L C) (assetName verifier : Bytes) :
    CopiedCache P (L.addRestrictedVerifier assetName verifier)
      (C.addRestrictedVerifier assetName verifier) :=
  ⟨h.reissued, h.assets, h.fresh, h.verifiers.add assetName _, h.qualifiers, h.restricted,
    h.globals, h.touched⟩

theorem CopiedCache.addReissue (h : CopiedCache st.passets L C) (tx : CTransaction) :
    CopiedCache st.passets (addReissue env st tx L).1 (addReissue env st tx C).1 := by
  simp only [UnemployCoin.addReissue, h.getAssetMetaDataIfExists_eq]
  split
  · exact (h.addReissueAsset _ _ _).addRestrictedVerifier _ _
  · exact h.addReissueAsset _ _ _

theorem CopiedCache.addRestricted (h : CopiedCache st.passets L C)
    (hexclusive : st.passets.newAssets.Exclusive) (nHeight : ℤ) (blockHash : uint256)
    (tx : CTransaction) :
    CopiedCache st.passets (addRestricted env st nHeight blockHash tx L)
      (addRestricted env st nHeight blockHash tx C) := by
  simp only [UnemployCoin.addRestricted]
  split
  · exact h.tryAddNewAsset hexclusive _ _ _
  · exact (h.tryAddNewAsset hexclusive _ _ _).addRestrictedVerifier _ _

theorem CopiedCache.addAssets (h : CopiedCache st.passets L C)
    (hexclusive : st.passets.newAssets.Exclusive) (nHeight : ℤ) (blockHash : uint256)
    (tx : CTransaction) :
    CopiedCache st.passets (addAssets env st nHeight blockHash tx L).1
      (addAssets env st nHeight blockHash tx C).1 := by
  have hunique : ∀ (records : List (WithAddress CNewAsset)) {L C : CAssetsCache},
      CopiedCache st.passets L C →
      CopiedCache st.passets
        (records.foldl (UnemployCoin.tryAddNewAsset env st nHeight blockHash) L)
        (records.foldl (UnemployCoin.tryAddNewAsset env st nHeight blockHash) C) := by
    intro records
    induction records with
    | nil => exact fun h => h
    | cons record records ih => exact fun h => ih (h.tryAddNewAsset hexclusive _ _ record)
  rw [UnemployCoin.addAssets, UnemployCoin.addAssets]
  cases tx.assetTxKind env with
  | newAsset => exact h.tryAddNewAsset hexclusive _ _ _
  | reissue => exact h.addReissue tx
  | newUnique => exact hunique _ h
  | newMsgChannel => exact h.tryAddNewAsset hexclusive _ _ _
  | newQualifier => exact h.tryAddNewAsset hexclusive _ _ _
  | newRestricted => exact h.addRestricted hexclusive _ _ tx
  | other => exact h

theorem CopiedCache.addCommand (h : CopiedCache P L C) (command : NullCommand) :
    CopiedCache P (L.addCommand command) (C.addCommand command) := by
  have htouched : ∀ key, (C.addCommand command).touched key =
      (L.addCommand command).touched key ∪ P.touched key := by
    intro key
    ext x
    rw [Set.mem_union, mem_touched_addCommand, mem_touched_addCommand, h.touched, Set.mem_union,
      or_assoc]
  cases command with
  | qualifier name address type =>
    have hpart : ∀ cache : CAssetsCache,
        (cache.addCommand (.qualifier name address type)).recordPart = cache.recordPart :=
      fun cache => addCommands_recordPart [.qualifier name address type] cache
    have hfrozen : ∀ cache : CAssetsCache,
        (cache.addCommand (.qualifier name address type)).newRestrictedAddress =
            cache.newRestrictedAddress ∧
          (cache.addCommand (.qualifier name address type)).newRestrictedGlobal =
            cache.newRestrictedGlobal := by
      intro cache
      simp only [CAssetsCache.addCommand, addQualifierAddress, updateRootQualifiers]
      split
      · split <;> exact ⟨rfl, rfl⟩
      · exact ⟨rfl, rfl⟩
    have hL := hpart L
    have hC := hpart C
    simp only [recordPart, Prod.mk.injEq] at hL hC
    obtain ⟨hLdata, hLassets, -, hLverifiers⟩ := hL
    obtain ⟨hCdata, hCassets, -, hCverifiers⟩ := hC
    refine ⟨?_, ?_, ?_, ?_, h.qualifiers.add (name, address) type, ?_, ?_, htouched⟩
    · intro name'
      rw [hCdata, hLdata]
      exact h.reissued name'
    · rw [hCassets, hLassets]
      exact h.assets
    · rw [hLassets]
      exact h.fresh
    · rw [hCverifiers, hLverifiers]
      exact h.verifiers
    · rw [(hfrozen C).1, (hfrozen L).1]
      exact h.restricted
    · rw [(hfrozen C).2, (hfrozen L).2]
      exact h.globals
  | restricted name address type =>
    exact ⟨h.reissued, h.assets, h.fresh, h.verifiers, h.qualifiers,
      h.restricted.add (name, address) type, h.globals, htouched⟩
  | global name type =>
    exact ⟨h.reissued, h.assets, h.fresh, h.verifiers, h.qualifiers, h.restricted,
      h.globals.add name type, htouched⟩

/-- **The same changes** to the copy and to the empty cache. -/
theorem CopiedCache.updateAssets (h : CopiedCache st.passets L C)
    (hexclusive : st.passets.newAssets.Exclusive) (nHeight : ℤ) (blockHash : uint256)
    (tx : CTransaction) :
    CopiedCache st.passets (updateAssets env st nHeight blockHash tx L).1
      (updateAssets env st nHeight blockHash tx C).1 := by
  have hcommands : ∀ (commands : List NullCommand) {L C : CAssetsCache},
      CopiedCache st.passets L C →
      CopiedCache st.passets (commands.foldl CAssetsCache.addCommand L)
        (commands.foldl CAssetsCache.addCommand C) := by
    intro commands
    induction commands with
    | nil => exact fun h => h
    | cons command commands ih => exact fun h => ih (h.addCommand command)
  rw [UnemployCoin.updateAssets, UnemployCoin.updateAssets]
  split
  · exact hcommands _ (h.addAssets hexclusive nHeight blockHash tx)
  · exact h

/-! ## After the flush -/

/-- Two caches with the same entries, as far as lookups read them. -/
structure CAssetsCache.Alike (P P' : CAssetsCache) : Prop where
  reissued : ∀ name, P'.mapReissuedAssetData.find? name = P.mapReissuedAssetData.find? name
  assetsAdd : ∀ name, P'.newAssets.toAdd.find? name = P.newAssets.toAdd.find? name
  assetsRemove : ∀ name, P'.newAssets.toRemove.find? name = P.newAssets.toRemove.find? name
  verifiersAdd : ∀ name, (P'.newRestrictedVerifier.toAdd.find? name).map
      CAssetCacheRestrictedVerifiers.verifier =
    (P.newRestrictedVerifier.toAdd.find? name).map CAssetCacheRestrictedVerifiers.verifier
  verifiersRemove : ∀ name,
    P'.newRestrictedVerifier.toRemove.find? name = P.newRestrictedVerifier.toRemove.find? name
  qualifiersAdd : ∀ key,
    P'.newQualifierAddress.toAdd.find? key = P.newQualifierAddress.toAdd.find? key
  qualifiersRemove : ∀ key,
    P'.newQualifierAddress.toRemove.find? key = P.newQualifierAddress.toRemove.find? key
  restrictedAdd : ∀ key,
    P'.newRestrictedAddress.toAdd.find? key = P.newRestrictedAddress.toAdd.find? key
  restrictedRemove : ∀ key,
    P'.newRestrictedAddress.toRemove.find? key = P.newRestrictedAddress.toRemove.find? key
  globalsAdd : ∀ name,
    P'.newRestrictedGlobal.toAdd.find? name = P.newRestrictedGlobal.toAdd.find? name
  globalsRemove : ∀ name,
    P'.newRestrictedGlobal.toRemove.find? name = P.newRestrictedGlobal.toRemove.find? name
  subTags : ∀ key,
    subTags P'.mapRootQualifierAddressesAdd key = subTags P.mapRootQualifierAddressesAdd key

theorem CAssetsCache.Alike.refl (P : CAssetsCache) : P.Alike P :=
  ⟨fun _ => rfl, fun _ => rfl, fun _ => rfl, fun _ => rfl, fun _ => rfl, fun _ => rfl, fun _ => rfl,
    fun _ => rfl, fun _ => rfl, fun _ => rfl, fun _ => rfl, fun _ => rfl⟩

structure SameAnswers (env : Env) (st st' : AssetState) (cache cache' : CAssetsCache) : Prop where
  asset : ∀ name, cache'.checkIfAssetExists env st' name = cache.checkIfAssetExists env st name
  metadata : ∀ name,
    cache'.getAssetMetaDataIfExists st' name = cache.getAssetMetaDataIfExists st name
  verifier : ∀ name fSkipTempCache,
    cache'.getAssetVerifierStringIfExists st' name fSkipTempCache =
      cache.getAssetVerifierStringIfExists st name fSkipTempCache
  qualifier : ∀ name address fSkipTempCache,
    cache'.checkForAddressQualifier env st' name address fSkipTempCache =
      cache.checkForAddressQualifier env st name address fSkipTempCache
  restriction : ∀ name address fSkipTempCache,
    cache'.checkForAddressRestriction env st' name address fSkipTempCache =
      cache.checkForAddressRestriction env st name address fSkipTempCache
  globalRestriction : ∀ name fSkipTempCache,
    cache'.checkForGlobalRestriction st' name fSkipTempCache =
      cache.checkForGlobalRestriction st name fSkipTempCache

theorem CAssetsCache.Alike.hasSubQualifier_eq {P P' : CAssetsCache} (h : P.Alike P')
    (key : Bytes × Bytes) :
    hasSubQualifier P'.mapRootQualifierAddressesAdd key =
      hasSubQualifier P.mapRootQualifierAddressesAdd key := by
  rw [Bool.eq_iff_iff, hasSubQualifier_iff, hasSubQualifier_iff, h.subTags]

theorem none_or_same_verifier {o o' : Option CAssetCacheRestrictedVerifiers}
    (h : o'.map CAssetCacheRestrictedVerifiers.verifier =
      o.map CAssetCacheRestrictedVerifiers.verifier) :
    (o' = none ∧ o = none) ∨
      ∃ item' item, o' = some item' ∧ o = some item ∧ item'.verifier = item.verifier := by
  cases o' with
  | none => exact .inl ⟨rfl, Option.map_eq_none_iff.1 h.symm⟩
  | some item' =>
    obtain ⟨item, ho, hitem⟩ := Option.map_eq_some_iff.1 h.symm
    exact .inr ⟨item', item, rfl, ho, hitem.symm⟩

theorem CAssetsCache.Alike.sameAnswers {P : CAssetsCache} (hP : st.passets.Alike P)
    {cache cache' : CAssetsCache} (h : cache.Alike cache') :
    SameAnswers env st { st with passets := P } cache cache' where
  asset name := by
    simp only [checkIfAssetExists, StdMap.count, h.assetsAdd, h.assetsRemove, hP.assetsAdd,
      hP.assetsRemove]
    rfl
  metadata name := by
    simp only [getAssetMetaDataIfExists, StdMap.count, h.reissued, h.assetsAdd, h.assetsRemove,
      hP.reissued, hP.assetsAdd, hP.assetsRemove]
    rfl
  verifier name fSkipTempCache := by
    simp only [getAssetVerifierStringIfExists, h.verifiersRemove, hP.verifiersRemove]
    have hlocal := none_or_same_verifier (h.verifiersAdd name)
    have hbelow := none_or_same_verifier (hP.verifiersAdd name)
    rcases hlocal with ⟨hc', hc⟩ | ⟨_, _, hc', hc, htop⟩ <;>
      rcases hbelow with ⟨hp', hp⟩ | ⟨_, _, hp', hp, hbottom⟩ <;>
        simp only [hc', hc, hp', hp] <;> cases fSkipTempCache <;> simp [*]
  qualifier name address fSkipTempCache := by
    simp only [checkForAddressQualifier, h.qualifiersAdd, h.qualifiersRemove, h.hasSubQualifier_eq,
      hP.qualifiersAdd, hP.qualifiersRemove, hP.hasSubQualifier_eq]
  restriction name address fSkipTempCache := by
    simp only [checkForAddressRestriction, h.restrictedAdd, h.restrictedRemove, hP.restrictedAdd,
      hP.restrictedRemove]
  globalRestriction name fSkipTempCache := by
    simp only [checkForGlobalRestriction, h.globalsAdd, h.globalsRemove, hP.globalsAdd,
      hP.globalsRemove]

/-- What holds of `passets` in every state of a node. -/
structure PassetsKept (P : CAssetsCache) : Prop where
  assets : P.newAssets.Exclusive
  verifiers : P.newRestrictedVerifier.Exclusive
  qualifiers : P.newQualifierAddress.Exclusive
  restricted : P.newRestrictedAddress.Exclusive
  globals : P.newRestrictedGlobal.Exclusive
  /-- `Flush` puts nothing into this map. -/
  rootsRemove : P.mapRootQualifierAddressesRemove = ∅

theorem PassetsKept.empty : PassetsKept .empty :=
  ⟨.empty, .empty, .empty, .empty, .empty, rfl⟩

theorem PassetsKept.flushInto (h : PassetsKept P) (cache : CAssetsCache) :
    PassetsKept (cache.flushInto P) :=
  ⟨h.assets.flush, h.verifiers.flush, h.qualifiers.flush, h.restricted.flush, h.globals.flush,
    h.rootsRemove⟩

theorem PassetsKept.step {n n' : Node} {e : NodeEvent} (hn : PassetsKept n.st.passets)
    (h : (node env).step n e = some n') : PassetsKept n'.st.passets := by
  cases e with
  | connectTip ctx block =>
    obtain ⟨s, -, -, -, -, blockUndo, hst⟩ := connectTip_eq_some h
    rw [hst]
    exact hn.flushInto _
  | disconnectTip ctx =>
    obtain ⟨block, vtxundo, s, -, -, -, -, hst⟩ := disconnectTip_undo h
    rw [hst]
    exact hn.flushInto _
  | dump =>
    cases h
    exact PassetsKept.empty
  | read lookup =>
    cases h
    have hpassets := (read_passets env n.st lookup).1
    show PassetsKept (n.st.read env lookup).passets
    rw [hpassets]
    exact hn

theorem passetsKept_exec {events : List NodeEvent} {n : Node}
    (h : (node env).exec .genesis events = some n) : PassetsKept n.st.passets := by
  have halong : (node env).Along (fun _ _ => True) .genesis events :=
    Machine.Along.of_forall fun _ _ _ => trivial
  exact Machine.exec_invariant (I := fun n : Node => PassetsKept n.st.passets)
    (fun _ _ _ hn _ hstep => hn.step hstep) PassetsKept.empty halong h

/-- **The flush of the copy** and that of the other cache leave the same, where the verifier strings
are the same. -/
theorem CopiedCache.flush_alike (h : CopiedCache P L C) (hP : PassetsKept P)
    (hmatch : VerifiersMatch P L) : (L.flushInto P).Alike (C.flushInto P) where
  reissued name := by
    simp only [CAssetsCache.flushInto, find?_update, h.reissued]
    cases L.mapReissuedAssetData.find? name <;> cases P.mapReissuedAssetData.find? name <;> rfl
  assetsAdd := h.assets.find?_flush_eq hP.assets
  assetsRemove := h.assets.find?_flush_toRemove false
  verifiersAdd name := by
    simp only [CAssetsCache.flushInto]
    rw [h.verifiers.find?_flush_toAdd hP.verifiers, h.verifiers.find?_flush_top, h.verifiers.toAdd]
    cases htop : L.newRestrictedVerifier.toAdd.find? name with
    | none => cases P.newRestrictedVerifier.toAdd.find? name <;> rfl
    | some item =>
      cases hbottom : P.newRestrictedVerifier.toAdd.find? name with
      | none => rfl
      | some item' => exact congrArg some (hmatch name item item' htop hbottom).symm
  verifiersRemove := h.verifiers.find?_flush_toRemove true
  qualifiersAdd := h.qualifiers.find?_flush_eq hP.qualifiers
  qualifiersRemove := h.qualifiers.find?_flush_toRemove true
  restrictedAdd := h.restricted.find?_flush_eq hP.restricted
  restrictedRemove := h.restricted.find?_flush_toRemove true
  globalsAdd := h.globals.find?_flush_eq hP.globals
  globalsRemove := h.globals.find?_flush_toRemove true
  subTags key := by
    have hbelow : CAssetsCache.touched P key =
        UnemployCoin.subTags P.mapRootQualifierAddressesAdd key := by
      rw [CAssetsCache.touched, hP.rootsRemove, subTags_empty, Set.union_empty]
    rw [subTags_flushInto, subTags_flushInto, h.touched, hbelow, Set.union_assoc, Set.union_self]

/-! ## The verifier strings of a block -/

/-- The asset and the verifier string that connecting a transaction sets.  A coinbase may say that
it reissues an asset that nobody knows: nothing is set then. -/
def setsVerifierAt (env : Env) (st : AssetState) (tx : CTransaction) : Option (Bytes × Bytes) :=
  if !env.dep.areAssetsDeployed then none
  else if tx.isCoinBase && decide (tx.assetTxKind env = .reissue) &&
      (CAssetsCache.empty.getAssetMetaDataIfExists st (reissueOf env tx).1.strName).isNone then none
  else setsVerifier env tx

/-- The first verifier string that some transactions set for an asset. -/
def firstVerifierAt (env : Env) (st : AssetState) (txs : List CTransaction) (name : Bytes) :
    Option Bytes :=
  (txs.filterMap (setsVerifierAt env st)).lookup name

/-- The transactions that are connected: those of the genesis block are not. -/
def connectedTxs (env : Env) (block : CBlock) : List CTransaction :=
  if block.hash = env.params.hashGenesisBlock then [] else block.vtx

/-- The verifier string that the block sets first is the one that is staged in `passets`, where
there is one. -/
def VerifiersFit (env : Env) (st : AssetState) (block : CBlock) : Prop :=
  ∀ name verifier item, firstVerifierAt env st (connectedTxs env block) name = some verifier →
    st.passets.newRestrictedVerifier.toAdd.find? name = some item → item.verifier = verifier

theorem addReissue_missing
    (hnone : cache.getAssetMetaDataIfExists st (reissueOf env tx).1.strName = none) :
    (addReissue env st tx cache).1.newRestrictedVerifier = cache.newRestrictedVerifier := by
  have hread : (tx.reissueAssetFromTransaction env).getD (.null, []) = reissueOf env tx := rfl
  have hnull : ¬ assetTypeOf CNewAsset.null.strName = .RESTRICTED := by decide
  rw [addReissue, hread]
  simp only [hnone, Option.map_none, Option.getD_none, if_neg hnull]
  rw [addReissueAsset, hnone]
  rfl

variable {ctx : BlockContext} {s s' : ConnectState} {blockHash : uint256}

/-- **Connecting a transaction** stages the verifier string that it sets. -/
theorem connectTx_verifier
    (hst : OwnRecords st) (hcache : OwnCache s.assetsCache)
    (hfirst : tx.isCoinBase = true → s.assetsCache = .empty)
    (h : connectTx env st ctx blockHash s tx = .ok s') :
    s'.assetsCache.newRestrictedVerifier =
      (setsVerifierAt env st tx).elim s.assetsCache.newRestrictedVerifier
        (fun e => s.assetsCache.newRestrictedVerifier.add false e.1 ⟨e.2, false⟩) := by
  obtain ⟨-, -, hassets, -⟩ := connectTx_ok h
  rw [hassets, updateAssets, setsVerifierAt]
  cases hdep : env.dep.areAssetsDeployed with
  | false => rfl
  | true =>
    have hcommands : ∀ cache : CAssetsCache,
        ((nullCommands env tx).foldl CAssetsCache.addCommand cache).newRestrictedVerifier =
          cache.newRestrictedVerifier :=
      fun cache => congrArg (fun part => part.2.2.2) (addCommands_recordPart _ cache)
    simp only [if_true, Bool.not_true, Bool.false_eq_true, if_false, hcommands]
    split
    · rename_i hmissing
      simp only [Bool.and_eq_true, decide_eq_true_eq, Option.isNone_iff_eq_none] at hmissing
      obtain ⟨⟨hbase, hkind⟩, hnone⟩ := hmissing
      rw [addAssets, hkind]
      refine addReissue_missing ?_
      rw [hfirst hbase]
      exact hnone
    · rename_i hknown
      refine (addAssets_verifiers ctx.nHeight blockHash hst hcache fun hkind => ?_).1
      cases hbase : tx.isCoinBase with
      | false => exact reissueOf_found (connectTx_contextual hbase hdep h) hkind
      | true =>
        rw [hbase, hkind] at hknown
        rw [hfirst hbase]
        exact Option.ne_none_iff_exists'.1 (by simpa using hknown)

/-! ## The two setups side by side -/

/-- The loops over the transactions, on the empty cache and on the copy, after some of them. -/
structure SetupsAfter (env : Env) (st : AssetState) (txs : List CTransaction)
    (s s' : ConnectState) : Prop where
  view : s'.view = s.view
  nFees : s'.nFees = s.nFees
  nSigOpsCost : s'.nSigOpsCost = s.nSigOpsCost
  copied : CopiedCache st.passets s.assetsCache s'.assetsCache
  own : OwnCache s.assetsCache
  start : txs = [] → s.assetsCache = .empty
  staged : ∀ name, s.assetsCache.newRestrictedVerifier.toAdd.find? name =
    (firstVerifierAt env st txs name).map fun verifier => ⟨verifier, false⟩

theorem SetupsAfter.nil (env : Env) (st : AssetState) (view : CCoinsView) :
    SetupsAfter env st [] ⟨view, .empty, 0, 0, [], []⟩ ⟨view, st.passets, 0, 0, [], []⟩ :=
  ⟨rfl, rfl, rfl, .start _, .empty, fun _ => rfl, fun _ => rfl⟩

theorem firstVerifierAt_append (txs : List CTransaction) (tx : CTransaction) (name : Bytes) :
    firstVerifierAt env st (txs ++ [tx]) name = (firstVerifierAt env st txs name).or
      ((setsVerifierAt env st tx).bind fun e => if name = e.1 then some e.2 else none) := by
  rw [firstVerifierAt, List.filterMap_append, List.lookup_append, firstVerifierAt]
  cases hsets : setsVerifierAt env st tx with
  | none => rw [List.filterMap_cons_none hsets]; rfl
  | some e =>
    rw [List.filterMap_cons_some hsets, List.filterMap_nil, List.lookup_singleton]
    simp only [beq_iff_eq, Option.bind_some]

theorem connectTx_iff {s t : ConnectState} :
    connectTx env st ctx blockHash s tx = .ok t ↔
      ∃ nFees, feesAfter env st ctx s tx = .ok nFees ∧
        s.nSigOpsCost + ctx.rules.getTransactionSigOpCost tx s.view ctx.nHeight ≤
          MAX_BLOCK_SIGOPS_COST ∧
        (tx.isCoinBase || ctx.rules.checkInputs tx s.view ctx.nHeight) = true ∧
        ∃ e, s.view.update env tx ctx.nHeight = .ok e ∧
          (⟨e.1, (updateAssets env st ctx.nHeight blockHash tx s.assetsCache).1, nFees,
            s.nSigOpsCost + ctx.rules.getTransactionSigOpCost tx s.view ctx.nHeight,
            if tx.isCoinBase then s.vtxundo else s.vtxundo ++ [e.2],
            s.vUndoAssetData ++
              (updateAssets env st ctx.nHeight blockHash tx s.assetsCache).2.toList.filter
                fun e => !e.1.isEmpty⟩ : ConnectState) = t := by
  rw [connectTx, bind_ok]
  simp only [require_bind]
  simp only [bind_ok, pure_ok, decide_eq_true_eq]

theorem feesAfter_unique {fees fees' : CAmount}
    (hview : s'.view = s.view) (hnFees : s'.nFees = s.nFees)
    (h : feesAfter env st ctx s tx = .ok fees) (h' : feesAfter env st ctx s' tx = .ok fees') :
    fees' = fees := by
  rw [feesAfter] at h h'
  cases hbase : tx.isCoinBase with
  | true =>
    rw [hbase, if_pos rfl] at h h'
    cases h
    cases h'
    exact hnFees
  | false =>
    rw [hbase, if_neg Bool.false_ne_true] at h h'
    obtain ⟨txfee, hfee, -, -, -, -, rfl⟩ := checkConnectTx_ok.1 h
    obtain ⟨txfee', hfee', -, -, -, -, rfl⟩ := checkConnectTx_ok.1 h'
    rw [hview, hfee] at hfee'
    rw [hnFees, Except.ok.inj hfee']

theorem SetupsAfter.step {txs : List CTransaction}
    {s s' t t' : ConnectState} (h : SetupsAfter env st txs s s') (hst : OwnRecords st)
    (hpassets : PassetsKept st.passets) (hfirst : tx.isCoinBase = true → txs = [])
    (hs : connectTx env st ctx blockHash s tx = .ok t)
    (hs' : connectTx env st ctx blockHash s' tx = .ok t') :
    SetupsAfter env st (txs ++ [tx]) t t' := by
  have hverifier := connectTx_verifier hst h.own (fun hbase => h.start (hfirst hbase)) hs
  obtain ⟨nFees, hfees, -, -, e, hview, rfl⟩ := connectTx_iff.1 hs
  obtain ⟨nFees', hfees', -, -, e', hview', rfl⟩ := connectTx_iff.1 hs'
  rw [h.view, hview] at hview'
  refine ⟨congrArg Prod.fst (Except.ok.inj hview').symm,
    feesAfter_unique h.view h.nFees hfees hfees', ?_,
    h.copied.updateAssets hpassets.assets ctx.nHeight blockHash tx, h.own.updateAssets hst,
    fun hnil => ?_, fun name => ?_⟩
  · rw [h.view, h.nSigOpsCost]
  · exact absurd hnil (List.append_ne_nil_of_right_ne_nil _ (List.cons_ne_nil _ _))
  · rw [hverifier, firstVerifierAt_append]
    cases setsVerifierAt env st tx with
    | none => rw [Option.bind_none, Option.or_none]; exact h.staged name
    | some e =>
      -- The first one stays.
      simp only [Option.elim, Option.bind_some, Staged.find?_add_toAdd, h.staged]
      by_cases hname : name = e.1
      · rw [if_pos hname, if_pos hname, ← hname]
        cases firstVerifierAt env st txs name <;> rfl
      · rw [if_neg hname, if_neg hname, Option.or_none]

variable {block : CBlock}

theorem SetupsAfter.verifiersMatch {txs rest : List CTransaction} (h : SetupsAfter env st txs s s')
    (hfit : VerifiersFit env st block)
    (htxs : connectedTxs env block = txs ++ rest) : VerifiersMatch st.passets s.assetsCache := by
  intro name item item' htop hbottom
  rw [h.staged, Option.map_eq_some_iff] at htop
  obtain ⟨verifier, hverifier, rfl⟩ := htop
  refine (hfit name verifier item' ?_ hbottom).symm
  rw [htxs, firstVerifierAt, List.filterMap_append, List.lookup_append]
  rw [firstVerifierAt] at hverifier
  rw [hverifier]
  rfl

theorem SetupsAfter.parallel {txs : List CTransaction} (h : SetupsAfter env st txs s s')
    (hst : OwnRecords st)
    (hpassets : PassetsKept st.passets) (hmatch : VerifiersMatch st.passets s.assetsCache)
    (hfirst : tx.isCoinBase = true → txs = []) :
    Parallel (SetupsAfter env st (txs ++ [tx])) (connectTx env st ctx blockHash s tx)
      (connectTx env st ctx blockHash s' tx) := by
  have hreads : SameReads env st s.assetsCache s'.assetsCache := h.copied.sameReads hmatch
  have hfees : feesAfter env st ctx s' tx = feesAfter env st ctx s tx := by
    rw [feesAfter, feesAfter, checkConnectTx, checkConnectTx, h.view, h.nFees,
      checkTxAssets_congr hreads]
  constructor
  · intro t ht
    obtain ⟨nFees, hok, hsigops, hinputs, e, hview, rfl⟩ := connectTx_iff.1 ht
    rw [← hfees] at hok
    rw [← h.view, ← h.nSigOpsCost] at hsigops
    rw [← h.view] at hinputs hview
    have ht' : connectTx env st ctx blockHash s' tx = .ok _ :=
      connectTx_iff.2 ⟨nFees, hok, hsigops, hinputs, e, hview, rfl⟩
    refine ⟨_, ht', h.step hst hpassets hfirst ht ht'⟩
  · intro t' ht'
    obtain ⟨nFees, hok, hsigops, hinputs, e, hview, -⟩ := connectTx_iff.1 ht'
    rw [hfees] at hok
    rw [h.view, h.nSigOpsCost] at hsigops
    rw [h.view] at hinputs hview
    exact ⟨_, connectTx_iff.2 ⟨nFees, hok, hsigops, hinputs, e, hview, rfl⟩⟩

theorem coinbase_first {rules : ScriptRules} {pre post : List CTransaction}
    (hblock : checkBlock env rules block = .ok ()) (hvtx : block.vtx = pre ++ tx :: post)
    (hbase : tx.isCoinBase = true) : pre = [] := by
  obtain ⟨coinbase, txs, hsplit, -, hothers, -⟩ := checkBlock_ok hblock
  rw [hsplit] at hvtx
  cases pre with
  | nil => rfl
  | cons first pre =>
    obtain ⟨-, rfl⟩ := List.cons.inj hvtx
    have hother := hothers tx (by simp)
    rw [hbase] at hother
    cases hother

/-- **A block** is taken on both sides or on neither, where the verifier strings fit. -/
theorem connectBlock_parallel {view : CCoinsView}
    (hst : OwnRecords st) (hpassets : PassetsKept st.passets) (hfit : VerifiersFit env st block) :
    Parallel (SetupsAfter env st (connectedTxs env block))
      (connectBlock env st ctx block view .empty)
      (connectBlock env st ctx block view st.passets) := by
  rw [connectBlock, connectBlock]
  refine (Parallel.of_eq rfl).bind fun _ _ hblock _ => ?_
  by_cases hgenesis : block.hash = env.params.hashGenesisBlock
  · rw [if_pos hgenesis, if_pos hgenesis, connectedTxs, if_pos hgenesis]
    exact .ok (.nil env st view)
  · have htxs : connectedTxs env block = block.vtx := if_neg hgenesis
    rw [if_neg hgenesis, if_neg hgenesis, htxs]
    refine (foldlM_parallel (R := SetupsAfter env st) ?_ (.nil env st view)).bind ?_
    · intro pre tx post s s' hvtx h
      refine h.parallel hst hpassets (h.verifiersMatch hfit (htxs.trans hvtx)) fun hbase => ?_
      exact coinbase_first hblock hvtx hbase
    · intro s s' _ h
      rw [h.nFees]
      exact (Parallel.of_eq rfl).bind fun _ _ _ _ => .ok h

theorem connectBlock_both {view : CCoinsView} (hst : OwnRecords st)
    (hpassets : PassetsKept st.passets)
    (hs : connectBlock env st ctx block view .empty = .ok s)
    (hs' : connectBlock env st ctx block view st.passets = .ok s') :
    SetupsAfter env st (connectedTxs env block) s s' := by
  by_cases hgenesis : block.hash = env.params.hashGenesisBlock
  · rw [connectBlock, unit_bind, if_pos hgenesis] at hs hs'
    cases hs.2
    cases hs'.2
    rw [connectedTxs, if_pos hgenesis]
    exact .nil env st view
  · obtain ⟨hblock, hfold, -⟩ := connectBlock_ok hgenesis hs
    obtain ⟨-, hfold', -⟩ := connectBlock_ok hgenesis hs'
    rw [connectedTxs, if_neg hgenesis]
    refine foldlM_both (R := SetupsAfter env st) ?_ (.nil env st view) hfold hfold'
    intro pre tx post s s' t t' hvtx h ht ht'
    exact h.step hst hpassets (coinbase_first hblock hvtx) ht ht'

/-! ## The verdict and the lookups -/

/-- `ConnectBlock` on the tip of a node, on the asset cache that the caller has set up. -/
def Node.connectOn (env : Env) (n : Node) (ctx : TipContext) (block : CBlock)
    (assetsCache : CAssetsCache) : Except String ConnectState :=
  connectBlock (env.withTip ctx) n.st ⟨ctx.rules, n.height + 1, ctx.mempool⟩ block n.view
    assetsCache

/-- **The two setups agree** on a block: both take it or neither does, and after the flush every
lookup has the same answer, through any local cache. -/
structure SetupsAgree (env : Env) (n : Node) (ctx : TipContext) (block : CBlock) : Prop where
  verdict : (n.connectOn env ctx block n.st.passets).isOk = (n.connectOn env ctx block .empty).isOk
  answers : ∀ s s', n.connectOn env ctx block .empty = .ok s →
    n.connectOn env ctx block n.st.passets = .ok s' → ∀ cache,
      SameAnswers (env.withTip ctx) (n.st.flush s.assetsCache) (n.st.flush s'.assetsCache)
        cache cache

section Setups

variable {n : Node} {ctx : TipContext} {block : CBlock}

theorem setupsAgree_of_fit (hst : OwnRecords n.st) (hpassets : PassetsKept n.st.passets)
    (hfit : VerifiersFit (env.withTip ctx) n.st block) : SetupsAgree env n ctx block := by
  constructor
  · exact (connectBlock_parallel hst hpassets hfit).isOk_eq
  · intro s s' hs hs' cache
    have hboth := connectBlock_both hst hpassets hs hs'
    have hmatch := hboth.verifiersMatch hfit (List.append_nil _).symm
    exact (hboth.copied.flush_alike hpassets hmatch).sameAnswers (.refl cache)

theorem getAssetVerifierStringIfExists_of_added (hexclusive : P.newRestrictedVerifier.Exclusive)
    {item : CAssetCacheRestrictedVerifiers}
    (hadd : P.newRestrictedVerifier.toAdd.find? name = some item) :
    CAssetsCache.empty.getAssetVerifierStringIfExists { st with passets := P } name false =
      some item.verifier := by
  have hremove : P.newRestrictedVerifier.toRemove.find? name = none :=
    (hexclusive name).resolve_left (by rw [hadd]; exact Option.some_ne_none item)
  rw [getAssetVerifierStringIfExists]
  simp only [hremove, hadd]
  rfl

theorem fit_of_setupsAgree {s : ConnectState} (hst : OwnRecords n.st)
    (hpassets : PassetsKept n.st.passets) (hs : n.connectOn env ctx block .empty = .ok s)
    (h : SetupsAgree env n ctx block) : VerifiersFit (env.withTip ctx) n.st block := by
  intro name verifier item hfirst hitem
  have hok := h.verdict
  rw [hs] at hok
  obtain ⟨s', hs'⟩ : ∃ s', n.connectOn env ctx block n.st.passets = .ok s' := by
    cases hs' : n.connectOn env ctx block n.st.passets with
    | ok s' => exact ⟨s', rfl⟩
    | error e =>
      rw [hs'] at hok
      cases hok
  have hboth := connectBlock_both hst hpassets hs hs'
  have htop := hboth.staged name
  rw [hfirst, Option.map_some] at htop
  have hadded : (s.assetsCache.flushInto n.st.passets).newRestrictedVerifier.toAdd.find? name =
      some ⟨verifier, false⟩ := by
    show (Staged.flush true _ _).toAdd.find? name = _
    rw [hboth.copied.verifiers.find?_flush_top, htop]
    rfl
  have hcopied : (s'.assetsCache.flushInto n.st.passets).newRestrictedVerifier.toAdd.find? name =
      some item := by
    show (Staged.flush true _ _).toAdd.find? name = _
    rw [hboth.copied.verifiers.find?_flush_toAdd hpassets.verifiers, hboth.copied.verifiers.toAdd,
      htop, hitem]
    rfl
  have hanswer := (h.answers s s' hs hs' .empty).verifier name false
  rw [AssetState.flush, AssetState.flush,
    getAssetVerifierStringIfExists_of_added (hpassets.flushInto _).verifiers hadded,
    getAssetVerifierStringIfExists_of_added (hpassets.flushInto _).verifiers hcopied] at hanswer
  exact Option.some.inj hanswer

/-- **The two setups agree** in every state of a node, on a block whose verifier strings fit.  On a
block that one of them takes, they agree only then. -/
theorem setups_agree {events : List NodeEvent} (h : (node env).exec .genesis events = some n) :
    (VerifiersFit (env.withTip ctx) n.st block → SetupsAgree env n ctx block) ∧
      ((n.connectOn env ctx block .empty).isOk = true ∨
          (n.connectOn env ctx block n.st.passets).isOk = true →
        SetupsAgree env n ctx block → VerifiersFit (env.withTip ctx) n.st block) := by
  have hst := ownRecords_exec h
  have hpassets := passetsKept_exec h
  refine ⟨setupsAgree_of_fit hst hpassets, fun htaken hagree => ?_⟩
  have hfresh : (n.connectOn env ctx block .empty).isOk = true := by
    rcases htaken with hok | hok
    · exact hok
    · exact hagree.verdict ▸ hok
  cases hs : n.connectOn env ctx block .empty with
  | ok s => exact fit_of_setupsAgree hst hpassets hs hagree
  | error e =>
    rw [hs] at hfresh
    cases hfresh

end Setups

/-- The verifier string becomes `true`, as it was, and then `TAG`. -/
def restateBlock : CBlock :=
  ⟨1003, [coinbaseTx 1003 (5000 * COIN), resetTx 2004 ⟨3, 0⟩ ⟨2003, 1⟩ "true",
    resetTx 2005 ⟨4, 0⟩ ⟨2004, 1⟩ "TAG"]⟩

/-- The verifier string of `$NAME` is staged, and the block sets it to the same string first. -/
theorem setups_agree_staged :
    ∃ n, (node tagEnv).exec .genesis (connects restrictedChain) = some n ∧
      n.st.passets.newRestrictedVerifier.toAdd.keys = [ascii "$NAME"] ∧
      firstVerifierAt (tagEnv.withTip activeContext) n.st
        (connectedTxs (tagEnv.withTip activeContext) restateBlock) (ascii "$NAME") =
          some (ascii "true") ∧
      SetupsAgree tagEnv n activeContext restateBlock ∧
      VerifiersFit (tagEnv.withTip activeContext) n.st restateBlock := by
  have hrun : ((node tagEnv).exec .genesis (connects restrictedChain)).map (fun n =>
      (n.st.passets.newRestrictedVerifier.toAdd.keys,
        firstVerifierAt (tagEnv.withTip activeContext) n.st
          (connectedTxs (tagEnv.withTip activeContext) restateBlock) (ascii "$NAME"),
        (n.connectOn tagEnv activeContext restateBlock .empty).isOk,
        decide (∀ e ∈ n.st.passets.newRestrictedVerifier.toAdd.entries,
          ∀ verifier ∈ firstVerifierAt (tagEnv.withTip activeContext) n.st
            (connectedTxs (tagEnv.withTip activeContext) restateBlock) e.1,
              e.2.verifier = verifier))) =
      some ([ascii "$NAME"], some (ascii "true"), true, true) := by
    rw [restrictedChain, connects_append, exec_coinbaseChain ⟨rfl, rfl⟩ (by decide)]
    decide +kernel
  obtain ⟨n, hexec, hresult⟩ := Option.map_eq_some_iff.1 hrun
  obtain ⟨hkeys, hresult⟩ := Prod.mk.inj hresult
  obtain ⟨hfirst, hresult⟩ := Prod.mk.inj hresult
  obtain ⟨hok, hstaged⟩ := Prod.mk.inj hresult
  have hfit : VerifiersFit (tagEnv.withTip activeContext) n.st restateBlock :=
    fun name verifier item hfirst hitem =>
      of_decide_eq_true hstaged _ (StdMap.mem_entries.2 hitem) verifier hfirst
  have hagree : SetupsAgree tagEnv n activeContext restateBlock := (setups_agree hexec).1 hfit
  exact ⟨n, hexec, hkeys, hfirst, hagree, (setups_agree hexec).2 (.inl hok) hagree⟩

/-- A reissue of `$NAME` that leaves its verifier string as it is. -/
def reissueNAMETx (hash : uint256) (coin owner : COutPoint) : CTransaction :=
  ⟨hash, [⟨coin, []⟩, ⟨owner, []⟩],
    [burnOutput (100 * COIN), transferOwnerNAME,
      ⟨0, CReissueAsset.constructTransaction ⟨ascii "$NAME", COIN, -1, 1, []⟩
        (getScriptForKeyID (keyHash 1))⟩]⟩

/-- The verifier string becomes `TAG`, and `$NAME` is reissued to an address without that tag. -/
def resetReissueBlock : CBlock :=
  ⟨1003, [coinbaseTx 1003 (5000 * COIN), resetTx 2004 ⟨3, 0⟩ ⟨2003, 1⟩ "TAG",
    reissueNAMETx 2005 ⟨4, 0⟩ ⟨2004, 1⟩]⟩

/-- A block that passes the test on the copy, where the verifier string is still `true`, and that
`ConnectTip` does not take. -/
theorem setups_disagree :
    ∃ n, (node tagEnv).exec .genesis (connects restrictedChain) = some n ∧
      (n.connectOn tagEnv activeContext resetReissueBlock n.st.passets).isOk = true ∧
      (n.connectOn tagEnv activeContext resetReissueBlock .empty).isOk = false ∧
      ¬ SetupsAgree tagEnv n activeContext resetReissueBlock := by
  have hrun : ((node tagEnv).exec .genesis (connects restrictedChain)).map (fun n =>
      ((n.connectOn tagEnv activeContext resetReissueBlock n.st.passets).isOk,
        (n.connectOn tagEnv activeContext resetReissueBlock .empty).isOk)) =
      some (true, false) := by
    rw [restrictedChain, connects_append, exec_coinbaseChain ⟨rfl, rfl⟩ (by decide)]
    decide +kernel
  obtain ⟨n, hexec, hverdicts⟩ := Option.map_eq_some_iff.1 hrun
  obtain ⟨htest, hconnect⟩ := Prod.mk.inj hverdicts
  refine ⟨n, hexec, htest, hconnect, fun hagree => ?_⟩
  have hverdict := hagree.verdict
  rw [htest, hconnect] at hverdict
  cases hverdict

end UnemployCoin
