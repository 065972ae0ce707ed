import UnemployCoin.BlockCommands
import UnemployCoin.Lib.Toggles
/-!
# Frozen addresses and frozen assets

The commands of the blocks of a chain freeze and unfreeze addresses for an asset, and assets as a
whole.  This module says which are frozen along a chain, and what becomes of the commands of a
block.
-/

namespace UnemployCoin

open Check CAssetsCache Toggles StdMap

variable {env : Env} {st : AssetState} {cache cache' : CAssetsCache} {tx : CTransaction}

/-! ## The frozen sets -/

def addressCommand : NullCommand → Option ((Bytes × Bytes) × RestrictedType)
  | .restricted assetName address type => some ((assetName, address), type)
  | _ => none

def assetCommand : NullCommand → Option (Bytes × RestrictedType)
  | .global assetName type => some (assetName, type)
  | _ => none

def addressCoding (env : Env) : Coding (Bytes × Bytes) Bytes (Bytes × Bytes) RestrictedType where
  on := .FREEZE_ADDRESS
  off := .UNFREEZE_ADDRESS
  on_ne_off := by decide
  cacheKey key := cacheHash env key.1 key.2
  dbKey := Prod.swap
  dbKey_injective := Prod.swap_injective

def assetCoding : Coding Bytes Bytes Bytes RestrictedType where
  on := .GLOBAL_FREEZE
  off := .GLOBAL_UNFREEZE
  on_ne_off := by decide
  cacheKey := id
  dbKey := id
  dbKey_injective := Function.injective_id

/-- The addresses that are frozen for an asset after the blocks of a chain, tip first. -/
def frozenAddresses (env : Env) : List CBlock → Set (Bytes × Bytes)
  | [] => ∅
  | block :: chain =>
    applyTo (addressCoding env) (frozenAddresses env chain)
      ((commandsOf env block.vtx).filterMap addressCommand)

def frozenAssets (env : Env) : List CBlock → Set Bytes
  | [] => ∅
  | block :: chain =>
    applyTo assetCoding (frozenAssets env chain)
      ((commandsOf env block.vtx).filterMap assetCommand)

def addressLayers (st : AssetState) : Layers (Bytes × Bytes) Bytes (Bytes × Bytes) RestrictedType :=
  ⟨st.passets.newRestrictedAddress, st.passetsRestrictionCache,
    st.prestricteddb.restrictedAddresses⟩

def assetLayers (st : AssetState) : Layers Bytes Bytes Bytes RestrictedType :=
  ⟨st.passets.newRestrictedGlobal, st.passetsGlobalRestrictionCache,
    st.prestricteddb.globalRestrictions⟩

theorem checkForAddressRestriction_tip (name address : Bytes) :
    cache.checkForAddressRestriction env st name address true =
      (addressLayers st).answer (addressCoding env) (name, address) := by
  simp only [checkForAddressRestriction, if_true, Layers.answer, addressLayers]
  cases st.passets.newRestrictedAddress.toRemove.find? (name, address) with
  | some type => rfl
  | none => cases st.passets.newRestrictedAddress.toAdd.find? (name, address) <;> rfl

theorem checkForGlobalRestriction_tip (name : Bytes) :
    cache.checkForGlobalRestriction st name true = (assetLayers st).answer assetCoding name := by
  simp only [checkForGlobalRestriction, if_true, Layers.answer, assetLayers]
  cases st.passets.newRestrictedGlobal.toRemove.find? name with
  | some type => rfl
  | none => cases st.passets.newRestrictedGlobal.toAdd.find? name <;> rfl

/-! ## A dump -/

/-- The databases and caches of frozen addresses and frozen assets. -/
def AssetState.freezePart (st : AssetState) :
    Layers (Bytes × Bytes) Bytes (Bytes × Bytes) RestrictedType ×
      Layers Bytes Bytes Bytes RestrictedType :=
  (addressLayers st, assetLayers st)

theorem dumpQualifiers_freezePart : (dumpQualifiers env cache st).freezePart = st.freezePart :=
  dumpQualifiers_keeps fun _ _ _ => rfl

theorem dumpGlobals_addressLayers : addressLayers (dumpGlobals cache st) = addressLayers st :=
  dumpGlobals_keeps fun _ _ _ => rfl

theorem dumpRestrictions_assetLayers :
    assetLayers (dumpRestrictions env cache st) = assetLayers st :=
  dumpRestrictions_keeps fun _ _ _ => rfl

def dumpOthers (env : Env) (cache : CAssetsCache) (st : AssetState) : AssetState :=
  dumpQualifiers env cache (dumpVerifiers cache (dumpReissues cache (dumpIssues cache st)))

theorem dumpOthers_freezePart : (dumpOthers env cache st).freezePart = st.freezePart := by
  rw [dumpOthers, dumpQualifiers_freezePart]
  have hkept : (dumpAssets cache st).commandPart = st.commandPart := dumpAssets_commandPart
  exact congrArg (fun part => ((⟨part.1.newRestrictedAddress, part.2.1.2.1, part.2.2.2.1⟩ :
    Layers (Bytes × Bytes) Bytes (Bytes × Bytes) RestrictedType),
    (⟨part.1.newRestrictedGlobal, part.2.1.2.2, part.2.2.2.2⟩ :
      Layers Bytes Bytes Bytes RestrictedType))) hkept

theorem addressLayers_dumpRestricted {fUndo : Bool} {e : (Bytes × Bytes) × RestrictedType}
    (he : e.2 = .FREEZE_ADDRESS ∨ e.2 = .UNFREEZE_ADDRESS) :
    addressLayers (dumpRestricted env fUndo st e) =
      (addressLayers st).write (addressCoding env) fUndo e := by
  obtain ⟨key, type⟩ := e
  simp only at he
  rcases he with rfl | rfl <;> cases fUndo <;> rfl

theorem assetLayers_dumpGlobal {fUndo : Bool} {e : Bytes × RestrictedType}
    (he : e.2 = .GLOBAL_FREEZE ∨ e.2 = .GLOBAL_UNFREEZE) :
    assetLayers (dumpGlobal fUndo st e) = (assetLayers st).write assetCoding fUndo e := by
  obtain ⟨name, type⟩ := e
  simp only at he
  rcases he with rfl | rfl <;> cases fUndo <;> rfl

theorem addressLayers_dump {K S : Set (Bytes × Bytes)}
    (h : Tracks (addressCoding env) K (addressLayers st) S) :
    addressLayers (st.dumpCacheToDatabase env) = (addressLayers st).dump (addressCoding env) := by
  have hadd : ∀ (st' : AssetState), ∀ e ∈ st.passets.newRestrictedAddress.toAdd.entries,
      addressLayers (dumpRestricted env false st' e) =
        (addressLayers st').write (addressCoding env) false e := by
    intro st' e he
    exact addressLayers_dumpRestricted (h.known e.1 e.2 (Or.inl (mem_entries.1 he))).2
  have hremove : ∀ (st' : AssetState), ∀ e ∈ st.passets.newRestrictedAddress.toRemove.entries,
      addressLayers (dumpRestricted env true st' e) =
        (addressLayers st').write (addressCoding env) true e := by
    intro st' e he
    exact addressLayers_dumpRestricted (h.known e.1 e.2 (Or.inr (mem_entries.1 he))).2
  have hdump : addressLayers (st.dumpCacheToDatabase env) =
      { addressLayers (dumpGlobals st.passets (dumpRestrictions env st.passets
          (dumpOthers env st.passets st))) with staged := ∅ } := rfl
  have hothers : addressLayers (dumpOthers env st.passets st) = addressLayers st :=
    congrArg Prod.fst dumpOthers_freezePart
  rw [hdump, dumpGlobals_addressLayers, dumpRestrictions, foldl_commutes hremove,
    foldl_commutes hadd, hothers]
  rfl

theorem assetLayers_dump {K S : Set Bytes} (h : Tracks assetCoding K (assetLayers st) S) :
    assetLayers (st.dumpCacheToDatabase env) = (assetLayers st).dump assetCoding := by
  have hadd : ∀ (st' : AssetState), ∀ e ∈ st.passets.newRestrictedGlobal.toAdd.entries,
      assetLayers (dumpGlobal false st' e) = (assetLayers st').write assetCoding false e := by
    intro st' e he
    exact assetLayers_dumpGlobal (h.known e.1 e.2 (Or.inl (mem_entries.1 he))).2
  have hremove : ∀ (st' : AssetState), ∀ e ∈ st.passets.newRestrictedGlobal.toRemove.entries,
      assetLayers (dumpGlobal true st' e) = (assetLayers st').write assetCoding true e := by
    intro st' e he
    exact assetLayers_dumpGlobal (h.known e.1 e.2 (Or.inr (mem_entries.1 he))).2
  have hdump : assetLayers (st.dumpCacheToDatabase env) =
      { assetLayers (dumpGlobals st.passets (dumpRestrictions env st.passets
          (dumpOthers env st.passets st))) with staged := ∅ } := rfl
  have hothers : assetLayers (dumpOthers env st.passets st) = assetLayers st :=
    congrArg Prod.snd dumpOthers_freezePart
  rw [hdump, dumpGlobals, foldl_commutes hremove, foldl_commutes hadd,
    dumpRestrictions_assetLayers, hothers]
  rfl

/-! ## Commands in the local cache -/

def CAssetsCache.freezes (cache : CAssetsCache) :
    Staged (Bytes × Bytes) RestrictedType × Staged Bytes RestrictedType :=
  (cache.newRestrictedAddress, cache.newRestrictedGlobal)

theorem updateRootQualifiers_freezes {name address : Bytes} {fAdd : Bool} :
    (cache.updateRootQualifiers name address fAdd).freezes = cache.freezes := by
  rw [updateRootQualifiers]
  split
  · split <;> rfl
  · rfl

theorem addCommand_newRestrictedAddress (cache : CAssetsCache) (command : NullCommand) :
    (cache.addCommand command).newRestrictedAddress =
      (addressCommand command).elim cache.newRestrictedAddress fun e =>
        cache.newRestrictedAddress.add true e.1 e.2 := by
  cases command with
  | qualifier => exact congrArg Prod.fst updateRootQualifiers_freezes
  | restricted => rfl
  | global => rfl

theorem addCommand_newRestrictedGlobal (cache : CAssetsCache) (command : NullCommand) :
    (cache.addCommand command).newRestrictedGlobal =
      (assetCommand command).elim cache.newRestrictedGlobal fun e =>
        cache.newRestrictedGlobal.add true e.1 e.2 := by
  cases command with
  | qualifier => exact congrArg Prod.snd updateRootQualifiers_freezes
  | restricted => rfl
  | global => rfl

theorem removeCommand_newRestrictedAddress (cache : CAssetsCache) (command : NullCommand) :
    (cache.removeCommand command).newRestrictedAddress =
      (addressCommand command).elim cache.newRestrictedAddress fun e =>
        cache.newRestrictedAddress.remove true e.1 e.2 := by
  cases command with
  | qualifier => exact congrArg Prod.fst updateRootQualifiers_freezes
  | restricted => rfl
  | global => rfl

theorem removeCommand_newRestrictedGlobal (cache : CAssetsCache) (command : NullCommand) :
    (cache.removeCommand command).newRestrictedGlobal =
      (assetCommand command).elim cache.newRestrictedGlobal fun e =>
        cache.newRestrictedGlobal.remove true e.1 e.2 := by
  cases command with
  | qualifier => exact congrArg Prod.snd updateRootQualifiers_freezes
  | restricted => rfl
  | global => rfl

def stagedFreezes (commands : List NullCommand) :
    Staged (Bytes × Bytes) RestrictedType × Staged Bytes RestrictedType :=
  (stageAll (commands.filterMap addressCommand), stageAll (commands.filterMap assetCommand))

/-- The freezes that undoing commands stages in an empty cache. -/
def stagedUnfreezes (commands : List NullCommand) :
    Staged (Bytes × Bytes) RestrictedType × Staged Bytes RestrictedType :=
  (stageRemovals (commands.filterMap addressCommand),
    stageRemovals (commands.filterMap assetCommand))

theorem addCommands_freezes {done : List NullCommand} (h : cache.freezes = stagedFreezes done)
    (commands : List NullCommand) :
    (commands.foldl addCommand cache).freezes = stagedFreezes (done ++ commands) := by
  have haddress : cache.newRestrictedAddress = stageAll (done.filterMap addressCommand) :=
    congrArg Prod.fst h
  have hasset : cache.newRestrictedGlobal = stageAll (done.filterMap assetCommand) :=
    congrArg Prod.snd h
  exact Prod.ext (foldl_stage addCommand_newRestrictedAddress haddress commands)
    (foldl_stage addCommand_newRestrictedGlobal hasset commands)

theorem removeCommands_freezes {done : List NullCommand}
    (h : cache.freezes = stagedUnfreezes done) (commands : List NullCommand) :
    (commands.foldl removeCommand cache).freezes = stagedUnfreezes (done ++ commands) := by
  have haddress : cache.newRestrictedAddress = stageRemovals (done.filterMap addressCommand) :=
    congrArg Prod.fst h
  have hasset : cache.newRestrictedGlobal = stageRemovals (done.filterMap assetCommand) :=
    congrArg Prod.snd h
  exact Prod.ext (foldl_stageRemoval removeCommand_newRestrictedAddress haddress commands)
    (foldl_stageRemoval removeCommand_newRestrictedGlobal hasset commands)

/-! ## Connecting a block -/

theorem isAssetNameAnRestricted_of_type {name : Bytes} (h : assetTypeOf name = .RESTRICTED) :
    isAssetNameAQualifier name false = false ∧ isAssetNameAnRestricted name = true := by
  have hvalid := isAssetNameValid_of_assetTypeOf h (by decide)
  obtain ⟨hqualifier, hsub, hrestricted⟩ :=
    indicators_of_restricted (indicatedType_of_valid hvalid)
  constructor
  · rw [isAssetNameAQualifier, if_neg Bool.false_ne_true, isAssetNameAn, Regex.regexMatch_alt,
      hqualifier, hsub, Bool.or_self, Bool.and_false]
  · rw [isAssetNameAnRestricted, isAssetNameAn, hvalid, hrestricted]
    rfl

def CommandChanges (env : Env) (st : AssetState) : NullCommand → Prop
  | .qualifier _ _ _ => True
  | .restricted name address type =>
    (type = .FREEZE_ADDRESS ∨ type = .UNFREEZE_ADDRESS) ∧
      (type = .FREEZE_ADDRESS ↔
        (addressLayers st).answer (addressCoding env) (name, address) = false)
  | .global name type =>
    (type = .GLOBAL_FREEZE ∨ type = .GLOBAL_UNFREEZE) ∧
      (type = .GLOBAL_FREEZE ↔ (assetLayers st).answer assetCoding name = false)

theorem commandChanges_of_check {out : CTxOut} {command : NullCommand}
    (h : checkNullAssetOutput env st cache out = .ok ())
    (hcommand : nullCommand env out = some command) :
    env.dep.areRestrictedAssetsDeployed = true ∧ CommandChanges env st command := by
  rw [checkNullAssetOutput, require_bind] at h
  obtain ⟨hdep, h⟩ := h
  refine ⟨hdep, ?_⟩
  rw [nullCommand] at hcommand
  split at hcommand
  · rename_i hscript
    rw [if_pos hscript, contextualCheckNullAssetTxOut, demand_bind] at h
    obtain ⟨⟨data, address⟩, hdata, h⟩ := h
    rw [hdata] at hcommand
    simp only [Option.getD_some] at hcommand
    split at hcommand
    · rename_i htype
      obtain ⟨hqualifier, hrestricted⟩ := isAssetNameAnRestricted_of_type htype
      simp only [hqualifier, hrestricted, if_true, Bool.false_eq_true, if_false] at h
      cases hcommand
      rw [verifyRestrictedAddressChange, checkForAddressRestriction_tip] at h
      exact ofFlag_of_verifyChange (by decide) h
    · cases hcommand
      trivial
    · cases hcommand
      trivial
    · cases hcommand
  · rename_i hscript
    split at hcommand
    · rename_i hglobal
      rw [if_neg hscript, if_pos hglobal, contextualCheckGlobalAssetTxOut, demand_bind] at h
      obtain ⟨data, hdata, h⟩ := h
      rw [hdata] at hcommand
      cases hcommand
      rw [verifyGlobalRestrictedChange, checkForGlobalRestriction_tip] at h
      exact ofFlag_of_verifyChange (by decide) h
    · cases hcommand

/-- **Connecting a block.**  Its commands, each of which changes the state at the tip, are
staged in the local cache. -/
theorem connectBlock_freezes {view : CCoinsView} {ctx : BlockContext} {block : CBlock}
    {s : ConnectState} (hgenesis : block.hash ≠ env.params.hashGenesisBlock)
    (hcoinbase : CoinbaseWithoutCommands env block)
    (h : connectBlock env st ctx block view .empty = .ok s) :
    s.assetsCache.freezes = stagedFreezes (commandsOf env block.vtx) ∧
      ∀ command ∈ commandsOf env block.vtx, CommandChanges env st command := by
  refine ⟨?_, fun command hcommand => ?_⟩
  · have hpart := connectBlock_commandPart hgenesis hcoinbase h
    have hfreezes : s.assetsCache.freezes =
        ((commandsOf env block.vtx).foldl addCommand .empty).freezes :=
      congrArg (fun part => (part.2.1, part.2.2.1)) hpart
    have hnone : CAssetsCache.empty.freezes = stagedFreezes [] := rfl
    rw [hfreezes]
    exact addCommands_freezes hnone _
  · obtain ⟨-, c, out, hread, hcheck⟩ :=
      commandChecked_of_connectBlock hgenesis hcoinbase h hcommand
    exact (commandChanges_of_check hcheck hread).2

/-- **Disconnecting a block.**  Its commands are undone in the local cache, those of the last
transaction first. -/
theorem disconnectBlock_freezes {nHeight : ℕ} {block : CBlock} {vtxundo : List CTxUndo}
    {vUndoData : List (Bytes × CBlockAssetUndo)} {view : CCoinsView} {s : DisconnectState}
    (hdep : commandsOf env block.vtx ≠ [] →
      env.dep.areAssetsDeployed = true ∧ env.dep.areRestrictedAssetsDeployed = true)
    (h : disconnectBlock env st nHeight block vtxundo vUndoData view .empty = .ok s) :
    s.assetsCache.freezes = stagedUnfreezes (commandsOf env block.vtx.reverse) := by
  have hpart := disconnectBlock_commandPart hdep h
  have hfreezes : s.assetsCache.freezes =
      ((commandsOf env block.vtx.reverse).foldl removeCommand .empty).freezes :=
    congrArg (fun part => (part.2.1, part.2.2.1)) hpart
  have hnone : CAssetsCache.empty.freezes = stagedUnfreezes [] := rfl
  rw [hfreezes]
  exact removeCommands_freezes hnone _

end UnemployCoin
