import UnemployCoin.CacheSetups
/-!
# The order of the commands of a block

Each command of a block is checked against the state at the tip, where a tag is on an address or
not, and an address or an asset is frozen or not.  So a block has only one kind of command for an
address and a tag (`oneKind_of_connectBlock`), and the tags and freezes behind the block do not
depend on the order of its commands (`connectBlock_commands_perm`).
-/

namespace UnemployCoin

open Check CAssetsCache Toggles

variable {env : Env} {st : AssetState} {cache cache' : CAssetsCache}
  {commands commands' : List NullCommand}

/-! ## Caches with the same commands -/

structure SameCommands (cache cache' : CAssetsCache) : Prop where
  qualifiers : Staged.Same cache.newQualifierAddress cache'.newQualifierAddress
  restrictions : Staged.Same cache.newRestrictedAddress cache'.newRestrictedAddress
  globals : Staged.Same cache.newRestrictedGlobal cache'.newRestrictedGlobal
  touched : ∀ key, cache.touched key = cache'.touched key

theorem SameCommands.symm (h : SameCommands cache cache') : SameCommands cache' cache :=
  ⟨h.qualifiers.symm, h.restrictions.symm, h.globals.symm, fun key => (h.touched key).symm⟩

theorem SameCommands.trans {cache'' : CAssetsCache} (h : SameCommands cache cache')
    (h' : SameCommands cache' cache'') : SameCommands cache cache'' :=
  ⟨h.qualifiers.trans h'.qualifiers, h.restrictions.trans h'.restrictions,
    h.globals.trans h'.globals, fun key => (h.touched key).trans (h'.touched key)⟩

theorem SameCommands.of_commandPart (h : cache.commandPart = cache'.commandPart) :
    SameCommands cache cache' := by
  have hqualifiers : cache.newQualifierAddress = cache'.newQualifierAddress := congrArg Prod.fst h
  have hrestrictions : cache.newRestrictedAddress = cache'.newRestrictedAddress :=
    congrArg (fun part => part.2.1) h
  have hglobals : cache.newRestrictedGlobal = cache'.newRestrictedGlobal :=
    congrArg (fun part => part.2.2.1) h
  refine ⟨?_, ?_, ?_, fun key => touched_of_commandPart h⟩
  · rw [hqualifiers]
    exact .refl _
  · rw [hrestrictions]
    exact .refl _
  · rw [hglobals]
    exact .refl _

/-- The tags and freezes at the tip are the same. -/
structure SameMarks (env : Env) (st st' : AssetState) : Prop where
  qualifier : ∀ name address, CAssetsCache.empty.checkForAddressQualifier env st name address true =
    CAssetsCache.empty.checkForAddressQualifier env st' name address true
  restriction : ∀ name address,
    CAssetsCache.empty.checkForAddressRestriction env st name address true =
      CAssetsCache.empty.checkForAddressRestriction env st' name address true
  globalRestriction : ∀ name, CAssetsCache.empty.checkForGlobalRestriction st name true =
    CAssetsCache.empty.checkForGlobalRestriction st' name true

theorem SameCommands.hasSubQualifier_flush (h : SameCommands cache cache') (P : CAssetsCache)
    (key : Bytes × Bytes) :
    hasSubQualifier (cache.flushInto P).mapRootQualifierAddressesAdd key =
      hasSubQualifier (cache'.flushInto P).mapRootQualifierAddressesAdd key := by
  rw [Bool.eq_iff_iff, hasSubQualifier_iff, hasSubQualifier_iff, subTags_flushInto,
    subTags_flushInto, h.touched]

/-- **The commands that are staged** decide on the tags and freezes after a flush. -/
theorem SameCommands.flush (h : SameCommands cache cache') (st : AssetState) :
    SameMarks env (st.flush cache) (st.flush cache') := by
  have hqualifiers := h.qualifiers.flush true st.passets.newQualifierAddress
  have hrestrictions := h.restrictions.flush true st.passets.newRestrictedAddress
  have hglobals := h.globals.flush true st.passets.newRestrictedGlobal
  constructor
  · intro name address
    have hadd : (st.flush cache).passets.newQualifierAddress.toAdd.find? (name, address) =
        (st.flush cache').passets.newQualifierAddress.toAdd.find? (name, address) :=
      hqualifiers.toAdd _
    have hremove : (st.flush cache).passets.newQualifierAddress.toRemove.find? (name, address) =
        (st.flush cache').passets.newQualifierAddress.toRemove.find? (name, address) :=
      hqualifiers.toRemove _
    have hsub : hasSubQualifier (st.flush cache).passets.mapRootQualifierAddressesAdd
          (name, address) =
        hasSubQualifier (st.flush cache').passets.mapRootQualifierAddressesAdd (name, address) :=
      h.hasSubQualifier_flush st.passets _
    simp only [checkForAddressQualifier, hadd, hremove, hsub]
    rfl
  · intro name address
    have hadd : (st.flush cache).passets.newRestrictedAddress.toAdd.find? (name, address) =
        (st.flush cache').passets.newRestrictedAddress.toAdd.find? (name, address) :=
      hrestrictions.toAdd _
    have hremove : (st.flush cache).passets.newRestrictedAddress.toRemove.find? (name, address) =
        (st.flush cache').passets.newRestrictedAddress.toRemove.find? (name, address) :=
      hrestrictions.toRemove _
    simp only [checkForAddressRestriction, hadd, hremove]
    rfl
  · intro name
    have hadd : (st.flush cache).passets.newRestrictedGlobal.toAdd.find? name =
        (st.flush cache').passets.newRestrictedGlobal.toAdd.find? name := hglobals.toAdd _
    have hremove : (st.flush cache).passets.newRestrictedGlobal.toRemove.find? name =
        (st.flush cache').passets.newRestrictedGlobal.toRemove.find? name := hglobals.toRemove _
    simp only [checkForGlobalRestriction, hadd, hremove]
    rfl

/-- No two commands put a tag on an address and take it off, or freeze and unfreeze an address or an
asset. -/
structure OneKind (commands : List NullCommand) : Prop where
  tags : OneEach (commands.filterMap tagCommand)
  addresses : OneEach (commands.filterMap addressCommand)
  assets : OneEach (commands.filterMap assetCommand)

theorem eq_of_iff {α : Type} {on off type type' : α} {p : Prop} (h : type = on ∨ type = off)
    (h' : type' = on ∨ type' = off) (hp : type = on ↔ p) (hp' : type' = on ↔ p) : type = type' := by
  rcases h with hon | hoff
  · rw [hon, hp'.2 (hp.1 hon)]
  · rcases h' with hon' | hoff'
    · rw [hon', hp.2 (hp'.1 hon')]
    · rw [hoff, hoff']

/-- **One kind of command** passes for an address and a tag. -/
theorem oneKind_of_checked (htag : ∀ e ∈ commands.filterMap tagCommand, TagName e.1.1)
    (hchecked : ∀ command ∈ commands, CommandChecked env st command) : OneKind commands := by
  have hchanges : ∀ command ∈ commands, CommandChanges env st command := by
    intro command hcommand
    obtain ⟨-, c, out, hread, hcheck⟩ := hchecked command hcommand
    exact (commandChanges_of_check hcheck hread).2
  constructor
  · rintro ⟨key, type⟩ he ⟨key', type'⟩ he' hkey
    obtain rfl : key = key' := hkey
    have htagged : ∀ type, (key, type) ∈ commands.filterMap tagCommand →
        (type = .ADD_QUALIFIER ∨ type = .REMOVE_QUALIFIER) ∧ (type = .ADD_QUALIFIER ↔
          CAssetsCache.empty.checkForAddressQualifier env st key.1 key.2 true = false) := by
      intro type hmem
      obtain ⟨command, hcommand, hread⟩ := List.mem_filterMap.1 hmem
      cases command with
      | qualifier name address type =>
        cases hread
        obtain ⟨c, htype, hon⟩ := tagChange_of_checked (htag _ hmem) (hchecked _ hcommand)
        exact ⟨htype, hon⟩
      | restricted => cases hread
      | global => cases hread
    obtain ⟨htype, hon⟩ := htagged type he
    obtain ⟨htype', hon'⟩ := htagged type' he'
    rw [eq_of_iff htype htype' hon hon']
  · rintro ⟨key, type⟩ he ⟨key', type'⟩ he' hkey
    obtain rfl : key = key' := hkey
    have hfrozen : ∀ type, (key, type) ∈ commands.filterMap addressCommand →
        CommandChanges env st (.restricted key.1 key.2 type) := by
      intro type hmem
      obtain ⟨command, hcommand, hread⟩ := List.mem_filterMap.1 hmem
      cases command with
      | qualifier => cases hread
      | restricted name address type =>
        cases hread
        exact hchanges _ hcommand
      | global => cases hread
    obtain ⟨htype, hon⟩ := hfrozen type he
    obtain ⟨htype', hon'⟩ := hfrozen type' he'
    rw [eq_of_iff htype htype' hon hon']
  · rintro ⟨name, type⟩ he ⟨name', type'⟩ he' hname
    obtain rfl : name = name' := hname
    have hfrozen : ∀ type, (name, type) ∈ commands.filterMap assetCommand →
        CommandChanges env st (.global name type) := by
      intro type hmem
      obtain ⟨command, hcommand, hread⟩ := List.mem_filterMap.1 hmem
      cases command with
      | qualifier => cases hread
      | restricted => cases hread
      | global name type =>
        cases hread
        exact hchanges _ hcommand
    obtain ⟨htype, hon⟩ := hfrozen type he
    obtain ⟨htype', hon'⟩ := hfrozen type' he'
    rw [eq_of_iff htype htype' hon hon']

/-! ## Any order -/

theorem OneKind.sameCommands (h : OneKind commands) (hperm : commands.Perm commands') :
    SameCommands (commands.foldl addCommand .empty) (commands'.foldl addCommand .empty) := by
  have hmem : ∀ {α : Type} (f : NullCommand → Option α) (e : α),
      e ∈ commands.filterMap f ↔ e ∈ commands'.filterMap f :=
    fun f e => (hperm.filterMap f).mem_iff
  have hnone : CAssetsCache.empty.newQualifierAddress =
      stageAll (([] : List NullCommand).filterMap tagCommand) := rfl
  have hstart : CAssetsCache.empty.freezes = stagedFreezes [] := rfl
  have hfreezes : ∀ commands : List NullCommand,
      (commands.foldl addCommand .empty).freezes = stagedFreezes commands :=
    addCommands_freezes hstart
  have haddress : ∀ commands : List NullCommand,
      (commands.foldl addCommand .empty).newRestrictedAddress =
        stageAll (commands.filterMap addressCommand) :=
    fun commands => congrArg Prod.fst (hfreezes commands)
  have hasset : ∀ commands : List NullCommand,
      (commands.foldl addCommand .empty).newRestrictedGlobal =
        stageAll (commands.filterMap assetCommand) :=
    fun commands => congrArg Prod.snd (hfreezes commands)
  constructor
  · rw [foldl_stage addCommand_newQualifierAddress hnone,
      foldl_stage addCommand_newQualifierAddress hnone, List.nil_append, List.nil_append]
    exact stageAll_same h.tags (hmem tagCommand)
  · rw [haddress, haddress]
    exact stageAll_same h.addresses (hmem addressCommand)
  · rw [hasset, hasset]
    exact stageAll_same h.assets (hmem assetCommand)
  · intro key
    ext x
    rw [mem_touched_foldl mem_touched_addCommand, mem_touched_foldl mem_touched_addCommand]
    simp only [hmem tagCommand]

theorem sameCommands_of_connectBlock {view : CCoinsView} {ctx : BlockContext} {block : CBlock}
    {s : ConnectState} (hcoinbase : CoinbaseWithoutCommands env block)
    (h : connectBlock env st ctx block view .empty = .ok s) :
    SameCommands ((commandsOf env (connectedTxs env block)).foldl addCommand .empty)
        s.assetsCache ∧
      OneKind (commandsOf env (connectedTxs env block)) := by
  rw [connectedTxs]
  split
  · rename_i hgenesis
    rw [connectBlock, unit_bind, if_pos hgenesis] at h
    cases h.2
    have hnone {α : Type} (p : α → Prop) : ∀ e ∈ ([] : List α), p e := fun _ he =>
      absurd he List.not_mem_nil
    exact ⟨.of_commandPart rfl, ⟨hnone _, hnone _, hnone _⟩⟩
  · rename_i hgenesis
    have hpart := connectBlock_commandPart hgenesis hcoinbase h
    have hchecked : ∀ command ∈ commandsOf env block.vtx, CommandChecked env st command :=
      fun command hcommand => commandChecked_of_connectBlock hgenesis hcoinbase h hcommand
    exact ⟨.of_commandPart hpart.symm,
      oneKind_of_checked (fun e he => tagName_of_tagsOf he) hchecked⟩

/-- **The order of the commands does not matter**, in any state at the tip: a block that is taken
has one kind of command only for an address and a tag, and the tags and freezes behind it are those
that its commands leave in any other order. -/
theorem connectBlock_commands_perm {view : CCoinsView} {ctx : BlockContext} {block : CBlock}
    {s : ConnectState} (hcoinbase : CoinbaseWithoutCommands env block)
    (h : connectBlock env st ctx block view .empty = .ok s) :
    OneKind (commandsOf env (connectedTxs env block)) ∧
      ∀ commands : List NullCommand, commands.Perm (commandsOf env (connectedTxs env block)) →
        SameMarks env (st.flush s.assetsCache) (st.flush (commands.foldl addCommand .empty)) := by
  obtain ⟨hsame, hone⟩ := sameCommands_of_connectBlock hcoinbase h
  refine ⟨hone, fun commands hperm => ?_⟩
  exact (hsame.symm.trans (hone.sameCommands hperm.symm)).flush st

/-- A command that freezes a key for `$NAME`. -/
def freezeKey (key : UInt8) : CTxOut where
  nValue := 0
  scriptPubKey := [OP_UNEMP_ASSET] ++ CScript.pushData (keyHash key) ++
    CScript.pushData (CNullAssetTxData.serialize ⟨ascii "$NAME", 1⟩)

def freezeOf (key : UInt8) : NullCommand :=
  .restricted (ascii "$NAME") (addressOf payableEnv (freezeKey key).scriptPubKey) .FREEZE_ADDRESS

/-- The owner of `NAME` freezes key 1 and then key 2. -/
def freezeBothBlock : CBlock :=
  ⟨1002, [coinbaseTx 1002 (5000 * COIN),
    ⟨2002, [⟨⟨2001, 1⟩, []⟩], [transferOwnerNAME, freezeKey 1, freezeKey 2]⟩]⟩

/-- The two keys in the other order. -/
theorem freezeBothBlock_perm :
    ∃ n, (node payableEnv).exec .genesis (connects (coinbaseChain 101) ++
        [.connectTip activeContext issueBlock]) = some n ∧
      ∃ s, n.connectOn payableEnv activeContext freezeBothBlock .empty = .ok s ∧
        SameMarks (payableEnv.withTip activeContext) (n.st.flush s.assetsCache)
          (n.st.flush ([freezeOf 2, freezeOf 1].foldl addCommand .empty)) := by
  have hrun : ((node payableEnv).exec .genesis (connects (coinbaseChain 101) ++
      [.connectTip activeContext issueBlock])).map (fun n =>
        (n.connectOn payableEnv activeContext freezeBothBlock .empty).isOk) = some true := by
    rw [exec_coinbaseChain ⟨rfl, rfl⟩ (by decide)]
    decide +kernel
  obtain ⟨n, hexec, hok⟩ := Option.map_eq_some_iff.1 hrun
  have hcommands : commandsOf (payableEnv.withTip activeContext)
      (connectedTxs (payableEnv.withTip activeContext) freezeBothBlock) =
        [freezeOf 1, freezeOf 2] := by
    decide +kernel
  cases hs : n.connectOn payableEnv activeContext freezeBothBlock .empty with
  | ok s =>
    have hmarks := (connectBlock_commands_perm (Or.inl rfl) hs).2
    rw [hcommands] at hmarks
    exact ⟨n, hexec, s, hs, hmarks _ (List.Perm.swap _ _ _)⟩
  | error e =>
    rw [hs] at hok
    cases hok

/-- The coinbase unfreezes key 1, which is not frozen, and the owner of `NAME` freezes it. -/
def opposedBlock : CBlock :=
  ⟨1002, coinbaseUnfreezeBlock.vtx ++
    [⟨2002, [⟨⟨2001, 1⟩, []⟩], [transferOwnerNAME, freezeOutput 1]⟩]⟩

/-- Where the coinbase is not checked, a block has both commands for key 1, and it is frozen behind
the block in one order only. -/
theorem opposedBlock_order :
    ∃ n, (node payableEnv).exec .genesis (connects (coinbaseChain 101) ++
        [.connectTip activeContext issueBlock]) = some n ∧
      ∃ s, n.connectOn payableEnv uncheckedContext opposedBlock .empty = .ok s ∧
        CAssetsCache.empty.checkForAddressRestriction payableEnv (n.st.flush s.assetsCache)
          frozenKey.1 frozenKey.2 true = true ∧
        CAssetsCache.empty.checkForAddressRestriction payableEnv
          (n.st.flush ((commandsOf payableEnv opposedBlock.vtx).reverse.foldl addCommand .empty))
          frozenKey.1 frozenKey.2 true = false := by
  have hrun : ((node payableEnv).exec .genesis (connects (coinbaseChain 101) ++
      [.connectTip activeContext issueBlock])).map (fun n =>
        ((n.connectOn payableEnv uncheckedContext opposedBlock .empty).toOption.map fun s =>
          CAssetsCache.empty.checkForAddressRestriction payableEnv (n.st.flush s.assetsCache)
            frozenKey.1 frozenKey.2 true,
        CAssetsCache.empty.checkForAddressRestriction payableEnv
          (n.st.flush ((commandsOf payableEnv opposedBlock.vtx).reverse.foldl addCommand .empty))
          frozenKey.1 frozenKey.2 true)) = some (some true, false) := by
    rw [exec_coinbaseChain ⟨rfl, rfl⟩ (by decide)]
    decide +kernel
  obtain ⟨n, hexec, hpair⟩ := Option.map_eq_some_iff.1 hrun
  obtain ⟨hfrozen, hnot⟩ := Prod.mk.inj hpair
  cases hs : n.connectOn payableEnv uncheckedContext opposedBlock .empty with
  | ok s =>
    rw [hs] at hfrozen
    exact ⟨n, hexec, s, hs, Option.some.inj hfrozen, hnot⟩
  | error e =>
    rw [hs] at hfrozen
    cases hfrozen

end UnemployCoin
