import UnemployCoin.BlockAssets
import UnemployCoin.Lib.Slots
import UnemployCoin.Lib.Toggles
/-!
# Verifier strings

An issue or a reissue of a restricted asset may set its verifier string.  This module says which
string the blocks of a chain set last, and what becomes of it in the asset caches.
-/

namespace UnemployCoin

open Check CAssetsCache

variable {env : Env} {st : AssetState} {cache cache' : CAssetsCache} {tx : CTransaction}
  {name : Bytes}

/-! ## The verifier strings of a chain -/

def resetsVerifier (env : Env) (tx : CTransaction) : Option (Bytes × Bytes) :=
  if tx.assetTxKind env = .reissue ∧ assetTypeOf (reissueOf env tx).1.strName = .RESTRICTED then
    tx.firstVerifier.map fun verifier => ((reissueOf env tx).1.strName, verifier)
  else none

/-- The asset and the verifier string that a transaction sets. -/
def setsVerifier (env : Env) (tx : CTransaction) : Option (Bytes × Bytes) :=
  if tx.assetTxKind env = .newRestricted then
    if tx.verifierOutputs.isEmpty then none
    else some ((orNull (tx.restrictedAssetFromTransaction env)).1.strName,
      tx.firstVerifier.getD [])
  else resetsVerifier env tx

/-- The verifier strings that some transactions set, in order. -/
def verifiersOf (env : Env) (txs : List CTransaction) : List (Bytes × Bytes) :=
  txs.filterMap (setsVerifier env)

/-- The verifier string of an asset after the blocks of a chain, tip first. -/
def verifierOn (env : Env) : List CBlock → Bytes → Option Bytes
  | [], _ => none
  | block :: chain, name =>
    (Toggles.last? (verifiersOf env block.vtx) name).or (verifierOn env chain name)

def recordedName (env : Env) (tx : CTransaction) : Option Bytes :=
  if tx.assetTxKind env = .reissue ∧ (!(reissueOf env tx).1.strIPFSHash.isEmpty ||
      (reissueOf env tx).1.nUnits != -1 || (resetsVerifier env tx).isSome) = true then
    some (reissueOf env tx).1.strName
  else none

variable {e : Bytes × Bytes}

theorem setsVerifier_of_resets (h : resetsVerifier env tx = some e) :
    setsVerifier env tx = some e := by
  have hkind : tx.assetTxKind env = .reissue := by
    rw [resetsVerifier] at h
    split at h
    · rename_i hand
      exact hand.1
    · cases h
  rw [setsVerifier, if_neg (by rw [hkind]; decide), h]

theorem resetsVerifier_of_kind (h : tx.assetTxKind env ≠ .reissue) :
    resetsVerifier env tx = none := by
  rw [resetsVerifier, if_neg fun hand => h hand.1]

theorem setsVerifier_of_other (h : tx.assetTxKind env = .other) : setsVerifier env tx = none := by
  rw [setsVerifier, h, if_neg (by decide), resetsVerifier_of_kind (by rw [h]; decide)]

theorem resetsVerifier_name (h : resetsVerifier env tx = some e) :
    tx.assetTxKind env = .reissue ∧ e.1 = (reissueOf env tx).1.strName ∧
      recordedName env tx = some e.1 := by
  have hsome := h
  rw [resetsVerifier] at h
  split at h
  · rename_i hand
    obtain ⟨verifier, -, rfl⟩ := Option.map_eq_some_iff.1 h
    refine ⟨hand.1, rfl, ?_⟩
    rw [recordedName, if_pos]
    refine ⟨hand.1, ?_⟩
    rw [hsome, Option.isSome_some, Bool.or_true]
  · cases h

theorem verifiersOf_append (txs txs' : List CTransaction) :
    verifiersOf env (txs ++ txs') = verifiersOf env txs ++ verifiersOf env txs' :=
  List.filterMap_append

theorem mem_verifiersOf {txs : List CTransaction} :
    e ∈ verifiersOf env txs ↔ ∃ tx ∈ txs, setsVerifier env tx = some e := List.mem_filterMap

def verifierCoding : Slots.Coding CAssetCacheRestrictedVerifiers Bytes where
  value := CAssetCacheRestrictedVerifiers.verifier
  restored item := if item.fUndoingRessiue then some item.verifier else none

def verifierLayers (st : AssetState) : Slots.Layers Bytes CAssetCacheRestrictedVerifiers Bytes :=
  ⟨st.passets.newRestrictedVerifier, st.passetsVerifierCache, st.prestricteddb.verifiers⟩

theorem getAssetVerifierStringIfExists_unstaged (fSkipTempCache : Bool)
    (h : Slots.Unstaged cache.newRestrictedVerifier name) :
    cache.getAssetVerifierStringIfExists st name fSkipTempCache =
      (verifierLayers st).answer verifierCoding name := by
  rw [getAssetVerifierStringIfExists, h.1, h.2, ite_self, Slots.Layers.answer]
  simp only [verifierLayers]
  cases st.passets.newRestrictedVerifier.toRemove.find? name with
  | some item => rfl
  | none =>
    cases st.passets.newRestrictedVerifier.toAdd.find? name with
    | some item => rfl
    | none =>
      simp only [Slots.Layers.stored]
      cases st.passetsVerifierCache.find? name <;> rfl

/-! ## Connecting a transaction -/

def UndoRecorded (env : Env) (st : AssetState) (cache : CAssetsCache) (tx : CTransaction)
    (e : Bytes × CBlockAssetUndo) : Prop :=
  recordedName env tx = some e.1 ∧
    e.2.fChangedVerifierString = (resetsVerifier env tx).isSome ∧
    ((resetsVerifier env tx).isSome = true →
      e.2.verifierString = (cache.getAssetVerifierStringIfExists st e.1 false).getD [])

theorem addReissue_verifiers (hst : OwnRecords st) (hcache : OwnCache cache)
    (hkind : tx.assetTxKind env = .reissue) {data : AssetMetaData}
    (hdata : cache.getAssetMetaDataIfExists st (reissueOf env tx).1.strName = some data) :
    (addReissue env st tx cache).1.newRestrictedVerifier =
        (resetsVerifier env tx).elim cache.newRestrictedVerifier
          (fun e => cache.newRestrictedVerifier.add false e.1 ⟨e.2, false⟩) ∧
      (∀ e, (addReissue env st tx cache).2 = some e → UndoRecorded env st cache tx e) ∧
      ((resetsVerifier env tx).isSome = true → (addReissue env st tx cache).2 ≠ none) := by
  have hname := getAssetMetaDataIfExists_name hst hcache hdata
  have hkept : ∀ (reissue : CReissueAsset) (address : Bytes) (out : COutPoint),
      ((cache.addReissueAsset env st reissue address out).getD cache).newRestrictedVerifier =
        cache.newRestrictedVerifier := by
    intro reissue address out
    rw [addReissueAsset]
    split <;> rfl
  have hlookup : ∀ (reissue : CReissueAsset) (address : Bytes) (out : COutPoint) (name : Bytes),
      ((cache.addReissueAsset env st reissue address out).getD cache).getAssetVerifierStringIfExists
        st name false = cache.getAssetVerifierStringIfExists st name false := by
    intro reissue address out name
    rw [getAssetVerifierStringIfExists, hkept, getAssetVerifierStringIfExists]
  have hread : (tx.reissueAssetFromTransaction env).getD (.null, []) = reissueOf env tx := rfl
  simp only [UndoRecorded]
  rw [addReissue, hread, recordedName, resetsVerifier]
  simp only [hdata, Option.map_some, Option.getD_some, hname, hkind, true_and]
  by_cases htype : assetTypeOf (reissueOf env tx).1.strName = .RESTRICTED
  · simp only [if_pos htype]
    cases hverifier : tx.firstVerifier with
    | none =>
      simp only [Option.map_none, Option.isSome_none, Bool.or_false, Option.elim]
      refine ⟨hkept _ _ _, fun e he => ?_, fun hfalse => by cases hfalse⟩
      split at he
      · rename_i hrecord
        cases he
        exact ⟨if_pos hrecord, rfl, fun hfalse => by cases hfalse⟩
      · cases he
    | some verifier =>
      simp only [Option.map_some, Option.isSome_some, Bool.or_true, if_true, Option.elim,
        addRestrictedVerifier, hkept, hlookup]
      refine ⟨trivial, fun e he => ?_, fun _ hnone => by cases hnone⟩
      cases he
      exact ⟨rfl, rfl, fun _ => rfl⟩
  · simp only [if_neg htype, Option.isSome_none, Bool.or_false, Option.elim]
    refine ⟨hkept _ _ _, fun e he => ?_, fun hfalse => by cases hfalse⟩
    split at he
    · rename_i hrecord
      cases he
      exact ⟨if_pos hrecord, rfl, fun hfalse => by cases hfalse⟩
    · cases he

theorem tryAddNewAsset_newRestrictedVerifier {nHeight : ℤ} {blockHash : uint256}
    (cache : CAssetsCache) (record : WithAddress CNewAsset) :
    (tryAddNewAsset env st nHeight blockHash cache record).newRestrictedVerifier =
      cache.newRestrictedVerifier := by
  rw [tryAddNewAsset, addNewAsset]
  split <;> rfl

variable {mempoolNames : Option (StdMap Bytes uint256)}

theorem reissueOf_found
    (hcheck : contextualCheckAssetTx env st cache tx mempoolNames = .ok ())
    (hkind : tx.assetTxKind env = .reissue) :
    ∃ data, cache.getAssetMetaDataIfExists st (reissueOf env tx).1.strName = some data := by
  obtain ⟨reissue, address, data, hread, -, hdata⟩ := reissue_of_contextualCheck hkind hcheck
  refine ⟨data, ?_⟩
  rw [reissueOf, hread, Option.getD_some]
  exact hdata

theorem addAssets_verifiers (nHeight : ℤ) (blockHash : uint256) (hst : OwnRecords st)
    (hcache : OwnCache cache)
    (hfound : tx.assetTxKind env = .reissue →
      ∃ data, cache.getAssetMetaDataIfExists st (reissueOf env tx).1.strName = some data) :
    (addAssets env st nHeight blockHash tx cache).1.newRestrictedVerifier =
        (setsVerifier env tx).elim cache.newRestrictedVerifier
          (fun e => cache.newRestrictedVerifier.add false e.1 ⟨e.2, false⟩) ∧
      (∀ e, (addAssets env st nHeight blockHash tx cache).2 = some e →
        UndoRecorded env st cache tx e) ∧
      ((resetsVerifier env tx).isSome = true →
        (addAssets env st nHeight blockHash tx cache).2 ≠ none) := by
  cases hkind : tx.assetTxKind env with
  | reissue =>
    obtain ⟨data, hdata⟩ := hfound hkind
    have hadd := addReissue_verifiers hst hcache hkind hdata
    rw [addAssets, hkind, setsVerifier, hkind, if_neg (by decide)]
    exact hadd
  | newRestricted =>
    have hnone : resetsVerifier env tx = none := resetsVerifier_of_kind (by rw [hkind]; decide)
    rw [addAssets, hkind, setsVerifier, if_pos hkind, hnone]
    refine ⟨?_, (fun e he => by cases he), fun hfalse => by cases hfalse⟩
    simp only [addRestricted]
    cases tx.verifierOutputs with
    | nil => exact tryAddNewAsset_newRestrictedVerifier _ _
    | cons out outs =>
      simp only [addRestrictedVerifier, tryAddNewAsset_newRestrictedVerifier]
      rfl
  | newAsset | newMsgChannel | newQualifier =>
    rw [addAssets, hkind, setsVerifier, hkind, if_neg (by decide),
      resetsVerifier_of_kind (by rw [hkind]; decide)]
    exact ⟨tryAddNewAsset_newRestrictedVerifier _ _, (fun e he => by cases he),
      fun hfalse => by cases hfalse⟩
  | newUnique =>
    rw [addAssets, hkind, setsVerifier, hkind, if_neg (by decide),
      resetsVerifier_of_kind (by rw [hkind]; decide)]
    exact ⟨foldl_keeps tryAddNewAsset_newRestrictedVerifier _ _, (fun e he => by cases he),
      fun hfalse => by cases hfalse⟩
  | other =>
    rw [addAssets, hkind, setsVerifier, hkind, if_neg (by decide),
      resetsVerifier_of_kind (by rw [hkind]; decide)]
    exact ⟨rfl, (fun e he => by cases he),
      fun hfalse => by cases hfalse⟩

theorem updateAssets_verifiers (nHeight : ℤ) (blockHash : uint256) (hst : OwnRecords st)
    (hcache : OwnCache cache)
    (hcheck : tx.assetTxKind env = .other ∨ (env.dep.areAssetsDeployed = true ∧
      contextualCheckAssetTx env st cache tx mempoolNames = .ok ())) :
    (updateAssets env st nHeight blockHash tx cache).1.newRestrictedVerifier =
        (setsVerifier env tx).elim cache.newRestrictedVerifier
          (fun e => cache.newRestrictedVerifier.add false e.1 ⟨e.2, false⟩) ∧
      (∀ e, (updateAssets env st nHeight blockHash tx cache).2 = some e →
        UndoRecorded env st cache tx e) ∧
      ((resetsVerifier env tx).isSome = true →
        (updateAssets env st nHeight blockHash tx cache).2 ≠ none) := by
  have hfound : tx.assetTxKind env = .reissue →
      ∃ data, cache.getAssetMetaDataIfExists st (reissueOf env tx).1.strName = some data := by
    intro hkind
    exact reissueOf_found (hcheck.resolve_left (by rw [hkind]; decide)).2 hkind
  have hadd := addAssets_verifiers nHeight blockHash hst hcache hfound
  rw [updateAssets]
  split
  · refine ⟨?_, hadd.2⟩
    rw [← hadd.1]
    exact congrArg (fun part => part.2.2.2) (addCommands_recordPart _ _)
  · rename_i hdep
    have hother := hcheck.resolve_right fun hand => hdep hand.1
    rw [setsVerifier_of_other hother, resetsVerifier_of_kind (by rw [hother]; decide)]
    exact ⟨rfl, (fun e he => by cases he), fun hfalse => by cases hfalse⟩

/-! ## Connecting a block -/

/-- The condition on a block, given the verifier strings below it: no verifier string is set twice;
what a reissue sets is the first thing that reissues of the asset record; the asset has a verifier
string; and an asset that is issued has none. -/
structure VerifierBlock (env : Env) (f : Bytes → Option Bytes) (block : CBlock) : Prop where
  once : ((verifiersOf env block.vtx).map Prod.fst).Nodup
  first : ∀ pre tx post e, block.vtx = pre ++ tx :: post → resetsVerifier env tx = some e →
    ∀ tx' ∈ pre, recordedName env tx' ≠ some e.1
  known : ∀ tx ∈ block.vtx, ∀ e, resetsVerifier env tx = some e → f e.1 ≠ none
  fresh : ∀ name ∈ blockNames env block, f name = none

/-- The undo data of a block brings the verifier strings below it back. -/
structure VerifierUndo (env : Env) (f : Bytes → Option Bytes) (txs : List CTransaction)
    (vUndoData : List (Bytes × CBlockAssetUndo)) : Prop where
  changed : ∀ name item, findUndoItem vUndoData name = some item →
    item.fChangedVerifierString = true →
      (∃ tx ∈ txs, ∃ verifier, resetsVerifier env tx = some (name, verifier)) ∧
        f name = some item.verifierString
  found : ∀ tx ∈ txs, ∀ e, resetsVerifier env tx = some e →
    ∃ item, findUndoItem vUndoData e.1 = some item ∧ item.fChangedVerifierString = true

theorem findUndoItem_append (l l' : List (Bytes × CBlockAssetUndo)) (name : Bytes) :
    findUndoItem (l ++ l') name = (findUndoItem l name).or (findUndoItem l' name) := by
  rw [findUndoItem, List.find?_append, findUndoItem, findUndoItem]
  cases l.find? (fun undoItem => undoItem.1 == name) <;> rfl

theorem findUndoItem_singleton {o : Option (Bytes × CBlockAssetUndo)} {item : CBlockAssetUndo} :
    findUndoItem (o.toList.filter fun e => !e.1.isEmpty) name = some item ↔
      name ≠ [] ∧ o = some (name, item) := by
  cases o with
  | none => simp [findUndoItem]
  | some e =>
    obtain ⟨name', item'⟩ := e
    by_cases hname : name' = name
    · subst hname
      cases name' <;> simp [findUndoItem]
    · cases name' <;> simp [findUndoItem, hname]

/-- What holds of the local cache and the undo data while a block is connected. -/
structure VerifiersStaged (env : Env) (f : Bytes → Option Bytes) (txs : List CTransaction)
    (cache : CAssetsCache) (vUndoData : List (Bytes × CBlockAssetUndo)) : Prop where
  own : OwnCache cache
  removed : ∀ name, cache.newRestrictedVerifier.toRemove.find? name = none
  added : ∀ name, cache.newRestrictedVerifier.toAdd.find? name =
    (Toggles.last? (verifiersOf env txs) name).map fun verifier => ⟨verifier, false⟩
  recorded : ∀ name item, findUndoItem vUndoData name = some item →
    ∃ tx ∈ txs, recordedName env tx = some name
  undo : VerifierUndo env f txs vUndoData

variable {f : Bytes → Option Bytes}

theorem VerifiersStaged.empty :
    VerifiersStaged env f [] .empty [] where
  own := OwnCache.empty
  removed _ := rfl
  added _ := rfl
  recorded _ _ h := by cases h
  undo := ⟨fun _ _ h => (nomatch h), fun _ h => (nomatch h)⟩

theorem resetsVerifier_ne_nil (h : resetsVerifier env tx = some e) :
    e.1 ≠ [] := by
  have hname := (resetsVerifier_name h).2.1
  rw [resetsVerifier] at h
  split at h
  · rename_i hand
    rintro hnil
    rw [← hname, hnil] at hand
    exact absurd hand.2 (by decide +kernel)
  · cases h

variable {vUndoData : List (Bytes × CBlockAssetUndo)}

theorem VerifiersStaged.round {pre : List CTransaction} {nHeight : ℤ}
    {blockHash : uint256} (h : VerifiersStaged env f pre cache vUndoData)
    (hst : OwnRecords st) (hlayers : Slots.Tracks verifierCoding (verifierLayers st) f)
    (hcheck : tx.assetTxKind env = .other ∨ (env.dep.areAssetsDeployed = true ∧
      contextualCheckAssetTx env st cache tx mempoolNames = .ok ()))
    (hfresh : ∀ e, setsVerifier env tx = some e → ∀ e' ∈ verifiersOf env pre, e'.1 ≠ e.1)
    (hfirst : ∀ e, resetsVerifier env tx = some e → ∀ tx' ∈ pre, recordedName env tx' ≠ some e.1)
    (hknown : ∀ e, resetsVerifier env tx = some e → f e.1 ≠ none) :
    VerifiersStaged env f (pre ++ [tx]) (updateAssets env st nHeight blockHash tx cache).1
      (vUndoData ++ (updateAssets env st nHeight blockHash tx cache).2.toList.filter
        fun e => !e.1.isEmpty) := by
  obtain ⟨hstaged, hundo, hrecords⟩ := updateAssets_verifiers nHeight blockHash
    hst h.own hcheck
  -- A verifier string that is set is not staged yet, so the lookup reads the layers.
  have hlookup : ∀ e, resetsVerifier env tx = some e →
      cache.getAssetVerifierStringIfExists st e.1 false = f e.1 := by
    intro e he
    have hnone : Toggles.last? (verifiersOf env pre) e.1 = none :=
      Toggles.last?_eq_none.2 (hfresh e (setsVerifier_of_resets he))
    have hunstaged : Slots.Unstaged cache.newRestrictedVerifier e.1 :=
      ⟨h.removed e.1, by rw [h.added, hnone, Option.map_none]⟩
    rw [getAssetVerifierStringIfExists_unstaged false hunstaged, hlayers.answer]
  have hitem : ∀ name item,
      findUndoItem ((updateAssets env st nHeight blockHash tx cache).2.toList.filter
        fun e => !e.1.isEmpty) name = some item → UndoRecorded env st cache tx (name, item) := by
    intro name item hfind
    exact hundo _ (findUndoItem_singleton.1 hfind).2
  constructor
  · exact h.own.updateAssets hst
  · intro name
    rw [hstaged]
    cases setsVerifier env tx with
    | none => exact h.removed name
    | some e => rw [Option.elim, Staged.find?_add_toRemove, h.removed, ite_self]
  · intro name
    rw [hstaged, verifiersOf_append]
    cases hsets : setsVerifier env tx with
    | none =>
      rw [Option.elim, h.added, verifiersOf, verifiersOf, List.filterMap_cons_none hsets,
        List.filterMap_nil, List.append_nil]
    | some e =>
      have hnone : Toggles.last? (verifiersOf env pre) e.1 = none :=
        Toggles.last?_eq_none.2 (hfresh e hsets)
      have hone : verifiersOf env [tx] = [e] := by
        rw [verifiersOf, List.filterMap_cons_some hsets, List.filterMap_nil]
      rw [Option.elim, Staged.find?_add_toAdd, hone, Toggles.last?_append_singleton, h.added,
        h.added, hnone]
      by_cases hname : name = e.1
      · rw [if_pos hname, if_pos hname.symm]
        rfl
      · rw [if_neg hname, if_neg fun heq => hname heq.symm]
  · intro name item hfind
    rw [findUndoItem_append, Option.or_eq_some_iff] at hfind
    rcases hfind with hold | ⟨-, hnew⟩
    · obtain ⟨tx', hmem, hname⟩ := h.recorded name item hold
      exact ⟨tx', List.mem_append_left _ hmem, hname⟩
    · exact ⟨tx, List.mem_append_right _ List.mem_cons_self, (hitem name item hnew).1⟩
  · constructor
    · intro name item hfind hchanged
      rw [findUndoItem_append, Option.or_eq_some_iff] at hfind
      rcases hfind with hold | ⟨-, hnew⟩
      · obtain ⟨⟨tx', hmem, hresets⟩, hf⟩ := h.undo.changed name item hold hchanged
        exact ⟨⟨tx', List.mem_append_left _ hmem, hresets⟩, hf⟩
      · obtain ⟨hrecord, hflag, hverifier⟩ := hitem name item hnew
        rw [hchanged] at hflag
        obtain ⟨e, he⟩ := Option.isSome_iff_exists.1 hflag.symm
        have hname : e.1 = name :=
          Option.some.inj ((resetsVerifier_name he).2.2.symm.trans hrecord)
        obtain ⟨v, hv⟩ := Option.ne_none_iff_exists'.1 (hknown e he)
        subst hname
        refine ⟨⟨tx, List.mem_append_right _ List.mem_cons_self, e.2, he⟩, ?_⟩
        have hstring : item.verifierString =
            (cache.getAssetVerifierStringIfExists st e.1 false).getD [] := hverifier hflag.symm
        rw [hstring, hlookup e he, hv, Option.getD_some]
    · intro tx' hmem e he
      rw [findUndoItem_append]
      rcases List.mem_append.1 hmem with hold | hnew
      · obtain ⟨item, hfind, hchanged⟩ := h.undo.found tx' hold e he
        exact ⟨item, by rw [hfind, Option.some_or], hchanged⟩
      · obtain rfl := List.mem_singleton.1 hnew
        have hnone : findUndoItem vUndoData e.1 = none := by
          by_contra hsome
          obtain ⟨item, hfind⟩ := Option.ne_none_iff_exists'.1 hsome
          obtain ⟨tx'', hmem', hname⟩ := h.recorded e.1 item hfind
          exact hfirst e he tx'' hmem' hname
        have hsome : (resetsVerifier env tx').isSome = true := by rw [he]; rfl
        obtain ⟨⟨name, item⟩, hitem'⟩ := Option.ne_none_iff_exists'.1 (hrecords hsome)
        obtain ⟨hrecord, hflag, -⟩ := hundo _ hitem'
        have hname : e.1 = name :=
          Option.some.inj ((resetsVerifier_name he).2.2.symm.trans hrecord)
        rw [hnone, Option.none_or, hname]
        refine ⟨item, findUndoItem_singleton.2 ⟨?_, hitem'⟩, hflag.trans hsome⟩
        rw [← hname]
        exact resetsVerifier_ne_nil he

variable {block : CBlock}

/-- **Connecting a block.**  Its verifier strings are staged in the local cache, and the undo data
brings the ones below it back. -/
theorem connectBlock_verifiers {view : CCoinsView} {ctx : BlockContext} {s : ConnectState}
    (hst : OwnRecords st)
    (hlayers : Slots.Tracks verifierCoding (verifierLayers st) f)
    (hgenesis : block.hash ≠ env.params.hashGenesisBlock)
    (hcoinbase : CoinbaseWithoutAssets env block) (hb : VerifierBlock env f block)
    (h : connectBlock env st ctx block view .empty = .ok s) :
    VerifiersStaged env f block.vtx s.assetsCache s.vUndoAssetData := by
  obtain ⟨hblock, hfold, -⟩ := connectBlock_ok hgenesis h
  refine foldlM_prefix_invariant (I := fun txs (s : ConnectState) =>
    VerifiersStaged env f txs s.assetsCache s.vUndoAssetData) ?_ VerifiersStaged.empty hfold
  rintro pre tx post s s' hvtx hstaged hround
  have htx : tx ∈ block.vtx := by rw [hvtx]; simp
  obtain ⟨-, -, hcache, hundo⟩ := connectTx_ok hround
  rw [hcache, hundo]
  refine hstaged.round hst hlayers (connectTx_kind hcoinbase hblock htx hround) ?_
    (fun e he => hb.first pre tx post e hvtx he) fun e he => hb.known tx htx e he
  intro e he e' he' heq
  have honce := hb.once
  rw [hvtx, verifiersOf_append, List.map_append, List.nodup_append] at honce
  refine honce.2.2 _ (List.mem_map.2 ⟨e', he', rfl⟩) _ (List.mem_map.2 ⟨e, ?_, rfl⟩) heq
  exact mem_verifiersOf.2 ⟨tx, List.mem_cons_self, he⟩

theorem undoNewAsset_newRestrictedVerifier {record : WithAddress CNewAsset}
    (h : undoNewAsset env st cache record = .ok cache') :
    cache'.newRestrictedVerifier = cache.newRestrictedVerifier := by
  rw [undoNewAsset, removeNewAsset] at h
  split at h
  · rw [demand_ok] at h
    cases h
    rfl
  · cases h
    rfl

theorem removeReissueAsset_verifiers (hst : OwnRecords st) (hcache : OwnCache cache)
    {reissue : CReissueAsset} {address : Bytes} {out : COutPoint}
    (h : cache.removeReissueAsset env st reissue address out vUndoData = some cache') :
    (cache'.newRestrictedVerifier = cache.newRestrictedVerifier ∧
        ∀ item, findUndoItem vUndoData reissue.strName = some item →
          item.fChangedVerifierString = false) ∨
      ∃ item, findUndoItem vUndoData reissue.strName = some item ∧
        item.fChangedVerifierString = true ∧
        cache'.newRestrictedVerifier =
          cache.newRestrictedVerifier.remove false reissue.strName ⟨item.verifierString, true⟩ := by
  rw [removeReissueAsset] at h
  split at h
  · cases h
  · rename_i data hdata
    have hname := getAssetMetaDataIfExists_name hst hcache hdata
    have hundoName : ∀ undo, (undoReissue data.asset reissue undo).strName = reissue.strName := by
      intro undo
      rw [← hname]
      cases undo <;> rfl
    simp only at h
    split at h
    · rename_i item hitem
      split at h
      · rename_i hchanged
        cases h
        refine Or.inr ⟨item, hitem, hchanged, ?_⟩
        simp only [removeRestrictedVerifier, hundoName]
      · rename_i hchanged
        cases h
        refine Or.inl ⟨rfl, fun item' hitem' => ?_⟩
        rw [hitem] at hitem'
        cases hitem'
        exact Bool.eq_false_of_not_eq_true hchanged
    · rename_i hnone
      cases h
      refine Or.inl ⟨rfl, fun item hitem => ?_⟩
      rw [hnone] at hitem
      cases hitem

theorem undoReissueOf_verifiers (hst : OwnRecords st) (hcache : OwnCache cache)
    (hkind : tx.assetTxKind env = .reissue)
    (h : undoReissueOf env st vUndoData tx cache = .ok cache') :
    (cache'.newRestrictedVerifier = cache.newRestrictedVerifier ∧
        ∀ e, setsVerifier env tx = some e → resetsVerifier env tx = some e ∧
          (cache.checkIfAssetExists env st e.1 = false ∨
            ∀ item, findUndoItem vUndoData e.1 = some item →
              item.fChangedVerifierString = false)) ∨
      ∃ name item, findUndoItem vUndoData name = some item ∧
        item.fChangedVerifierString = true ∧
        (∀ e, setsVerifier env tx = some e → e.1 = name) ∧
        cache'.newRestrictedVerifier =
          cache.newRestrictedVerifier.remove false name ⟨item.verifierString, true⟩ := by
  rw [undoReissueOf, demand_bind] at h
  obtain ⟨⟨reissue, strAddress⟩, hread, h⟩ := h
  have hreissue : reissueOf env tx = (reissue, strAddress) := by
    rw [reissueOf, hread, Option.getD_some]
  have hsets : ∀ e, setsVerifier env tx = some e →
      resetsVerifier env tx = some e ∧ e.1 = reissue.strName := by
    intro e he
    rw [setsVerifier, hkind, if_neg (by decide)] at he
    have hname := (resetsVerifier_name he).2.1
    rw [hreissue] at hname
    exact ⟨he, hname⟩
  simp only at h
  split at h
  · rcases removeReissueAsset_verifiers hst hcache (demand_ok.1 h) with
      ⟨hsame, hunchanged⟩ | ⟨item, hitem, hchanged, hremove⟩
    · refine Or.inl ⟨hsame, fun e he => ⟨(hsets e he).1, Or.inr ?_⟩⟩
      rw [(hsets e he).2]
      exact hunchanged
    · exact Or.inr ⟨reissue.strName, item, hitem, hchanged, fun e he => (hsets e he).2, hremove⟩
  · rename_i hexists
    cases h
    refine Or.inl ⟨rfl, fun e he => ⟨(hsets e he).1, Or.inl ?_⟩⟩
    rw [(hsets e he).2]
    exact Bool.eq_false_of_not_eq_true hexists

theorem removeRestricted_verifiers {asset : CNewAsset} {strAddress : Bytes}
    (hkind : tx.assetTxKind env = .newRestricted)
    (hrecord : tx.restrictedAssetFromTransaction env = some (asset, strAddress))
    (houts : tx.verifierOutputs.isEmpty = false) :
    ∃ e, setsVerifier env tx = some e ∧ e.1 ∈ issuedNames env tx ∧ e.1 = asset.strName := by
  have hmem : (asset, strAddress) ∈ newRecords env tx := by
    rw [newRecords, hkind, hrecord]
    exact List.mem_singleton.2 rfl
  refine ⟨(asset.strName, tx.firstVerifier.getD []), ?_, issuedNames_of_newRecords hmem, rfl⟩
  rw [setsVerifier, if_pos hkind, houts, if_neg Bool.false_ne_true, hrecord]
  rfl

theorem verifierOutputs_of_verifierToUndo {verifier : Bytes}
    (h : verifierToUndo env tx = .ok verifier) : tx.verifierOutputs.isEmpty = false := by
  rw [verifierToUndo, require_bind, demand_bind] at h
  obtain ⟨-, out, hout, -⟩ := h
  cases hnil : tx.verifierOutputs with
  | nil =>
    rw [hnil] at hout
    cases hout
  | cons o outs => rfl

theorem removeAssets_verifiers
    (hst : OwnRecords st) (hcache : OwnCache cache)
    (h : removeAssets env st vUndoData tx cache = .ok cache') :
    (cache'.newRestrictedVerifier = cache.newRestrictedVerifier ∧
        ∀ e, setsVerifier env tx = some e → resetsVerifier env tx = some e ∧
          (cache.checkIfAssetExists env st e.1 = false ∨
            ∀ item, findUndoItem vUndoData e.1 = some item →
              item.fChangedVerifierString = false)) ∨
      (∃ name item, findUndoItem vUndoData name = some item ∧
        item.fChangedVerifierString = true ∧
        (∀ e, setsVerifier env tx = some e → e.1 = name) ∧
        cache'.newRestrictedVerifier =
          cache.newRestrictedVerifier.remove false name ⟨item.verifierString, true⟩) ∨
      ∃ e verifier, setsVerifier env tx = some e ∧ e.1 ∈ issuedNames env tx ∧
        cache'.newRestrictedVerifier =
          cache.newRestrictedVerifier.remove false e.1 ⟨verifier, false⟩ := by
  have hquiet : tx.assetTxKind env ≠ .reissue → tx.assetTxKind env ≠ .newRestricted →
      ∀ e, setsVerifier env tx = some e → resetsVerifier env tx = some e ∧
        (cache.checkIfAssetExists env st e.1 = false ∨
          ∀ item, findUndoItem vUndoData e.1 = some item →
            item.fChangedVerifierString = false) := by
    intro hreissue hrestricted e he
    rw [setsVerifier, if_neg hrestricted, resetsVerifier_of_kind hreissue] at he
    cases he
  have hof : ∀ {record : Option (WithAddress CNewAsset)} {c : CAssetsCache},
      undoNewAssetOf env st record cache = .ok c →
        c.newRestrictedVerifier = cache.newRestrictedVerifier := by
    intro record c hc
    rw [undoNewAssetOf, demand_bind] at hc
    obtain ⟨record, -, hc⟩ := hc
    exact undoNewAsset_newRestrictedVerifier hc
  rw [removeAssets] at h
  cases hkind : tx.assetTxKind env with
  | newAsset =>
    rw [hkind, bind_ok] at h
    obtain ⟨c, hc, h⟩ := h
    rw [demand_bind] at h
    obtain ⟨owner, -, h⟩ := h
    cases h
    exact Or.inl ⟨hof hc, hquiet (by rw [hkind]; decide) (by rw [hkind]; decide)⟩
  | reissue =>
    rw [hkind] at h
    exact (undoReissueOf_verifiers hst hcache hkind h).imp_right Or.inl
  | newUnique =>
    rw [hkind] at h
    refine Or.inl ⟨?_, hquiet (by rw [hkind]; decide) (by rw [hkind]; decide)⟩
    exact foldlM_invariant (I := fun c : CAssetsCache =>
      c.newRestrictedVerifier = cache.newRestrictedVerifier)
      (fun c record c' _ hc hundo => (undoNewAsset_newRestrictedVerifier hundo).trans hc) rfl h
  | newMsgChannel =>
    rw [hkind] at h
    exact Or.inl ⟨hof h, hquiet (by rw [hkind]; decide) (by rw [hkind]; decide)⟩
  | newQualifier =>
    rw [hkind] at h
    exact Or.inl ⟨hof h, hquiet (by rw [hkind]; decide) (by rw [hkind]; decide)⟩
  | newRestricted =>
    rw [hkind] at h
    simp only [demand_bind] at h
    obtain ⟨record, hrecord, h⟩ := h
    rw [bind_ok] at h
    obtain ⟨c, hc, h⟩ := h
    rw [bind_ok] at h
    obtain ⟨verifier, hverifier, h⟩ := h
    cases h
    obtain ⟨e, hsets, hissued, hname⟩ := removeRestricted_verifiers hkind hrecord
      (verifierOutputs_of_verifierToUndo hverifier)
    refine Or.inr (Or.inr ⟨e, verifier, hsets, hissued, ?_⟩)
    simp only [removeRestrictedVerifier, undoNewAsset_newRestrictedVerifier hc, hname]
  | other =>
    rw [hkind] at h
    cases h
    exact Or.inl ⟨rfl, hquiet (by rw [hkind]; decide) (by rw [hkind]; decide)⟩

/-! ## Disconnecting a block -/

/-- What holds of the local cache while a block is disconnected. -/
structure VerifiersUndone (env : Env) (f : Bytes → Option Bytes) (block : CBlock)
    (done : List CTransaction) (cache : CAssetsCache) : Prop where
  own : OwnCache cache
  added : ∀ name, cache.newRestrictedVerifier.toAdd.find? name = none
  removed : ∀ name item, cache.newRestrictedVerifier.toRemove.find? name = some item →
    verifierCoding.restored item = f name ∧ ∃ e ∈ verifiersOf env block.vtx, e.1 = name
  undone : ∀ e ∈ verifiersOf env done, cache.newRestrictedVerifier.toRemove.find? e.1 ≠ none
  removals : LocalRemovals (blockNames env block) cache.newAssets

theorem VerifiersUndone.empty :
    VerifiersUndone env f block [] .empty where
  own := OwnCache.empty
  added _ := rfl
  removed _ _ h := by cases h
  undone _ h := (nomatch h)
  removals := ⟨fun _ => rfl, fun _ h => (nomatch h)⟩

theorem VerifiersUndone.remove
    {done : List CTransaction} {item : CAssetCacheRestrictedVerifiers}
    (h : VerifiersUndone env f block done cache) (htx : tx ∈ block.vtx)
    (hown : OwnCache cache') (hremovals : LocalRemovals (blockNames env block) cache'.newAssets)
    (hremove : cache'.newRestrictedVerifier = cache.newRestrictedVerifier.remove false name item)
    (hitem : verifierCoding.restored item = f name)
    (hname : ∃ e ∈ verifiersOf env block.vtx, e.1 = name)
    (hsets : ∀ e, setsVerifier env tx = some e → e.1 = name) :
    VerifiersUndone env f block (done ++ [tx]) cache' := by
  refine ⟨hown, fun k => ?_, fun k item' hfind => ?_, fun e he => ?_, hremovals⟩
  · rw [hremove, Staged.find?_remove_toAdd, h.added, ite_self]
  · rw [hremove, Staged.find?_remove_toRemove] at hfind
    split at hfind
    · rename_i hk
      subst hk
      cases hold : cache.newRestrictedVerifier.toRemove.find? k with
      | none =>
        rw [hold, StdMap.putValue_none] at hfind
        cases hfind
        exact ⟨hitem, hname⟩
      | some old =>
        rw [hold, StdMap.putValue_false_some] at hfind
        cases hfind
        exact h.removed k item' hold
    · exact h.removed k item' hfind
  · rw [hremove, Staged.find?_remove_toRemove]
    split
    · exact Option.some_ne_none _
    · rename_i hne
      rw [verifiersOf_append, List.mem_append] at he
      rcases he with hold | hnew
      · exact h.undone e hold
      · obtain ⟨tx', htx', he⟩ := mem_verifiersOf.1 hnew
        obtain rfl := List.mem_singleton.1 htx'
        exact absurd (hsets e he) hne

theorem VerifiersUndone.round
    {done : List CTransaction}
    (h : VerifiersUndone env f block done cache) (hst : OwnRecords st)
    (hb : VerifierBlock env f block) (hundo : VerifierUndo env f block.vtx vUndoData)
    (hexists : ∀ tx ∈ block.vtx, ∀ e, resetsVerifier env tx = some e →
      CAssetsCache.empty.checkIfAssetExists env st e.1 = true)
    (htx : tx ∈ block.vtx) (hremove : removeAssets env st vUndoData tx cache = .ok cache')
    (hremovals : LocalRemovals (blockNames env block) cache'.newAssets) :
    VerifiersUndone env f block (done ++ [tx]) cache' := by
  have hown := h.own.removeAssets hremove
  rcases removeAssets_verifiers hst h.own hremove with
    ⟨hsame, hquiet⟩ | ⟨name, item, hitem, hchanged, hsets, hstaged⟩ |
    ⟨e, verifier, he, hissued, hstaged⟩
  · have hnone : setsVerifier env tx = none := by
      by_contra hsome
      obtain ⟨e, he⟩ := Option.ne_none_iff_exists'.1 hsome
      obtain ⟨hresets, hnot⟩ := hquiet e he
      obtain ⟨item, hitem, hchanged⟩ := hundo.found tx htx e hresets
      rcases hnot with hgone | hunchanged
      · -- The asset is not issued by this block, so it is not removed in the local cache.
        have hremove : cache.newAssets.toRemove.count e.1 = false := by
          by_contra hcount
          have hmem := h.removals.removed e.1 (Bool.eq_true_of_not_eq_false hcount)
          exact hb.known tx htx e hresets (hb.fresh e.1 hmem)
        have hlocal : cache.checkIfAssetExists env st e.1 =
            CAssetsCache.empty.checkIfAssetExists env st e.1 := by
          refine checkIfAssetExists_congr ?_ ?_
          · rw [hremove]
            rfl
          · rw [h.removals.noAddition]
            rfl
        rw [hlocal, hexists tx htx e hresets] at hgone
        cases hgone
      · rw [hunchanged item hitem] at hchanged
        cases hchanged
    refine ⟨hown, fun k => ?_, fun k item' hfind => ?_, fun e he => ?_, hremovals⟩
    · rw [hsame]
      exact h.added k
    · rw [hsame] at hfind
      exact h.removed k item' hfind
    · rw [verifiersOf_append, List.mem_append] at he
      rw [hsame]
      rcases he with hold | hnew
      · exact h.undone e hold
      · obtain ⟨tx', htx', he⟩ := mem_verifiersOf.1 hnew
        obtain rfl := List.mem_singleton.1 htx'
        rw [hnone] at he
        cases he
  · obtain ⟨⟨tx', htx', verifier, hresets⟩, hf⟩ := hundo.changed name item hitem hchanged
    refine h.remove htx hown hremovals hstaged ?_ ?_ hsets
    · rw [hf]
      rfl
    · exact ⟨_, mem_verifiersOf.2 ⟨tx', htx', setsVerifier_of_resets hresets⟩, rfl⟩
  · refine h.remove htx hown hremovals hstaged ?_ ?_ fun e' he' => ?_
    · rw [hb.fresh e.1 ⟨tx, htx, hissued⟩]
      rfl
    · exact ⟨e, mem_verifiersOf.2 ⟨tx, htx, he⟩, rfl⟩
    · rw [he] at he'
      cases he'
      rfl

/-- **Disconnecting a block.**  For each verifier string that it set, the local cache says what was
below it. -/
theorem disconnectBlock_verifiers {nHeight : ℕ}
    {vtxundo : List CTxUndo} {view : CCoinsView}
    {s : DisconnectState} (hst : OwnRecords st) (hb : VerifierBlock env f block)
    (hundo : VerifierUndo env f block.vtx vUndoData)
    (hexists : ∀ tx ∈ block.vtx, ∀ e, resetsVerifier env tx = some e →
      CAssetsCache.empty.checkIfAssetExists env st e.1 = true)
    (hdep : verifiersOf env block.vtx ≠ [] → env.dep.areAssetsDeployed = true)
    (h : disconnectBlock env st nHeight block vtxundo vUndoData view .empty = .ok s) :
    VerifiersUndone env f block block.vtx.reverse s.assetsCache := by
  refine disconnectBlock_history (I := fun done cache =>
    VerifiersUndone env f block done cache) ?_ VerifiersUndone.empty h
  intro pre tx post cache cache' hsplit hdone hround
  have htx : tx ∈ block.vtx := by
    rw [← List.mem_reverse, hsplit]
    simp
  have hremovals := hdone.removals.downdateAssets htx hround
  rw [downdateAssets] at hround
  cases hassets : env.dep.areAssetsDeployed with
  | false =>
    rw [hassets, if_neg Bool.false_ne_true] at hround
    cases hround
    have hnil : verifiersOf env block.vtx = [] := by
      by_contra hne
      rw [hdep hne] at hassets
      cases hassets
    refine ⟨hdone.own, hdone.added, hdone.removed, fun e he => ?_, hremovals⟩
    have hmem : e ∈ verifiersOf env block.vtx := by
      obtain ⟨tx', htx', he⟩ := mem_verifiersOf.1 he
      refine mem_verifiersOf.2 ⟨tx', ?_, he⟩
      rw [← List.mem_reverse, hsplit]
      rcases List.mem_append.1 htx' with hmem | hmem
      · exact List.mem_append_left _ hmem
      · obtain rfl := List.mem_singleton.1 hmem
        simp
    rw [hnil] at hmem
    cases hmem
  | true =>
    rw [hassets, if_pos rfl, bind_ok] at hround
    obtain ⟨c, hc, hround⟩ := hround
    rw [unit_bind, onlyIf_bind, pure_ok] at hround
    obtain ⟨-, -, hcache⟩ := hround
    have hpart : cache'.recordPart = c.recordPart := by
      rw [← hcache]
      split
      · exact removeCommands_recordPart _ _
      · rfl
    have hassetsPart : cache'.newAssets = c.newAssets := congrArg (fun part => part.2.1) hpart
    have hverifiers : cache'.newRestrictedVerifier = c.newRestrictedVerifier :=
      congrArg (fun part => part.2.2.2) hpart
    rw [hassetsPart] at hremovals
    have hstep := hdone.round hst hb hundo hexists htx hc hremovals
    refine ⟨hstep.own.of_recordPart hpart, ?_, ?_, ?_, ?_⟩
    · rw [hverifiers]
      exact hstep.added
    · rw [hverifiers]
      exact hstep.removed
    · rw [hverifiers]
      exact hstep.undone
    · rw [hassetsPart]
      exact hstep.removals

end UnemployCoin
