import UnemployCoin.CacheUpdates
import UnemployCoin.Lib.Check
import Mathlib.Data.List.Induction
/-!
# What a dump leaves

`DumpCacheToDatabase` goes through the staged changes of `passets` set by set.  This module says
what is in the databases and in the caches in front of them afterwards.
-/

namespace UnemployCoin

open Check CAssetsCache StdMap

variable {env : Env} {st : AssetState} {cache : CAssetsCache} {name : Bytes}

def OwnNames (m : StdMap Bytes CAssetCacheNewAsset) : Prop :=
  ∀ k item, m.find? k = some item → item.asset.strName = k

def OwnReissues (m : StdMap Bytes CNewAsset) : Prop :=
  ∀ k asset, m.find? k = some asset → asset.strName = k

/-! ## Loops that leave a part alone -/

def AssetState.assetPart (st : AssetState) : CAssetsDB × LruCache Bytes CDatabasedAssetData :=
  (st.passetsdb, st.passetsCache)

section Keeps

variable {ρ : Type} {g : AssetState → ρ}

theorem dumpIssues_keeps (hremove : ∀ st e, g (dumpRemovedAsset st e) = g st)
    (hadd : ∀ st e, g (dumpNewAsset st e) = g st) : g (dumpIssues cache st) = g st := by
  rw [dumpIssues, foldl_keeps hadd, foldl_keeps hremove]

theorem dumpReissues_keeps (h : ∀ (st : AssetState) (asset : CNewAsset) (nHeight : ℤ)
      (blockHash : uint256) (name : Bytes), g { st with
        passetsdb := st.passetsdb.writeAssetData asset nHeight blockHash
        passetsCache := st.passetsCache.erase name } = g st) :
    g (dumpReissues cache st) = g st := by
  have hround : ∀ st e, g (dumpReissue cache st e) = g st := by
    intro st e
    rw [dumpReissue]
    split
    · exact h st _ _ _ _
    · rfl
  have hundo : ∀ st e, g (dumpUndoReissue cache st e) = g st := by
    intro st e
    rw [dumpUndoReissue]
    split
    · rfl
    · exact hround st e
  rw [dumpReissues, foldl_keeps hundo, foldl_keeps hround]

theorem dumpVerifiers_keeps (h : ∀ (st : AssetState) (verifiers : StdMap Bytes Bytes)
      (name : Bytes), g { st with
        prestricteddb := { st.prestricteddb with verifiers := verifiers }
        passetsVerifierCache := st.passetsVerifierCache.erase name } = g st) :
    g (dumpVerifiers cache st) = g st := by
  have hundo : ∀ st e, g (dumpUndoVerifier st e) = g st := by
    intro st e
    rw [dumpUndoVerifier]
    split <;> exact h st _ _
  have hadd : ∀ st e, g (dumpVerifier st e) = g st := fun st _ => h st _ _
  rw [dumpVerifiers, foldl_keeps hundo, foldl_keeps hadd]

theorem dumpQualifiers_keeps (h : ∀ st key on, g (writeQualifier env st key on) = g st) :
    g (dumpQualifiers env cache st) = g st := by
  have hround : ∀ fUndo st e, g (dumpQualifier env fUndo st e) = g st := by
    intro fUndo st e
    rw [dumpQualifier]
    split <;> exact h st _ _
  rw [dumpQualifiers, foldl_keeps (hround true), foldl_keeps (hround false)]

theorem dumpRestrictions_keeps (h : ∀ st key on, g (writeRestriction env st key on) = g st) :
    g (dumpRestrictions env cache st) = g st := by
  have hround : ∀ fUndo st e, g (dumpRestricted env fUndo st e) = g st := by
    intro fUndo st e
    rw [dumpRestricted]
    split <;> first | exact h st _ _ | rfl
  rw [dumpRestrictions, foldl_keeps (hround true), foldl_keeps (hround false)]

theorem dumpGlobals_keeps (h : ∀ st name on, g (writeGlobalRestriction st name on) = g st) :
    g (dumpGlobals cache st) = g st := by
  have hround : ∀ fUndo st e, g (dumpGlobal fUndo st e) = g st := by
    intro fUndo st e
    rw [dumpGlobal]
    split <;> first | exact h st _ _ | rfl
  rw [dumpGlobals, foldl_keeps (hround true), foldl_keeps (hround false)]

end Keeps

theorem dump_assetPart : (st.dumpCacheToDatabase env).assetPart =
    (dumpReissues st.passets (dumpIssues st.passets st)).assetPart := by
  have hdump : (st.dumpCacheToDatabase env).assetPart =
      (dumpGlobals st.passets (dumpRestrictions env st.passets (dumpQualifiers env st.passets
        (dumpVerifiers st.passets (dumpReissues st.passets
          (dumpIssues st.passets st)))))).assetPart := rfl
  rw [hdump]
  exact (dumpGlobals_keeps fun _ _ _ => rfl).trans
    ((dumpRestrictions_keeps fun _ _ _ => rfl).trans
      ((dumpQualifiers_keeps fun _ _ _ => rfl).trans (dumpVerifiers_keeps fun _ _ _ => rfl)))

theorem dump_passetsdb : (st.dumpCacheToDatabase env).passetsdb =
    (dumpReissues st.passets (dumpIssues st.passets st)).passetsdb :=
  congrArg Prod.fst dump_assetPart

theorem dump_passetsCache : (st.dumpCacheToDatabase env).passetsCache =
    (dumpReissues st.passets (dumpIssues st.passets st)).passetsCache :=
  congrArg Prod.snd dump_assetPart

/-! ## Issues -/

def CAssetCacheNewAsset.toData (item : CAssetCacheNewAsset) : CDatabasedAssetData :=
  ⟨item.asset, item.blockHeight, item.blockHash⟩

theorem assetData_foldl_dumpRemovedAsset (l : List (Bytes × CAssetCacheNewAsset)) :
    (l.foldl dumpRemovedAsset st).passetsdb.assetData =
      l.foldl (fun m e => m.erase e.1) st.passetsdb.assetData := by
  induction l generalizing st with
  | nil => rfl
  | cons e l ih => rw [List.foldl_cons, ih]; rfl

theorem assetData_foldl_dumpNewAsset {l : List (Bytes × CAssetCacheNewAsset)}
    (hl : ∀ e ∈ l, e.2.asset.strName = e.1) :
    (l.foldl dumpNewAsset st).passetsdb.assetData =
      l.foldl (fun m e => StdMap.put true m e.1 e.2.toData) st.passetsdb.assetData := by
  induction l generalizing st with
  | nil => rfl
  | cons e l ih =>
    rw [List.forall_mem_cons] at hl
    rw [List.foldl_cons, ih hl.2, List.foldl_cons, ← hl.1]
    rfl

theorem OwnNames.entries {m : StdMap Bytes CAssetCacheNewAsset} (h : OwnNames m) :
    ∀ e ∈ m.entries, e.2.asset.strName = e.1 :=
  fun e hmem => h e.1 e.2 (mem_entries.1 hmem)

theorem find?_dumpIssues (hown : OwnNames cache.newAssets.toAdd) :
    (dumpIssues cache st).passetsdb.assetData.find? name =
      ((cache.newAssets.toAdd.find? name).map CAssetCacheNewAsset.toData).or
        (if cache.newAssets.toRemove.count name then none
          else st.passetsdb.assetData.find? name) := by
  rw [dumpIssues, assetData_foldl_dumpNewAsset hown.entries, assetData_foldl_dumpRemovedAsset,
    find?_foldl_put_entries, find?_foldl_erase, entries_find?_isSome]
  rfl

/-! ## Reissues -/

theorem dumpReissue_assetData {e : COutPoint × CAssetCacheReissueAsset}
    (hown : OwnReissues cache.mapReissuedAssetData) :
    (dumpReissue cache st e).passetsdb.assetData.find? name =
      if name = e.2.reissue.strName then
        ((cache.mapReissuedAssetData.find? name).map fun asset =>
          ⟨asset, e.2.blockHeight, e.2.blockHash⟩).or (st.passetsdb.assetData.find? name)
      else st.passetsdb.assetData.find? name := by
  cases hasset : cache.mapReissuedAssetData.find? e.2.reissue.strName with
  | none =>
    simp only [dumpReissue, hasset]
    split
    · rename_i hname
      rw [hname, hasset]
      rfl
    · rfl
  | some asset =>
    simp only [dumpReissue, hasset, CAssetsDB.writeAssetData]
    rw [find?_assign, hown _ _ hasset]
    split
    · rename_i hname
      rw [hname, hasset]
      rfl
    · rfl

def reissuesToDump (cache : CAssetsCache) : List (COutPoint × CAssetCacheReissueAsset) :=
  cache.newReissue.toAdd.entries ++
    cache.newReissue.toRemove.entries.filter fun e =>
      !cache.newAssets.toRemove.count e.2.reissue.strName

theorem dumpReissues_eq :
    dumpReissues cache st = (reissuesToDump cache).foldl (dumpReissue cache) st := by
  rw [dumpReissues, reissuesToDump, List.foldl_append, List.foldl_filter]
  congr 1
  funext st e
  rw [dumpUndoReissue]
  cases cache.newAssets.toRemove.count e.2.reissue.strName <;> rfl

theorem find?_dumpReissues (st : AssetState) (hown : OwnReissues cache.mapReissuedAssetData) :
    ((∀ e ∈ reissuesToDump cache, e.2.reissue.strName ≠ name) ∨
        cache.mapReissuedAssetData.find? name = none) ∧
      (dumpReissues cache st).passetsdb.assetData.find? name =
        st.passetsdb.assetData.find? name ∨
    ∃ e ∈ reissuesToDump cache, e.2.reissue.strName = name ∧
      ∃ asset, cache.mapReissuedAssetData.find? name = some asset ∧
        (dumpReissues cache st).passetsdb.assetData.find? name =
          some ⟨asset, e.2.blockHeight, e.2.blockHash⟩ := by
  rw [dumpReissues_eq]
  generalize reissuesToDump cache = l
  induction l using List.reverseRecOn with
  | nil => exact Or.inl ⟨Or.inl fun _ hmem => (nomatch hmem), rfl⟩
  | append_singleton l e ih =>
    rw [List.foldl_append, List.foldl_cons, List.foldl_nil, dumpReissue_assetData hown]
    by_cases hname : name = e.2.reissue.strName
    · rw [if_pos hname]
      cases hasset : cache.mapReissuedAssetData.find? name with
      | none =>
        rcases ih with ⟨-, hsame⟩ | ⟨e', -, -, asset, hasset', -⟩
        · exact Or.inl ⟨Or.inr rfl, hsame⟩
        · rw [hasset] at hasset'
          cases hasset'
      | some asset =>
        exact Or.inr ⟨e, List.mem_append_right l List.mem_cons_self, hname.symm, asset, rfl, rfl⟩
    · rw [if_neg hname]
      rcases ih with ⟨hnone, hsame⟩ | ⟨e', hmem, hname', hdata⟩
      · refine Or.inl ⟨hnone.imp_left fun hl => ?_, hsame⟩
        exact List.forall_mem_append.2
          ⟨hl, List.forall_mem_singleton.2 fun heq => hname heq.symm⟩
      · exact Or.inr ⟨e', List.mem_append_left _ hmem, hname', hdata⟩

theorem count_dumpReissues (h : st.passetsdb.assetData.count name = true) :
    (dumpReissues cache st).passetsdb.assetData.count name = true := by
  rw [dumpReissues_eq]
  induction reissuesToDump cache generalizing st with
  | nil => exact h
  | cons e l ih =>
    refine ih ?_
    rw [dumpReissue]
    split
    · rw [CAssetsDB.writeAssetData, count_assign, h, Bool.or_true]
    · exact h

theorem count_dump (hown : OwnNames st.passets.newAssets.toAdd)
    (hremove : st.passets.newAssets.toRemove.count name = false)
    (h : st.passets.newAssets.toAdd.count name = true ∨
      st.passetsdb.assetData.count name = true) :
    (st.dumpCacheToDatabase env).passetsdb.assetData.count name = true := by
  rw [dump_passetsdb]
  refine count_dumpReissues ?_
  rw [StdMap.count, find?_dumpIssues hown, hremove, if_neg Bool.false_ne_true]
  rcases h with hadd | hstored
  · obtain ⟨item, hitem⟩ := count_eq_true.1 hadd
    rw [hitem]
    rfl
  · rw [Option.isSome_or]
    rw [StdMap.count] at hstored
    rw [hstored, Bool.or_true]

end UnemployCoin
