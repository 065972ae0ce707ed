import UnemployCoin.FreezeRefinement
/-!
# Who may tag and freeze

A tag is controlled by its qualifier, and a freeze of `$TOKEN` by the owner token of `TOKEN`.
`CheckTransaction` collects the commands of a transaction and asks for a transfer of the token of
each, and `CheckTxAssets` for an input of whatever is transferred.
-/

namespace UnemployCoin

open Check CAssetsCache StdMap

variable {env : Env} {st : AssetState} {cache : CAssetsCache} {view : CCoinsView}
  {tx : CTransaction} {mempoolNames : Option (StdMap Bytes uint256)}
  {mapReissuedAssets : StdMap Bytes uint256} {vPair : List (Bytes × uint256)}

def NullCommand.controllingToken : NullCommand → Bytes
  | .qualifier assetName _ _ => assetName
  | .restricted assetName _ _ => assetName.drop 1 ++ OWNER_TAG
  | .global assetName _ => assetName.drop 1 ++ OWNER_TAG

theorem head_of_restricted {name : Bytes} (h : assetTypeOf name = .RESTRICTED) :
    name.at 0 = RESTRICTED_CHAR := by
  have hvalid := isAssetNameValid_of_assetTypeOf h (by decide)
  obtain ⟨-, -, hmatch⟩ := indicators_of_restricted (indicatedType_of_valid hvalid)
  obtain ⟨v, rfl⟩ := Regex.head_of_lit (show _ = true from hmatch)
  rfl

theorem head_of_qualifier {name : Bytes}
    (h : assetTypeOf name = .QUALIFIER ∨ assetTypeOf name = .SUB_QUALIFIER) :
    name.at 0 = QUALIFIER_CHAR := by
  have htype : indicatedType name = .QUALIFIER ∨ indicatedType name = .SUB_QUALIFIER :=
    h.imp (fun h => indicatedType_of_valid (isAssetNameValid_of_assetTypeOf h (by decide)))
      fun h => indicatedType_of_valid (isAssetNameValid_of_assetTypeOf h (by decide))
  rcases indicators_of_qualifier htype with hmatch | hmatch
  · obtain ⟨v, rfl⟩ := Regex.head_of_lit (show _ = true from hmatch)
    rfl
  · obtain ⟨v, rfl⟩ := Regex.head_of_lit (show _ = true from hmatch)
    rfl

/-! ## What the loop over the outputs collects -/

section Scan

variable {fMempoolCheck fBlockCheck : Bool} {s s' : OutputScan} {txout : CTxOut}

theorem scanValue_ok (h : scanValue s txout = .ok s') :
    s'.setAssetTransferNames = s.setAssetTransferNames ∧
      s'.mapNullDataTxCount = s.mapNullDataTxCount ∧
      s'.setNullGlobalAssetChanges = s.setNullGlobalAssetChanges := by
  simp only [scanValue, require_bind, pure_ok] at h
  obtain ⟨-, -, -, rfl⟩ := h
  exact ⟨rfl, rfl, rfl⟩

/-- An output that is scanned leaves what it says about its asset and address. -/
structure Collected (env : Env) (s s' : OutputScan) (txout : CTxOut) : Prop where
  names : s'.setAssetTransferNames = s.setAssetTransferNames
  pairs : ∀ pair, s.mapNullDataTxCount.count pair = true →
    s'.mapNullDataTxCount.count pair = true
  globals : ∀ name, s.setNullGlobalAssetChanges.count name = true →
    s'.setNullGlobalAssetChanges.count name = true
  pair : txout.scriptPubKey.isNullAssetTxDataScript = true →
    ∃ data address, assetNullDataFromScript env txout.scriptPubKey = some (data, address) ∧
      s'.mapNullDataTxCount.count (data.asset_name, address) = true
  global : txout.scriptPubKey.isNullAssetTxDataScript = false →
    txout.scriptPubKey.isNullGlobalRestrictionAssetTxDataScript = true →
      ∃ data, globalAssetNullDataFromScript txout.scriptPubKey = some data ∧
        s'.setNullGlobalAssetChanges.count data.asset_name = true

theorem scanNullAsset_ok (h : scanNullAsset env s txout = .ok s') : Collected env s s' txout := by
  rw [scanNullAsset] at h
  split at h
  · rename_i hdata
    rw [scanNullAssetTxData, demand_bind] at h
    obtain ⟨⟨data, address⟩, hrec, h⟩ := h
    simp only [unit_bind, pure_ok] at h
    obtain ⟨-, -, rfl⟩ := h
    refine ⟨rfl, fun pair hpair => ?_, fun _ hname => hname, fun _ => ⟨data, address, hrec, ?_⟩,
      fun hnot => ?_⟩
    · rw [count_assign, hpair, Bool.or_true]
    · rw [count_assign, decide_eq_true rfl, Bool.true_or]
    · rw [hdata] at hnot
      cases hnot
  · rename_i hdata
    split at h
    · rename_i hglobal
      rw [scanNullGlobal, demand_bind] at h
      obtain ⟨data, hrec, h⟩ := h
      simp only [unit_bind, pure_ok] at h
      obtain ⟨-, -, rfl⟩ := h
      refine ⟨rfl, fun _ hpair => hpair, fun name hname => ?_, fun hyes => absurd hyes hdata,
        fun _ _ => ⟨data, hrec, ?_⟩⟩
      · rw [count_emplace, hname, Bool.or_true]
      · rw [count_emplace, decide_eq_true rfl, Bool.true_or]
    · rename_i hglobal
      have hsame : s'.setAssetTransferNames = s.setAssetTransferNames ∧
          s'.mapNullDataTxCount = s.mapNullDataTxCount ∧
          s'.setNullGlobalAssetChanges = s.setNullGlobalAssetChanges := by
        split at h
        · rw [scanNullVerifier, unit_bind, require_bind, pure_ok] at h
          obtain ⟨-, -, rfl⟩ := h
          exact ⟨rfl, rfl, rfl⟩
        · cases h
          exact ⟨rfl, rfl, rfl⟩
      obtain ⟨hnames, hpairs, hglobals⟩ := hsame
      refine ⟨hnames, fun pair hpair => ?_, fun name hname => ?_, fun hyes => absurd hyes hdata,
        fun _ hyes => absurd hyes hglobal⟩
      · rw [hpairs, hpair]
      · rw [hglobals, hname]

theorem scanAsset_ok (h : scanAsset env fMempoolCheck fBlockCheck s txout = .ok s') :
    s'.mapNullDataTxCount = s.mapNullDataTxCount ∧
      s'.setNullGlobalAssetChanges = s.setNullGlobalAssetChanges ∧
      ∀ name, s'.setAssetTransferNames.count name = true →
        s.setAssetTransferNames.count name = true ∨
          ∃ amount, transferOutput env txout = some (name, amount) := by
  rw [scanAsset] at h
  split at h
  · cases h
    exact ⟨rfl, rfl, fun _ => Or.inl⟩
  · rw [scanTransfer, demand_bind] at h
    obtain ⟨⟨transfer, address⟩, hrec, h⟩ := h
    simp only [demand_bind, require_bind, pure_ok] at h
    obtain ⟨assetType, -, -, -, -, -, rfl⟩ := h
    refine ⟨rfl, rfl, fun name hname => ?_⟩
    rw [count_emplace, Bool.or_eq_true, decide_eq_true_eq] at hname
    rcases hname with rfl | hname
    · refine Or.inr ⟨transfer.nAmount, ?_⟩
      rw [transferOutput, hrec]
      rfl
    · exact Or.inl hname
  · simp only [require_bind, pure_ok] at h
    rw [h.2]
    exact ⟨rfl, rfl, fun _ => Or.inl⟩
  · simp only [require_bind, pure_ok] at h
    rw [h.2.2]
    exact ⟨rfl, rfl, fun _ => Or.inl⟩
  · cases h

end Scan

/-- What the loop has collected from the outputs it has gone through. -/
structure ScanComplete (env : Env) (vout : List CTxOut) (s : OutputScan) : Prop where
  names : ∀ name, s.setAssetTransferNames.count name = true →
    ∃ txout ∈ vout, ∃ amount, transferOutput env txout = some (name, amount)
  pairs : ∀ txout ∈ vout, txout.scriptPubKey.isNullAssetTxDataScript = true →
    ∃ data address, assetNullDataFromScript env txout.scriptPubKey = some (data, address) ∧
      s.mapNullDataTxCount.count (data.asset_name, address) = true
  globals : ∀ txout ∈ vout, txout.scriptPubKey.isNullAssetTxDataScript = false →
    txout.scriptPubKey.isNullGlobalRestrictionAssetTxDataScript = true →
      ∃ data, globalAssetNullDataFromScript txout.scriptPubKey = some data ∧
        s.setNullGlobalAssetChanges.count data.asset_name = true

theorem ScanComplete.scanOutput {fMempoolCheck fBlockCheck : Bool} {vout : List CTxOut}
    {s s' : OutputScan} {txout : CTxOut} (hs : ScanComplete env vout s)
    (h : scanOutput env fMempoolCheck fBlockCheck s txout = .ok s') :
    ScanComplete env (vout ++ [txout]) s' := by
  rw [UnemployCoin.scanOutput, bind_ok] at h
  obtain ⟨s₁, hvalue, h⟩ := h
  rw [bind_ok] at h
  obtain ⟨s₂, hnull, hasset⟩ := h
  obtain ⟨hnames₁, hpairs₁, hglobals₁⟩ := scanValue_ok hvalue
  have hcollected := scanNullAsset_ok hnull
  obtain ⟨hpairs₃, hglobals₃, hnames₃⟩ := scanAsset_ok hasset
  have hpairs : ∀ pair, s.mapNullDataTxCount.count pair = true →
      s'.mapNullDataTxCount.count pair = true := by
    intro pair hpair
    rw [hpairs₃]
    exact hcollected.pairs pair (by rw [hpairs₁, hpair])
  have hglobals : ∀ name, s.setNullGlobalAssetChanges.count name = true →
      s'.setNullGlobalAssetChanges.count name = true := by
    intro name hname
    rw [hglobals₃]
    exact hcollected.globals name (by rw [hglobals₁, hname])
  refine ⟨fun name hname => ?_, fun out hout hdata => ?_, fun out hout hdata hglobal => ?_⟩
  · rcases hnames₃ name hname with hold | ⟨amount, hamount⟩
    · rw [hcollected.names, hnames₁] at hold
      obtain ⟨out, hout, hamount⟩ := hs.names name hold
      exact ⟨out, List.mem_append_left _ hout, hamount⟩
    · exact ⟨txout, List.mem_append_right _ List.mem_cons_self, amount, hamount⟩
  · rcases List.mem_append.1 hout with hmem | hmem
    · obtain ⟨data, address, hrec, hcount⟩ := hs.pairs out hmem hdata
      exact ⟨data, address, hrec, hpairs _ hcount⟩
    · obtain rfl := List.mem_singleton.1 hmem
      rw [hpairs₃]
      exact hcollected.pair hdata
  · rcases List.mem_append.1 hout with hmem | hmem
    · obtain ⟨data, hrec, hcount⟩ := hs.globals out hmem hdata hglobal
      exact ⟨data, hrec, hglobals _ hcount⟩
    · obtain rfl := List.mem_singleton.1 hmem
      rw [hglobals₃]
      exact hcollected.global hdata hglobal

theorem scanComplete_of_checkTransaction
    {fCheckDuplicateInputs fMempoolCheck fBlockCheck : Bool}
    (h : checkTransaction env tx fCheckDuplicateInputs fMempoolCheck fBlockCheck = .ok ()) :
    ∃ s, ScanComplete env tx.vout s ∧ checkNullDataTransfers s = .ok () := by
  simp only [checkTransaction, require_bind] at h
  obtain ⟨-, -, -, h⟩ := h
  obtain ⟨s, hscan, h⟩ := bind_ok.1 h
  rw [require_bind, unit_bind] at h
  refine ⟨s, foldlM_prefix_invariant (I := ScanComplete env) ?_ ?_ hscan, h.2.1⟩
  · exact fun pre txout post s s' _ hs hround => hs.scanOutput hround
  · refine ⟨fun name hname => ?_, fun _ hmem => (nomatch hmem), fun _ hmem => (nomatch hmem)⟩
    rw [OutputScan.start, count_empty] at hname
    cases hname

theorem transfersAsset_of_command {fCheckDuplicateInputs fMempoolCheck fBlockCheck : Bool}
    (h : checkTransaction env tx fCheckDuplicateInputs fMempoolCheck fBlockCheck = .ok ())
    {command : NullCommand} (hcommand : command ∈ nullCommands env tx) :
    transfersAsset env tx.vout command.controllingToken = true := by
  obtain ⟨s, hs, htransfers⟩ := scanComplete_of_checkTransaction h
  rw [checkNullDataTransfers, unit_bind, forEach_ok, forEach_ok] at htransfers
  obtain ⟨hpairs, hglobals⟩ := htransfers
  obtain ⟨out, hout, hread⟩ := List.mem_filterMap.1 hcommand
  rw [transfersAsset_iff]
  rw [nullCommand] at hread
  split at hread
  · rename_i hdata
    obtain ⟨data, address, hrec, hcount⟩ := hs.pairs out hout hdata
    have hpair := hpairs _ (mem_keys.2 hcount)
    rw [hrec] at hread
    simp only [Option.getD_some] at hread
    have hqualifier : assetTypeOf data.asset_name = .QUALIFIER ∨
        assetTypeOf data.asset_name = .SUB_QUALIFIER →
          s.setAssetTransferNames.count data.asset_name = true := by
      intro htype
      rw [head_of_qualifier htype, if_neg (by decide), require_ok] at hpair
      exact hpair
    split at hread
    · rename_i htype
      cases hread
      rw [head_of_restricted htype, if_pos (by decide), require_ok] at hpair
      exact hs.names _ hpair
    · rename_i htype
      cases hread
      exact hs.names _ (hqualifier (Or.inl htype))
    · rename_i htype
      cases hread
      exact hs.names _ (hqualifier (Or.inr htype))
    · cases hread
  · rename_i hdata
    split at hread
    · rename_i hglobal
      obtain ⟨data, hrec, hcount⟩ := hs.globals out hout (by simpa using hdata) hglobal
      have hname := hglobals _ (mem_keys.2 hcount)
      rw [require_bind, require_ok] at hname
      rw [hrec] at hread
      cases hread
      exact hs.names _ hname.2
    · cases hread

/-- **Whoever commands holds the token.**  An accepted transaction spends the controlling token
of each of its commands, and transfers it. -/
theorem nullCommand_authorized {fCheckDuplicateInputs fMempoolCheck fBlockCheck : Bool}
    (htx : checkTransaction env tx fCheckDuplicateInputs fMempoolCheck fBlockCheck = .ok ())
    (hassets : checkTxAssets env st cache tx view mempoolNames mapReissuedAssets = .ok vPair) :
    ∀ command ∈ nullCommands env tx, UsesToken env view tx command.controllingToken :=
  fun _ hcommand => (usesToken_iff hassets).2 (transfersAsset_of_command htx hcommand)

/-- The owner token of `NAME`, unspent. -/
def ownerView : CCoinsView := StdMap.assign ∅ ⟨2001, 1⟩ ⟨transferOwnerNAME, false, 1⟩

/-- The owner of `NAME` freezes key 1 for `$NAME`. -/
def freezeTx : CTransaction := ⟨2002, [⟨⟨2001, 1⟩, []⟩], [transferOwnerNAME, freezeOutput 1]⟩

theorem freezeTx_authorized : UsesToken payableEnv ownerView freezeTx (ascii "NAME!") := by
  have htx : checkTransaction payableEnv freezeTx true false true = .ok () := by decide +kernel
  have hassets : checkTxAssets payableEnv .genesis .empty freezeTx ownerView none ∅ = .ok [] := by
    decide +kernel
  have hcommand : .restricted frozenKey.1 frozenKey.2 .FREEZE_ADDRESS ∈
      nullCommands payableEnv freezeTx := by
    decide +kernel
  exact nullCommand_authorized htx hassets _ hcommand

end UnemployCoin
