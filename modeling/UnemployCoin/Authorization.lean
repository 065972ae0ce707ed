import UnemployCoin.Conservation
/-!
# Who may issue a name

Every name but that of a root asset or a root qualifier is controlled by a token, and so is
every reissue.  `CheckTransaction` asks for a transfer of that token in the branch of the
transaction's kind, and `CheckTxAssets` for an input of whatever is transferred.
-/

namespace UnemployCoin

open Check CAssetsCache

variable {env : Env} {st : AssetState} {cache : CAssetsCache} {view : CCoinsView}
  {tx : CTransaction} {mempoolNames : Option (StdMap Bytes uint256)}
  {mapReissuedAssets : StdMap Bytes uint256} {vPair : List (Bytes × uint256)}

/-! ## Controlling tokens -/

/-- The token that controls the issuance of a name of one kind. -/
def controllingToken (type : AssetType) (name : Bytes) : Option Bytes :=
  match type with
  | .SUB | .UNIQUE | .MSGCHANNEL => some (getParentName name ++ OWNER_TAG)
  | .SUB_QUALIFIER => some (getParentName name)
  | .RESTRICTED => some (name.drop 1 ++ OWNER_TAG)
  | _ => none

/-- The token that controls the issuance of a name, if one does. -/
def issuanceToken (name : Bytes) : Option Bytes :=
  (isAssetNameValid name).bind fun type => controllingToken type name

/-- The token that controls the reissue of an asset: `TOKEN!` for both `TOKEN` and `$TOKEN`. -/
def reissueToken (name : Bytes) : Bytes :=
  if isAssetNameValid name = some .RESTRICTED then name.drop 1 ++ OWNER_TAG else name ++ OWNER_TAG

/-- The transaction spends an input of an asset and has an output of it. -/
def UsesToken (env : Env) (view : CCoinsView) (tx : CTransaction) (token : Bytes) : Prop :=
  (∃ txin ∈ tx.vin, ∃ amount, spentAsset env view txin = some (token, amount)) ∧
    ∃ txout ∈ tx.vout, ∃ amount, transferOutput env txout = some (token, amount)

/-- Every issue and every reissue in a transaction uses its controlling token. -/
structure IssuanceAuthorized (env : Env) (view : CCoinsView) (tx : CTransaction) : Prop where
  issue : ∀ txout ∈ tx.vout, ∀ asset address,
    assetFromScript env txout.scriptPubKey = some (asset, address) →
      ∀ token, issuanceToken asset.strName = some token → UsesToken env view tx token
  reissue : ∀ txout ∈ tx.vout, ∀ reissue address,
    reissueAssetFromScript env txout.scriptPubKey = some (reissue, address) →
      UsesToken env view tx (reissueToken reissue.strName)

/-- The half of `IssuanceAuthorized` about the outputs. -/
structure TokensTransferred (env : Env) (tx : CTransaction) : Prop where
  issue : ∀ txout ∈ tx.vout, ∀ asset address,
    assetFromScript env txout.scriptPubKey = some (asset, address) →
      ∀ token, issuanceToken asset.strName = some token →
        transfersAsset env tx.vout token = true
  reissue : ∀ txout ∈ tx.vout, ∀ reissue address,
    reissueAssetFromScript env txout.scriptPubKey = some (reissue, address) →
      transfersAsset env tx.vout (reissueToken reissue.strName) = true

variable {name : Bytes}

theorem transfersAsset_iff : transfersAsset env tx.vout name = true ↔
    ∃ txout ∈ tx.vout, ∃ amount, transferOutput env txout = some (name, amount) := by
  rw [transfersAsset, List.any_eq_true]
  refine exists_congr fun txout => and_congr_right fun _ => ?_
  cases hrec : transferAssetFromScript env txout.scriptPubKey with
  | none => simp [transferOutput, hrec]
  | some record =>
    obtain ⟨transfer, address⟩ := record
    have hout : transferOutput env txout = some (transfer.strName, transfer.nAmount) := by
      rw [transferOutput, hrec]
      rfl
    simp only [beq_iff_eq, hout]
    constructor
    · rintro rfl
      exact ⟨transfer.nAmount, rfl⟩
    · rintro ⟨amount, heq⟩
      exact (Prod.mk.inj (Option.some.inj heq)).1.symm

theorem usesToken_iff
    (h : checkTxAssets env st cache tx view mempoolNames mapReissuedAssets = .ok vPair)
    {token : Bytes} : UsesToken env view tx token ↔ transfersAsset env tx.vout token = true := by
  constructor
  · rintro ⟨-, hout⟩
    exact transfersAsset_iff.2 hout
  · intro htransfer
    exact ⟨input_of_transfer h htransfer, transfersAsset_iff.1 htransfer⟩

theorem issuanceAuthorized_iff_transferred
    (h : checkTxAssets env st cache tx view mempoolNames mapReissuedAssets = .ok vPair) :
    IssuanceAuthorized env view tx ↔ TokensTransferred env tx := by
  constructor
  · rintro ⟨hissue, hreissue⟩
    exact ⟨fun txout hout asset address hasset token htoken =>
        (usesToken_iff h).1 (hissue txout hout asset address hasset token htoken),
      fun txout hout reissue address hre =>
        (usesToken_iff h).1 (hreissue txout hout reissue address hre)⟩
  · rintro ⟨hissue, hreissue⟩
    exact ⟨fun txout hout asset address hasset token htoken =>
        (usesToken_iff h).2 (hissue txout hout asset address hasset token htoken),
      fun txout hout reissue address hre =>
        (usesToken_iff h).2 (hreissue txout hout reissue address hre)⟩

/-! ## Outputs by kind -/

theorem countOutputs_eq (vout : List CTxOut) (nType : txnouttype) (fIsOwner : Bool) :
    countOutputs vout nType fIsOwner =
      vout.countP fun out => (out.scriptPubKey.assetDataIndex nType fIsOwner).isSome := by
  rw [countOutputs]
  congr 1
  funext out
  rw [CScript.assetDataIndex]
  cases out.scriptPubKey.isAssetScript with
  | none => rfl
  | some t =>
    by_cases h : t.nType = nType ∧ t.fIsOwner = fIsOwner
    · simp [h]
    · simp only [if_neg h, Option.isSome_none, Bool.and_eq_false_imp, beq_iff_eq,
        beq_eq_false_iff_ne]
      exact fun h₁ h₂ => h ⟨h₁, h₂⟩

variable {txout : CTxOut} {nType : txnouttype}

theorem no_output_of_count {fIsOwner : Bool}
    (hcount : countOutputs tx.vout nType fIsOwner = 0) (hmem : txout ∈ tx.vout) :
    txout.scriptPubKey.assetDataIndex nType fIsOwner = none := by
  rw [countOutputs_eq, List.countP_eq_zero] at hcount
  simpa using hcount txout hmem

theorem exists_last (h : tx.lastScript ≠ []) :
    ∃ txout ∈ tx.vout, txout.scriptPubKey = tx.lastScript := by
  rw [CTransaction.lastScript] at h ⊢
  cases hlast : tx.vout.getLast? with
  | none =>
    rw [hlast] at h
    exact absurd rfl h
  | some txout => exact ⟨txout, List.mem_of_getLast? hlast, rfl⟩

theorem eq_lastScript_of_count {fIsOwner : Bool}
    (hcount : countOutputs tx.vout nType fIsOwner = 1)
    (hlast : (tx.lastScript.assetDataIndex nType fIsOwner).isSome) (hmem : txout ∈ tx.vout)
    (hout : (txout.scriptPubKey.assetDataIndex nType fIsOwner).isSome) :
    txout.scriptPubKey = tx.lastScript := by
  have hne : tx.lastScript ≠ [] := by
    intro hnil
    rw [hnil] at hlast
    cases hlast
  obtain ⟨last, hlastmem, hscript⟩ := exists_last hne
  rw [countOutputs_eq, List.countP_eq_length_filter, List.length_eq_one_iff] at hcount
  obtain ⟨a, ha⟩ := hcount
  have h₁ : txout ∈ [a] := ha ▸ List.mem_filter.2 ⟨hmem, hout⟩
  have h₂ : last ∈ [a] := ha ▸ List.mem_filter.2 ⟨hlastmem, by rw [hscript]; exact hlast⟩
  rw [List.mem_singleton.1 h₁, ← List.mem_singleton.1 h₂, hscript]

variable {s : CScript}

theorem isSome_of_assetFromScript {record : WithAddress CNewAsset}
    (h : assetFromScript env s = some record) : s.isScriptNewAsset.isSome := by
  obtain ⟨i, hi, -⟩ := recordFromScript_eq_some h
  rw [hi]
  rfl

theorem isSome_of_reissueAssetFromScript {record : WithAddress CReissueAsset}
    (h : reissueAssetFromScript env s = some record) : s.isScriptReissueAsset.isSome := by
  obtain ⟨i, hi, -⟩ := recordFromScript_eq_some h
  rw [hi]
  rfl

theorem newAssetOfType_eq_some {types : List AssetType} {asset : CNewAsset}
    {address : Bytes} : newAssetOfType env types s = some (asset, address) ↔
      assetFromScript env s = some (asset, address) ∧
        ∃ type ∈ types, isAssetNameValid asset.strName = some type := by
  rw [newAssetOfType]
  cases hrec : assetFromScript env s with
  | none => simp
  | some record =>
    obtain ⟨asset', address'⟩ := record
    cases htype : isAssetNameValid asset'.strName with
    | none =>
      simp only [htype, reduceCtorEq, false_iff, not_and, not_exists, Option.some.injEq,
        Prod.mk.injEq, and_imp]
      rintro rfl - type htypes
      rw [htype]
      exact fun h => nomatch h
    | some type =>
      simp only [htype, Option.ite_none_right_eq_some, Option.some.injEq, Prod.mk.injEq]
      constructor
      · rintro ⟨hmem, rfl, rfl⟩
        exact ⟨⟨rfl, rfl⟩, type, hmem, htype⟩
      · rintro ⟨⟨rfl, rfl⟩, type', hmem, htype'⟩
        rw [htype] at htype'
        exact ⟨Option.some.inj htype' ▸ hmem, rfl, rfl⟩

/-! ## The branches -/

theorem counts_of_require {nOwners nIssues : ℕ} {reason : String}
    (h : require ((getTxOutAssetTypes tx.vout).nOwners == nOwners &&
      (getTxOutAssetTypes tx.vout).nIssues == nIssues &&
      (getTxOutAssetTypes tx.vout).nReissues == 0) reason = .ok ()) :
    countOutputs tx.vout .TX_NEW_ASSET false = nIssues ∧
      countOutputs tx.vout .TX_REISSUE_ASSET false = 0 := by
  simp only [require_ok, Bool.and_eq_true, beq_iff_eq] at h
  exact ⟨h.1.2, h.2⟩

theorem no_reissue_of_count {record : WithAddress CReissueAsset}
    (hcount : countOutputs tx.vout .TX_REISSUE_ASSET false = 0) (hmem : txout ∈ tx.vout) :
    reissueAssetFromScript env txout.scriptPubKey ≠ some record := by
  intro hrec
  have hsome := isSome_of_reissueAssetFromScript hrec
  rw [CScript.isScriptReissueAsset, no_output_of_count hcount hmem] at hsome
  cases hsome

theorem no_issue_of_count {record : WithAddress CNewAsset}
    (hcount : countOutputs tx.vout .TX_NEW_ASSET false = 0) (hmem : txout ∈ tx.vout) :
    assetFromScript env txout.scriptPubKey ≠ some record := by
  intro hrec
  have hsome := isSome_of_assetFromScript hrec
  rw [CScript.isScriptNewAsset, no_output_of_count hcount hmem] at hsome
  cases hsome

theorem tokensTransferred_single {asset : CNewAsset} {address : Bytes}
    (hrec : assetFromScript env tx.lastScript = some (asset, address))
    (hissues : countOutputs tx.vout .TX_NEW_ASSET false = 1)
    (hreissues : countOutputs tx.vout .TX_REISSUE_ASSET false = 0) :
    TokensTransferred env tx ↔ ∀ token, issuanceToken asset.strName = some token →
      transfersAsset env tx.vout token = true := by
  have hlast := isSome_of_assetFromScript hrec
  constructor
  · rintro ⟨hissue, -⟩ token htoken
    have hne : tx.lastScript ≠ [] := by
      intro hnil
      rw [hnil] at hlast
      cases hlast
    obtain ⟨txout, hmem, hscript⟩ := exists_last hne
    exact hissue txout hmem asset address (by rw [hscript, hrec]) token htoken
  · intro htoken
    refine ⟨fun txout hmem asset' address' hrec' => ?_, fun txout hmem _ _ hre =>
      absurd hre (no_reissue_of_count hreissues hmem)⟩
    have hscript := eq_lastScript_of_count hissues hlast hmem (isSome_of_assetFromScript hrec')
    rw [hscript, hrec] at hrec'
    obtain ⟨rfl, rfl⟩ := Prod.mk.inj (Option.some.inj hrec')
    exact htoken

variable {type : AssetType}

theorem issuanceToken_eq
    (h : isAssetNameValid name = some type) :
    issuanceToken name = controllingToken type name := by
  rw [issuanceToken, h, Option.bind_some]

theorem assetTypeOf_eq
    (h : isAssetNameValid name = some type) : assetTypeOf name = type := by
  rw [assetTypeOf, h]
  rfl

theorem isAssetNameValid_of_assetTypeOf
    (h : assetTypeOf name = type) (hvalid : type ≠ .INVALID) :
    isAssetNameValid name = some type := by
  rw [assetTypeOf] at h
  cases hname : isAssetNameValid name with
  | none =>
    rw [hname, Option.getD_none] at h
    exact absurd h.symm hvalid
  | some type' =>
    rw [hname, Option.getD_some] at h
    rw [h]

theorem TokensTransferred.of_newMsgChannel (h : tx.verifyNewMsgChannelAsset env = .ok ()) :
    TokensTransferred env tx := by
  simp only [CTransaction.verifyNewMsgChannelAsset, require_bind, demand_bind] at h
  obtain ⟨-, -, ⟨asset, address⟩, hrec, -, hparent, hcounts⟩ := h
  obtain ⟨hissues, hreissues⟩ := counts_of_require hcounts
  obtain ⟨hrec, type, htypes, htype⟩ := newAssetOfType_eq_some.1 hrec
  obtain rfl := List.mem_singleton.1 htypes
  refine (tokensTransferred_single hrec hissues hreissues).2 fun token htoken => ?_
  rw [issuanceToken_eq htype] at htoken
  rw [← Option.some.inj htoken]
  exact hparent

theorem TokensTransferred.of_newQualifier (h : tx.verifyNewQualfierAsset env = .ok ()) :
    TokensTransferred env tx := by
  simp only [CTransaction.verifyNewQualfierAsset, require_bind, demand_bind] at h
  obtain ⟨-, -, ⟨asset, address⟩, hrec, -, hparent, hcounts⟩ := h
  obtain ⟨hissues, hreissues⟩ := counts_of_require hcounts
  obtain ⟨hrec, type, htypes, htype⟩ := newAssetOfType_eq_some.1 hrec
  refine (tokensTransferred_single hrec hissues hreissues).2 fun token htoken => ?_
  rw [issuanceToken_eq htype] at htoken
  simp only [assetTypeOf_eq htype, Bool.or_eq_true, bne_iff_ne] at hparent
  simp only [List.mem_cons, List.not_mem_nil, or_false] at htypes
  rcases htypes with rfl | rfl
  · cases htoken
  · rw [← Option.some.inj htoken]
    exact hparent.resolve_left fun hne => hne rfl

theorem TokensTransferred.of_newRestricted (h : tx.verifyNewRestrictedAsset env = .ok ()) :
    TokensTransferred env tx := by
  simp only [CTransaction.verifyNewRestrictedAsset, require_bind, demand_bind] at h
  obtain ⟨-, -, ⟨asset, address⟩, hrec, -, hroot, h⟩ := h
  obtain ⟨verifier, -, hcounts⟩ := bind_ok.1 h
  obtain ⟨hissues, hreissues⟩ := counts_of_require hcounts
  obtain ⟨hrec, type, htypes, htype⟩ := newAssetOfType_eq_some.1 hrec
  obtain rfl := List.mem_singleton.1 htypes
  refine (tokensTransferred_single hrec hissues hreissues).2 fun token htoken => ?_
  have hparent : getParentName asset.strName = asset.strName := by
    rw [getParentName, htype]
    rfl
  rw [issuanceToken_eq htype] at htoken
  rw [← Option.some.inj htoken]
  rw [hparent] at hroot
  exact hroot

theorem reissueNameToCheck_append (name : Bytes) :
    CTransaction.reissueNameToCheck name ++ OWNER_TAG = reissueToken name := by
  rw [CTransaction.reissueNameToCheck, reissueToken, assetTypeOf]
  cases htype : isAssetNameValid name with
  | none => simp
  | some type => by_cases h : type = .RESTRICTED <;> simp [h]

theorem TokensTransferred.of_reissue (h : tx.verifyReissueAsset env = .ok ()) :
    TokensTransferred env tx := by
  simp only [CTransaction.verifyReissueAsset, require_bind, demand_bind] at h
  obtain ⟨-, hlast, ⟨reissue, address⟩, hrec, htoken, -, hcounts⟩ := h
  simp only [require_ok, Bool.and_eq_true, beq_iff_eq] at hcounts
  obtain ⟨⟨-, hreissues⟩, hissues⟩ := hcounts
  refine ⟨fun txout hmem _ _ hissue => absurd hissue (no_issue_of_count hissues hmem), ?_⟩
  intro txout hmem reissue' address' hrec'
  have hscript := eq_lastScript_of_count hreissues hlast hmem
    (isSome_of_reissueAssetFromScript hrec')
  rw [hscript, hrec] at hrec'
  obtain ⟨rfl, rfl⟩ := Prod.mk.inj (Option.some.inj hrec')
  rw [← reissueNameToCheck_append]
  exact htoken

theorem assetDataIndex_of_other (h : checkOtherTx tx = .ok ())
    (hmem : txout ∈ tx.vout) (hne : nType ≠ .TX_TRANSFER_ASSET) :
    txout.scriptPubKey.assetDataIndex nType false = none := by
  rw [checkOtherTx, forEach_ok] at h
  have hout := h txout hmem
  rw [CScript.assetDataIndex]
  cases hs : txout.scriptPubKey.isAssetScript with
  | none => rfl
  | some t =>
    rw [hs] at hout
    simp only [require_ok, beq_iff_eq] at hout
    refine if_neg ?_
    rintro ⟨htype, -⟩
    exact hne (htype ▸ hout)

theorem TokensTransferred.of_other (h : checkOtherTx tx = .ok ()) : TokensTransferred env tx := by
  refine ⟨fun txout hmem _ _ hrec => ?_, fun txout hmem _ _ hrec => ?_⟩
  · have hsome := isSome_of_assetFromScript hrec
    rw [CScript.isScriptNewAsset, assetDataIndex_of_other h hmem (by decide)] at hsome
    cases hsome
  · have hsome := isSome_of_reissueAssetFromScript hrec
    rw [CScript.isScriptReissueAsset, assetDataIndex_of_other h hmem (by decide)] at hsome
    cases hsome

/-! ## Unique assets -/

theorem indicatedType_of_valid
    (h : isAssetNameValid name = some type) : indicatedType name = type := by
  rw [isAssetNameValid] at h
  split at h
  · cases h
  · simp only [Option.ite_none_right_eq_some] at h
    exact Option.some.inj h.2

theorem indicators_of_restricted (h : indicatedType name = .RESTRICTED) :
    Regex.regexMatch name QUALIFIER_INDICATOR = false ∧
      Regex.regexMatch name SUB_QUALIFIER_INDICATOR = false ∧
      Regex.regexMatch name RESTRICTED_INDICATOR = true := by
  rw [indicatedType] at h
  repeat' split at h
  all_goals try contradiction
  rename_i hqualifier hsub hrestricted
  exact ⟨Bool.eq_false_of_not_eq_true hqualifier, Bool.eq_false_of_not_eq_true hsub, hrestricted⟩

theorem indicators_of_qualifier
    (h : indicatedType name = .QUALIFIER ∨ indicatedType name = .SUB_QUALIFIER) :
    Regex.regexMatch name QUALIFIER_INDICATOR = true ∨
      Regex.regexMatch name SUB_QUALIFIER_INDICATOR = true := by
  rw [indicatedType] at h
  repeat' split at h
  all_goals first | exact Or.inl ‹_› | exact Or.inr ‹_› | simp at h

theorem regexMatch_of_unique (h : indicatedType name = .UNIQUE) :
    Regex.regexMatch name UNIQUE_INDICATOR = true := by
  by_contra hnot
  rw [indicatedType, if_neg hnot] at h
  repeat' split at h
  all_goals cases h

theorem findLast_pos {c d : UInt8} {v : Bytes} {i : ℕ} (hc : c ≠ d)
    (h : Bytes.findLast (c :: v) d = some i) : 0 < i := by
  rw [Bytes.findLast] at h
  cases hj : (c :: v).reverse.findIdx? fun b => b == d with
  | none =>
    rw [hj] at h
    cases h
  | some j =>
    rw [hj] at h
    obtain ⟨hlt, hat, -⟩ := List.findIdx?_eq_some_iff_getElem.1 hj
    have hi := Option.some.inj h
    rw [List.getElem_reverse, beq_iff_eq] at hat
    simp only [List.length_reverse, List.length_cons] at hlt hi hat
    by_contra hzero
    have hlast : v.length + 1 - 1 - j = 0 := by omega
    simp only [hlast, List.getElem_cons_zero] at hat
    exact hc hat

theorem getParentName_unique_ne_nil (h : isAssetNameValid name = some .UNIQUE) :
    getParentName name ≠ [] := by
  obtain ⟨c, v, rfl, hc⟩ := Regex.head_of_plus (regexMatch_of_unique (indicatedType_of_valid h))
  rw [getParentName, h]
  simp only [parentDelimiter, Option.bind_some]
  cases hlast : Bytes.findLast (c :: v) UNIQUE_TAG_DELIMITER with
  | none => exact List.cons_ne_nil c v
  | some i =>
    have hpos := findLast_pos (by
      rintro rfl
      revert hc
      decide) hlast
    obtain ⟨n, rfl⟩ := Nat.exists_eq_succ_of_ne_zero hpos.ne'
    exact List.cons_ne_nil c (v.take n)

def issuesUnique (env : Env) (txout : CTxOut) : Bool :=
  (uniqueAssetFromScript env txout.scriptPubKey).isSome

theorem collectUniqueAssets_ok {vout : List CTxOut} {root root' : Bytes} {names names' : List Bytes}
    (h : CTransaction.collectUniqueAssets env vout root names = .ok (root', names')) :
    (root ≠ [] → root' = root) ∧
      names'.length = names.length + vout.countP (issuesUnique env) ∧
      ∀ txout ∈ vout, ∀ asset address,
        uniqueAssetFromScript env txout.scriptPubKey = some (asset, address) →
          getParentName asset.strName = root' := by
  induction vout generalizing root names with
  | nil =>
    cases h
    simp
  | cons txout vout ih =>
    rw [CTransaction.collectUniqueAssets] at h
    cases hrec : uniqueAssetFromScript env txout.scriptPubKey with
    | none =>
      rw [hrec] at h
      obtain ⟨hroot, hlength, hparent⟩ := ih h
      have hnot : issuesUnique env txout = false := by rw [issuesUnique, hrec]; rfl
      refine ⟨hroot, by rw [hlength, List.countP_cons_of_neg (by simp [hnot])], ?_⟩
      rw [List.forall_mem_cons]
      refine ⟨fun _ _ h => ?_, hparent⟩
      rw [hrec] at h
      cases h
    | some record =>
      obtain ⟨asset, address⟩ := record
      rw [hrec] at h
      simp only [ne_eq, ite_not] at h
      by_cases hsame :
          (if root.isEmpty then getParentName asset.strName else root) = getParentName asset.strName
      swap
      · rw [if_neg hsame] at h
        cases h
      · rw [if_pos hsame, hsame] at h
        split at h
        · cases h
        · obtain ⟨hroot, hlength, hparent⟩ := ih h
          obtain ⟨-, type, htypes, htype⟩ := newAssetOfType_eq_some.1 hrec
          obtain rfl := List.mem_singleton.1 htypes
          have hthis := hroot (getParentName_unique_ne_nil htype)
          have hunique : issuesUnique env txout = true := by rw [issuesUnique, hrec]; rfl
          refine ⟨fun hne => ?_, ?_, ?_⟩
          · rw [hthis, ← hsame, if_neg (by simpa using hne)]
          · rw [hlength, List.length_cons, List.countP_cons_of_pos hunique]
            omega
          · rw [List.forall_mem_cons]
            refine ⟨fun asset' address' h => ?_, hparent⟩
            rw [hrec] at h
            cases h
            exact hthis.symm

theorem of_countP_eq {α : Type} {p q : α → Bool} {l : List α} (hpq : ∀ a, p a → q a)
    (hcount : l.countP p = l.countP q) {a : α} (hmem : a ∈ l) (hq : q a) : p a := by
  rw [List.countP_eq_length_filter, List.countP_eq_length_filter] at hcount
  have hsub : (l.filter p).Sublist (l.filter q) := List.monotone_filter_right l hpq
  have hfilter : a ∈ l.filter p := hsub.eq_of_length hcount ▸ List.mem_filter.2 ⟨hmem, hq⟩
  exact (List.mem_filter.1 hfilter).2

theorem uniqueAssetFromScript_of_verify (h : tx.verifyNewUniqueAsset env = .ok ()) :
    ∀ txout ∈ tx.vout, ∀ record, assetFromScript env txout.scriptPubKey = some record →
      uniqueAssetFromScript env txout.scriptPubKey = some record := by
  simp only [CTransaction.verifyNewUniqueAsset, require_bind] at h
  obtain ⟨-, h⟩ := h
  obtain ⟨⟨root, names⟩, hcollect, h⟩ := bind_ok.1 h
  simp only [require_bind] at h
  obtain ⟨-, -, -, hcounts⟩ := h
  obtain ⟨-, hlength, -⟩ := collectUniqueAssets_ok hcollect
  simp only [require_ok, Bool.and_eq_true, beq_iff_eq] at hcounts
  obtain ⟨-, hissues⟩ := hcounts
  intro txout hmem record hrec
  have hcount : tx.vout.countP (issuesUnique env) =
      tx.vout.countP fun out => out.scriptPubKey.isScriptNewAsset.isSome := by
    rw [List.length_nil, Nat.zero_add] at hlength
    rw [← hlength, ← hissues]
    exact countOutputs_eq tx.vout .TX_NEW_ASSET false
  have hnew : ∀ out, issuesUnique env out = true → out.scriptPubKey.isScriptNewAsset.isSome := by
    intro out hout
    obtain ⟨⟨asset, address⟩, hsome⟩ := Option.isSome_iff_exists.1 hout
    exact isSome_of_assetFromScript (newAssetOfType_eq_some.1 hsome).1
  have hunique : issuesUnique env txout = true :=
    of_countP_eq hnew hcount hmem (isSome_of_assetFromScript hrec)
  obtain ⟨⟨asset, address⟩, hsome⟩ := Option.isSome_iff_exists.1 hunique
  rw [hsome, ← hrec, (newAssetOfType_eq_some.1 hsome).1]

theorem TokensTransferred.of_newUnique (h : tx.verifyNewUniqueAsset env = .ok ()) :
    TokensTransferred env tx := by
  have hunique := uniqueAssetFromScript_of_verify h
  simp only [CTransaction.verifyNewUniqueAsset, require_bind] at h
  obtain ⟨-, h⟩ := h
  obtain ⟨⟨root, names⟩, hcollect, h⟩ := bind_ok.1 h
  simp only [require_bind] at h
  obtain ⟨-, -, htoken, hcounts⟩ := h
  obtain ⟨-, -, hparent⟩ := collectUniqueAssets_ok hcollect
  simp only [require_ok, Bool.and_eq_true, beq_iff_eq] at hcounts
  obtain ⟨⟨-, hreissues⟩, -⟩ := hcounts
  refine ⟨?_, fun txout hmem _ _ hre => absurd hre (no_reissue_of_count hreissues hmem)⟩
  intro txout hmem asset address hrec token hcontrols
  have hsome := hunique txout hmem (asset, address) hrec
  obtain ⟨-, type, htypes, htype⟩ := newAssetOfType_eq_some.1 hsome
  obtain rfl := List.mem_singleton.1 htypes
  rw [issuanceToken_eq htype] at hcontrols
  rw [← Option.some.inj hcontrols, hparent txout hmem asset address hsome]
  exact htoken

/-! ## The branch for root assets and sub-assets -/

/-- What this branch leaves open: the token of a name that is neither of a root asset nor of a
sub-asset. -/
def NewAssetCovered (env : Env) (tx : CTransaction) : Prop :=
  tx.isNewAsset env = true → ∀ asset address,
    assetFromScript env tx.lastScript = some (asset, address) →
      ∀ type, isAssetNameValid asset.strName = some type →
        type = .MSGCHANNEL ∨ type = .SUB_QUALIFIER →
          ∀ token, controllingToken type asset.strName = some token →
            transfersAsset env tx.vout token = true

theorem isNewAsset_of_kind {kind : CTransaction.AssetTxKind} (h : tx.assetTxKind env = kind)
    (hkind : kind ≠ .newAsset) : tx.isNewAsset env = false := by
  by_contra hnew
  rw [CTransaction.assetTxKind, if_pos (by simpa using hnew)] at h
  exact hkind h.symm

theorem isNewAsset_of_newAsset (h : tx.assetTxKind env = .newAsset) :
    tx.isNewAsset env = true := by
  by_contra hnew
  rw [CTransaction.assetTxKind, if_neg hnew] at h
  repeat' split at h
  all_goals cases h

theorem tokensTransferred_newAsset_iff (hnew : tx.isNewAsset env = true)
    (h : tx.verifyNewAsset env = .ok ()) :
    TokensTransferred env tx ↔ NewAssetCovered env tx := by
  simp only [CTransaction.verifyNewAsset, require_bind, demand_bind] at h
  obtain ⟨-, -, -, ⟨asset, address⟩, hrec, ⟨owner, ownerAddress⟩, -, -, -, hparent, hcounts⟩ := h
  obtain ⟨hissues, hreissues⟩ := counts_of_require hcounts
  rw [tokensTransferred_single hrec hissues hreissues]
  constructor
  · intro htransfer _ asset' address' hrec' type htype _ token htoken
    rw [hrec] at hrec'
    cases hrec'
    exact htransfer token (by rw [issuanceToken_eq htype, htoken])
  · intro hcovered token htoken
    obtain ⟨type, htype, hcontrols⟩ := Option.bind_eq_some_iff.1 htoken
    have hnot : ∀ types, type ∈ types →
        (newAssetOfType env types tx.lastScript).isSome = true := by
      intro types hmem
      rw [newAssetOfType_eq_some.2 ⟨hrec, type, hmem, htype⟩]
      rfl
    have hkind := hnew
    simp only [CTransaction.isNewAsset, uniqueAssetFromScript, restrictedAssetFromScript,
      Bool.and_eq_true, Bool.not_eq_true', Bool.or_eq_false_iff] at hkind
    obtain ⟨-, hunique, hrestricted⟩ := hkind
    cases type with
    | SUB =>
      simp only [assetTypeOf_eq htype, bne_self_eq_false, Bool.false_or] at hparent
      rw [← Option.some.inj hcontrols]
      exact hparent
    | MSGCHANNEL =>
      exact hcovered hnew asset address hrec _ htype (.inl rfl) token hcontrols
    | SUB_QUALIFIER =>
      exact hcovered hnew asset address hrec _ htype (.inr rfl) token hcontrols
    | UNIQUE =>
      rw [hnot [.UNIQUE] (List.mem_singleton.2 rfl)] at hunique
      cases hunique
    | RESTRICTED =>
      rw [hnot [.RESTRICTED] (List.mem_singleton.2 rfl)] at hrestricted
      cases hrestricted
    | _ => cases hcontrols

theorem tokensTransferred_iff {record : RestrictedRecord} (h : checkAssetTx env tx = .ok record) :
    TokensTransferred env tx ↔ NewAssetCovered env tx := by
  rw [checkAssetTx] at h
  have hcovered : tx.assetTxKind env ≠ .newAsset → NewAssetCovered env tx := by
    intro hkind hnew
    rw [isNewAsset_of_kind rfl hkind] at hnew
    cases hnew
  cases hkind : tx.assetTxKind env with
  | newAsset =>
    rw [hkind] at h
    simp only [checkNewAssetTx, unit_map_ok, unit_bind] at h
    exact tokensTransferred_newAsset_iff (isNewAsset_of_newAsset hkind) h.1.1
  | reissue =>
    rw [hkind] at h
    simp only [checkReissueTx, unit_bind] at h
    exact iff_of_true (.of_reissue h.1) (hcovered (by rw [hkind]; decide))
  | newUnique =>
    rw [hkind] at h
    simp only [checkNewUniqueTx, unit_map_ok, unit_bind] at h
    exact iff_of_true (.of_newUnique h.1.1) (hcovered (by rw [hkind]; decide))
  | newMsgChannel =>
    rw [hkind] at h
    simp only [checkNewMsgChannelTx, unit_map_ok, unit_bind] at h
    exact iff_of_true (.of_newMsgChannel h.1.1) (hcovered (by rw [hkind]; decide))
  | newQualifier =>
    rw [hkind] at h
    simp only [checkNewQualifierTx, unit_map_ok, unit_bind] at h
    exact iff_of_true (.of_newQualifier h.1.1) (hcovered (by rw [hkind]; decide))
  | newRestricted =>
    rw [hkind] at h
    simp only [checkNewRestrictedTx, unit_map_ok, unit_bind] at h
    exact iff_of_true (.of_newRestricted h.1.1) (hcovered (by rw [hkind]; decide))
  | other =>
    rw [hkind] at h
    simp only [unit_map_ok] at h
    exact iff_of_true (.of_other h.1) (hcovered (by rw [hkind]; decide))

theorem checkAssetTx_of_checkTransaction
    {fCheckDuplicateInputs fMempoolCheck fBlockCheck : Bool}
    (h : checkTransaction env tx fCheckDuplicateInputs fMempoolCheck fBlockCheck = .ok ()) :
    ∃ record, checkAssetTx env tx = .ok record := by
  simp only [checkTransaction, require_bind] at h
  obtain ⟨-, -, -, h⟩ := h
  obtain ⟨s, -, h⟩ := bind_ok.1 h
  simp only [unit_bind] at h
  obtain ⟨-, -, -, h⟩ := h
  obtain ⟨record, hrecord, -⟩ := bind_ok.1 h
  exact ⟨record, hrecord⟩

/-- **When issuance is authorized.**  In an accepted transaction every issue and every reissue
uses its controlling token, if and only if this holds of the issue of a message channel or a sub
qualifier that comes with an owner token of its own name. -/
theorem issuanceAuthorized_iff {fCheckDuplicateInputs fMempoolCheck fBlockCheck : Bool}
    (htx : checkTransaction env tx fCheckDuplicateInputs fMempoolCheck fBlockCheck = .ok ())
    (hassets : checkTxAssets env st cache tx view mempoolNames mapReissuedAssets = .ok vPair) :
    IssuanceAuthorized env view tx ↔ NewAssetCovered env tx := by
  obtain ⟨record, hrecord⟩ := checkAssetTx_of_checkTransaction htx
  rw [issuanceAuthorized_iff_transferred hassets, tokensTransferred_iff hrecord]

/-! ### A sub-asset and a message channel -/

/-- The main network with burn addresses that can be paid.  The strings that the source has for
them are placeholders, which no destination is encoded as. -/
def burnEnv : Env :=
  { sampleEnv with
    params :=
      { CMainParams with
        strIssueSubAssetBurnAddress := ascii "UNAdiGx5PWEsPRiq4jtvgEWPngMi7rkdiG"
        strIssueMsgChannelAssetBurnAddress := ascii "UNAdiGx5PWEsPRiq4jtvgEWPngMi7rkdiG" } }

/-- The owner token of `ROOT`, to key 1. -/
def transferOwnerROOT : CTxOut where
  nValue := 0
  scriptPubKey := CAssetTransfer.constructTransaction ⟨ascii "ROOT!", OWNER_ASSET_AMOUNT, [], 0⟩
    (getScriptForKeyID (keyHash 1))

/-- 200 coins and the owner token of `ROOT`. -/
def rootView : CCoinsView :=
  (StdMap.assign ∅ ⟨7, 0⟩ ⟨⟨200 * COIN, getScriptForKeyID (keyHash 1)⟩, false, 1⟩).assign ⟨7, 1⟩
    ⟨transferOwnerROOT, false, 1⟩

/-- The outputs that issue a name together with its owner token, behind a burn fee. -/
def issueOutputs (strName : Bytes) : List CTxOut :=
  let asset : CNewAsset := ⟨strName, COIN, 0, 0, 0, []⟩
  [⟨100 * COIN, getScriptForKeyID (keyHash 2)⟩,
    ⟨0, asset.constructOwnerTransaction (getScriptForKeyID (keyHash 1))⟩,
    ⟨0, asset.constructTransaction (getScriptForKeyID (keyHash 1))⟩]

/-- A sub-asset of `ROOT`, issued by the owner of `ROOT`. -/
def subAssetTx : CTransaction where
  hash := 8
  vin := [⟨⟨7, 0⟩, []⟩, ⟨⟨7, 1⟩, []⟩]
  vout := transferOwnerROOT :: issueOutputs (ascii "ROOT/SUB")

theorem subAssetTx_authorized : IssuanceAuthorized burnEnv rootView subAssetTx := by
  have htx : checkTransaction burnEnv subAssetTx true false true = .ok () := by decide +kernel
  have hassets : checkTxAssets burnEnv .genesis .empty subAssetTx rootView none ∅ = .ok [] := by
    decide +kernel
  refine (issuanceAuthorized_iff htx hassets).2 ?_
  intro _ asset address hrec type htype hkind
  have hname : (assetFromScript burnEnv subAssetTx.lastScript).map (fun record =>
      isAssetNameValid record.1.strName) = some (some .SUB) := by
    decide +kernel
  rw [hrec, Option.map_some, htype] at hname
  cases hname
  simp at hkind

/-- A message channel of `ROOT`, issued by someone who does not own `ROOT`. -/
def msgChannelTx : CTransaction where
  hash := 8
  vin := [⟨⟨7, 0⟩, []⟩]
  vout := issueOutputs (ascii "ROOT~CHAN")

/-- `msgChannelTx` is accepted without the owner token of `ROOT`. -/
theorem msgChannelTx_accepted :
    checkTransaction burnEnv msgChannelTx true false true = .ok () ∧
      checkTxAssets burnEnv .genesis .empty msgChannelTx rootView none ∅ = .ok [] ∧
      ¬ IssuanceAuthorized burnEnv rootView msgChannelTx := by
  refine ⟨by decide +kernel, by decide +kernel, fun hauthorized => ?_⟩
  have huses := hauthorized.issue
    ⟨0, CNewAsset.constructTransaction ⟨ascii "ROOT~CHAN", COIN, 0, 0, 0, []⟩
      (getScriptForKeyID (keyHash 1))⟩ (by decide +kernel)
    ⟨ascii "ROOT~CHAN", COIN, 0, 0, 0, []⟩ (ascii "UN5KqL7LLPNizx6rs8moKt1SnzSRncTKKH")
    (by decide +kernel) (ascii "ROOT!") (by decide +kernel)
  have hnot : transfersAsset burnEnv msgChannelTx.vout (ascii "ROOT!") = false := by
    decide +kernel
  rw [transfersAsset_iff.2 huses.2] at hnot
  cases hnot

end UnemployCoin
