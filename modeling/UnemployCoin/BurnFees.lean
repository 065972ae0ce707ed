import Mathlib.Algebra.Order.BigOperators.Group.List
import Mathlib.Algebra.Order.Ring.Int
import UnemployCoin.CommandAuthorization
import UnemployCoin.Values
/-!
# Burn fees

Every issue, every reissue and every tag that is added costs a fee, which `CheckTransaction` looks
for among the outputs: one output that pays it to the burn address of the operation.
-/

namespace UnemployCoin

open Check

variable {env : Env} {tx : CTransaction}

def CTestNetParams : CChainParams :=
  { CMainParams with
    pubkeyAddressPrefix := [111]
    scriptAddressPrefix := [196]
    hashGenesisBlock := 0x0000048ad1f9d02f6443c8142256213f38045c51c5f72a11b4ecfa73f9e0914f
    strIssueAssetBurnAddress := ascii "n1UNEMPTestIssueXXXXXXXXXXXXXXXXXX"
    strReissueAssetBurnAddress := ascii "n1UNEMPTestReissueXXXXXXXXXXXXXXX"
    strIssueSubAssetBurnAddress := ascii "n1UNEMPTestSubAssetXXXXXXXXXXXXXX"
    strIssueUniqueAssetBurnAddress := ascii "n1UNEMPTestUniqueAssetXXXXXXXXXXX"
    strIssueMsgChannelAssetBurnAddress := ascii "n1UNEMPTestMsgAssetXXXXXXXXXXXXXX"
    strIssueQualifierAssetBurnAddress := ascii "n1UNEMPTestQualifierXXXXXXXXXXXXXX"
    strIssueSubQualifierAssetBurnAddress := ascii "n1UNEMPTestSubQualifierXXXXXXXXXX"
    strIssueRestrictedAssetBurnAddress := ascii "n1UNEMPTestRestrictedXXXXXXXXXXXXX"
    strAddNullQualifierTagBurnAddress := ascii "n1UNEMPTestTagBurnXXXXXXXXXXXXXXXX"
    fTestNet := true }

def CRegTestParams : CChainParams :=
  { CTestNetParams with
    hashGenesisBlock := 0x42174d1fa97a8a02c2955b6a28742fa13c3e5f5887a3ef73b8f1c3fd162c7f2e
    nSubsidyHalvingInterval := 150
    strIssueAssetBurnAddress := ascii "n1UNEMPRegIssueXXXXXXXXXXXXXXXXXX"
    strReissueAssetBurnAddress := ascii "n1UNEMPRegReissueXXXXXXXXXXXXXXX"
    strIssueSubAssetBurnAddress := ascii "n1UNEMPRegSubAssetXXXXXXXXXXXXXX"
    strIssueUniqueAssetBurnAddress := ascii "n1UNEMPRegUniqueAssetXXXXXXXXXXX"
    strIssueMsgChannelAssetBurnAddress := ascii "n1UNEMPRegMsgAssetXXXXXXXXXXXXXX"
    strIssueQualifierAssetBurnAddress := ascii "n1UNEMPRegQualifierXXXXXXXXXXXXXX"
    strIssueSubQualifierAssetBurnAddress := ascii "n1UNEMPRegSubQualifierXXXXXXXXXX"
    strIssueRestrictedAssetBurnAddress := ascii "n1UNEMPRegRestrictedXXXXXXXXXXXXX"
    strAddNullQualifierTagBurnAddress := ascii "n1UNEMPRegTagBurnXXXXXXXXXXXXXXXX"
    fTestNet := false }

def HasBurn (type : AssetType) : Prop := type ∉ [.OWNER, .VOTE, .INVALID]

instance (type : AssetType) : Decidable (HasBurn type) := inferInstanceAs (Decidable (type ∉ _))

/-- Parameters like those of the networks: the fees of the source, and **an address of its own for
each operation**. -/
structure BurnParams (params : CChainParams) : Prop where
  amount : ∀ type, params.getBurnAmount type = CMainParams.getBurnAmount type
  address : ∀ type type', HasBurn type → HasBurn type' →
    params.getBurnAddress type = params.getBurnAddress type' → type = type'

theorem BurnParams.of_nodup {params : CChainParams}
    (hamount : ∀ type, params.getBurnAmount type = CMainParams.getBurnAmount type)
    (haddress : ([AssetType.ROOT, .SUB, .UNIQUE, .MSGCHANNEL, .QUALIFIER, .SUB_QUALIFIER,
      .RESTRICTED, .REISSUE, .NULL_ADD_QUALIFIER].map params.getBurnAddress).Nodup) :
    BurnParams params := by
  have hmem : ∀ type, HasBurn type → type ∈ [AssetType.ROOT, .SUB, .UNIQUE, .MSGCHANNEL,
      .QUALIFIER, .SUB_QUALIFIER, .RESTRICTED, .REISSUE, .NULL_ADD_QUALIFIER] := by
    intro type htype
    cases type <;> first | decide | exact absurd htype (by decide)
  exact ⟨hamount, fun type type' htype htype' =>
    List.inj_on_of_nodup_map haddress (hmem type htype) (hmem type' htype')⟩

theorem burnParams_main : BurnParams CMainParams :=
  .of_nodup (fun _ => rfl) (by decide +kernel)

theorem burnParams_test : BurnParams CTestNetParams :=
  .of_nodup (fun type => by cases type <;> rfl) (by decide +kernel)

theorem burnParams_regTest : BurnParams CRegTestParams :=
  .of_nodup (fun type => by cases type <;> rfl) (by decide +kernel)

def recordTypes (env : Env) (out : CTxOut) : List AssetType :=
  (if out.scriptPubKey.isScriptNewAsset.isSome then
    [match assetFromScript env out.scriptPubKey with
      | some (asset, _) => assetTypeOf asset.strName
      | none => AssetType.INVALID] else []) ++
  if out.scriptPubKey.isScriptReissueAsset.isSome then [AssetType.REISSUE] else []

/-- A tag that `AddCoins` adds for an output. -/
def tagTypes (env : Env) (out : CTxOut) : List AssetType :=
  match nullCommand env out with
  | some (.qualifier _ _ .ADD_QUALIFIER) => [.NULL_ADD_QUALIFIER]
  | _ => []

def burnTypes (env : Env) (tx : CTransaction) : List AssetType :=
  tx.vout.flatMap (recordTypes env) ++ tx.vout.flatMap (tagTypes env)

def paysTo (env : Env) (out : CTxOut) (address : Bytes) : Bool :=
  match extractDestination env out.scriptPubKey with
  | some destination =>
    isValidDestination destination && encodeDestination env destination == address
  | none => false

def burnDue (env : Env) (tx : CTransaction) (address : Bytes) : ℤ :=
  ((burnTypes env tx).map fun type =>
    if env.params.getBurnAddress type = address then (env.params.getBurnAmount type).toInt
    else 0).sum

def burnPaid (env : Env) (tx : CTransaction) (address : Bytes) : ℤ :=
  (tx.vout.map fun out => if paysTo env out address then out.nValue.toInt else 0).sum

theorem paysBurn_iff {out : CTxOut} {amount : CAmount} {address : Bytes} :
    paysBurn env out amount address = true ↔
      out.nValue = amount ∧ paysTo env out address = true := by
  have hparts := Bool.and_eq_true_iff (x := out.nValue == amount) (y := paysTo env out address)
  rw [beq_iff_eq] at hparts
  exact hparts

theorem le_burnPaid {out : CTxOut} {amount : CAmount} {address : Bytes}
    (hvalues : ∀ out ∈ tx.vout, 0 ≤ out.nValue.toInt) (hmem : out ∈ tx.vout)
    (h : paysBurn env out amount address = true) : amount.toInt ≤ burnPaid env tx address := by
  obtain ⟨rfl, hpays⟩ := paysBurn_iff.1 h
  have hnonneg : ∀ x ∈ tx.vout.map (fun out => if paysTo env out address then out.nValue.toInt
      else 0), 0 ≤ x := by
    intro x hx
    obtain ⟨out', hmem', rfl⟩ := List.mem_map.1 hx
    split
    · exact hvalues out' hmem'
    · exact le_refl 0
  refine List.single_le_sum hnonneg _ (List.mem_map.2 ⟨out, hmem, ?_⟩)
  rw [if_pos hpays]

theorem toInt_mul_ofNat (hparams : BurnParams env.params) (type : AssetType) {n : ℕ}
    (hn : n ≤ 2000000) :
    (env.params.getBurnAmount type * Int64.ofNat n).toInt =
      (env.params.getBurnAmount type).toInt * n := by
  have hamount : 0 ≤ (CMainParams.getBurnAmount type).toInt ∧
      (CMainParams.getBurnAmount type).toInt ≤ 150000000000 := by
    cases type <;> decide
  have hn' : (Int64.ofNat n).toInt = n := Int64.toInt_ofNat_of_lt (by omega)
  rw [hparams.amount, Int64.toInt_mul, hn']
  have hle : (CMainParams.getBurnAmount type).toInt * n ≤ 150000000000 * 2000000 :=
    mul_le_mul hamount.2 (by omega) (by omega) (by omega)
  have hnonneg : 0 ≤ (CMainParams.getBurnAmount type).toInt * n :=
    mul_nonneg hamount.1 (by omega)
  exact Int.bmod_eq_of_le (by omega) (by omega)

def recordsOf (env : Env) (tx : CTransaction) : List AssetType :=
  tx.vout.flatMap (recordTypes env)

theorem length_recordsOf : (recordsOf env tx).length =
    countOutputs tx.vout .TX_NEW_ASSET false + countOutputs tx.vout .TX_REISSUE_ASSET false := by
  unfold recordsOf
  rw [countOutputs_eq, countOutputs_eq]
  induction tx.vout with
  | nil => rfl
  | cons out vout ih =>
    rw [List.flatMap_cons, List.length_append, ih, List.countP_cons, List.countP_cons]
    have hout : (recordTypes env out).length =
        (if out.scriptPubKey.isScriptNewAsset.isSome then 1 else 0) +
          if out.scriptPubKey.isScriptReissueAsset.isSome then 1 else 0 := by
      unfold recordTypes
      rw [List.length_append]
      by_cases hnew : out.scriptPubKey.isScriptNewAsset.isSome = true <;>
        by_cases hre : out.scriptPubKey.isScriptReissueAsset.isSome = true <;>
        simp [hnew, hre]
    rw [hout]
    unfold CScript.isScriptNewAsset CScript.isScriptReissueAsset
    omega

/-- **Each record has a fee**, and one output pays the fee of all records of its kind. -/
def RecordsPaid (env : Env) (tx : CTransaction) : Prop :=
  ∀ type ∈ recordsOf env tx, HasBurn type ∧ type ≠ .NULL_ADD_QUALIFIER ∧
    ((recordsOf env tx).count type ≤ 1 ∨ type = .UNIQUE) ∧
    ∃ out ∈ tx.vout, paysBurn env out
      (env.params.getBurnAmount type * Int64.ofNat ((recordsOf env tx).count type))
      (env.params.getBurnAddress type) = true

theorem RecordsPaid.of_one {type : AssetType} (hone : recordsOf env tx = [type])
    (htype : HasBurn type) (hne : type ≠ .NULL_ADD_QUALIFIER)
    (hpays : ∃ out ∈ tx.vout, paysBurn env out (env.params.getBurnAmount type)
      (env.params.getBurnAddress type) = true) : RecordsPaid env tx := by
  intro type' hmem
  rw [hone] at hmem
  obtain rfl := List.mem_singleton.1 hmem
  have hcount : (recordsOf env tx).count type' = 1 := by
    rw [hone, List.count_singleton_self]
  rw [hcount]
  refine ⟨htype, hne, Or.inl (le_refl 1), ?_⟩
  obtain ⟨out, hout, hpay⟩ := hpays
  refine ⟨out, hout, ?_⟩
  have hmul : env.params.getBurnAmount type' * Int64.ofNat 1 = env.params.getBurnAmount type' :=
    Int64.mul_one _
  rw [hmul]
  exact hpay

theorem assetTypeOf_ne_addQualifier (name : Bytes) : assetTypeOf name ≠ .NULL_ADD_QUALIFIER := by
  intro h
  have hvalid := isAssetNameValid_of_assetTypeOf h (by decide)
  have hindicated := indicatedType_of_valid hvalid
  unfold indicatedType at hindicated
  simp only [ite_eq_iff, reduceCtorEq, and_false, or_false] at hindicated

theorem checkIssueBurnTx_iff {out : CTxOut} {type : AssetType} {n : ℕ} :
    checkIssueBurnTx env out type n = true ↔
      (HasBurn type ∧ type ≠ .REISSUE) ∧
        paysBurn env out (env.params.getBurnAmount type * Int64.ofNat n)
          (env.params.getBurnAddress type) = true := by
  unfold checkIssueBurnTx
  rw [Bool.and_eq_true]
  refine and_congr_left fun _ => ?_
  cases type <;> decide

theorem RecordsPaid.of_issue {asset : CNewAsset} {address : Bytes}
    (hrec : assetFromScript env tx.lastScript = some (asset, address))
    (hissues : countOutputs tx.vout .TX_NEW_ASSET false = 1)
    (hreissues : countOutputs tx.vout .TX_REISSUE_ASSET false = 0)
    (hburn : (tx.vout.any fun out =>
      checkIssueBurnTx env out (assetTypeOf asset.strName) 1) = true) : RecordsPaid env tx := by
  have hnew := isSome_of_assetFromScript hrec
  obtain ⟨last, hlast, hscript⟩ := @exists_last tx (by
    intro hnil
    rw [hnil] at hnew
    cases hnew)
  have hmem : assetTypeOf asset.strName ∈ recordsOf env tx := by
    refine List.mem_flatMap.2 ⟨last, hlast, ?_⟩
    unfold recordTypes
    rw [hscript, if_pos hnew, hrec]
    exact List.mem_append_left _ List.mem_cons_self
  have hlen : (recordsOf env tx).length = 1 := by rw [length_recordsOf, hissues, hreissues]
  obtain ⟨type, hone⟩ := List.length_eq_one_iff.1 hlen
  rw [hone, List.mem_singleton] at hmem
  subst hmem
  obtain ⟨out, hout, hcheck⟩ := List.any_eq_true.1 hburn
  obtain ⟨⟨htype, -⟩, hpay⟩ := checkIssueBurnTx_iff.1 hcheck
  refine RecordsPaid.of_one hone htype (assetTypeOf_ne_addQualifier _) ⟨out, hout, ?_⟩
  have hmul : env.params.getBurnAmount (assetTypeOf asset.strName) * Int64.ofNat 1 =
      env.params.getBurnAmount (assetTypeOf asset.strName) := Int64.mul_one _
  rwa [hmul] at hpay

theorem RecordsPaid.of_newAsset (h : tx.verifyNewAsset env = .ok ()) : RecordsPaid env tx := by
  simp only [CTransaction.verifyNewAsset, require_bind, demand_bind] at h
  obtain ⟨-, -, -, ⟨asset, address⟩, hrec, ⟨owner, ownerAddress⟩, -, -, hburn, -, hcounts⟩ := h
  obtain ⟨hissues, hreissues⟩ := counts_of_require hcounts
  exact .of_issue hrec hissues hreissues hburn

theorem RecordsPaid.of_newMsgChannel (h : tx.verifyNewMsgChannelAsset env = .ok ()) :
    RecordsPaid env tx := by
  simp only [CTransaction.verifyNewMsgChannelAsset, require_bind, demand_bind] at h
  obtain ⟨-, -, ⟨asset, address⟩, hrec, hburn, -, hcounts⟩ := h
  obtain ⟨hissues, hreissues⟩ := counts_of_require hcounts
  obtain ⟨hrec, type, htypes, htype⟩ := newAssetOfType_eq_some.1 hrec
  obtain rfl := List.mem_singleton.1 htypes
  refine .of_issue hrec hissues hreissues ?_
  rw [assetTypeOf_eq htype]
  exact hburn

theorem RecordsPaid.of_newQualifier (h : tx.verifyNewQualfierAsset env = .ok ()) :
    RecordsPaid env tx := by
  simp only [CTransaction.verifyNewQualfierAsset, require_bind, demand_bind] at h
  obtain ⟨-, -, ⟨asset, address⟩, hrec, hburn, -, hcounts⟩ := h
  obtain ⟨hissues, hreissues⟩ := counts_of_require hcounts
  exact .of_issue (newAssetOfType_eq_some.1 hrec).1 hissues hreissues hburn

theorem RecordsPaid.of_newRestricted (h : tx.verifyNewRestrictedAsset env = .ok ()) :
    RecordsPaid env tx := by
  simp only [CTransaction.verifyNewRestrictedAsset, require_bind, demand_bind] at h
  obtain ⟨-, -, ⟨asset, address⟩, hrec, hburn, -, h⟩ := h
  obtain ⟨verifier, -, hcounts⟩ := bind_ok.1 h
  obtain ⟨hissues, hreissues⟩ := counts_of_require hcounts
  exact .of_issue (newAssetOfType_eq_some.1 hrec).1 hissues hreissues hburn

theorem RecordsPaid.of_reissue (h : tx.verifyReissueAsset env = .ok ()) : RecordsPaid env tx := by
  simp only [CTransaction.verifyReissueAsset, require_bind, demand_bind] at h
  obtain ⟨-, hlast, ⟨reissue, address⟩, hrec, -, hburn, hcounts⟩ := h
  simp only [require_ok, Bool.and_eq_true, beq_iff_eq] at hcounts
  obtain ⟨⟨-, hreissues⟩, hissues⟩ := hcounts
  obtain ⟨last, hmem, hscript⟩ := @exists_last tx (by
    intro hnil
    rw [hnil] at hlast
    cases hlast)
  have hreissue : AssetType.REISSUE ∈ recordsOf env tx := by
    refine List.mem_flatMap.2 ⟨last, hmem, List.mem_append_right _ ?_⟩
    rw [hscript, if_pos hlast]
    exact List.mem_cons_self
  have hlen : (recordsOf env tx).length = 1 := by
    rw [length_recordsOf]
    have hnone : countOutputs tx.vout .TX_NEW_ASSET false = 0 := hissues
    have hone : countOutputs tx.vout .TX_REISSUE_ASSET false = 1 := hreissues
    rw [hnone, hone]
  obtain ⟨type, hone⟩ := List.length_eq_one_iff.1 hlen
  rw [hone, List.mem_singleton] at hreissue
  subst hreissue
  obtain ⟨out, hout, hpay⟩ := List.any_eq_true.1 hburn
  exact .of_one hone (by decide) (by decide) ⟨out, hout, hpay⟩

theorem RecordsPaid.of_other (h : checkOtherTx tx = .ok ()) : RecordsPaid env tx := by
  intro type hmem
  obtain ⟨out, hout, htype⟩ := List.mem_flatMap.1 hmem
  unfold recordTypes CScript.isScriptNewAsset CScript.isScriptReissueAsset at htype
  rw [assetDataIndex_of_other h hout (by decide),
    assetDataIndex_of_other h hout (by decide)] at htype
  simp at htype

theorem RecordsPaid.of_newUnique (h : tx.verifyNewUniqueAsset env = .ok ()) :
    RecordsPaid env tx := by
  have hunique := uniqueAssetFromScript_of_verify h
  simp only [CTransaction.verifyNewUniqueAsset, require_bind] at h
  obtain ⟨-, h⟩ := h
  obtain ⟨⟨root, names⟩, hcollect, h⟩ := bind_ok.1 h
  simp only [require_bind, require_ok, Bool.and_eq_true, beq_iff_eq] at h
  obtain ⟨-, hburn, -, ⟨-, hreissues⟩, hissues⟩ := h
  obtain ⟨-, hlength, -⟩ := collectUniqueAssets_ok hcollect
  have hcount : tx.vout.countP (issuesUnique env) =
      tx.vout.countP fun out => out.scriptPubKey.isScriptNewAsset.isSome := by
    rw [List.length_nil, Nat.zero_add] at hlength
    rw [← hlength, ← hissues]
    exact countOutputs_eq tx.vout .TX_NEW_ASSET false
  have hsome : ∀ out, issuesUnique env out = true →
      out.scriptPubKey.isScriptNewAsset.isSome := by
    intro out hout
    obtain ⟨⟨asset, address⟩, hrec⟩ := Option.isSome_iff_exists.1 hout
    exact isSome_of_assetFromScript (newAssetOfType_eq_some.1 hrec).1
  have hnone : countOutputs tx.vout .TX_REISSUE_ASSET false = 0 := hreissues
  have hall : ∀ type ∈ recordsOf env tx, type = .UNIQUE := by
    intro type hmem
    obtain ⟨out, hout, htype⟩ := List.mem_flatMap.1 hmem
    have hreissue : out.scriptPubKey.isScriptReissueAsset.isSome = false := by
      rw [countOutputs_eq, List.countP_eq_zero] at hnone
      exact Bool.eq_false_iff.2 (hnone out hout)
    unfold recordTypes at htype
    rw [hreissue, if_neg Bool.false_ne_true, List.append_nil] at htype
    split at htype
    · rename_i hnew
      obtain ⟨⟨asset, address⟩, hrec⟩ :=
        Option.isSome_iff_exists.1 (of_countP_eq hsome hcount hout hnew)
      obtain ⟨hasset, type', htypes, hvalid⟩ := newAssetOfType_eq_some.1 hrec
      rw [List.mem_singleton.1 htypes] at hvalid
      rw [hasset, List.mem_singleton] at htype
      rw [htype]
      exact assetTypeOf_eq hvalid
    · cases htype
  have hlen : (recordsOf env tx).count .UNIQUE = names.length := by
    rw [List.count_eq_length.2 fun type hmem => (hall type hmem).symm, length_recordsOf, hnone,
      Nat.add_zero]
    exact hissues
  intro type hmem
  obtain rfl := hall type hmem
  refine ⟨by decide, by decide, Or.inr rfl, ?_⟩
  obtain ⟨out, hout, hcheck⟩ := List.any_eq_true.1 hburn
  rw [hlen]
  exact ⟨out, hout, (checkIssueBurnTx_iff.1 hcheck).2⟩

theorem recordsPaid_of_checkAssetTx {record : RestrictedRecord}
    (h : checkAssetTx env tx = .ok record) : RecordsPaid env tx := by
  unfold checkAssetTx at h
  cases hkind : tx.assetTxKind env with
  | newAsset =>
    rw [hkind] at h
    simp only [checkNewAssetTx, unit_map_ok, unit_bind] at h
    exact .of_newAsset h.1.1
  | reissue =>
    rw [hkind] at h
    simp only [checkReissueTx, unit_bind] at h
    exact .of_reissue h.1
  | newUnique =>
    rw [hkind] at h
    simp only [checkNewUniqueTx, unit_map_ok, unit_bind] at h
    exact .of_newUnique h.1.1
  | newMsgChannel =>
    rw [hkind] at h
    simp only [checkNewMsgChannelTx, unit_map_ok, unit_bind] at h
    exact .of_newMsgChannel h.1.1
  | newQualifier =>
    rw [hkind] at h
    simp only [checkNewQualifierTx, unit_map_ok, unit_bind] at h
    exact .of_newQualifier h.1.1
  | newRestricted =>
    rw [hkind] at h
    simp only [checkNewRestrictedTx, unit_map_ok, unit_bind] at h
    exact .of_newRestricted h.1.1
  | other =>
    rw [hkind] at h
    simp only [unit_map_ok] at h
    exact .of_other h.1

section Tags

variable {fCheckDuplicateInputs fMempoolCheck fBlockCheck : Bool} {s s' : OutputScan}
  {txout : CTxOut}

theorem isAssetNameAQualifier_of_type {name : Bytes}
    (h : assetTypeOf name = .QUALIFIER ∨ assetTypeOf name = .SUB_QUALIFIER) :
    isAssetNameAQualifier name false = true := by
  have hvalid : isAssetNameValid name = some .QUALIFIER ∨
      isAssetNameValid name = some .SUB_QUALIFIER :=
    h.imp (fun htype => isAssetNameValid_of_assetTypeOf htype (by decide))
      fun htype => isAssetNameValid_of_assetTypeOf htype (by decide)
  have hsome : (isAssetNameValid name).isSome = true := by
    rcases hvalid with hvalid | hvalid <;> rw [hvalid] <;> rfl
  have hmatch := indicators_of_qualifier
    (hvalid.imp indicatedType_of_valid indicatedType_of_valid)
  unfold isAssetNameAQualifier isAssetNameAn
  rw [if_neg Bool.false_ne_true, Regex.regexMatch_alt, hsome]
  simpa using hmatch

theorem tagTypes_eq_nil {data : CNullAssetTxData} {address : Bytes}
    (hdata : assetNullDataFromScript env txout.scriptPubKey = some (data, address))
    (h : (isAssetNameAQualifier data.asset_name false && data.flag == 1) = false)
    (hflag : data.flag = 0 ∨ data.flag = 1) : tagTypes env txout = [] := by
  have hcommand : ∀ name address', nullCommand env txout ≠
      some (.qualifier name address' .ADD_QUALIFIER) := by
    intro name address' hcommand
    unfold nullCommand at hcommand
    split at hcommand
    · rw [hdata, Option.getD_some] at hcommand
      dsimp only at hcommand
      have hname : isAssetNameAQualifier data.asset_name false = true := by
        cases htype : assetTypeOf data.asset_name <;> simp only [htype] at hcommand
        case QUALIFIER => exact isAssetNameAQualifier_of_type (Or.inl htype)
        case SUB_QUALIFIER => exact isAssetNameAQualifier_of_type (Or.inr htype)
        all_goals cases hcommand
      rcases hflag with hzero | hone
      · rw [hzero] at hcommand
        cases htype : assetTypeOf data.asset_name <;> simp only [htype] at hcommand <;>
          cases hcommand
      · rw [hname, hone] at h
        cases h
    · split at hcommand <;> cases hcommand
  unfold tagTypes
  split
  · rename_i name address' hadd
    exact absurd hadd (hcommand name address')
  · rfl

theorem tagTypes_of_not (h : txout.scriptPubKey.isNullAssetTxDataScript = false) :
    tagTypes env txout = [] := by
  unfold tagTypes nullCommand
  rw [h, if_neg Bool.false_ne_true]
  split
  · rename_i hadd
    split at hadd <;> cases hadd
  · rfl

theorem length_tagTypes_le : (tagTypes env txout).length ≤ 1 := by
  unfold tagTypes
  split <;> decide

theorem scanOutput_count (h : scanOutput env fMempoolCheck fBlockCheck s txout = .ok s') :
    s.nCountAddTagOuts + (tagTypes env txout).length ≤ s'.nCountAddTagOuts ∧
      s'.nCountAddTagOuts ≤ s.nCountAddTagOuts + 1 := by
  rw [scanOutput, bind_ok] at h
  obtain ⟨s₁, hvalue, h⟩ := h
  obtain ⟨s₂, hnull, hasset⟩ := bind_ok.1 h
  have hfirst : s₁.nCountAddTagOuts = s.nCountAddTagOuts := by
    simp only [scanValue, require_bind, pure_ok] at hvalue
    obtain ⟨-, -, -, rfl⟩ := hvalue
    rfl
  have hlast : s'.nCountAddTagOuts = s₂.nCountAddTagOuts := by
    unfold scanAsset at hasset
    split at hasset
    · cases hasset
      rfl
    · simp only [scanTransfer, demand_bind, require_bind, pure_ok] at hasset
      obtain ⟨-, -, -, -, -, -, -, -, rfl⟩ := hasset
      rfl
    · simp only [require_bind, pure_ok] at hasset
      rw [hasset.2]
    · simp only [require_bind, pure_ok] at hasset
      rw [hasset.2.2]
    · cases hasset
  rw [hlast, ← hfirst]
  unfold scanNullAsset at hnull
  split at hnull
  · rw [scanNullAssetTxData, demand_bind] at hnull
    obtain ⟨⟨data, address⟩, hdata, hnull⟩ := hnull
    simp only [verifyNullAssetDataFlag, require_bind, pure_ok, Bool.or_eq_true, beq_iff_eq]
      at hnull
    obtain ⟨hflag, -, rfl⟩ := hnull
    have hle := @length_tagTypes_le env txout
    show s₁.nCountAddTagOuts + (tagTypes env txout).length ≤ s₁.nCountAddTagOuts + ite _ 1 0 ∧
      s₁.nCountAddTagOuts + ite _ 1 0 ≤ s₁.nCountAddTagOuts + 1
    split
    · omega
    · rename_i hnot
      rw [tagTypes_eq_nil hdata (Bool.eq_false_iff.2 hnot) hflag]
      simp
  · rename_i hnot
    rw [tagTypes_of_not (Bool.eq_false_iff.2 hnot)]
    have hsame : s₂.nCountAddTagOuts = s₁.nCountAddTagOuts := by
      split at hnull
      · simp only [scanNullGlobal, demand_bind, unit_bind, pure_ok] at hnull
        obtain ⟨-, -, -, -, rfl⟩ := hnull
        rfl
      · split at hnull
        · rw [scanNullVerifier, unit_bind, require_bind, pure_ok] at hnull
          obtain ⟨-, -, rfl⟩ := hnull
          rfl
        · cases hnull
          rfl
    rw [hsame]
    simp

/-- The loop over the outputs counts **every tag** that `AddCoins` adds. -/
theorem length_flatMap_tagTypes_le {vout : List CTxOut}
    (h : vout.foldlM (scanOutput env fMempoolCheck fBlockCheck) .start = .ok s) :
    (vout.flatMap (tagTypes env)).length ≤ s.nCountAddTagOuts ∧
      s.nCountAddTagOuts ≤ vout.length := by
  refine foldlM_prefix_invariant
    (I := fun pre s => (pre.flatMap (tagTypes env)).length ≤ s.nCountAddTagOuts ∧
      s.nCountAddTagOuts ≤ pre.length) ?_ ⟨le_refl 0, le_refl 0⟩ h
  intro pre out post s s' _ hpre hscan
  obtain ⟨hlow, hhigh⟩ := scanOutput_count hscan
  simp only [List.flatMap_append, List.flatMap_singleton, List.length_append,
    List.length_singleton]
  omega

theorem mem_flatMap_tagTypes {vout : List CTxOut} :
    ∀ type ∈ vout.flatMap (tagTypes env), type = .NULL_ADD_QUALIFIER := by
  intro type hmem
  obtain ⟨out, -, htype⟩ := List.mem_flatMap.1 hmem
  unfold tagTypes at htype
  split at htype
  · exact List.mem_singleton.1 htype
  · cases htype

theorem length_vout_le (h : tx.serializeSize * WITNESS_SCALE_FACTOR ≤ getMaxBlockWeight) :
    tx.vout.length ≤ 1000000 := by
  have hsum : tx.vout.length * 8 ≤
      (tx.vout.map fun txout => 8 + CTransaction.scriptSize txout.scriptPubKey).sum := by
    induction tx.vout with
    | nil => simp
    | cons out vout ih =>
      rw [List.length_cons, List.map_cons, List.sum_cons]
      omega
  have hsize : (tx.vout.map fun txout => 8 + CTransaction.scriptSize txout.scriptPubKey).sum ≤
      tx.serializeSize := by
    unfold CTransaction.serializeSize
    omega
  have hscale : tx.serializeSize * 4 ≤ 8000000 := h
  omega

end Tags

/-- **Each kind of operation has a fee**, which one output pays for all operations of the kind. -/
theorem fees_of_checkTransaction {fCheckDuplicateInputs fMempoolCheck fBlockCheck : Bool}
    (h : checkTransaction env tx fCheckDuplicateInputs fMempoolCheck fBlockCheck = .ok ()) :
    tx.vout.length ≤ 1000000 ∧ (∀ out ∈ tx.vout, 0 ≤ out.nValue.toInt) ∧ RecordsPaid env tx ∧
      ∃ n, (tx.vout.flatMap (tagTypes env)).length ≤ n ∧ n ≤ tx.vout.length ∧
        (n ≠ 0 → ∃ out ∈ tx.vout, paysBurn env out
          (env.params.getBurnAmount .NULL_ADD_QUALIFIER * Int64.ofNat n)
          (env.params.getBurnAddress .NULL_ADD_QUALIFIER) = true) := by
  obtain ⟨record, hrecord⟩ := checkAssetTx_of_checkTransaction h
  have hscans := scanOutput_of_checkTransaction h
  simp only [checkTransaction, require_bind, decide_eq_true_eq] at h
  obtain ⟨-, -, hsize, h⟩ := h
  obtain ⟨s, hloop, h⟩ := bind_ok.1 h
  simp only [require_bind, Bool.or_eq_true, beq_iff_eq] at h
  obtain ⟨htags, -⟩ := h
  obtain ⟨hlow, hhigh⟩ := length_flatMap_tagTypes_le hloop
  refine ⟨length_vout_le hsize, ?_, recordsPaid_of_checkAssetTx hrecord, s.nCountAddTagOuts,
    hlow, hhigh, ?_⟩
  · intro out hout
    obtain ⟨s₁, s₂, hscan⟩ := hscans out hout
    exact nValue_nonneg hscan
  · intro hne
    obtain ⟨out, hout, hcheck⟩ := List.any_eq_true.1 (htags.resolve_left hne)
    exact ⟨out, hout, (checkIssueBurnTx_iff.1 hcheck).2⟩

theorem burnDue_eq (hparams : BurnParams env.params)
    (hburns : ∀ type ∈ burnTypes env tx, HasBurn type) {type : AssetType} (htype : HasBurn type) :
    burnDue env tx (env.params.getBurnAddress type) =
      (env.params.getBurnAmount type).toInt * (burnTypes env tx).count type := by
  unfold burnDue
  generalize burnTypes env tx = types at hburns
  induction types with
  | nil => simp
  | cons type' types ih =>
    rw [List.forall_mem_cons] at hburns
    rw [List.map_cons, List.sum_cons, ih hburns.2, List.count_cons]
    by_cases heq : type' = type
    · rw [heq, if_pos rfl, beq_self_eq_true, if_pos rfl]
      rw [Nat.cast_add, Nat.cast_one, mul_add, mul_one, add_comm]
    · rw [if_neg fun haddress => heq (hparams.address type' type hburns.1 htype haddress),
        beq_false_of_ne heq, if_neg Bool.false_ne_true, Nat.add_zero, zero_add]

theorem burnDue_eq_zero {address : Bytes}
    (h : ∀ type ∈ burnTypes env tx, env.params.getBurnAddress type ≠ address) :
    burnDue env tx address = 0 := by
  unfold burnDue
  refine List.sum_eq_zero fun fee hfee => ?_
  obtain ⟨type, hmem, rfl⟩ := List.mem_map.1 hfee
  rw [if_neg (h type hmem)]

theorem count_burnTypes_record {type : AssetType}
    (htype : type ≠ .NULL_ADD_QUALIFIER) :
    (burnTypes env tx).count type = (recordsOf env tx).count type := by
  have htags : (tx.vout.flatMap (tagTypes env)).count type = 0 :=
    List.count_eq_zero.2 fun hmem => htype (mem_flatMap_tagTypes type hmem)
  unfold burnTypes
  rw [List.count_append, htags, Nat.add_zero]
  rfl

theorem count_burnTypes_tag (h : RecordsPaid env tx) :
    (burnTypes env tx).count .NULL_ADD_QUALIFIER = (tx.vout.flatMap (tagTypes env)).length := by
  have hrecords : (recordsOf env tx).count .NULL_ADD_QUALIFIER = 0 :=
    List.count_eq_zero.2 fun hmem => (h _ hmem).2.1 rfl
  have htags : (tx.vout.flatMap (tagTypes env)).count .NULL_ADD_QUALIFIER =
      (tx.vout.flatMap (tagTypes env)).length :=
    List.count_eq_length.2 fun type hmem => (mem_flatMap_tagTypes type hmem).symm
  unfold burnTypes
  rw [List.count_append, htags]
  unfold recordsOf at hrecords
  rw [hrecords, Nat.zero_add]

theorem count_recordsOf_le (type : AssetType) :
    (recordsOf env tx).count type ≤ 2 * tx.vout.length := by
  refine le_trans List.count_le_length ?_
  rw [length_recordsOf, countOutputs_eq, countOutputs_eq, two_mul]
  exact Nat.add_le_add List.countP_le_length List.countP_le_length

/-- **Burn fees are paid in full.**  The outputs of an accepted transaction pay to each address at
least what all its issues, reissues and added tags cost there, where each of them has a fee of its
own; and only unique assets and tags come in numbers. -/
theorem burnFees_paid {fCheckDuplicateInputs fMempoolCheck fBlockCheck : Bool}
    (hparams : BurnParams env.params)
    (h : checkTransaction env tx fCheckDuplicateInputs fMempoolCheck fBlockCheck = .ok ()) :
    (∀ type ∈ burnTypes env tx, HasBurn type) ∧
      (∀ address, burnDue env tx address ≤ burnPaid env tx address) ∧
      ∀ type, 1 < (burnTypes env tx).count type →
        type = .UNIQUE ∨ type = .NULL_ADD_QUALIFIER := by
  obtain ⟨hsize, hvalues, hrecords, n, hlow, hhigh, htags⟩ := fees_of_checkTransaction h
  have hburns : ∀ type ∈ burnTypes env tx, HasBurn type := by
    intro type hmem
    rcases List.mem_append.1 hmem with hrecord | htag
    · exact (hrecords type hrecord).1
    · rw [mem_flatMap_tagTypes type htag]
      decide
  refine ⟨hburns, ?_, ?_⟩
  · intro address
    by_cases hdue : ∃ type ∈ burnTypes env tx, env.params.getBurnAddress type = address
    · obtain ⟨type, hmem, rfl⟩ := hdue
      rw [burnDue_eq hparams hburns (hburns type hmem)]
      by_cases htag : type = .NULL_ADD_QUALIFIER
      · -- the loop may count more tags than `AddCoins` adds
        subst htag
        have hcount := count_burnTypes_tag hrecords
        have hpos := List.count_pos_iff.2 hmem
        obtain ⟨out, hout, hpay⟩ := htags (by omega)
        have hpaid := le_burnPaid hvalues hout hpay
        rw [toInt_mul_ofNat hparams _ (by omega)] at hpaid
        refine le_trans (mul_le_mul_of_nonneg_left (by omega) ?_) hpaid
        rw [hparams.amount]
        decide
      · have hcount := @count_burnTypes_record env tx type htag
        have hrecord : type ∈ recordsOf env tx := by
          rw [← List.count_pos_iff, ← hcount]
          exact List.count_pos_iff.2 hmem
        obtain ⟨-, -, -, out, hout, hpay⟩ := hrecords type hrecord
        have hpaid := le_burnPaid hvalues hout hpay
        have hle := @count_recordsOf_le env tx type
        rw [toInt_mul_ofNat hparams _ (by omega)] at hpaid
        rw [hcount]
        exact hpaid
    · rw [burnDue_eq_zero fun type hmem haddress => hdue ⟨type, hmem, haddress⟩]
      refine List.sum_nonneg fun value hvalue => ?_
      obtain ⟨out, hout, rfl⟩ := List.mem_map.1 hvalue
      split
      · exact hvalues out hout
      · exact le_refl 0
  · intro type hmany
    by_contra hnot
    rw [not_or] at hnot
    rw [count_burnTypes_record hnot.2] at hmany
    have hmem := List.count_pos_iff.1 (lt_trans Nat.zero_lt_one hmany)
    obtain ⟨-, -, hone, -⟩ := hrecords type hmem
    rcases hone with hone | hunique
    · omega
    · exact hnot.1 hunique

def subBurnAddress : Bytes := ascii "UNAdiGx5PWEsPRiq4jtvgEWPngMi7rkdiG"

/-- The main network with an address for sub-assets that can be paid. -/
def subBurnEnv : Env :=
  { sampleEnv with
    params := { CMainParams with strIssueSubAssetBurnAddress := subBurnAddress } }

theorem subAssetTx_paid :
    burnTypes subBurnEnv subAssetTx = [.SUB] ∧
      burnDue subBurnEnv subAssetTx subBurnAddress = 10000000000 ∧
      10000000000 ≤ burnPaid subBurnEnv subAssetTx subBurnAddress := by
  have htx : checkTransaction subBurnEnv subAssetTx true false true = .ok () := by decide +kernel
  have hparams : BurnParams subBurnEnv.params :=
    .of_nodup (fun type => by cases type <;> decide +kernel) (by decide +kernel)
  have htypes : burnTypes subBurnEnv subAssetTx = [.SUB] := by decide +kernel
  have hdue : burnDue subBurnEnv subAssetTx subBurnAddress = 10000000000 := by decide +kernel
  have hpaid := (burnFees_paid hparams htx).2.1 subBurnAddress
  rw [hdue] at hpaid
  exact ⟨htypes, hdue, hpaid⟩

end UnemployCoin
