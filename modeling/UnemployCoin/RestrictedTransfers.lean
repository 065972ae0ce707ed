import UnemployCoin.Base58
import UnemployCoin.CommandAuthorization
/-!
# Who may move a restricted asset

`CheckTxAssets` refuses a transfer of a restricted asset that is frozen, that comes from a frozen
address, or that goes to an address without the tags its verifier string asks for.  The three
answers are read past the local cache, at the tip.
-/

namespace UnemployCoin

open Check CAssetsCache

variable {env : Env} {st : AssetState} {cache : CAssetsCache} {view : CCoinsView}
  {tx : CTransaction} {mempoolNames : Option (StdMap Bytes uint256)}
  {mapReissuedAssets : StdMap Bytes uint256} {vPair : List (Bytes × uint256)}

/-! ## Verifiers -/

/-- The address carries the tag at the tip.  A verifier names a qualifier without its `#`. -/
def carriesTag (env : Env) (st : AssetState) (address qualifier : Bytes) : Bool :=
  CAssetsCache.empty.checkForAddressQualifier env st (QUALIFIER_CHAR :: qualifier) address true

/-- The formula of a verifier is true of the tags of an address. -/
def verifierHolds (env : Env) (st : AssetState) (verifier address : Bytes) : Bool :=
  verifier == ascii "true" ||
    LibBoolEE.resolve verifier
      (valuationOf (extractVerifierStringQualifiers (getStrippedVerifierString verifier))
        (carriesTag env st address)) == some true

/-- The asset has a verifier at the tip, and it is true of the address. -/
def SatisfiesVerifier (env : Env) (st : AssetState) (name address : Bytes) : Prop :=
  ∃ verifier, CAssetsCache.empty.getAssetVerifierStringIfExists st name true = some verifier ∧
    verifierHolds env st verifier address = true

theorem checkVerifierString_ok {verifier : Bytes} {qualifiers : List Bytes}
    (hverifier : verifier ≠ ascii "true") (h : checkVerifierString verifier = .ok qualifiers) :
    qualifiers = extractVerifierStringQualifiers (getStrippedVerifierString verifier) := by
  rw [checkVerifierString, if_neg hverifier] at h
  simp only [unit_bind, demand_bind, pure_ok] at h
  obtain ⟨-, -, -, -, -, h⟩ := h
  exact h.symm

theorem verifierHolds_of_check {verifier address : Bytes} (haddress : address ≠ [])
    (h : contextualCheckVerifierString env st cache verifier address = .ok ()) :
    verifierHolds env st verifier address = true := by
  by_cases hverifier : verifier = ascii "true"
  · rw [verifierHolds, hverifier, beq_self_eq_true, Bool.true_or]
  · rw [contextualCheckVerifierString, if_neg hverifier, bind_ok] at h
    obtain ⟨qualifiers, hqualifiers, h⟩ := h
    rw [require_bind] at h
    obtain ⟨-, h⟩ := h
    have hsome : (!address.isEmpty) = true := by
      rw [Bool.not_eq_true', List.isEmpty_eq_false_iff]
      exact haddress
    rw [onlyIf_ok] at h
    have hcheck := h hsome
    rw [demand_bind] at hcheck
    obtain ⟨ret, hresolve, hret⟩ := hcheck
    rw [require_ok] at hret
    rw [checkVerifierString_ok hverifier hqualifiers, hret] at hresolve
    have hholds : LibBoolEE.resolve verifier
        (valuationOf (extractVerifierStringQualifiers (getStrippedVerifierString verifier))
          (carriesTag env st address)) = some true := hresolve
    rw [verifierHolds, hholds, beq_self_eq_true, Bool.or_true]

/-! ## Inputs -/

theorem destination_of_getAssetData {s : CScript} {data : CAssetOutputEntry}
    (h : getAssetData env s = some data) :
    s.isAssetScript.isSome = true ∧
      data.destination = decodeDestination env (addressOf env s) := by
  unfold getAssetData at h
  split at h
  case h_1 | h_6 => exact absurd h (by simp)
  all_goals
    rename_i hs
    obtain ⟨⟨asset, address⟩, hrec, rfl⟩ := Option.map_eq_some_iff.1 h
    obtain ⟨-, -, -, haddress⟩ := recordFromScript_eq_some hrec
    exact ⟨by rw [hs]; rfl, congrArg (decodeDestination env) haddress⟩

section Addresses

variable (hash : ∀ data, 4 ≤ (env.Hash data).length)
  (hversion : env.params.pubkeyAddressPrefix.length = 1)

include hash hversion

theorem encode_decode_addressOf {s : CScript} (h : s.isAssetScript.isSome = true) :
    encodeDestination env (decodeDestination env (addressOf env s)) = addressOf env s := by
  have hasset : addressOf env s = encodeDestination env (.CKeyID (s.substr 3 20)) ∧
      (s.substr 3 20).length = 20 := addressOf_asset h
  obtain ⟨haddress, hlength⟩ := hasset
  rw [haddress, decodeDestination_encode (hash _) hversion hlength]

theorem addressOf_ne_nil {s : CScript} (h : s.isAssetScript.isSome = true) :
    addressOf env s ≠ [] := by
  have hasset : addressOf env s = encodeDestination env (.CKeyID (s.substr 3 20)) ∧
      (s.substr 3 20).length = 20 := addressOf_asset h
  obtain ⟨haddress, hlength⟩ := hasset
  rw [haddress]
  exact encodeDestination_ne_nil (hash _) hversion hlength

/-- One round of the loop over the inputs: the address of a restricted coin is **not** frozen. -/
theorem spentAsset_notFrozen {m m' : StdMap Bytes CAmount} {txin : CTxIn} {coin : Coin}
    {data : CAssetOutputEntry} (h : scanAssetInput env st cache view m txin = .ok m')
    (hcoin : view.find? txin.prevout = some coin)
    (hdata : getAssetData env coin.out.scriptPubKey = some data)
    (htype : assetTypeOf data.assetName = .RESTRICTED) :
    CAssetsCache.empty.checkForAddressRestriction env st data.assetName
      (addressOf env coin.out.scriptPubKey) true = false := by
  obtain ⟨hasset, hdestination⟩ := destination_of_getAssetData hdata
  have hisAsset : coin.isAsset = true := hasset
  rw [scanAssetInput, demand_bind] at h
  obtain ⟨coin', hcoin', h⟩ := h
  rw [hcoin] at hcoin'
  cases hcoin'
  rw [if_pos hisAsset, demand_bind] at h
  obtain ⟨data', hdata', h⟩ := h
  rw [hdata] at hdata'
  cases hdata'
  rw [require_bind, (isAssetNameAnRestricted_of_type htype).2, Bool.true_and,
    Bool.not_eq_true'] at h
  have hfrozen := h.1
  rw [hdestination, encode_decode_addressOf hash hversion hasset] at hfrozen
  exact hfrozen

/-- One round of the loop over the outputs: a restricted asset is **not** frozen at all, and the
address it goes to satisfies its verifier. -/
theorem transferOutput_allowed {s s' : AssetScan} {txout : CTxOut} {name : Bytes}
    {nAmount : CAmount} (h : scanAssetOutput env st cache mapReissuedAssets tx s txout = .ok s')
    (hmove : transferOutput env txout = some (name, nAmount))
    (htype : assetTypeOf name = .RESTRICTED) :
    CAssetsCache.empty.checkForGlobalRestriction st name true = false ∧
      SatisfiesVerifier env st name (addressOf env txout.scriptPubKey) := by
  obtain ⟨⟨transfer, address⟩, hrec, hpair⟩ := Option.bind_eq_some_iff.1 hmove
  have hname : transfer.strName = name := congrArg Prod.fst (Option.some.inj hpair)
  obtain ⟨-, -, -, haddress⟩ := recordFromScript_eq_some hrec
  have haddress : address = addressOf env txout.scriptPubKey := haddress
  obtain ⟨i, hasset⟩ := isAssetScript_of_transfer hrec
  have hsome : txout.scriptPubKey.isAssetScript.isSome = true := by
    rw [hasset]
    rfl
  rw [scanAssetOutput, require_bind, onlyIf_bind, hasset] at h
  have hscan : scanTransferOutput env st cache s txout = .ok s' := h.2.2
  rw [scanTransferOutput, hrec, demand_bind] at hscan
  obtain ⟨record, hrecord, hscan⟩ := hscan
  cases hrecord
  rw [unit_bind] at hscan
  obtain ⟨hcheck, -⟩ := hscan
  have hvalid : isAssetNameValid transfer.strName = some .RESTRICTED := by
    rw [hname]
    exact isAssetNameValid_of_assetTypeOf htype (by decide)
  rw [contextualCheckTransferAsset, hvalid, demand_bind] at hcheck
  obtain ⟨assetType, hassetType, hcheck⟩ := hcheck
  cases hassetType
  simp only [require_bind, onlyIf_bind] at hcheck
  obtain ⟨-, -, -, hrestricted, -⟩ := hcheck
  have hrestricted := hrestricted (by decide)
  rw [checkRestrictedTransfer, require_bind, require_bind, withoutReason, mapError_ok,
    contextualCheckAgainstVerifyString, demand_bind, Bool.not_eq_true', hname] at hrestricted
  obtain ⟨-, hglobal, verifier, hverifier, hholds⟩ := hrestricted
  refine ⟨hglobal, verifier, hverifier, ?_⟩
  rw [← haddress]
  refine verifierHolds_of_check ?_ hholds
  rw [haddress]
  exact addressOf_ne_nil hash hversion hsome

end Addresses

/-- A transaction may move a restricted asset: the asset is not frozen, no coin of it is at a
frozen address, and every address it goes to satisfies its verifier, all at the tip. -/
structure MayTransfer (env : Env) (st : AssetState) (view : CCoinsView) (tx : CTransaction)
    (name : Bytes) : Prop where
  asset : CAssetsCache.empty.checkForGlobalRestriction st name true = false
  inputs : ∀ txin ∈ tx.vin, ∀ coin data, view.find? txin.prevout = some coin →
    getAssetData env coin.out.scriptPubKey = some data → data.assetName = name →
      CAssetsCache.empty.checkForAddressRestriction env st name
        (addressOf env coin.out.scriptPubKey) true = false
  outputs : ∀ txout ∈ tx.vout, ∀ nAmount, transferOutput env txout = some (name, nAmount) →
    SatisfiesVerifier env st name (addressOf env txout.scriptPubKey)

/-- An accepted transaction that transfers a restricted asset **may** transfer it. -/
theorem restrictedTransfer_safe {txout : CTxOut} {name : Bytes} {nAmount : CAmount}
    (hash : ∀ data, 4 ≤ (env.Hash data).length)
    (hversion : env.params.pubkeyAddressPrefix.length = 1)
    (h : checkTxAssets env st cache tx view mempoolNames mapReissuedAssets = .ok vPair)
    (hout : txout ∈ tx.vout) (hmove : transferOutput env txout = some (name, nAmount))
    (htype : assetTypeOf name = .RESTRICTED) : MayTransfer env st view tx name := by
  obtain ⟨-, totalInputs, hinputs, s, houtputs, -⟩ := checkTxAssets_ok.1 h
  have hallowed : ∀ out ∈ tx.vout, ∀ amount, transferOutput env out = some (name, amount) →
      CAssetsCache.empty.checkForGlobalRestriction st name true = false ∧
        SatisfiesVerifier env st name (addressOf env out.scriptPubKey) := by
    intro out hmem amount hout
    obtain ⟨t, t', hround⟩ := foldlM_forall_mem houtputs out hmem
    exact transferOutput_allowed hash hversion hround hout htype
  refine ⟨(hallowed txout hout nAmount hmove).1, ?_, ?_⟩
  · intro txin hin coin data hcoin hdata hname
    obtain ⟨m, m', hround⟩ := foldlM_forall_mem hinputs txin hin
    have hrestricted : assetTypeOf data.assetName = .RESTRICTED := by
      rw [hname]
      exact htype
    rw [← hname]
    exact spentAsset_notFrozen hash hversion hround hcoin hdata hrestricted
  · exact fun out hmem amount hamount => (hallowed out hmem amount hamount).2

/-! ### A tagged address -/

def checksumEnv : Env := { sampleEnv with Hash := fun data => sampleHash data ++ [0, 0, 0, 0] }

/-- `nAmount` of `$NAME` to a key. -/
def transferRestricted (key : UInt8) (nAmount : CAmount) : CTxOut where
  nValue := 0
  scriptPubKey := CAssetTransfer.constructTransaction ⟨ascii "$NAME", nAmount, [], 0⟩
    (getScriptForKeyID (keyHash key))

/-- `$NAME` for whoever carries `#TAG`, which key 2 does. -/
def taggedState : AssetState :=
  { AssetState.genesis with
    passetsdb :=
      { assetData :=
          (StdMap.assign ∅ (ascii "$NAME") ⟨⟨ascii "$NAME", 100, 8, 0, 0, []⟩, 1, 1⟩).assign
            (ascii "#TAG") ⟨⟨ascii "#TAG", 100000000, 0, 0, 0, []⟩, 1, 1⟩
        blockUndo := ∅ }
    prestricteddb :=
      { verifiers := StdMap.assign ∅ (ascii "$NAME") (ascii "TAG")
        addressQualifiers := StdMap.assign ∅
          (addressOf checksumEnv (getScriptForKeyID (keyHash 2)), ascii "#TAG") ()
        restrictedAddresses := ∅
        globalRestrictions := ∅ } }

/-- Key 1 sends `$NAME` to key 2. -/
def restrictedTx : CTransaction := ⟨9, [⟨⟨7, 0⟩, []⟩], [transferRestricted 2 100]⟩

def restrictedView : CCoinsView := StdMap.assign ∅ ⟨7, 0⟩ ⟨transferRestricted 1 100, false, 1⟩

theorem restrictedTx_safe :
    MayTransfer checksumEnv taggedState restrictedView restrictedTx (ascii "$NAME") := by
  have haccepted :
      checkTxAssets checksumEnv taggedState .empty restrictedTx restrictedView none ∅ =
        .ok [] := by
    decide +kernel
  have hmove : transferOutput checksumEnv (transferRestricted 2 100) =
      some (ascii "$NAME", 100) := by
    decide +kernel
  have hash : ∀ data, 4 ≤ (checksumEnv.Hash data).length := by
    intro data
    have hlength : (checksumEnv.Hash data).length = (sampleHash data).length + 4 :=
      List.length_append
    omega
  exact restrictedTransfer_safe hash rfl haccepted List.mem_cons_self hmove (by decide +kernel)

end UnemployCoin
