import UnemployCoin.CoinsUndo
import UnemployCoin.ReplayBlocks
import UnemployCoin.ScriptRuns
/-!
# Unspendable outputs

`CScript::IsUnspendable` (`script/script.cpp`) is to say that a script fails whatever the stack it
starts with, so that `AddCoins` (`coins.cpp`) never adds its output.
-/

namespace UnemployCoin

open Check

variable {crypto : ScriptCrypto} {checker : BaseSignatureChecker} {flags : UInt32}
  {sigversion : SigVersion} {s rest : CScript}

/-- Some input spends the output under the flags of some block. -/
def Spendable (crypto : ScriptCrypto) (s : CScript) : Prop :=
  ∃ (checker : BaseSignatureChecker) (nTime : ℤ) (dep : ScriptDeployments) (scriptSig : CScript)
    (witness : List Bytes),
    verifyScript crypto checker (getBlockScriptFlags nTime dep) scriptSig s witness = .ok ()

/-! ## Scripts that fail -/

theorem evalScript_of_verifyScript {scriptSig : CScript} {witness : List Bytes}
    (h : verifyScript crypto checker flags scriptSig s witness = .ok ()) :
    ∃ stackCopy stack,
      evalScript crypto checker flags .SIGVERSION_BASE [] scriptSig = .ok stackCopy ∧
      evalScript crypto checker flags .SIGVERSION_BASE stackCopy s = .ok stack := by
  obtain ⟨-, h⟩ := onlyIf_bind.1 h
  obtain ⟨stackCopy, hsig, h⟩ := bind_ok.1 h
  obtain ⟨stack, hscript, -⟩ := bind_ok.1 h
  exact ⟨stackCopy, stack, hsig, hscript⟩

theorem evalScript_return {stack stack' : List Bytes} :
    evalScript crypto checker flags sigversion stack (OP_RETURN :: rest) ≠ .ok stack' := by
  intro h
  obtain ⟨-, h⟩ := require_bind.1 h
  obtain ⟨t, hloop, -⟩ := bind_ok.1 h
  obtain ⟨m, s, hop, -⟩ := evalLoop_op (by decide) (by decide) hloop
  cases hop

theorem evalScript_long {stack stack' : List Bytes} (hlong : MAX_SCRIPT_SIZE < s.length) :
    evalScript crypto checker flags sigversion stack s ≠ .ok stack' := by
  intro h
  obtain ⟨hsize, -⟩ := require_bind.1 h
  exact absurd (of_decide_eq_true hsize) (Nat.not_le.2 hlong)

theorem evalScript_longAsset {stack stack' : List Bytes}
    (hlong : MAX_SCRIPT_ELEMENT_SIZE < rest.length) :
    evalScript crypto checker flags sigversion stack (OP_UNEMP_ASSET :: rest) ≠ .ok stack' := by
  intro h
  obtain ⟨-, h⟩ := require_bind.1 h
  obtain ⟨t, hloop, -⟩ := bind_ok.1 h
  exact absurd (evalLoop_asset hloop).1 (Nat.not_le.2 hlong)

theorem eq_cons_of_head {b : UInt8} (h : s.head? = some b) : ∃ rest, s = b :: rest := by
  cases s with
  | nil => cases h
  | cons c rest =>
    cases h
    exact ⟨rest, rfl⟩

/-- The scripts of which it is known that they fail.  A key for the key hash would have to be pushed
by the input. -/
inductive Fails (crypto : ScriptCrypto) (s : CScript) : Prop
  | opReturn (h : s.head? = some OP_RETURN)
  | long (h : MAX_SCRIPT_SIZE < s.length)
  | longAsset (h : s.head? = some OP_UNEMP_ASSET) (hlong : MAX_SCRIPT_ELEMENT_SIZE + 1 < s.length)
  | longData (hasset : s.isAssetScript.isSome = true)
      (hkeyHash : CScript.isPayToPublicKeyHash (s.take 25) = true)
      (hlong : MAX_SCRIPT_ELEMENT_SIZE + 26 < s.length)
  | noKey (hasset : s.isAssetScript.isSome = true)
      (hkeyHash : CScript.isPayToPublicKeyHash (s.take 25) = true)
      (hnone : ∀ pubkey : Bytes, pubkey.length ≤ MAX_SCRIPT_ELEMENT_SIZE →
        crypto.Hash160 pubkey ≠ s.substr 3 20)

/-- **They cannot be spent.** -/
theorem not_spendable (hcrypto : EvalScript.HashSized crypto) (h : Fails crypto s) :
    ¬Spendable crypto s := by
  rintro ⟨checker, nTime, dep, scriptSig, witness, hverify⟩
  obtain ⟨stackCopy, stack, hsig, hscript⟩ := evalScript_of_verifyScript hverify
  cases h with
  | opReturn h =>
    obtain ⟨rest, rfl⟩ := eq_cons_of_head h
    exact evalScript_return hscript
  | long h => exact evalScript_long h hscript
  | longAsset h hlong =>
    obtain ⟨rest, rfl⟩ := eq_cons_of_head h
    rw [List.length_cons] at hlong
    exact evalScript_longAsset (by omega) hscript
  | longData hasset hkeyHash hlong =>
    obtain ⟨t, ht⟩ := Option.isSome_iff_exists.1 hasset
    have hdata := (owner_of_spend ht hkeyHash hverify).1
    rw [List.length_drop] at hdata
    omega
  | noKey hasset hkeyHash hnone =>
    obtain ⟨t, ht⟩ := Option.isSome_iff_exists.1 hasset
    obtain ⟨-, pubkey, sig, below, heval, hkey, -⟩ := owner_of_spend ht hkeyHash hverify
    obtain ⟨hsized, -⟩ := evalScript_sized hcrypto (Nat.zero_le _) EvalScript.sized_nil heval
    exact hnone pubkey (EvalScript.sized_cons.1 hsized).1 hkey

/-! ## Scripts that can be spent -/

def acceptAll : BaseSignatureChecker := ⟨fun _ _ _ _ => true, fun _ => true, fun _ => true⟩

def allDeployed : ScriptDeployments := ⟨true, true, true, true⟩

theorem allDeployed_consistent :
    FlagsConsistent (getBlockScriptFlags nBIP16SwitchTime allDeployed) :=
  ⟨fun _ => by decide, fun _ => by decide⟩

/-- **Everyone can spend an output that begins with `OP_UNEMP_ASSET`.** -/
theorem spendable_asset (crypto : ScriptCrypto) (hrest : rest.length ≤ MAX_SCRIPT_ELEMENT_SIZE) :
    Spendable crypto (OP_UNEMP_ASSET :: rest) := by
  have hscript : evalScript crypto acceptAll (getBlockScriptFlags nBIP16SwitchTime allDeployed)
      .SIGVERSION_BASE [[1]] (OP_UNEMP_ASSET :: rest) = .ok [[1]] := by
    have hmax : MAX_SCRIPT_ELEMENT_SIZE = 520 := rfl
    have hlong : (OP_UNEMP_ASSET :: rest).length ≤ MAX_SCRIPT_SIZE := by
      rw [List.length_cons, MAX_SCRIPT_SIZE]
      omega
    refine evalScript_of_evalRest (t := ⟨[[1]], [], [], [], OP_UNEMP_ASSET :: rest, 1⟩) hlong ?_ rfl
    exact evalRest_asset hrest (by decide) (by decide)
  refine ⟨acceptAll, nBIP16SwitchTime, allDeployed, [OP_1], [], ?_⟩
  refine verifyScript_plain allDeployed_consistent (fun _ => rfl) rfl hscript rfl ?_ ?_
  · rw [CScript.isWitnessProgram]
    split
    · rfl
    · rfl
  · have hfirst : (Bytes.at (OP_UNEMP_ASSET :: rest) 0 == OP_HASH160) = false := rfl
    rw [CScript.isPayToScriptHash, hfirst, Bool.and_false]
    rfl

def allFlags : UInt32 := getBlockScriptFlags nBIP16SwitchTime allDeployed

/-- **And its owner** an asset output behind a pay-to-pubkey-hash script, whatever its amount. -/
theorem spendable_keyHash {t : AssetScriptType} {pubkey : Bytes} (hasset : s.isAssetScript = some t)
    (hkeyHash : CScript.isPayToPublicKeyHash (s.take 25) = true)
    (hlength : s.length ≤ MAX_SCRIPT_ELEMENT_SIZE + 26)
    (hkey : pubkey.length ≤ MAX_SCRIPT_ELEMENT_SIZE)
    (hhash : crypto.Hash160 pubkey = s.substr 3 20) : Spendable crypto s := by
  obtain ⟨hpc, hsize⟩ := keyHashAsset_eq hasset hkeyHash
  have hmax : MAX_SCRIPT_ELEMENT_SIZE = 520 := rfl
  have hscript : evalScript crypto acceptAll allFlags .SIGVERSION_BASE [pubkey, []] s =
      .ok [[1]] := by
    have hlong : s.length ≤ MAX_SCRIPT_SIZE := by
      rw [MAX_SCRIPT_SIZE]
      omega
    have hdata : (s.drop 26).length ≤ MAX_SCRIPT_ELEMENT_SIZE := by
      rw [List.length_drop]
      omega
    have hstart : EvalState.start [pubkey, []] s = ⟨[pubkey, []], [], [],
        OP_DUP :: OP_HASH160 :: 0x14 :: (s.substr 3 20 ++
          (OP_EQUALVERIFY :: OP_CHECKSIG :: OP_UNEMP_ASSET :: s.drop 26)), s, 0⟩ := by
      rw [EvalState.start, ← hpc]
    have hpush : CScript.getOp (0x14 :: (s.substr 3 20 ++
        (OP_EQUALVERIFY :: OP_CHECKSIG :: OP_UNEMP_ASSET :: s.drop 26))) =
          some (0x14, s.substr 3 20, OP_EQUALVERIFY :: OP_CHECKSIG :: OP_UNEMP_ASSET ::
            s.drop 26) := by
      have h := @getOp_push (OP_EQUALVERIFY :: OP_CHECKSIG :: OP_UNEMP_ASSET :: s.drop 26)
        (s.substr 3 20) (by omega)
      rwa [hsize] at h
    refine evalScript_of_evalRest (t := ⟨[[1]], [], [], [], s, 5⟩) hlong ?_ rfl
    rw [hstart]
    -- the key is copied and hashed
    refine Eq.trans (evalRest_op (t := ⟨[pubkey, pubkey, []], [], [], _, s, 1⟩) (by decide)
      (by decide) rfl (by decide) rfl (show 3 ≤ MAX_STACK_SIZE by decide)) ?_
    refine Eq.trans (evalRest_op (t := ⟨[crypto.Hash160 pubkey, pubkey, []], [], [], _, s, 2⟩)
      (by decide) (by decide) rfl (by decide) rfl (show 3 ≤ MAX_STACK_SIZE by decide)) ?_
    -- the hash in the script is pushed and compared
    have hroom : [crypto.Hash160 pubkey, pubkey, []].length + ([] : List Bytes).length <
        MAX_STACK_SIZE := show 3 < MAX_STACK_SIZE by decide
    refine Eq.trans (evalRest_push hpush (by decide) (by omega) (by decide) hroom) ?_
    rw [hhash]
    refine Eq.trans (evalRest_op (t := ⟨[pubkey, []], [], [],
      OP_CHECKSIG :: OP_UNEMP_ASSET :: s.drop 26, s, 3⟩) (by decide) (by decide) rfl (by decide) ?_
      (show 2 ≤ MAX_STACK_SIZE by decide)) ?_
    · have hequal : equalOp true [s.substr 3 20, s.substr 3 20, pubkey, []] = .ok [pubkey, []] := by
        refine bind_ok.2 ⟨_, rfl, require_bind.2 ⟨?_, rfl⟩⟩
        exact beq_self_eq_true _
      exact bind_ok.2 ⟨_, hequal, rfl⟩
    -- the empty signature is accepted
    refine Eq.trans (evalRest_op (t := ⟨[[1]], [], [], OP_UNEMP_ASSET :: s.drop 26, s, 4⟩)
      (by decide) (by decide) rfl (by decide) rfl (show 1 ≤ MAX_STACK_SIZE by decide)) ?_
    exact evalRest_asset hdata (by decide) (show 1 ≤ MAX_STACK_SIZE by decide)
  have hkeys : ∀ v ∈ [[], pubkey], v.length ≤ MAX_SCRIPT_ELEMENT_SIZE := by
    rw [List.forall_mem_cons, List.forall_mem_singleton]
    exact ⟨Nat.zero_le _, hkey⟩
  have hsig : evalScript crypto acceptAll allFlags .SIGVERSION_BASE [] (pushAll [[], pubkey]) =
      .ok [pubkey, []] := evalScript_pushAll hkeys (by decide) (show 2 ≤ 19 by decide)
  refine ⟨acceptAll, nBIP16SwitchTime, allDeployed, pushAll [[], pubkey], [], ?_⟩
  refine verifyScript_plain allDeployed_consistent (fun h => ?_) hsig hscript rfl ?_ ?_
  · exact absurd h (by decide)
  · rw [hpc, CScript.isWitnessProgram]
    split
    · rfl
    · rfl
  · have hlong := (assetScript_split hasset).2
    have hne : (s.length == 23) = false := beq_false_of_ne (by omega)
    rw [CScript.isPayToScriptHash, hne]
    rfl

/-! ## What the coins leave out -/

/-- An output whose script is this one is a coin once `AddCoins` is through, with `check` or
without. -/
def Added (s : CScript) : Prop :=
  ∀ (view view' : CCoinsView) (tx : CTransaction) (nHeight i : ℕ) (txout : CTxOut),
    view.addOutputs tx nHeight = .ok view' ∨ view.addOutputsChecked tx nHeight = .ok view' →
    tx.vout[i]? = some txout → txout.scriptPubKey = s →
    view'.find? ⟨tx.hash, i⟩ = some ⟨txout, tx.isCoinBase, nHeight⟩

/-- The coins leave out what no input can spend, and nothing else. -/
structure OmitsDead (crypto : ScriptCrypto) (s : CScript) : Prop where
  dead : s.isUnspendable = true → ¬Spendable crypto s
  added : s.isUnspendable = false → Added s

theorem spendableOutput_of_getElem? {tx : CTransaction} {i : ℕ} {txout : CTxOut}
    (hout : tx.vout[i]? = some txout) (hspendable : txout.scriptPubKey.isUnspendable = false) :
    spendableOutput tx.outputs ⟨tx.hash, i⟩ = some txout := by
  have hmem : (⟨tx.hash, i⟩, txout) ∈ tx.outputs := by
    rw [CTransaction.outputs, List.mem_map]
    exact ⟨(txout, i), List.mem_zipIdx_iff_getElem?.2 hout, rfl⟩
  obtain ⟨txout', hfound⟩ := Option.isSome_iff_exists.1
    (Option.isSome_map.symm.trans (createdCoin_isSome hmem hspendable 0))
  have hmem' := (mem_of_spendableOutput hfound).1
  rw [CTransaction.outputs, List.mem_map] at hmem'
  obtain ⟨⟨txout'', j⟩, hj, heq⟩ := hmem'
  cases heq
  have hsame := List.mem_zipIdx_iff_getElem?.1 hj
  rw [hout] at hsame
  cases hsame
  exact hfound

theorem added_of_spendable (h : s.isUnspendable = false) : Added s := by
  intro view view' tx nHeight i txout hadd hout hscript
  have hcreated : tx.createdCoin nHeight ⟨tx.hash, i⟩ =
      some ⟨txout, tx.isCoinBase, nHeight⟩ := by
    rw [CTransaction.createdCoin, spendableOutput_of_getElem? hout (hscript ▸ h)]
    rfl
  have hfind : view'.find? ⟨tx.hash, i⟩ =
      (tx.createdCoin nHeight ⟨tx.hash, i⟩).or (view.find? ⟨tx.hash, i⟩) := by
    cases hadd with
    | inl hadd => exact find?_addOutputs hadd _
    | inr hadd =>
      have hvalues : ∀ e ∈ tx.outputs, e.2.nValue ≠ -1 :=
        @values_of_foldlM_addCoin _ _ (coinOf tx nHeight) _ _ (fun _ => rfl) hadd
      obtain ⟨view'', hadd', hfind⟩ := find?_addOutputsChecked nHeight view hvalues
      rw [hadd] at hadd'
      cases hadd'
      exact hfind _
  rw [hfind, hcreated, Option.some_or]

theorem unspendable_cases (h : s.isUnspendable = true) :
    s.head? = some OP_RETURN ∨ s.head? = some OP_UNEMP_ASSET ∨ MAX_SCRIPT_SIZE < s.length ∨
      getAssetAmountFromScript s = some 0 := by
  have hhead : ∀ {b : UInt8}, (decide (s.length > 0) && Bytes.at s 0 == b) = true →
      s.head? = some b := by
    intro b hb
    cases s with
    | nil => cases hb
    | cons c rest =>
      rw [Bool.and_eq_true, beq_iff_eq] at hb
      exact congrArg some hb.2
  rw [CScript.isUnspendable, Bool.or_eq_true, Bool.or_eq_true, Bool.or_eq_true, beq_iff_eq,
    decide_eq_true_iff] at h
  obtain ((hreturn | hasset) | hlong) | hzero := h
  · exact .inl (hhead hreturn)
  · exact .inr (.inl (hhead hasset))
  · exact .inr (.inr (.inl hlong))
  · exact .inr (.inr (.inr hzero))

theorem isAssetScript_of_amount {nAmount : CAmount}
    (h : getAssetAmountFromScript s = some nAmount) : s.isAssetScript.isSome = true := by
  cases hasset : s.isAssetScript with
  | none =>
    rw [getAssetAmountFromScript, hasset] at h
    cases h
  | some t => rfl

theorem fails_of_asset (hasset : s.head? = some OP_UNEMP_ASSET) (hdead : ¬Spendable crypto s) :
    Fails crypto s := by
  refine .longAsset hasset (Nat.lt_of_not_le fun hle => hdead ?_)
  obtain ⟨rest, rfl⟩ := eq_cons_of_head hasset
  rw [List.length_cons] at hle
  exact spendable_asset crypto (Nat.le_of_succ_le_succ hle)

theorem fails_of_keyHash (hasset : s.isAssetScript.isSome = true)
    (hkeyHash : CScript.isPayToPublicKeyHash (s.take 25) = true) (hdead : ¬Spendable crypto s) :
    Fails crypto s := by
  obtain ⟨t, ht⟩ := Option.isSome_iff_exists.1 hasset
  by_cases hlength : s.length ≤ MAX_SCRIPT_ELEMENT_SIZE + 26
  · exact .noKey hasset hkeyHash fun pubkey hkey hhash =>
      hdead (spendable_keyHash ht hkeyHash hlength hkey hhash)
  · exact .longData hasset hkeyHash (Nat.lt_of_not_le hlength)

/-- **Exactly when the coins leave out what cannot be spent**: an output that begins with
`OP_UNEMP_ASSET` must have too much data, and an asset output of no amount a key hash without a
key.  Where no key hash stands before the asset, any script does, and only one direction is
known. -/
theorem isUnspendable_exact (hcrypto : EvalScript.HashSized crypto) (s : CScript) :
    (s.isUnspendable = false ∨ Fails crypto s → OmitsDead crypto s) ∧
    ((getAssetAmountFromScript s = some 0 →
        CScript.isPayToPublicKeyHash (s.take 25) = true ∨ s.head? = some OP_UNEMP_ASSET) →
      OmitsDead crypto s → s.isUnspendable = false ∨ Fails crypto s) := by
  refine ⟨?_, fun hfront h => ?_⟩
  · rintro (hspendable | hfails)
    · refine ⟨fun hunspendable => ?_, added_of_spendable⟩
      rw [hspendable] at hunspendable
      cases hunspendable
    · exact ⟨fun _ => not_spendable hcrypto hfails, added_of_spendable⟩
  · cases hunspendable : s.isUnspendable with
    | false => exact .inl rfl
    | true =>
      have hdead := h.dead hunspendable
      obtain hreturn | hasset | hlong | hzero := unspendable_cases hunspendable
      · exact .inr (.opReturn hreturn)
      · exact .inr (fails_of_asset hasset hdead)
      · exact .inr (.long hlong)
      · obtain hkeyHash | hasset := hfront hzero
        · exact .inr (fails_of_keyHash (isAssetScript_of_amount hzero) hkeyHash hdead)
        · exact .inr (fails_of_asset hasset hdead)

def constantCrypto : ScriptCrypto :=
  ⟨fun _ => List.replicate 20 0, fun _ => List.replicate 20 0, fun _ => List.replicate 32 0,
    fun _ => true⟩

def emptyTransferScript (key : UInt8) : CScript :=
  CAssetTransfer.constructTransaction ⟨ascii "TOKEN", 0, [], 0⟩
    (getScriptForKeyID (List.replicate 20 key))

/-- An `OP_RETURN` output is left out, a payment is kept, and a transfer of nothing is left out
rightly only where no key has the hash. -/
theorem isUnspendable_return :
    OmitsDead constantCrypto [OP_RETURN, 0x01, 0x2a] ∧
      OmitsDead constantCrypto (getScriptForKeyID (List.replicate 20 0)) ∧
      OmitsDead constantCrypto (emptyTransferScript 1) ∧
      ¬OmitsDead constantCrypto (emptyTransferScript 0) := by
  have hexact := @isUnspendable_exact constantCrypto ⟨fun _ => List.length_replicate,
    fun _ => List.length_replicate, fun _ => List.length_replicate⟩
  refine ⟨(hexact _).1 (.inr (.opReturn rfl)), (hexact _).1 (.inl (by decide +kernel)),
    (hexact _).1 (.inr ?_), fun h => ?_⟩
  · have hhash : List.replicate 20 0 ≠ (emptyTransferScript 1).substr 3 20 := by decide +kernel
    exact .noKey (by decide +kernel) (by decide +kernel) fun _ _ => hhash
  · obtain hspendable | hfails := (hexact _).2 (fun _ => .inl (by decide +kernel)) h
    · revert hspendable
      decide +kernel
    · cases hfails with
      | opReturn h => revert h; decide +kernel
      | long h => revert h; decide +kernel
      | longAsset h hlong => revert hlong; decide +kernel
      | longData hasset hkeyHash hlong => revert hlong; decide +kernel
      | noKey hasset hkeyHash hnone => exact hnone [] (by decide) (by decide +kernel)

/-- The output of a verifier string, here of one that is always true, is left out, and **`OP_1`
would spend it**. -/
theorem nullAssetVerifier_spendable :
    ¬∀ (crypto : ScriptCrypto) (s : CScript), s.isUnspendable = true → ¬Spendable crypto s := by
  intro h
  refine h constantCrypto
    [OP_UNEMP_ASSET, OP_RESERVED, 0x05, 0x04, 0x74, 0x72, 0x75, 0x65] rfl ?_
  exact spendable_asset _ (show 7 ≤ MAX_SCRIPT_ELEMENT_SIZE by decide)

end UnemployCoin
