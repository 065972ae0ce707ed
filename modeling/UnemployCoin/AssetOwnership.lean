import UnemployCoin.AssetScripts
import UnemployCoin.Authorization
import UnemployCoin.ScriptFlags
/-!
# Who can spend an asset

An asset output is attributed to the key hash at bytes 3 to 22 of its script (`IsAssetScript`,
`Solver`).  The interpreter knows nothing of this: it runs the 25 bytes in front of
`OP_UNEMP_ASSET` as they are.
-/

namespace UnemployCoin

open Check

variable {crypto : ScriptCrypto} {checker : BaseSignatureChecker} {flags : UInt32}
  {sigversion : SigVersion}

/-! ## One operation after the other -/

section Steps

variable {stack altstack : List Bytes} {rest code : CScript} {k n : ℕ} {opcode : UInt8}
  {t : EvalState}

theorem not_push (hop : OP_16 < opcode) : ¬opcode ≤ OP_PUSHDATA4 := by
  rw [UInt8.lt_iff_toNat_lt] at hop
  rw [UInt8.le_iff_toNat_le]
  have h16 : OP_16.toNat = 0x60 := rfl
  have hdata : OP_PUSHDATA4.toNat = 0x4e := rfl
  omega

theorem getOp_cons (hop : OP_16 < opcode) (hne : opcode ≠ OP_UNEMP_ASSET) :
    CScript.getOp (opcode :: rest) = some (opcode, [], rest) := by
  rw [CScript.getOp, if_neg (not_push hop), if_neg hne]

theorem evalLoop_op (hop : OP_16 < opcode) (hne : opcode ≠ OP_UNEMP_ASSET)
    (h : evalLoop crypto checker flags sigversion n
      ⟨stack, altstack, [], opcode :: rest, code, k⟩ = .ok t) :
    ∃ m s, evalOp crypto checker flags sigversion true opcode
        ⟨stack, altstack, [], rest, code, k + 1⟩ = .ok s ∧
      evalLoop crypto checker flags sigversion m s = .ok t := by
  cases n with
  | zero => cases h
  | succ n =>
    obtain ⟨s, hstep, hloop⟩ := bind_ok.1 h
    obtain ⟨⟨opcode', data, pc⟩, hget, hstep⟩ := demand_bind.1 hstep
    rw [getOp_cons hop hne] at hget
    cases hget
    simp only [require_bind] at hstep
    obtain ⟨-, -, -, hstep⟩ := hstep
    obtain ⟨s', hexecute, hstep⟩ := bind_ok.1 hstep
    obtain ⟨-, hstep⟩ := require_bind.1 hstep
    cases hstep
    refine ⟨n, s, ?_, hloop⟩
    have hexec : ([] : List Bool).all id = true := rfl
    unfold execute at hexecute
    rw [if_pos hop, hexec, if_neg fun hpush => not_push hop hpush.2, if_pos (Or.inl rfl)]
      at hexecute
    exact hexecute

theorem ofNat_le_pushdata {m : ℕ} (hm : m ≤ 75) :
    (UInt8.ofNat m).toNat = m ∧ UInt8.ofNat m < OP_PUSHDATA1 ∧ UInt8.ofNat m ≤ OP_PUSHDATA4 := by
  have hnat : (UInt8.ofNat m).toNat = m := by
    rw [UInt8.toNat_ofNat']
    omega
  have hone : OP_PUSHDATA1.toNat = 0x4c := rfl
  have hfour : OP_PUSHDATA4.toNat = 0x4e := rfl
  rw [UInt8.lt_iff_toNat_lt, UInt8.le_iff_toNat_le, hnat]
  omega

theorem getOp_push {data : Bytes} (hsize : data.length ≤ 75) :
    CScript.getOp (UInt8.ofNat data.length :: (data ++ rest)) =
      some (UInt8.ofNat data.length, data, rest) := by
  obtain ⟨hnat, hone, hfour⟩ := ofNat_le_pushdata hsize
  have hpush : CScript.pushSize (UInt8.ofNat data.length) (data ++ rest) =
      some (0, data.length) := by
    unfold CScript.pushSize
    rw [if_pos hone, hnat]
  have hlong : ¬(data ++ rest).length < data.length := by
    rw [List.length_append]
    omega
  rw [CScript.getOp, if_pos hfour, hpush]
  dsimp only
  rw [List.drop_zero, if_neg hlong, List.take_left, List.drop_left]

theorem evalLoop_push {data : Bytes} (hsize : data.length ≤ 75)
    (h : evalLoop crypto checker flags sigversion n
      ⟨stack, altstack, [], UInt8.ofNat data.length :: (data ++ rest), code, k⟩ = .ok t) :
    ∃ m k', evalLoop crypto checker flags sigversion m
      ⟨data :: stack, altstack, [], rest, code, k'⟩ = .ok t := by
  cases n with
  | zero => cases h
  | succ n =>
    obtain ⟨s, hstep, hloop⟩ := bind_ok.1 h
    obtain ⟨⟨opcode', data', pc⟩, hget, hstep⟩ := demand_bind.1 hstep
    rw [getOp_push hsize] at hget
    cases hget
    simp only [require_bind] at hstep
    obtain ⟨-, -, -, hstep⟩ := hstep
    obtain ⟨s', hexecute, hstep⟩ := bind_ok.1 hstep
    obtain ⟨-, hstep⟩ := require_bind.1 hstep
    cases hstep
    have hexec : ([] : List Bool).all id = true := rfl
    unfold execute at hexecute
    rw [hexec, if_pos ⟨rfl, (ofNat_le_pushdata hsize).2.2⟩] at hexecute
    obtain ⟨-, hexecute⟩ := require_bind.1 hexecute
    cases hexecute
    exact ⟨n, _, hloop⟩

theorem evalLoop_asset
    (h : evalLoop crypto checker flags sigversion n
      ⟨stack, altstack, [], OP_UNEMP_ASSET :: rest, code, k⟩ = .ok t) :
    rest.length ≤ MAX_SCRIPT_ELEMENT_SIZE ∧ t.stack = stack := by
  cases n with
  | zero => cases h
  | succ n =>
    obtain ⟨s, hstep, hloop⟩ := bind_ok.1 h
    obtain ⟨⟨opcode', data', pc⟩, hget, hstep⟩ := demand_bind.1 hstep
    have hasset : CScript.getOp (OP_UNEMP_ASSET :: rest) = some (OP_UNEMP_ASSET, rest, []) := rfl
    rw [hasset] at hget
    cases hget
    simp only [require_bind] at hstep
    obtain ⟨hsize, -, -, hstep⟩ := hstep
    obtain ⟨s', hexecute, hstep⟩ := bind_ok.1 hstep
    obtain ⟨-, hstep⟩ := require_bind.1 hstep
    cases hstep
    cases hexecute
    refine ⟨of_decide_eq_true hsize, ?_⟩
    cases n <;> cases hloop <;> rfl

end Steps

/-! ## Pay to a key hash -/

/-- The input supplies a key with this hash, and a signature that is right under the key. -/
def Supplies (crypto : ScriptCrypto) (checker : BaseSignatureChecker) (flags : UInt32)
    (scriptSig scriptPubKey : CScript) (hash : Bytes) : Prop :=
  ∃ pubkey sig stack,
    evalScript crypto checker flags .SIGVERSION_BASE [] scriptSig = .ok (pubkey :: sig :: stack) ∧
      crypto.Hash160 pubkey = hash ∧
      checker.checkSig sig pubkey (signedCode .SIGVERSION_BASE scriptPubKey [sig])
        .SIGVERSION_BASE = true

theorem evalLoop_keyHash {stack : List Bytes} {hash : Bytes} {code rest : CScript} {n : ℕ}
    {t : EvalState} (hhash : hash.length = 20)
    (h : evalLoop crypto checker flags .SIGVERSION_BASE n
      ⟨stack, [], [], OP_DUP :: OP_HASH160 :: 0x14 :: (hash ++
        (OP_EQUALVERIFY :: OP_CHECKSIG :: OP_UNEMP_ASSET :: rest)), code, 0⟩ = .ok t) :
    rest.length ≤ MAX_SCRIPT_ELEMENT_SIZE ∧
    ∃ pubkey sig stack', stack = pubkey :: sig :: stack' ∧ crypto.Hash160 pubkey = hash ∧
      t.stack = ofBool (checker.checkSig sig pubkey (signedCode .SIGVERSION_BASE code [sig])
        .SIGVERSION_BASE) :: stack' := by
  obtain ⟨m₁, s₁, hdup, h⟩ := evalLoop_op (by decide) (by decide) h
  cases stack with
  | nil => cases hdup
  | cons pubkey stack =>
    cases hdup
    obtain ⟨m₂, s₂, hhash160, h⟩ := evalLoop_op (by decide) (by decide) h
    cases hhash160
    obtain ⟨m₃, k, h⟩ := evalLoop_push (show hash.length ≤ 75 by omega) (by rw [hhash]; exact h)
    obtain ⟨m₄, s₄, hequal, h⟩ := evalLoop_op (by decide) (by decide) h
    have hequal' : onStack _ (equalOp true (hash :: crypto.Hash160 pubkey :: pubkey :: stack)) =
        .ok s₄ := hequal
    obtain ⟨stack₄, hpop, hs₄⟩ := bind_ok.1 hequal'
    obtain ⟨heq, hpop⟩ := require_bind.1 hpop
    cases hpop
    cases hs₄
    obtain ⟨m₅, s₅, hsig, h⟩ := evalLoop_op (by decide) (by decide) h
    have hsig' : onStack _ (checkSigOp crypto checker flags .SIGVERSION_BASE false code
        (pubkey :: stack)) = .ok s₅ := hsig
    obtain ⟨stack₅, hcheck, hs₅⟩ := bind_ok.1 hsig'
    cases stack with
    | nil => cases hcheck
    | cons sig stack =>
      have hcheck' : (checkEncodings crypto flags .SIGVERSION_BASE sig pubkey >>= fun _ => _) =
          Except.ok stack₅ := hcheck
      obtain ⟨-, hcheck'⟩ := unit_bind.1 hcheck'
      obtain ⟨-, hcheck'⟩ := require_bind.1 hcheck'
      cases hcheck'
      cases hs₅
      obtain ⟨hrest, htop⟩ := evalLoop_asset h
      exact ⟨hrest, pubkey, sig, stack, rfl, by simpa using heq, htop⟩

theorem assetScript_split {s : CScript} {t : AssetScriptType} (h : s.isAssetScript = some t) :
    s = s.take 25 ++ OP_UNEMP_ASSET :: s.drop 26 ∧ 31 < s.length := by
  unfold CScript.isAssetScript at h
  split at h
  · rename_i hfront
    simp only [Bool.and_eq_true, decide_eq_true_eq, beq_iff_eq] at hfront
    obtain ⟨hlength, hasset⟩ := hfront
    refine ⟨?_, hlength⟩
    calc s = s.take 25 ++ s.drop 25 := (List.take_append_drop 25 s).symm
      _ = s.take 25 ++ OP_UNEMP_ASSET :: s.drop 26 := by
        rw [drop_eq_at_cons (i := 25) (by omega), hasset]
  · cases h

theorem extractDestination_assetScript (env : Env) {s : CScript} {t : AssetScriptType}
    (h : s.isAssetScript = some t) : extractDestination env s = some (.CKeyID (s.substr 3 20)) := by
  have hscript : CScript.isPayToScriptHash s = false := by
    have hlength := (assetScript_split h).2
    have hne : (s.length == 23) = false := beq_false_of_ne (by omega)
    unfold CScript.isPayToScriptHash
    rw [hne]
    rfl
  have htype : t.nType = .TX_TRANSFER_ASSET ∨ t.nType = .TX_NEW_ASSET ∨
      t.nType = .TX_REISSUE_ASSET := by
    unfold CScript.isAssetScript at h
    repeat' split at h
    all_goals cases h
    all_goals simp
  unfold extractDestination solver
  rw [hscript, if_neg Bool.false_ne_true, h]
  rcases htype with htype | htype | htype <;> simp only [htype]

theorem keyHashAsset_eq {s : CScript} {t : AssetScriptType} (hasset : s.isAssetScript = some t)
    (hkeyHash : CScript.isPayToPublicKeyHash (s.take 25) = true) :
    s = OP_DUP :: OP_HASH160 :: 0x14 :: (s.substr 3 20 ++
        (OP_EQUALVERIFY :: OP_CHECKSIG :: OP_UNEMP_ASSET :: s.drop 26)) ∧
      (s.substr 3 20).length = 20 := by
  obtain ⟨hsplit, hlength⟩ := assetScript_split hasset
  obtain ⟨hfront, hfrontLength⟩ := eq_of_isPayToPublicKeyHash hkeyHash
  have hhash : Bytes.substr (s.take 25) 3 20 = s.substr 3 20 := by
    have happend := substr_append (s := s.take 25) (t := s.drop 25) hfrontLength
    rwa [List.take_append_drop, eq_comm] at happend
  rw [hhash] at hfront
  constructor
  · calc s = s.take 25 ++ OP_UNEMP_ASSET :: s.drop 26 := hsplit
      _ = _ := by
        rw [hfront]
        simp
  · unfold Bytes.substr
    rw [List.length_take, List.length_drop]
    omega

/-- **Behind a pay-to-pubkey-hash script only the owner can spend.** -/
theorem owner_of_spend {s : CScript} {t : AssetScriptType} (hasset : s.isAssetScript = some t)
    (hkeyHash : CScript.isPayToPublicKeyHash (s.take 25) = true) {scriptSig : CScript}
    {witness : List Bytes} (h : verifyScript crypto checker flags scriptSig s witness = .ok ()) :
    (s.drop 26).length ≤ MAX_SCRIPT_ELEMENT_SIZE ∧
      Supplies crypto checker flags scriptSig s (s.substr 3 20) := by
  obtain ⟨hpc, hsize⟩ := keyHashAsset_eq hasset hkeyHash
  obtain ⟨-, h⟩ := onlyIf_bind.1 h
  obtain ⟨stackCopy, hsig, h⟩ := bind_ok.1 h
  obtain ⟨stack, hscript, h⟩ := bind_ok.1 h
  obtain ⟨htrue, -⟩ := unit_bind.1 h
  obtain ⟨-, hscript⟩ := require_bind.1 hscript
  obtain ⟨t', hloop, hscript⟩ := bind_ok.1 hscript
  obtain ⟨-, hscript⟩ := require_bind.1 hscript
  cases hscript
  have hstart : EvalState.start stackCopy s = ⟨stackCopy, [], [],
      OP_DUP :: OP_HASH160 :: 0x14 :: (s.substr 3 20 ++
        (OP_EQUALVERIFY :: OP_CHECKSIG :: OP_UNEMP_ASSET :: s.drop 26)), s, 0⟩ := by
    unfold EvalState.start
    rw [← hpc]
  rw [hstart] at hloop
  obtain ⟨hrest, pubkey, sig, rest, rfl, hkey, htop⟩ := evalLoop_keyHash hsize hloop
  refine ⟨hrest, pubkey, sig, rest, hsig, hkey, ?_⟩
  rw [htop] at htrue
  have hcast := require_ok.1 htrue
  by_contra hfalse
  rw [Bool.not_eq_true] at hfalse
  simp only [hfalse] at hcast
  cases hcast

/-! ## Other scripts in front -/

section Push

variable {data rest : Bytes}

theorem evalScript_push (hdata : data.length = 24) (hrest : rest.length ≤ 520) :
    evalScript crypto checker flags .SIGVERSION_BASE []
      (0x18 :: (data ++ OP_UNEMP_ASSET :: rest)) = .ok [data] := by
  have hlength : (0x18 :: (data ++ OP_UNEMP_ASSET :: rest) : CScript).length =
    rest.length + 26 := by
    rw [List.length_cons, List.length_append, List.length_cons, hdata]
    omega
  have hget : CScript.getOp (0x18 :: (data ++ OP_UNEMP_ASSET :: rest)) =
      some (0x18, data, OP_UNEMP_ASSET :: rest) := by
    have hpush := @getOp_push (OP_UNEMP_ASSET :: rest) data (by omega)
    rwa [hdata] at hpush
  have hminimal : checkMinimalPush data 0x18 = true := by
    unfold checkMinimalPush
    rw [hdata]
    rfl
  have hfirst : evalStep crypto checker flags .SIGVERSION_BASE
      (.start [] (0x18 :: (data ++ OP_UNEMP_ASSET :: rest))) =
      .ok ⟨[data], [], [], OP_UNEMP_ASSET :: rest, 0x18 :: (data ++ OP_UNEMP_ASSET :: rest),
      0⟩ := by
    refine demand_bind.2 ⟨_, hget, ?_⟩
    refine require_bind.2 ⟨?_, require_bind.2 ⟨rfl, require_bind.2 ⟨rfl, ?_⟩⟩⟩
    · rw [hdata]
      rfl
    · refine bind_ok.2 ⟨_, ?_, require_bind.2 ⟨rfl, rfl⟩⟩
      refine require_bind.2 ⟨?_, rfl⟩
      rw [hminimal, Bool.or_true]
  have hsecond : evalStep crypto checker flags .SIGVERSION_BASE
      ⟨[data], [], [], OP_UNEMP_ASSET :: rest, 0x18 :: (data ++ OP_UNEMP_ASSET :: rest), 0⟩ =
      .ok ⟨[data], [], [], [], 0x18 :: (data ++ OP_UNEMP_ASSET :: rest), 1⟩ := by
    refine demand_bind.2 ⟨(OP_UNEMP_ASSET, rest, []), rfl, ?_⟩
    refine require_bind.2 ⟨decide_eq_true hrest, require_bind.2 ⟨rfl, require_bind.2 ⟨rfl, ?_⟩⟩⟩
    exact bind_ok.2 ⟨_, rfl, require_bind.2 ⟨rfl, rfl⟩⟩
  refine require_bind.2 ⟨?_, bind_ok.2
    ⟨⟨[data], [], [], [], 0x18 :: (data ++ OP_UNEMP_ASSET :: rest), 1⟩, ?_,
      require_bind.2 ⟨rfl, rfl⟩⟩⟩
  · rw [hlength, decide_eq_true_eq]
    unfold MAX_SCRIPT_SIZE
    omega
  · rw [hlength]
    refine bind_ok.2 ⟨_, hfirst, bind_ok.2 ⟨_, hsecond, ?_⟩⟩
    unfold evalLoop
    rfl

theorem verifyEnd_one (hflags : FlagsConsistent flags) (vch : Bytes) :
    verifyEnd flags [] ([vch], false) = .ok () := by
  unfold verifyEnd
  rw [onlyIf_bind, onlyIf_ok]
  constructor
  · intro hclean
    obtain ⟨hscript, hwitness⟩ := hflags.cleanstack hclean
    rw [hscript, hwitness]
    rfl
  · intro hwitness
    rw [hflags.witness hwitness]
    rfl

/-- **Everyone can spend an output behind the push of a true value.** -/
theorem spendable_of_push (hflags : FlagsConsistent flags) (hdata : data.length = 24)
    (hrest : rest.length ≤ 520) (htrue : castToBool data = true) :
    verifyScript crypto checker flags [] (0x18 :: (data ++ OP_UNEMP_ASSET :: rest)) [] =
      .ok () := by
  have hwitness : CScript.isWitnessProgram (0x18 :: (data ++ OP_UNEMP_ASSET :: rest)) = none := by
    unfold CScript.isWitnessProgram
    split
    · rfl
    · rfl
  have hscript : CScript.isPayToScriptHash (0x18 :: (data ++ OP_UNEMP_ASSET :: rest)) = false := by
    have h0 : (Bytes.at (0x18 :: (data ++ OP_UNEMP_ASSET :: rest)) 0 == OP_HASH160) = false := rfl
    unfold CScript.isPayToScriptHash
    rw [h0, Bool.and_false]
    rfl
  refine onlyIf_bind.2 ⟨fun _ => rfl, bind_ok.2 ⟨[], rfl, ?_⟩⟩
  refine bind_ok.2 ⟨[data], evalScript_push hdata hrest, require_bind.2 ⟨htrue, ?_⟩⟩
  refine bind_ok.2 ⟨([data], false), ?_, bind_ok.2 ⟨([data], false), ?_, verifyEnd_one hflags data⟩⟩
  · unfold verifyWitness
    rw [hwitness, ite_self]
  · unfold verifyPayToScriptHash
    rw [hscript, Bool.and_false, if_neg Bool.false_ne_true]

end Push

/-- **Who can spend an asset output.**  The key hash that is reported for it is that of the one who
can spend it if the script in front is a pay-to-pubkey-hash script.  Behind the push of a true
value, it is a key hash that nobody is asked for. -/
theorem assetScript_owner (env : Env) {s : CScript} {t : AssetScriptType}
    (hasset : s.isAssetScript = some t) :
    extractDestination env s = some (.CKeyID (s.substr 3 20)) ∧
      addressOf env s = encodeDestination env (.CKeyID (s.substr 3 20)) ∧
      (CScript.isPayToPublicKeyHash (s.take 25) = true →
        ∀ (crypto : ScriptCrypto) (checker : BaseSignatureChecker) (flags : UInt32)
          (scriptSig : CScript) (witness : List Bytes),
          verifyScript crypto checker flags scriptSig s witness = .ok () →
            Supplies crypto checker flags scriptSig s (s.substr 3 20)) ∧
      (s.at 0 = 0x18 → castToBool (s.substr 1 24) = true → s.length ≤ 546 →
        ∀ (crypto : ScriptCrypto) (checker : BaseSignatureChecker) (flags : UInt32),
          FlagsConsistent flags → verifyScript crypto checker flags [] s [] = .ok ()) := by
  have hdestination := extractDestination_assetScript env hasset
  refine ⟨hdestination, ?_, ?_, ?_⟩
  · unfold addressOf
    rw [hdestination]
    rfl
  · intro hkeyHash crypto checker flags scriptSig witness h
    exact (owner_of_spend hasset hkeyHash h).2
  · intro hpush htrue hlength crypto checker flags hflags
    obtain ⟨hsplit, hlong⟩ := assetScript_split hasset
    have hdata : (s.substr 1 24).length = 24 := by
      unfold Bytes.substr
      rw [List.length_take, List.length_drop]
      omega
    have hfront : s.take 25 = 0x18 :: s.substr 1 24 := by
      have hcons : s = 0x18 :: s.drop 1 := by
        calc s = s.drop 0 := List.drop_zero.symm
          _ = 0x18 :: s.drop 1 := by rw [drop_eq_at_cons (i := 0) (by omega), hpush]
      rw [hcons]
      rfl
    have heq : s = 0x18 :: (s.substr 1 24 ++ OP_UNEMP_ASSET :: s.drop 26) := by
      calc s = s.take 25 ++ OP_UNEMP_ASSET :: s.drop 26 := hsplit
        _ = _ := by
          rw [hfront]
          rfl
    have hrest : (s.drop 26).length ≤ 520 := by
      rw [List.length_drop]
      omega
    rw [heq]
    exact spendable_of_push hflags hdata hrest htrue

/-- The owner token of `ROOT` to key 1, as the others are. -/
theorem transferOwnerROOT_owner :
    extractDestination burnEnv transferOwnerROOT.scriptPubKey = some (.CKeyID (keyHash 1)) ∧
      ∀ (crypto : ScriptCrypto) (checker : BaseSignatureChecker) (flags : UInt32)
        (scriptSig : CScript) (witness : List Bytes),
        verifyScript crypto checker flags scriptSig transferOwnerROOT.scriptPubKey witness =
          .ok () →
        Supplies crypto checker flags scriptSig transferOwnerROOT.scriptPubKey (keyHash 1) := by
  have hasset : transferOwnerROOT.scriptPubKey.isAssetScript =
      some ⟨.TX_TRANSFER_ASSET, false, 31⟩ := by decide
  have hhash : transferOwnerROOT.scriptPubKey.substr 3 20 = keyHash 1 := by decide
  obtain ⟨hdestination, -, howner, -⟩ := assetScript_owner burnEnv hasset
  rw [hhash] at hdestination howner
  exact ⟨hdestination, howner (by decide)⟩

/-- The owner token of `ROOT` behind a push. -/
def pushOwnerROOT : CTxOut where
  nValue := 0
  scriptPubKey := CAssetTransfer.constructTransaction ⟨ascii "ROOT!", OWNER_ASSET_AMOUNT, [], 0⟩
    (CScript.pushData (List.replicate 24 1))

def pushOwnerTx : CTransaction where
  hash := 8
  vin := [⟨⟨7, 1⟩, []⟩]
  vout := [pushOwnerROOT]

/-- An accepted transaction has an output that can be spent **without a signature**. -/
theorem pushOwnerTx_spendable :
    ¬∀ (env : Env) (st : AssetState) (cache : CAssetsCache) (tx : CTransaction) (view : CCoinsView)
      (reissues : List (Bytes × uint256)),
      checkTransaction env tx true false true = .ok () →
      checkTxAssets env st cache tx view none ∅ = .ok reissues →
      ∀ out ∈ tx.vout, out.scriptPubKey.isAssetScript.isSome = true →
        ∀ (crypto : ScriptCrypto) (checker : BaseSignatureChecker) (flags : UInt32)
          (scriptSig : CScript) (witness : List Bytes),
          verifyScript crypto checker flags scriptSig out.scriptPubKey witness = .ok () →
            ∃ hash, extractDestination env out.scriptPubKey = some (.CKeyID hash) ∧
              Supplies crypto checker flags scriptSig out.scriptPubKey hash := by
  intro h
  have htx : checkTransaction burnEnv pushOwnerTx true false true = .ok () := by decide +kernel
  have hassets : checkTxAssets burnEnv .genesis .empty pushOwnerTx rootView none ∅ = .ok [] := by
    decide +kernel
  have hverify : verifyScript sampleCrypto sampleChecker STANDARD_SCRIPT_VERIFY_FLAGS []
      pushOwnerROOT.scriptPubKey [] = .ok () := by decide +kernel
  obtain ⟨hash, -, pubkey, sig, stack, -, -, hsig⟩ := h burnEnv .genesis .empty pushOwnerTx rootView
    [] htx hassets pushOwnerROOT List.mem_cons_self (by decide) sampleCrypto sampleChecker
    STANDARD_SCRIPT_VERIFY_FLAGS [] [] hverify
  cases hsig

end UnemployCoin
