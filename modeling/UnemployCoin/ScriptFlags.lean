import UnemployCoin.VerifyScript
import UnemployCoin.Lib.Restricts
/-!
# Verification flags

A flag makes the interpreter **stricter**: what a script does under more flags, it does under fewer.
The exception are the lock times.  Where their opcodes are not enabled they are upgradable ones,
and those may be discouraged.
-/

namespace UnemployCoin

open Check

/-! ## Sets of flags -/

def MANDATORY_SCRIPT_VERIFY_FLAGS : UInt32 := SCRIPT_VERIFY_P2SH

def STANDARD_SCRIPT_VERIFY_FLAGS : UInt32 :=
  MANDATORY_SCRIPT_VERIFY_FLAGS ||| SCRIPT_VERIFY_DERSIG ||| SCRIPT_VERIFY_STRICTENC |||
    SCRIPT_VERIFY_MINIMALDATA ||| SCRIPT_VERIFY_NULLDUMMY |||
    SCRIPT_VERIFY_DISCOURAGE_UPGRADABLE_NOPS ||| SCRIPT_VERIFY_CLEANSTACK |||
    SCRIPT_VERIFY_MINIMALIF ||| SCRIPT_VERIFY_NULLFAIL ||| SCRIPT_VERIFY_CHECKLOCKTIMEVERIFY |||
    SCRIPT_VERIFY_CHECKSEQUENCEVERIFY ||| SCRIPT_VERIFY_LOW_S ||| SCRIPT_VERIFY_WITNESS |||
    SCRIPT_VERIFY_DISCOURAGE_UPGRADABLE_WITNESS_PROGRAM ||| SCRIPT_VERIFY_WITNESS_PUBKEYTYPE

/-- The deployments in `Consensus::Params` that scripts depend on. -/
structure ScriptDeployments where
  nBIP66Enabled : Bool
  nBIP65Enabled : Bool
  nCSVEnabled : Bool
  nSegwitEnabled : Bool

def nBIP16SwitchTime : ℤ := 1333238400

def getBlockScriptFlags (nTime : ℤ) (dep : ScriptDeployments) : UInt32 :=
  (if nBIP16SwitchTime ≤ nTime then SCRIPT_VERIFY_P2SH else SCRIPT_VERIFY_NONE) |||
    (if dep.nBIP66Enabled then SCRIPT_VERIFY_DERSIG else 0) |||
    (if dep.nBIP65Enabled then SCRIPT_VERIFY_CHECKLOCKTIMEVERIFY else 0) |||
    (if dep.nCSVEnabled then SCRIPT_VERIFY_CHECKSEQUENCEVERIFY else 0) |||
    (if dep.nSegwitEnabled then SCRIPT_VERIFY_WITNESS ||| SCRIPT_VERIFY_NULLDUMMY else 0)

/-- `WITNESS` comes only with `P2SH`, and `CLEANSTACK` only with both. -/
structure FlagsConsistent (F : UInt32) : Prop where
  witness : hasFlag F SCRIPT_VERIFY_WITNESS = true → hasFlag F SCRIPT_VERIFY_P2SH = true
  cleanstack : hasFlag F SCRIPT_VERIFY_CLEANSTACK = true →
    hasFlag F SCRIPT_VERIFY_P2SH = true ∧ hasFlag F SCRIPT_VERIFY_WITNESS = true

/-- `F` is a subset of `G` that enables the same lock times, at least where it discourages
upgradable opcodes. -/
structure FlagsBelow (F G : UInt32) : Prop where
  subset : F &&& G = F
  nops : hasFlag F SCRIPT_VERIFY_DISCOURAGE_UPGRADABLE_NOPS = true →
    (hasFlag G SCRIPT_VERIFY_CHECKLOCKTIMEVERIFY = true →
      hasFlag F SCRIPT_VERIFY_CHECKLOCKTIMEVERIFY = true) ∧
    (hasFlag G SCRIPT_VERIFY_CHECKSEQUENCEVERIFY = true →
      hasFlag F SCRIPT_VERIFY_CHECKSEQUENCEVERIFY = true)

variable {F G : UInt32}

theorem FlagsBelow.hasFlag (h : FlagsBelow F G) {mask : UInt32} (hF : hasFlag F mask = true) :
    hasFlag G mask = true := by
  unfold UnemployCoin.hasFlag at hF ⊢
  rw [bne_iff_ne] at hF ⊢
  intro hG
  rw [← h.subset, UInt32.and_assoc, hG, UInt32.and_zero] at hF
  exact hF rfl

theorem FlagsBelow.not_or (h : FlagsBelow F G) {mask : UInt32} {c : Bool}
    (hG : (!UnemployCoin.hasFlag G mask || c) = true) :
    (!UnemployCoin.hasFlag F mask || c) = true := by
  rw [Bool.or_eq_true, Bool.not_eq_true'] at hG ⊢
  refine hG.imp_left fun hG => ?_
  by_contra hF
  rw [h.hasFlag (by simpa using hF)] at hG
  cases hG

/-! ## Operations -/

section Restrict

variable {crypto : ScriptCrypto} {checker : BaseSignatureChecker} {sigversion : SigVersion}

theorem scriptNum_restricts (h : FlagsBelow F G) (nMaxNumSize : ℕ) (vch : Bytes) :
    Restricts (scriptNum G nMaxNumSize vch) (scriptNum F nMaxNumSize vch) := by
  unfold scriptNum
  refine .bind (.refl _) fun _ => ?_
  exact .bind (.require h.not_or) fun _ => .refl _

theorem pickRoll_restricts (h : FlagsBelow F G) (fRoll : Bool) (stack : List Bytes) :
    Restricts (pickRoll G fRoll stack) (pickRoll F fRoll stack) := by
  unfold pickRoll
  refine .bind (.refl _) fun _ => .bind (.refl _) fun ⟨vch, stack⟩ => ?_
  exact .bind (scriptNum_restricts h _ vch) fun _ => .refl _

theorem unaryOp_restricts (h : FlagsBelow F G) (opcode : UInt8) (stack : List Bytes) :
    Restricts (unaryOp G opcode stack) (unaryOp F opcode stack) := by
  unfold unaryOp
  refine .bind (.refl _) fun ⟨vch, stack⟩ => ?_
  exact .bind (scriptNum_restricts h _ vch) fun _ => .refl _

theorem binaryOp_restricts (h : FlagsBelow F G) (opcode : UInt8) (stack : List Bytes) :
    Restricts (binaryOp G opcode stack) (binaryOp F opcode stack) := by
  unfold binaryOp
  refine .bind (.refl _) fun ⟨vch1, vch2, stack⟩ => ?_
  refine .bind (scriptNum_restricts h _ vch1) fun _ => ?_
  exact .bind (scriptNum_restricts h _ vch2) fun _ => .refl _

theorem within_restricts (h : FlagsBelow F G) (stack : List Bytes) :
    Restricts (within G stack) (within F stack) := by
  unfold within
  refine .bind (.refl _) fun ⟨vch1, vch2, vch3, stack⟩ => ?_
  refine .bind (scriptNum_restricts h _ vch1) fun _ => ?_
  refine .bind (scriptNum_restricts h _ vch2) fun _ => ?_
  exact .bind (scriptNum_restricts h _ vch3) fun _ => .refl _

theorem checkEncodings_restricts (h : FlagsBelow F G) (vchSig vchPubKey : Bytes) :
    Restricts (checkEncodings crypto G sigversion vchSig vchPubKey)
      (checkEncodings crypto F sigversion vchSig vchPubKey) := by
  unfold checkEncodings checkSignatureEncoding checkPubKeyEncoding
  refine .bind (.onlyIf id ?_) fun _ => ?_
  · refine .bind (.onlyIf h.hasFlag (.refl _)) fun _ => ?_
    exact .bind (.onlyIf h.hasFlag (.refl _)) fun _ => .onlyIf h.hasFlag (.refl _)
  · refine .bind (.onlyIf h.hasFlag (.refl _)) fun _ => .onlyIf ?_ (.refl _)
    rw [Bool.and_eq_true, Bool.and_eq_true]
    exact And.imp_left h.hasFlag

theorem FlagsBelow.or_not_or (h : FlagsBelow F G) {mask : UInt32} {b c : Bool}
    (hG : (b || !UnemployCoin.hasFlag G mask || c) = true) :
    (b || !UnemployCoin.hasFlag F mask || c) = true := by
  rw [Bool.or_assoc, Bool.or_eq_true] at hG ⊢
  exact hG.imp_right h.not_or

theorem checkSigOp_restricts (h : FlagsBelow F G) (fVerify : Bool) (codehash : CScript)
    (stack : List Bytes) :
    Restricts (checkSigOp crypto checker G sigversion fVerify codehash stack)
      (checkSigOp crypto checker F sigversion fVerify codehash stack) := by
  unfold checkSigOp
  refine .bind (.refl _) fun ⟨vchSig, vchPubKey, stack⟩ => ?_
  refine .bind (checkEncodings_restricts h vchSig vchPubKey) fun _ => ?_
  exact .bind (.require h.or_not_or) fun _ => .refl _

theorem checkMultiSigLoop_restricts (h : FlagsBelow F G) (scriptCode : CScript)
    (sigs keys : List Bytes) :
    Restricts (checkMultiSigLoop crypto checker G sigversion scriptCode sigs keys)
      (checkMultiSigLoop crypto checker F sigversion scriptCode sigs keys) := by
  induction keys generalizing sigs with
  | nil => cases sigs <;> exact .refl _
  | cons vchPubKey keys ih =>
    cases sigs with
    | nil => exact .refl _
    | cons vchSig sigs =>
      unfold checkMultiSigLoop
      refine .bind (checkEncodings_restricts h vchSig vchPubKey) fun _ => ?_
      exact .ite (.refl _) (ih _)

theorem checkMultiSigOp_restricts (h : FlagsBelow F G) (fVerify : Bool) (codehash : CScript)
    (nOpCount : ℕ) (stack : List Bytes) :
    Restricts (checkMultiSigOp crypto checker G sigversion fVerify codehash nOpCount stack)
      (checkMultiSigOp crypto checker F sigversion fVerify codehash nOpCount stack) := by
  unfold checkMultiSigOp
  refine .bind (.refl _) fun ⟨vchKeys, stack⟩ => ?_
  refine .bind (scriptNum_restricts h _ vchKeys) fun nKeysCount => ?_
  refine .bind (.refl _) fun _ => .bind (.refl _) fun _ => .bind (.refl _) fun _ => ?_
  refine .bind (.refl _) fun ⟨vchSigs, rest⟩ => ?_
  refine .bind (scriptNum_restricts h _ vchSigs) fun nSigsCount => ?_
  refine .bind (.refl _) fun _ => .bind (.refl _) fun _ => ?_
  refine .bind (checkMultiSigLoop_restricts h _ _ _) fun fSuccess => ?_
  refine .bind (.require h.or_not_or) fun _ => .bind (.refl _) fun ⟨vchDummy, stack⟩ => ?_
  exact .bind (.require h.not_or) fun _ => .refl _

theorem upgradableNop_restricts (h : FlagsBelow F G) :
    Restricts (upgradableNop G) (upgradableNop F) := by
  refine .require fun hG => ?_
  have hor := h.not_or (c := false) (by rwa [Bool.or_false])
  rwa [Bool.or_false] at hor

theorem upgradableNop_of_enabled {mask : UInt32} (hF : hasFlag F mask = false)
    (hG : hasFlag G mask = true)
    (h : hasFlag F SCRIPT_VERIFY_DISCOURAGE_UPGRADABLE_NOPS = true →
      hasFlag G mask = true → hasFlag F mask = true) (x : Eval Unit) :
    Restricts x (upgradableNop F) := by
  intro _ _
  refine require_ok.2 ?_
  rw [Bool.not_eq_true']
  by_contra hnop
  rw [h (by simpa using hnop) hG] at hF
  cases hF

theorem checkLockTimeVerify_restricts (h : FlagsBelow F G) (stack : List Bytes) :
    Restricts (checkLockTimeVerify checker G stack) (checkLockTimeVerify checker F stack) := by
  unfold checkLockTimeVerify
  cases hF : hasFlag F SCRIPT_VERIFY_CHECKLOCKTIMEVERIFY with
  | true =>
    rw [h.hasFlag hF, if_pos rfl, if_pos rfl]
    refine .bind (.refl _) fun ⟨vch, stack⟩ => ?_
    exact .bind (scriptNum_restricts h _ vch) fun _ => .refl _
  | false =>
    rw [if_neg Bool.false_ne_true]
    split
    · rename_i hG
      exact upgradableNop_of_enabled hF hG (fun hnop => (h.nops hnop).1) _
    · exact upgradableNop_restricts h

theorem checkSequenceVerify_restricts (h : FlagsBelow F G) (stack : List Bytes) :
    Restricts (checkSequenceVerify checker G stack) (checkSequenceVerify checker F stack) := by
  unfold checkSequenceVerify
  cases hF : hasFlag F SCRIPT_VERIFY_CHECKSEQUENCEVERIFY with
  | true =>
    rw [h.hasFlag hF, if_pos rfl, if_pos rfl]
    refine .bind (.refl _) fun ⟨vch, stack⟩ => ?_
    exact .bind (scriptNum_restricts h _ vch) fun _ => .refl _
  | false =>
    rw [if_neg Bool.false_ne_true]
    split
    · rename_i hG
      exact upgradableNop_of_enabled hF hG (fun hnop => (h.nops hnop).2) _
    · exact upgradableNop_restricts h

theorem ifOp_restricts (h : FlagsBelow F G) (fNot fExec : Bool) (s : EvalState) :
    Restricts (ifOp G sigversion fNot fExec s) (ifOp F sigversion fNot fExec s) := by
  unfold ifOp
  refine .ite (.bind (.refl _) fun vch => ?_) (.refl _)
  refine .bind (.onlyIf ?_ (.refl _)) fun _ => .refl _
  rw [Bool.and_eq_true, Bool.and_eq_true]
  exact And.imp_right h.hasFlag

theorem onStack_restricts {x y : Eval (List Bytes)} (h : Restricts x y) (s : EvalState) :
    Restricts (onStack s x) (onStack s y) := .bind h fun _ => .refl _

theorem evalOp_restricts (h : FlagsBelow F G) (fExec : Bool) (opcode : UInt8) (s : EvalState) :
    Restricts (evalOp crypto checker G sigversion fExec opcode s)
      (evalOp crypto checker F sigversion fExec opcode s) := by
  unfold evalOp
  repeat' with_reducible refine .ite ?_ ?_
  all_goals first
    | with_reducible exact .refl _
    | exact ifOp_restricts h _ _ _
    | exact .bind (checkLockTimeVerify_restricts h _) fun _ => .refl _
    | exact .bind (checkSequenceVerify_restricts h _) fun _ => .refl _
    | exact .bind (upgradableNop_restricts h) fun _ => .refl _
    | exact onStack_restricts (pickRoll_restricts h _ _) s
    | exact onStack_restricts (unaryOp_restricts h _ _) s
    | exact onStack_restricts (binaryOp_restricts h _ _) s
    | exact onStack_restricts (within_restricts h _) s
    | exact onStack_restricts (checkSigOp_restricts h _ _ _) s
    | exact .bind (checkMultiSigOp_restricts h _ _ _ _) fun _ => .refl _

theorem evalStep_restricts (h : FlagsBelow F G) (s : EvalState) :
    Restricts (evalStep crypto checker G sigversion s)
      (evalStep crypto checker F sigversion s) := by
  unfold evalStep execute
  refine .bind (.refl _) fun ⟨opcode, vchPushValue, pc⟩ => ?_
  refine .bind (.refl _) fun _ => .bind (.refl _) fun _ => .bind (.refl _) fun _ => ?_
  refine .bind (.ite ?_ (.ite (evalOp_restricts h _ _ _) (.refl _))) fun _ => .refl _
  exact .bind (.require h.not_or) fun _ => .refl _

theorem evalLoop_restricts (h : FlagsBelow F G) (n : ℕ) (s : EvalState) :
    Restricts (evalLoop crypto checker G sigversion n s)
      (evalLoop crypto checker F sigversion n s) := by
  induction n generalizing s with
  | zero => exact .refl _
  | succ n ih =>
    unfold evalLoop
    exact .ite (.refl _) (.bind (evalStep_restricts h s) ih)

/-- **What a script does under more flags, it does under fewer.** -/
theorem evalScript_restricts (h : FlagsBelow F G) (stack : List Bytes) (script : CScript) :
    Restricts (evalScript crypto checker G sigversion stack script)
      (evalScript crypto checker F sigversion stack script) := by
  unfold evalScript
  refine .bind (.refl _) fun _ => ?_
  exact .bind (evalLoop_restricts h _ _) fun _ => .refl _

/-! ## Spending an output -/

theorem verifyWitnessProgram_restricts (h : FlagsBelow F G) (witness : List Bytes)
    (witversion : ℕ) (program : Bytes) :
    Restricts (verifyWitnessProgram crypto checker G witness witversion program)
      (verifyWitnessProgram crypto checker F witness witversion program) := by
  unfold verifyWitnessProgram
  refine .ite ?_ (.require fun hG => ?_)
  · refine .bind (.refl _) fun ⟨scriptPubKey, stack⟩ => .bind (.refl _) fun _ => ?_
    exact .bind (evalScript_restricts h _ _) fun _ => .refl _
  · have hor := h.not_or (c := false) (by rwa [Bool.or_false])
    rwa [Bool.or_false] at hor

theorem verifyWitness_restricts (h : FlagsBelow F G)
    (hwitness : hasFlag F SCRIPT_VERIFY_WITNESS = true) (witness : List Bytes) (script : CScript)
    (fExact : Bool) (malleated : ScriptError) (s : VerifyState) :
    Restricts (verifyWitness crypto checker G witness script fExact malleated s)
      (verifyWitness crypto checker F witness script fExact malleated s) := by
  unfold verifyWitness
  rw [hwitness, h.hasFlag hwitness, if_pos rfl, if_pos rfl]
  split
  · exact .refl _
  · refine .bind (.refl _) fun _ => ?_
    exact .bind (verifyWitnessProgram_restricts h _ _ _) fun _ => .refl _

theorem verifyWitness_of_not (hwitness : hasFlag F SCRIPT_VERIFY_WITNESS = false)
    (witness : List Bytes) (script : CScript) (fExact : Bool) (malleated : ScriptError)
    (s : VerifyState) :
    verifyWitness crypto checker F witness script fExact malleated s = .ok s := by
  unfold verifyWitness
  rw [hwitness, if_neg Bool.false_ne_true]

theorem verifyScriptHash_restricts (h : FlagsBelow F G)
    (hwitness : hasFlag F SCRIPT_VERIFY_WITNESS = true) (scriptSig : CScript)
    (witness stackCopy : List Bytes) (hadWitness : Bool) :
    Restricts (verifyScriptHash crypto checker G scriptSig witness stackCopy hadWitness)
      (verifyScriptHash crypto checker F scriptSig witness stackCopy hadWitness) := by
  unfold verifyScriptHash
  refine .bind (.refl _) fun _ => ?_
  split
  · exact .refl _
  · refine .bind (evalScript_restricts h _ _) fun _ => .bind (.refl _) fun _ => ?_
    exact verifyWitness_restricts h hwitness _ _ _ _ _

theorem verifyScriptHash_of_not (h : FlagsBelow F G)
    (hwitness : hasFlag F SCRIPT_VERIFY_WITNESS = false) {scriptSig : CScript}
    {witness stackCopy : List Bytes} {hadWitness hadWitness' : Bool} {s : VerifyState}
    (hG : verifyScriptHash crypto checker G scriptSig witness stackCopy hadWitness = .ok s) :
    ∃ s', verifyScriptHash crypto checker F scriptSig witness stackCopy hadWitness' = .ok s' := by
  unfold verifyScriptHash at hG ⊢
  obtain ⟨hpush, hG⟩ := require_bind.1 hG
  cases stackCopy with
  | nil => cases hG
  | cons pubKey2 stack =>
    obtain ⟨stack', heval, hG⟩ := bind_ok.1 hG
    obtain ⟨htrue, -⟩ := unit_bind.1 hG
    refine ⟨(stack', hadWitness'), require_bind.2 ⟨hpush, ?_⟩⟩
    refine bind_ok.2 ⟨stack', evalScript_restricts h _ _ _ heval, ?_⟩
    exact unit_bind.2 ⟨htrue, verifyWitness_of_not hwitness _ _ _ _ _⟩

theorem verifyEnd_restricts (h : FlagsBelow F G) (hF : FlagsConsistent F)
    (hwitness : hasFlag F SCRIPT_VERIFY_WITNESS = true) (witness : List Bytes) (s : VerifyState) :
    Restricts (verifyEnd G witness s) (verifyEnd F witness s) := by
  have hscript := hF.witness hwitness
  unfold verifyEnd
  rw [hwitness, hscript, h.hasFlag hwitness, h.hasFlag hscript]
  exact .bind (.onlyIf h.hasFlag (.refl _)) fun _ => .refl _

theorem verifyEnd_of_not (hF : FlagsConsistent F)
    (hwitness : hasFlag F SCRIPT_VERIFY_WITNESS = false) (witness : List Bytes) (s : VerifyState) :
    verifyEnd F witness s = .ok () := by
  have hcleanstack : hasFlag F SCRIPT_VERIFY_CLEANSTACK = false := by
    by_contra hclean
    rw [(hF.cleanstack (by simpa using hclean)).2] at hwitness
    cases hwitness
  unfold verifyEnd
  rw [hwitness, hcleanstack]
  rfl

/-- **An output that can be spent under more flags can be spent under fewer.** -/
theorem verifyScript_restricts (h : FlagsBelow F G) (hF : FlagsConsistent F)
    (scriptSig scriptPubKey : CScript) (witness : List Bytes) :
    Restricts (verifyScript crypto checker G scriptSig scriptPubKey witness)
      (verifyScript crypto checker F scriptSig scriptPubKey witness) := by
  unfold verifyScript
  refine .bind (.onlyIf h.hasFlag (.refl _)) fun _ => ?_
  refine .bind (evalScript_restricts h _ _) fun stackCopy => ?_
  refine .bind (evalScript_restricts h _ _) fun stack => .bind (.refl _) fun _ => ?_
  cases hwitness : hasFlag F SCRIPT_VERIFY_WITNESS with
  | true =>
    have hscript := hF.witness hwitness
    refine .bind (verifyWitness_restricts h hwitness _ _ _ _ _) fun s => ?_
    refine .bind ?_ fun s => verifyEnd_restricts h hF hwitness witness s
    unfold verifyPayToScriptHash
    rw [hscript, h.hasFlag hscript]
    exact .ite (verifyScriptHash_restricts h hwitness _ _ _ _) (.refl _)
  | false =>
    rw [verifyWitness_of_not hwitness]
    intro _ hG
    obtain ⟨s, -, hG⟩ := bind_ok.1 hG
    obtain ⟨t, hG, -⟩ := bind_ok.1 hG
    refine bind_ok.2 ⟨(stack, false), rfl, ?_⟩
    unfold verifyPayToScriptHash at hG ⊢
    by_cases hscript : (hasFlag F SCRIPT_VERIFY_P2SH && scriptPubKey.isPayToScriptHash) = true
    · obtain ⟨hflag, hhash⟩ := Bool.and_eq_true_iff.1 hscript
      rw [h.hasFlag hflag, hhash, Bool.and_self, if_pos rfl] at hG
      obtain ⟨s', hF'⟩ := verifyScriptHash_of_not h hwitness hG
      rw [if_pos hscript]
      exact bind_ok.2 ⟨s', hF', verifyEnd_of_not hF hwitness _ _⟩
    · rw [if_neg hscript]
      exact bind_ok.2 ⟨(stack, false), rfl, verifyEnd_of_not hF hwitness _ _⟩

end Restrict

theorem blockFlags_below (nTime : ℤ) (dep : ScriptDeployments) :
    FlagsBelow (getBlockScriptFlags nTime dep) STANDARD_SCRIPT_VERIFY_FLAGS := by
  obtain ⟨fDersig, fLockTime, fSequence, fSegwit⟩ := dep
  unfold getBlockScriptFlags
  constructor
  · split <;> cases fDersig <;> cases fLockTime <;> cases fSequence <;> cases fSegwit <;> decide
  · intro hnop
    exfalso
    revert hnop
    split <;> cases fDersig <;> cases fLockTime <;> cases fSequence <;> cases fSegwit <;> decide

theorem blockFlags_consistent {nTime : ℤ} {dep : ScriptDeployments}
    (h : dep.nSegwitEnabled = true → nBIP16SwitchTime ≤ nTime) :
    FlagsConsistent (getBlockScriptFlags nTime dep) := by
  obtain ⟨fDersig, fLockTime, fSequence, fSegwit⟩ := dep
  unfold getBlockScriptFlags
  constructor
  · by_cases htime : nBIP16SwitchTime ≤ nTime
    · rw [if_pos htime]
      cases fDersig <;> cases fLockTime <;> cases fSequence <;> cases fSegwit <;> decide
    · rw [if_neg htime]
      cases fSegwit with
      | true => exact absurd (h rfl) htime
      | false => cases fDersig <;> cases fLockTime <;> cases fSequence <;> decide
  · intro hclean
    exfalso
    revert hclean
    split <;> cases fDersig <;> cases fLockTime <;> cases fSequence <;> cases fSegwit <;> decide

/-- **Flags only restrict**, and so what the mempool accepts can be spent in a block. -/
theorem verifyScript_flags (crypto : ScriptCrypto) (checker : BaseSignatureChecker)
    (scriptSig scriptPubKey : CScript) (witness : List Bytes) (h : FlagsBelow F G)
    (hF : FlagsConsistent F) :
    (verifyScript crypto checker G scriptSig scriptPubKey witness = .ok () →
      verifyScript crypto checker F scriptSig scriptPubKey witness = .ok ()) ∧
    ∀ (nTime : ℤ) (dep : ScriptDeployments),
      (dep.nSegwitEnabled = true → nBIP16SwitchTime ≤ nTime) →
      verifyScript crypto checker STANDARD_SCRIPT_VERIFY_FLAGS scriptSig scriptPubKey witness =
        .ok () →
      verifyScript crypto checker (getBlockScriptFlags nTime dep) scriptSig scriptPubKey witness =
        .ok () :=
  ⟨verifyScript_restricts h hF scriptSig scriptPubKey witness (),
    fun nTime dep htime => verifyScript_restricts (blockFlags_below nTime dep)
      (blockFlags_consistent htime) scriptSig scriptPubKey witness ()⟩

/-! ## Samples -/

def sampleCrypto : ScriptCrypto where
  RIPEMD160 := fun s => (s ++ List.replicate 20 0).take 20
  SHA1 := fun s => (s ++ List.replicate 20 0).take 20
  SHA256 := fun s => (s ++ List.replicate 32 0).take 32
  checkLowS := fun _ => true

def sampleChecker : BaseSignatureChecker where
  checkSig := fun _ _ _ _ => false
  checkLockTime := fun nLockTime => decide (nLockTime ≤ 500)
  checkSequence := fun _ => false

/-- The script hash of `OP_1`. -/
def trueScriptHash : CScript :=
  [OP_HASH160] ++ CScript.pushData (sampleCrypto.Hash160 [OP_1]) ++ [OP_EQUAL]

/-- The output is spent under the flags of the mempool, and then under those of a block. -/
theorem verifyScript_flags_trueScriptHash :
    verifyScript sampleCrypto sampleChecker SCRIPT_VERIFY_P2SH (CScript.pushData [OP_1])
        trueScriptHash [] = .ok () ∧
      verifyScript sampleCrypto sampleChecker
        (getBlockScriptFlags 1718830200 ⟨true, true, false, false⟩) (CScript.pushData [OP_1])
        trueScriptHash [] = .ok () := by
  have hstandard : verifyScript sampleCrypto sampleChecker STANDARD_SCRIPT_VERIFY_FLAGS
      (CScript.pushData [OP_1]) trueScriptHash [] = .ok () := by decide +kernel
  have hbelow : FlagsBelow SCRIPT_VERIFY_P2SH STANDARD_SCRIPT_VERIFY_FLAGS :=
    ⟨by decide, fun hnop => absurd hnop (by decide)⟩
  have hconsistent : FlagsConsistent SCRIPT_VERIFY_P2SH :=
    ⟨fun hwitness => absurd hwitness (by decide), fun hclean => absurd hclean (by decide)⟩
  obtain ⟨hfewer, hblock⟩ := verifyScript_flags sampleCrypto sampleChecker
    (CScript.pushData [OP_1]) trueScriptHash [] hbelow hconsistent
  exact ⟨hfewer hstandard, hblock 1718830200 _ (fun h => nomatch h) hstandard⟩

/-- An opcode that is enabled under more flags is a **discouraged** one under fewer. -/
theorem lockTime_discouraged :
    ¬∀ (crypto : ScriptCrypto) (checker : BaseSignatureChecker) (F G : UInt32)
      (scriptSig scriptPubKey : CScript) (witness : List Bytes),
      F &&& G = F → FlagsConsistent F → FlagsConsistent G →
      verifyScript crypto checker G scriptSig scriptPubKey witness = .ok () →
      verifyScript crypto checker F scriptSig scriptPubKey witness = .ok () := by
  intro h
  have hconsistent : ∀ flags : UInt32, hasFlag flags SCRIPT_VERIFY_WITNESS = false →
      hasFlag flags SCRIPT_VERIFY_CLEANSTACK = false → FlagsConsistent flags := by
    intro flags hwitness hclean
    constructor
    · intro hflag
      rw [hwitness] at hflag
      cases hflag
    · intro hflag
      rw [hclean] at hflag
      cases hflag
  have hF := h sampleCrypto sampleChecker SCRIPT_VERIFY_DISCOURAGE_UPGRADABLE_NOPS
    (SCRIPT_VERIFY_DISCOURAGE_UPGRADABLE_NOPS ||| SCRIPT_VERIFY_CHECKLOCKTIMEVERIFY) []
    [OP_1, OP_CHECKLOCKTIMEVERIFY] [] (by decide) (hconsistent _ (by decide) (by decide))
    (hconsistent _ (by decide) (by decide)) (by decide +kernel)
  exact absurd hF (by decide +kernel)

end UnemployCoin
