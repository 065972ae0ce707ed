import UnemployCoin.Interpreter
import UnemployCoin.Lib.Restricts
/-!
# Spending an output

`VerifyScript` (`script/interpreter.cpp`): the script of the input, the script of the output, and
then the script in the input or in the witness that the output stands for.
-/

namespace UnemployCoin

open Check

section Verify

variable (crypto : ScriptCrypto) (checker : BaseSignatureChecker) (flags : UInt32)

/-- The end of the evaluation of a script: the top of the stack is true. -/
def requireTrue (stack : List Bytes) : Eval Unit :=
  require (match stack with
    | [] => false
    | vch :: _ => castToBool vch) .SCRIPT_ERR_EVAL_FALSE

/-- The script of a version 0 witness program, and the stack it starts with. -/
def witnessScript (witness : List Bytes) (program : Bytes) : Eval (CScript × List Bytes) :=
  if program.length = 32 then
    match witness.getLast? with
    | none => .error .SCRIPT_ERR_WITNESS_PROGRAM_WITNESS_EMPTY
    | some scriptPubKey => do
      require (crypto.SHA256 scriptPubKey == program) .SCRIPT_ERR_WITNESS_PROGRAM_MISMATCH
      return (scriptPubKey, witness.dropLast.reverse)
  else if program.length = 20 then do
    require (witness.length == 2) .SCRIPT_ERR_WITNESS_PROGRAM_MISMATCH
    return ([OP_DUP, OP_HASH160] ++ CScript.pushData program ++ [OP_EQUALVERIFY, OP_CHECKSIG],
      witness.reverse)
  else .error .SCRIPT_ERR_WITNESS_PROGRAM_WRONG_LENGTH

/-- `VerifyWitnessProgram`.  A version that is not known yet succeeds. -/
def verifyWitnessProgram (witness : List Bytes) (witversion : ℕ) (program : Bytes) : Eval Unit :=
  if witversion = 0 then do
    let (scriptPubKey, stack) ← witnessScript crypto witness program
    require (stack.all fun vch => decide (vch.length ≤ MAX_SCRIPT_ELEMENT_SIZE))
      .SCRIPT_ERR_PUSH_SIZE
    let stack ← evalScript crypto checker flags .SIGVERSION_WITNESS_V0 stack scriptPubKey
    require (stack.length == 1) .SCRIPT_ERR_EVAL_FALSE
    requireTrue stack
  else
    require (!hasFlag flags SCRIPT_VERIFY_DISCOURAGE_UPGRADABLE_WITNESS_PROGRAM)
      .SCRIPT_ERR_DISCOURAGE_UPGRADABLE_WITNESS_PROGRAM

/-- What the two evaluations leave for the checks at the end: the stack, and whether there was a
witness program. -/
abbrev VerifyState := List Bytes × Bool

/-- A witness program, in the script of the output or in the script it stands for.  The input has
to be exactly `scriptSig`. -/
def verifyWitness (witness : List Bytes) (script : CScript) (fExact : Bool)
    (malleated : ScriptError) (s : VerifyState) : Eval VerifyState :=
  if hasFlag flags SCRIPT_VERIFY_WITNESS then
    match script.isWitnessProgram with
    | none => .ok s
    | some (witnessversion, witnessprogram) => do
      require fExact malleated
      verifyWitnessProgram crypto checker flags witness witnessversion witnessprogram
      -- `stack.resize(1)`: the entry at the bottom
      return (s.1.drop (s.1.length - 1), true)
  else .ok s

/-- The script that a script hash stands for, which is on top of the stack that the script of the
input leaves. -/
def verifyScriptHash (scriptSig : CScript) (witness : List Bytes) (stackCopy : List Bytes)
    (hadWitness : Bool) : Eval VerifyState := do
  require scriptSig.isPushOnly .SCRIPT_ERR_SIG_PUSHONLY
  match stackCopy with
  | [] => .error .assertion
  | pubKey2 :: stack => do
    let stack ← evalScript crypto checker flags .SIGVERSION_BASE stack pubKey2
    requireTrue stack
    verifyWitness crypto checker flags witness pubKey2 (scriptSig == CScript.pushData pubKey2)
      .SCRIPT_ERR_WITNESS_MALLEATED_P2SH (stack, hadWitness)

def verifyPayToScriptHash (scriptSig scriptPubKey : CScript) (witness stackCopy : List Bytes)
    (s : VerifyState) : Eval VerifyState :=
  if hasFlag flags SCRIPT_VERIFY_P2SH && scriptPubKey.isPayToScriptHash then
    verifyScriptHash crypto checker flags scriptSig witness stackCopy s.2
  else .ok s

/-- The checks at the end, on what is left of the stack and on a witness that nothing asked for. -/
def verifyEnd (witness : List Bytes) (s : VerifyState) : Eval Unit := do
  onlyIf (hasFlag flags SCRIPT_VERIFY_CLEANSTACK) do
    require (hasFlag flags SCRIPT_VERIFY_P2SH && hasFlag flags SCRIPT_VERIFY_WITNESS) .assertion
    require (s.1.length == 1) .SCRIPT_ERR_CLEANSTACK
  onlyIf (hasFlag flags SCRIPT_VERIFY_WITNESS) do
    require (hasFlag flags SCRIPT_VERIFY_P2SH) .assertion
    require (s.2 || witness.isEmpty) .SCRIPT_ERR_WITNESS_UNEXPECTED

def verifyScript (scriptSig scriptPubKey : CScript) (witness : List Bytes) : Eval Unit := do
  onlyIf (hasFlag flags SCRIPT_VERIFY_SIGPUSHONLY)
    (require scriptSig.isPushOnly .SCRIPT_ERR_SIG_PUSHONLY)
  let stackCopy ← evalScript crypto checker flags .SIGVERSION_BASE [] scriptSig
  let stack ← evalScript crypto checker flags .SIGVERSION_BASE stackCopy scriptPubKey
  requireTrue stack
  let s ← verifyWitness crypto checker flags witness scriptPubKey scriptSig.isEmpty
    .SCRIPT_ERR_WITNESS_MALLEATED (stack, false)
  let s ← verifyPayToScriptHash crypto checker flags scriptSig scriptPubKey witness stackCopy s
  verifyEnd flags witness s

end Verify

/-! ## The bound on the rounds -/

section Rounds

variable {crypto : ScriptCrypto} {checker : BaseSignatureChecker} {flags : UInt32}
  {sigversion : SigVersion}

theorem CScript.length_getOp {s rest : CScript} {opcode : UInt8} {data : Bytes}
    (h : s.getOp = some (opcode, data, rest)) : rest.length < s.length := by
  cases s with
  | nil => cases h
  | cons op s =>
    rw [CScript.getOp] at h
    rw [List.length_cons]
    split at h
    · split at h
      · cases h
      · dsimp only at h
        split at h
        · cases h
        · simp only [Option.some.injEq, Prod.mk.injEq] at h
          obtain ⟨-, -, rfl⟩ := h
          simp only [List.length_drop]
          omega
    · split at h
      · cases h
        exact Nat.succ_pos _
      · cases h
        exact Nat.lt_succ_self _

theorem pc_evalOp (fExec : Bool) (opcode : UInt8) (s : EvalState) :
    Ensures (evalOp crypto checker flags sigversion fExec opcode s) fun s' => s'.pc = s.pc := by
  have hstack : ∀ r, Ensures (onStack s r) fun s' => s'.pc = s.pc :=
    fun r => .bind fun _ => .ok rfl
  have hif : ∀ fNot, Ensures (ifOp flags sigversion fNot fExec s) fun s' => s'.pc = s.pc :=
    fun fNot => .ite (.bind fun _ => .bind fun _ => .ok rfl) (.ok rfl)
  unfold evalOp
  repeat' with_reducible refine .ite ?_ ?_
  all_goals first
    | exact hstack _
    | exact hif _
    | exact .ok rfl
    | exact .error _ _
    | exact .bind fun _ => .ok rfl
    | exact .bind fun _ => .bind fun _ => .ok rfl
    | split
      · exact .error _ _
      · exact .ok rfl

theorem pc_execute (fExec : Bool) (opcode : UInt8) (vchPushValue : Bytes) (s : EvalState) :
    Ensures (execute crypto checker flags sigversion fExec opcode vchPushValue s)
      fun s' => s'.pc = s.pc :=
  .ite (.bind fun _ => .ok rfl) (.ite (pc_evalOp fExec opcode s) (.ok rfl))

theorem length_pc_evalStep {s s' : EvalState}
    (h : evalStep crypto checker flags sigversion s = .ok s') : s'.pc.length < s.pc.length := by
  unfold evalStep at h
  obtain ⟨⟨opcode, data, pc⟩, hop, h⟩ := demand_bind.1 h
  simp only [require_bind] at h
  obtain ⟨-, -, -, h⟩ := h
  obtain ⟨t, ht, h⟩ := bind_ok.1 h
  obtain ⟨-, h⟩ := require_bind.1 h
  cases h
  rw [pc_execute _ _ _ _ _ ht]
  exact CScript.length_getOp hop

/-- **The length of the script is enough rounds.** -/
theorem evalLoop_eq {n : ℕ} {s : EvalState} (h : s.pc.length ≤ n) :
    evalLoop crypto checker flags sigversion n s =
      evalLoop crypto checker flags sigversion s.pc.length s := by
  induction n using Nat.strongRecOn generalizing s with
  | ind n ih =>
    cases n with
    | zero => rw [Nat.le_zero.1 h]
    | succ n =>
      cases hpc : s.pc with
      | nil =>
        unfold evalLoop
        simp [hpc]
      | cons b rest =>
        rw [List.length_cons]
        unfold evalLoop
        rw [hpc]
        show (if false = true then _ else _) = if false = true then _ else _
        rw [if_neg Bool.false_ne_true, if_neg Bool.false_ne_true]
        cases hstep : evalStep crypto checker flags sigversion s with
        | error e => rfl
        | ok s' =>
          have hlt := length_pc_evalStep hstep
          rw [hpc, List.length_cons] at hlt h
          show evalLoop crypto checker flags sigversion n s' =
            evalLoop crypto checker flags sigversion rest.length s'
          rw [ih n (Nat.lt_succ_self n) (by omega)]
          by_cases hrest : rest.length < n + 1
          · rw [ih rest.length hrest (by omega)]
          · omega

end Rounds

end UnemployCoin
