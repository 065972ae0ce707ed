import UnemployCoin.CheckMultiSig
import UnemployCoin.VerifyScript
/-!
# The bounds of the interpreter

`EvalScript` (`script/interpreter.cpp`) with all its accesses, from the stacks it may start with.
-/

namespace UnemployCoin

open Check

namespace EvalScript

section Eval

variable (crypto : ScriptCrypto) (checker : BaseSignatureChecker) (flags : UInt32)
  (sigversion : SigVersion)

/-- `OP_IF` and `OP_NOTIF`. -/
def ifOp (fNot fExec : Bool) (s : EvalState) : Exec EvalState :=
  if fExec then do
    check (decide (1 ≤ s.stack.length)) .SCRIPT_ERR_UNBALANCED_CONDITIONAL
    let vch ← stacktop s.stack (-1)
    onlyIf (decide (sigversion = .SIGVERSION_WITNESS_V0) && hasFlag flags SCRIPT_VERIFY_MINIMALIF)
      (check (decide (vch.length ≤ 1) && (vch.length != 1 || vch.at 0 == 1))
        .SCRIPT_ERR_MINIMALIF)
    let stack ← popstack s.stack
    return { s with stack := stack, vfExec := (castToBool vch != fNot) :: s.vfExec }
  else .ok { s with vfExec := false :: s.vfExec }

def onStack (s : EvalState) (r : Exec (List Bytes)) : Exec EvalState := do
  let stack ← r
  return { s with stack := stack }

/-- The `switch` of `EvalScript`. -/
def evalOp (fExec : Bool) (opcode : UInt8) (s : EvalState) : Exec EvalState :=
  if opcode = OP_1NEGATE ∨ OP_1 ≤ opcode ∧ opcode ≤ OP_16 then do
    let vch ← getvch (opcode.toNat - 0x50)
    return { s with stack := vch :: s.stack }
  else if opcode = OP_NOP then .ok s
  else if opcode = OP_CHECKLOCKTIMEVERIFY then do
    checkLockTimeVerify checker flags s.stack
    return s
  else if opcode = OP_CHECKSEQUENCEVERIFY then do
    checkSequenceVerify checker flags s.stack
    return s
  else if opcode = OP_NOP1 ∨ OP_NOP4 ≤ opcode ∧ opcode ≤ OP_NOP10 then do
    returns (upgradableNop flags)
    return s
  else if opcode = OP_IF ∨ opcode = OP_NOTIF then
    ifOp flags sigversion (opcode == OP_NOTIF) fExec s
  else if opcode = OP_ELSE then
    match s.vfExec with
    | [] => .error (.set_error .SCRIPT_ERR_UNBALANCED_CONDITIONAL)
    | fValue :: vfExec => .ok { s with vfExec := (!fValue) :: vfExec }
  else if opcode = OP_ENDIF then
    match s.vfExec with
    | [] => .error (.set_error .SCRIPT_ERR_UNBALANCED_CONDITIONAL)
    | _ :: vfExec => .ok { s with vfExec := vfExec }
  else if opcode = OP_VERIFY then do
    sizeCheck s.stack 1
    let vch ← stacktop s.stack (-1)
    check (castToBool vch) .SCRIPT_ERR_VERIFY
    let stack ← popstack s.stack
    return { s with stack := stack }
  else if opcode = OP_RETURN then .error (.set_error .SCRIPT_ERR_OP_RETURN)
  else if opcode = OP_TOALTSTACK then do
    sizeCheck s.stack 1
    let vch ← stacktop s.stack (-1)
    let stack ← popstack s.stack
    return { s with stack := stack, altstack := vch :: s.altstack }
  else if opcode = OP_FROMALTSTACK then do
    check (decide (1 ≤ s.altstack.length)) .SCRIPT_ERR_INVALID_ALTSTACK_OPERATION
    let vch ← stacktop s.altstack (-1)
    let altstack ← popstack s.altstack
    return { s with stack := vch :: s.stack, altstack := altstack }
  else if opcode ∈ stackOpcodes then onStack s (stackOp opcode s.stack)
  else if opcode = OP_PICK ∨ opcode = OP_ROLL then
    onStack s (pickRoll flags (opcode == OP_ROLL) s.stack)
  else if opcode = OP_EQUAL ∨ opcode = OP_EQUALVERIFY then
    onStack s (equalOp (opcode == OP_EQUALVERIFY) s.stack)
  else if opcode ∈ unaryOpcodes then onStack s (unaryOp flags opcode s.stack)
  else if opcode ∈ binaryOpcodes then onStack s (binaryOp flags opcode s.stack)
  else if opcode = OP_WITHIN then onStack s (within flags s.stack)
  else if opcode = OP_RIPEMD160 ∨ opcode = OP_SHA1 ∨ opcode = OP_SHA256 ∨ opcode = OP_HASH160 ∨
      opcode = OP_HASH256 then do
    sizeCheck s.stack 1
    let vch ← stacktop s.stack (-1)
    let stack ← popstack s.stack
    return { s with stack := hashOp crypto opcode vch :: stack }
  else if opcode = OP_CODESEPARATOR then .ok { s with codehash := s.pc }
  else if opcode = OP_CHECKSIG ∨ opcode = OP_CHECKSIGVERIFY then
    onStack s (checkSigOp crypto checker flags sigversion (opcode == OP_CHECKSIGVERIFY) s.codehash
      s.stack)
  else if opcode = OP_CHECKMULTISIG ∨ opcode = OP_CHECKMULTISIGVERIFY then do
    let (stack, nOpCount) ← checkMultiSigOp crypto checker flags sigversion
      (opcode == OP_CHECKMULTISIGVERIFY) s.codehash s.nOpCount s.stack
    return { s with stack := stack, nOpCount := nOpCount }
  else if opcode = OP_UNEMP_ASSET then .ok s
  else .error (.set_error .SCRIPT_ERR_BAD_OPCODE)

/-- A push, an operation, or nothing in a branch that is not taken. -/
def execute (fExec : Bool) (opcode : UInt8) (vchPushValue : Bytes) (s : EvalState) :
    Exec EvalState :=
  if fExec ∧ opcode ≤ OP_PUSHDATA4 then do
    check (!hasFlag flags SCRIPT_VERIFY_MINIMALDATA || checkMinimalPush vchPushValue opcode)
      .SCRIPT_ERR_MINIMALDATA
    return { s with stack := vchPushValue :: s.stack }
  else if fExec ∨ OP_IF ≤ opcode ∧ opcode ≤ OP_ENDIF then
    evalOp crypto checker flags sigversion fExec opcode s
  else .ok s

def evalStep (s : EvalState) : Exec EvalState := do
  let fExec := s.vfExec.all id
  let (opcode, vchPushValue, pc) ← demand s.pc.getOp (.set_error .SCRIPT_ERR_BAD_OPCODE)
  check (decide (vchPushValue.length ≤ MAX_SCRIPT_ELEMENT_SIZE)) .SCRIPT_ERR_PUSH_SIZE
  let nOpCount := if OP_16 < opcode then s.nOpCount + 1 else s.nOpCount
  check (decide (opcode ≤ OP_16) || decide (nOpCount ≤ MAX_OPS_PER_SCRIPT)) .SCRIPT_ERR_OP_COUNT
  check (!disabledOpcodes.contains opcode) .SCRIPT_ERR_DISABLED_OPCODE
  let s ← execute crypto checker flags sigversion fExec opcode vchPushValue
    { s with pc := pc, nOpCount := nOpCount }
  check (decide (s.stack.length + s.altstack.length ≤ MAX_STACK_SIZE)) .SCRIPT_ERR_STACK_SIZE
  return s

/-- The loop.  Each round takes a byte of the script, so that its length is enough rounds. -/
def evalLoop : ℕ → EvalState → Exec EvalState
  | 0, s => if s.pc.isEmpty then .ok s else .error .undefined
  | n + 1, s =>
    if s.pc.isEmpty then .ok s
    else do
      let s ← evalStep crypto checker flags sigversion s
      evalLoop n s

def evalScript (stack : List Bytes) (script : CScript) : Exec (List Bytes) := do
  check (decide (script.length ≤ MAX_SCRIPT_SIZE)) .SCRIPT_ERR_SCRIPT_SIZE
  let s ← evalLoop crypto checker flags sigversion script.length (.start stack script)
  check s.vfExec.isEmpty .SCRIPT_ERR_UNBALANCED_CONDITIONAL
  return s.stack

def afterOps : ℕ → EvalState → Exec EvalState
  | 0, s => .ok s
  | n + 1, s => do
    let s ← evalStep crypto checker flags sigversion s
    afterOps n s

end Eval

structure Bounded (s : EvalState) : Prop where
  stack : Sized s.stack
  altstack : Sized s.altstack
  size : s.stack.length + s.altstack.length ≤ MAX_STACK_SIZE
  ops : s.nOpCount ≤ MAX_OPS_PER_SCRIPT

/-- The hash functions fill the buffers that they are given. -/
structure HashSized (crypto : ScriptCrypto) : Prop where
  ripemd160 : ∀ s, (crypto.RIPEMD160 s).length = 20
  sha1 : ∀ s, (crypto.SHA1 s).length = 20
  sha256 : ∀ s, (crypto.SHA256 s).length = 32

variable {crypto : ScriptCrypto} {checker : BaseSignatureChecker} {flags : UInt32}
  {sigversion : SigVersion} {s s' : EvalState} {opcode : UInt8} {n : ℕ} {stack : List Bytes}
  {vch : Bytes}

/-! ## The round of the interpreter -/

theorem onStack_models {r : Exec (List Bytes)} {v : Eval (List Bytes)} (h : Models r v) :
    Models (onStack s r) (UnemployCoin.onStack s v) := h.bind fun _ _ => Caught.ok _

theorem ifOp_models (fNot fExec : Bool) :
    Models (ifOp flags sigversion fNot fExec s)
    (UnemployCoin.ifOp flags sigversion fNot fExec s) := by
  rw [ifOp, UnemployCoin.ifOp]
  split
  · cases hstack : s.stack with
    | nil => exact ⟨_, rfl, rfl⟩
    | cons vch stack =>
      change Models (onlyIf _ _ >>= _) (onlyIf _ _ >>= _)
      refine Caught.bind ?_ fun _ _ => Caught.ok _
      rw [onlyIf, onlyIf]
      split
      · exact check_models _ _
      · exact Caught.ok ()
  · exact Caught.ok _

theorem evalOp_models (fExec : Bool) (h : Bounded s) :
    Models (evalOp crypto checker flags sigversion fExec opcode s)
      (UnemployCoin.evalOp crypto checker flags sigversion fExec opcode s) := by
  have hsize : s.stack.length ≤ MAX_STACK_SIZE := (Nat.le_add_right _ _).trans h.size
  have hstack : ∀ {r v}, Models r v → Models (onStack s r) (UnemployCoin.onStack s v) :=
    fun h => onStack_models h
  unfold evalOp UnemployCoin.evalOp
  refine .ite (fun _ => ?_) fun _ => .ite (fun _ => Caught.ok s) fun _ => ?_
  · have hlt := opcode.toNat_lt
    rw [getvch_ok (by rw [int64Min]; omega) (by rw [int64Max]; omega)]
    exact Caught.ok _
  refine .ite (fun _ => checkLockTimeVerify_models.bind fun _ _ => Caught.ok s) fun _ => ?_
  refine .ite (fun _ => checkSequenceVerify_models.bind fun _ _ => Caught.ok s) fun _ => ?_
  refine .ite (fun _ => (returns_models _).bind fun _ _ => Caught.ok s) fun _ => ?_
  refine .ite (fun _ => ifOp_models _ _) fun _ => .ite (fun _ => ?_) fun _ => ?_
  · cases s.vfExec with
    | nil => exact ⟨_, rfl, rfl⟩
    | cons fValue vfExec => exact Caught.ok _
  refine .ite (fun _ => ?_) fun _ => .ite (fun _ => ?_) fun _ => ?_
  · cases s.vfExec with
    | nil => exact ⟨_, rfl, rfl⟩
    | cons fValue vfExec => exact Caught.ok _
  · refine sizeCheck_one fun vch stack hs => ?_
    rw [hs]
    exact (check_models _ _).bind fun _ _ => Caught.ok _
  refine .ite (fun _ => ⟨_, rfl, rfl⟩) fun _ => .ite (fun _ => ?_) fun _ => ?_
  · refine sizeCheck_one fun vch stack hs => ?_
    rw [hs]
    exact Caught.ok _
  refine .ite (fun _ => ?_) fun _ => ?_
  · cases s.altstack with
    | nil => exact ⟨_, rfl, rfl⟩
    | cons vch altstack => exact Caught.ok _
  refine .ite (fun hop => hstack (stackOp_models hop hsize h.stack)) fun _ => ?_
  refine .ite (fun _ => hstack (pickRoll_models _ hsize)) fun _ => ?_
  refine .ite (fun _ => hstack (equalOp_models _)) fun _ => ?_
  refine .ite (fun _ => hstack unaryOp_models) fun _ => ?_
  refine .ite (fun _ => hstack binaryOp_models) fun _ => ?_
  refine .ite (fun _ => hstack within_models) fun _ => .ite (fun _ => ?_) fun _ => ?_
  · refine sizeCheck_one fun vch stack hs => ?_
    rw [hs]
    exact Caught.ok _
  refine .ite (fun _ => Caught.ok _) fun _ => ?_
  refine .ite (fun _ => hstack (checkSigOp_models _ _)) fun _ => ?_
  refine .ite (fun _ => (checkMultiSigOp_models _ _).bind fun _ _ => Caught.ok _) fun _ => ?_
  exact .ite (fun _ => Caught.ok s) fun _ => ⟨_, rfl, rfl⟩

theorem execute_models (fExec : Bool) (vchPushValue : Bytes) (h : Bounded s) :
    Models (execute crypto checker flags sigversion fExec opcode vchPushValue s)
      (UnemployCoin.execute crypto checker flags sigversion fExec opcode vchPushValue s) :=
  .ite (fun _ => (check_models _ _).bind fun _ _ => Caught.ok _) fun _ =>
    .ite (fun _ => evalOp_models fExec h) fun _ => Caught.ok s

theorem Bounded.counted {pc : CScript} {nOpCount : ℕ} (h : Bounded s)
    (hn : nOpCount = if OP_16 < opcode then s.nOpCount + 1 else s.nOpCount)
    (hops : (decide (opcode ≤ OP_16) || decide (nOpCount ≤ MAX_OPS_PER_SCRIPT)) = true) :
    Bounded { s with pc := pc, nOpCount := nOpCount } := by
  refine ⟨h.stack, h.altstack, h.size, ?_⟩
  rw [Bool.or_eq_true, decide_eq_true_eq, decide_eq_true_eq] at hops
  obtain hop | hops := hops
  · rw [if_neg (UInt8.not_lt.2 hop)] at hn
    rw [hn]
    exact h.ops
  · exact hops

/-- **A round is the one of the interpreter.** -/
theorem evalStep_models (h : Bounded s) :
    Models (evalStep crypto checker flags sigversion s)
      (UnemployCoin.evalStep crypto checker flags sigversion s) := by
  rw [evalStep, UnemployCoin.evalStep]
  dsimp only
  cases hop : s.pc.getOp with
  | none => exact ⟨_, rfl, rfl⟩
  | some op =>
    obtain ⟨opcode, vchPushValue, pc⟩ := op
    refine (check_models _ _).bind fun _ _ => (check_models _ _).bind fun _ hops =>
      (check_models _ _).bind fun _ _ => Caught.bind ?_ fun s' _ =>
      (check_models _ _).bind fun _ _ => Caught.ok s'
    rw [check, require_ok] at hops
    exact execute_models _ _ (h.counted rfl hops)

/-! ## What a round keeps -/

@[simp] theorem sized_nil : Sized [] := fun _ h => nomatch h

@[simp] theorem sized_cons :
    Sized (vch :: stack) ↔ vch.length ≤ MAX_SCRIPT_ELEMENT_SIZE ∧ Sized stack :=
  List.forall_mem_cons

theorem Sized.subset {stack' : List Bytes} (h : Sized stack) (hsub : stack' ⊆ stack) :
    Sized stack' := fun vch hmem => h vch (hsub hmem)

theorem length_serializeScriptNum (value : ℤ) :
    (serializeScriptNum value).length ≤ MAX_SCRIPT_ELEMENT_SIZE := by
  have hlength := length_absBytes 8 value.natAbs
  have hmax : MAX_SCRIPT_ELEMENT_SIZE = 520 := rfl
  rw [serializeScriptNum]
  split
  · exact Nat.zero_le _
  · split
    · rw [List.length_append, List.length_singleton]
      omega
    · split
      · rw [List.length_append, List.length_singleton, List.length_dropLast]
        omega
      · omega

theorem length_ofBool (b : Bool) : (ofBool b).length ≤ MAX_SCRIPT_ELEMENT_SIZE := by
  cases b <;> decide

theorem length_hashOp (hcrypto : HashSized crypto) :
    (hashOp crypto opcode vch).length ≤ MAX_SCRIPT_ELEMENT_SIZE := by
  have hmax : MAX_SCRIPT_ELEMENT_SIZE = 520 := rfl
  unfold hashOp ScriptCrypto.Hash160 ScriptCrypto.Hash256
  split
  · rw [hcrypto.ripemd160]; omega
  · split
    · rw [hcrypto.sha1]; omega
    · split
      · rw [hcrypto.sha256]; omega
      · split
        · rw [hcrypto.ripemd160]; omega
        · rw [hcrypto.sha256]; omega

theorem take1_sized (h : Sized stack) : Ensures (take1 stack) fun p =>
    p.1.length ≤ MAX_SCRIPT_ELEMENT_SIZE ∧ Sized p.2 := by
  match stack with
  | [] => exact .error _ _
  | vch :: stack => exact .ok (sized_cons.1 h)

theorem take2_sized (h : Sized stack) : Ensures (take2 stack) fun p => Sized p.2.2 := by
  match stack with
  | [] | [_] => exact .error _ _
  | vch2 :: vch1 :: stack => exact .ok (sized_cons.1 (sized_cons.1 h).2).2

theorem take3_sized (h : Sized stack) : Ensures (take3 stack) fun p => Sized p.2.2.2 := by
  match stack with
  | [] | [_] | [_, _] => exact .error _ _
  | vch3 :: vch2 :: vch1 :: stack => exact .ok (sized_cons.1 (sized_cons.1 (sized_cons.1 h).2).2).2

theorem ite_sized {c : Prop} [Decidable c] {o o' : Option (List Bytes)}
    (h : ∀ stack', o = some stack' → Sized stack')
    (h' : ∀ stack', o' = some stack' → Sized stack') :
    ∀ stack', (if c then o else o') = some stack' → Sized stack' := by
  split
  · exact h
  · exact h'

theorem stackOp_sized (h : Sized stack) :
    ∀ stack', UnemployCoin.stackOp opcode stack = some stack' → Sized stack' := by
  have hsize := length_serializeScriptNum
  unfold UnemployCoin.stackOp
  repeat' with_reducible refine ite_sized ?_ ?_
  all_goals
    intro stack' hstack
    try split at hstack
    all_goals
      cases hstack
      try split
      all_goals
        simp only [sized_cons, hsize] at h ⊢
        tauto

theorem pickRoll_sized (fRoll : Bool) (h : Sized stack) :
    Ensures (UnemployCoin.pickRoll flags fRoll stack) Sized := by
  refine .bind fun _ => .bind_of (take1_sized h) fun p hp => .bind fun n => .bind fun _ => .ok ?_
  rw [sized_cons]
  constructor
  · rw [List.getD_eq_getElem?_getD]
    cases hget : p.2[n.toNat]? with
    | none => exact Nat.zero_le _
    | some vch => exact hp.2 vch (List.mem_of_getElem? hget)
  · split
    · exact hp.2.subset List.eraseIdx_subset
    · exact hp.2

theorem unaryOp_sized (h : Sized stack) :
    Ensures (UnemployCoin.unaryOp flags opcode stack) Sized :=
  .bind_of (take1_sized h) fun _ hp => .bind fun _ =>
    .ok (sized_cons.2 ⟨length_serializeScriptNum _, hp.2⟩)

theorem binaryOp_sized (h : Sized stack) :
    Ensures (UnemployCoin.binaryOp flags opcode stack) Sized :=
  .bind_of (take2_sized h) fun _ hp => .bind fun _ => .bind fun _ =>
    .ite (.bind fun _ => .ok hp) (.ok (sized_cons.2 ⟨length_serializeScriptNum _, hp⟩))

theorem within_sized (h : Sized stack) : Ensures (UnemployCoin.within flags stack) Sized :=
  .bind_of (take3_sized h) fun _ hp => .bind fun _ => .bind fun _ => .bind fun _ =>
    .ok (sized_cons.2 ⟨length_ofBool _, hp⟩)

theorem equalOp_sized (fVerify : Bool) (h : Sized stack) :
    Ensures (UnemployCoin.equalOp fVerify stack) Sized :=
  .bind_of (take2_sized h) fun _ hp =>
    .ite (.bind fun _ => .ok hp) (.ok (sized_cons.2 ⟨length_ofBool _, hp⟩))

theorem checkSigOp_sized (fVerify : Bool) (codehash : CScript) (h : Sized stack) :
    Ensures (UnemployCoin.checkSigOp crypto checker flags sigversion fVerify codehash stack)
      Sized :=
  .bind_of (take2_sized h) fun _ hp => .bind fun _ => .bind fun _ =>
    .ite (.bind fun _ => .ok hp) (.ok (sized_cons.2 ⟨length_ofBool _, hp⟩))

theorem checkMultiSigOp_sized (fVerify : Bool) (codehash : CScript) (nOpCount : ℕ)
    (h : Sized stack) :
    Ensures (UnemployCoin.checkMultiSigOp crypto checker flags sigversion fVerify codehash nOpCount
      stack) fun p => Sized p.1 ∧ p.2 ≤ MAX_OPS_PER_SCRIPT := by
  have hdrop : ∀ {stack : List Bytes} (n : ℕ), Sized stack → Sized (stack.drop n) :=
    fun n h => h.subset (List.drop_subset n _)
  refine .bind_of (take1_sized h) fun p hp => .bind fun nKeysCount => .bind fun _ =>
    .bind_of (.require _ _) fun _ hops => .bind fun _ => ?_
  rw [decide_eq_true_eq] at hops
  refine .bind_of (take1_sized (hdrop _ hp.2)) fun q hq => .bind fun nSigsCount => .bind fun _ =>
    .bind fun _ => .bind fun fSuccess => .bind fun _ => ?_
  refine .bind_of (take1_sized (hdrop _ hq.2)) fun r hr => .bind fun _ => .ite ?_ ?_
  · exact .bind fun _ => .ok ⟨hr.2, hops⟩
  · exact .ok ⟨sized_cons.2 ⟨length_ofBool _, hr.2⟩, hops⟩

/-- What an operation keeps.  The number of entries is looked at after it. -/
def Kept (s : EvalState) : Prop :=
  Sized s.stack ∧ Sized s.altstack ∧ s.nOpCount ≤ MAX_OPS_PER_SCRIPT

theorem onStack_kept {v : Eval (List Bytes)} (h : Kept s) (hv : Ensures v Sized) :
    Ensures (UnemployCoin.onStack s v) Kept :=
  .bind_of hv fun _ hstack => .ok ⟨hstack, h.2⟩

theorem ifOp_kept (fNot fExec : Bool) (h : Kept s) :
    Ensures (UnemployCoin.ifOp flags sigversion fNot fExec s) Kept :=
  .ite (.bind fun _ => .bind fun _ => .ok ⟨h.1.subset fun _ => List.mem_of_mem_tail, h.2⟩) (.ok h)

theorem evalOp_kept (fExec : Bool) (hcrypto : HashSized crypto) (h : Kept s) :
    Ensures (UnemployCoin.evalOp crypto checker flags sigversion fExec opcode s) Kept := by
  have hstack : ∀ {v}, Ensures v Sized → Ensures (UnemployCoin.onStack s v) Kept :=
    fun hv => onStack_kept h hv
  unfold UnemployCoin.evalOp
  refine .ite (.ok ⟨sized_cons.2 ⟨length_serializeScriptNum _, h.1⟩, h.2⟩) (.ite (.ok h) ?_)
  refine .ite (.bind fun _ => .ok h) (.ite (.bind fun _ => .ok h) (.ite (.bind fun _ => .ok h) ?_))
  refine .ite (ifOp_kept _ _ h) (.ite ?_ (.ite ?_ (.ite ?_ (.ite (.error _ _) (.ite ?_
    (.ite ?_ ?_))))))
  · split
    · exact .error _ _
    · exact .ok h
  · split
    · exact .error _ _
    · exact .ok h
  · exact .bind_of (take1_sized h.1) fun _ hp => .bind fun _ => .ok ⟨hp.2, h.2⟩
  · exact .bind_of (take1_sized h.1) fun _ hp => .ok ⟨hp.2, sized_cons.2 ⟨hp.1, h.2.1⟩, h.2.2⟩
  · cases halt : s.altstack with
    | nil => exact .error _ _
    | cons vch altstack =>
      have hsized := h.2.1
      rw [halt, sized_cons] at hsized
      exact .ok ⟨sized_cons.2 ⟨hsized.1, h.1⟩, hsized.2, h.2.2⟩
  refine .ite (hstack fun _ hs => stackOp_sized h.1 _ (demand_ok.1 hs)) ?_
  refine .ite (hstack (pickRoll_sized _ h.1)) (.ite (hstack (equalOp_sized _ h.1)) ?_)
  refine .ite (hstack (unaryOp_sized h.1)) (.ite (hstack (binaryOp_sized h.1)) ?_)
  refine .ite (hstack (within_sized h.1)) (.ite ?_ (.ite (.ok h) ?_))
  · exact .bind_of (take1_sized h.1) fun _ hp =>
      .ok ⟨sized_cons.2 ⟨length_hashOp hcrypto, hp.2⟩, h.2⟩
  refine .ite (hstack (checkSigOp_sized _ _ h.1)) (.ite ?_ (.ite (.ok h) (.error _ _)))
  exact .bind_of (checkMultiSigOp_sized _ _ _ h.1) fun _ hp => .ok ⟨hp.1, h.2.1, hp.2⟩

theorem execute_kept (fExec : Bool) {vchPushValue : Bytes} (hcrypto : HashSized crypto)
    (hpush : vchPushValue.length ≤ MAX_SCRIPT_ELEMENT_SIZE) (h : Kept s) :
    Ensures (UnemployCoin.execute crypto checker flags sigversion fExec opcode vchPushValue s)
      Kept :=
  .ite (.bind fun _ => .ok ⟨sized_cons.2 ⟨hpush, h.1⟩, h.2⟩)
    (.ite (evalOp_kept fExec hcrypto h) (.ok h))

/-- **A round keeps the bounds.** -/
theorem Bounded.evalStep (hcrypto : HashSized crypto) (h : Bounded s) :
    Ensures (UnemployCoin.evalStep crypto checker flags sigversion s) Bounded := by
  intro t ht
  obtain ⟨⟨opcode, vchPushValue, pc⟩, -, ht⟩ := demand_bind.1 ht
  simp only [require_bind] at ht
  obtain ⟨hpush, hops, -, ht⟩ := ht
  obtain ⟨s', hs', ht⟩ := bind_ok.1 ht
  obtain ⟨hsize, ht⟩ := require_bind.1 ht
  cases ht
  have hcounted := @Bounded.counted s opcode pc _ h rfl hops
  obtain ⟨hstack, haltstack, hcount⟩ := execute_kept _ hcrypto (of_decide_eq_true hpush)
    ⟨hcounted.stack, hcounted.altstack, hcounted.ops⟩ _ hs'
  exact ⟨hstack, haltstack, of_decide_eq_true hsize, hcount⟩

/-! ## Runs -/

theorem Bounded.afterOps (hcrypto : HashSized crypto) (h : Bounded s)
    (hs : EvalScript.afterOps crypto checker flags sigversion n s = .ok s') : Bounded s' := by
  induction n generalizing s with
  | zero =>
    cases hs
    exact h
  | succ n ih =>
    obtain ⟨t, ht, hs⟩ := bind_ok.1 hs
    exact ih (h.evalStep hcrypto t ((evalStep_models h).ok_iff.1 ht)) hs

theorem evalLoop_models (hcrypto : HashSized crypto) (h : Bounded s) (hn : s.pc.length ≤ n) :
    Models (evalLoop crypto checker flags sigversion n s)
      (UnemployCoin.evalLoop crypto checker flags sigversion n s) := by
  induction n generalizing s with
  | zero =>
    have hpc : s.pc.isEmpty = true := by
      rw [List.isEmpty_iff, ← List.length_eq_zero_iff]
      omega
    rw [evalLoop, UnemployCoin.evalLoop, if_pos hpc, if_pos hpc]
    exact Caught.ok s
  | succ n ih =>
    rw [evalLoop, UnemployCoin.evalLoop]
    refine .ite (fun _ => Caught.ok s) fun _ => (evalStep_models h).bind fun t ht => ?_
    have hstep := (evalStep_models h).ok_iff.1 ht
    have hlt := length_pc_evalStep hstep
    exact ih (h.evalStep hcrypto t hstep) (by omega)

theorem Bounded.start (hsize : stack.length ≤ MAX_STACK_SIZE) (hsized : Sized stack)
    (script : CScript) : Bounded (.start stack script) :=
  ⟨hsized, sized_nil, hsize, Nat.zero_le _⟩

theorem evalScript_models (hcrypto : HashSized crypto) (hsize : stack.length ≤ MAX_STACK_SIZE)
    (hsized : Sized stack) (script : CScript) :
    Models (evalScript crypto checker flags sigversion stack script)
      (UnemployCoin.evalScript crypto checker flags sigversion stack script) :=
  (check_models _ _).bind fun _ _ =>
    (evalLoop_models hcrypto (.start hsize hsized script) le_rfl).bind fun _ _ =>
      (check_models _ _).bind fun _ _ => Caught.ok _

/-- `return set_error(..)` or a `scriptnum_error`. -/
def Thrown.Meant (t : Thrown) : Prop := t = .scriptnum_error ∨ ∃ serror, t = .set_error serror

theorem meant_of_models {α : Type} {r : Exec α} {v : Eval α} {t : Thrown} (h : Models r v)
    (ht : r = .error t) : Thrown.Meant t := by
  obtain ⟨e, he⟩ := h.expected_some ht
  cases t with
  | set_error serror => exact .inr ⟨serror, rfl⟩
  | scriptnum_error => exact .inl rfl
  | _ => cases he

/-- **The interpreter stays in bounds.**  From a stack within the bounds no access is out of range,
no assertion fails and no number leaves 64 bits: what ends a run early is `set_error` or
`scriptnum_error`.  After any number of operations the stacks and the count are within bounds. -/
theorem evalScript_bounded (hcrypto : HashSized crypto) (hsize : stack.length ≤ MAX_STACK_SIZE)
    (hsized : Sized stack) (script : CScript) :
    (∀ t, evalScript crypto checker flags sigversion stack script = .error t → Thrown.Meant t) ∧
    (∀ stack', evalScript crypto checker flags sigversion stack script = .ok stack' ↔
      UnemployCoin.evalScript crypto checker flags sigversion stack script = .ok stack') ∧
    ∀ n s, afterOps crypto checker flags sigversion n (.start stack script) = .ok s →
      Bounded s ∧ ∀ t, evalStep crypto checker flags sigversion s = .error t → Thrown.Meant t := by
  have hmodels := @evalScript_models crypto checker flags sigversion stack hcrypto hsize hsized
    script
  refine ⟨fun t ht => meant_of_models hmodels ht, fun stack' => hmodels.ok_iff, fun n s hs => ?_⟩
  have hbounded := (Bounded.start hsize hsized script).afterOps hcrypto hs
  exact ⟨hbounded, fun t ht => meant_of_models (evalStep_models hbounded) ht⟩

/-- Two numbers are added, and the sum is compared with what the script pushes. -/
theorem evalScript_bounded_add :
    afterOps ⟨fun _ => List.replicate 20 0, fun _ => List.replicate 20 0,
        fun _ => List.replicate 32 0, fun _ => true⟩ ⟨fun _ _ _ _ => true, fun _ => true,
        fun _ => true⟩ SCRIPT_VERIFY_MINIMALDATA .SIGVERSION_BASE 3
        (.start [[2], [3]] [OP_ADD, 0x55, OP_NUMEQUAL]) =
      .ok ⟨[[1]], [], [], [], [OP_ADD, 0x55, OP_NUMEQUAL], 2⟩ ∧
    Bounded ⟨[[1]], [], [], [], [OP_ADD, 0x55, OP_NUMEQUAL], 2⟩ := by
  have hsized : Sized [[2], [3]] := by
    rw [sized_cons, sized_cons]
    exact ⟨by decide, by decide, sized_nil⟩
  refine (and_iff_left_of_imp fun hrun => ?_).2 rfl
  exact ((evalScript_bounded ⟨fun _ => List.length_replicate, fun _ => List.length_replicate,
    fun _ => List.length_replicate⟩ (by decide) hsized _).2.2 3 _ hrun).1

end EvalScript

end UnemployCoin
