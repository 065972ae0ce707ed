import UnemployCoin.Interpreter
import UnemployCoin.TransactionFormat
import UnemployCoin.Lib.Caught
/-!
# The interpreter with its accesses

The operations of `EvalScript` (`script/interpreter.cpp`) with every access to a stack that they
make, and `CScriptNum` (`script/script.h`) with its assertions: `stacktop` throws beyond the stack,
`popstack` on an empty one, an iterator beyond the stack and a sum beyond 64 bits are undefined.

The operations of the interpreter are what these are `Caught` as: only `scriptnum_error` is ever
thrown.
-/

namespace UnemployCoin

open Check

/-- What ends an operation of `EvalScript`. -/
inductive Thrown where
  /-- `return set_error(serror, ..)`. -/
  | set_error (serror : ScriptError)
  | scriptnum_error
  | out_of_range
  /-- `popstack(): stack empty`. -/
  | runtime_error
  | assertion
  | undefined
  deriving DecidableEq, Repr

namespace Thrown

/-- What `EvalScript` returns with.  Nothing but a `scriptnum_error` is to reach `catch (...)`. -/
def expected : Thrown → Option ScriptError
  | set_error serror => some serror
  | scriptnum_error => some .SCRIPT_ERR_UNKNOWN_ERROR
  | _ => none

end Thrown

namespace EvalScript

abbrev Exec := Except Thrown

/-- A test of `EvalScript` itself. -/
def check (c : Bool) (serror : ScriptError) : Exec Unit := require c (.set_error serror)

/-- What is called returns false, with `serror` set. -/
def returns {α : Type} (v : Eval α) : Exec α := v.mapError .set_error

/-! ## Accesses -/

/-- `stacktop(i)` is `stack.at(stack.size() + i)`. -/
def stacktop (stack : List Bytes) (i : ℤ) : Exec Bytes :=
  demand (if i < 0 then stack[(-i - 1).toNat]? else none) .out_of_range

def popstack : List Bytes → Exec (List Bytes)
  | [] => .error .runtime_error
  | _ :: stack => .ok stack

/-- `if (stack.size() < n) return set_error(..)`. -/
def sizeCheck (stack : List Bytes) (n : ℕ) : Exec Unit :=
  check (decide (n ≤ stack.length)) .SCRIPT_ERR_INVALID_STACK_OPERATION

/-- `swap(stacktop(i), stacktop(j))`. -/
def swapTop (stack : List Bytes) (i j : ℤ) : Exec (List Bytes) := do
  let vch1 ← stacktop stack i
  let vch2 ← stacktop stack j
  return (stack.set (-i - 1).toNat vch2).set (-j - 1).toNat vch1

/-- `stack.erase(stack.end() - i, stack.end() - j)`. -/
def eraseTop (stack : List Bytes) (i j : ℕ) : Exec (List Bytes) := do
  require (decide (i ≤ stack.length) && decide (j ≤ i)) .undefined
  return stack.take j ++ stack.drop i

/-- `stack.insert(stack.end() - i, vch)`. -/
def insertTop (stack : List Bytes) (i : ℕ) (vch : Bytes) : Exec (List Bytes) := do
  require (decide (i ≤ stack.length)) .undefined
  return stack.take i ++ vch :: stack.drop i

/-! ## `CScriptNum` -/

def int64Min : ℤ := -2 ^ 63
def int64Max : ℤ := 2 ^ 63 - 1

/-- The result of an operation on `int64_t`. -/
def int64 (value : ℤ) : Exec ℤ := do
  require (decide (int64Min ≤ value) && decide (value ≤ int64Max)) .undefined
  return value

def cScriptNum (flags : UInt32) (nMaxNumSize : ℕ) (vch : Bytes) : Exec ℤ := do
  require (decide (vch.length ≤ nMaxNumSize)) .scriptnum_error
  require (!hasFlag flags SCRIPT_VERIFY_MINIMALDATA || isMinimalNum vch) .scriptnum_error
  int64 (setVch vch)

/-- `operator+=`. -/
def plusAssign (m_value rhs : ℤ) : Exec ℤ := do
  require (rhs == 0 || decide (0 < rhs) && decide (m_value ≤ int64Max - rhs) ||
    decide (rhs < 0) && decide (int64Min - rhs ≤ m_value)) .assertion
  int64 (m_value + rhs)

/-- `operator-=`. -/
def minusAssign (m_value rhs : ℤ) : Exec ℤ := do
  require (rhs == 0 || decide (0 < rhs) && decide (int64Min + rhs ≤ m_value) ||
    decide (rhs < 0) && decide (m_value ≤ int64Max + rhs)) .assertion
  int64 (m_value - rhs)

/-- `operator-()`. -/
def negate (m_value : ℤ) : Exec ℤ := do
  require (m_value != int64Min) .assertion
  int64 (-m_value)

def getint (m_value : ℤ) : ℤ := max (-2 ^ 31) (min m_value (2 ^ 31 - 1))

/-- `getvch`, which takes the absolute value. -/
def getvch (m_value : ℤ) : Exec Bytes := do
  let _ ← int64 (-m_value)
  return serializeScriptNum m_value

def stackOp (opcode : UInt8) (stack : List Bytes) : Exec (List Bytes) :=
  if opcode = OP_2DROP then do
    sizeCheck stack 2
    let stack ← popstack stack
    popstack stack
  else if opcode = OP_2DUP then do
    sizeCheck stack 2
    let vch1 ← stacktop stack (-2)
    let vch2 ← stacktop stack (-1)
    return vch2 :: vch1 :: stack
  else if opcode = OP_3DUP then do
    sizeCheck stack 3
    let vch1 ← stacktop stack (-3)
    let vch2 ← stacktop stack (-2)
    let vch3 ← stacktop stack (-1)
    return vch3 :: vch2 :: vch1 :: stack
  else if opcode = OP_2OVER then do
    sizeCheck stack 4
    let vch1 ← stacktop stack (-4)
    let vch2 ← stacktop stack (-3)
    return vch2 :: vch1 :: stack
  else if opcode = OP_2ROT then do
    sizeCheck stack 6
    let vch1 ← stacktop stack (-6)
    let vch2 ← stacktop stack (-5)
    let stack ← eraseTop stack 6 4
    return vch2 :: vch1 :: stack
  else if opcode = OP_2SWAP then do
    sizeCheck stack 4
    let stack ← swapTop stack (-4) (-2)
    swapTop stack (-3) (-1)
  else if opcode = OP_IFDUP then do
    sizeCheck stack 1
    let vch ← stacktop stack (-1)
    return if castToBool vch then vch :: stack else stack
  else if opcode = OP_DEPTH then do
    let vch ← getvch stack.length
    return vch :: stack
  else if opcode = OP_DROP then do
    sizeCheck stack 1
    popstack stack
  else if opcode = OP_DUP then do
    sizeCheck stack 1
    let vch ← stacktop stack (-1)
    return vch :: stack
  else if opcode = OP_NIP then do
    sizeCheck stack 2
    eraseTop stack 2 1
  else if opcode = OP_OVER then do
    sizeCheck stack 2
    let vch ← stacktop stack (-2)
    return vch :: stack
  else if opcode = OP_ROT then do
    sizeCheck stack 3
    let stack ← swapTop stack (-3) (-2)
    swapTop stack (-2) (-1)
  else if opcode = OP_SWAP then do
    sizeCheck stack 2
    swapTop stack (-2) (-1)
  else if opcode = OP_TUCK then do
    sizeCheck stack 2
    let vch ← stacktop stack (-1)
    insertTop stack 2 vch
  else do
    sizeCheck stack 1
    let vch ← stacktop stack (-1)
    let vch ← getvch vch.length
    return vch :: stack

/-- `OP_PICK` and `OP_ROLL`. -/
def pickRoll (flags : UInt32) (fRoll : Bool) (stack : List Bytes) : Exec (List Bytes) := do
  sizeCheck stack 2
  let vch ← stacktop stack (-1)
  let bn ← cScriptNum flags nDefaultMaxNumSize vch
  let n := getint bn
  let stack ← popstack stack
  check (!(decide (n < 0) || decide ((stack.length : ℤ) ≤ n)))
    .SCRIPT_ERR_INVALID_STACK_OPERATION
  let vch ← stacktop stack (-n - 1)
  let stack ← if fRoll then eraseTop stack (n + 1).toNat n.toNat else pure stack
  return vch :: stack

/-! ## Numbers -/

/-- The inner `switch` of the operations on one number. -/
def unaryNum (opcode : UInt8) (bn : ℤ) : Exec ℤ :=
  if opcode = OP_1ADD then plusAssign bn 1
  else if opcode = OP_1SUB then minusAssign bn 1
  else if opcode = OP_NEGATE then negate bn
  else if opcode = OP_ABS then if bn < 0 then negate bn else .ok bn
  else if opcode = OP_NOT then .ok (boolNum (bn == 0))
  else .ok (boolNum (bn != 0))

/-- The inner `switch` of the operations on two numbers, of which the sum and the difference can be
too large. -/
def binaryNum (opcode : UInt8) (bn1 bn2 : ℤ) : Exec ℤ :=
  if opcode = OP_ADD then int64 (bn1 + bn2)
  else if opcode = OP_SUB then int64 (bn1 - bn2)
  else .ok (UnemployCoin.binaryNum opcode bn1 bn2)

def unaryOp (flags : UInt32) (opcode : UInt8) (stack : List Bytes) : Exec (List Bytes) := do
  sizeCheck stack 1
  let vch ← stacktop stack (-1)
  let bn ← cScriptNum flags nDefaultMaxNumSize vch
  let bn ← unaryNum opcode bn
  let stack ← popstack stack
  let vch ← getvch bn
  return vch :: stack

def binaryOp (flags : UInt32) (opcode : UInt8) (stack : List Bytes) : Exec (List Bytes) := do
  sizeCheck stack 2
  let vch1 ← stacktop stack (-2)
  let bn1 ← cScriptNum flags nDefaultMaxNumSize vch1
  let vch2 ← stacktop stack (-1)
  let bn2 ← cScriptNum flags nDefaultMaxNumSize vch2
  let bn ← binaryNum opcode bn1 bn2
  let stack ← popstack stack
  let stack ← popstack stack
  let vch ← getvch bn
  let stack := vch :: stack
  if opcode = OP_NUMEQUALVERIFY then do
    let vch ← stacktop stack (-1)
    check (castToBool vch) .SCRIPT_ERR_NUMEQUALVERIFY
    popstack stack
  else return stack

def within (flags : UInt32) (stack : List Bytes) : Exec (List Bytes) := do
  sizeCheck stack 3
  let vch1 ← stacktop stack (-3)
  let bn1 ← cScriptNum flags nDefaultMaxNumSize vch1
  let vch2 ← stacktop stack (-2)
  let bn2 ← cScriptNum flags nDefaultMaxNumSize vch2
  let vch3 ← stacktop stack (-1)
  let bn3 ← cScriptNum flags nDefaultMaxNumSize vch3
  let stack ← popstack stack
  let stack ← popstack stack
  let stack ← popstack stack
  return ofBool (decide (bn2 ≤ bn1) && decide (bn1 < bn3)) :: stack

/-- The end of an operation that pushes a truth value, and in its `VERIFY` form takes it from the
stack again. -/
def pushVerify (fVerify fSuccess : Bool) (serror : ScriptError) (stack : List Bytes) :
    Exec (List Bytes) :=
  let stack := ofBool fSuccess :: stack
  if fVerify then do
    check fSuccess serror
    popstack stack
  else .ok stack

def equalOp (fVerify : Bool) (stack : List Bytes) : Exec (List Bytes) := do
  sizeCheck stack 2
  let vch1 ← stacktop stack (-2)
  let vch2 ← stacktop stack (-1)
  let fEqual := vch1 == vch2
  let stack ← popstack stack
  let stack ← popstack stack
  pushVerify fVerify fEqual .SCRIPT_ERR_EQUALVERIFY stack

section Eval

variable (crypto : ScriptCrypto) (checker : BaseSignatureChecker) (flags : UInt32)
  (sigversion : SigVersion)

def checkSigOp (fVerify : Bool) (codehash : CScript) (stack : List Bytes) : Exec (List Bytes) := do
  sizeCheck stack 2
  let vchSig ← stacktop stack (-2)
  let vchPubKey ← stacktop stack (-1)
  let scriptCode := signedCode sigversion codehash [vchSig]
  returns (checkEncodings crypto flags sigversion vchSig vchPubKey)
  let fSuccess := checker.checkSig vchSig vchPubKey scriptCode sigversion
  check (fSuccess || !hasFlag flags SCRIPT_VERIFY_NULLFAIL || vchSig.isEmpty)
    .SCRIPT_ERR_SIG_NULLFAIL
  let stack ← popstack stack
  let stack ← popstack stack
  pushVerify fVerify fSuccess .SCRIPT_ERR_CHECKSIGVERIFY stack

def checkLockTimeVerify (stack : List Bytes) : Exec Unit :=
  if hasFlag flags SCRIPT_VERIFY_CHECKLOCKTIMEVERIFY then do
    sizeCheck stack 1
    let vch ← stacktop stack (-1)
    let nLockTime ← cScriptNum flags 5 vch
    check (decide (0 ≤ nLockTime)) .SCRIPT_ERR_NEGATIVE_LOCKTIME
    check (checker.checkLockTime nLockTime) .SCRIPT_ERR_UNSATISFIED_LOCKTIME
  else returns (upgradableNop flags)

def checkSequenceVerify (stack : List Bytes) : Exec Unit :=
  if hasFlag flags SCRIPT_VERIFY_CHECKSEQUENCEVERIFY then do
    sizeCheck stack 1
    let vch ← stacktop stack (-1)
    let nSequence ← cScriptNum flags 5 vch
    check (decide (0 ≤ nSequence)) .SCRIPT_ERR_NEGATIVE_LOCKTIME
    onlyIf (nSequence.toNat &&& SEQUENCE_LOCKTIME_DISABLE_FLAG == 0)
      (check (checker.checkSequence nSequence) .SCRIPT_ERR_UNSATISFIED_LOCKTIME)
  else returns (upgradableNop flags)

end Eval

/-! ## What they are caught as -/

abbrev Models {α : Type} (r : Exec α) (v : Eval α) : Prop := Caught Thrown.expected r v

variable {crypto : ScriptCrypto} {checker : BaseSignatureChecker} {flags : UInt32}
  {sigversion : SigVersion} {stack : List Bytes} {opcode : UInt8} {n : ℕ} {v v' : ℤ} {vch : Bytes}

theorem check_models (c : Bool) (serror : ScriptError) :
    Models (check c serror) (require c serror) := Caught.require rfl

theorem scriptnum_error_models (c : Bool) :
    Models (require c .scriptnum_error) (require c .SCRIPT_ERR_UNKNOWN_ERROR) :=
  Caught.require rfl

theorem returns_models {α : Type} (v : Eval α) : Models (returns v) v := by
  cases v with
  | ok a => rfl
  | error e => exact ⟨e, rfl, rfl⟩

theorem int64_ok (hmin : int64Min ≤ v) (hmax : v ≤ int64Max) : int64 v = .ok v := by
  rw [int64, decide_eq_true hmin, decide_eq_true hmax]
  rfl

theorem getvch_ok (hmin : int64Min < v) (hmax : v ≤ int64Max) :
    getvch v = .ok (serializeScriptNum v) := by
  rw [getvch, int64_ok (by rw [int64Min] at *; rw [int64Max] at hmax; omega)
    (by rw [int64Min] at hmin; rw [int64Max]; omega)]
  rfl

theorem setVch_bound (h : vch.length ≤ 5) : -2 ^ 40 < setVch vch ∧ setVch vch < 2 ^ 40 := by
  have hlt : readLE vch < 256 ^ 5 :=
    lt_of_lt_of_le (readLE_lt vch) (Nat.pow_le_pow_right (by norm_num) h)
  rw [setVch]
  split
  · omega
  · split <;> omega

theorem cScriptNum_models (h : n ≤ 5) :
    Models (cScriptNum flags n vch) (scriptNum flags n vch) := by
  rw [cScriptNum, scriptNum]
  refine (scriptnum_error_models _).bind fun _ hsize =>
    (scriptnum_error_models _).bind fun _ _ => ?_
  rw [require_ok, decide_eq_true_eq] at hsize
  obtain ⟨hmin, hmax⟩ := setVch_bound (hsize.trans h)
  rw [int64_ok (by rw [int64Min]; omega) (by rw [int64Max]; omega)]
  exact Caught.ok _

theorem cScriptNum_bound (h : n ≤ 5) (hv : cScriptNum flags n vch = .ok v) :
    -2 ^ 40 < v ∧ v < 2 ^ 40 := by
  have hok := (cScriptNum_models h).ok_iff.1 hv
  rw [scriptNum, require_bind, require_bind, pure_ok] at hok
  obtain ⟨hsize, -, rfl⟩ := hok
  exact setVch_bound ((of_decide_eq_true hsize).trans h)

/-- The entries of a stack are no longer than those that a script pushes. -/
def Sized (stack : List Bytes) : Prop := ∀ vch ∈ stack, vch.length ≤ MAX_SCRIPT_ELEMENT_SIZE

theorem getvch_length (h : n ≤ MAX_STACK_SIZE) : getvch n = .ok (serializeScriptNum n) := by
  rw [MAX_STACK_SIZE] at h
  exact getvch_ok (by rw [int64Min]; omega) (by rw [int64Max]; omega)

theorem stackOp_models (hop : opcode ∈ stackOpcodes) (hstack : stack.length ≤ MAX_STACK_SIZE)
    (hsized : Sized stack) :
    Models (stackOp opcode stack)
      (demand (UnemployCoin.stackOp opcode stack) .SCRIPT_ERR_INVALID_STACK_OPERATION) := by
  simp only [stackOpcodes, List.mem_cons, List.not_mem_nil, or_false] at hop
  obtain rfl | rfl | rfl | rfl | rfl | rfl | rfl | rfl | rfl | rfl | rfl | rfl | rfl | rfl | rfl |
    rfl := hop
  -- OP_2DROP, OP_2DUP and OP_3DUP
  · match stack with
    | [] | [_] => exact ⟨_, rfl, rfl⟩
    | _ :: _ :: _ => rfl
  · match stack with
    | [] | [_] => exact ⟨_, rfl, rfl⟩
    | _ :: _ :: _ => rfl
  · match stack with
    | [] | [_] | [_, _] => exact ⟨_, rfl, rfl⟩
    | _ :: _ :: _ :: _ => rfl
  -- OP_2OVER, OP_2ROT and OP_2SWAP
  · match stack with
    | [] | [_] | [_, _] | [_, _, _] => exact ⟨_, rfl, rfl⟩
    | _ :: _ :: _ :: _ :: _ => rfl
  · match stack with
    | [] | [_] | [_, _] | [_, _, _] | [_, _, _, _] | [_, _, _, _, _] => exact ⟨_, rfl, rfl⟩
    | _ :: _ :: _ :: _ :: _ :: _ :: _ => rfl
  · match stack with
    | [] | [_] | [_, _] | [_, _, _] => exact ⟨_, rfl, rfl⟩
    | _ :: _ :: _ :: _ :: _ => rfl
  -- OP_IFDUP and OP_DEPTH
  · match stack with
    | [] => exact ⟨_, rfl, rfl⟩
    | _ :: _ => rfl
  · change Models (getvch stack.length >>= fun vch => pure (vch :: stack)) _
    rw [getvch_length hstack]
    rfl
  -- OP_DROP, OP_DUP, OP_NIP and OP_OVER
  · match stack with
    | [] => exact ⟨_, rfl, rfl⟩
    | _ :: _ => rfl
  · match stack with
    | [] => exact ⟨_, rfl, rfl⟩
    | _ :: _ => rfl
  · match stack with
    | [] | [_] => exact ⟨_, rfl, rfl⟩
    | _ :: _ :: _ => rfl
  · match stack with
    | [] | [_] => exact ⟨_, rfl, rfl⟩
    | _ :: _ :: _ => rfl
  -- OP_ROT, OP_SWAP and OP_TUCK
  · match stack with
    | [] | [_] | [_, _] => exact ⟨_, rfl, rfl⟩
    | _ :: _ :: _ :: _ => rfl
  · match stack with
    | [] | [_] => exact ⟨_, rfl, rfl⟩
    | _ :: _ :: _ => rfl
  · match stack with
    | [] | [_] => exact ⟨_, rfl, rfl⟩
    | _ :: _ :: _ => rfl
  -- OP_SIZE
  · match stack with
    | [] => exact ⟨_, rfl, rfl⟩
    | vch :: stack =>
      have hsize := hsized vch List.mem_cons_self
      change Models (getvch vch.length >>= fun size => pure (size :: vch :: stack)) _
      rw [getvch_length (hsize.trans (by decide))]
      rfl

/-! ### An entry, two or three -/

theorem sizeCheck_one {α : Type} {f : Unit → Exec α} {g : Bytes × List Bytes → Eval α}
    (h : ∀ vch s, stack = vch :: s → Models (f ()) (g (vch, s))) :
    Models (sizeCheck stack 1 >>= f) (take1 stack >>= g) := by
  match stack with
  | [] => exact ⟨_, rfl, rfl⟩
  | vch :: s => exact h vch s rfl

theorem sizeCheck_two {α : Type} {f : Unit → Exec α} {g : Bytes × Bytes × List Bytes → Eval α}
    (h : ∀ vch1 vch2 s, stack = vch2 :: vch1 :: s → Models (f ()) (g (vch1, vch2, s))) :
    Models (sizeCheck stack 2 >>= f) (take2 stack >>= g) := by
  match stack with
  | [] | [_] => exact ⟨_, rfl, rfl⟩
  | vch2 :: vch1 :: s => exact h vch1 vch2 s rfl

theorem sizeCheck_three {α : Type} {f : Unit → Exec α}
    {g : Bytes × Bytes × Bytes × List Bytes → Eval α}
    (h : ∀ vch1 vch2 vch3 s, stack = vch3 :: vch2 :: vch1 :: s →
      Models (f ()) (g (vch1, vch2, vch3, s))) :
    Models (sizeCheck stack 3 >>= f) (take3 stack >>= g) := by
  match stack with
  | [] | [_] | [_, _] => exact ⟨_, rfl, rfl⟩
  | vch3 :: vch2 :: vch1 :: s => exact h vch1 vch2 vch3 s rfl

theorem pushVerify_models (fVerify fSuccess : Bool) (serror : ScriptError) (stack : List Bytes) :
    Models (pushVerify fVerify fSuccess serror stack)
      (if fVerify then do
        require fSuccess serror
        return stack
      else return ofBool fSuccess :: stack) := by
  cases fVerify with
  | true => exact (check_models fSuccess serror).bind fun _ _ => Caught.ok stack
  | false => exact Caught.ok _

theorem equalOp_models (fVerify : Bool) :
    Models (equalOp fVerify stack) (UnemployCoin.equalOp fVerify stack) := by
  refine sizeCheck_two fun vch1 vch2 s hs => ?_
  subst hs
  exact pushVerify_models fVerify (vch1 == vch2) .SCRIPT_ERR_EQUALVERIFY s

theorem checkSigOp_models (fVerify : Bool) (codehash : CScript) :
    Models (checkSigOp crypto checker flags sigversion fVerify codehash stack)
      (UnemployCoin.checkSigOp crypto checker flags sigversion fVerify codehash stack) := by
  refine sizeCheck_two fun vchSig vchPubKey s hs => ?_
  subst hs
  refine (returns_models _).bind fun _ _ => (check_models _ _).bind fun _ _ => ?_
  exact pushVerify_models fVerify _ .SCRIPT_ERR_CHECKSIGVERIFY s

/-! ### Numbers -/

theorem nDefaultMaxNumSize_le : nDefaultMaxNumSize ≤ 5 := by decide

theorem plusAssign_ok (h : -2 ^ 40 < v ∧ v < 2 ^ 40) : plusAssign v 1 = .ok (v + 1) := by
  have hassert : (decide (v ≤ int64Max - 1)) = true :=
    decide_eq_true (by rw [int64Max]; omega)
  rw [plusAssign, hassert, int64_ok (by rw [int64Min]; omega) (by rw [int64Max]; omega)]
  rfl

theorem minusAssign_ok (h : -2 ^ 40 < v ∧ v < 2 ^ 40) : minusAssign v 1 = .ok (v - 1) := by
  have hassert : (decide (int64Min + 1 ≤ v)) = true :=
    decide_eq_true (by rw [int64Min]; omega)
  rw [minusAssign, hassert, int64_ok (by rw [int64Min]; omega) (by rw [int64Max]; omega)]
  rfl

theorem negate_ok (h : -2 ^ 40 < v ∧ v < 2 ^ 40) : negate v = .ok (-v) := by
  have hassert : (v != int64Min) = true := by
    rw [bne_iff_ne, int64Min]
    omega
  rw [negate, hassert, int64_ok (by rw [int64Min]; omega) (by rw [int64Max]; omega)]
  rfl

theorem boolNum_bound (b : Bool) : -2 ^ 41 < boolNum b ∧ boolNum b < 2 ^ 41 := by
  cases b <;> decide

theorem unaryNum_ok (h : -2 ^ 40 < v ∧ v < 2 ^ 40) :
    unaryNum opcode v = .ok (UnemployCoin.unaryNum opcode v) ∧
      -2 ^ 41 < UnemployCoin.unaryNum opcode v ∧ UnemployCoin.unaryNum opcode v < 2 ^ 41 := by
  rw [unaryNum, UnemployCoin.unaryNum]
  split
  · exact ⟨plusAssign_ok h, by omega, by omega⟩
  · split
    · exact ⟨minusAssign_ok h, by omega, by omega⟩
    · split
      · exact ⟨negate_ok h, by omega, by omega⟩
      · split
        · split
          · exact ⟨negate_ok h, by omega, by omega⟩
          · exact ⟨rfl, by omega, by omega⟩
        · split
          · exact ⟨rfl, boolNum_bound _⟩
          · exact ⟨rfl, boolNum_bound _⟩

theorem binaryNum_cases {P : ℤ → Prop} (hadd : P (v + v')) (hsub : P (v - v'))
    (hbool : ∀ b, P (boolNum b)) (hleft : P v) (hright : P v') :
    P (UnemployCoin.binaryNum opcode v v') := by
  unfold UnemployCoin.binaryNum
  refine iteInduction (fun _ => hadd) fun _ => iteInduction (fun _ => hsub) fun _ => ?_
  iterate 8
    refine iteInduction (fun _ => hbool _) fun _ => ?_
  -- OP_MIN and OP_MAX
  exact iteInduction (fun _ => iteInduction (fun _ => hleft) fun _ => hright)
    fun _ => iteInduction (fun _ => hleft) fun _ => hright

theorem binaryNum_ok (h : -2 ^ 40 < v ∧ v < 2 ^ 40) (h' : -2 ^ 40 < v' ∧ v' < 2 ^ 40) :
    binaryNum opcode v v' = .ok (UnemployCoin.binaryNum opcode v v') ∧
      -2 ^ 41 < UnemployCoin.binaryNum opcode v v' ∧
      UnemployCoin.binaryNum opcode v v' < 2 ^ 41 := by
  constructor
  · rw [binaryNum]
    split
    · rename_i hadd
      rw [UnemployCoin.binaryNum, if_pos hadd,
        int64_ok (by rw [int64Min]; omega) (by rw [int64Max]; omega)]
    · rename_i hadd
      split
      · rename_i hsub
        rw [UnemployCoin.binaryNum, if_neg hadd, if_pos hsub,
          int64_ok (by rw [int64Min]; omega) (by rw [int64Max]; omega)]
      · rfl
  · exact @binaryNum_cases opcode v v' (fun r => -2 ^ 41 < r ∧ r < 2 ^ 41) (by omega) (by omega)
      boolNum_bound (by omega) (by omega)

theorem unaryOp_models :
    Models (unaryOp flags opcode stack) (UnemployCoin.unaryOp flags opcode stack) := by
  refine sizeCheck_one fun vch s hs => ?_
  subst hs
  refine (cScriptNum_models nDefaultMaxNumSize_le).bind fun v hv => ?_
  obtain ⟨hnum, hmin, hmax⟩ := @unaryNum_ok opcode v
    (cScriptNum_bound nDefaultMaxNumSize_le hv)
  rw [hnum]
  change Models (getvch _ >>= _) _
  rw [getvch_ok (by rw [int64Min]; omega) (by rw [int64Max]; omega)]
  rfl

theorem binaryOp_models :
    Models (binaryOp flags opcode stack) (UnemployCoin.binaryOp flags opcode stack) := by
  refine sizeCheck_two fun vch1 vch2 s hs => ?_
  subst hs
  refine (cScriptNum_models nDefaultMaxNumSize_le).bind fun v hv =>
    (cScriptNum_models nDefaultMaxNumSize_le).bind fun v' hv' => ?_
  obtain ⟨hnum, hmin, hmax⟩ := @binaryNum_ok opcode v v'
    (cScriptNum_bound nDefaultMaxNumSize_le hv) (cScriptNum_bound nDefaultMaxNumSize_le hv')
  rw [hnum]
  change Models (getvch _ >>= _) _
  rw [getvch_ok (by rw [int64Min]; omega) (by rw [int64Max]; omega)]
  change Models (if opcode = OP_NUMEQUALVERIFY then _ else _) _
  dsimp only
  split
  · exact (check_models _ _).bind fun _ _ => Caught.ok s
  · exact Caught.ok _

theorem within_models : Models (within flags stack) (UnemployCoin.within flags stack) := by
  refine sizeCheck_three fun vch1 vch2 vch3 s hs => ?_
  subst hs
  refine (cScriptNum_models nDefaultMaxNumSize_le).bind fun bn1 _ =>
    (cScriptNum_models nDefaultMaxNumSize_le).bind fun bn2 _ =>
    (cScriptNum_models nDefaultMaxNumSize_le).bind fun bn3 _ => ?_
  exact Caught.ok _

theorem stacktop_ok {i : ℕ} (h : stack[i]? = some vch) (hv : v = -(i : ℤ) - 1) :
    stacktop stack v = .ok vch := by
  have hi : (-v - 1).toNat = i := by omega
  rw [stacktop, if_pos (by omega), hi, h]
  rfl

theorem eraseTop_ok {i : ℕ} (h : i < stack.length) :
    eraseTop stack (i + 1) i = .ok (stack.eraseIdx i) := by
  have hin : (decide (i + 1 ≤ stack.length) && decide (i ≤ i + 1)) = true := by
    rw [Bool.and_eq_true, decide_eq_true_eq, decide_eq_true_eq]
    omega
  rw [eraseTop, hin, List.eraseIdx_eq_take_drop_succ]
  rfl

theorem pickRoll_models (fRoll : Bool) (hstack : stack.length ≤ MAX_STACK_SIZE) :
    Models (pickRoll flags fRoll stack) (UnemployCoin.pickRoll flags fRoll stack) := by
  match stack with
  | [] | [_] => exact ⟨_, rfl, rfl⟩
  | vch :: x :: s =>
    change Models (cScriptNum flags nDefaultMaxNumSize vch >>= _)
      (scriptNum flags nDefaultMaxNumSize vch >>= _)
    refine (cScriptNum_models nDefaultMaxNumSize_le).bind fun n hn => ?_
    have hsize : (x :: s).length < 2 ^ 31 :=
      lt_of_le_of_lt (Nat.le_of_succ_le hstack) (by decide)
    have hcond : (!(decide (getint n < 0) || decide (((x :: s).length : ℤ) ≤ getint n))) =
        (decide (0 ≤ n) && decide (n < ((x :: s).length : ℤ))) := by
      rw [Bool.eq_iff_iff, getint]
      simp only [Bool.not_or, Bool.and_eq_true, Bool.not_eq_true', decide_eq_false_iff_not,
        decide_eq_true_eq]
      omega
    change Models (check _ _ >>= _) (require _ _ >>= _)
    rw [hcond]
    refine (check_models _ _).bind fun _ hin => ?_
    rw [check, require_ok, Bool.and_eq_true, decide_eq_true_eq, decide_eq_true_eq] at hin
    obtain ⟨i, rfl⟩ := Int.eq_ofNat_of_zero_le hin.1
    have hi : i < (x :: s).length := by omega
    have hclamp : getint (i : ℤ) = (i : ℤ) := by
      rw [getint]
      omega
    have hget : (x :: s)[i]? = some ((x :: s).getD i []) := by
      rw [List.getD_eq_getElem?_getD, List.getElem?_eq_getElem hi, Option.getD_some]
    rw [hclamp, stacktop_ok hget rfl]
    cases fRoll with
    | false => rfl
    | true =>
      change Models (eraseTop (x :: s) (i + 1) i >>= _) _
      rw [eraseTop_ok hi]
      rfl

theorem checkLockTimeVerify_models :
    Models (checkLockTimeVerify checker flags stack)
      (UnemployCoin.checkLockTimeVerify checker flags stack) := by
  rw [checkLockTimeVerify, UnemployCoin.checkLockTimeVerify]
  split
  · refine sizeCheck_one fun vch s hs => ?_
    subst hs
    refine (cScriptNum_models le_rfl).bind fun nLockTime _ => ?_
    exact (check_models _ _).bind fun _ _ => check_models _ _
  · exact returns_models _

theorem checkSequenceVerify_models :
    Models (checkSequenceVerify checker flags stack)
      (UnemployCoin.checkSequenceVerify checker flags stack) := by
  rw [checkSequenceVerify, UnemployCoin.checkSequenceVerify]
  split
  · refine sizeCheck_one fun vch s hs => ?_
    subst hs
    refine (cScriptNum_models le_rfl).bind fun nSequence _ => (check_models _ _).bind fun _ _ => ?_
    rw [onlyIf, onlyIf]
    split
    · exact check_models _ _
    · exact Caught.ok ()
  · exact returns_models _

end EvalScript

end UnemployCoin
