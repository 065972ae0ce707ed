import UnemployCoin.ScriptEncoding
/-!
# The script interpreter

`EvalScript` (`script/interpreter.cpp`): a stack machine that reads one operation after the other.
Both stacks and the branches that are open have their **top first**.

`OP_UNEMP_ASSET` does nothing, and everything behind it is its data.
-/

namespace UnemployCoin

open Check

/-! ## Opcodes -/

def OP_NOP : UInt8 := 0x61
def OP_IF : UInt8 := 0x63
def OP_NOTIF : UInt8 := 0x64
def OP_ELSE : UInt8 := 0x67
def OP_ENDIF : UInt8 := 0x68
def OP_VERIFY : UInt8 := 0x69
def OP_TOALTSTACK : UInt8 := 0x6b
def OP_FROMALTSTACK : UInt8 := 0x6c
def OP_2DROP : UInt8 := 0x6d
def OP_2DUP : UInt8 := 0x6e
def OP_3DUP : UInt8 := 0x6f
def OP_2OVER : UInt8 := 0x70
def OP_2ROT : UInt8 := 0x71
def OP_2SWAP : UInt8 := 0x72
def OP_IFDUP : UInt8 := 0x73
def OP_DEPTH : UInt8 := 0x74
def OP_NIP : UInt8 := 0x77
def OP_OVER : UInt8 := 0x78
def OP_PICK : UInt8 := 0x79
def OP_ROLL : UInt8 := 0x7a
def OP_ROT : UInt8 := 0x7b
def OP_SWAP : UInt8 := 0x7c
def OP_TUCK : UInt8 := 0x7d
def OP_CAT : UInt8 := 0x7e
def OP_SUBSTR : UInt8 := 0x7f
def OP_LEFT : UInt8 := 0x80
def OP_RIGHT : UInt8 := 0x81
def OP_SIZE : UInt8 := 0x82
def OP_INVERT : UInt8 := 0x83
def OP_AND : UInt8 := 0x84
def OP_OR : UInt8 := 0x85
def OP_XOR : UInt8 := 0x86
def OP_1ADD : UInt8 := 0x8b
def OP_1SUB : UInt8 := 0x8c
def OP_2MUL : UInt8 := 0x8d
def OP_2DIV : UInt8 := 0x8e
def OP_NEGATE : UInt8 := 0x8f
def OP_ABS : UInt8 := 0x90
def OP_NOT : UInt8 := 0x91
def OP_0NOTEQUAL : UInt8 := 0x92
def OP_ADD : UInt8 := 0x93
def OP_SUB : UInt8 := 0x94
def OP_MUL : UInt8 := 0x95
def OP_DIV : UInt8 := 0x96
def OP_MOD : UInt8 := 0x97
def OP_LSHIFT : UInt8 := 0x98
def OP_RSHIFT : UInt8 := 0x99
def OP_BOOLAND : UInt8 := 0x9a
def OP_BOOLOR : UInt8 := 0x9b
def OP_NUMEQUAL : UInt8 := 0x9c
def OP_NUMEQUALVERIFY : UInt8 := 0x9d
def OP_NUMNOTEQUAL : UInt8 := 0x9e
def OP_LESSTHAN : UInt8 := 0x9f
def OP_GREATERTHAN : UInt8 := 0xa0
def OP_LESSTHANOREQUAL : UInt8 := 0xa1
def OP_GREATERTHANOREQUAL : UInt8 := 0xa2
def OP_MIN : UInt8 := 0xa3
def OP_MAX : UInt8 := 0xa4
def OP_WITHIN : UInt8 := 0xa5
def OP_RIPEMD160 : UInt8 := 0xa6
def OP_SHA1 : UInt8 := 0xa7
def OP_SHA256 : UInt8 := 0xa8
def OP_HASH256 : UInt8 := 0xaa
def OP_CODESEPARATOR : UInt8 := 0xab
def OP_CHECKSIGVERIFY : UInt8 := 0xad
def OP_CHECKMULTISIGVERIFY : UInt8 := 0xaf
def OP_NOP1 : UInt8 := 0xb0
def OP_CHECKLOCKTIMEVERIFY : UInt8 := 0xb1
def OP_CHECKSEQUENCEVERIFY : UInt8 := 0xb2
def OP_NOP4 : UInt8 := 0xb3
def OP_NOP10 : UInt8 := 0xb9

/-- The opcodes that `EvalScript` refuses also where they are not executed. -/
def disabledOpcodes : List UInt8 :=
  [OP_CAT, OP_SUBSTR, OP_LEFT, OP_RIGHT, OP_INVERT, OP_AND, OP_OR, OP_XOR, OP_2MUL, OP_2DIV,
    OP_MUL, OP_DIV, OP_MOD, OP_LSHIFT, OP_RSHIFT]

def MAX_SCRIPT_ELEMENT_SIZE : ℕ := 520
def MAX_OPS_PER_SCRIPT : ℕ := 201
def MAX_PUBKEYS_PER_MULTISIG : ℕ := 20
def MAX_STACK_SIZE : ℕ := 1000

/-! ## State -/

/-- `BaseSignatureChecker`: what a script can ask about the transaction that spends. -/
structure BaseSignatureChecker where
  checkSig : Bytes → Bytes → CScript → SigVersion → Bool
  checkLockTime : ℤ → Bool
  checkSequence : ℤ → Bool

/-- The variables of `EvalScript`. -/
structure EvalState where
  stack : List Bytes
  altstack : List Bytes
  vfExec : List Bool
  pc : CScript
  /-- The script from the last `OP_CODESEPARATOR` on. -/
  codehash : CScript
  nOpCount : ℕ
  deriving DecidableEq, Repr

def EvalState.start (stack : List Bytes) (script : CScript) : EvalState :=
  ⟨stack, [], [], script, script, 0⟩

def vchFalse : Bytes := []
def vchTrue : Bytes := [1]

def ofBool (b : Bool) : Bytes := if b then vchTrue else vchFalse

def take1 : List Bytes → Eval (Bytes × List Bytes)
  | vch :: stack => .ok (vch, stack)
  | _ => .error .SCRIPT_ERR_INVALID_STACK_OPERATION

def take2 : List Bytes → Eval (Bytes × Bytes × List Bytes)
  | vch2 :: vch1 :: stack => .ok (vch1, vch2, stack)
  | _ => .error .SCRIPT_ERR_INVALID_STACK_OPERATION

def take3 : List Bytes → Eval (Bytes × Bytes × Bytes × List Bytes)
  | vch3 :: vch2 :: vch1 :: stack => .ok (vch1, vch2, vch3, stack)
  | _ => .error .SCRIPT_ERR_INVALID_STACK_OPERATION

/-- The operations that move entries of the stack, `none` when there are too few of them or the
opcode is another one. -/
def stackOp (opcode : UInt8) (stack : List Bytes) : Option (List Bytes) :=
  if opcode = OP_2DROP then
    match stack with
    | _ :: _ :: s => some s
    | _ => none
  else if opcode = OP_2DUP then
    match stack with
    | x2 :: x1 :: s => some (x2 :: x1 :: x2 :: x1 :: s)
    | _ => none
  else if opcode = OP_3DUP then
    match stack with
    | x3 :: x2 :: x1 :: s => some (x3 :: x2 :: x1 :: x3 :: x2 :: x1 :: s)
    | _ => none
  else if opcode = OP_2OVER then
    match stack with
    | x4 :: x3 :: x2 :: x1 :: s => some (x2 :: x1 :: x4 :: x3 :: x2 :: x1 :: s)
    | _ => none
  else if opcode = OP_2ROT then
    match stack with
    | x6 :: x5 :: x4 :: x3 :: x2 :: x1 :: s => some (x2 :: x1 :: x6 :: x5 :: x4 :: x3 :: s)
    | _ => none
  else if opcode = OP_2SWAP then
    match stack with
    | x4 :: x3 :: x2 :: x1 :: s => some (x2 :: x1 :: x4 :: x3 :: s)
    | _ => none
  else if opcode = OP_IFDUP then
    match stack with
    | x :: s => some (if castToBool x then x :: x :: s else x :: s)
    | _ => none
  else if opcode = OP_DEPTH then some (serializeScriptNum stack.length :: stack)
  else if opcode = OP_DROP then
    match stack with
    | _ :: s => some s
    | _ => none
  else if opcode = OP_DUP then
    match stack with
    | x :: s => some (x :: x :: s)
    | _ => none
  else if opcode = OP_NIP then
    match stack with
    | x2 :: _ :: s => some (x2 :: s)
    | _ => none
  else if opcode = OP_OVER then
    match stack with
    | x2 :: x1 :: s => some (x1 :: x2 :: x1 :: s)
    | _ => none
  else if opcode = OP_ROT then
    match stack with
    | x3 :: x2 :: x1 :: s => some (x1 :: x3 :: x2 :: s)
    | _ => none
  else if opcode = OP_SWAP then
    match stack with
    | x2 :: x1 :: s => some (x1 :: x2 :: s)
    | _ => none
  else if opcode = OP_TUCK then
    match stack with
    | x2 :: x1 :: s => some (x2 :: x1 :: x2 :: s)
    | _ => none
  else if opcode = OP_SIZE then
    match stack with
    | x :: s => some (serializeScriptNum x.length :: x :: s)
    | _ => none
  else none

/-- The opcodes of `stackOp`. -/
def stackOpcodes : List UInt8 :=
  [OP_2DROP, OP_2DUP, OP_3DUP, OP_2OVER, OP_2ROT, OP_2SWAP, OP_IFDUP, OP_DEPTH, OP_DROP, OP_DUP,
    OP_NIP, OP_OVER, OP_ROT, OP_SWAP, OP_TUCK, OP_SIZE]

/-- `n`-th entry from the top, copied by `OP_PICK` and moved by `OP_ROLL`. -/
def pickRoll (flags : UInt32) (fRoll : Bool) (stack : List Bytes) : Eval (List Bytes) := do
  require (decide (2 ≤ stack.length)) .SCRIPT_ERR_INVALID_STACK_OPERATION
  let (vch, stack) ← take1 stack
  let n ← scriptNum flags nDefaultMaxNumSize vch
  require (decide (0 ≤ n) && decide (n < stack.length)) .SCRIPT_ERR_INVALID_STACK_OPERATION
  let vch := stack.getD n.toNat []
  return vch :: if fRoll then stack.eraseIdx n.toNat else stack

/-! ## Numbers -/

def boolNum (b : Bool) : ℤ := if b then 1 else 0

def unaryOpcodes : List UInt8 := [OP_1ADD, OP_1SUB, OP_NEGATE, OP_ABS, OP_NOT, OP_0NOTEQUAL]

def binaryOpcodes : List UInt8 :=
  [OP_ADD, OP_SUB, OP_BOOLAND, OP_BOOLOR, OP_NUMEQUAL, OP_NUMEQUALVERIFY, OP_NUMNOTEQUAL,
    OP_LESSTHAN, OP_GREATERTHAN, OP_LESSTHANOREQUAL, OP_GREATERTHANOREQUAL, OP_MIN, OP_MAX]

def unaryNum (opcode : UInt8) (bn : ℤ) : ℤ :=
  if opcode = OP_1ADD then bn + 1
  else if opcode = OP_1SUB then bn - 1
  else if opcode = OP_NEGATE then -bn
  else if opcode = OP_ABS then if bn < 0 then -bn else bn
  else if opcode = OP_NOT then boolNum (bn == 0)
  else boolNum (bn != 0)

def binaryNum (opcode : UInt8) (bn1 bn2 : ℤ) : ℤ :=
  if opcode = OP_ADD then bn1 + bn2
  else if opcode = OP_SUB then bn1 - bn2
  else if opcode = OP_BOOLAND then boolNum (bn1 != 0 && bn2 != 0)
  else if opcode = OP_BOOLOR then boolNum (bn1 != 0 || bn2 != 0)
  else if opcode = OP_NUMEQUAL ∨ opcode = OP_NUMEQUALVERIFY then boolNum (bn1 == bn2)
  else if opcode = OP_NUMNOTEQUAL then boolNum (bn1 != bn2)
  else if opcode = OP_LESSTHAN then boolNum (decide (bn1 < bn2))
  else if opcode = OP_GREATERTHAN then boolNum (decide (bn1 > bn2))
  else if opcode = OP_LESSTHANOREQUAL then boolNum (decide (bn1 ≤ bn2))
  else if opcode = OP_GREATERTHANOREQUAL then boolNum (decide (bn1 ≥ bn2))
  else if opcode = OP_MIN then if bn1 < bn2 then bn1 else bn2
  else if bn1 > bn2 then bn1 else bn2

def unaryOp (flags : UInt32) (opcode : UInt8) (stack : List Bytes) : Eval (List Bytes) := do
  let (vch, stack) ← take1 stack
  let bn ← scriptNum flags nDefaultMaxNumSize vch
  return serializeScriptNum (unaryNum opcode bn) :: stack

def binaryOp (flags : UInt32) (opcode : UInt8) (stack : List Bytes) : Eval (List Bytes) := do
  let (vch1, vch2, stack) ← take2 stack
  let bn1 ← scriptNum flags nDefaultMaxNumSize vch1
  let bn2 ← scriptNum flags nDefaultMaxNumSize vch2
  let vch := serializeScriptNum (binaryNum opcode bn1 bn2)
  if opcode = OP_NUMEQUALVERIFY then do
    require (castToBool vch) .SCRIPT_ERR_NUMEQUALVERIFY
    return stack
  else return vch :: stack

/-- `OP_WITHIN`. -/
def within (flags : UInt32) (stack : List Bytes) : Eval (List Bytes) := do
  let (vch1, vch2, vch3, stack) ← take3 stack
  let bn1 ← scriptNum flags nDefaultMaxNumSize vch1
  let bn2 ← scriptNum flags nDefaultMaxNumSize vch2
  let bn3 ← scriptNum flags nDefaultMaxNumSize vch3
  return ofBool (decide (bn2 ≤ bn1) && decide (bn1 < bn3)) :: stack

/-- `OP_EQUAL` and `OP_EQUALVERIFY`. -/
def equalOp (fVerify : Bool) (stack : List Bytes) : Eval (List Bytes) := do
  let (vch1, vch2, stack) ← take2 stack
  let fEqual := vch1 == vch2
  if fVerify then do
    require fEqual .SCRIPT_ERR_EQUALVERIFY
    return stack
  else return ofBool fEqual :: stack

/-! ## Signatures -/

/-- `CScript::FindAndDelete`: the occurrences of `b` at the start of an operation.  The first
argument bounds the number of rounds. -/
def CScript.stripAll (b : CScript) : ℕ → CScript → CScript
  | 0, s => s
  | n + 1, s => if b.isPrefixOf s then stripAll b n (s.drop b.length) else s

def CScript.deleteLoop (b : CScript) : ℕ → CScript → CScript
  | 0, s => s
  | n + 1, s =>
    let s := stripAll b s.length s
    match s.getOp with
    | none => s
    | some (_, _, rest) => s.take (s.length - rest.length) ++ deleteLoop b n rest

def CScript.findAndDelete (s b : CScript) : CScript :=
  if b.isEmpty then s else deleteLoop b s.length s

section Eval

variable (crypto : ScriptCrypto) (checker : BaseSignatureChecker) (flags : UInt32)
  (sigversion : SigVersion)

/-- The script that the signatures sign, which in a script without witness is without them. -/
def signedCode (codehash : CScript) (sigs : List Bytes) : CScript :=
  if sigversion = .SIGVERSION_BASE then
    sigs.foldl (fun scriptCode vchSig => scriptCode.findAndDelete (CScript.pushData vchSig))
      codehash
  else codehash

/-- The encodings of a signature and of a key, before `CheckSig`. -/
def checkEncodings (vchSig vchPubKey : Bytes) : Eval Unit := do
  checkSignatureEncoding crypto flags vchSig
  checkPubKeyEncoding flags vchPubKey sigversion

/-- `OP_CHECKSIG` and `OP_CHECKSIGVERIFY`. -/
def checkSigOp (fVerify : Bool) (codehash : CScript) (stack : List Bytes) : Eval (List Bytes) := do
  let (vchSig, vchPubKey, stack) ← take2 stack
  let scriptCode := signedCode sigversion codehash [vchSig]
  checkEncodings crypto flags sigversion vchSig vchPubKey
  let fSuccess := checker.checkSig vchSig vchPubKey scriptCode sigversion
  require (fSuccess || !hasFlag flags SCRIPT_VERIFY_NULLFAIL || vchSig.isEmpty)
    .SCRIPT_ERR_SIG_NULLFAIL
  if fVerify then do
    require fSuccess .SCRIPT_ERR_CHECKSIGVERIFY
    return stack
  else return ofBool fSuccess :: stack

/-- The loop of `OP_CHECKMULTISIG`: each key is tried for one signature, in order, until there are
more signatures left than keys. -/
def checkMultiSigLoop (scriptCode : CScript) : List Bytes → List Bytes → Eval Bool
  | [], _ => .ok true
  | _ :: _, [] => .ok false
  | vchSig :: sigs, vchPubKey :: keys => do
    checkEncodings crypto flags sigversion vchSig vchPubKey
    let fOk := checker.checkSig vchSig vchPubKey scriptCode sigversion
    let sigs' := if fOk then sigs else vchSig :: sigs
    if keys.length < sigs'.length then return false else checkMultiSigLoop scriptCode sigs' keys

/-- `OP_CHECKMULTISIG` and `OP_CHECKMULTISIGVERIFY`, with the new count of operations. -/
def checkMultiSigOp (fVerify : Bool) (codehash : CScript) (nOpCount : ℕ) (stack : List Bytes) :
    Eval (List Bytes × ℕ) := do
  let (vchKeys, stack) ← take1 stack
  let nKeysCount ← scriptNum flags nDefaultMaxNumSize vchKeys
  require (decide (0 ≤ nKeysCount) && decide (nKeysCount ≤ MAX_PUBKEYS_PER_MULTISIG))
    .SCRIPT_ERR_PUBKEY_COUNT
  let nKeys := nKeysCount.toNat
  require (decide (nOpCount + nKeys ≤ MAX_OPS_PER_SCRIPT)) .SCRIPT_ERR_OP_COUNT
  require (decide (nKeys < stack.length)) .SCRIPT_ERR_INVALID_STACK_OPERATION
  let (vchSigs, rest) ← take1 (stack.drop nKeys)
  let nSigsCount ← scriptNum flags nDefaultMaxNumSize vchSigs
  require (decide (0 ≤ nSigsCount) && decide (nSigsCount ≤ nKeysCount)) .SCRIPT_ERR_SIG_COUNT
  let nSigs := nSigsCount.toNat
  require (decide (nSigs < rest.length)) .SCRIPT_ERR_INVALID_STACK_OPERATION
  let keys := stack.take nKeys
  let sigs := rest.take nSigs
  let scriptCode := signedCode sigversion codehash sigs
  let fSuccess ← checkMultiSigLoop crypto checker flags sigversion scriptCode sigs keys
  require (fSuccess || !hasFlag flags SCRIPT_VERIFY_NULLFAIL || sigs.all List.isEmpty)
    .SCRIPT_ERR_SIG_NULLFAIL
  -- one more entry than there are arguments is taken from the stack
  let (vchDummy, stack) ← take1 (rest.drop nSigs)
  require (!hasFlag flags SCRIPT_VERIFY_NULLDUMMY || vchDummy.isEmpty) .SCRIPT_ERR_SIG_NULLDUMMY
  if fVerify then do
    require fSuccess .SCRIPT_ERR_CHECKMULTISIGVERIFY
    return (stack, nOpCount + nKeys)
  else return (ofBool fSuccess :: stack, nOpCount + nKeys)

/-- An opcode that is not enabled is one that an upgrade may give a meaning to. -/
def upgradableNop : Eval Unit :=
  require (!hasFlag flags SCRIPT_VERIFY_DISCOURAGE_UPGRADABLE_NOPS)
    .SCRIPT_ERR_DISCOURAGE_UPGRADABLE_NOPS

/-- `OP_CHECKLOCKTIMEVERIFY`. -/
def checkLockTimeVerify (stack : List Bytes) : Eval Unit :=
  if hasFlag flags SCRIPT_VERIFY_CHECKLOCKTIMEVERIFY then do
    let (vch, _) ← take1 stack
    let nLockTime ← scriptNum flags 5 vch
    require (decide (0 ≤ nLockTime)) .SCRIPT_ERR_NEGATIVE_LOCKTIME
    require (checker.checkLockTime nLockTime) .SCRIPT_ERR_UNSATISFIED_LOCKTIME
  else upgradableNop flags

def SEQUENCE_LOCKTIME_DISABLE_FLAG : ℕ := 1 <<< 31

/-- `OP_CHECKSEQUENCEVERIFY`. -/
def checkSequenceVerify (stack : List Bytes) : Eval Unit :=
  if hasFlag flags SCRIPT_VERIFY_CHECKSEQUENCEVERIFY then do
    let (vch, _) ← take1 stack
    let nSequence ← scriptNum flags 5 vch
    require (decide (0 ≤ nSequence)) .SCRIPT_ERR_NEGATIVE_LOCKTIME
    onlyIf (nSequence.toNat &&& SEQUENCE_LOCKTIME_DISABLE_FLAG == 0)
      (require (checker.checkSequence nSequence) .SCRIPT_ERR_UNSATISFIED_LOCKTIME)
  else upgradableNop flags

/-! ## Control -/

/-- `OP_IF` and `OP_NOTIF`. -/
def ifOp (fNot fExec : Bool) (s : EvalState) : Eval EvalState :=
  if fExec then do
    let vch ← demand s.stack.head? .SCRIPT_ERR_UNBALANCED_CONDITIONAL
    onlyIf (decide (sigversion = .SIGVERSION_WITNESS_V0) && hasFlag flags SCRIPT_VERIFY_MINIMALIF)
      (require (decide (vch.length ≤ 1) && (vch.length != 1 || vch.at 0 == 1))
        .SCRIPT_ERR_MINIMALIF)
    return { s with stack := s.stack.tail, vfExec := (castToBool vch != fNot) :: s.vfExec }
  else .ok { s with vfExec := false :: s.vfExec }

def hashOp (opcode : UInt8) (vch : Bytes) : Bytes :=
  if opcode = OP_RIPEMD160 then crypto.RIPEMD160 vch
  else if opcode = OP_SHA1 then crypto.SHA1 vch
  else if opcode = OP_SHA256 then crypto.SHA256 vch
  else if opcode = OP_HASH160 then crypto.Hash160 vch
  else crypto.Hash256 vch

def onStack (s : EvalState) (r : Eval (List Bytes)) : Eval EvalState := do
  let stack ← r
  return { s with stack := stack }

/-- The `switch` of `EvalScript`. -/
def evalOp (fExec : Bool) (opcode : UInt8) (s : EvalState) : Eval EvalState :=
  if opcode = OP_1NEGATE ∨ OP_1 ≤ opcode ∧ opcode ≤ OP_16 then
    .ok { s with stack := serializeScriptNum (opcode.toNat - 0x50) :: s.stack }
  else if opcode = OP_NOP then .ok s
  else if opcode = OP_CHECKLOCKTIMEVERIFY then do
    checkLockTimeVerify checker flags s.stack
    return s
  else if opcode = OP_CHECKSEQUENCEVERIFY then do
    checkSequenceVerify checker flags s.stack
    return s
  else if opcode = OP_NOP1 ∨ OP_NOP4 ≤ opcode ∧ opcode ≤ OP_NOP10 then do
    upgradableNop flags
    return s
  else if opcode = OP_IF ∨ opcode = OP_NOTIF then
    ifOp flags sigversion (opcode == OP_NOTIF) fExec s
  else if opcode = OP_ELSE then
    match s.vfExec with
    | [] => .error .SCRIPT_ERR_UNBALANCED_CONDITIONAL
    | fValue :: vfExec => .ok { s with vfExec := (!fValue) :: vfExec }
  else if opcode = OP_ENDIF then
    match s.vfExec with
    | [] => .error .SCRIPT_ERR_UNBALANCED_CONDITIONAL
    | _ :: vfExec => .ok { s with vfExec := vfExec }
  else if opcode = OP_VERIFY then do
    let (vch, stack) ← take1 s.stack
    require (castToBool vch) .SCRIPT_ERR_VERIFY
    return { s with stack := stack }
  else if opcode = OP_RETURN then .error .SCRIPT_ERR_OP_RETURN
  else if opcode = OP_TOALTSTACK then do
    let (vch, stack) ← take1 s.stack
    return { s with stack := stack, altstack := vch :: s.altstack }
  else if opcode = OP_FROMALTSTACK then
    match s.altstack with
    | [] => .error .SCRIPT_ERR_INVALID_ALTSTACK_OPERATION
    | vch :: altstack => .ok { s with stack := vch :: s.stack, altstack := altstack }
  else if opcode ∈ stackOpcodes then
    onStack s (demand (stackOp opcode s.stack) .SCRIPT_ERR_INVALID_STACK_OPERATION)
  else if opcode = OP_PICK ∨ opcode = OP_ROLL then
    onStack s (pickRoll flags (opcode == OP_ROLL) s.stack)
  else if opcode = OP_EQUAL ∨ opcode = OP_EQUALVERIFY then
    onStack s (equalOp (opcode == OP_EQUALVERIFY) s.stack)
  else if opcode ∈ unaryOpcodes then onStack s (unaryOp flags opcode s.stack)
  else if opcode ∈ binaryOpcodes then onStack s (binaryOp flags opcode s.stack)
  else if opcode = OP_WITHIN then onStack s (within flags s.stack)
  else if opcode = OP_RIPEMD160 ∨ opcode = OP_SHA1 ∨ opcode = OP_SHA256 ∨ opcode = OP_HASH160 ∨
      opcode = OP_HASH256 then do
    let (vch, stack) ← take1 s.stack
    return { s with stack := hashOp crypto opcode vch :: stack }
  else if opcode = OP_CODESEPARATOR then .ok { s with codehash := s.pc }
  else if opcode = OP_CHECKSIG ∨ opcode = OP_CHECKSIGVERIFY then
    onStack s (checkSigOp crypto checker flags sigversion (opcode == OP_CHECKSIGVERIFY) s.codehash
      s.stack)
  else if opcode = OP_CHECKMULTISIG ∨ opcode = OP_CHECKMULTISIGVERIFY then do
    let (stack, nOpCount) ← checkMultiSigOp crypto checker flags sigversion
      (opcode == OP_CHECKMULTISIGVERIFY) s.codehash s.nOpCount s.stack
    return { s with stack := stack, nOpCount := nOpCount }
  else if opcode = OP_UNEMP_ASSET then .ok s
  else .error .SCRIPT_ERR_BAD_OPCODE

/-- A push, an operation, or nothing in a branch that is not taken. -/
def execute (fExec : Bool) (opcode : UInt8) (vchPushValue : Bytes) (s : EvalState) :
    Eval EvalState :=
  if fExec ∧ opcode ≤ OP_PUSHDATA4 then do
    require (!hasFlag flags SCRIPT_VERIFY_MINIMALDATA || checkMinimalPush vchPushValue opcode)
      .SCRIPT_ERR_MINIMALDATA
    return { s with stack := vchPushValue :: s.stack }
  else if fExec ∨ OP_IF ≤ opcode ∧ opcode ≤ OP_ENDIF then
    evalOp crypto checker flags sigversion fExec opcode s
  else .ok s

def evalStep (s : EvalState) : Eval EvalState := do
  let fExec := s.vfExec.all id
  let (opcode, vchPushValue, pc) ← demand s.pc.getOp .SCRIPT_ERR_BAD_OPCODE
  require (decide (vchPushValue.length ≤ MAX_SCRIPT_ELEMENT_SIZE)) .SCRIPT_ERR_PUSH_SIZE
  let nOpCount := if OP_16 < opcode then s.nOpCount + 1 else s.nOpCount
  require (decide (opcode ≤ OP_16) || decide (nOpCount ≤ MAX_OPS_PER_SCRIPT)) .SCRIPT_ERR_OP_COUNT
  require (!disabledOpcodes.contains opcode) .SCRIPT_ERR_DISABLED_OPCODE
  let s ← execute crypto checker flags sigversion fExec opcode vchPushValue
    { s with pc := pc, nOpCount := nOpCount }
  require (decide (s.stack.length + s.altstack.length ≤ MAX_STACK_SIZE)) .SCRIPT_ERR_STACK_SIZE
  return s

/-- The loop.  The first argument bounds the number of rounds; each takes a byte of the script, so
that its length is enough (`evalLoop_eq`). -/
def evalLoop : ℕ → EvalState → Eval EvalState
  | 0, s => if s.pc.isEmpty then .ok s else .error .SCRIPT_ERR_UNKNOWN_ERROR
  | n + 1, s =>
    if s.pc.isEmpty then .ok s
    else do
      let s ← evalStep crypto checker flags sigversion s
      evalLoop n s

def evalScript (stack : List Bytes) (script : CScript) : Eval (List Bytes) := do
  require (decide (script.length ≤ MAX_SCRIPT_SIZE)) .SCRIPT_ERR_SCRIPT_SIZE
  let s ← evalLoop crypto checker flags sigversion script.length (.start stack script)
  require s.vfExec.isEmpty .SCRIPT_ERR_UNBALANCED_CONDITIONAL
  return s.stack

end Eval

end UnemployCoin
