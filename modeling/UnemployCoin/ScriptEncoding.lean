import UnemployCoin.CoinbaseHeight
/-!
# Encodings in scripts

The tests of `EvalScript` (`script/interpreter.cpp`, `script/script.h`) on how a number, a push, a
signature and a public key are encoded, most of which are made under a verification flag only.
-/

namespace UnemployCoin

open Check

/-! ## Flags and errors -/

def SCRIPT_VERIFY_NONE : UInt32 := 0
def SCRIPT_VERIFY_P2SH : UInt32 := 0x0001
def SCRIPT_VERIFY_STRICTENC : UInt32 := 0x0002
def SCRIPT_VERIFY_DERSIG : UInt32 := 0x0004
def SCRIPT_VERIFY_LOW_S : UInt32 := 0x0008
def SCRIPT_VERIFY_NULLDUMMY : UInt32 := 0x0010
def SCRIPT_VERIFY_SIGPUSHONLY : UInt32 := 0x0020
def SCRIPT_VERIFY_MINIMALDATA : UInt32 := 0x0040
def SCRIPT_VERIFY_DISCOURAGE_UPGRADABLE_NOPS : UInt32 := 0x0080
def SCRIPT_VERIFY_CLEANSTACK : UInt32 := 0x0100
def SCRIPT_VERIFY_CHECKLOCKTIMEVERIFY : UInt32 := 0x0200
def SCRIPT_VERIFY_CHECKSEQUENCEVERIFY : UInt32 := 0x0400
def SCRIPT_VERIFY_WITNESS : UInt32 := 0x0800
def SCRIPT_VERIFY_DISCOURAGE_UPGRADABLE_WITNESS_PROGRAM : UInt32 := 0x1000
def SCRIPT_VERIFY_MINIMALIF : UInt32 := 0x2000
def SCRIPT_VERIFY_NULLFAIL : UInt32 := 0x4000
def SCRIPT_VERIFY_WITNESS_PUBKEYTYPE : UInt32 := 0x8000

/-- `flags & mask`, as a condition. -/
def hasFlag (flags mask : UInt32) : Bool := flags &&& mask != 0

/-- `ScriptError`.  An assertion that fails ends the program. -/
inductive ScriptError where
  | SCRIPT_ERR_UNKNOWN_ERROR
  | SCRIPT_ERR_EVAL_FALSE
  | SCRIPT_ERR_OP_RETURN
  | SCRIPT_ERR_SCRIPT_SIZE
  | SCRIPT_ERR_PUSH_SIZE
  | SCRIPT_ERR_OP_COUNT
  | SCRIPT_ERR_STACK_SIZE
  | SCRIPT_ERR_SIG_COUNT
  | SCRIPT_ERR_PUBKEY_COUNT
  | SCRIPT_ERR_VERIFY
  | SCRIPT_ERR_EQUALVERIFY
  | SCRIPT_ERR_CHECKMULTISIGVERIFY
  | SCRIPT_ERR_CHECKSIGVERIFY
  | SCRIPT_ERR_NUMEQUALVERIFY
  | SCRIPT_ERR_BAD_OPCODE
  | SCRIPT_ERR_DISABLED_OPCODE
  | SCRIPT_ERR_INVALID_STACK_OPERATION
  | SCRIPT_ERR_INVALID_ALTSTACK_OPERATION
  | SCRIPT_ERR_UNBALANCED_CONDITIONAL
  | SCRIPT_ERR_NEGATIVE_LOCKTIME
  | SCRIPT_ERR_UNSATISFIED_LOCKTIME
  | SCRIPT_ERR_SIG_HASHTYPE
  | SCRIPT_ERR_SIG_DER
  | SCRIPT_ERR_MINIMALDATA
  | SCRIPT_ERR_SIG_PUSHONLY
  | SCRIPT_ERR_SIG_HIGH_S
  | SCRIPT_ERR_SIG_NULLDUMMY
  | SCRIPT_ERR_PUBKEYTYPE
  | SCRIPT_ERR_CLEANSTACK
  | SCRIPT_ERR_MINIMALIF
  | SCRIPT_ERR_SIG_NULLFAIL
  | SCRIPT_ERR_DISCOURAGE_UPGRADABLE_NOPS
  | SCRIPT_ERR_DISCOURAGE_UPGRADABLE_WITNESS_PROGRAM
  | SCRIPT_ERR_WITNESS_PROGRAM_WRONG_LENGTH
  | SCRIPT_ERR_WITNESS_PROGRAM_WITNESS_EMPTY
  | SCRIPT_ERR_WITNESS_PROGRAM_MISMATCH
  | SCRIPT_ERR_WITNESS_MALLEATED
  | SCRIPT_ERR_WITNESS_MALLEATED_P2SH
  | SCRIPT_ERR_WITNESS_UNEXPECTED
  | SCRIPT_ERR_WITNESS_PUBKEYTYPE
  | assertion
  deriving DecidableEq, Repr

abbrev Eval := Except ScriptError

inductive SigVersion where
  | SIGVERSION_BASE
  | SIGVERSION_WITNESS_V0
  deriving DecidableEq, Repr

/-- The hash functions of scripts, and `CPubKey::CheckLowS`. -/
structure ScriptCrypto where
  RIPEMD160 : Bytes → Bytes
  SHA1 : Bytes → Bytes
  SHA256 : Bytes → Bytes
  checkLowS : Bytes → Bool

/-- `CHash160`. -/
def ScriptCrypto.Hash160 (crypto : ScriptCrypto) (s : Bytes) : Bytes :=
  crypto.RIPEMD160 (crypto.SHA256 s)

/-- `CHash256`. -/
def ScriptCrypto.Hash256 (crypto : ScriptCrypto) (s : Bytes) : Bytes :=
  crypto.SHA256 (crypto.SHA256 s)

/-! ## Booleans and numbers -/

def Bytes.back (s : Bytes) : UInt8 := s.at (s.length - 1)

/-- `CastToBool`: some byte is not zero, other than a sign bit alone in the last one. -/
def castToBool : Bytes → Bool
  | [] => false
  | [b] => b != 0 && b != 0x80
  | b :: bs => b != 0 || castToBool bs

def setVch (vch : Bytes) : ℤ :=
  if vch.isEmpty then 0
  else if vch.back &&& 0x80 != 0 then -((readLE vch - 0x80 * 256 ^ (vch.length - 1) : ℕ) : ℤ)
  else (readLE vch : ℤ)

/-- A number in the fewest bytes: the last byte has more than its sign bit, unless the byte before
needs its top bit. -/
def isMinimalNum (vch : Bytes) : Bool :=
  vch.isEmpty || vch.back &&& 0x7f != 0 ||
    (decide (1 < vch.length) && vch.at (vch.length - 2) &&& 0x80 != 0)

/-- The constructor of `CScriptNum`.  `EvalScript` catches what it throws. -/
def scriptNum (flags : UInt32) (nMaxNumSize : ℕ) (vch : Bytes) : Eval ℤ := do
  require (decide (vch.length ≤ nMaxNumSize)) .SCRIPT_ERR_UNKNOWN_ERROR
  require (!hasFlag flags SCRIPT_VERIFY_MINIMALDATA || isMinimalNum vch) .SCRIPT_ERR_UNKNOWN_ERROR
  return setVch vch

def nDefaultMaxNumSize : ℕ := 4

def OP_1NEGATE : UInt8 := 0x4f

def checkMinimalPush (data : Bytes) (opcode : UInt8) : Bool :=
  if data.length = 0 then opcode == OP_0
  else if data.length = 1 ∧ 1 ≤ data.at 0 ∧ data.at 0 ≤ 16 then opcode == OP_1 + (data.at 0 - 1)
  else if data.length = 1 ∧ data.at 0 = 0x81 then opcode == OP_1NEGATE
  else if data.length ≤ 75 then opcode.toNat == data.length
  else if data.length ≤ 255 then opcode == OP_PUSHDATA1
  else if data.length ≤ 65535 then opcode == OP_PUSHDATA2
  else true

/-! ## Signatures and keys -/

def isCompressedOrUncompressedPubKey (vchPubKey : Bytes) : Bool :=
  if vchPubKey.length < 33 then false
  else if vchPubKey.at 0 = 0x04 then vchPubKey.length == 65
  else if vchPubKey.at 0 = 0x02 ∨ vchPubKey.at 0 = 0x03 then vchPubKey.length == 33
  else false

def isCompressedPubKey (vchPubKey : Bytes) : Bool :=
  vchPubKey.length == 33 && (vchPubKey.at 0 == 0x02 || vchPubKey.at 0 == 0x03)

/-- An integer of a signature: not empty, not negative, and without a zero byte in front that is
not needed. -/
def isDerInteger (sig : Bytes) (start len : ℕ) : Bool :=
  len != 0 && sig.at start &&& 0x80 == 0 &&
    !(decide (1 < len) && sig.at start == 0 && sig.at (start + 1) &&& 0x80 == 0)

/-- `IsValidSignatureEncoding`: `30 [total] 02 [lenR] [R] 02 [lenS] [S] [hashtype]`. -/
def isValidSignatureEncoding (sig : Bytes) : Bool :=
  let lenR := (sig.at 3).toNat
  let lenS := (sig.at (5 + lenR)).toNat
  decide (9 ≤ sig.length) && decide (sig.length ≤ 73) && sig.at 0 == 0x30 &&
    (sig.at 1).toNat == sig.length - 3 && decide (5 + lenR < sig.length) &&
    lenR + lenS + 7 == sig.length && sig.at 2 == 0x02 && isDerInteger sig 4 lenR &&
    sig.at (lenR + 4) == 0x02 && isDerInteger sig (lenR + 6) lenS

/-- `IsDefinedHashtypeSignature`: all, none or single, with or without `ANYONECANPAY`. -/
def isDefinedHashtypeSignature (vchSig : Bytes) : Bool :=
  let nHashType := vchSig.back &&& 0x7f
  !vchSig.isEmpty && decide (1 ≤ nHashType) && decide (nHashType ≤ 3)

section Encodings

variable (crypto : ScriptCrypto) (flags : UInt32)

def isLowDERSignature (vchSig : Bytes) : Eval Unit := do
  require (isValidSignatureEncoding vchSig) .SCRIPT_ERR_SIG_DER
  require (crypto.checkLowS vchSig.dropLast) .SCRIPT_ERR_SIG_HIGH_S

/-- `CheckSignatureEncoding`.  The empty signature is a short form of a wrong one. -/
def checkSignatureEncoding (vchSig : Bytes) : Eval Unit :=
  onlyIf (!vchSig.isEmpty) do
    onlyIf (hasFlag flags
        (SCRIPT_VERIFY_DERSIG ||| SCRIPT_VERIFY_LOW_S ||| SCRIPT_VERIFY_STRICTENC))
      (require (isValidSignatureEncoding vchSig) .SCRIPT_ERR_SIG_DER)
    onlyIf (hasFlag flags SCRIPT_VERIFY_LOW_S) (isLowDERSignature crypto vchSig)
    onlyIf (hasFlag flags SCRIPT_VERIFY_STRICTENC)
      (require (isDefinedHashtypeSignature vchSig) .SCRIPT_ERR_SIG_HASHTYPE)

def checkPubKeyEncoding (vchPubKey : Bytes) (sigversion : SigVersion) : Eval Unit := do
  onlyIf (hasFlag flags SCRIPT_VERIFY_STRICTENC)
    (require (isCompressedOrUncompressedPubKey vchPubKey) .SCRIPT_ERR_PUBKEYTYPE)
  onlyIf (hasFlag flags SCRIPT_VERIFY_WITNESS_PUBKEYTYPE &&
      decide (sigversion = .SIGVERSION_WITNESS_V0))
    (require (isCompressedPubKey vchPubKey) .SCRIPT_ERR_WITNESS_PUBKEYTYPE)

end Encodings

end UnemployCoin
