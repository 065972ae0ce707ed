import UnemployCoin.ChainParams
/-!
# Destinations and addresses

Who an output script pays (`script/standard.cpp`), and the Base58Check text of it
(`base58.cpp`).  Every asset script pays the key hash at bytes 3 to 22.
-/

namespace UnemployCoin

/-! ## Script templates -/

def OP_SMALLINTEGER : UInt8 := 0xfa
def OP_PUBKEYS : UInt8 := 0xfb
def OP_PUBKEYHASH : UInt8 := 0xfd
def OP_PUBKEY : UInt8 := 0xfe

/-- The data pushes between 33 and 65 bytes from the front of a script, and the first read that
is not one.  A failed read leaves `OP_INVALIDOPCODE` and no data. -/
def takePubKeys : ℕ → UInt8 × Bytes → CScript → List Bytes × (UInt8 × Bytes) × CScript
  | 0, op, s => ([], op, s)
  | n + 1, (opcode, vch), s =>
    if 33 ≤ vch.length ∧ vch.length ≤ 65 then
      match s.getOp with
      | none => ([vch], (0xff, []), s)
      | some (opcode', vch', rest) =>
        let (keys, op, rest') := takePubKeys n (opcode', vch') rest
        (vch :: keys, op, rest')
    else ([], (opcode, vch), s)

/-- One opcode of a template against one of a script: what the script supplies for it. -/
def matchOp (opcode2 opcode1 : UInt8) (vch1 : Bytes) : Option (List Bytes) :=
  if opcode2 = OP_PUBKEY then
    if vch1.length < 33 || vch1.length > 65 then none else some [vch1]
  else if opcode2 = OP_PUBKEYHASH then
    if vch1.length = 20 then some [vch1] else none
  else if opcode2 = OP_SMALLINTEGER then
    if opcode1 = OP_0 then some [[0]]
    else if OP_1 ≤ opcode1 ∧ opcode1 ≤ OP_16 then some [[opcode1 - 0x50]]
    else none
  else if opcode1 = opcode2 ∧ vch1 = [] then some []
  else none

/-- The comparison loop of `Solver` for one template; `none` when it does not match. -/
def matchTemplate : List UInt8 → CScript → Option (List Bytes)
  | [], [] => some []
  | [], _ :: _ => none
  | opcode2 :: template, s =>
    match s.getOp with
    | none => none
    | some (opcode1, vch1, rest) =>
      if opcode2 = OP_PUBKEYS then
        let (keys, (opcode1', vch1'), rest') := takePubKeys s.length (opcode1, vch1) rest
        match template with
        | [] => none
        | opcode2' :: template' => do
          let sol ← matchOp opcode2' opcode1' vch1'
          let sols ← matchTemplate template' rest'
          return keys ++ sol ++ sols
      else do
        let sol ← matchOp opcode2 opcode1 vch1
        let sols ← matchTemplate template rest
        return sol ++ sols

/-- `m` and `n` of a multisig script are possible. -/
def multisigPossible (sols : List Bytes) : Bool :=
  let m := (sols.headD []).headD 0
  let n := (sols.getLastD []).headD 0
  !(m < 1 || n < 1 || m > n || sols.length - 2 != n.toNat)

/-- `Solver`: the kind of a script and what it supplies. -/
def solver (s : CScript) : Option (txnouttype × List Bytes) :=
  if s.isPayToScriptHash then some (.TX_SCRIPTHASH, [s.substr 2 20])
  else match s.isAssetScript with
  | some t => some (t.nType, [s.substr 3 20])
  | none =>
    match s.isWitnessProgram with
    | some (version, program) =>
      if version = 0 ∧ program.length = 20 then some (.TX_WITNESS_V0_KEYHASH, [program])
      else if version = 0 ∧ program.length = 32 then some (.TX_WITNESS_V0_SCRIPTHASH, [program])
      else none
    | none =>
      if s.length ≥ 1 && s.at 0 == OP_RETURN && CScript.isPushOnly (s.drop 1) then
        some (.TX_NULL_DATA, [])
      else if s.length ≥ 1 && s.at 0 == OP_UNEMP_ASSET && CScript.isPushOnly (s.drop 1) then
        some (.TX_RESTRICTED_ASSET_DATA,
          if s.length ≥ 23 && s.at 1 != OP_RESERVED then [s.substr 2 20] else [])
      else
        match matchTemplate [OP_PUBKEY, OP_CHECKSIG] s with
        | some sols => some (.TX_PUBKEY, sols)
        | none =>
          match matchTemplate
            [OP_DUP, OP_HASH160, OP_PUBKEYHASH, OP_EQUALVERIFY, OP_CHECKSIG] s with
          | some sols => some (.TX_PUBKEYHASH, sols)
          | none =>
            match matchTemplate
              [OP_SMALLINTEGER, OP_PUBKEYS, OP_SMALLINTEGER, OP_CHECKMULTISIG] s with
            | some sols => if multisigPossible sols then some (.TX_MULTISIG, sols) else none
            | none => none

inductive CTxDestination where
  | CNoDestination
  | CKeyID (id : Bytes)
  | CScriptID (id : Bytes)
  deriving DecidableEq, Repr

def isValidDestination (dest : CTxDestination) : Bool := decide (dest ≠ .CNoDestination)

/-- `CPubKey::IsValid` after `CPubKey::Set`: the header byte gives the length. -/
def isValidPubKey (vch : Bytes) : Bool :=
  let chHeader := vch.at 0
  ((chHeader == 2 || chHeader == 3) && vch.length == 33) ||
    ((chHeader == 4 || chHeader == 6 || chHeader == 7) && vch.length == 65)

def extractDestination (env : Env) (s : CScript) : Option CTxDestination :=
  match solver s with
  | none => none
  | some (whichType, vSolutions) =>
    match whichType, vSolutions with
    | .TX_PUBKEY, pubKey :: _ =>
      if isValidPubKey pubKey then some (.CKeyID (env.Hash160 pubKey)) else none
    | .TX_PUBKEYHASH, hash :: _ => some (.CKeyID hash)
    | .TX_SCRIPTHASH, hash :: _ => some (.CScriptID hash)
    | .TX_NEW_ASSET, hash :: _ => some (.CKeyID hash)
    | .TX_REISSUE_ASSET, hash :: _ => some (.CKeyID hash)
    | .TX_TRANSFER_ASSET, hash :: _ => some (.CKeyID hash)
    | .TX_RESTRICTED_ASSET_DATA, hash :: _ => some (.CKeyID hash)
    | _, _ => none

/-! ## Base58 -/

def pszBase58 : Bytes := ascii "123456789ABCDEFGHJKLMNPQRSTUVWXYZabcdefghijkmnopqrstuvwxyz"

/-- `b58 = b58 * 256 + ch` on the digits, least significant first.  The source stops where the
carry and the digits are zero, which leaves the digits from there on as they are. -/
def base58Step : List ℕ → ℕ → List ℕ
  | [], _ => []
  | digit :: digits, carry =>
    (carry + 256 * digit) % 58 :: base58Step digits ((carry + 256 * digit) / 58)

/-- `int size`. -/
def intSize (n : ℕ) : ℤ := (Int32.ofNat n).toInt

/-- `EncodeBase58`, where it comes to an end: it stops at a size that is negative and at a carry
that is left over, see `encodeBase58Loops`. -/
def encodeBase58 (vch : Bytes) : Bytes :=
  let zeroes := (vch.takeWhile fun b => b == 0).length
  let rest := vch.drop zeroes
  let size := intSize (rest.length * 138 / 100 + 1)
  let b58 := rest.foldl (fun b58 b => base58Step b58 b.toNat) (List.replicate size.toNat 0)
  List.replicate zeroes (pszBase58.at 0) ++
    (b58.reverse.dropWhile fun d => d == 0).map fun d => pszBase58.at d

def encodeBase58Check (env : Env) (vchIn : Bytes) : Bytes :=
  encodeBase58 (vchIn ++ (env.Hash vchIn).take 4)

def encodeDestination (env : Env) : CTxDestination → Bytes
  | .CNoDestination => []
  | .CKeyID id => encodeBase58Check env (env.params.pubkeyAddressPrefix ++ id)
  | .CScriptID id => encodeBase58Check env (env.params.scriptAddressPrefix ++ id)

/-- `b256 = b256 * 58 + ch` on the bytes, least significant first. -/
def base256Step : List ℕ → ℕ → List ℕ
  | [], _ => []
  | byte :: bytes, carry =>
    (carry + 58 * byte) % 256 :: base256Step bytes ((carry + 58 * byte) / 256)

/-- `isspace` in the C locale. -/
def isSpace (c : UInt8) : Bool := c == 32 || (decide (9 ≤ c) && decide (c ≤ 13))

/-- `DecodeBase58`, of a string without a NUL byte, where it comes to an end. -/
def decodeBase58 (str : Bytes) : Option Bytes :=
  let str := str.dropWhile isSpace
  let zeroes := (str.takeWhile fun c => c == pszBase58.at 0).length
  let rest := str.drop zeroes
  let digits := rest.takeWhile fun c => !isSpace c
  let tail := rest.drop digits.length
  let size := intSize (rest.length * 733 / 1000 + 1)
  if digits.all fun c => pszBase58.contains c then
    if tail.all isSpace then
      let b256 := digits.foldl (fun b256 c => base256Step b256 (pszBase58.idxOf c))
        (List.replicate size.toNat 0)
      some (List.replicate zeroes 0 ++
        (b256.reverse.dropWhile fun b => b == 0).map fun b => UInt8.ofNat b)
    else none
  else none

def decodeBase58Check (env : Env) (str : Bytes) : Option Bytes :=
  match decodeBase58 str with
  | none => none
  | some vch =>
    if vch.length < 4 then none
    else
      let data := vch.take (vch.length - 4)
      if (env.Hash data).take 4 = vch.drop (vch.length - 4) then some data else none

/-- `DecodeDestination`: a one-byte version and a hash of twenty bytes. -/
def decodeDestination (env : Env) (str : Bytes) : CTxDestination :=
  match decodeBase58Check env str with
  | none => .CNoDestination
  | some vch =>
    if vch.length ≠ 21 then .CNoDestination
    else if vch.take 1 = env.params.pubkeyAddressPrefix then .CKeyID (vch.drop 1)
    else if vch.take 1 = env.params.scriptAddressPrefix then .CScriptID (vch.drop 1)
    else .CNoDestination

/-- The address an output script pays, empty when it pays none. -/
def addressOf (env : Env) (s : CScript) : Bytes :=
  encodeDestination env ((extractDestination env s).getD .CNoDestination)

/-- `GetScriptForDestination` of a key hash. -/
def getScriptForKeyID (id : Bytes) : CScript :=
  [OP_DUP, OP_HASH160] ++ CScript.pushData id ++ [OP_EQUALVERIFY, OP_CHECKSIG]

end UnemployCoin
