import UnemployCoin.Bytes
/-!
# Output scripts

`CScript` and the predicates that classify an output by the bytes of its script
(`script/script.h`, `script/script.cpp`).

An asset output is a pay-to-pubkey-hash script followed, at index 25, by `OP_UNEMP_ASSET` and a
push whose data begins with `r v n` and one byte for the operation.  A null asset output begins
with `OP_UNEMP_ASSET`.
-/

namespace UnemployCoin

abbrev CScript := Bytes

def OP_0 : UInt8 := 0x00
def OP_PUSHDATA1 : UInt8 := 0x4c
def OP_PUSHDATA2 : UInt8 := 0x4d
def OP_PUSHDATA4 : UInt8 := 0x4e
def OP_RESERVED : UInt8 := 0x50
def OP_1 : UInt8 := 0x51
def OP_16 : UInt8 := 0x60
def OP_RETURN : UInt8 := 0x6a
def OP_DROP : UInt8 := 0x75
def OP_DUP : UInt8 := 0x76
def OP_EQUAL : UInt8 := 0x87
def OP_EQUALVERIFY : UInt8 := 0x88
def OP_HASH160 : UInt8 := 0xa9
def OP_CHECKSIG : UInt8 := 0xac
def OP_CHECKMULTISIG : UInt8 := 0xae
def OP_UNEMP_ASSET : UInt8 := 0xc0

def UNEMP_R : UInt8 := 114
def UNEMP_V : UInt8 := 118
def UNEMP_N : UInt8 := 110
def UNEMP_Q : UInt8 := 113
def UNEMP_T : UInt8 := 116
def UNEMP_O : UInt8 := 111

def MAX_SCRIPT_SIZE : ℕ := 10000

inductive txnouttype where
  | TX_NONSTANDARD
  | TX_PUBKEY
  | TX_PUBKEYHASH
  | TX_SCRIPTHASH
  | TX_MULTISIG
  | TX_NULL_DATA
  | TX_WITNESS_V0_SCRIPTHASH
  | TX_WITNESS_V0_KEYHASH
  | TX_NEW_ASSET
  | TX_REISSUE_ASSET
  | TX_TRANSFER_ASSET
  | TX_RESTRICTED_ASSET_DATA
  deriving DecidableEq, Repr

/-- What `IsAssetScript` writes to its three out-parameters. -/
structure AssetScriptType where
  nType : txnouttype
  fIsOwner : Bool
  nStartingIndex : ℕ
  deriving DecidableEq, Repr

namespace CScript

/-- Where the byte for the operation stands: after `r v n` at 27, or at 28 when the push of the
data takes two bytes. -/
def assetOpIndex (s : CScript) : Option ℕ :=
  if Bytes.at s 27 == UNEMP_R then
    if Bytes.at s 28 == UNEMP_V && Bytes.at s 29 == UNEMP_N then some 30 else none
  else
    if Bytes.at s 28 == UNEMP_R && Bytes.at s 29 == UNEMP_V && Bytes.at s 30 == UNEMP_N then
      some 31
    else none

def isAssetScript (s : CScript) : Option AssetScriptType :=
  if s.length > 31 && Bytes.at s 25 == OP_UNEMP_ASSET then
    match assetOpIndex s with
    | none => none
    | some index =>
      if Bytes.at s index == UNEMP_T then some ⟨.TX_TRANSFER_ASSET, false, index + 1⟩
      else if Bytes.at s index == UNEMP_Q && s.length > 39 then
        some ⟨.TX_NEW_ASSET, false, index + 1⟩
      else if Bytes.at s index == UNEMP_O then some ⟨.TX_NEW_ASSET, true, index + 1⟩
      else if Bytes.at s index == UNEMP_R then some ⟨.TX_REISSUE_ASSET, false, index + 1⟩
      else none
  else none

/-- The start of the data of an asset script of one kind, as `IsScriptNewAsset` and its
siblings in `assets.cpp` compute it. -/
def assetDataIndex (nType : txnouttype) (fIsOwner : Bool) (s : CScript) : Option ℕ :=
  match isAssetScript s with
  | some t => if t.nType = nType ∧ t.fIsOwner = fIsOwner then some t.nStartingIndex else none
  | none => none

def isScriptNewAsset : CScript → Option ℕ := assetDataIndex .TX_NEW_ASSET false

def isScriptOwnerAsset : CScript → Option ℕ := assetDataIndex .TX_NEW_ASSET true

def isScriptReissueAsset : CScript → Option ℕ := assetDataIndex .TX_REISSUE_ASSET false

def isScriptTransferAsset : CScript → Option ℕ := assetDataIndex .TX_TRANSFER_ASSET false

def isNullAssetTxDataScript (s : CScript) : Bool :=
  s.length > 23 && Bytes.at s 0 == OP_UNEMP_ASSET && Bytes.at s 1 == 0x14

def isNullGlobalRestrictionAssetTxDataScript (s : CScript) : Bool :=
  s.length > 6 && Bytes.at s 0 == OP_UNEMP_ASSET && Bytes.at s 1 == OP_RESERVED &&
    Bytes.at s 2 == OP_RESERVED

def isNullAssetVerifierTxDataScript (s : CScript) : Bool :=
  s.length > 3 && Bytes.at s 0 == OP_UNEMP_ASSET && Bytes.at s 1 == OP_RESERVED &&
    Bytes.at s 2 != OP_RESERVED

def isNullAsset (s : CScript) : Bool :=
  isNullAssetTxDataScript s || isNullGlobalRestrictionAssetTxDataScript s ||
    isNullAssetVerifierTxDataScript s

def isPayToPublicKeyHash (s : CScript) : Bool :=
  s.length == 25 && Bytes.at s 0 == OP_DUP && Bytes.at s 1 == OP_HASH160 && Bytes.at s 2 == 0x14 &&
    Bytes.at s 23 == OP_EQUALVERIFY && Bytes.at s 24 == OP_CHECKSIG

def isPayToScriptHash (s : CScript) : Bool :=
  s.length == 23 && Bytes.at s 0 == OP_HASH160 && Bytes.at s 1 == 0x14 &&
    Bytes.at s 22 == OP_EQUAL

/-- `CScript::IsWitnessProgram`: version and program. -/
def isWitnessProgram (s : CScript) : Option (ℕ × Bytes) :=
  if s.length < 4 || s.length > 42 then none
  else if Bytes.at s 0 != OP_0 && (Bytes.at s 0 < OP_1 || Bytes.at s 0 > OP_16) then none
  else if (Bytes.at s 1).toNat + 2 = s.length then
    some (if Bytes.at s 0 == OP_0 then 0 else (Bytes.at s 0).toNat - 0x50, s.drop 2)
  else none

/-- Data of a push opcode: how many bytes of its length field to skip, and the length. -/
def pushSize (opcode : UInt8) (rest : Bytes) : Option (ℕ × ℕ) :=
  if opcode < OP_PUSHDATA1 then some (0, opcode.toNat)
  else if opcode = OP_PUSHDATA1 then
    if rest.length < 1 then none else some (1, readLE (rest.take 1))
  else if opcode = OP_PUSHDATA2 then
    if rest.length < 2 then none else some (2, readLE (rest.take 2))
  else
    if rest.length < 4 then none else some (4, readLE (rest.take 4))

/-- `CScript::GetOp2`: the opcode, its immediate data, and the rest of the script.  All bytes
after an `OP_UNEMP_ASSET` are its data. -/
def getOp : CScript → Option (UInt8 × Bytes × CScript)
  | [] => none
  | opcode :: rest =>
    if opcode ≤ OP_PUSHDATA4 then
      match pushSize opcode rest with
      | none => none
      | some (skip, nSize) =>
        let body := rest.drop skip
        if body.length < nSize then none
        else some (opcode, body.take nSize, body.drop nSize)
    else if opcode = OP_UNEMP_ASSET then some (opcode, rest, [])
    else some (opcode, [], rest)

/-- The opcodes that repeated `GetOp` reads, up to the end or the first failure.  The first
argument bounds the number of reads; the length of the script is enough, as each takes a
byte. -/
def getOps : ℕ → CScript → List UInt8 × Bool
  | 0, s => ([], s.isEmpty)
  | n + 1, s =>
    if s.isEmpty then ([], true)
    else match getOp s with
      | none => ([], false)
      | some (opcode, _, rest) =>
        let (ops, fEnd) := getOps n rest
        (opcode :: ops, fEnd)

/-- `CScript::Find`, as a condition. -/
def find (s : CScript) (op : UInt8) : Bool := (getOps s.length s).1.contains op

def isPushOnly (s : CScript) : Bool :=
  let (ops, fEnd) := getOps s.length s
  fEnd && ops.all fun op => decide (op ≤ OP_16)

/-- `CScript::operator<<` for data: the opcode that pushes it, and the data. -/
def pushData (data : Bytes) : CScript :=
  if data.length < OP_PUSHDATA1.toNat then UInt8.ofNat data.length :: data
  else if data.length ≤ 0xff then OP_PUSHDATA1 :: UInt8.ofNat data.length :: data
  else if data.length ≤ 0xffff then OP_PUSHDATA2 :: (writeLE 2 data.length ++ data)
  else OP_PUSHDATA4 :: (writeLE 4 data.length ++ data)

end CScript

end UnemployCoin
