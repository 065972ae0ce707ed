import UnemployCoin.CoinsUndo
import UnemployCoin.Lib.Batch
/-!
# The address and spent indexes

What `ConnectBlock` and `DisconnectBlock` write to the address index, the index of unspent outputs
by address and the spent index (`addressindex.h`, `spentindex.h`, `txdb.cpp`, `validation.cpp`).
The writes of a block are collected along its transactions and written at the end.  A store is a
map from keys; the keys are written with a fixed width for each number, so different keys stay
different.
-/

namespace UnemployCoin

open Check

/-! ## Keys and values -/

def UNEMP : Bytes := ascii "UNEMP"

structure CAddressIndexKey where
  type : ℕ
  hashBytes : Bytes
  asset : Bytes
  blockHeight : ℕ
  txindex : ℕ
  txhash : uint256
  index : ℕ
  spending : Bool
  deriving DecidableEq, Repr

structure CAddressUnspentKey where
  type : ℕ
  hashBytes : Bytes
  asset : Bytes
  txhash : uint256
  index : ℕ
  deriving DecidableEq, Repr

structure CAddressUnspentValue where
  satoshis : CAmount
  script : CScript
  blockHeight : ℕ
  deriving DecidableEq, Repr

def CAddressUnspentValue.null : CAddressUnspentValue := ⟨-1, [], 0⟩

def CAddressUnspentValue.isNull (value : CAddressUnspentValue) : Bool := value.satoshis == -1

structure CSpentIndexKey where
  txid : uint256
  outputIndex : ℕ
  deriving DecidableEq, Repr

structure CSpentIndexValue where
  txid : uint256
  inputIndex : ℕ
  blockHeight : ℕ
  satoshis : CAmount
  addressType : ℕ
  addressHash : Bytes
  deriving DecidableEq, Repr

def nullHash160 : Bytes := List.replicate 20 0

def CSpentIndexValue.null : CSpentIndexValue := ⟨0, 0, 0, 0, 0, nullHash160⟩

def CSpentIndexValue.isNull (value : CSpentIndexValue) : Bool := value.txid == 0

/-! ## The stores -/

/-- The indexes in `CBlockTreeDB`. -/
structure CBlockTreeDB where
  addressIndex : StdMap CAddressIndexKey CAmount
  addressUnspentIndex : StdMap CAddressUnspentKey CAddressUnspentValue
  spentIndex : StdMap CSpentIndexKey CSpentIndexValue

structure IndexBatch where
  addressIndex : List (CAddressIndexKey × CAmount)
  addressUnspentIndex : List (CAddressUnspentKey × CAddressUnspentValue)
  spentIndex : List (CSpentIndexKey × CSpentIndexValue)

namespace IndexBatch

def empty : IndexBatch := ⟨[], [], []⟩

def append (b b' : IndexBatch) : IndexBatch :=
  ⟨b.addressIndex ++ b'.addressIndex, b.addressUnspentIndex ++ b'.addressUnspentIndex,
    b.spentIndex ++ b'.spentIndex⟩

def concat (l : List IndexBatch) : IndexBatch := l.foldr append empty

/-- The batch of `UpdateAddressUnspentIndex`: a null value erases. -/
def unspentWrites (b : IndexBatch) : List (CAddressUnspentKey × Option CAddressUnspentValue) :=
  b.addressUnspentIndex.map fun e => (e.1, if e.2.isNull then none else some e.2)

/-- The batch of `UpdateSpentIndex`. -/
def spentWrites (b : IndexBatch) : List (CSpentIndexKey × Option CSpentIndexValue) :=
  b.spentIndex.map fun e => (e.1, if e.2.isNull then none else some e.2)

/-- The batch of `WriteAddressIndex`. -/
def addressWrites (b : IndexBatch) : List (CAddressIndexKey × Option CAmount) :=
  b.addressIndex.map fun e => (e.1, some e.2)

/-- The batch of `EraseAddressIndex`. -/
def addressErasures (b : IndexBatch) : List (CAddressIndexKey × Option CAmount) :=
  (b.addressIndex.map Prod.fst).map fun key => (key, none)

end IndexBatch

/-- The end of `ConnectBlock`, with both indexes on. -/
def CBlockTreeDB.connect (db : CBlockTreeDB) (b : IndexBatch) : CBlockTreeDB where
  addressIndex := Batch.writeAll db.addressIndex b.addressWrites
  addressUnspentIndex := Batch.writeAll db.addressUnspentIndex b.unspentWrites
  spentIndex := Batch.writeAll db.spentIndex b.spentWrites

/-- The end of `DisconnectBlock`, with both indexes on.  The writes to the spent index are
collected, but **nothing writes them**. -/
def CBlockTreeDB.disconnect (db : CBlockTreeDB) (b : IndexBatch) : CBlockTreeDB where
  addressIndex := Batch.writeAll db.addressIndex b.addressErasures
  addressUnspentIndex := Batch.writeAll db.addressUnspentIndex b.unspentWrites
  spentIndex := db.spentIndex

def CScript.isPayToPublicKey (s : CScript) : Bool :=
  if s.length = 35 then
    (Bytes.at s 1 == 0x02 || Bytes.at s 1 == 0x03) && Bytes.at s 34 == OP_CHECKSIG
  else if s.length = 67 then Bytes.at s 1 == 0x04 && Bytes.at s 66 == OP_CHECKSIG
  else false

/-- `ParseAssetScript`: the hash, the name and the amount of an asset output. -/
def parseAssetScript (env : Env) (s : CScript) : Option (Bytes × Bytes × CAmount) :=
  let hashBytes := s.substr 3 20
  match s.isAssetScript with
  | none => none
  | some ⟨.TX_NEW_ASSET, true, _⟩ =>
    (ownerAssetFromScript env s).map fun (assetName, _) =>
      (hashBytes, assetName, OWNER_ASSET_AMOUNT)
  | some ⟨.TX_NEW_ASSET, false, _⟩ =>
    (assetFromScript env s).map fun (asset, _) => (hashBytes, asset.strName, asset.nAmount)
  | some ⟨.TX_REISSUE_ASSET, _, _⟩ =>
    (reissueAssetFromScript env s).map fun (asset, _) => (hashBytes, asset.strName, asset.nAmount)
  | some ⟨.TX_TRANSFER_ASSET, _, _⟩ =>
    (transferAssetFromScript env s).map fun (asset, _) => (hashBytes, asset.strName, asset.nAmount)
  | some _ => none

/-! ## Addresses -/

/-- The address that an output is indexed under, and the amount. -/
structure IndexTarget where
  addressType : ℕ
  hashBytes : Bytes
  asset : Bytes
  amount : CAmount
  deriving DecidableEq, Repr

namespace IndexTarget

variable (t : IndexTarget)

def indexKey (nHeight txindex : ℕ) (txhash : uint256) (index : ℕ) (spending : Bool) :
    CAddressIndexKey :=
  ⟨t.addressType, t.hashBytes, t.asset, nHeight, txindex, txhash, index, spending⟩

def unspentKey (out : COutPoint) : CAddressUnspentKey :=
  ⟨t.addressType, t.hashBytes, t.asset, out.hash, out.n⟩

end IndexTarget

section Ladders

variable (env : Env)

def scriptHashTarget (out : CTxOut) : IndexTarget :=
  ⟨2, out.scriptPubKey.substr 2 20, UNEMP, out.nValue⟩

def keyHashTarget (out : CTxOut) : IndexTarget :=
  ⟨1, out.scriptPubKey.substr 3 20, UNEMP, out.nValue⟩

/-- `Hash160(scriptPubKey.begin()+1, scriptPubKey.end()-1)`. -/
def publicKeyTarget (out : CTxOut) : IndexTarget :=
  ⟨1, env.Hash160 (out.scriptPubKey.substr 1 (out.scriptPubKey.length - 2)), UNEMP, out.nValue⟩

def assetTarget (out : CTxOut) : Option IndexTarget :=
  if env.dep.areAssetsDeployed then
    (parseAssetScript env out.scriptPubKey).map fun (hashBytes, assetName, assetAmount) =>
      ⟨1, hashBytes, assetName, assetAmount⟩
  else none

/-- The ladder over the kinds of scripts, as `ConnectBlock` has it for inputs and for outputs, and
`DisconnectBlock` for outputs. -/
def indexTarget (out : CTxOut) : Option IndexTarget :=
  if out.scriptPubKey.isPayToScriptHash then some (scriptHashTarget out)
  else if out.scriptPubKey.isPayToPublicKeyHash then some (keyHashTarget out)
  else if out.scriptPubKey.isPayToPublicKey then some (publicKeyTarget env out)
  else assetTarget env out

/-! ## Connecting -/

variable (nHeight : ℕ)

/-- What input `j` of transaction `i` writes. -/
def connectInput (i : ℕ) (txhash : uint256) (j : ℕ) (out : COutPoint) (prevout : CTxOut) :
    IndexBatch where
  addressIndex := (indexTarget env prevout).toList.map fun t =>
    (t.indexKey nHeight i txhash j true, t.amount * -1)
  addressUnspentIndex := (indexTarget env prevout).toList.map fun t =>
    (t.unspentKey out, .null)
  spentIndex :=
    [(⟨out.hash, out.n⟩, ⟨txhash, j, nHeight, prevout.nValue,
      ((indexTarget env prevout).map IndexTarget.addressType).getD 0,
      ((indexTarget env prevout).map IndexTarget.hashBytes).getD nullHash160⟩)]

/-- What output `k` of transaction `i` writes. -/
def connectOutput (i : ℕ) (txhash : uint256) (k : ℕ) (out : CTxOut) : IndexBatch where
  addressIndex := (indexTarget env out).toList.map fun t =>
    (t.indexKey nHeight i txhash k false, t.amount)
  addressUnspentIndex := (indexTarget env out).toList.map fun t =>
    (t.unspentKey ⟨txhash, k⟩, ⟨t.amount, out.scriptPubKey, nHeight⟩)
  spentIndex := []

/-- `CCoinsViewCache::AccessCoin`; where there is no coin it returns an empty one. -/
def CCoinsView.accessCoin (view : CCoinsView) (out : COutPoint) : Coin :=
  (view.find? out).getD ⟨⟨-1, []⟩, false, 0⟩

/-- What transaction `i` writes; the coinbase has no inputs to index. -/
def connectTxIndexes (i : ℕ) (tx : CTransaction) (view : CCoinsView) : IndexBatch :=
  let inputs := if tx.isCoinBase then [] else tx.vin.zipIdx.map fun (txin, j) =>
    connectInput env nHeight i tx.hash j txin.prevout (view.accessCoin txin.prevout).out
  .concat (inputs ++ tx.vout.zipIdx.map fun (out, k) => connectOutput env nHeight i tx.hash k out)

/-- What the transactions of a block write, from number `i` on. -/
def connectIndexes : ℕ → List CTransaction → CCoinsView → IndexBatch
  | _, [], _ => .empty
  | i, tx :: txs, view =>
    (connectTxIndexes env nHeight i tx view).append
      (match view.update env tx nHeight with
        | .ok (view, _) => connectIndexes (i + 1) txs view
        | .error _ => .empty)

/-! ## Disconnecting -/

/-- What undoing output `k` of transaction `i` writes. -/
def disconnectOutput (i : ℕ) (txhash : uint256) (k : ℕ) (out : CTxOut) : IndexBatch where
  addressIndex := (indexTarget env out).toList.map fun t =>
    (t.indexKey nHeight i txhash k false, t.amount)
  addressUnspentIndex := (indexTarget env out).toList.map fun t =>
    (t.unspentKey ⟨txhash, k⟩, .null)
  spentIndex := []

def restoreTarget (i : ℕ) (txhash : uint256) (j : ℕ) (out : COutPoint) (coin : Coin)
    (t : IndexTarget) : IndexBatch where
  addressIndex := [(t.indexKey nHeight i txhash j true, t.amount * -1)]
  addressUnspentIndex := [(t.unspentKey out, ⟨t.amount, coin.out.scriptPubKey, coin.nHeight⟩)]
  spentIndex := [(⟨out.hash, out.n⟩, .null)]

/-- What undoing input `j` of transaction `i` writes, with the coin that is put back.  For a public
key the entries are those of an **output** `j` of the transaction. -/
def disconnectInput (i : ℕ) (txhash : uint256) (j : ℕ) (out : COutPoint) (coin : Coin) :
    IndexBatch :=
  if coin.out.scriptPubKey.isPayToScriptHash then
    restoreTarget nHeight i txhash j out coin (scriptHashTarget coin.out)
  else if coin.out.scriptPubKey.isPayToPublicKeyHash then
    restoreTarget nHeight i txhash j out coin (keyHashTarget coin.out)
  else if coin.out.scriptPubKey.isPayToPublicKey then
    let t := publicKeyTarget env coin.out
    ⟨[(t.indexKey nHeight i txhash j false, t.amount)], [(t.unspentKey ⟨txhash, j⟩, .null)],
      [(⟨out.hash, out.n⟩, .null)]⟩
  else match assetTarget env coin.out with
    | some t => restoreTarget nHeight i txhash j out coin t
    | none => ⟨[], [], [(⟨out.hash, out.n⟩, .null)]⟩

/-- One round of the loop that restores the inputs of transaction `i`. -/
def disconnectInputRound (i : ℕ) (txhash : uint256) (s : CCoinsView × IndexBatch)
    (e : (CTxIn × Coin) × ℕ) : Except String (CCoinsView × IndexBatch) := do
  let ((txin, undo), j) := e
  let (view, _) ← applyTxInUndo env s.1 undo txin.prevout
  return (view, s.2.append
    (disconnectInput env nHeight i txhash j txin.prevout (view.accessCoin txin.prevout)))

/-- The loop that restores the inputs of transaction `i`, last one first. -/
def disconnectInputs (i : ℕ) (tx : CTransaction) (txundo : CTxUndo) (view : CCoinsView) :
    Except String (CCoinsView × IndexBatch) :=
  (tx.vin.zip txundo).zipIdx.reverse.foldlM (disconnectInputRound env nHeight i tx.hash)
    (view, .empty)

/-- What undoing transaction `i` writes, and the view after it. -/
def disconnectTxIndexes (s : CCoinsView × IndexBatch) (e : (CTransaction × Option CTxUndo) × ℕ) :
    Except String (CCoinsView × IndexBatch) := do
  let ((tx, txundo), i) := e
  let outputs := IndexBatch.concat (tx.vout.zipIdx.reverse.map fun (out, k) =>
    disconnectOutput env nHeight i tx.hash k out)
  let view := (unspendOutputs env tx nHeight s.1).1
  let (view, inputs) ← match txundo with
    | none => .ok (view, IndexBatch.empty)
    | some txundo => disconnectInputs env nHeight i tx txundo view
  return (view, (s.2.append outputs).append inputs)

def disconnectIndexes (vtx : List CTransaction) (vtxundo : List CTxUndo) (view : CCoinsView) :
    Except String IndexBatch :=
  ((vtx.zip (none :: vtxundo.map some)).zipIdx.reverse.foldlM (disconnectTxIndexes env nHeight)
    (view, .empty)).map Prod.snd

end Ladders

end UnemployCoin
