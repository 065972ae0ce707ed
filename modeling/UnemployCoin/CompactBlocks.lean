import UnemployCoin.Lib.Loop
import UnemployCoin.Lib.StdMap
import UnemployCoin.TransactionFormat
/-!
# Compact blocks

A block as its header, short ids of its transactions and a few of the transactions themselves
(`blockencodings.h`, `blockencodings.cpp`).  Who receives it looks for the other transactions in
the mempool and in a list of extra ones, and asks for those that are missing.

Indexes are of the types they have there, so that 16 bits wrap.  A run ends with a `Fault` where
the code would go outside of a vector or of a signed type, follow a null reference, fail an
assertion or never leave a loop.
-/

namespace UnemployCoin

namespace Wire

open Check

/-! ## Faults -/

inductive Fault where
  | outOfRange
  | overflow
  | nullptr
  | assertion
  | endless
  deriving DecidableEq, Repr

abbrev Run := Except Fault

section Vectors

variable {α : Type}

/-- `v[i]`. -/
def element (v : List α) (i : ℕ) : Run α := demand v[i]? .outOfRange

/-- `v[i] = a`. -/
def store (v : List α) (i : ℕ) (a : α) : Run (List α) := do
  require (decide (i < v.length)) .outOfRange
  return v.set i a

/-- `*ref`. -/
def deref (ref : Option α) : Run α := demand ref .nullptr

end Vectors

/-- A result of type `int32_t`. -/
def int32 (n : ℤ) : Run ℤ := do
  require (decide (-2 ^ 31 ≤ n ∧ n < 2 ^ 31)) .overflow
  return n

/-! ## Short ids -/

def getUint64 (v : arith_uint256) (pos : ℕ) : UInt64 := UInt64.ofNat (v.toNat / 2 ^ (64 * pos))

structure SipState where
  v0 : UInt64
  v1 : UInt64
  v2 : UInt64
  v3 : UInt64

def ROTL (x b : UInt64) : UInt64 := x <<< b ||| x >>> (64 - b)

/-- `SIPROUND`. -/
def SipState.round (s : SipState) : SipState :=
  let v0 := s.v0 + s.v1
  let v1 := ROTL s.v1 13 ^^^ v0
  let v0 := ROTL v0 32
  let v2 := s.v2 + s.v3
  let v3 := ROTL s.v3 16 ^^^ v2
  let v0 := v0 + v3
  let v3 := ROTL v3 21 ^^^ v0
  let v2 := v2 + v1
  let v1 := ROTL v1 17 ^^^ v2
  ⟨v0, v1, ROTL v2 32, v3⟩

/-- A word of the message, between two rounds before and two after it. -/
def SipState.word (s : SipState) (d : UInt64) : SipState :=
  let s := { s with v3 := s.v3 ^^^ d }.round.round
  { s with v0 := s.v0 ^^^ d }

def sipHashUint256 (k0 k1 : UInt64) (val : arith_uint256) : UInt64 :=
  let start : SipState := ⟨0x736f6d6570736575 ^^^ k0, 0x646f72616e646f6d ^^^ k1,
    0x6c7967656e657261 ^^^ k0, 0x7465646279746573 ^^^ k1⟩
  let s := [getUint64 val 0, getUint64 val 1, getUint64 val 2, getUint64 val 3,
    (4 : UInt64) <<< 59].foldl SipState.word start
  let s := { s with v2 := s.v2 ^^^ 0xff }.round.round.round.round
  s.v0 ^^^ s.v1 ^^^ s.v2 ^^^ s.v3

/-! ## Blocks and messages -/

/-- The hash functions, and the time from which headers have the other fields. -/
structure BlockHashes where
  SHA256 : Bytes → arith_uint256
  /-- `SerializeHash`. -/
  hash : Bytes → arith_uint256
  nKAWPOWActivationTime : UInt32

abbrev CTransactionRef := Option CMutableTransaction

structure CBlock where
  header : CBlockHeader
  vtx : List CTransactionRef
  deriving DecidableEq

/-- `CBlockHeader::IsNull`. -/
def isNullHeader (header : CBlockHeader) : Bool := header.nBits == 0

/-- `CBlockHeader::SetNull`. -/
def nullHeader : CBlockHeader := ⟨0, 0, 0, 0, 0, 0, 0, 0, 0⟩

/-- `CTransaction::IsNull`. -/
def isNullTx (tx : CMutableTransaction) : Bool := tx.vin.isEmpty && tx.vout.isEmpty

structure PrefilledTransaction where
  index : UInt16
  tx : CTransactionRef
  deriving DecidableEq

structure CBlockHeaderAndShortTxIDs where
  shorttxidk0 : UInt64
  shorttxidk1 : UInt64
  nonce : UInt64
  shorttxids : List UInt64
  prefilledtxn : List PrefilledTransaction
  header : CBlockHeader
  deriving DecidableEq

inductive ReadStatus where
  | READ_STATUS_OK
  | READ_STATUS_INVALID
  | READ_STATUS_FAILED
  | READ_STATUS_CHECKBLOCK_FAILED
  deriving DecidableEq, Repr

section Hashes

variable (H : BlockHashes)

/-- `CBlockHeader::SerializationOp`, writing. -/
def writeHeader (header : CBlockHeader) : Bytes :=
  header.serializeStart ++
    if header.nTime < H.nKAWPOWActivationTime then writeUInt32 header.nNonce
    else writeUInt32 header.nHeight ++ (writeUInt64 header.nNonce64 ++ writeUInt256 header.mix_hash)

/-- `GetHash` of a transaction. -/
def getHash (tx : CMutableTransaction) : arith_uint256 := H.hash (serializeTransaction false tx)

def getWitnessHash (tx : CMutableTransaction) : arith_uint256 :=
  H.hash (serializeTransaction true tx)

namespace CBlockHeaderAndShortTxIDs

def fillShortTxIDSelector (msg : CBlockHeaderAndShortTxIDs) : CBlockHeaderAndShortTxIDs :=
  let shorttxidhash := H.SHA256 (writeHeader H msg.header ++ writeUInt64 msg.nonce)
  { msg with shorttxidk0 := getUint64 shorttxidhash 0, shorttxidk1 := getUint64 shorttxidhash 1 }

def getShortID (msg : CBlockHeaderAndShortTxIDs) (txhash : arith_uint256) : UInt64 :=
  sipHashUint256 msg.shorttxidk0 msg.shorttxidk1 txhash &&& 0xffffffffffff

def blockTxCount (msg : CBlockHeaderAndShortTxIDs) : ℕ :=
  msg.shorttxids.length + msg.prefilledtxn.length

/-- The constructor from a block, with a random nonce.  Only the coinbase is prefilled. -/
def new (nonce : UInt64) (block : CBlock) (fUseWTXID : Bool) : Run CBlockHeaderAndShortTxIDs := do
  let coinbase ← element block.vtx 0
  let msg := fillShortTxIDSelector H ⟨0, 0, nonce, [], [⟨0, coinbase⟩], block.header⟩
  let shorttxids ← block.vtx.tail.mapM fun ref => do
    let tx ← deref ref
    return msg.getShortID (if fUseWTXID then getWitnessHash H tx else getHash H tx)
  return { msg with shorttxids := shorttxids }

end CBlockHeaderAndShortTxIDs

end Hashes

/-! ## `InitData` -/

structure PartiallyDownloadedBlock where
  txn_available : List CTransactionRef
  prefilled_count : UInt64
  mempool_count : UInt64
  extra_count : UInt64
  header : CBlockHeader
  deriving DecidableEq

def PartiallyDownloadedBlock.new : PartiallyDownloadedBlock := ⟨[], 0, 0, 0, nullHeader⟩

def getMaxBlockWeight : ℕ := 8000000

def WITNESS_SCALE_FACTOR : ℕ := 4

def MIN_SERIALIZABLE_TRANSACTION_WEIGHT : ℕ := WITNESS_SCALE_FACTOR * 10

/-- The loop over the prefilled transactions, from the `i`-th on. -/
def prefill (shortCount : ℕ) : ℕ → List PrefilledTransaction → ℤ → List CTransactionRef →
    Run (ReadStatus × List CTransactionRef)
  | _, [], _, txn_available => .ok (.READ_STATUS_OK, txn_available)
  | i, prefilled :: rest, lastprefilledindex, txn_available => do
    let tx ← deref prefilled.tx
    if isNullTx tx then return (.READ_STATUS_INVALID, txn_available)
    -- index is a uint16_t, so can't overflow here
    let lastprefilledindex ← int32 (lastprefilledindex + (prefilled.index.toNat + 1))
    if 65535 < lastprefilledindex then return (.READ_STATUS_INVALID, txn_available)
    -- neither a prefilled txn or a shorttxid for a transaction in front of it
    if shortCount + i < lastprefilledindex.toNat then return (.READ_STATUS_INVALID, txn_available)
    let txn_available ← store txn_available lastprefilledindex.toNat prefilled.tx
    prefill shortCount (i + 1) rest lastprefilledindex txn_available

/-- A round of `while (txn_available[i + index_offset]) index_offset++`. -/
def skipStep (txn_available : List CTransactionRef) (i : ℕ) (index_offset : UInt16) :
    UInt16 ⊕ Run UInt16 :=
  match txn_available[i + index_offset.toNat]? with
  | none => .inr (.error .outOfRange)
  | some none => .inr (.ok index_offset)
  | some (some _) => .inl (index_offset + 1)

/-- The loop.  After `2 ^ 16` rounds it has come through all offsets (`skipFilled_wrap`). -/
def skipFilled (txn_available : List CTransactionRef) (i : ℕ) (index_offset : UInt16) :
    Run UInt16 :=
  (Loop.run (skipStep txn_available i) (2 ^ 16) index_offset).getD (.error .endless)

/-- The map of short ids to positions, as far as it has been made. -/
structure ShortIdTable where
  shorttxids : StdMap UInt64 UInt16
  index_offset : UInt16
  /-- The positions as they were computed, before they were stored in 16 bits. -/
  positions : List ℕ

/-- `bucket_size(bucket(key))` of an `unordered_map` that was made for so many entries, when these
keys have been stored. -/
abbrev BucketSize := ℕ → List UInt64 → UInt64 → ℕ

section InitData

variable (bucketSize : BucketSize) (H : BlockHashes)

/-- The loop over the short ids, when the ones in `done` have been stored. -/
def placeShortIds (shortCount : ℕ) (txn_available : List CTransactionRef) :
    List UInt64 → List UInt64 → ShortIdTable → Run (ReadStatus × ShortIdTable)
  | _, [], t => .ok (.READ_STATUS_OK, t)
  | done, shortid :: rest, t => do
    let i := done.length
    let index_offset ← skipFilled txn_available i t.index_offset
    let position := i + index_offset.toNat
    let t := ⟨t.shorttxids.assign shortid (UInt16.ofNat position), index_offset,
      t.positions ++ [position]⟩
    if 12 < bucketSize shortCount (done ++ [shortid]) shortid then return (.READ_STATUS_FAILED, t)
    placeShortIds shortCount txn_available (done ++ [shortid]) rest t

/-- What the two loops over the pools change. -/
structure Matched where
  txn_available : List CTransactionRef
  have_txn : List Bool
  mempool_count : UInt64
  extra_count : UInt64

def matchMempoolTx (shorttxids : StdMap UInt64 UInt16) (shortid : UInt64)
    (tx : CMutableTransaction) (s : Matched) : Run Matched :=
  match shorttxids.find? shortid with
  | none => .ok s
  | some idit => do
    let have_txn ← element s.have_txn idit.toNat
    if !have_txn then do
      let txn_available ← store s.txn_available idit.toNat (some tx)
      let have_txn ← store s.have_txn idit.toNat true
      return ⟨txn_available, have_txn, s.mempool_count + 1, s.extra_count⟩
    else do
      let available ← element s.txn_available idit.toNat
      -- If we find two mempool txn that match the short id, just request it.
      if available.isSome then do
        let txn_available ← store s.txn_available idit.toNat none
        return ⟨txn_available, s.have_txn, s.mempool_count - 1, s.extra_count⟩
      else return s

/-- An extra transaction.  The same transaction as in the mempool is no collision. -/
def matchExtraTx (shorttxids : StdMap UInt64 UInt16) (shortid : UInt64) (ref : CTransactionRef)
    (s : Matched) : Run Matched :=
  match shorttxids.find? shortid with
  | none => .ok s
  | some idit => do
    let have_txn ← element s.have_txn idit.toNat
    if !have_txn then do
      let txn_available ← store s.txn_available idit.toNat ref
      let have_txn ← store s.have_txn idit.toNat true
      return ⟨txn_available, have_txn, s.mempool_count + 1, s.extra_count + 1⟩
    else do
      let available ← element s.txn_available idit.toNat
      match available with
      | none => return s
      | some tx => do
        let extra ← deref ref
        if getWitnessHash H tx != getWitnessHash H extra then do
          let txn_available ← store s.txn_available idit.toNat none
          return ⟨txn_available, s.have_txn, s.mempool_count - 1, s.extra_count - 1⟩
        else return s

/-- A loop over one of the two lists, which is left when there is a transaction for each id. -/
def matchAll {α : Type} (step : α → Matched → Run Matched) (count : UInt64) :
    List α → Matched → Run Matched
  | [], s => .ok s
  | a :: rest, s => do
    let s ← step a s
    if s.mempool_count = count then return s else matchAll step count rest s

/-- The prefilled transactions and the positions of the others, with the status so far. -/
def indexShortIds (msg : CBlockHeaderAndShortTxIDs) :
    Run (ReadStatus × List CTransactionRef × ShortIdTable) := do
  let (status, txn_available) ← prefill msg.shorttxids.length 0 msg.prefilledtxn (-1)
    (List.replicate msg.blockTxCount none)
  if status ≠ .READ_STATUS_OK then return (status, txn_available, ⟨∅, 0, []⟩)
  let (status, t) ← placeShortIds bucketSize msg.shorttxids.length txn_available [] msg.shorttxids
    ⟨∅, 0, []⟩
  -- Short ID collision
  if status = .READ_STATUS_OK ∧ t.shorttxids.size ≠ msg.shorttxids.length then
    return (.READ_STATUS_FAILED, txn_available, t)
  return (status, txn_available, t)

def acceptsMessage (msg : CBlockHeaderAndShortTxIDs) : Bool :=
  !(isNullHeader msg.header || (msg.shorttxids.isEmpty && msg.prefilledtxn.isEmpty)) &&
    decide (msg.shorttxids.length + msg.prefilledtxn.length ≤
      getMaxBlockWeight / MIN_SERIALIZABLE_TRANSACTION_WEIGHT)

def initData (block : PartiallyDownloadedBlock) (msg : CBlockHeaderAndShortTxIDs)
    (vTxHashes : List (arith_uint256 × CMutableTransaction))
    (extra_txn : List (arith_uint256 × CTransactionRef)) :
    Run (ReadStatus × PartiallyDownloadedBlock) := do
  if !acceptsMessage msg then return (.READ_STATUS_INVALID, block)
  require (isNullHeader block.header && block.txn_available.isEmpty) .assertion
  let (status, txn_available, t) ← indexShortIds bucketSize msg
  let block := { block with header := msg.header, txn_available := txn_available }
  if status = .READ_STATUS_INVALID then return (status, block)
  let block := { block with prefilled_count := UInt64.ofNat msg.prefilledtxn.length }
  if status ≠ .READ_STATUS_OK then return (status, block)
  let count := UInt64.ofNat t.shorttxids.size
  let s ← matchAll (fun e => matchMempoolTx t.shorttxids (msg.getShortID e.1) e.2) count vTxHashes
    ⟨txn_available, List.replicate txn_available.length false, block.mempool_count,
      block.extra_count⟩
  let s ← matchAll (fun e => matchExtraTx H t.shorttxids (msg.getShortID e.1) e.2) count extra_txn s
  return (.READ_STATUS_OK, { block with
    txn_available := s.txn_available
    mempool_count := s.mempool_count
    extra_count := s.extra_count })

end InitData

/-! ## `FillBlock` -/

def isTxAvailable (block : PartiallyDownloadedBlock) (index : ℕ) : Run Bool := do
  require (!isNullHeader block.header) .assertion
  require (decide (index < block.txn_available.length)) .assertion
  let ref ← element block.txn_available index
  return ref.isSome

structure FillState where
  vtx : List CTransactionRef
  txn_available : List CTransactionRef
  tx_missing_offset : ℕ

def fillTxs (vtx_missing : List CTransactionRef) : List ℕ → FillState → Run (Bool × FillState)
  | [], s => .ok (true, s)
  | i :: rest, s => do
    let ref ← element s.txn_available i
    match ref with
    | none =>
      if vtx_missing.length ≤ s.tx_missing_offset then return (false, s)
      let tx ← element vtx_missing s.tx_missing_offset
      let vtx ← store s.vtx i tx
      fillTxs vtx_missing rest ⟨vtx, s.txn_available, s.tx_missing_offset + 1⟩
    | some tx => do
      let vtx ← store s.vtx i (some tx)
      -- `std::move`
      let txn_available ← store s.txn_available i none
      fillTxs vtx_missing rest ⟨vtx, txn_available, s.tx_missing_offset⟩

/-- What `CheckBlock` finds: nothing, or an error, and whether the data may be corrupted. -/
inductive BlockCheck where
  | valid
  | invalid (corruptionPossible : Bool)
  deriving DecidableEq, Repr

def fillBlock (checkBlock : CBlock → BlockCheck) (block : PartiallyDownloadedBlock)
    (vtx_missing : List CTransactionRef) :
    Run (ReadStatus × CBlock × PartiallyDownloadedBlock) := do
  require (!isNullHeader block.header) .assertion
  let n := block.txn_available.length
  let (fDone, s) ← fillTxs vtx_missing (List.range n)
    ⟨List.replicate n none, block.txn_available, 0⟩
  let filled : CBlock := ⟨block.header, s.vtx⟩
  if !fDone then
    return (.READ_STATUS_INVALID, filled, { block with txn_available := s.txn_available })
  -- Make sure we can't call FillBlock again.
  let block := { block with header := nullHeader, txn_available := [] }
  if vtx_missing.length ≠ s.tx_missing_offset then return (.READ_STATUS_INVALID, filled, block)
  match checkBlock filled with
  | .valid => return (.READ_STATUS_OK, filled, block)
  -- Possible Short ID collision
  | .invalid true => return (.READ_STATUS_FAILED, filled, block)
  | .invalid false => return (.READ_STATUS_CHECKBLOCK_FAILED, filled, block)

end Wire

end UnemployCoin
