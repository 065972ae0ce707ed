import UnemployCoin.AcceptHeader
import UnemployCoin.Lib.VarInt
import UnemployCoin.Serialization
/-!
# The block index on disk

`CDiskBlockIndex` (`chain.h`), `CBlockTreeDB::LoadBlockIndexGuts` (`txdb.cpp`), and what
`LoadBlockIndexDB` (`validation.cpp`) computes from the entries that have been loaded.  What it
makes of received transactions is left out.
-/

namespace UnemployCoin

open Check

/-! ## Fields -/

def readUInt32 : CDataStream UInt32 := do
  let b ← CDataStream.readBytes 4
  return UInt32.ofNat (readLE b)

def readUInt64 : CDataStream UInt64 := do
  let b ← CDataStream.readBytes 8
  return UInt64.ofNat (readLE b)

def readUInt256 : CDataStream arith_uint256 := do
  let b ← CDataStream.readBytes 32
  return BitVec.ofNat 256 (readLE b)

/-- `ReadVarInt`, of a type with some largest value. -/
def readVarInt (max : ℕ) : CDataStream ℕ := VarInt.decode max

def writeVarInt (n : ℕ) : Bytes := VarInt.encode n

/-- The largest `int`. -/
def INT_MAX : ℕ := 2 ^ 31 - 1

/-- The largest `unsigned int`. -/
def UINT_MAX : ℕ := 2 ^ 32 - 1

theorem reads_uint32 (v : UInt32) : Reads readUInt32 (writeUInt32 v) v := by
  have hlt : v.toNat < 256 ^ 4 := v.toNat_lt
  have h := (reads_writeLE 4 v.toNat).thenPure fun b => UInt32.ofNat (readLE b)
  rw [readLE_writeLE_of_lt hlt, UInt32.ofNat_toNat] at h
  exact h

theorem reads_uint64 (v : UInt64) : Reads readUInt64 (writeUInt64 v) v := by
  have hlt : v.toNat < 256 ^ 8 := v.toNat_lt
  have h := (reads_writeLE 8 v.toNat).thenPure fun b => UInt64.ofNat (readLE b)
  rw [readLE_writeLE_of_lt hlt, UInt64.ofNat_toNat] at h
  exact h

theorem reads_uint256 (v : arith_uint256) : Reads readUInt256 (writeUInt256 v) v := by
  have hlt : v.toNat < 256 ^ 32 := v.isLt
  have h := (reads_writeLE 32 v.toNat).thenPure fun b => BitVec.ofNat 256 (readLE b)
  rw [readLE_writeLE_of_lt hlt, BitVec.ofNat_toNat, BitVec.setWidth_eq] at h
  exact h

theorem reads_varInt {max n : ℕ} (h : n ≤ max) : Reads (readVarInt max) (writeVarInt n) n :=
  VarInt.decode_encode h

/-! ## Entries -/

structure CDiskBlockIndex extends CBlockIndex where
  hashPrev : arith_uint256
  deriving DecidableEq, Repr

/-- `CDiskBlockIndex::CDiskBlockIndex`, of an entry of the index. -/
def CDiskBlockIndex.ofIndex (index : CBlockIndex) : CDiskBlockIndex :=
  { index with hashPrev := index.pprev.getD 0 }

def CLIENT_VERSION : ℕ := 4060100

def readIf (c : Bool) (r : CDataStream ℕ) : CDataStream ℕ := if c then r else pure 0

def writeIf (c : Bool) (s : Bytes) : Bytes := if c then s else []

def hasFile (nStatus : UInt32) : Bool := nStatus &&& (BLOCK_HAVE_DATA ||| BLOCK_HAVE_UNDO) != 0

def hasData (nStatus : UInt32) : Bool := nStatus &&& BLOCK_HAVE_DATA != 0

def hasUndo (nStatus : UInt32) : Bool := nStatus &&& BLOCK_HAVE_UNDO != 0

namespace CDiskBlockIndex

variable (H : HeaderHashes) (P : HeaderParams)

/-- The fields for the proof of work, which depend on the time, writing. -/
def serializePow (index : CDiskBlockIndex) : Bytes :=
  if index.nTime < P.nKAWPOWActivationTime then writeUInt32 index.nNonce
  else writeUInt64 index.nNonce64 ++ writeUInt256 index.mix_hash

def unserializePow (nTime : UInt32) : CDataStream (UInt32 × UInt64 × arith_uint256) :=
  if nTime < P.nKAWPOWActivationTime then do
    let nNonce ← readUInt32
    return (nNonce, 0, 0)
  else do
    let nNonce64 ← readUInt64
    let mix_hash ← readUInt256
    return (0, nNonce64, mix_hash)

/-- `CDiskBlockIndex::SerializationOp`, writing. -/
def serialize (index : CDiskBlockIndex) : Bytes :=
  writeVarInt CLIENT_VERSION ++ (writeVarInt index.nHeight ++ (writeVarInt index.nStatus.toNat ++
    (writeVarInt index.nTx.toNat ++ (writeIf (hasFile index.nStatus) (writeVarInt index.nFile) ++
    (writeIf (hasData index.nStatus) (writeVarInt index.nDataPos.toNat) ++
    (writeIf (hasUndo index.nStatus) (writeVarInt index.nUndoPos.toNat) ++
    (writeUInt32 index.nVersion.toUInt32 ++ (writeUInt256 index.hashPrev ++
    (writeUInt256 index.hashMerkleRoot ++ (writeUInt32 index.nTime ++ (writeUInt32 index.nBits ++
    index.serializePow P)))))))))))

/-- `CDiskBlockIndex::SerializationOp`, reading. -/
def unserialize : CDataStream CDiskBlockIndex := do
  let _nVersion ← readVarInt INT_MAX
  let nHeight ← readVarInt INT_MAX
  let nStatus ← readVarInt UINT_MAX
  let nTx ← readVarInt UINT_MAX
  let nFile ← readIf (hasFile (UInt32.ofNat nStatus)) (readVarInt INT_MAX)
  let nDataPos ← readIf (hasData (UInt32.ofNat nStatus)) (readVarInt UINT_MAX)
  let nUndoPos ← readIf (hasUndo (UInt32.ofNat nStatus)) (readVarInt UINT_MAX)
  let nVersion ← readUInt32
  let hashPrev ← readUInt256
  let hashMerkleRoot ← readUInt256
  let nTime ← readUInt32
  let nBits ← readUInt32
  let pow ← unserializePow P nTime
  return { CBlockIndex.null with
    nHeight := nHeight
    nStatus := UInt32.ofNat nStatus
    nTx := UInt32.ofNat nTx
    nFile := nFile
    nDataPos := UInt32.ofNat nDataPos
    nUndoPos := UInt32.ofNat nUndoPos
    nVersion := nVersion.toInt32
    hashMerkleRoot := hashMerkleRoot
    nTime := nTime
    nBits := nBits
    nNonce := pow.1
    nNonce64 := pow.2.1
    mix_hash := pow.2.2
    hashPrev := hashPrev }

def getBlockHash (index : CDiskBlockIndex) : arith_uint256 :=
  CBlockHeader.getHash H P
    { nVersion := index.nVersion
      hashPrevBlock := index.hashPrev
      hashMerkleRoot := index.hashMerkleRoot
      nTime := index.nTime
      nBits := index.nBits
      nNonce := index.nNonce
      nHeight := UInt32.ofNat index.nHeight
      nNonce64 := index.nNonce64
      mix_hash := index.mix_hash }

/-- The fields for the proof of work that an entry of its time has. -/
def powFields (nTime nNonce : UInt32) (nNonce64 : UInt64) (mix_hash : arith_uint256) :
    UInt32 × UInt64 × arith_uint256 :=
  if nTime < P.nKAWPOWActivationTime then (nNonce, 0, 0) else (0, nNonce64, mix_hash)

/-- What is stored of an entry: the fields that only its kind has, and none that are computed
when it is loaded. -/
def stored (index : CDiskBlockIndex) : CDiskBlockIndex :=
  let pow := powFields P index.nTime index.nNonce index.nNonce64 index.mix_hash
  { index with
    pprev := none
    nChainWork := 0
    nTimeMax := 0
    nFile := if hasFile index.nStatus then index.nFile else 0
    nDataPos := if hasData index.nStatus then index.nDataPos else 0
    nUndoPos := if hasUndo index.nStatus then index.nUndoPos else 0
    nNonce := pow.1
    nNonce64 := pow.2.1
    mix_hash := pow.2.2 }

end CDiskBlockIndex

section RoundTrip

variable {P : HeaderParams}

theorem reads_if {c : Bool} {max n : ℕ} (h : n ≤ max) :
    Reads (readIf c (readVarInt max)) (writeIf c (writeVarInt n)) (if c then n else 0) := by
  cases c with
  | false => exact Reads.pure 0
  | true => exact reads_varInt h

theorem reads_pow (index : CDiskBlockIndex) :
    Reads (CDiskBlockIndex.unserializePow P index.nTime) (index.serializePow P)
      (CDiskBlockIndex.powFields P index.nTime index.nNonce index.nNonce64 index.mix_hash) := by
  rw [CDiskBlockIndex.unserializePow, CDiskBlockIndex.serializePow, CDiskBlockIndex.powFields]
  split
  · exact (reads_uint32 index.nNonce).thenPure fun nNonce => (nNonce, 0, 0)
  · exact (reads_uint64 index.nNonce64).bind
      ((reads_uint256 index.mix_hash).thenPure fun mix_hash => (0, index.nNonce64, mix_hash))

theorem toNat_le_UINT_MAX (v : UInt32) : v.toNat ≤ UINT_MAX := Nat.le_pred_of_lt v.toNat_lt

/-- **An entry is read back as far as it is stored.** -/
theorem reads_diskBlockIndex (index : CDiskBlockIndex) (hheight : index.nHeight ≤ INT_MAX)
    (hfile : index.nFile ≤ INT_MAX) :
    Reads (CDiskBlockIndex.unserialize P) (index.serialize P) (index.stored P) := by
  have hversion : CLIENT_VERSION ≤ INT_MAX := by decide
  have hdata : ∀ c : Bool, ∀ v : UInt32,
      UInt32.ofNat (if c then v.toNat else 0) = if c then v else 0 := by
    intro c v
    cases c with
    | false => rfl
    | true => exact UInt32.ofNat_toNat
  rw [CDiskBlockIndex.unserialize, CDiskBlockIndex.serialize]
  refine (reads_varInt hversion).bind ?_
  refine (reads_varInt hheight).bind ?_
  refine (reads_varInt (toNat_le_UINT_MAX index.nStatus)).bind ?_
  refine (reads_varInt (toNat_le_UINT_MAX index.nTx)).bind ?_
  simp only [UInt32.ofNat_toNat]
  refine (reads_if hfile).bind ?_
  refine (reads_if (toNat_le_UINT_MAX index.nDataPos)).bind ?_
  refine (reads_if (toNat_le_UINT_MAX index.nUndoPos)).bind ?_
  simp only [hdata]
  refine (reads_uint32 index.nVersion.toUInt32).bind ?_
  refine (reads_uint256 index.hashPrev).bind ?_
  refine (reads_uint256 index.hashMerkleRoot).bind ?_
  refine (reads_uint32 index.nTime).bind ?_
  refine (reads_uint32 index.nBits).bind ?_
  exact (reads_pow index).thenPure _

end RoundTrip

/-! ## Loading -/

section Load

variable (H : HeaderHashes) (P : HeaderParams)

def writeBlockIndex (mapBlockIndex : BlockMap) : List Bytes :=
  mapBlockIndex.entries.map fun e => (CDiskBlockIndex.ofIndex e.2).serialize P

/-- `InsertBlockIndex`, of a hash that is not null. -/
def insertBlockIndex (mapBlockIndex : BlockMap) (hash : arith_uint256) : BlockMap :=
  if hash = 0 then mapBlockIndex else mapBlockIndex.emplace hash .null

/-- `LoadBlockIndexGuts`, one entry that has been read.  With a null hash there is no entry to
write to. -/
def loadDiskIndex (mapBlockIndex : BlockMap) (diskindex : CDiskBlockIndex) :
    Except String BlockMap := do
  let hash := diskindex.getBlockHash H P
  require (hash != 0) "null pointer"
  let mapBlockIndex := insertBlockIndex (insertBlockIndex mapBlockIndex hash) diskindex.hashPrev
  let pindexNew := (mapBlockIndex.find? hash).getD .null
  require (checkProofOfWork P hash diskindex.nBits) "CheckProofOfWork failed"
  return mapBlockIndex.assign hash
    { diskindex.toCBlockIndex with
      pprev := if diskindex.hashPrev = 0 then none else some diskindex.hashPrev
      nChainWork := pindexNew.nChainWork
      nTimeMax := pindexNew.nTimeMax }

/-- `LoadBlockIndexGuts`, on the values of the database in the order of their keys. -/
def loadBlockIndexGuts (values : List Bytes) : Except String BlockMap :=
  values.foldlM (fun mapBlockIndex value => do
    let diskindex ← demand ((CDiskBlockIndex.unserialize P).read value) "failed to read value"
    loadDiskIndex H P mapBlockIndex diskindex) ∅

/-- `LoadBlockIndexDB`, the loop over the entries by height, on one of them. -/
def computeChainWork (mapBlockIndex : BlockMap) (hash : arith_uint256) : BlockMap :=
  match mapBlockIndex.find? hash with
  | none => mapBlockIndex
  | some pindex =>
    let pprev := pindex.pprev.bind mapBlockIndex.find?
    let fFailedChild := pindex.nStatus &&& BLOCK_FAILED_MASK = 0 ∧
      pprev.any fun pprev => pprev.nStatus &&& BLOCK_FAILED_MASK != 0
    mapBlockIndex.assign hash
      { pindex with
        nChainWork := pprev.elim 0 CBlockIndex.nChainWork + getBlockProof pindex.nBits
        nTimeMax := pprev.elim pindex.nTime fun pprev => max pprev.nTimeMax pindex.nTime
        nStatus := if fFailedChild then pindex.nStatus ||| BLOCK_FAILED_CHILD else pindex.nStatus }

/-- `vSortedByHeight`. -/
def sortedByHeight (mapBlockIndex : BlockMap) : List arith_uint256 :=
  (mapBlockIndex.entries.mergeSort fun a b => decide (a.2.nHeight ≤ b.2.nHeight)).map Prod.fst

def loadBlockIndexDB (values : List Bytes) : Except String BlockMap := do
  let mapBlockIndex ← loadBlockIndexGuts H P values
  return (sortedByHeight mapBlockIndex).foldl computeChainWork mapBlockIndex

end Load

end UnemployCoin
