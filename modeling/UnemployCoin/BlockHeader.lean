import UnemployCoin.Transaction
/-!
# Block headers

`CBlockHeader` (`primitives/block.h`, `primitives/block.cpp`), the hashes of a header
(`hash.cpp`), and the entries of the block index (`chain.h`).  The hash functions are given;
ProgPoW is given as two of them, the mix and what is hashed from the mix, as
`crypto/ethash/lib/ethash/progpow.cpp` composes them.

Hashes are also read as numbers here, so they have 256 bits.
-/

namespace UnemployCoin

/-- `uint256` as the 256 bits it has, and `arith_uint256`. -/
abbrev arith_uint256 := BitVec 256

structure HeaderHashes where
  HashX16R : Bytes → arith_uint256 → arith_uint256
  HashX16RV2 : Bytes → arith_uint256 → arith_uint256
  /-- `SerializeHash`, of what has been serialized. -/
  SerializeHash : Bytes → arith_uint256
  /-- The mix of `progpow::hash`, by block number, header hash and nonce. -/
  progpowMix : ℕ → arith_uint256 → UInt64 → arith_uint256
  /-- What `progpow::hash` makes of its mix, and `progpow::hash_no_verify` of the mix it is
  given: header hash, nonce and mix. -/
  progpowFinal : arith_uint256 → UInt64 → arith_uint256 → arith_uint256

/-- The parameters of the chain that headers are checked with. -/
structure HeaderParams where
  hashGenesisBlock : arith_uint256
  powLimit : arith_uint256
  kawpowLimit : arith_uint256
  fPowAllowMinDifficultyBlocks : Bool
  fPowNoRetargeting : Bool
  nPowTargetSpacing : ℕ
  nPowTargetTimespan : ℕ
  nDGWActivationBlock : ℕ
  nKAWPOWActivationTime : UInt32
  /-- The activation time of X16RV2 for the network. -/
  nX16RV2ActivationTime : UInt32
  /-- The checkpoints, by height in ascending order. -/
  mapCheckpoints : List (ℕ × arith_uint256)

/-! ## Headers -/

structure CBlockHeader where
  nVersion : Int32
  hashPrevBlock : arith_uint256
  hashMerkleRoot : arith_uint256
  nTime : UInt32
  nBits : UInt32
  nNonce : UInt32
  /-- The height that the header itself states. -/
  nHeight : UInt32
  nNonce64 : UInt64
  mix_hash : arith_uint256
  deriving DecidableEq, Repr

def writeUInt32 (v : UInt32) : Bytes := writeLE 4 v.toNat

def writeUInt64 (v : UInt64) : Bytes := writeLE 8 v.toNat

def writeUInt256 (v : arith_uint256) : Bytes := writeLE 32 v.toNat

namespace CBlockHeader

variable (H : HeaderHashes) (P : HeaderParams) (block : CBlockHeader)

/-- The bytes from `nVersion` to `nBits`. -/
def serializeStart : Bytes :=
  writeUInt32 block.nVersion.toUInt32 ++ writeUInt256 block.hashPrevBlock ++
    writeUInt256 block.hashMerkleRoot ++ writeUInt32 block.nTime ++ writeUInt32 block.nBits

/-- `GetKAWPOWHeaderHash`, which takes the header without nonce and mix. -/
def getKAWPOWHeaderHash : arith_uint256 :=
  H.SerializeHash (block.serializeStart ++ writeUInt32 block.nHeight)

/-- A hash of the bytes from `nVersion` to `nNonce`. -/
def x16rHash : arith_uint256 :=
  let data := block.serializeStart ++ writeUInt32 block.nNonce
  if block.nTime ≥ P.nX16RV2ActivationTime then H.HashX16RV2 data block.hashPrevBlock
  else H.HashX16R data block.hashPrevBlock

/-- `progpow::hash` of a header for some height: the final hash, and the mix that has been
computed for it. -/
def progpowHash (nHeight : ℕ) : arith_uint256 × arith_uint256 :=
  let header_hash := block.getKAWPOWHeaderHash H
  let mix_hash := H.progpowMix nHeight header_hash block.nNonce64
  (H.progpowFinal header_hash block.nNonce64 mix_hash, mix_hash)

/-- `KAWPOWHash`, for the height **that the header states**. -/
def kawpowHash : arith_uint256 × arith_uint256 := block.progpowHash H block.nHeight.toNat

/-- `KAWPOWHash_OnlyMix`, which **takes the mix from the header**. -/
def kawpowHash_OnlyMix : arith_uint256 :=
  H.progpowFinal (block.getKAWPOWHeaderHash H) block.nNonce64 block.mix_hash

def getHash : arith_uint256 :=
  if block.nTime < P.nKAWPOWActivationTime then block.x16rHash H P else block.kawpowHash_OnlyMix H

/-- `GetHashFull`: the hash, and the mix, null where there is none. -/
def getHashFull : arith_uint256 × arith_uint256 :=
  if block.nTime < P.nKAWPOWActivationTime then (block.x16rHash H P, 0) else block.kawpowHash H

end CBlockHeader

/-! ## The block index -/

def BLOCK_VALID_TREE : UInt32 := 2
def BLOCK_VALID_SCRIPTS : UInt32 := 5
def BLOCK_VALID_MASK : UInt32 := 7
def BLOCK_HAVE_DATA : UInt32 := 8
def BLOCK_HAVE_UNDO : UInt32 := 16
def BLOCK_FAILED_VALID : UInt32 := 32
def BLOCK_FAILED_CHILD : UInt32 := 64
def BLOCK_FAILED_MASK : UInt32 := 96

/-- An entry of the block index.  Its parent is given by the hash; the skip pointer and what
only the order of arrival decides are left out. -/
structure CBlockIndex where
  pprev : Option arith_uint256
  nHeight : ℕ
  nFile : ℕ
  nDataPos : UInt32
  nUndoPos : UInt32
  nChainWork : arith_uint256
  nTx : UInt32
  nStatus : UInt32
  nVersion : Int32
  hashMerkleRoot : arith_uint256
  nTime : UInt32
  nBits : UInt32
  nNonce : UInt32
  nNonce64 : UInt64
  mix_hash : arith_uint256
  nTimeMax : UInt32
  deriving DecidableEq, Repr

/-- `CBlockIndex::SetNull`. -/
def CBlockIndex.null : CBlockIndex :=
  ⟨none, 0, 0, 0, 0, 0, 0, 0, 0, 0, 0, 0, 0, 0, 0, 0⟩

/-- `CBlockIndex::CBlockIndex`, which takes the height from the header. -/
def CBlockIndex.ofHeader (block : CBlockHeader) : CBlockIndex :=
  { CBlockIndex.null with
    nVersion := block.nVersion
    hashMerkleRoot := block.hashMerkleRoot
    nTime := block.nTime
    nBits := block.nBits
    nNonce := block.nNonce
    nHeight := block.nHeight.toNat
    nNonce64 := block.nNonce64
    mix_hash := block.mix_hash }

/-- `CBlockIndex::GetBlockHeader`, **with the height of the entry**. -/
def CBlockIndex.getBlockHeader (index : CBlockIndex) : CBlockHeader where
  nVersion := index.nVersion
  hashPrevBlock := index.pprev.getD 0
  hashMerkleRoot := index.hashMerkleRoot
  nTime := index.nTime
  nBits := index.nBits
  nNonce := index.nNonce
  nHeight := UInt32.ofNat index.nHeight
  nNonce64 := index.nNonce64
  mix_hash := index.mix_hash

def CBlockIndex.isValid (index : CBlockIndex) (nUpTo : UInt32) : Bool :=
  if index.nStatus &&& BLOCK_FAILED_MASK ≠ 0 then false
  else decide (nUpTo ≤ index.nStatus &&& BLOCK_VALID_MASK)

def CBlockIndex.raiseValidity (index : CBlockIndex) (nUpTo : UInt32) : CBlockIndex :=
  if index.nStatus &&& BLOCK_FAILED_MASK ≠ 0 then index
  else if index.nStatus &&& BLOCK_VALID_MASK < nUpTo then
    { index with nStatus := (index.nStatus &&& ~~~BLOCK_VALID_MASK) ||| nUpTo }
  else index

/-- `mapBlockIndex`. -/
abbrev BlockMap := StdMap arith_uint256 CBlockIndex

/-- The entries of a chain with their hashes, from some hash back by `pprev`.  Each step back
goes to another entry, so the size of the map bounds them. -/
def BlockMap.chain (mapBlockIndex : BlockMap) (hash : arith_uint256) :
    List (arith_uint256 × CBlockIndex) :=
  go mapBlockIndex.size (some hash)
where
  go : ℕ → Option arith_uint256 → List (arith_uint256 × CBlockIndex)
    | 0, _ => []
    | _ + 1, none => []
    | n + 1, some hash =>
      match mapBlockIndex.find? hash with
      | none => []
      | some index => (hash, index) :: go n index.pprev

end UnemployCoin
