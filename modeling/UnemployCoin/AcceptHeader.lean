import UnemployCoin.Lib.Check
import UnemployCoin.Lib.Run
import UnemployCoin.Pow
/-!
# Accepting headers

`CheckBlockHeader`, `ContextualCheckBlockHeader`, `AddToBlockIndex` and `AcceptBlockHeader`
(`validation.cpp`).  What they read besides the header and the block index (clock, flags, peers,
the active chain) is given with each header.
-/

namespace UnemployCoin

open Check

/-- What accepting a header reads besides the block index. -/
structure HeaderContext where
  nMaxReorgDepth : ℤ
  nMinReorgPeers : ℤ
  nMinReorgAge : ℤ
  /-- `chainActive.Height()`. -/
  chainActiveHeight : ℤ
  /-- `chainActive.Tip()->nTime`. -/
  chainActiveTime : ℤ
  /-- The number of connections, where there is a connection manager. -/
  nCurrentNodeCount : Option ℤ
  getTime : ℤ
  nAdjustedTime : ℤ
  fCheckpointsEnabled : Bool
  areAssetsDeployed : Bool
  g_failed_blocks : List arith_uint256

def MAX_FUTURE_BLOCK_TIME : ℤ := 2 * 60 * 60
def MAX_FUTURE_BLOCK_TIME_DGW : ℤ := MAX_FUTURE_BLOCK_TIME / 10
def VERSIONBITS_TOP_BITS_ASSETS : Int32 := 0x30000000

section Checks

variable (H : HeaderHashes) (P : HeaderParams) (ctx : HeaderContext) (mapBlockIndex : BlockMap)

def getLastCheckpoint : Option CBlockIndex :=
  P.mapCheckpoints.reverse.findSome? fun checkpoint => mapBlockIndex.find? checkpoint.2

/-- `CheckBlockHeader`.  Whether the header is one below a checkpoint is decided by **the height
that the header states**. -/
def checkBlockHeader (block : CBlockHeader) : Except String Unit :=
  let fCheckpointed := (getLastCheckpoint P mapBlockIndex).any fun pcheckpoint =>
    decide (block.nHeight.toNat ≤ pcheckpoint.nHeight)
  if block.nTime ≥ P.nKAWPOWActivationTime ∧ fCheckpointed then
    require (checkProofOfWork P (block.getHash H P) block.nBits) "high-hash"
  else do
    let (hash, mix_hash) := block.getHashFull H P
    require (checkProofOfWork P hash block.nBits) "high-hash"
    onlyIf (decide (block.nTime ≥ P.nKAWPOWActivationTime))
      (require (mix_hash == block.mix_hash) "invalid-mix-hash")

/-- `GetMedianTimePast`, of the last block of a chain. -/
def getMedianTimePast (chain : List CBlockIndex) : ℕ :=
  let times := ((chain.take 11).map fun index => index.nTime.toNat).mergeSort (· ≤ ·)
  times.getD (times.length / 2) 0

/-- The test of `ContextualCheckBlockHeader` for a fork that begins too deep. -/
def checkReorgDepth (nHeight : ℕ) : Except String Unit :=
  let fGreaterThanMaxReorg := decide (ctx.chainActiveHeight - (nHeight - 1) ≥ ctx.nMaxReorgDepth)
  require (!(fGreaterThanMaxReorg && ctx.nCurrentNodeCount.any fun nCurrentNodeCount =>
      decide (nCurrentNodeCount ≥ ctx.nMinReorgPeers) &&
        decide (ctx.getTime - ctx.chainActiveTime ≤ ctx.nMinReorgAge)))
    "bad-fork-prior-to-maxreorgdepth"

/-- `ContextualCheckBlockHeader`, where `chain` ends with the parent. -/
def contextualCheckBlockHeader (block : CBlockHeader) (pindexPrev : CBlockIndex)
    (chain : List CBlockIndex) : Except String Unit := do
  let nHeight := pindexPrev.nHeight + 1
  checkReorgDepth ctx nHeight
  require (block.nBits == getNextWorkRequired P chain block) "bad-diffbits"
  onlyIf ctx.fCheckpointsEnabled
    (require (!(getLastCheckpoint P mapBlockIndex).any fun pcheckpoint =>
        decide (nHeight < pcheckpoint.nHeight))
      "bad-fork-prior-to-checkpoint")
  require (decide (getMedianTimePast chain < block.nTime.toNat)) "time-too-old"
  require (decide ((block.nTime.toNat : ℤ) ≤ ctx.nAdjustedTime +
      (if P.isDGWActive (pindexPrev.nHeight + 1) then MAX_FUTURE_BLOCK_TIME_DGW
        else MAX_FUTURE_BLOCK_TIME)))
    "time-too-new"
  require (!(ctx.areAssetsDeployed && decide (block.nVersion < VERSIONBITS_TOP_BITS_ASSETS)))
    "bad-version"

/-- The entry that `AddToBlockIndex` makes for a header. -/
def newBlockIndex (block : CBlockHeader) : CBlockIndex :=
  let pindexNew := CBlockIndex.ofHeader block
  let prev := mapBlockIndex.find? block.hashPrevBlock
  CBlockIndex.raiseValidity
    { pindexNew with
      pprev := prev.map fun _ => block.hashPrevBlock
      nHeight := prev.elim pindexNew.nHeight fun pprev => pprev.nHeight + 1
      nTimeMax := prev.elim pindexNew.nTime fun pprev => max pprev.nTimeMax pindexNew.nTime
      nChainWork := prev.elim 0 CBlockIndex.nChainWork + getBlockProof pindexNew.nBits }
    BLOCK_VALID_TREE

def addToBlockIndex (block : CBlockHeader) : BlockMap :=
  let hash := block.getHash H P
  if mapBlockIndex.count hash then mapBlockIndex
  else mapBlockIndex.assign hash (newBlockIndex mapBlockIndex block)

/-- The failed block that some chain goes through, the first that the loop of
`AcceptBlockHeader` meets. -/
def failedAncestor (chain : List (arith_uint256 × CBlockIndex)) : Option arith_uint256 :=
  ctx.g_failed_blocks.find? fun failed => chain.any fun e => e.1 == failed

def markFailedChild (chain : List (arith_uint256 × CBlockIndex)) (failed : arith_uint256) :
    BlockMap :=
  (chain.takeWhile fun e => e.1 != failed).foldl
    (fun m e => m.assign e.1 { e.2 with nStatus := e.2.nStatus ||| BLOCK_FAILED_CHILD })
    mapBlockIndex

/-- `AcceptBlockHeader`: the block index afterwards, and the entry of the header or the reason
why it is rejected. -/
def acceptBlockHeader (block : CBlockHeader) : BlockMap × Except String arith_uint256 :=
  let hash := block.getHash H P
  if hash = P.hashGenesisBlock then (addToBlockIndex H P mapBlockIndex block, .ok hash)
  else
    match mapBlockIndex.find? hash with
    | some pindex =>
      (mapBlockIndex,
        if pindex.nStatus &&& BLOCK_FAILED_MASK ≠ 0 then .error "duplicate" else .ok hash)
    | none =>
      match checkBlockHeader H P mapBlockIndex block with
      | .error reason => (mapBlockIndex, .error reason)
      | .ok () =>
        match mapBlockIndex.find? block.hashPrevBlock with
        | none => (mapBlockIndex, .error "prev-blk-not-found")
        | some pindexPrev =>
          let chain := mapBlockIndex.chain block.hashPrevBlock
          if pindexPrev.nStatus &&& BLOCK_FAILED_MASK ≠ 0 then (mapBlockIndex, .error "bad-prevblk")
          else
            match contextualCheckBlockHeader P ctx mapBlockIndex block pindexPrev
                (chain.map Prod.snd) with
            | .error reason => (mapBlockIndex, .error reason)
            | .ok () =>
              let failed := if pindexPrev.isValid BLOCK_VALID_SCRIPTS then none
                else failedAncestor ctx chain
              match failed with
              | some failed =>
                (markFailedChild mapBlockIndex chain failed, .error "bad-prevblk")
              | none => (addToBlockIndex H P mapBlockIndex block, .ok hash)

end Checks

section Accepted

variable {H : HeaderHashes} {P : HeaderParams} {ctx : HeaderContext}
  {mapBlockIndex m' : BlockMap} {block : CBlockHeader}

/-- What a header passes before it gets an entry. -/
structure Passes (H : HeaderHashes) (P : HeaderParams) (ctx : HeaderContext)
    (mapBlockIndex : BlockMap) (block : CBlockHeader) (pindexPrev : CBlockIndex) : Prop where
  header : checkBlockHeader H P mapBlockIndex block = .ok ()
  prev : mapBlockIndex.find? block.hashPrevBlock = some pindexPrev
  contextual : contextualCheckBlockHeader P ctx mapBlockIndex block pindexPrev
    ((mapBlockIndex.chain block.hashPrevBlock).map Prod.snd) = .ok ()

/-- **What `AcceptBlockHeader` can do.** -/
theorem acceptBlockHeader_cases (H : HeaderHashes) (P : HeaderParams) (ctx : HeaderContext)
    (mapBlockIndex : BlockMap) (block : CBlockHeader) :
    (∃ result, acceptBlockHeader H P ctx mapBlockIndex block = (mapBlockIndex, result) ∧
      (∀ hash, result = .ok hash → mapBlockIndex.count (block.getHash H P) = true)) ∨
    (block.getHash H P = P.hashGenesisBlock ∧ acceptBlockHeader H P ctx mapBlockIndex block =
      (addToBlockIndex H P mapBlockIndex block, .ok (block.getHash H P))) ∨
    (∃ pindexPrev, Passes H P ctx mapBlockIndex block pindexPrev ∧
      block.getHash H P ≠ P.hashGenesisBlock ∧
      mapBlockIndex.find? (block.getHash H P) = none ∧
      acceptBlockHeader H P ctx mapBlockIndex block =
        (addToBlockIndex H P mapBlockIndex block, .ok (block.getHash H P))) ∨
    (∃ failed reason, acceptBlockHeader H P ctx mapBlockIndex block =
      (markFailedChild mapBlockIndex (mapBlockIndex.chain block.hashPrevBlock) failed,
        .error reason)) := by
  rw [acceptBlockHeader]
  dsimp only
  split
  · rename_i hgenesis
    exact .inr (.inl ⟨hgenesis, rfl⟩)
  · rename_i hgenesis
    split
    · rename_i pindex hfind
      exact .inl ⟨_, rfl, fun _ _ => StdMap.count_of_find? hfind⟩
    · rename_i hnew
      split
      · exact .inl ⟨_, rfl, fun _ h => by cases h⟩
      · rename_i hheader
        split
        · exact .inl ⟨_, rfl, fun _ h => by cases h⟩
        · rename_i pindexPrev hprev
          split
          · exact .inl ⟨_, rfl, fun _ h => by cases h⟩
          · split
            · exact .inl ⟨_, rfl, fun _ h => by cases h⟩
            · rename_i hcontextual
              split
              · rename_i failed hfailed
                exact .inr (.inr (.inr ⟨failed, _, rfl⟩))
              · exact .inr (.inr (.inl ⟨pindexPrev, ⟨hheader, hprev, hcontextual⟩, hgenesis, hnew,
                  rfl⟩))

end Accepted

end UnemployCoin
