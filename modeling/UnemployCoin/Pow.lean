import Mathlib.Data.Nat.Size
import UnemployCoin.BlockHeader
/-!
# Proof of work and difficulty

`arith_uint256.cpp` (the compact form of a target), `pow.cpp` and `GetBlockProof` (`chain.cpp`).
Sums and products of targets **wrap at 256 bits**.

A chain is the list of its index entries, the last block first.
-/

namespace UnemployCoin

/-- `arith_uint256::SetCompact`: the target, whether it is negative, and whether it
overflows. -/
def setCompact (nCompact : UInt32) : arith_uint256 × Bool × Bool :=
  let nSize := (nCompact >>> 24).toNat
  let nWord₀ := nCompact &&& 0x007fffff
  let nWord := if nSize ≤ 3 then nWord₀ >>> (UInt32.ofNat (8 * (3 - nSize))) else nWord₀
  let target : arith_uint256 := BitVec.ofNat 256 nWord.toNat
  (if nSize ≤ 3 then target else target <<< (8 * (nSize - 3)),
    nWord != 0 && (nCompact &&& 0x00800000) != 0,
    nWord != 0 && (decide (nSize > 34) || (decide (nWord > 0xff) && decide (nSize > 33)) ||
      (decide (nWord > 0xffff) && decide (nSize > 32))))

def getCompact (n : arith_uint256) : UInt32 :=
  let nSize := (Nat.size n.toNat + 7) / 8
  let nCompact : UInt32 :=
    if nSize ≤ 3 then UInt32.ofNat (n.toNat * 2 ^ (8 * (3 - nSize)))
    else UInt32.ofNat (n.toNat / 2 ^ (8 * (nSize - 3)))
  -- A mantissa with the sign bit set goes one byte down.
  if nCompact &&& 0x00800000 ≠ 0 then (nCompact >>> 8) ||| UInt32.ofNat ((nSize + 1) * 2 ^ 24)
  else nCompact ||| UInt32.ofNat (nSize * 2 ^ 24)

def checkProofOfWork (P : HeaderParams) (hash : arith_uint256) (nBits : UInt32) : Bool :=
  let (bnTarget, fNegative, fOverflow) := setCompact nBits
  !(fNegative || bnTarget == 0 || fOverflow || decide (bnTarget > P.powLimit)) &&
    !decide (hash > bnTarget)

def getBlockProof (nBits : UInt32) : arith_uint256 :=
  let (bnTarget, fNegative, fOverflow) := setCompact nBits
  if fNegative || fOverflow || bnTarget == 0 then 0 else ~~~bnTarget / (bnTarget + 1) + 1

/-! ## The next target -/

section Next

variable (P : HeaderParams)

def HeaderParams.difficultyAdjustmentInterval : ℕ := P.nPowTargetTimespan / P.nPowTargetSpacing

def HeaderParams.isDGWActive (nBlockNumber : ℕ) : Bool :=
  decide (P.nDGWActivationBlock ≤ nBlockNumber)

/-- The last block that is no minimum-difficulty block under the special rule. -/
def lastNonSpecial : List CBlockIndex → UInt32
  | [] => 0
  | [index] => index.nBits
  | index :: chain =>
    if index.nHeight % P.difficultyAdjustmentInterval ≠ 0 ∧ index.nBits = getCompact P.powLimit then
      lastNonSpecial chain
    else index.nBits

/-- `bnNew *= nActualTimespan; bnNew /= nTargetTimespan`, cut at the limit. -/
def retarget (bnNew : arith_uint256) (nActualTimespan nTargetTimespan : ℤ) : UInt32 :=
  let scaled := bnNew * BitVec.ofInt 256 (nActualTimespan % 2 ^ 32)
  let new := scaled / BitVec.ofInt 256 nTargetTimespan
  getCompact (if new > P.powLimit then P.powLimit else new)

def pastTargetAvg (chain : List CBlockIndex) : arith_uint256 :=
  chain.zipIdx.foldl (fun avg (index, i) =>
    let bnTarget := (setCompact index.nBits).1
    if i = 0 then bnTarget
    else (avg * BitVec.ofNat 256 (i + 1) + bnTarget) / BitVec.ofNat 256 (i + 2)) 0

def darkGravityWave (chain : List CBlockIndex) (pblock : CBlockHeader) : UInt32 :=
  match chain with
  | [] => 0
  | pindexLast :: _ =>
    if pindexLast.nHeight < 180 then getCompact P.powLimit
    else if P.fPowAllowMinDifficultyBlocks && P.fPowNoRetargeting then
      if pblock.nTime.toNat > pindexLast.nTime.toNat + P.nPowTargetSpacing * 2 then
        getCompact P.powLimit
      else lastNonSpecial P chain
    else
      let past := chain.take 180
      let nKAWPOWBlocksFound :=
        (past.filter fun index => decide (index.nTime ≥ P.nKAWPOWActivationTime)).length
      if pblock.nTime ≥ P.nKAWPOWActivationTime ∧ nKAWPOWBlocksFound ≠ 180 then
        getCompact P.kawpowLimit
      else
        let nFirstTime := ((past.getLast?).getD pindexLast).nTime
        let nTargetTimespan : ℤ := 180 * P.nPowTargetSpacing
        let nActualTimespan : ℤ := (pindexLast.nTime.toNat : ℤ) - nFirstTime.toNat
        retarget P (pastTargetAvg past)
          (min (max nActualTimespan (nTargetTimespan / 3)) (nTargetTimespan * 3)) nTargetTimespan

def calculateNextWorkRequired (pindexLast : CBlockIndex) (nFirstBlockTime : UInt32) : UInt32 :=
  if P.fPowNoRetargeting then pindexLast.nBits
  else
    let nActualTimespan : ℤ := (pindexLast.nTime.toNat : ℤ) - nFirstBlockTime.toNat
    let nTimespan : ℤ := P.nPowTargetTimespan
    retarget P (setCompact pindexLast.nBits).1
      (min (max nActualTimespan (nTimespan / 4)) (nTimespan * 4)) nTimespan

def getNextWorkRequiredBTC (chain : List CBlockIndex) (pblock : CBlockHeader) : UInt32 :=
  match chain with
  | [] => 0
  | pindexLast :: _ =>
    if (pindexLast.nHeight + 1) % P.difficultyAdjustmentInterval ≠ 0 then
      if P.fPowAllowMinDifficultyBlocks then
        if pblock.nTime.toNat > pindexLast.nTime.toNat + P.nPowTargetSpacing * 2 then
          getCompact P.powLimit
        else lastNonSpecial P chain
      else pindexLast.nBits
    else
      let nHeightFirst := pindexLast.nHeight - (P.difficultyAdjustmentInterval - 1)
      match chain.find? fun index => index.nHeight == nHeightFirst with
      | none => 0
      | some pindexFirst => calculateNextWorkRequired P pindexLast pindexFirst.nTime

def getNextWorkRequired (chain : List CBlockIndex) (pblock : CBlockHeader) : UInt32 :=
  match chain with
  | [] => 0
  | pindexLast :: _ =>
    if P.isDGWActive (pindexLast.nHeight + 1) then darkGravityWave P chain pblock
    else getNextWorkRequiredBTC P chain pblock

end Next

end UnemployCoin
