import UnemployCoin.Compact
import UnemployCoin.HeaderSoundness
import UnemployCoin.Lib.RunningAverage
/-!
# DarkGravityWave

The average of the last 180 targets and the next target (`pow.cpp`), in whole numbers.
-/

namespace UnemployCoin

open RunningAverage

variable {P : HeaderParams} {nBits : UInt32} {chain past : List CBlockIndex} {n : arith_uint256}

/-- The range test of `CheckProofOfWork`. -/
def checkRange (P : HeaderParams) (nBits : UInt32) : Bool :=
  let (bnTarget, fNegative, fOverflow) := setCompact nBits
  !(fNegative || bnTarget == 0 || fOverflow || decide (bnTarget > P.powLimit))

theorem checkRange_iff : checkRange P nBits = true ↔ (setCompact nBits).2.1 = false ∧
    (setCompact nBits).1 ≠ 0 ∧ (setCompact nBits).2.2 = false ∧
      (setCompact nBits).1 ≤ P.powLimit := by
  simp only [checkRange, Bool.not_eq_true', Bool.or_eq_false_iff, beq_eq_false_iff_ne,
    decide_eq_false_iff_not, gt_iff_lt, BitVec.not_lt, and_assoc, ne_eq]

/-! ## The compact form of a target -/

/-- `nBits` is the compact form of `exact`: low bytes may be missing. -/
structure CompactOf (nBits : UInt32) (exact : ℕ) : Prop where
  notNegative : (setCompact nBits).2.1 = false
  fits : (setCompact nBits).2.2 = false
  le : (setCompact nBits).1.toNat ≤ exact
  near : (exact - (setCompact nBits).1.toNat) * 2 ^ 15 ≤ exact

theorem two_pow_le_of_bytesOf {k m : ℕ} (hk : k + 3 ≤ bytesOf m) : 2 ^ (8 * k + 15) ≤ m := by
  rw [bytesOf] at hk
  split at hk
  · omega
  · apply Nat.lt_size.mp
    omega

theorem compactOf_getCompact (n : arith_uint256) : CompactOf (getCompact n) n.toNat := by
  obtain ⟨hvalue, hnegative, hoverflow⟩ := setCompact_getCompact n
  have hle := Nat.div_mul_le_self n.toNat (2 ^ (8 * (bytesOf n.toNat - 3)))
  refine ⟨hnegative, hoverflow, by rw [hvalue]; exact hle, ?_⟩
  rw [hvalue]
  generalize hk : bytesOf n.toNat - 3 = k
  -- What is cut off is below the last byte that stays.
  have hcut : n.toNat - n.toNat / 2 ^ (8 * k) * 2 ^ (8 * k) = n.toNat % 2 ^ (8 * k) := by
    have hdiv := Nat.div_add_mod' n.toNat (2 ^ (8 * k))
    omega
  rw [hcut]
  cases k with
  | zero => simp [Nat.mod_one]
  | succ k =>
    calc n.toNat % 2 ^ (8 * (k + 1)) * 2 ^ 15 ≤ 2 ^ (8 * (k + 1)) * 2 ^ 15 :=
          Nat.mul_le_mul_right _ (Nat.le_of_lt (Nat.mod_lt _ (Nat.two_pow_pos _)))
      _ = 2 ^ (8 * (k + 1) + 15) := (Nat.pow_add _ _ _).symm
      _ ≤ n.toNat := two_pow_le_of_bytesOf (by omega)

theorem CompactOf.eq_zero_iff {exact : ℕ} (h : CompactOf nBits exact) :
    (setCompact nBits).1 = 0 ↔ exact = 0 := by
  have hle := h.le
  have hnear := h.near
  constructor
  · intro hzero
    have hnone : (setCompact nBits).1.toNat = 0 := congrArg BitVec.toNat hzero
    omega
  · rintro rfl
    exact BitVec.eq_of_toNat_eq (Nat.le_zero.mp hle)

theorem CompactOf.le_powLimit {exact : ℕ} (h : CompactOf nBits exact)
    (hexact : exact ≤ P.powLimit.toNat) : (setCompact nBits).1 ≤ P.powLimit :=
  h.le.trans hexact

/-! ## The average -/

def CBlockIndex.bnTarget (index : CBlockIndex) : arith_uint256 := (setCompact index.nBits).1

theorem pastTargetAvg_eq (past : List CBlockIndex) :
    pastTargetAvg past = wordAvg (past.map CBlockIndex.bnTarget) := by
  rw [pastTargetAvg, wordAvg, List.zipIdx_map, List.foldl_map]
  rfl

/-- The limits leave room for the products. -/
structure DgwLimits (P : HeaderParams) : Prop where
  retargets : (P.fPowAllowMinDifficultyBlocks && P.fPowNoRetargeting) = false
  spacing_pos : 0 < P.nPowTargetSpacing
  spacing_lt : 540 * P.nPowTargetSpacing < 2 ^ 32
  average : (P.powLimit.toNat + 1) * 181 < 2 ^ 256
  scaled : P.powLimit.toNat * (540 * P.nPowTargetSpacing) < 2 ^ 256
  kawpow_le : P.kawpowLimit ≤ P.powLimit
  kawpow_ne_zero : P.kawpowLimit ≠ 0

theorem mainLimits : DgwLimits mainHeaderParams := by
  constructor <;> decide

/-- The loop over `past` in whole numbers. -/
structure LoopExact (past : List CBlockIndex) : Prop where
  step : ∀ before index after, past = before ++ index :: after → before ≠ [] →
    AvgStepExact (before.map CBlockIndex.bnTarget) index.bnTarget
  low : ∃ index ∈ past, index.bnTarget ≤ pastTargetAvg past
  high : ∃ index ∈ past, pastTargetAvg past ≤ index.bnTarget

section Loop

variable (hlimits : DgwLimits P) (hlength : past.length ≤ 180)
  (hrange : ∀ index ∈ past, checkRange P index.nBits = true)

include hrange in
theorem bnTarget_le : ∀ target ∈ past.map CBlockIndex.bnTarget,
    target.toNat ≤ P.powLimit.toNat := by
  intro target hmem
  obtain ⟨index, hindex, rfl⟩ := List.mem_map.mp hmem
  exact (checkRange_iff.mp (hrange index hindex)).2.2.2

include hlimits hlength in
theorem average_fits :
    (P.powLimit.toNat + 1) * ((past.map CBlockIndex.bnTarget).length + 1) < 2 ^ 256 := by
  rw [List.length_map]
  exact Nat.lt_of_le_of_lt (Nat.mul_le_mul_left _ (by omega)) hlimits.average

include hlimits hlength hrange

theorem toNat_pastTargetAvg : (pastTargetAvg past).toNat =
    runningAvg ((past.map CBlockIndex.bnTarget).map BitVec.toNat) := by
  rw [pastTargetAvg_eq, toNat_wordAvg (bnTarget_le hrange) (average_fits hlimits hlength)]

theorem loop_exact (hne : past ≠ []) : LoopExact past := by
  have havg := toNat_pastTargetAvg hlimits hlength hrange
  have hmap : (past.map CBlockIndex.bnTarget).map BitVec.toNat ≠ [] := by
    simpa using hne
  obtain ⟨⟨low, hlow, hle⟩, high, hhigh, hge⟩ := runningAvg_between hmap
  rw [List.map_map, List.mem_map] at hlow hhigh
  obtain ⟨lowest, hlowest, rfl⟩ := hlow
  obtain ⟨highest, hhighest, rfl⟩ := hhigh
  refine ⟨?_, ⟨lowest, hlowest, ?_⟩, highest, hhighest, ?_⟩
  · intro before index after hsplit hbefore
    have hmapped : past.map CBlockIndex.bnTarget = before.map CBlockIndex.bnTarget ++
        index.bnTarget :: after.map CBlockIndex.bnTarget := by
      rw [hsplit, List.map_append, List.map_cons]
    exact wordAvg_exact (bnTarget_le hrange) (average_fits hlimits hlength) hmapped
      (by simpa using hbefore)
  · rw [BitVec.le_def, havg]
    exact hle
  · rw [BitVec.le_def, havg]
    exact hge

end Loop

/-! ## The next target -/

/-- The timespan of `past`, between a third and three times the target timespan. -/
def clampedTimespan (P : HeaderParams) (pindexLast : CBlockIndex) (past : List CBlockIndex) : ℤ :=
  let nFirstTime := ((past.getLast?).getD pindexLast).nTime
  let nTargetTimespan : ℤ := 180 * P.nPowTargetSpacing
  let nActualTimespan : ℤ := (pindexLast.nTime.toNat : ℤ) - nFirstTime.toNat
  min (max nActualTimespan (nTargetTimespan / 3)) (nTargetTimespan * 3)

theorem clampedTimespan_bounds (P : HeaderParams) (pindexLast : CBlockIndex)
    (past : List CBlockIndex) : 60 * (P.nPowTargetSpacing : ℤ) ≤ clampedTimespan P pindexLast past ∧
      clampedTimespan P pindexLast past ≤ 540 * P.nPowTargetSpacing := by
  rw [clampedTimespan]
  omega

def newTarget (P : HeaderParams) (avg nActualTimespan : ℕ) : ℕ :=
  min (avg * nActualTimespan / (180 * P.nPowTargetSpacing)) P.powLimit.toNat

section Retarget

variable {avg : arith_uint256} {nActualTimespan : ℕ}

/-- `nBits` is the retargeted average. -/
structure RetargetExact (P : HeaderParams) (avg : arith_uint256) (nActualTimespan : ℕ)
    (nBits : UInt32) : Prop where
  product : (avg * BitVec.ofInt 256 ((nActualTimespan : ℤ) % 2 ^ 32)).toNat =
    avg.toNat * nActualTimespan
  third : avg.toNat / 3 ≤ newTarget P avg.toNat nActualTimespan
  threefold : newTarget P avg.toNat nActualTimespan ≤ 3 * avg.toNat
  compact : CompactOf nBits (newTarget P avg.toNat nActualTimespan)
  positive : (setCompact nBits).1 ≠ 0 ↔ 180 * P.nPowTargetSpacing ≤ avg.toNat * nActualTimespan

theorem third_le_newTarget (hspacing : 0 < P.nPowTargetSpacing) (havg : avg ≤ P.powLimit)
    (hlow : 60 * P.nPowTargetSpacing ≤ nActualTimespan) :
    avg.toNat / 3 ≤ newTarget P avg.toNat nActualTimespan := by
  rw [newTarget, Nat.le_min]
  constructor
  · rw [Nat.le_div_iff_mul_le (by omega)]
    calc avg.toNat / 3 * (180 * P.nPowTargetSpacing)
        = avg.toNat / 3 * 3 * (60 * P.nPowTargetSpacing) := by ring
      _ ≤ avg.toNat * nActualTimespan :=
        Nat.mul_le_mul (Nat.div_mul_le_self _ _) hlow
  · exact (Nat.div_le_self _ _).trans havg

theorem newTarget_le_threefold (hhigh : nActualTimespan ≤ 540 * P.nPowTargetSpacing) :
    newTarget P avg.toNat nActualTimespan ≤ 3 * avg.toNat := by
  rw [newTarget]
  apply (Nat.min_le_left _ _).trans
  apply Nat.div_le_of_le_mul
  calc avg.toNat * nActualTimespan ≤ avg.toNat * (540 * P.nPowTargetSpacing) :=
        Nat.mul_le_mul_left _ hhigh
    _ = 180 * P.nPowTargetSpacing * (3 * avg.toNat) := by ring

theorem toNat_scaled (hlimits : DgwLimits P) (havg : avg ≤ P.powLimit)
    (hhigh : nActualTimespan ≤ 540 * P.nPowTargetSpacing) :
    (avg * BitVec.ofInt 256 ((nActualTimespan : ℤ) % 2 ^ 32)).toNat =
      avg.toNat * nActualTimespan := by
  have hspacing := hlimits.spacing_lt
  have htimespan : (BitVec.ofInt 256 ((nActualTimespan : ℤ) % 2 ^ 32)).toNat = nActualTimespan := by
    rw [BitVec.toNat_ofInt]
    omega
  rw [BitVec.toNat_mul, htimespan]
  apply Nat.mod_eq_of_lt
  calc avg.toNat * nActualTimespan ≤ P.powLimit.toNat * (540 * P.nPowTargetSpacing) :=
        Nat.mul_le_mul havg hhigh
    _ < 2 ^ 256 := hlimits.scaled

theorem toNat_targetTimespan (hlimits : DgwLimits P) :
    (BitVec.ofInt 256 (180 * (P.nPowTargetSpacing : ℤ))).toNat = 180 * P.nPowTargetSpacing := by
  have hspacing := hlimits.spacing_lt
  rw [show 180 * (P.nPowTargetSpacing : ℤ) = ((180 * P.nPowTargetSpacing : ℕ) : ℤ) by simp,
    BitVec.ofInt_natCast, BitVec.toNat_ofNat]
  apply Nat.mod_eq_of_lt
  calc 180 * P.nPowTargetSpacing < 2 ^ 32 := by omega
    _ < 2 ^ 256 := by decide

theorem retarget_eq (hlimits : DgwLimits P) (havg : avg ≤ P.powLimit)
    (hhigh : nActualTimespan ≤ 540 * P.nPowTargetSpacing) :
    ∃ new : arith_uint256, new.toNat = newTarget P avg.toNat nActualTimespan ∧
      retarget P avg nActualTimespan (180 * P.nPowTargetSpacing) = getCompact new := by
  have hscaled := toNat_scaled hlimits havg hhigh
  have htarget := toNat_targetTimespan hlimits
  rw [retarget]
  generalize avg * BitVec.ofInt 256 ((nActualTimespan : ℤ) % 2 ^ 32) = scaled at hscaled ⊢
  generalize BitVec.ofInt 256 (180 * (P.nPowTargetSpacing : ℤ)) = nTargetTimespan at htarget ⊢
  have hquotient : (scaled / nTargetTimespan).toNat =
      avg.toNat * nActualTimespan / (180 * P.nPowTargetSpacing) := by
    rw [BitVec.toNat_udiv, hscaled, htarget]
  refine ⟨if scaled / nTargetTimespan > P.powLimit then P.powLimit else scaled / nTargetTimespan,
    ?_, rfl⟩
  rw [newTarget, ← hquotient]
  split
  · rename_i hgt
    exact (Nat.min_eq_right (Nat.le_of_lt hgt)).symm
  · rename_i hle
    exact (Nat.min_eq_left (Nat.not_lt.mp hle)).symm

theorem retarget_exact (hlimits : DgwLimits P) (havg : avg ≤ P.powLimit)
    (hpos : 0 < P.powLimit.toNat) (hlow : 60 * P.nPowTargetSpacing ≤ nActualTimespan)
    (hhigh : nActualTimespan ≤ 540 * P.nPowTargetSpacing) :
    RetargetExact P avg nActualTimespan
      (retarget P avg nActualTimespan (180 * P.nPowTargetSpacing)) := by
  obtain ⟨new, hnew, hretarget⟩ := retarget_eq hlimits havg hhigh
  have hcompact : CompactOf (retarget P avg nActualTimespan (180 * P.nPowTargetSpacing))
      (newTarget P avg.toNat nActualTimespan) := by
    rw [hretarget, ← hnew]
    exact compactOf_getCompact new
  refine ⟨toNat_scaled hlimits havg hhigh, third_le_newTarget hlimits.spacing_pos havg hlow,
    newTarget_le_threefold hhigh, hcompact, ?_⟩
  have hspacing := hlimits.spacing_pos
  rw [ne_eq, hcompact.eq_zero_iff, newTarget, Nat.min_eq_zero_iff, Nat.div_eq_zero_iff]
  omega

end Retarget

/-! ## The whole function -/

section Whole

variable {pindexLast : CBlockIndex} {older : List CBlockIndex} {pblock : CBlockHeader}

def KawpowPending (P : HeaderParams) (past : List CBlockIndex) (pblock : CBlockHeader) : Prop :=
  pblock.nTime ≥ P.nKAWPOWActivationTime ∧
    (past.filter fun index => decide (index.nTime ≥ P.nKAWPOWActivationTime)).length ≠ 180

instance (past : List CBlockIndex) : Decidable (KawpowPending P past pblock) :=
  inferInstanceAs (Decidable (_ ∧ _))

theorem darkGravityWave_of_short (hshort : pindexLast.nHeight < 180) :
    darkGravityWave P (pindexLast :: older) pblock = getCompact P.powLimit :=
  if_pos hshort

theorem darkGravityWave_of_kawpow (hlimits : DgwLimits P) (hlong : 180 ≤ pindexLast.nHeight)
    (hpending : KawpowPending P ((pindexLast :: older).take 180) pblock) :
    darkGravityWave P (pindexLast :: older) pblock = getCompact P.kawpowLimit := by
  simp only [darkGravityWave]
  rw [if_neg (Nat.not_lt.mpr hlong), hlimits.retargets, if_neg Bool.false_ne_true]
  exact if_pos hpending

theorem darkGravityWave_of_retarget (hlimits : DgwLimits P) (hlong : 180 ≤ pindexLast.nHeight)
    (hpending : ¬KawpowPending P ((pindexLast :: older).take 180) pblock) :
    darkGravityWave P (pindexLast :: older) pblock =
      retarget P (pastTargetAvg ((pindexLast :: older).take 180))
        (clampedTimespan P pindexLast ((pindexLast :: older).take 180))
        (180 * P.nPowTargetSpacing) := by
  simp only [darkGravityWave]
  rw [if_neg (Nat.not_lt.mpr hlong), hlimits.retargets, if_neg Bool.false_ne_true]
  exact if_neg hpending

/-- `DarkGravityWave` on a chain in whole numbers. -/
structure DgwExact (P : HeaderParams) (pindexLast : CBlockIndex) (chain : List CBlockIndex)
    (pblock : CBlockHeader) : Prop where
  loop : LoopExact (chain.take 180)
  notNegative : (setCompact (darkGravityWave P chain pblock)).2.1 = false
  fits : (setCompact (darkGravityWave P chain pblock)).2.2 = false
  le_powLimit : (setCompact (darkGravityWave P chain pblock)).1 ≤ P.powLimit
  retarget : 180 ≤ pindexLast.nHeight → ¬KawpowPending P (chain.take 180) pblock →
    RetargetExact P (pastTargetAvg (chain.take 180))
      (clampedTimespan P pindexLast (chain.take 180)).toNat (darkGravityWave P chain pblock)
  short : pindexLast.nHeight < 180 → darkGravityWave P chain pblock = getCompact P.powLimit ∧
    (setCompact (darkGravityWave P chain pblock)).1 ≠ 0
  kawpow : 180 ≤ pindexLast.nHeight → KawpowPending P (chain.take 180) pblock →
    darkGravityWave P chain pblock = getCompact P.kawpowLimit ∧
      (setCompact (darkGravityWave P chain pblock)).1 ≠ 0

theorem powLimit_pos (hlimits : DgwLimits P) : 0 < P.powLimit.toNat := by
  have hne : P.kawpowLimit.toNat ≠ 0 := fun hzero =>
    hlimits.kawpow_ne_zero (BitVec.eq_of_toNat_eq hzero)
  exact Nat.lt_of_lt_of_le (Nat.pos_of_ne_zero hne) hlimits.kawpow_le

theorem pastTargetAvg_le (hloop : LoopExact past)
    (hrange : ∀ index ∈ past, checkRange P index.nBits = true) :
    pastTargetAvg past ≤ P.powLimit := by
  obtain ⟨index, hindex, hle⟩ := hloop.high
  exact BitVec.le_trans hle (checkRange_iff.mp (hrange index hindex)).2.2.2

theorem retarget_past (hlimits : DgwLimits P) (hlong : 180 ≤ pindexLast.nHeight)
    (hpending : ¬KawpowPending P ((pindexLast :: older).take 180) pblock)
    (havg : pastTargetAvg ((pindexLast :: older).take 180) ≤ P.powLimit) :
    RetargetExact P (pastTargetAvg ((pindexLast :: older).take 180))
      (clampedTimespan P pindexLast ((pindexLast :: older).take 180)).toNat
      (darkGravityWave P (pindexLast :: older) pblock) := by
  have hbounds := clampedTimespan_bounds P pindexLast ((pindexLast :: older).take 180)
  rw [darkGravityWave_of_retarget hlimits hlong hpending]
  generalize clampedTimespan P pindexLast ((pindexLast :: older).take 180) = timespan at hbounds ⊢
  obtain ⟨nActualTimespan, rfl⟩ := Int.eq_ofNat_of_zero_le (a := timespan) (by omega)
  exact retarget_exact hlimits havg (powLimit_pos hlimits) (by omega) (by omega)

theorem limit_inRange {limit : arith_uint256} (hle : limit ≤ P.powLimit) (hne : limit ≠ 0) :
    checkRange P (getCompact limit) = true := by
  have hcompact := compactOf_getCompact limit
  rw [checkRange_iff]
  refine ⟨hcompact.notNegative, fun hzero => hne ?_, hcompact.fits, hcompact.le_powLimit hle⟩
  exact BitVec.eq_of_toNat_eq (hcompact.eq_zero_iff.mp hzero)

theorem dgw_exact (hlimits : DgwLimits P)
    (hrange : ∀ index ∈ (pindexLast :: older).take 180, checkRange P index.nBits = true) :
    DgwExact P pindexLast (pindexLast :: older) pblock := by
  have hloop : LoopExact ((pindexLast :: older).take 180) := by
    apply loop_exact hlimits (List.length_take_le _ _) hrange
    simp
  have havg := pastTargetAvg_le hloop hrange
  have hpow : P.powLimit ≠ 0 := fun hzero => by
    have hpos := powLimit_pos hlimits
    rw [hzero] at hpos
    exact Nat.lt_irrefl 0 hpos
  have hpowRange := checkRange_iff.mp (limit_inRange (BitVec.le_refl P.powLimit) hpow)
  have hkawpowRange := checkRange_iff.mp (limit_inRange hlimits.kawpow_le hlimits.kawpow_ne_zero)
  by_cases hlong : 180 ≤ pindexLast.nHeight
  · by_cases hpending : KawpowPending P ((pindexLast :: older).take 180) pblock
    · have hresult := darkGravityWave_of_kawpow hlimits hlong hpending
      rw [← hresult] at hkawpowRange
      obtain ⟨hnegative, hne, hfits, hle⟩ := hkawpowRange
      exact ⟨hloop, hnegative, hfits, hle, fun _ h => absurd hpending h,
        fun h => absurd hlong (Nat.not_le.mpr h), fun _ _ => ⟨hresult, hne⟩⟩
    · have hexact := retarget_past hlimits hlong hpending havg
      exact ⟨hloop, hexact.compact.notNegative, hexact.compact.fits,
        hexact.compact.le_powLimit (Nat.min_le_right _ _), fun _ _ => hexact,
        fun h => absurd hlong (Nat.not_le.mpr h), fun _ h => absurd h hpending⟩
  · have hresult : darkGravityWave P (pindexLast :: older) pblock = getCompact P.powLimit :=
      darkGravityWave_of_short (Nat.not_le.mp hlong)
    rw [← hresult] at hpowRange
    obtain ⟨hnegative, hne, hfits, hle⟩ := hpowRange
    exact ⟨hloop, hnegative, hfits, hle, fun h => absurd h hlong, fun _ => ⟨hresult, hne⟩,
      fun h => absurd h hlong⟩

end Whole

/-- **`DarkGravityWave` on the main chain.**  No operation wraps, and the next target is the average
of the last 180 targets up to a factor of 3, unless a limit is returned. -/
theorem darkGravityWave_exact (pindexLast : CBlockIndex) (older : List CBlockIndex)
    (pblock : CBlockHeader)
    (hrange : ∀ index ∈ (pindexLast :: older).take 180,
      checkRange mainHeaderParams index.nBits = true) :
    DgwExact mainHeaderParams pindexLast (pindexLast :: older) pblock :=
  dgw_exact mainLimits hrange

/-- A chain up to `nHeight` with one time and one compact target, the tip first. -/
def sampleTargets (nHeight : ℕ) (nTime nBits : UInt32) : List CBlockIndex :=
  (List.range (nHeight + 1)).reverse.map fun h =>
    { mainGenesisIndex with nHeight := h, nTime := nTime, nBits := nBits }

/-- Time stands still, on a chain of the easiest targets. -/
theorem darkGravityWave_still :
    DgwExact mainHeaderParams
      { mainGenesisIndex with nHeight := 180, nTime := 1718831000, nBits := 0x1e0fffff }
      (sampleTargets 180 1718831000 0x1e0fffff) (sampleHeader 181 0) :=
  darkGravityWave_exact _ _ _ (by decide +kernel)

/-- On chains of target 1, the next target is zero after 181 blocks in no time, and a limit after
180 blocks and for the first KAWPOW block. -/
theorem darkGravityWave_extremes :
    ((∀ index ∈ (sampleTargets 180 1718831000 0x01010000).take 180,
        checkRange mainHeaderParams index.nBits = true) ∧
      (setCompact (darkGravityWave mainHeaderParams (sampleTargets 180 1718831000 0x01010000)
        (sampleHeader 181 0))).1 = 0) ∧
    ((∀ index ∈ (sampleTargets 179 1718831000 0x01010000).take 180,
        checkRange mainHeaderParams index.nBits = true) ∧
      pastTargetAvg ((sampleTargets 179 1718831000 0x01010000).take 180) = 1 ∧
      (setCompact (darkGravityWave mainHeaderParams (sampleTargets 179 1718831000 0x01010000)
        (sampleHeader 180 0))).1 > 3) ∧
    ((∀ index ∈ (sampleTargets 180 1718830000 0x01010000).take 180,
        checkRange mainHeaderParams index.nBits = true) ∧
      pastTargetAvg ((sampleTargets 180 1718830000 0x01010000).take 180) = 1 ∧
      (setCompact (darkGravityWave mainHeaderParams (sampleTargets 180 1718830000 0x01010000)
        (sampleHeader 181 0))).1 > 3) := by
  decide +kernel

end UnemployCoin
