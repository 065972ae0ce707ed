import UnemployCoin.AcceptHeader
/-!
# Proof of work of accepted headers

A header after the KAWPOW activation that gets an entry above the last known checkpoint should
carry the work for its height: the mix of a full evaluation for that height, and a final hash
that meets its target.  But `CheckBlockHeader` goes by the height the header states, which
nothing compares with the height it gets.
-/

namespace UnemployCoin

open Check

/-- A header gets a **new entry** at some height. -/
def AcceptedAt (H : HeaderHashes) (P : HeaderParams) (ctx : HeaderContext)
    (mapBlockIndex : BlockMap) (block : CBlockHeader) (nHeight : ℕ) : Prop :=
  mapBlockIndex.find? (block.getHash H P) = none ∧
    (acceptBlockHeader H P ctx mapBlockIndex block).2 = .ok (block.getHash H P) ∧
    ∃ index, (acceptBlockHeader H P ctx mapBlockIndex block).1.find? (block.getHash H P) =
      some index ∧ index.nHeight = nHeight

/-- A header has the **work for some height**: its mix is that of the full evaluation there, and
the final hash of that evaluation meets its target. -/
def HasWorkAt (H : HeaderHashes) (P : HeaderParams) (block : CBlockHeader) (nHeight : ℕ) : Prop :=
  block.mix_hash = (block.progpowHash H nHeight).2 ∧
    checkProofOfWork P (block.progpowHash H nHeight).1 block.nBits = true

def HeaderHashes.withMix (H : HeaderHashes)
    (progpowMix : ℕ → arith_uint256 → UInt64 → arith_uint256) :
    HeaderHashes := { H with progpowMix := progpowMix }

variable {H : HeaderHashes} {P : HeaderParams} {ctx : HeaderContext} {mapBlockIndex : BlockMap}
  {block : CBlockHeader} {nHeight : ℕ} {mix mix' : ℕ → arith_uint256 → UInt64 → arith_uint256}

theorem not_lt_of_kawpow (hkawpow : block.nTime ≥ P.nKAWPOWActivationTime) :
    ¬ block.nTime < P.nKAWPOWActivationTime := UInt32.not_lt.2 hkawpow

theorem getHash_eq_progpowHash (hkawpow : block.nTime ≥ P.nKAWPOWActivationTime)
    (hmix : block.mix_hash = (block.progpowHash H nHeight).2) :
    block.getHash H P = (block.progpowHash H nHeight).1 := by
  rw [CBlockHeader.getHash, if_neg (not_lt_of_kawpow hkawpow),
    CBlockHeader.kawpowHash_OnlyMix, hmix]
  rfl

theorem hasWork_of_checkBlockHeader (hkawpow : block.nTime ≥ P.nKAWPOWActivationTime)
    (hcheckpoint : ∀ pcheckpoint ∈ getLastCheckpoint P mapBlockIndex,
      pcheckpoint.nHeight < block.nHeight.toNat)
    (h : checkBlockHeader H P mapBlockIndex block = .ok ()) :
    HasWorkAt H P block block.nHeight.toNat := by
  have hnone : (getLastCheckpoint P mapBlockIndex).any (fun pcheckpoint =>
      decide (block.nHeight.toNat ≤ pcheckpoint.nHeight)) = false := by
    rw [Option.any_eq_false]
    intro pcheckpoint hpcheckpoint
    have hlt := hcheckpoint pcheckpoint hpcheckpoint
    exact decide_eq_false (by omega)
  rw [checkBlockHeader, hnone] at h
  simp only [Bool.false_eq_true, and_false, if_false, require_bind, onlyIf_ok, require_ok,
    decide_eq_true_eq] at h
  obtain ⟨hwork, hmix⟩ := h
  have hfull : block.getHashFull H P = block.progpowHash H block.nHeight.toNat := by
    rw [CBlockHeader.getHashFull, if_neg (not_lt_of_kawpow hkawpow), CBlockHeader.kawpowHash]
  rw [hfull] at hwork hmix
  exact ⟨(beq_iff_eq.1 (hmix hkawpow)).symm, hwork⟩

theorem acceptBlockHeader_withMix
    (h : mix block.nHeight.toNat = mix' block.nHeight.toNat) :
    acceptBlockHeader (H.withMix mix) P ctx mapBlockIndex block =
      acceptBlockHeader (H.withMix mix') P ctx mapBlockIndex block := by
  have hprogpow : block.progpowHash (H.withMix mix) block.nHeight.toNat =
      block.progpowHash (H.withMix mix') block.nHeight.toNat := by
    rw [CBlockHeader.progpowHash, CBlockHeader.progpowHash, HeaderHashes.withMix,
      HeaderHashes.withMix]
    dsimp only
    rw [h]
    rfl
  have hfull : block.getHashFull (H.withMix mix) P = block.getHashFull (H.withMix mix') P := by
    rw [CBlockHeader.getHashFull, CBlockHeader.getHashFull, CBlockHeader.kawpowHash,
      CBlockHeader.kawpowHash, hprogpow]
    rfl
  have hcheck : checkBlockHeader (H.withMix mix) P mapBlockIndex block =
      checkBlockHeader (H.withMix mix') P mapBlockIndex block := by
    rw [checkBlockHeader, checkBlockHeader, hfull]
    rfl
  rw [acceptBlockHeader, acceptBlockHeader, hcheck]
  rfl

theorem AcceptedAt.withMix (h : mix block.nHeight.toNat = mix' block.nHeight.toNat)
    (haccepted : AcceptedAt (H.withMix mix) P ctx mapBlockIndex block nHeight) :
    AcceptedAt (H.withMix mix') P ctx mapBlockIndex block nHeight := by
  rw [AcceptedAt, acceptBlockHeader_withMix h] at haccepted
  exact haccepted

theorem hasWork_of_acceptedAt (hkawpow : block.nTime ≥ P.nKAWPOWActivationTime)
    (hcheckpoint : ∀ pcheckpoint ∈ getLastCheckpoint P mapBlockIndex, pcheckpoint.nHeight < nHeight)
    (haccepted : AcceptedAt H P ctx mapBlockIndex block nHeight)
    (hheight : block.nHeight.toNat = nHeight) (hgenesis : block.getHash H P ≠ P.hashGenesisBlock) :
    HasWorkAt H P block nHeight := by
  obtain ⟨hnew, hok, index, hindex, -⟩ := haccepted
  subst hheight
  rcases acceptBlockHeader_cases H P ctx mapBlockIndex block with
    ⟨result, hresult, hknown⟩ | ⟨hhash, -⟩ | ⟨pindexPrev, hpasses, -, -, -⟩ |
      ⟨failed, reason, hresult⟩
  · rw [hresult] at hok
    have hcount := hknown _ hok
    rw [StdMap.count_eq_false.2 hnew] at hcount
    cases hcount
  · exact absurd hhash hgenesis
  · exact hasWork_of_checkBlockHeader hkawpow hcheckpoint hpasses.header
  · rw [hresult] at hok
    cases hok

theorem add_one_ne_self (hash : arith_uint256) : hash ≠ hash + 1 := by
  bv_omega

/-- **The work of a header is done, whatever ProgPoW computes, exactly when the header states its
own height** and does not have the hash of the genesis block. -/
theorem acceptedHeader_sound_iff (hkawpow : block.nTime ≥ P.nKAWPOWActivationTime)
    (hcheckpoint : ∀ pcheckpoint ∈ getLastCheckpoint P mapBlockIndex,
      pcheckpoint.nHeight < nHeight) :
    (∀ mix, AcceptedAt (H.withMix mix) P ctx mapBlockIndex block nHeight →
      HasWorkAt (H.withMix mix) P block nHeight) ↔
    ((∃ mix, AcceptedAt (H.withMix mix) P ctx mapBlockIndex block nHeight) →
      block.nHeight.toNat = nHeight ∧ block.getHash H P ≠ P.hashGenesisBlock) := by
  constructor
  · rintro hsound ⟨mix, haccepted⟩
    constructor
    · -- With another height stated, the mix for the height of the header may be anything.
      by_contra hheight
      let mix' := fun n hash nonce => if n = nHeight then block.mix_hash + 1 else mix n hash nonce
      have hsame : mix block.nHeight.toNat = mix' block.nHeight.toNat := by
        funext hash nonce
        exact (if_neg hheight).symm
      obtain ⟨hmix, -⟩ := hsound mix' (haccepted.withMix hsame)
      have hvalue : (block.progpowHash (H.withMix mix') nHeight).2 = block.mix_hash + 1 :=
        if_pos rfl
      rw [hvalue] at hmix
      exact add_one_ne_self block.mix_hash hmix
    · -- Nothing is checked of a header with the hash of the genesis block.
      intro hgenesis
      let mix' : ℕ → arith_uint256 → UInt64 → arith_uint256 := fun _ _ _ => block.mix_hash + 1
      have hall : ∀ mix, acceptBlockHeader (H.withMix mix) P ctx mapBlockIndex block =
          (addToBlockIndex H P mapBlockIndex block, .ok (block.getHash H P)) := by
        intro mix
        rw [acceptBlockHeader]
        exact if_pos hgenesis
      have haccepted' : AcceptedAt (H.withMix mix') P ctx mapBlockIndex block nHeight := by
        rw [AcceptedAt, hall] at haccepted ⊢
        exact haccepted
      obtain ⟨hmix, -⟩ := hsound mix' haccepted'
      exact add_one_ne_self block.mix_hash hmix
  · intro hcondition mix haccepted
    obtain ⟨hheight, hgenesis⟩ := hcondition ⟨mix, haccepted⟩
    exact hasWork_of_acceptedAt hkawpow hcheckpoint haccepted hheight hgenesis

/-! ## A header without work -/

/-- Parameters with those of the main chain, its genesis block the only checkpoint. -/
def mainHeaderParams : HeaderParams where
  hashGenesisBlock := 0x000007cf5c3dbe4e0b59ecbb9e7d50ad48d90557e34a06b3b28522ffb1cb8799
  powLimit := 0x00000fffffffffffffffffffffffffffffffffffffffffffffffffffffffffff
  kawpowLimit := 0x0000000000ffffffffffffffffffffffffffffffffffffffffffffffffffffff
  fPowAllowMinDifficultyBlocks := false
  fPowNoRetargeting := false
  nPowTargetSpacing := 60
  nPowTargetTimespan := 2016 * 60
  nDGWActivationBlock := 10
  nKAWPOWActivationTime := 1718831000
  nX16RV2ActivationTime := 1569945600
  mapCheckpoints := [(0, 0x000007cf5c3dbe4e0b59ecbb9e7d50ad48d90557e34a06b3b28522ffb1cb8799)]

def mainGenesisIndex : CBlockIndex :=
  { CBlockIndex.null with
    nVersion := 4
    hashMerkleRoot := 0x1c07f11d5c1b034e61b1bc79fdb4cd9607d2a3a2fc3e5b86f011c942308c74e4
    nTime := 1718830000
    nBits := 0x1e00ffff
    nNonce := 2459986
    nStatus := BLOCK_VALID_TREE
    nChainWork := getBlockProof 0x1e00ffff
    nTimeMax := 1718830000 }

def mainGenesisMap : BlockMap := StdMap.assign ∅ mainHeaderParams.hashGenesisBlock mainGenesisIndex

/-- Hash functions under which ProgPoW gives the mix 7, and any mix meets the target. -/
def sampleHashes : HeaderHashes :=
  ⟨fun _ _ => 1, fun _ _ => 1, fun data => BitVec.ofNat 256 (readLE data),
    fun _ _ _ => 7, fun _ nonce _ => BitVec.ofNat 256 nonce.toNat⟩

def sampleHeaderContext : HeaderContext where
  nMaxReorgDepth := 60
  nMinReorgPeers := 4
  nMinReorgAge := 43200
  chainActiveHeight := 0
  chainActiveTime := 1718830000
  nCurrentNodeCount := some 0
  getTime := 1718831000
  nAdjustedTime := 1718831000
  fCheckpointsEnabled := true
  areAssetsDeployed := false
  g_failed_blocks := []

def sampleHeader (nHeight : UInt32) (mix_hash : arith_uint256) : CBlockHeader where
  nVersion := 4
  hashPrevBlock := mainHeaderParams.hashGenesisBlock
  hashMerkleRoot := 9
  nTime := 1718831000
  nBits := 0x1e00ffff
  nNonce := 0
  nHeight := nHeight
  nNonce64 := 5
  mix_hash := mix_hash

theorem lastCheckpoint_mainGenesisMap :
    ∀ pcheckpoint ∈ getLastCheckpoint mainHeaderParams mainGenesisMap, pcheckpoint.nHeight < 1 := by
  have hlast : getLastCheckpoint mainHeaderParams mainGenesisMap = some mainGenesisIndex := by
    decide +kernel
  intro pcheckpoint hmem
  rw [hlast] at hmem
  cases hmem
  exact Nat.one_pos

/-- The equivalence for a header of height 1 on the genesis block of the main chain. -/
theorem sampleHeader_sound_iff :
    (∀ mix, AcceptedAt (sampleHashes.withMix mix) mainHeaderParams sampleHeaderContext
        mainGenesisMap (sampleHeader 1 7) 1 →
      HasWorkAt (sampleHashes.withMix mix) mainHeaderParams (sampleHeader 1 7) 1) ↔
    ((∃ mix, AcceptedAt (sampleHashes.withMix mix) mainHeaderParams sampleHeaderContext
        mainGenesisMap (sampleHeader 1 7) 1) →
      (sampleHeader 1 7).nHeight.toNat = 1 ∧
        (sampleHeader 1 7).getHash sampleHashes mainHeaderParams ≠
          mainHeaderParams.hashGenesisBlock) :=
  acceptedHeader_sound_iff (show (1718831000 : UInt32) ≥ 1718831000 from UInt32.le_refl _)
    lastCheckpoint_mainGenesisMap

/-- **A header that states height 0 is accepted at height 1 with a mix nobody has computed.** -/
theorem forgedHeader_accepted :
    AcceptedAt sampleHashes mainHeaderParams sampleHeaderContext mainGenesisMap
      (sampleHeader 0 3) 1 ∧
    (sampleHeader 0 3).nTime ≥ mainHeaderParams.nKAWPOWActivationTime ∧
    (∀ pcheckpoint ∈ getLastCheckpoint mainHeaderParams mainGenesisMap,
      pcheckpoint.nHeight < 1) ∧
    ¬ HasWorkAt sampleHashes mainHeaderParams (sampleHeader 0 3) 1 := by
  have hheight : ((acceptBlockHeader sampleHashes mainHeaderParams sampleHeaderContext
      mainGenesisMap (sampleHeader 0 3)).1.find?
        ((sampleHeader 0 3).getHash sampleHashes mainHeaderParams)).map CBlockIndex.nHeight =
      some 1 := by decide +kernel
  have hok : (acceptBlockHeader sampleHashes mainHeaderParams sampleHeaderContext
      mainGenesisMap (sampleHeader 0 3)).2.toOption =
      some ((sampleHeader 0 3).getHash sampleHashes mainHeaderParams) := by decide +kernel
  have hnew : mainGenesisMap.find? ((sampleHeader 0 3).getHash sampleHashes mainHeaderParams) =
      none := by decide +kernel
  refine ⟨⟨hnew, ?_, ?_⟩, UInt32.le_refl _, lastCheckpoint_mainGenesisMap, fun hwork => ?_⟩
  · cases hresult : (acceptBlockHeader sampleHashes mainHeaderParams sampleHeaderContext
      mainGenesisMap (sampleHeader 0 3)).2 with
    | ok hash =>
      rw [hresult] at hok
      exact congrArg Except.ok (Option.some.inj hok)
    | error reason =>
      rw [hresult] at hok
      cases hok
  · obtain ⟨index, hindex, hvalue⟩ := Option.map_eq_some_iff.1 hheight
    exact ⟨index, hindex, hvalue⟩
  · exact absurd hwork.1 (by decide)

end UnemployCoin
