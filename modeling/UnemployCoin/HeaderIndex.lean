import UnemployCoin.DiskIndex
import UnemployCoin.HeaderSoundness
/-!
# The block index and its headers

Every entry of the block index should stand for the header it was made from: the header it gives
out has the hash it is found under, and when the index is written to disk and loaded again the
entry is there under that hash, with its parent, height, work and proof of work.

An entry gives out the height it got from its parent, not the one the header stated.
-/

namespace UnemployCoin

open Check StdMap

/-! ## The block index as a machine -/

inductive HeaderEvent where
  /-- `AcceptBlockHeader`. -/
  | header (ctx : HeaderContext) (block : CBlockHeader)
  /-- What is known of the data of a block changes. -/
  | data (hash : arith_uint256) (nStatus : UInt32) (nFile : ℕ) (nDataPos nUndoPos nTx : UInt32)

/-- The block index takes headers, and notes where the data of a block is. -/
def headerIndex (H : HeaderHashes) (P : HeaderParams) : Machine BlockMap HeaderEvent where
  step mapBlockIndex
    | .header ctx block => some (acceptBlockHeader H P ctx mapBlockIndex block).1
    | .data hash nStatus nFile nDataPos nUndoPos nTx =>
      match mapBlockIndex.find? hash with
      | none => none
      | some index =>
        if nFile ≤ INT_MAX then
          some (mapBlockIndex.assign hash
            { index with
              nStatus := nStatus
              nFile := nFile
              nDataPos := nDataPos
              nUndoPos := nUndoPos
              nTx := nTx })
        else none

section Defs

variable (H : HeaderHashes) (P : HeaderParams)

/-- The genesis block of a chain: a header of height 0 without parent, whose hash is the one of
the parameters **and meets its target**. -/
structure IsGenesis (genesis : CBlockHeader) : Prop where
  hash : genesis.getHash H P = P.hashGenesisBlock
  hash_ne : P.hashGenesisBlock ≠ 0
  prev : genesis.hashPrevBlock = 0
  height : genesis.nHeight = 0
  work : checkProofOfWork P P.hashGenesisBlock genesis.nBits = true

def genesisIndex (genesis : CBlockHeader) : BlockMap := addToBlockIndex H P ∅ genesis

/-- A header that gets an entry states, after the activation, the height it gets; its hash is not
null, and the height is an `int`. -/
def HeaderEvent.StatesHeight (mapBlockIndex : BlockMap) : HeaderEvent → Prop
  | .header ctx block => ∀ pindexPrev, Passes H P ctx mapBlockIndex block pindexPrev →
      (block.nTime ≥ P.nKAWPOWActivationTime → block.nHeight.toNat = pindexPrev.nHeight + 1) ∧
        block.getHash H P ≠ 0 ∧ pindexPrev.nHeight + 1 ≤ INT_MAX
  | .data .. => True

/-- Two entries that agree in parent, height, work, header and proof of work. -/
structure SameEntry (e e' : CBlockIndex) : Prop where
  pprev : e'.pprev = e.pprev
  nHeight : e'.nHeight = e.nHeight
  nChainWork : e'.nChainWork = e.nChainWork
  nVersion : e'.nVersion = e.nVersion
  hashMerkleRoot : e'.hashMerkleRoot = e.hashMerkleRoot
  nTime : e'.nTime = e.nTime
  nBits : e'.nBits = e.nBits
  x16r : e.nTime < P.nKAWPOWActivationTime → e'.nNonce = e.nNonce
  kawpow : ¬ e.nTime < P.nKAWPOWActivationTime →
    e'.nNonce64 = e.nNonce64 ∧ e'.mix_hash = e.mix_hash

/-- What is true of an entry of the block index. -/
structure IndexEntry (mapBlockIndex : BlockMap) (hash : arith_uint256) (e : CBlockIndex) :
    Prop where
  header : e.getBlockHeader.getHash H P = hash
  hash_ne : hash ≠ 0
  work : checkProofOfWork P hash e.nBits = true
  height : e.nHeight ≤ INT_MAX
  file : e.nFile ≤ INT_MAX
  /-- The height and the work are those of the parent and of the block. -/
  parent : match e.pprev with
    | none => e.nHeight = 0 ∧ e.nChainWork = getBlockProof e.nBits
    | some p => ∃ prev, mapBlockIndex.find? p = some prev ∧ e.nHeight = prev.nHeight + 1 ∧
        e.nChainWork = prev.nChainWork + getBlockProof e.nBits

def HeadersIndexed (mapBlockIndex : BlockMap) : Prop :=
  ∀ hash e, mapBlockIndex.find? hash = some e → IndexEntry H P mapBlockIndex hash e

end Defs

/-! ## Entries that keep their header -/

section Changes

variable {H : HeaderHashes} {P : HeaderParams} {m m' : BlockMap} {hash : arith_uint256}
  {e e' : CBlockIndex} {block : CBlockHeader}

/-- An entry of which only the data of its block has changed. -/
def OnlyData (e e' : CBlockIndex) : Prop :=
  e' = { e with
    nStatus := e'.nStatus
    nFile := e'.nFile
    nDataPos := e'.nDataPos
    nUndoPos := e'.nUndoPos
    nTx := e'.nTx }

theorem OnlyData.refl (e : CBlockIndex) : OnlyData e e := rfl

theorem OnlyData.pprev (h : OnlyData e e') : e'.pprev = e.pprev := by rw [h]

theorem OnlyData.height (h : OnlyData e e') : e'.nHeight = e.nHeight := by rw [h]

theorem OnlyData.work (h : OnlyData e e') : e'.nChainWork = e.nChainWork := by rw [h]

/-- An index with the entries of another, of which only the data has changed. -/
structure ChangesData (m m' : BlockMap) : Prop where
  forward : ∀ hash e, m.find? hash = some e → ∃ e', m'.find? hash = some e' ∧ OnlyData e e'
  backward : ∀ hash e', m'.find? hash = some e' →
    ∃ e, m.find? hash = some e ∧ OnlyData e e' ∧ (e.nFile ≤ INT_MAX → e'.nFile ≤ INT_MAX)

theorem ChangesData.refl (m : BlockMap) : ChangesData m m :=
  ⟨fun _ e h => ⟨e, h, .refl e⟩, fun _ e h => ⟨e, h, .refl e, id⟩⟩

theorem ChangesData.assign (h : ChangesData m m') (hfind : m.find? hash = some e)
    (hdata : OnlyData e e') (hfile : e.nFile ≤ INT_MAX → e'.nFile ≤ INT_MAX) :
    ChangesData m (m'.assign hash e') := by
  constructor
  · intro hash₁ e₁ h₁
    rw [find?_assign]
    split
    · rename_i heq
      subst heq
      cases hfind.symm.trans h₁
      exact ⟨e', rfl, hdata⟩
    · exact h.forward hash₁ e₁ h₁
  · intro hash₁ e₁ h₁
    rw [find?_assign] at h₁
    split at h₁
    · rename_i heq
      subst heq
      cases h₁
      exact ⟨e, hfind, hdata, hfile⟩
    · exact h.backward hash₁ e₁ h₁

theorem IndexEntry.onlyData (hentry : IndexEntry H P m hash e) (hdata : OnlyData e e')
    (hfile : e'.nFile ≤ INT_MAX)
    (hprev : ∀ p prev, m.find? p = some prev → ∃ prev', m'.find? p = some prev' ∧
      prev'.nHeight = prev.nHeight ∧ prev'.nChainWork = prev.nChainWork) :
    IndexEntry H P m' hash e' := by
  rw [hdata] at hfile ⊢
  refine ⟨hentry.header, hentry.hash_ne, hentry.work, hentry.height, hfile, ?_⟩
  have hparent := hentry.parent
  dsimp only
  split at hparent
  · exact hparent
  · rename_i p hp
    obtain ⟨prev, hfind, hheight, hwork⟩ := hparent
    obtain ⟨prev', hfind', hheight', hwork'⟩ := hprev p prev hfind
    exact ⟨prev', hfind', by rw [hheight, hheight'], by rw [hwork, hwork']⟩

theorem HeadersIndexed.changesData (h : HeadersIndexed H P m) (hchange : ChangesData m m') :
    HeadersIndexed H P m' := by
  intro hash e' he'
  obtain ⟨e, he, hdata, hfile⟩ := hchange.backward hash e' he'
  have hentry := h hash e he
  refine hentry.onlyData hdata (hfile hentry.file) fun p prev hprev => ?_
  obtain ⟨prev', hprev', hsame⟩ := hchange.forward p prev hprev
  exact ⟨prev', hprev', hsame.height, hsame.work⟩

theorem find?_of_mem_chain {c : arith_uint256 × CBlockIndex} (h : c ∈ m.chain hash) :
    m.find? c.1 = some c.2 := by
  have hgo : ∀ n start, c ∈ BlockMap.chain.go m n start → m.find? c.1 = some c.2 := by
    intro n
    induction n with
    | zero =>
      intro start hmem
      cases hmem
    | succ n ih =>
      intro start hmem
      cases start with
      | none => cases hmem
      | some hash =>
        rw [BlockMap.chain.go] at hmem
        split at hmem
        · cases hmem
        · rename_i index hindex
          rcases List.mem_cons.1 hmem with rfl | hrest
          · exact hindex
          · exact ih index.pprev hrest
  exact hgo m.size (some hash) h

theorem changesData_markFailedChild (start failed : arith_uint256) :
    ChangesData m (markFailedChild m (m.chain start) failed) := by
  rw [markFailedChild]
  have hchain : ∀ c ∈ (m.chain start).takeWhile fun c => c.1 != failed, m.find? c.1 = some c.2 :=
    fun c hc => find?_of_mem_chain ((List.takeWhile_prefix _).subset hc)
  have hfold : ∀ (l : List (arith_uint256 × CBlockIndex)) (m' : BlockMap),
      (∀ c ∈ l, m.find? c.1 = some c.2) → ChangesData m m' →
      ChangesData m (l.foldl (fun m c =>
        m.assign c.1 { c.2 with nStatus := c.2.nStatus ||| BLOCK_FAILED_CHILD }) m') := by
    intro l
    induction l with
    | nil =>
      intro m' _ h
      exact h
    | cons c l ih =>
      intro m' hl h
      rw [List.forall_mem_cons] at hl
      exact ih _ hl.2 (h.assign hl.1 rfl id)
  exact hfold _ m hchain (.refl m)

/-! ## A new entry -/

theorem getHash_withHeight {n : UInt32}
    (h : block.nTime ≥ P.nKAWPOWActivationTime → n = block.nHeight) :
    CBlockHeader.getHash H P { block with nHeight := n } = block.getHash H P := by
  by_cases htime : block.nTime < P.nKAWPOWActivationTime
  · rw [CBlockHeader.getHash, CBlockHeader.getHash, if_pos htime, if_pos htime]
    rfl
  · rw [h (UInt32.not_lt.1 htime)]

theorem raiseValidity_eq (e : CBlockIndex) (nUpTo : UInt32) :
    OnlyData e (e.raiseValidity nUpTo) := by
  rw [CBlockIndex.raiseValidity]
  split
  · rfl
  · split <;> rfl

theorem raiseValidity_nFile (e : CBlockIndex) (nUpTo : UInt32) :
    (e.raiseValidity nUpTo).nFile = e.nFile := by
  rw [CBlockIndex.raiseValidity]
  split
  · rfl
  · split <;> rfl

theorem addToBlockIndex_of_new (hnew : m.find? (block.getHash H P) = none) :
    addToBlockIndex H P m block = m.assign (block.getHash H P) (newBlockIndex m block) := by
  rw [addToBlockIndex, count_eq_false.2 hnew]
  exact if_neg Bool.false_ne_true

theorem work_of_checkBlockHeader (h : checkBlockHeader H P m block = .ok ()) :
    checkProofOfWork P (block.getHash H P) block.nBits = true := by
  rw [checkBlockHeader] at h
  dsimp only at h
  split at h
  · exact require_ok.1 h
  · simp only [require_bind, onlyIf_ok, require_ok, decide_eq_true_eq] at h
    obtain ⟨hwork, hmix⟩ := h
    by_cases htime : block.nTime < P.nKAWPOWActivationTime
    · have hfull : (block.getHashFull H P).1 = block.getHash H P := by
        rw [CBlockHeader.getHashFull, CBlockHeader.getHash, if_pos htime, if_pos htime]
      rw [hfull] at hwork
      exact hwork
    · have hkawpow : block.nTime ≥ P.nKAWPOWActivationTime := UInt32.not_lt.1 htime
      have hfull : block.getHashFull H P = block.progpowHash H block.nHeight.toNat := by
        rw [CBlockHeader.getHashFull, if_neg htime, CBlockHeader.kawpowHash]
      rw [hfull] at hwork hmix
      rw [getHash_eq_progpowHash hkawpow (beq_iff_eq.1 (hmix hkawpow)).symm]
      exact hwork

/-- The entry of a header on a parent, before its validity is raised. -/
def childIndex (block : CBlockHeader) (pindexPrev : CBlockIndex) : CBlockIndex :=
  { CBlockIndex.ofHeader block with
    pprev := some block.hashPrevBlock
    nHeight := pindexPrev.nHeight + 1
    nTimeMax := max pindexPrev.nTimeMax block.nTime
    nChainWork := pindexPrev.nChainWork + getBlockProof block.nBits }

theorem newBlockIndex_eq {pindexPrev : CBlockIndex}
    (hprev : m.find? block.hashPrevBlock = some pindexPrev) :
    newBlockIndex m block = (childIndex block pindexPrev).raiseValidity BLOCK_VALID_TREE := by
  rw [newBlockIndex, hprev]
  rfl

/-- **The entry of a header on a parent.** -/
theorem indexEntry_child {pindexPrev : CBlockIndex}
    (hprev : m.find? block.hashPrevBlock = some pindexPrev)
    (hheight : block.nTime ≥ P.nKAWPOWActivationTime →
      block.nHeight.toNat = pindexPrev.nHeight + 1)
    (hhash : block.getHash H P ≠ 0) (hmax : pindexPrev.nHeight + 1 ≤ INT_MAX)
    (hwork : checkProofOfWork P (block.getHash H P) block.nBits = true) :
    IndexEntry H P m (block.getHash H P) (childIndex block pindexPrev) := by
  refine ⟨?_, hhash, hwork, hmax, Nat.zero_le _, pindexPrev, hprev, rfl, rfl⟩
  have hheader : (childIndex block pindexPrev).getBlockHeader =
      { block with nHeight := UInt32.ofNat (pindexPrev.nHeight + 1) } := rfl
  rw [hheader]
  refine getHash_withHeight fun hkawpow => ?_
  rw [← hheight hkawpow, UInt32.ofNat_toNat]

theorem HeadersIndexed.add (h : HeadersIndexed H P m) (hnew : m.find? (block.getHash H P) = none)
    (hentry : IndexEntry H P (m.assign (block.getHash H P) (newBlockIndex m block))
      (block.getHash H P) (newBlockIndex m block)) :
    HeadersIndexed H P (addToBlockIndex H P m block) := by
  rw [addToBlockIndex_of_new hnew]
  intro hash e he
  rw [find?_assign] at he
  split at he
  · rename_i heq
    subst heq
    cases he
    exact hentry
  · refine (h hash e he).onlyData (.refl e) (h hash e he).file fun p prev hprev => ?_
    refine ⟨prev, ?_, rfl, rfl⟩
    have hne : p ≠ block.getHash H P := by
      rintro rfl
      rw [hnew] at hprev
      cases hprev
    rw [find?_assign_ne hne]
    exact hprev

/-- **A header that is accepted and states its height gets an entry as it should be.** -/
theorem HeadersIndexed.accept {ctx : HeaderContext} {pindexPrev : CBlockIndex}
    (h : HeadersIndexed H P m)
    (hpasses : Passes H P ctx m block pindexPrev) (hnew : m.find? (block.getHash H P) = none)
    (hheight : block.nTime ≥ P.nKAWPOWActivationTime →
      block.nHeight.toNat = pindexPrev.nHeight + 1)
    (hhash : block.getHash H P ≠ 0) (hmax : pindexPrev.nHeight + 1 ≤ INT_MAX) :
    HeadersIndexed H P (addToBlockIndex H P m block) := by
  have hchild := indexEntry_child hpasses.prev hheight hhash hmax
    (work_of_checkBlockHeader hpasses.header)
  refine h.add hnew ?_
  have hraise := newBlockIndex_eq hpasses.prev
  rw [hraise]
  refine hchild.onlyData (raiseValidity_eq _ _) ?_ fun p prev hprev => ?_
  · rw [raiseValidity_nFile]
    exact hchild.file
  · refine ⟨prev, ?_, rfl, rfl⟩
    have hne : p ≠ block.getHash H P := by
      rintro rfl
      rw [hnew] at hprev
      cases hprev
    rw [find?_assign_ne hne]
    exact hprev

theorem indexed_genesis {genesis : CBlockHeader} (hgenesis : IsGenesis H P genesis) :
    HeadersIndexed H P (genesisIndex H P genesis) := by
  have hnew : (∅ : BlockMap).find? (genesis.getHash H P) = none := find?_empty _
  have hempty : HeadersIndexed H P ∅ := by
    intro hash e he
    rw [find?_empty] at he
    cases he
  refine hempty.add hnew ?_
  let e : CBlockIndex :=
    { CBlockIndex.ofHeader genesis with
      nTimeMax := genesis.nTime
      nChainWork := 0 + getBlockProof genesis.nBits }
  have hraise : newBlockIndex ∅ genesis = e.raiseValidity BLOCK_VALID_TREE := by
    rw [newBlockIndex, find?_empty]
    rfl
  have hheader : e.getBlockHeader = genesis := by
    obtain ⟨nVersion, hashPrevBlock, hashMerkleRoot, nTime, nBits, nNonce, nHeight, nNonce64,
      mix_hash⟩ := genesis
    have hzero : hashPrevBlock = 0 := hgenesis.prev
    have hheight : UInt32.ofNat nHeight.toNat = nHeight := UInt32.ofNat_toNat
    rw [hzero]
    exact congrArg (CBlockHeader.mk nVersion 0 hashMerkleRoot nTime nBits nNonce · nNonce64
      mix_hash) hheight
  have hentry : IndexEntry H P ∅ (genesis.getHash H P) e := by
    refine ⟨?_, ?_, ?_, ?_, Nat.zero_le _, ?_, BitVec.zero_add _⟩
    · rw [hheader]
    · rw [hgenesis.hash]
      exact hgenesis.hash_ne
    · rw [hgenesis.hash]
      exact hgenesis.work
    · show genesis.nHeight.toNat ≤ INT_MAX
      rw [hgenesis.height]
      exact Nat.zero_le _
    · show genesis.nHeight.toNat = 0
      rw [hgenesis.height]
      rfl
  rw [hraise]
  refine hentry.onlyData (raiseValidity_eq _ _) ?_ fun p prev hfind => ?_
  · rw [raiseValidity_nFile]
    exact hentry.file
  · rw [find?_empty] at hfind
    cases hfind

end Changes

section Runs

variable {H : HeaderHashes} {P : HeaderParams} {m m' : BlockMap}

theorem step_indexed {event : HeaderEvent} (h : HeadersIndexed H P m)
    (hgenesis : m.count P.hashGenesisBlock = true) (hstates : event.StatesHeight H P m)
    (hstep : (headerIndex H P).step m event = some m') :
    HeadersIndexed H P m' ∧ m'.count P.hashGenesisBlock = true := by
  cases event with
  | header ctx block =>
    have hm' : m' = (acceptBlockHeader H P ctx m block).1 := (Option.some.inj hstep).symm
    rcases acceptBlockHeader_cases H P ctx m block with
      ⟨result, hresult, -⟩ | ⟨hhash, hresult⟩ | ⟨pindexPrev, hpasses, -, hnew, hresult⟩ |
        ⟨failed, reason, hresult⟩
    · rw [hm', hresult]
      exact ⟨h, hgenesis⟩
    · -- The genesis block is there already.
      have hsame : addToBlockIndex H P m block = m := by
        rw [addToBlockIndex, hhash, hgenesis]
        rfl
      rw [hm', hresult, hsame]
      exact ⟨h, hgenesis⟩
    · obtain ⟨hheight, hhash, hmax⟩ := hstates pindexPrev hpasses
      rw [hm', hresult]
      refine ⟨h.accept hpasses hnew hheight hhash hmax, ?_⟩
      rw [addToBlockIndex_of_new hnew, count_assign, hgenesis, Bool.or_true]
    · have hchange : ChangesData m m' := by
        rw [hm', hresult]
        exact changesData_markFailedChild block.hashPrevBlock failed
      refine ⟨h.changesData hchange, ?_⟩
      obtain ⟨e, he⟩ := count_eq_true.1 hgenesis
      obtain ⟨e', he', -⟩ := hchange.forward _ e he
      exact count_of_find? he'
  | data hash nStatus nFile nDataPos nUndoPos nTx =>
    have hstep' : (match m.find? hash with
      | none => none
      | some index =>
        if nFile ≤ INT_MAX then
          some (m.assign hash
            { index with
              nStatus := nStatus
              nFile := nFile
              nDataPos := nDataPos
              nUndoPos := nUndoPos
              nTx := nTx })
        else none) = some m' := hstep
    split at hstep'
    · cases hstep'
    · rename_i index hindex
      split at hstep'
      · rename_i hfile
        cases hstep'
        refine ⟨h.changesData ((ChangesData.refl m).assign hindex rfl fun _ => hfile), ?_⟩
        rw [count_assign, hgenesis, Bool.or_true]
      · cases hstep'

end Runs

end UnemployCoin
