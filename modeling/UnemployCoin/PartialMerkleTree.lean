import UnemployCoin.MerkleRoot
import UnemployCoin.Transaction
/-!
# Partial merkle trees

`CPartialMerkleTree` (`merkleblock.cpp`): the part of a block's tree that proves some of its
transactions, as bits and hashes in the order of a traversal.
-/

namespace UnemployCoin

open MerkleTree

def MIN_TRANSACTION_WEIGHT : ℕ := WITNESS_SCALE_FACTOR * 60

structure CPartialMerkleTree where
  nTransactions : ℕ
  vBits : List Bool
  vHash : List uint256
  fBad : Bool

/-- `CalcTreeWidth`; nothing overflows up to 2^31 transactions. -/
def calcTreeWidth (nTransactions height : ℕ) : ℕ := (nTransactions + 2 ^ height - 1) / 2 ^ height

def heightLoop (nTransactions : ℕ) : ℕ → ℕ → ℕ
  | 0, nHeight => nHeight
  | fuel + 1, nHeight =>
    if calcTreeWidth nTransactions nHeight > 1 then heightLoop nTransactions fuel (nHeight + 1)
    else nHeight

/-- `nHeight`: 32 rounds are enough for any `unsigned int`. -/
def treeHeight (nTransactions : ℕ) : ℕ := heightLoop nTransactions 32 0

def fParentOfMatch (nTransactions : ℕ) (vMatch : List Bool) (height pos : ℕ) : Bool :=
  (List.range' (pos * 2 ^ height) (2 ^ height)).any fun p =>
    decide (p < nTransactions) && vMatch.getD p false

section Traversals

variable (Hash : uint256 → uint256 → uint256)

def calcHash (nTransactions : ℕ) (vTxid : List uint256) : ℕ → ℕ → uint256
  | 0, pos => vTxid.getD pos 0
  | height + 1, pos =>
    let left := calcHash nTransactions vTxid height (pos * 2)
    let right :=
      if pos * 2 + 1 < calcTreeWidth nTransactions height then
        calcHash nTransactions vTxid height (pos * 2 + 1)
      else left
    Hash left right

/-- `vBits.push_back`. -/
def CPartialMerkleTree.pushBit (s : CPartialMerkleTree) (bit : Bool) : CPartialMerkleTree :=
  { s with vBits := s.vBits ++ [bit] }

/-- `vHash.push_back`. -/
def CPartialMerkleTree.pushHash (s : CPartialMerkleTree) (hash : uint256) : CPartialMerkleTree :=
  { s with vHash := s.vHash ++ [hash] }

def traverseAndBuild (vTxid : List uint256) (vMatch : List Bool) :
    ℕ → ℕ → CPartialMerkleTree → CPartialMerkleTree
  | 0, pos, s =>
    (s.pushBit (fParentOfMatch s.nTransactions vMatch 0 pos)).pushHash
      (calcHash Hash s.nTransactions vTxid 0 pos)
  | height + 1, pos, s =>
    let fParent := fParentOfMatch s.nTransactions vMatch (height + 1) pos
    let s := s.pushBit fParent
    if fParent then
      let s := traverseAndBuild vTxid vMatch height (pos * 2) s
      if pos * 2 + 1 < calcTreeWidth s.nTransactions height then
        traverseAndBuild vTxid vMatch height (pos * 2 + 1) s
      else s
    else s.pushHash (calcHash Hash s.nTransactions vTxid (height + 1) pos)

def CPartialMerkleTree.ofTxids (vTxid : List uint256) (vMatch : List Bool) : CPartialMerkleTree :=
  traverseAndBuild Hash vTxid vMatch (treeHeight vTxid.length) 0 ⟨vTxid.length, [], [], false⟩

structure ExtractState where
  nBitsUsed : ℕ
  nHashUsed : ℕ
  vMatch : List uint256
  vnIndex : List ℕ
  fBad : Bool

/-- `nBitsUsed++`. -/
def ExtractState.useBit (s : ExtractState) : ExtractState :=
  { s with nBitsUsed := s.nBitsUsed + 1 }

def useHash (T : CPartialMerkleTree) (matched : Bool) (pos : ℕ) (s : ExtractState) :
    uint256 × ExtractState :=
  match T.vHash[s.nHashUsed]? with
  | none => (0, { s with fBad := true })
  | some hash =>
    (hash, { s with
      nHashUsed := s.nHashUsed + 1
      vMatch := if matched then s.vMatch ++ [hash] else s.vMatch
      vnIndex := if matched then s.vnIndex ++ [pos] else s.vnIndex })

/-- `TraverseAndExtract`.  It goes on after a failure. -/
def traverseAndExtract (T : CPartialMerkleTree) : ℕ → ℕ → ExtractState → uint256 × ExtractState
  | 0, pos, s =>
    match T.vBits[s.nBitsUsed]? with
    | none => (0, { s with fBad := true })
    | some fParent => useHash T fParent pos s.useBit
  | height + 1, pos, s =>
    match T.vBits[s.nBitsUsed]? with
    | none => (0, { s with fBad := true })
    | some false => useHash T false pos s.useBit
    | some true =>
      let (left, s) := traverseAndExtract T height (pos * 2) s.useBit
      if pos * 2 + 1 < calcTreeWidth T.nTransactions height then
        let (right, s) := traverseAndExtract T height (pos * 2 + 1) s
        (Hash left right, { s with fBad := s.fBad || decide (right = left) })
      else (Hash left left, s)

/-- What `ExtractMatches` gives; the root is none where the source has `uint256()` for a
failure. -/
structure Extracted where
  hashMerkleRoot : Option uint256
  vMatch : List uint256
  vnIndex : List ℕ
  fBad : Bool

/-- `ExtractMatches`; `vnIndex` is **not** cleared. -/
def extractMatches (T : CPartialMerkleTree) (vnIndex : List ℕ) : Extracted :=
  if T.nTransactions = 0 then ⟨none, [], vnIndex, T.fBad⟩
  else if T.nTransactions > getMaxBlockWeight / MIN_TRANSACTION_WEIGHT then
    ⟨none, [], vnIndex, T.fBad⟩
  else if T.vHash.length > T.nTransactions then ⟨none, [], vnIndex, T.fBad⟩
  else if T.vBits.length < T.vHash.length then ⟨none, [], vnIndex, T.fBad⟩
  else
    let (hashMerkleRoot, s) := traverseAndExtract Hash T (treeHeight T.nTransactions) 0
      ⟨0, 0, [], vnIndex, T.fBad⟩
    let failed := s.fBad || decide ((s.nBitsUsed + 7) / 8 ≠ (T.vBits.length + 7) / 8) ||
      decide (s.nHashUsed ≠ T.vHash.length)
    ⟨if failed then none else some hashMerkleRoot, s.vMatch, s.vnIndex, s.fBad⟩

end Traversals

variable {Hash : uint256 → uint256 → uint256} {vTxid : List uint256} {vMatch : List Bool}
  {n height pos : ℕ}

theorem lt_calcTreeWidth : pos < calcTreeWidth n height ↔ pos * 2 ^ height < n := by
  have hpos := Nat.two_pow_pos height
  rw [calcTreeWidth, ← Nat.succ_le_iff, Nat.le_div_iff_mul_le hpos, Nat.succ_mul]
  omega

theorem calcHash_eq : calcHash Hash vTxid.length vTxid height pos = node Hash vTxid height pos := by
  induction height generalizing pos with
  | zero => rfl
  | succ height ih =>
    rw [calcHash, node, ih, ih, Nat.mul_comm pos 2]
    congr 1
    exact if_congr lt_calcTreeWidth rfl rfl

theorem heightLoop_eq {fuel h : ℕ} (hle : h ≤ Nat.clog 2 n) (hfuel : Nat.clog 2 n ≤ h + fuel) :
    heightLoop n fuel h = Nat.clog 2 n := by
  induction fuel generalizing h with
  | zero => exact Nat.le_antisymm hle hfuel
  | succ fuel ih =>
    have hiff : calcTreeWidth n h > 1 ↔ h < Nat.clog 2 n := by
      rw [gt_iff_lt, lt_calcTreeWidth, Nat.one_mul, Nat.lt_clog_iff_pow_lt Nat.one_lt_two]
    rw [heightLoop]
    by_cases hlt : h < Nat.clog 2 n
    · rw [if_pos (hiff.2 hlt), ih hlt (by omega)]
    · rw [if_neg (mt hiff.1 hlt)]
      omega

theorem treeHeight_eq (h : n ≤ 2 ^ 32) : treeHeight n = Nat.clog 2 n :=
  heightLoop_eq (Nat.zero_le _) (by
    rw [Nat.zero_add]
    exact (Nat.clog_le_iff_le_pow Nat.one_lt_two).2 h)

/-! ## What is stored for a subtree -/

def matchedBelow (n : ℕ) (vMatch : List Bool) (height pos : ℕ) : List ℕ :=
  (List.range' (pos * 2 ^ height) (2 ^ height)).filter fun p =>
    decide (p < n) && vMatch.getD p false

theorem fParentOfMatch_iff : fParentOfMatch n vMatch height pos = true ↔
    matchedBelow n vMatch height pos ≠ [] := by
  rw [fParentOfMatch, matchedBelow, Ne, List.filter_eq_nil_iff, List.any_eq_true]
  simp only [not_forall, not_not, exists_prop]

theorem matchedBelow_succ : matchedBelow n vMatch (height + 1) pos =
    matchedBelow n vMatch height (pos * 2) ++ matchedBelow n vMatch height (pos * 2 + 1) := by
  have hpow : 2 ^ (height + 1) = 2 ^ height + 2 ^ height := by rw [Nat.pow_succ, Nat.mul_two]
  have hstart : pos * 2 ^ (height + 1) = pos * 2 * 2 ^ height := by
    rw [Nat.pow_succ', ← Nat.mul_assoc]
  have hnext : (pos * 2 + 1) * 2 ^ height = pos * 2 * 2 ^ height + 1 * 2 ^ height := by
    rw [Nat.add_mul]
  rw [matchedBelow, matchedBelow, matchedBelow, hstart, hpow, hnext, ← List.filter_append,
    Nat.one_mul, List.range'_append_1]

theorem matchedBelow_beyond (h : ¬ pos * 2 ^ height < n) :
    matchedBelow n vMatch height pos = [] := by
  rw [matchedBelow, List.filter_eq_nil_iff]
  intro p hp
  have := (List.mem_range'_1.1 hp).1
  rw [decide_eq_false (by omega), Bool.false_and]
  exact Bool.false_ne_true

/-- What the builder stores for a subtree, and that the extractor takes it up again. -/
structure Stored (Hash : uint256 → uint256 → uint256) (vTxid : List uint256) (vMatch : List Bool)
    (height pos : ℕ) (bits : List Bool) (hashes : List uint256) : Prop where
  build : ∀ s : CPartialMerkleTree, s.nTransactions = vTxid.length →
    traverseAndBuild Hash vTxid vMatch height pos s =
      { s with vBits := s.vBits ++ bits, vHash := s.vHash ++ hashes }
  le_bits : hashes.length ≤ bits.length
  le_block : hashes.length ≤ (block vTxid height pos).length
  extract : ∀ (T : CPartialMerkleTree) (st : ExtractState) (bits₁ bits₂ : List Bool)
    (hashes₁ hashes₂ : List uint256), T.nTransactions = vTxid.length →
    T.vBits = bits₁ ++ bits ++ bits₂ → T.vHash = hashes₁ ++ hashes ++ hashes₂ →
    st.nBitsUsed = bits₁.length → st.nHashUsed = hashes₁.length →
    traverseAndExtract Hash T height pos st =
      (node Hash vTxid height pos,
        { nBitsUsed := (bits₁ ++ bits).length
          nHashUsed := (hashes₁ ++ hashes).length
          vMatch := st.vMatch ++
            (matchedBelow vTxid.length vMatch height pos).map (vTxid.getD · 0)
          vnIndex := st.vnIndex ++ matchedBelow vTxid.length vMatch height pos
          fBad := st.fBad })

theorem getElem?_next {α : Type*} (l₁ l₂ : List α) (a : α) :
    (l₁ ++ [a] ++ l₂)[l₁.length]? = some a := by
  rw [List.append_assoc, List.getElem?_append_right (Nat.le_refl _), Nat.sub_self]
  rfl

theorem useHash_next {T : CPartialMerkleTree} {hashes₁ hashes₂ : List uint256}
    {hash : uint256} (st : ExtractState) (hT : T.vHash = hashes₁ ++ [hash] ++ hashes₂)
    (hst : st.nHashUsed = hashes₁.length) (matched : Bool) :
    useHash T matched pos st = (hash, { st with
      nHashUsed := (hashes₁ ++ [hash]).length
      vMatch := if matched then st.vMatch ++ [hash] else st.vMatch
      vnIndex := if matched then st.vnIndex ++ [pos] else st.vnIndex }) := by
  rw [useHash, hT, hst, getElem?_next]
  simp only [List.length_append, List.length_singleton]

theorem one_le_block (h : pos * 2 ^ height < vTxid.length) :
    1 ≤ (block vTxid height pos).length := by
  have := Nat.two_pow_pos height
  rw [length_block]
  omega

theorem Stored.leaf (h : pos * 2 ^ 0 < vTxid.length) :
    Stored Hash vTxid vMatch 0 pos [fParentOfMatch vTxid.length vMatch 0 pos]
      [node Hash vTxid 0 pos] := by
  have hbelow : matchedBelow vTxid.length vMatch 0 pos =
      if fParentOfMatch vTxid.length vMatch 0 pos then [pos] else [] := by
    rw [matchedBelow, fParentOfMatch, Nat.pow_zero, Nat.mul_one, List.range'_one, List.any_cons,
      List.any_nil, Bool.or_false, List.filter_singleton]
    split <;> rename_i hp <;> simp only [hp] <;> rfl
  refine ⟨fun s hs => ?_, Nat.le_refl 1, one_le_block h, ?_⟩
  · obtain ⟨n, vBits, vHash, fBad⟩ := s
    obtain rfl : n = vTxid.length := hs
    rw [traverseAndBuild, calcHash_eq]
    rfl
  · intro T st bits₁ bits₂ hashes₁ hashes₂ hn hbits hhashes hb hh
    rw [traverseAndExtract, hbits, hb, getElem?_next]
    dsimp only
    rw [useHash_next st.useBit hhashes hh, hbelow, ExtractState.useBit, hb]
    cases fParentOfMatch vTxid.length vMatch 0 pos with
    | false =>
      simp only [Bool.false_eq_true, if_false, List.map_nil, List.append_nil, List.length_append,
        List.length_singleton]
    | true =>
      simp only [if_true, List.map_cons, List.map_nil, List.length_append, List.length_singleton]
      rfl

theorem Stored.unmatched (h : pos * 2 ^ (height + 1) < vTxid.length)
    (hmatch : fParentOfMatch vTxid.length vMatch (height + 1) pos = false) :
    Stored Hash vTxid vMatch (height + 1) pos [false] [node Hash vTxid (height + 1) pos] := by
  have hbelow : matchedBelow vTxid.length vMatch (height + 1) pos = [] := by
    by_contra hne
    rw [fParentOfMatch_iff.2 hne] at hmatch
    cases hmatch
  refine ⟨fun s hs => ?_, Nat.le_refl 1, one_le_block h, ?_⟩
  · obtain ⟨n, vBits, vHash, fBad⟩ := s
    obtain rfl : n = vTxid.length := hs
    rw [traverseAndBuild]
    dsimp only
    rw [hmatch, if_neg Bool.false_ne_true, CPartialMerkleTree.pushBit, calcHash_eq]
    rfl
  · intro T st bits₁ bits₂ hashes₁ hashes₂ hn hbits hhashes hb hh
    rw [traverseAndExtract, hbits, hb, getElem?_next]
    dsimp only
    rw [useHash_next st.useBit hhashes hh, hbelow, ExtractState.useBit, hb]
    simp only [Bool.false_eq_true, if_false, List.map_nil, List.append_nil, List.length_append,
      List.length_singleton]

theorem Stored.both {bits₁ bits₂ : List Bool} {hashes₁ hashes₂ : List uint256}
    (hinj : Function.Injective2 Hash) (hnd : vTxid.Nodup)
    (hright : (pos * 2 + 1) * 2 ^ height < vTxid.length)
    (hmatch : fParentOfMatch vTxid.length vMatch (height + 1) pos = true)
    (h₁ : Stored Hash vTxid vMatch height (pos * 2) bits₁ hashes₁)
    (h₂ : Stored Hash vTxid vMatch height (pos * 2 + 1) bits₂ hashes₂) :
    Stored Hash vTxid vMatch (height + 1) pos (true :: bits₁ ++ bits₂) (hashes₁ ++ hashes₂) := by
  have hwidth : pos * 2 + 1 < calcTreeWidth vTxid.length height := lt_calcTreeWidth.2 hright
  refine ⟨fun s hs => ?_, ?_, ?_, ?_⟩
  · obtain ⟨n, vBits, vHash, fBad⟩ := s
    obtain rfl : n = vTxid.length := hs
    rw [traverseAndBuild]
    dsimp only [CPartialMerkleTree.pushBit]
    rw [hmatch, if_pos rfl, h₁.build ⟨_, _, _, _⟩ rfl]
    dsimp only
    rw [if_pos hwidth, h₂.build ⟨_, _, _, _⟩ rfl]
    simp only [List.append_assoc, List.cons_append, List.nil_append]
  · have := h₁.le_bits
    have := h₂.le_bits
    simp only [List.length_append, List.length_cons]
    omega
  · rw [block_succ, List.length_append, List.length_append, Nat.mul_comm 2 pos]
    exact Nat.add_le_add h₁.le_block h₂.le_block
  · intro T st bits hbitsAfter hashes hashesAfter hn hbits hhashes hb hh
    have hnext : T.vBits[st.nBitsUsed]? = some true := by
      rw [hbits, hb, List.append_assoc, List.getElem?_append_right (Nat.le_refl _), Nat.sub_self]
      rfl
    have hleft := h₁.extract T st.useBit (bits ++ [true])
      (bits₂ ++ hbitsAfter) hashes (hashes₂ ++ hashesAfter) hn
      (by rw [hbits]; simp only [List.append_assoc, List.cons_append, List.nil_append])
      (by rw [hhashes]; simp only [List.append_assoc])
      (by rw [ExtractState.useBit, hb, List.length_append, List.length_singleton]) hh
    have hne : node Hash vTxid height (pos * 2 + 1) ≠ node Hash vTxid height (pos * 2) := by
      intro heq
      have hbelow : pos * 2 * 2 ^ height < vTxid.length := by
        refine Nat.lt_of_le_of_lt (Nat.mul_le_mul_right _ (Nat.le_succ _)) hright
      have := node_injective hinj hnd hright hbelow heq
      omega
    rw [traverseAndExtract, hnext]
    dsimp only
    rw [hleft]
    dsimp only
    rw [hn, if_pos hwidth, h₂.extract T _ (bits ++ [true] ++ bits₁) hbitsAfter
      (hashes ++ hashes₁) hashesAfter hn
      (by rw [hbits]; simp only [List.append_assoc, List.cons_append, List.nil_append])
      (by rw [hhashes]; simp only [List.append_assoc]) rfl rfl]
    dsimp only
    rw [decide_eq_false hne, Bool.or_false, node, matchedBelow_succ, Nat.mul_comm 2 pos,
      if_pos hright, List.map_append]
    simp only [List.append_assoc, List.cons_append, List.nil_append, ExtractState.useBit]

theorem Stored.one {bits₁ : List Bool} {hashes₁ : List uint256}
    (hright : ¬ (pos * 2 + 1) * 2 ^ height < vTxid.length)
    (hmatch : fParentOfMatch vTxid.length vMatch (height + 1) pos = true)
    (h₁ : Stored Hash vTxid vMatch height (pos * 2) bits₁ hashes₁) :
    Stored Hash vTxid vMatch (height + 1) pos (true :: bits₁) hashes₁ := by
  have hwidth : ¬ pos * 2 + 1 < calcTreeWidth vTxid.length height := mt lt_calcTreeWidth.1 hright
  refine ⟨fun s hs => ?_, Nat.le_succ_of_le h₁.le_bits, ?_, ?_⟩
  · obtain ⟨n, vBits, vHash, fBad⟩ := s
    obtain rfl : n = vTxid.length := hs
    rw [traverseAndBuild]
    dsimp only [CPartialMerkleTree.pushBit]
    rw [hmatch, if_pos rfl, h₁.build ⟨_, _, _, _⟩ rfl]
    dsimp only
    rw [if_neg hwidth]
    simp only [List.append_assoc, List.cons_append, List.nil_append]
  · rw [block_succ, List.length_append, Nat.mul_comm 2 pos]
    exact Nat.le_add_right_of_le h₁.le_block
  · intro T st bits hbitsAfter hashes hashesAfter hn hbits hhashes hb hh
    have hnext : T.vBits[st.nBitsUsed]? = some true := by
      rw [hbits, hb, List.append_assoc, List.getElem?_append_right (Nat.le_refl _), Nat.sub_self]
      rfl
    have hleft := h₁.extract T st.useBit (bits ++ [true])
      hbitsAfter hashes hashesAfter hn
      (by rw [hbits]; simp only [List.append_assoc, List.cons_append, List.nil_append]) hhashes
      (by rw [ExtractState.useBit, hb, List.length_append, List.length_singleton]) hh
    rw [traverseAndExtract, hnext]
    dsimp only
    rw [hleft]
    dsimp only
    rw [hn, if_neg hwidth, node, matchedBelow_succ, Nat.mul_comm 2 pos, if_neg hright,
      matchedBelow_beyond hright, List.append_nil]
    simp only [List.append_assoc, List.cons_append, List.nil_append, ExtractState.useBit]

/-- **The builder and the extractor** agree on every subtree. -/
theorem exists_stored (vMatch : List Bool) (height pos : ℕ) (hinj : Function.Injective2 Hash)
    (hnd : vTxid.Nodup) (h : pos * 2 ^ height < vTxid.length) :
    ∃ bits hashes, Stored Hash vTxid vMatch height pos bits hashes := by
  induction height generalizing pos with
  | zero => exact ⟨_, _, Stored.leaf h⟩
  | succ height ih =>
    cases hmatch : fParentOfMatch vTxid.length vMatch (height + 1) pos with
    | false => exact ⟨_, _, Stored.unmatched h hmatch⟩
    | true =>
      have hleft : pos * 2 * 2 ^ height < vTxid.length := by
        rwa [Nat.pow_succ', ← Nat.mul_assoc] at h
      obtain ⟨bits₁, hashes₁, h₁⟩ := ih _ hleft
      by_cases hright : (pos * 2 + 1) * 2 ^ height < vTxid.length
      · obtain ⟨bits₂, hashes₂, h₂⟩ := ih _ hright
        exact ⟨_, _, Stored.both hinj hnd hright hmatch h₁ h₂⟩
      · exact ⟨_, _, Stored.one hright hmatch h₁⟩

/-! ## Whatever is stored -/

variable {T : CPartialMerkleTree} {s s' : ExtractState} {hash : uint256}

theorem useHash_fBad {matched : Bool} (h : useHash T matched pos s = (hash, s')) :
    s'.fBad = false → s.fBad = false := by
  rw [useHash] at h
  split at h
  · cases h
    exact fun hbad => absurd hbad.symm Bool.false_ne_true
  · cases h
    exact id

theorem traverseAndExtract_fBad (h : traverseAndExtract Hash T height pos s = (hash, s'))
    (hgood : s'.fBad = false) : s.fBad = false := by
  induction height generalizing pos s hash s' with
  | zero =>
    rw [traverseAndExtract] at h
    split at h
    · cases h
      cases hgood
    · exact useHash_fBad (s := s.useBit) h hgood
  | succ height ih =>
    rw [traverseAndExtract] at h
    split at h
    · cases h
      cases hgood
    · exact useHash_fBad (s := s.useBit) h hgood
    · dsimp only at h
      split at h
      · obtain ⟨-, rfl⟩ := Prod.mk.inj h
        have hright := (Bool.or_eq_false_iff.1 hgood).1
        exact ih (s := s.useBit) rfl (ih rfl hright)
      · obtain ⟨-, rfl⟩ := Prod.mk.inj h
        exact ih (s := s.useBit) rfl hgood

/-- The matches that were added are entries of the list, with their positions. -/
def AddsEntries (vTxid : List uint256) (s s' : ExtractState) : Prop :=
  ∃ ps : List ℕ, (∀ p ∈ ps, p < vTxid.length) ∧
    s'.vMatch = s.vMatch ++ ps.map (vTxid.getD · 0) ∧ s'.vnIndex = s.vnIndex ++ ps

theorem AddsEntries.trans {s₁ s₂ s₃ : ExtractState} (h₁ : AddsEntries vTxid s₁ s₂)
    (h₂ : AddsEntries vTxid s₂ s₃) : AddsEntries vTxid s₁ s₃ := by
  obtain ⟨ps₁, hlt₁, hmatch₁, hindex₁⟩ := h₁
  obtain ⟨ps₂, hlt₂, hmatch₂, hindex₂⟩ := h₂
  refine ⟨ps₁ ++ ps₂, fun p hp => ?_, ?_, ?_⟩
  · exact (List.mem_append.1 hp).elim (hlt₁ p) (hlt₂ p)
  · rw [hmatch₂, hmatch₁, List.map_append, List.append_assoc]
  · rw [hindex₂, hindex₁, List.append_assoc]

theorem useHash_sound {matched : Bool} (h : useHash T matched pos s = (hash, s'))
    (hgood : s'.fBad = false) (hpos : pos < vTxid.length)
    (hmatched : matched = true → hash = vTxid.getD pos 0) : AddsEntries vTxid s s' := by
  rw [useHash] at h
  split at h
  · cases h
    cases hgood
  · obtain ⟨rfl, rfl⟩ := Prod.mk.inj h
    cases matched with
    | false => exact ⟨[], fun p hp => absurd hp List.not_mem_nil, (List.append_nil _).symm,
        (List.append_nil _).symm⟩
    | true =>
      refine ⟨[pos], fun p hp => ?_, ?_, rfl⟩
      · rwa [List.mem_singleton.1 hp]
      · rw [List.map_singleton, ← hmatched rfl]
        rfl

/-- **Whatever the bits and the hashes are**, who arrives at a node of the tree has found entries of
the list below it. -/
theorem traverseAndExtract_sound (height pos : ℕ) (hinj : Function.Injective2 Hash)
    (hn : T.nTransactions = vTxid.length) (hpos : pos * 2 ^ height < vTxid.length)
    (h : traverseAndExtract Hash T height pos s = (node Hash vTxid height pos, s'))
    (hgood : s'.fBad = false) : AddsEntries vTxid s s' := by
  induction height generalizing pos s s' with
  | zero =>
    rw [Nat.pow_zero, Nat.mul_one] at hpos
    rw [traverseAndExtract] at h
    split at h
    · obtain ⟨-, rfl⟩ := Prod.mk.inj h
      cases hgood
    · exact useHash_sound (s := s.useBit) h hgood hpos fun _ => rfl
  | succ height ih =>
    rw [traverseAndExtract] at h
    have hleft : pos * 2 * 2 ^ height < vTxid.length := by
      rwa [Nat.pow_succ', ← Nat.mul_assoc] at hpos
    split at h
    · obtain ⟨-, rfl⟩ := Prod.mk.inj h
      cases hgood
    · refine useHash_sound (s := s.useBit) h hgood ?_ fun hf => ?_
      · exact Nat.lt_of_le_of_lt (Nat.le_mul_of_pos_right _ (Nat.two_pow_pos _)) hpos
      · cases hf
    · rw [node, Nat.mul_comm 2 pos, hn] at h
      generalize hl : traverseAndExtract Hash T height (pos * 2)
        s.useBit = l at h
      obtain ⟨left, s₁⟩ := l
      dsimp only at h
      by_cases hright : (pos * 2 + 1) * 2 ^ height < vTxid.length
      · rw [if_pos (lt_calcTreeWidth.2 hright), if_pos hright] at h
        generalize hr : traverseAndExtract Hash T height (pos * 2 + 1) s₁ = r at h
        obtain ⟨right, s₂⟩ := r
        obtain ⟨hhash, rfl⟩ := Prod.mk.inj h
        obtain ⟨rfl, rfl⟩ := hinj hhash
        have hgood₂ : s₂.fBad = false := (Bool.or_eq_false_iff.1 hgood).1
        have hbelow := ih _ (s := s.useBit) hleft hl (traverseAndExtract_fBad hr hgood₂)
        have hlast : AddsEntries vTxid s₁ s₂ := ih _ hright hr hgood₂
        exact hbelow.trans hlast
      · rw [if_neg (mt lt_calcTreeWidth.1 hright), if_neg hright] at h
        obtain ⟨hhash, rfl⟩ := Prod.mk.inj h
        obtain ⟨rfl, -⟩ := hinj hhash
        exact ih _ (s := s.useBit) hleft hl hgood

/-! ## The whole tree -/

theorem max_transactions : getMaxBlockWeight / MIN_TRANSACTION_WEIGHT = 33333 := by decide

/-- **Completeness**: the root and the matches come back from the tree that was built. -/
theorem extractMatches_ofTxids (hinj : Function.Injective2 Hash) (hnd : vTxid.Nodup)
    (hne : vTxid ≠ []) (hsize : vTxid.length ≤ getMaxBlockWeight / MIN_TRANSACTION_WEIGHT) :
    extractMatches Hash (.ofTxids Hash vTxid vMatch) [] =
      { hashMerkleRoot := some (root Hash vTxid)
        vMatch := ((List.range vTxid.length).filter (vMatch.getD · false)).map (vTxid.getD · 0)
        vnIndex := (List.range vTxid.length).filter (vMatch.getD · false)
        fBad := false } := by
  have hpos : 0 < vTxid.length := List.length_pos_iff.2 hne
  have hsmall : vTxid.length ≤ 33333 := max_transactions ▸ hsize
  have hheight : treeHeight vTxid.length = Nat.clog 2 vTxid.length := treeHeight_eq (by omega)
  have htop : vTxid.length ≤ 2 ^ Nat.clog 2 vTxid.length := Nat.le_pow_clog Nat.one_lt_two _
  obtain ⟨bits, hashes, hstored⟩ := exists_stored vMatch (Nat.clog 2 vTxid.length) 0 hinj hnd
    (by rwa [Nat.zero_mul])
  have hbuild : CPartialMerkleTree.ofTxids Hash vTxid vMatch =
      ⟨vTxid.length, bits, hashes, false⟩ := by
    rw [CPartialMerkleTree.ofTxids, hheight, hstored.build _ rfl]
    rfl
  have hblock : hashes.length ≤ vTxid.length := by
    have := hstored.le_block
    rwa [block_zero htop] at this
  have hall : matchedBelow vTxid.length vMatch (Nat.clog 2 vTxid.length) 0 =
      (List.range vTxid.length).filter (vMatch.getD · false) := by
    obtain ⟨d, hd⟩ := Nat.exists_eq_add_of_le htop
    rw [matchedBelow, Nat.zero_mul, ← List.range_eq_range', hd, List.range_add, List.filter_append]
    have hbeyond : ((List.range d).map (vTxid.length + ·)).filter
        (fun p => decide (p < vTxid.length) && vMatch.getD p false) = [] := by
      rw [List.filter_eq_nil_iff]
      intro p hp
      obtain ⟨q, -, rfl⟩ := List.mem_map.1 hp
      rw [decide_eq_false (by omega), Bool.false_and]
      exact Bool.false_ne_true
    rw [hbeyond, List.append_nil]
    refine List.filter_congr fun p hp => ?_
    rw [decide_eq_true (List.mem_range.1 hp), Bool.true_and]
  have hextract := hstored.extract ⟨vTxid.length, bits, hashes, false⟩ ⟨0, 0, [], [], false⟩
    [] [] [] [] rfl (List.append_nil _).symm (List.append_nil _).symm rfl rfl
  rw [hbuild, extractMatches]
  dsimp only
  rw [if_neg (Nat.ne_of_gt hpos), if_neg (Nat.not_lt.2 hsize), if_neg (Nat.not_lt.2 hblock),
    if_neg (Nat.not_lt.2 hstored.le_bits), hheight, hextract, hall]
  simp only [List.nil_append, ne_eq, not_true_eq_false, decide_false, Bool.or_false,
    Bool.false_eq_true, if_false, root]

/-- **Soundness**: what a tree with the right root proves is in the list. -/
theorem extractMatches_sound (hinj : Function.Injective2 Hash)
    (hn : T.nTransactions = vTxid.length)
    (h : (extractMatches Hash T []).hashMerkleRoot = some (root Hash vTxid)) :
    ∃ ps : List ℕ, (∀ p ∈ ps, p < vTxid.length) ∧
      (extractMatches Hash T []).vMatch = ps.map (vTxid.getD · 0) ∧
      (extractMatches Hash T []).vnIndex = ps := by
  rw [extractMatches] at h ⊢
  split_ifs at h ⊢ with hzero hlarge hhash hbits
  dsimp only at h ⊢
  have hsmall : vTxid.length ≤ 33333 := by
    rw [max_transactions] at hlarge
    omega
  split at h
  · cases h
  · rename_i hgood
    rw [Bool.not_eq_true, Bool.or_eq_false_iff, Bool.or_eq_false_iff] at hgood
    have hadds := traverseAndExtract_sound (treeHeight T.nTransactions) 0
      (s := ⟨0, 0, [], [], T.fBad⟩) hinj hn (by rw [Nat.zero_mul]; omega)
      (Prod.ext (by rw [Option.some.inj h, root, hn, treeHeight_eq (by omega)]) rfl) hgood.1.1
    obtain ⟨ps, hlt, hmatch, hindex⟩ := hadds
    exact ⟨ps, hlt, hmatch, hindex⟩

/-- **What a partial tree proves**: the one that was built gives the root and all matches, and any
one with the root gives entries of the list only. -/
theorem partialMerkleTree_correct (Hash : uint256 → uint256 → uint256)
    (hinj : Function.Injective2 Hash) (vTxid : List uint256) (hnd : vTxid.Nodup)
    (hne : vTxid ≠ []) :
    (∀ vMatch : List Bool, vMatch.length = vTxid.length →
      vTxid.length ≤ getMaxBlockWeight / MIN_TRANSACTION_WEIGHT →
      ∃ hashMerkleRoot mutated, computeMerkleRoot Hash vTxid = some (hashMerkleRoot, mutated) ∧
        extractMatches Hash (.ofTxids Hash vTxid vMatch) [] =
          { hashMerkleRoot := some hashMerkleRoot
            vMatch := ((List.range vTxid.length).filter (vMatch.getD · false)).map (vTxid.getD · 0)
            vnIndex := (List.range vTxid.length).filter (vMatch.getD · false)
            fBad := false }) ∧
    ∀ (T : CPartialMerkleTree) (hashMerkleRoot : uint256) (mutated : Bool),
      T.nTransactions = vTxid.length →
      computeMerkleRoot Hash vTxid = some (hashMerkleRoot, mutated) →
      (extractMatches Hash T []).hashMerkleRoot = some hashMerkleRoot →
      (extractMatches Hash T []).vMatch.length = (extractMatches Hash T []).vnIndex.length ∧
      ∀ txid pos, (txid, pos) ∈
        (extractMatches Hash T []).vMatch.zip (extractMatches Hash T []).vnIndex →
        vTxid[pos]? = some txid := by
  constructor
  · intro vMatch _ hsize
    have hsmall : vTxid.length ≤ 33333 := max_transactions ▸ hsize
    obtain ⟨mutated, hroot, -⟩ := computeMerkleRoot_eq Hash hne (by omega)
    exact ⟨_, mutated, hroot, extractMatches_ofTxids hinj hnd hne hsize⟩
  · intro T hashMerkleRoot mutated hn hroot hextract
    have hsize : vTxid.length ≤ 2 ^ 31 := by
      by_contra hlarge
      rw [computeMerkleRoot_eq_none (Nat.not_le.1 hlarge)] at hroot
      cases hroot
    obtain ⟨_, heq, -⟩ := computeMerkleRoot_eq Hash hne hsize
    have hsame : root Hash vTxid = hashMerkleRoot :=
      congrArg Prod.fst (Option.some.inj (heq.symm.trans hroot))
    obtain ⟨ps, hlt, hmatch, hindex⟩ := extractMatches_sound hinj hn (hsame ▸ hextract)
    rw [hmatch, hindex, List.length_map]
    refine ⟨rfl, fun txid pos hmem => ?_⟩
    obtain ⟨p, hp, heq⟩ : ∃ p ∈ ps, (vTxid.getD p 0, p) = (txid, pos) := by
      rw [← List.map_id ps, List.map_map, List.zip_map'] at hmem
      exact List.mem_map.1 hmem
    obtain ⟨rfl, rfl⟩ := Prod.mk.inj heq
    rw [List.getD_eq_getElem _ _ (hlt p hp), List.getElem?_eq_getElem]

theorem threeTxids_proved : ∃ hashMerkleRoot mutated,
    computeMerkleRoot pairHash [0, 2, 4] = some (hashMerkleRoot, mutated) ∧
    extractMatches pairHash (.ofTxids pairHash [0, 2, 4] [false, true, true]) [] =
      ⟨some hashMerkleRoot, [2, 4], [1, 2], false⟩ ∧
    ([0, 2, 4] : List uint256)[1]? = some 2 := by
  obtain ⟨hbuilt, hany⟩ := partialMerkleTree_correct pairHash pairHash_injective [0, 2, 4]
    (by decide) (by decide)
  obtain ⟨hashMerkleRoot, mutated, hroot, hextract⟩ := hbuilt [false, true, true] rfl (by decide)
  refine ⟨hashMerkleRoot, mutated, hroot, hextract, ?_⟩
  refine (hany (.ofTxids pairHash [0, 2, 4] [false, true, true]) hashMerkleRoot mutated rfl hroot
    (by rw [hextract])).2 2 1 ?_
  rw [hextract]
  exact List.mem_cons_self

theorem traverseAndBuild_nTransactions (s : CPartialMerkleTree) :
    (traverseAndBuild Hash vTxid vMatch height pos s).nTransactions = s.nTransactions := by
  induction height generalizing pos s with
  | zero => rfl
  | succ height ih =>
    rw [traverseAndBuild]
    dsimp only
    split_ifs
    · rw [ih, ih]
      rfl
    · rw [ih]
      rfl
    · rfl

/-- One txid more than the extractor allows is **rejected**, and so are different txids under a hash
that maps two pairs to one. -/
theorem partialMerkleTree_rejected :
    (extractMatches pairHash (.ofTxids pairHash (List.range 33334)
      (List.replicate 33334 false)) []).hashMerkleRoot = none ∧
    (extractMatches (fun _ _ => 0) (.ofTxids (fun _ _ => 0) [1, 2, 3, 4]
      [true, true, true, true]) []).hashMerkleRoot = none := by
  constructor
  · have hn : (CPartialMerkleTree.ofTxids pairHash (List.range 33334)
        (List.replicate 33334 false)).nTransactions = 33334 := by
      rw [CPartialMerkleTree.ofTxids, traverseAndBuild_nTransactions, List.length_range]
    rw [extractMatches, hn, if_neg (by decide), if_pos (by decide)]
  · decide

end UnemployCoin
