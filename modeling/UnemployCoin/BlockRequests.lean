import UnemployCoin.BlockDownload
import UnemployCoin.SkipList
/-!
# Which blocks to request from a peer

`FindNextBlocksToDownload` (`net_processing.cpp`) goes from the last block that it takes the node
and a peer to have in common towards the best block that the peer is known to have.  It fetches the
path in chunks, by `GetAncestor` and `pprev`, stops for good at a block that it does not want the
descendants of, and moves the common block on as it finds blocks that are there.
-/

namespace UnemployCoin

open Ancestry SkipTree

def BLOCK_DOWNLOAD_WINDOW : ℕ := 1024

/-- What the choice of blocks reads besides the peer. -/
structure DownloadContext where
  t : SkipTree
  chainActive : List (Option arith_uint256)
  nChainTx : arith_uint256 → ℕ
  /-- `mapBlocksInFlight`: the peer that a block is in flight from. -/
  inFlight : arith_uint256 → Option NodeId
  /-- `IsWitnessEnabled`, by the parent. -/
  isWitnessEnabled : Option arith_uint256 → Bool
  nMinimumChainWork : arith_uint256

structure PeerBlocks where
  pindexBestKnownBlock : Option arith_uint256
  hashLastUnknownBlock : arith_uint256
  pindexLastCommonBlock : Option arith_uint256
  fHaveWitness : Bool
  deriving DecidableEq

structure DownloadScan where
  vBlocks : List arith_uint256
  pindexLastCommonBlock : arith_uint256
  waitingfor : NodeId
  nodeStaller : NodeId

namespace DownloadContext

variable (c : DownloadContext)

def nChainWork (pindex : arith_uint256) : arith_uint256 :=
  (c.t.mapBlockIndex.find? pindex).elim 0 CBlockIndex.nChainWork

def processBlockAvailability (state : PeerBlocks) : PeerBlocks :=
  if state.hashLastUnknownBlock ≠ 0 ∧ c.t.mapBlockIndex.count state.hashLastUnknownBlock = true ∧
      0 < c.nChainWork state.hashLastUnknownBlock then
    { state with
      pindexBestKnownBlock :=
        if state.pindexBestKnownBlock.all fun best =>
            decide (c.nChainWork best ≤ c.nChainWork state.hashLastUnknownBlock) then
          some state.hashLastUnknownBlock
        else state.pindexBestKnownBlock
      hashLastUnknownBlock := 0 }
  else state

def live (fHaveWitness : Bool) (pindex : arith_uint256) : Bool :=
  (c.t.mapBlockIndex.find? pindex).any (·.isValid BLOCK_VALID_TREE) &&
    (fHaveWitness || !c.isWitnessEnabled (c.t.pprev pindex))

def isThere (pindex : arith_uint256) : Bool :=
  ((c.t.mapBlockIndex.find? pindex).any fun e => hasData e.nStatus) ||
    c.t.contains c.chainActive pindex

section Scan

variable (nodeid : NodeId) (count nWindowEnd : ℕ) (fHaveWitness : Bool)

def visit (s : DownloadScan) (pindex : arith_uint256) : DownloadScan × Bool :=
  if !c.live fHaveWitness pindex then (s, true)
  else if c.isThere pindex then
    (if c.nChainTx pindex ≠ 0 then { s with pindexLastCommonBlock := pindex } else s, false)
  else match c.inFlight pindex with
    | none =>
      if c.t.nHeight pindex > nWindowEnd then
        (if s.vBlocks.length = 0 ∧ s.waitingfor ≠ nodeid then
          { s with nodeStaller := s.waitingfor } else s, true)
      else
        ({ s with vBlocks := s.vBlocks ++ [pindex] }, (s.vBlocks ++ [pindex]).length == count)
    | some peer => (if s.waitingfor = -1 then { s with waitingfor := peer } else s, false)

def scan : DownloadScan → List arith_uint256 → DownloadScan × Bool
  | s, [] => (s, false)
  | s, pindex :: vToFetch =>
    match c.visit nodeid count nWindowEnd fHaveWitness s pindex with
    | (s, true) => (s, true)
    | (s, false) => scan s vToFetch

/-- `vToFetch`: a block and `n` blocks before it. -/
def toFetch : ℕ → arith_uint256 → Except String (List arith_uint256)
  | 0, pindex => .ok [pindex]
  | n + 1, pindex =>
    match c.t.pprev pindex with
    | some pprev => (toFetch n pprev).map (· ++ [pindex])
    | none => .error "vToFetch[i]->pprev"

def downloadLoop (best : arith_uint256) (nMaxHeight : ℕ) :
    ℕ → arith_uint256 → DownloadScan → Except String DownloadScan
  | 0, _, _ => .error "fuel"
  | fuel + 1, pindexWalk, s =>
    if c.t.nHeight pindexWalk < nMaxHeight then do
      let nToFetch := min (nMaxHeight - c.t.nHeight pindexWalk)
        (max (BitVec.ofNat 32 count - BitVec.ofNat 32 s.vBlocks.length).toInt 128).toNat
      match ← c.t.getAncestor best (c.t.nHeight pindexWalk + nToFetch : ℕ) with
      | none => .error "pindexWalk"
      | some pindexWalk =>
        let vToFetch ← c.toFetch (nToFetch - 1) pindexWalk
        match c.scan nodeid count nWindowEnd fHaveWitness s vToFetch with
        | (s, true) => .ok s
        | (s, false) => downloadLoop best nMaxHeight fuel pindexWalk s
    else .ok s

end Scan

def uninteresting (best tip : arith_uint256) : Bool :=
  decide (c.nChainWork best < c.nChainWork tip) || decide (c.nChainWork best < c.nMinimumChainWork)

def guess (state : PeerBlocks) (best : arith_uint256) : Option arith_uint256 :=
  state.pindexLastCommonBlock.or
    (chainAt c.chainActive (min (c.t.nHeight best : ℤ) (chainHeight c.chainActive)))

/-- `FindNextBlocksToDownload`. -/
def findNextBlocksToDownload (nodeid : NodeId) (count : ℕ) (vBlocks : List arith_uint256)
    (nodeStaller : NodeId) (state : PeerBlocks) :
    Except String (PeerBlocks × List arith_uint256 × NodeId) :=
  if count = 0 then .ok (state, vBlocks, nodeStaller)
  else
    let state := c.processBlockAvailability state
    match state.pindexBestKnownBlock, chainTip c.chainActive with
    | none, _ => .ok (state, vBlocks, nodeStaller)
    | some _, none => .error "chainActive.Tip()"
    | some best, some tip =>
      if c.uninteresting best tip then .ok (state, vBlocks, nodeStaller)
      else
        match c.guess state best with
        | none => .error "pindexLastCommonBlock"
        | some guess => do
          match ← c.t.lastCommonAncestor guess best with
          | none => .error "pindexLastCommonBlock"
          | some common =>
            if common = best then
              return ({ state with pindexLastCommonBlock := some common }, vBlocks, nodeStaller)
            let nWindowEnd := c.t.nHeight common + BLOCK_DOWNLOAD_WINDOW
            let nMaxHeight := min (c.t.nHeight best) (nWindowEnd + 1)
            let s ← c.downloadLoop nodeid count nWindowEnd state.fHaveWitness best nMaxHeight
              (nMaxHeight + 1) common ⟨vBlocks, common, -1, nodeStaller⟩
            return ({ state with pindexLastCommonBlock := some s.pindexLastCommonBlock },
              s.vBlocks, s.nodeStaller)

/-! ## The path -/

/-- The ancestors of a block at the `n` heights above some height. -/
def path (best : arith_uint256) (nHeight n : ℕ) : List arith_uint256 :=
  (List.range' (nHeight + 1) n).filterMap fun k => ancestorAt c.t.pprev c.t.nHeight k best

def wanted (nWindowEnd : ℕ) (pindex : arith_uint256) : Bool :=
  !c.isThere pindex && (c.inFlight pindex).isNone && decide (c.t.nHeight pindex ≤ nWindowEnd)

variable {c} {best pindex p q : arith_uint256} {nHeight nMaxHeight n m count nWindowEnd : ℕ}
  {nodeid : NodeId} {fHaveWitness : Bool} {s : DownloadScan} {l l' : List arith_uint256}

theorem path_add : c.path best nHeight (n + m) =
    c.path best nHeight n ++ c.path best (nHeight + n) m := by
  rw [path, path, path, ← List.filterMap_append, ← Nat.add_right_comm, ← List.range'_append_1]

theorem path_one (ha : IsAncestor c.t.pprev p best) (hp : c.t.nHeight p = nHeight + 1) :
    c.path best nHeight 1 = [p] := by
  have hself := (ancestorAt_eq_some c.t.levelled).2 ⟨ha, hp⟩
  simp [path, hself]

theorem mem_path : p ∈ c.path best nHeight n ↔ IsAncestor c.t.pprev p best ∧
    nHeight < c.t.nHeight p ∧ c.t.nHeight p ≤ nHeight + n := by
  simp only [path, List.mem_filterMap, List.mem_range'_1, ancestorAt_eq_some c.t.levelled]
  constructor
  · rintro ⟨k, hk, ha, rfl⟩
    exact ⟨ha, by omega, by omega⟩
  · exact fun ⟨ha, hlow, hhigh⟩ => ⟨_, ⟨by omega, by omega⟩, ha, rfl⟩

theorem pairwise_path : (c.path best nHeight n).Pairwise (c.t.nHeight · < c.t.nHeight ·) := by
  refine List.Pairwise.filterMap _ ?_ (List.pairwise_lt_range' (s := nHeight + 1) (n := n))
  intro k k' hlt p hp q hq
  rw [((ancestorAt_eq_some c.t.levelled).1 hp).2, ((ancestorAt_eq_some c.t.levelled).1 hq).2]
  exact hlt

theorem toFetch_eq (ha : IsAncestor c.t.pprev p best) (hp : c.t.nHeight p = nHeight + (n + 1)) :
    c.toFetch n p = .ok (c.path best nHeight (n + 1)) := by
  induction n generalizing p with
  | zero => rw [toFetch, path_one ha hp]
  | succ n ih =>
    rw [toFetch]
    cases hprev : c.t.pprev p with
    | none =>
      have := c.t.levelled.root p hprev
      omega
    | some p' =>
      have hstep := c.t.levelled.step p p' hprev
      have hlast : c.path best (nHeight + (n + 1)) 1 = [p] := path_one ha (by omega)
      simp only [ih ((isAncestor_of_prev hprev).trans ha) (by omega)]
      rw [path_add (n := n + 1), hlast]
      rfl

theorem scan_append : c.scan nodeid count nWindowEnd fHaveWitness s (l ++ l') =
    match c.scan nodeid count nWindowEnd fHaveWitness s l with
    | (s, true) => (s, true)
    | (s, false) => c.scan nodeid count nWindowEnd fHaveWitness s l' := by
  induction l generalizing s with
  | nil => rfl
  | cons p l ih =>
    rw [List.cons_append, scan, scan]
    rcases c.visit nodeid count nWindowEnd fHaveWitness s p with ⟨s, _ | _⟩
    · exact ih
    · rfl

/-- **The chunks make up the path**: the outer loop ends, and the inner loops scan all of it. -/
theorem downloadLoop_eq (hskips : c.t.SkipsBuilt) (ha : IsAncestor c.t.pprev p best)
    (hmax : nMaxHeight ≤ c.t.nHeight best) {fuel : ℕ} (hfuel : nMaxHeight - c.t.nHeight p < fuel) :
    c.downloadLoop nodeid count nWindowEnd fHaveWitness best nMaxHeight fuel p s =
      .ok (c.scan nodeid count nWindowEnd fHaveWitness s
        (c.path best (c.t.nHeight p) (nMaxHeight - c.t.nHeight p))).1 := by
  induction fuel generalizing p s with
  | zero => omega
  | succ fuel ih =>
    rw [downloadLoop]
    split
    · rename_i hlt
      generalize hn : min (nMaxHeight - c.t.nHeight p)
        (max (BitVec.ofNat 32 count - BitVec.ofNat 32 s.vBlocks.length).toInt 128).toNat = n
      obtain ⟨m, rfl⟩ : ∃ m, n = m + 1 := ⟨n - 1, by omega⟩
      obtain ⟨q, hq⟩ := c.t.levelled.exists_ancestorAt
        (show c.t.nHeight p + (m + 1) ≤ c.t.nHeight best by omega)
      obtain ⟨hanc, hheight⟩ := (ancestorAt_eq_some c.t.levelled).1 hq
      have hrest : nMaxHeight - c.t.nHeight p = m + 1 + (nMaxHeight - c.t.nHeight q) := by omega
      have hsplit : c.path best (c.t.nHeight p) (nMaxHeight - c.t.nHeight p) =
          c.path best (c.t.nHeight p) (m + 1) ++
            c.path best (c.t.nHeight q) (nMaxHeight - c.t.nHeight q) := by
        rw [hrest, path_add, hheight]
      rw [hsplit, scan_append]
      simp only [getAncestor_eq hskips, hq, Nat.add_sub_cancel, bind, Except.bind,
        toFetch_eq hanc hheight]
      rcases c.scan nodeid count nWindowEnd fHaveWitness s (c.path best (c.t.nHeight p) (m + 1))
        with ⟨s, _ | _⟩
      · exact ih hanc (by omega)
      · rfl
    · rename_i hge
      rw [Nat.sub_eq_zero_of_le (by omega)]
      rfl

theorem filter_wanted_eq_nil (h : ∀ p ∈ l, nWindowEnd < c.t.nHeight p) :
    l.filter (c.wanted nWindowEnd) = [] := by
  refine List.filter_eq_nil_iff.2 fun p hp => ?_
  have := h p hp
  simp [wanted, show ¬c.t.nHeight p ≤ nWindowEnd by omega]

/-- **The scan takes the first blocks that are wanted.** -/
theorem scan_vBlocks (hsorted : l.Pairwise (c.t.nHeight · < c.t.nHeight ·))
    (hcount : s.vBlocks.length < count) :
    (c.scan nodeid count nWindowEnd fHaveWitness s l).1.vBlocks =
      (s.vBlocks ++ (l.takeWhile (c.live fHaveWitness)).filter (c.wanted nWindowEnd)).take
        count := by
  induction l generalizing s with
  | nil => simp [scan, List.take_of_length_le hcount.le]
  | cons p l ih =>
    rw [List.pairwise_cons] at hsorted
    rw [scan, visit]
    cases hlive : c.live fHaveWitness p with
    | false => simp [hlive, List.take_of_length_le hcount.le]
    | true =>
      simp only [Bool.not_true, Bool.false_eq_true, if_false, List.takeWhile_cons, hlive, if_true,
        List.filter_cons]
      cases hthere : c.isThere p with
      | true =>
        have hnot : c.wanted nWindowEnd p = false := by simp [wanted, hthere]
        simp only [if_true, hnot, Bool.false_eq_true, if_false]
        rw [ih hsorted.2 (by split <;> exact hcount)]
        split <;> rfl
      | false =>
        cases hflight : c.inFlight p with
        | some peer =>
          have hnot : c.wanted nWindowEnd p = false := by simp [wanted, hflight]
          simp only [Bool.false_eq_true, if_false, hnot]
          rw [ih hsorted.2 (by split <;> exact hcount)]
          split <;> rfl
        | none =>
          by_cases hwindow : c.t.nHeight p > nWindowEnd
          · -- The window ends here, and what follows is higher.
            have hnot : c.wanted nWindowEnd p = false := by simp [wanted, hwindow]
            have hrest : (l.takeWhile (c.live fHaveWitness)).filter (c.wanted nWindowEnd) = [] :=
              filter_wanted_eq_nil
                fun q hq => hwindow.trans (hsorted.1 q (List.takeWhile_subset _ hq))
            simp only [Bool.false_eq_true, if_false, if_pos hwindow, hnot, hrest, List.append_nil]
            rw [List.take_of_length_le hcount.le]
            split <;> rfl
          · have hyes : c.wanted nWindowEnd p = true := by
              simp [wanted, hthere, hflight, Nat.le_of_not_gt hwindow]
            simp only [Bool.false_eq_true, if_false, if_neg hwindow, hyes, if_true]
            rw [List.append_cons _ p ((l.takeWhile _).filter _)]
            cases hfull : (s.vBlocks ++ [p]).length == count with
            | true =>
              rw [List.take_append_of_le_length (beq_iff_eq.1 hfull).ge,
                List.take_of_length_le (beq_iff_eq.1 hfull).le]
            | false =>
              have hlt : (s.vBlocks ++ [p]).length < count := by
                have := beq_eq_false_iff_ne.1 hfull
                simp only [List.length_append, List.length_singleton] at this ⊢
                omega
              exact ih hsorted.2 hlt

/-- The common block moves on to blocks that are there and have `nChainTx` set. -/
theorem scan_pindexLastCommonBlock :
    (c.scan nodeid count nWindowEnd fHaveWitness s l).1.pindexLastCommonBlock =
        s.pindexLastCommonBlock ∨
      ∃ p ∈ l, (c.scan nodeid count nWindowEnd fHaveWitness s l).1.pindexLastCommonBlock = p ∧
        c.isThere p = true ∧ c.nChainTx p ≠ 0 := by
  induction l generalizing s with
  | nil => exact Or.inl rfl
  | cons p l ih =>
    have hvisit : (c.visit nodeid count nWindowEnd fHaveWitness s p).1.pindexLastCommonBlock =
        s.pindexLastCommonBlock ∨
      (c.visit nodeid count nWindowEnd fHaveWitness s p).1.pindexLastCommonBlock = p ∧
        c.isThere p = true ∧ c.nChainTx p ≠ 0 := by
      rw [visit]
      split
      · exact Or.inl rfl
      · split
        · rename_i hthere
          by_cases hchain : c.nChainTx p ≠ 0
          · exact Or.inr ⟨by rw [if_pos hchain], hthere, hchain⟩
          · exact Or.inl (by rw [if_neg hchain])
        · cases c.inFlight p <;> dsimp only <;> split_ifs <;> exact Or.inl rfl
    rw [scan]
    rcases hs : c.visit nodeid count nWindowEnd fHaveWitness s p with ⟨s', _ | _⟩
    · rw [hs] at hvisit
      rcases ih (s := s') with hlast | ⟨q, hq, hlast⟩
      · dsimp only at hvisit ⊢
        rw [hlast]
        exact hvisit.imp_right fun h => ⟨p, List.mem_cons_self, h⟩
      · exact Or.inr ⟨q, List.mem_cons_of_mem p hq, hlast⟩
    · rw [hs] at hvisit
      exact hvisit.imp_right fun h => ⟨p, List.mem_cons_self, h⟩

/-- Above the window nothing is wanted. -/
theorem filter_wanted_append (h : ∀ p ∈ l', nWindowEnd < c.t.nHeight p) :
    ((l ++ l').takeWhile (c.live fHaveWitness)).filter (c.wanted nWindowEnd) =
      (l.takeWhile (c.live fHaveWitness)).filter (c.wanted nWindowEnd) := by
  rw [List.takeWhile_append]
  split
  · rename_i hall
    have hself := (List.takeWhile_sublist (c.live fHaveWitness)).eq_of_length hall
    rw [List.filter_append, hself, filter_wanted_eq_nil
      fun q hq => h q (List.takeWhile_subset _ hq), List.append_nil]
  · rfl

/-! ## The choice -/

/-- The blocks that a peer is known by are entries. -/
structure Known (t : SkipTree) (state : PeerBlocks) : Prop where
  best : ∀ p, state.pindexBestKnownBlock = some p → t.IsEntry p
  common : ∀ p, state.pindexLastCommonBlock = some p → t.IsEntry p

/-- What is left of a walk from `common` to `best`. -/
structure Chosen (c : DownloadContext) (best common : arith_uint256) (count : ℕ)
    (state : PeerBlocks) (vBlocks : List arith_uint256) : Prop where
  first : vBlocks =
    (((c.path best (c.t.nHeight common) (c.t.nHeight best - c.t.nHeight common)).takeWhile
      (c.live state.fHaveWitness)).filter
        (c.wanted (c.t.nHeight common + BLOCK_DOWNLOAD_WINDOW))).take count
  sorted : vBlocks.Pairwise (c.t.nHeight · < c.t.nHeight ·)
  last : ∃ p, state.pindexLastCommonBlock = some p ∧ IsAncestor c.t.pprev common p ∧
    IsAncestor c.t.pprev p best ∧ (p = common ∨ c.isThere p = true ∧ c.nChainTx p ≠ 0)

theorem sorted_take (live wanted : arith_uint256 → Bool) :
    ((((c.path best nHeight n).takeWhile live).filter wanted).take count).Pairwise
      (c.t.nHeight · < c.t.nHeight ·) :=
  pairwise_path.sublist
    ((List.take_sublist _ _).trans (List.filter_sublist.trans (List.takeWhile_sublist _)))

variable {common tip : arith_uint256} {state : PeerBlocks} {nodeStaller : NodeId}

theorem downloadLoop_chosen (hskips : c.t.SkipsBuilt) (ha : IsAncestor c.t.pprev common best)
    (hcount : count ≠ 0) (hwindow : nWindowEnd = c.t.nHeight common + BLOCK_DOWNLOAD_WINDOW)
    (hmax : nMaxHeight = min (c.t.nHeight best) (nWindowEnd + 1)) :
    ∃ s, c.downloadLoop nodeid count nWindowEnd state.fHaveWitness best nMaxHeight
        (nMaxHeight + 1) common ⟨[], common, -1, nodeStaller⟩ = .ok s ∧
      c.Chosen best common count
        { state with pindexLastCommonBlock := some s.pindexLastCommonBlock } s.vBlocks := by
  have hl := c.t.levelled
  have hle := ha.height_le hl
  refine ⟨_, downloadLoop_eq hskips ha (by omega) (by omega), ?_⟩
  -- The walk gets to the end of the path, or to where nothing is wanted.
  have hpath : c.path best (c.t.nHeight common) (c.t.nHeight best - c.t.nHeight common) =
      c.path best (c.t.nHeight common) (nMaxHeight - c.t.nHeight common) ++
        c.path best nMaxHeight (c.t.nHeight best - nMaxHeight) := by
    rw [show c.t.nHeight best - c.t.nHeight common =
        nMaxHeight - c.t.nHeight common + (c.t.nHeight best - nMaxHeight) by omega, path_add,
      show c.t.nHeight common + (nMaxHeight - c.t.nHeight common) = nMaxHeight by omega]
  have hbeyond : ∀ p ∈ c.path best nMaxHeight (c.t.nHeight best - nMaxHeight),
      nWindowEnd < c.t.nHeight p := by
    intro p hp
    obtain ⟨-, hlow, hhigh⟩ := mem_path.1 hp
    omega
  have hfirst : (c.scan nodeid count nWindowEnd state.fHaveWitness ⟨[], common, -1, nodeStaller⟩
      (c.path best (c.t.nHeight common) (nMaxHeight - c.t.nHeight common))).1.vBlocks = _ :=
    scan_vBlocks pairwise_path (Nat.pos_of_ne_zero hcount)
  rw [List.nil_append, ← filter_wanted_append hbeyond, ← hpath] at hfirst
  subst hwindow
  refine ⟨hfirst, ?_, _, rfl, ?_⟩
  · rw [hfirst]
    exact sorted_take _ _
  · rcases scan_pindexLastCommonBlock with hsame | ⟨p, hp, hlast, hthere, hlinked⟩
    · rw [hsame]
      exact ⟨.refl _ _, ha, .inl rfl⟩
    · rw [hlast]
      obtain ⟨hanc, hlow, -⟩ := mem_path.1 hp
      exact ⟨ha.of_height_le hl hanc hlow.le, hanc, .inr ⟨hthere, hlinked⟩⟩

theorem known_processBlockAvailability (h : Known c.t state) :
    Known c.t (c.processBlockAvailability state) := by
  rw [processBlockAvailability]
  split
  · rename_i hunknown
    refine ⟨fun p hp => ?_, h.common⟩
    dsimp only at hp
    split at hp
    · cases hp
      exact hunknown.2.1
    · exact h.best p hp
  · exact h

theorem chainTip_eq (hchain : c.t.PathTo c.chainActive tip) :
    chainTip c.chainActive = some tip := by
  have hself := (ancestorAt_eq_some c.t.levelled).2 ⟨.refl _ tip, rfl⟩
  have hlength := hchain.length
  rw [chainTip, if_pos (by omega), hlength, Nat.add_sub_cancel, hchain.get _ le_rfl, hself]
  rfl

theorem guess_eq (hchain : c.t.PathTo c.chainActive tip) (htip : c.t.IsEntry tip)
    (h : Known c.t state) : ∃ p, c.guess state best = some p ∧ c.t.IsEntry p := by
  rw [guess]
  cases hlast : state.pindexLastCommonBlock with
  | some p => exact ⟨p, rfl, h.common p hlast⟩
  | none =>
    have hlength := hchain.length
    have hheight : chainHeight c.chainActive = c.t.nHeight tip := by
      rw [chainHeight, hlength, Nat.cast_succ, add_sub_cancel_right]
    obtain ⟨p, hp⟩ := c.t.levelled.exists_ancestorAt (Nat.min_le_right (c.t.nHeight best)
      (c.t.nHeight tip))
    obtain ⟨hanc, -⟩ := (ancestorAt_eq_some c.t.levelled).1 hp
    refine ⟨p, ?_, isEntry_of_isAncestor htip hanc⟩
    rw [hheight, show min (c.t.nHeight best : ℤ) (c.t.nHeight tip) =
      (min (c.t.nHeight best) (c.t.nHeight tip) : ℕ) by omega,
      hchain.chainAt_eq (Nat.min_le_right _ _), hp]
    rfl

/-- What comes of a peer when the tip of the active chain is `tip`. -/
def Plans (c : DownloadContext) (tip : arith_uint256) (count : ℕ) (state state' : PeerBlocks)
    (vBlocks : List arith_uint256) : Prop :=
  match (c.processBlockAvailability state).pindexBestKnownBlock with
  | none => vBlocks = []
  | some best =>
    if count = 0 ∨ c.uninteresting best tip then vBlocks = []
    else ∃ guess common, c.guess (c.processBlockAvailability state) best = some guess ∧
      IsDeepestCommon c.t.pprev common guess best ∧ c.Chosen best common count state' vBlocks

/-- **The blocks to request are the first that are wanted** on the path from the last common block,
and that block is left there or at a descendant with `nChainTx` set. -/
theorem downloads_exact (hskips : c.t.SkipsBuilt) (htip : c.t.IsEntry tip)
    (hchain : c.t.PathTo c.chainActive tip) (hknown : Known c.t state) :
    ∃ state' vBlocks nodeStaller',
      c.findNextBlocksToDownload nodeid count [] nodeStaller state =
        .ok (state', vBlocks, nodeStaller') ∧ c.Plans tip count state state' vBlocks := by
  rw [findNextBlocksToDownload]
  simp only [Plans]
  by_cases hcount : count = 0
  · refine ⟨_, _, _, if_pos hcount, ?_⟩
    split
    · rfl
    · rw [if_pos (Or.inl hcount)]
  · have hknown := known_processBlockAvailability hknown
    rw [if_neg hcount]
    generalize c.processBlockAvailability state = state at hknown ⊢
    cases hbest : state.pindexBestKnownBlock with
    | none => exact ⟨_, _, _, rfl, rfl⟩
    | some best =>
      simp only [chainTip_eq hchain, hcount, false_or]
      split
      · exact ⟨_, _, _, rfl, rfl⟩
      · obtain ⟨guess, hguess, hentry⟩ : ∃ p, c.guess state best = some p ∧ c.t.IsEntry p :=
          guess_eq hchain htip hknown
        obtain ⟨common, hcommon, hdeepest⟩ :=
          lastCommonAncestor_eq hskips hentry (hknown.best best hbest)
        simp only [hguess, hcommon]
        by_cases hsame : common = best
        · subst hsame
          refine ⟨_, _, _, if_pos rfl, guess, common, rfl, hdeepest, ?_⟩
          refine ⟨?_, List.Pairwise.nil, common, rfl, .refl _ _, .refl _ _, .inl rfl⟩
          simp [path]
        · obtain ⟨s, hs, hchosen⟩ := @downloadLoop_chosen c best _ count _ nodeid common state
            nodeStaller hskips hdeepest.right hcount rfl rfl
          refine ⟨_, _, s.nodeStaller, ?_, guess, common, rfl, hdeepest, hchosen⟩
          simp only [bind, Except.bind, if_neg hsame, hs, hbest]
          rfl

def sampleEntry (pprev : arith_uint256) (nHeight : ℕ) (nChainWork : arith_uint256)
    (nStatus : UInt32) : CBlockIndex :=
  { CBlockIndex.null with
    pprev := some pprev, nHeight := nHeight, nChainWork := nChainWork, nStatus := nStatus }

/-- A chain of one block on the genesis block, and a longer branch that it has not caught up with:
its first block has been pruned, and of the two blocks at its end one has failed. -/
def forked : DownloadContext where
  t :=
    { mapBlockIndex := (((((StdMap.assign ∅ 1
        { CBlockIndex.null with nChainWork := 1, nStatus := 29 }).assign 2
        (sampleEntry 1 1 4 29)).assign 3 (sampleEntry 1 1 2 3)).assign 4
        (sampleEntry 3 2 3 11)).assign 5 (sampleEntry 4 3 5 2)).assign 6 (sampleEntry 4 3 6 34)
      hashGenesisBlock := 1
      pskip := ∅
      parents := by
        intro hash e he
        simp only [StdMap.find?_assign, StdMap.find?_empty] at he
        split_ifs at he with h6 h5 h4 h3 h2 h1 <;> cases he
        · exact ⟨_, rfl, rfl⟩
        · exact ⟨_, rfl, rfl⟩
        · exact ⟨_, rfl, rfl⟩
        · exact ⟨_, rfl, rfl⟩
        · exact ⟨_, rfl, rfl⟩
        · exact ⟨h1, rfl⟩ }
  chainActive := [some 1, some 2]
  nChainTx := fun pindex => if pindex = 5 ∨ pindex = 6 then 0 else 1
  inFlight := fun _ => none
  isWitnessEnabled := fun _ => true
  nMinimumChainWork := 0

theorem downloads_forked : ∃ state' vBlocks nodeStaller',
    forked.findNextBlocksToDownload 0 16 [] (-1) ⟨some 5, 0, none, true⟩ =
      .ok (state', vBlocks, nodeStaller') ∧
    forked.Plans 2 16 ⟨some 5, 0, none, true⟩ state' vBlocks := by
  refine downloads_exact ?_ ?_ ?_ ?_
  · intro hash pskip hfind
    cases hfind
  · rfl
  · refine ⟨by decide, ?_⟩
    decide
  · refine ⟨?_, ?_⟩
    · intro p hp
      cases hp
      rfl
    · intro p hp
      cases hp

/-- **A peer that is behind** or without witness is asked for nothing, one whose chain has failed
for the blocks before, and the common block may leave a pruned one behind. -/
theorem downloads_behind :
    (forked.findNextBlocksToDownload 0 16 [] (-1) ⟨some 3, 0, some 1, true⟩ =
        .ok (⟨some 3, 0, some 1, true⟩, [], -1) ∧
      forked.path 3 0 1 = [3] ∧ forked.live true 3 = true ∧ forked.wanted 1024 3 = true) ∧
    (forked.findNextBlocksToDownload 0 16 [] (-1) ⟨some 5, 0, some 1, false⟩ =
        .ok (⟨some 5, 0, some 1, false⟩, [], -1) ∧
      forked.findNextBlocksToDownload 0 16 [] (-1) ⟨some 6, 0, some 1, true⟩ =
        .ok (⟨some 6, 0, some 4, true⟩, [3], -1)) ∧
    forked.findNextBlocksToDownload 0 16 [] (-1) ⟨some 5, 0, some 1, true⟩ =
        .ok (⟨some 5, 0, some 4, true⟩, [3, 5], -1) ∧
      IsAncestor forked.t.pprev 3 4 ∧ forked.isThere 3 = false := by
  refine ⟨⟨?_, ?_, ?_, ?_⟩, ⟨?_, ?_⟩, ?_, ⟨1, ?_⟩, ?_⟩ <;> decide +kernel

end DownloadContext

end UnemployCoin
