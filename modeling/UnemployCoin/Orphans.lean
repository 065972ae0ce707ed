import UnemployCoin.CompactBlocks
import UnemployCoin.Lib.Run
import UnemployCoin.Lib.Sweep
import UnemployCoin.Lib.TwoWay
/-!
# The orphan pool

`AddOrphanTx`, `EraseOrphanTx`, `EraseOrphansFor` and `LimitOrphanTxSize` (`net_processing.cpp`).
`mapOrphanTransactionsByPrev` leads from an outpoint to the orphans that spend it, by iterators into
`mapOrphanTransactions`; here an iterator is the hash it leads to, and to follow one that is stale
fails.
-/

namespace UnemployCoin

namespace Wire

open TwoWay Sweep StdMap

def MAX_STANDARD_TX_WEIGHT : ℕ := 400000

def ORPHAN_TX_EXPIRE_TIME : ℤ := 20 * 60

def ORPHAN_TX_EXPIRE_INTERVAL : ℤ := 5 * 60

def getTransactionWeight (tx : CMutableTransaction) : ℕ :=
  (serializeTransaction false tx).length * (WITNESS_SCALE_FACTOR - 1) +
    (serializeTransaction true tx).length

structure COrphanTx where
  tx : CMutableTransaction
  fromPeer : Int64
  nTimeExpire : ℤ

structure OrphanPool where
  mapOrphanTransactions : StdMap uint256 COrphanTx
  mapOrphanTransactionsByPrev : StdMap COutPoint (StdMap uint256 Unit)
  /-- The static variable of `LimitOrphanTxSize`. -/
  nNextSweep : ℤ

namespace OrphanPool

def empty : OrphanPool := ⟨∅, ∅, 0⟩

section Calls

variable (GetHash : CMutableTransaction → uint256) (pool : OrphanPool)

/-- `AddOrphanTx` at a time.  What is kept for compact blocks is a list of its own. -/
def addOrphanTx (time : ℤ) (tx : CMutableTransaction) (peer : Int64) : OrphanPool × Bool :=
  let hash := GetHash tx
  if pool.mapOrphanTransactions.count hash then (pool, false)
  else
    let sz := UInt32.ofNat (getTransactionWeight tx)
    if sz.toNat ≥ MAX_STANDARD_TX_WEIGHT then (pool, false)
    else
      ({ pool with
        mapOrphanTransactions := pool.mapOrphanTransactions.emplace hash
          ⟨tx, peer, time + ORPHAN_TX_EXPIRE_TIME⟩
        mapOrphanTransactionsByPrev := tx.vin.foldl
          (fun byPrev txin => insertAt byPrev txin.prevout hash)
          pool.mapOrphanTransactionsByPrev }, true)

/-- `EraseOrphanTx`.  A set that is empty afterwards goes. -/
def eraseOrphanTx (hash : uint256) : OrphanPool × ℕ :=
  match pool.mapOrphanTransactions.find? hash with
  | none => (pool, 0)
  | some orphan =>
    ({ pool with
      mapOrphanTransactionsByPrev := orphan.tx.vin.foldl
        (fun byPrev txin => eraseAt true byPrev txin.prevout hash)
        pool.mapOrphanTransactionsByPrev
      mapOrphanTransactions := pool.mapOrphanTransactions.erase hash }, 1)

/-- A round of `EraseOrphansFor`. -/
def visitPeer (peer : Int64) (s : OrphanPool × ℕ) (_ : uint256) (maybeErase : COrphanTx) :
    OrphanPool × ℕ :=
  if maybeErase.fromPeer = peer then
    let (pool, erased) := s.1.eraseOrphanTx (GetHash maybeErase.tx)
    (pool, s.2 + erased)
  else s

/-- `EraseOrphansFor`, with `nErased`. -/
def eraseOrphansFor (peer : Int64) : Option (OrphanPool × ℕ) :=
  sweepAll (fun s => s.1.mapOrphanTransactions) (visitPeer GetHash peer) (pool, 0)

/-- What the sweep of `LimitOrphanTxSize` keeps track of. -/
structure ExpirySweep where
  pool : OrphanPool
  nErased : ℕ
  nMinExpTime : ℤ

def visitExpired (nNow : ℤ) (s : ExpirySweep) (_ : uint256) (maybeErase : COrphanTx) :
    ExpirySweep :=
  if maybeErase.nTimeExpire ≤ nNow then
    let (pool, erased) := s.pool.eraseOrphanTx (GetHash maybeErase.tx)
    { s with pool := pool, nErased := s.nErased + erased }
  else { s with nMinExpTime := min maybeErase.nTimeExpire s.nMinExpTime }

/-- Sweeps out the expired orphans, unless it is too early for it. -/
def sweepExpired (nNow : ℤ) : Option OrphanPool :=
  if pool.nNextSweep ≤ nNow then
    (sweepAll (fun s => s.pool.mapOrphanTransactions) (visitExpired GetHash nNow)
      ⟨pool, 0, nNow + ORPHAN_TX_EXPIRE_TIME - ORPHAN_TX_EXPIRE_INTERVAL⟩).map fun s =>
        { s.pool with nNextSweep := s.nMinExpTime + ORPHAN_TX_EXPIRE_INTERVAL }
  else some pool

/-- The loop that evicts an orphan near a random hash, for so many rounds. -/
def evictRandom (randomhash : ℕ → uint256) (nMaxOrphans : ℕ) :
    ℕ → OrphanPool → ℕ → Option (OrphanPool × ℕ)
  | 0, _, _ => none
  | n + 1, pool, nEvicted =>
    if pool.mapOrphanTransactions.size > nMaxOrphans then
      match (pool.mapOrphanTransactions.lowerBound (randomhash nEvicted)).or
        pool.mapOrphanTransactions.first with
      | none => none
      | some it => evictRandom randomhash nMaxOrphans n (pool.eraseOrphanTx it).1 (nEvicted + 1)
    else some (pool, nEvicted)

/-- `LimitOrphanTxSize`, with `nEvicted`. -/
def limitOrphanTxSize (nNow : ℤ) (randomhash : ℕ → uint256) (nMaxOrphans : UInt32) :
    Option (OrphanPool × ℕ) := do
  let pool ← pool.sweepExpired GetHash nNow
  evictRandom randomhash nMaxOrphans.toNat (pool.mapOrphanTransactions.size + 1) pool 0

end Calls

end OrphanPool

inductive OrphanCall where
  | addOrphanTx (time : ℤ) (tx : CMutableTransaction) (peer : Int64)
  | eraseOrphanTx (hash : uint256)
  | eraseOrphansFor (peer : Int64)
  | limitOrphanTxSize (nNow : ℤ) (randomhash : ℕ → uint256) (nMaxOrphans : UInt32)

/-- The calls, which fail only where they follow a stale iterator or do not return. -/
def orphanMachine (GetHash : CMutableTransaction → uint256) : Machine OrphanPool OrphanCall where
  step pool
    | .addOrphanTx time tx peer => some (pool.addOrphanTx GetHash time tx peer).1
    | .eraseOrphanTx hash => some (pool.eraseOrphanTx hash).1
    | .eraseOrphansFor peer => (pool.eraseOrphansFor GetHash peer).map Prod.fst
    | .limitOrphanTxSize nNow randomhash nMaxOrphans =>
      (pool.limitOrphanTxSize GetHash nNow randomhash nMaxOrphans).map Prod.fst

namespace OrphanPool

variable {GetHash : CMutableTransaction → uint256} {pool pool' : OrphanPool} {hash : uint256}
  {tx : CMutableTransaction} {peer : Int64} {orphan : COrphanTx}

def Spends (pool : OrphanPool) (out : COutPoint) (hash : uint256) : Prop :=
  ∃ orphan, pool.mapOrphanTransactions.find? hash = some orphan ∧
    out ∈ orphan.tx.vin.map CTxIn.prevout

/-- **The index is the inverse of the inputs.**  Each orphan is stored under its own hash. -/
structure Indexed (GetHash : CMutableTransaction → uint256) (pool : OrphanPool) : Prop where
  keyed : ∀ hash orphan, pool.mapOrphanTransactions.find? hash = some orphan →
    GetHash orphan.tx = hash
  exact : ∀ out hash, TwoWay.Holds pool.mapOrphanTransactionsByPrev out hash ↔ pool.Spends out hash
  noneEmpty : NoneEmpty pool.mapOrphanTransactionsByPrev

theorem indexed_empty : empty.Indexed GetHash where
  keyed := fun _ _ h => nomatch h
  exact := by
    intro out hash
    constructor
    · rintro ⟨_, h, -⟩
      cases h
    · rintro ⟨_, h, -⟩
      cases h
  noneEmpty := fun _ _ h => nomatch h

/-! ## One orphan -/

theorem foldl_prevout {β : Type} (f : β → COutPoint → β) (vin : List CTxIn) (b : β) :
    vin.foldl (fun b txin => f b txin.prevout) b = (vin.map CTxIn.prevout).foldl f b := by
  rw [List.foldl_map]

theorem noneEmpty_foldl {f : StdMap COutPoint (StdMap uint256 Unit) → COutPoint →
    StdMap COutPoint (StdMap uint256 Unit)} (hf : ∀ m out, NoneEmpty m → NoneEmpty (f m out))
    {m : StdMap COutPoint (StdMap uint256 Unit)} (hm : NoneEmpty m) (l : List COutPoint) :
    NoneEmpty (l.foldl f m) := by
  induction l generalizing m with
  | nil => exact hm
  | cons out l ih => exact ih (hf m out hm)

/-- **A new orphan is entered for each of its inputs**, also for one that it names twice. -/
theorem Indexed.addOrphanTx (h : pool.Indexed GetHash) (time : ℤ) (tx : CMutableTransaction)
    (peer : Int64) : (pool.addOrphanTx GetHash time tx peer).1.Indexed GetHash := by
  rw [OrphanPool.addOrphanTx]
  dsimp only
  split
  · exact h
  · rename_i hnew
    split
    · exact h
    · have hnone : pool.mapOrphanTransactions.find? (GetHash tx) = none :=
        count_eq_false.1 (Bool.eq_false_of_not_eq_true hnew)
      have hfind : ∀ hash, (pool.mapOrphanTransactions.emplace (GetHash tx)
          ⟨tx, peer, time + ORPHAN_TX_EXPIRE_TIME⟩).find? hash =
          if hash = GetHash tx then some ⟨tx, peer, time + ORPHAN_TX_EXPIRE_TIME⟩
          else pool.mapOrphanTransactions.find? hash := by
        intro hash
        rw [find?_emplace, hnone, Option.getD_none]
      refine ⟨?_, ?_, ?_⟩
      · intro hash orphan ho
        rw [hfind] at ho
        split at ho
        · rename_i heq
          cases ho
          exact heq.symm
        · exact h.keyed hash orphan ho
      · intro out hash
        dsimp only
        rw [foldl_prevout fun m out => insertAt m out (GetHash tx), holds_foldl_insertAt, h.exact,
          Spends, Spends]
        dsimp only
        rw [hfind]
        by_cases heq : hash = GetHash tx
        · rw [if_pos heq, heq, hnone]
          simp
        · rw [if_neg heq]
          simp [heq]
      · dsimp only
        rw [foldl_prevout fun m out => insertAt m out (GetHash tx)]
        exact noneEmpty_foldl (fun m out hm => hm.insertAt) h.noneEmpty _

theorem mapOrphanTransactions_eraseOrphanTx (pool : OrphanPool) (hash : uint256) :
    (pool.eraseOrphanTx hash).1.mapOrphanTransactions = pool.mapOrphanTransactions.erase hash := by
  rw [OrphanPool.eraseOrphanTx]
  cases hfind : pool.mapOrphanTransactions.find? hash with
  | none => exact (erase_eq_self hfind).symm
  | some orphan => rfl

/-- **An orphan that goes is taken out for each of its inputs.** -/
theorem Indexed.eraseOrphanTx (h : pool.Indexed GetHash) (hash : uint256) :
    (pool.eraseOrphanTx hash).1.Indexed GetHash := by
  rw [OrphanPool.eraseOrphanTx]
  cases hfind : pool.mapOrphanTransactions.find? hash with
  | none => exact h
  | some orphan =>
    refine ⟨?_, ?_, ?_⟩
    · intro hash' orphan' ho
      dsimp only at ho
      rw [find?_erase] at ho
      split at ho
      · cases ho
      · exact h.keyed hash' orphan' ho
    · intro out hash'
      dsimp only
      rw [foldl_prevout fun m out => eraseAt true m out hash, holds_foldl_eraseAt, h.exact, Spends,
        Spends]
      dsimp only
      rw [find?_erase]
      by_cases heq : hash' = hash
      · subst heq
        rw [if_pos rfl, hfind]
        simp
      · rw [if_neg heq]
        simp [heq]
    · dsimp only
      rw [foldl_prevout fun m out => eraseAt true m out hash]
      exact noneEmpty_foldl (fun m out hm => hm.eraseAt) h.noneEmpty _

/-! ## The loops -/

theorem visits_peer (peer : Int64) :
    Visits (fun s : OrphanPool × ℕ => s.1.mapOrphanTransactions) (visitPeer GetHash peer)
      (fun s => s.1.Indexed GetHash) fun _ orphan => orphan.fromPeer ≠ peer where
  keeps := by
    intro s hash orphan hs _
    rw [visitPeer]
    split
    · exact hs.eraseOrphanTx _
    · exact hs
  frame := by
    intro s hash orphan hs hfind
    rw [visitPeer]
    split
    · rw [hs.keyed hash orphan hfind]
      exact .inr (mapOrphanTransactions_eraseOrphanTx s.1 hash)
    · exact .inl rfl
  leaves := by
    intro s hash orphan hs hfind hsame heq
    rw [visitPeer, if_pos heq, hs.keyed hash orphan hfind] at hsame
    have herase := (mapOrphanTransactions_eraseOrphanTx s.1 hash).symm.trans hsame
    rw [← herase, find?_erase_self] at hfind
    cases hfind

/-- **`EraseOrphansFor` returns, and leaves no orphan of the peer.** -/
theorem eraseOrphansFor_spec (h : pool.Indexed GetHash) (peer : Int64) :
    ∃ s, pool.eraseOrphansFor GetHash peer = some s ∧ s.1.Indexed GetHash ∧
      ∀ hash orphan, s.1.mapOrphanTransactions.find? hash = some orphan →
        orphan.fromPeer ≠ peer :=
  sweepAll_total (visits_peer peer) h

theorem visits_expired (nNow : ℤ) :
    Visits (fun s : ExpirySweep => s.pool.mapOrphanTransactions) (visitExpired GetHash nNow)
      (fun s => s.pool.Indexed GetHash) fun _ _ => True where
  keeps := by
    intro s hash orphan hs _
    rw [visitExpired]
    split
    · exact hs.eraseOrphanTx _
    · exact hs
  frame := by
    intro s hash orphan hs hfind
    rw [visitExpired]
    split
    · rw [hs.keyed hash orphan hfind]
      exact .inr (mapOrphanTransactions_eraseOrphanTx s.pool hash)
    · exact .inl rfl
  leaves := fun _ _ _ _ _ _ => trivial

theorem Indexed.sweepExpired (h : pool.Indexed GetHash) (nNow : ℤ) :
    ∃ s, pool.sweepExpired GetHash nNow = some s ∧ s.Indexed GetHash := by
  rw [OrphanPool.sweepExpired]
  split
  · obtain ⟨s, hs, hindexed, -⟩ := sweepAll_total
      (s := ⟨pool, 0, nNow + ORPHAN_TX_EXPIRE_TIME - ORPHAN_TX_EXPIRE_INTERVAL⟩)
      (visits_expired nNow) h
    refine ⟨{ s.pool with nNextSweep := s.nMinExpTime + ORPHAN_TX_EXPIRE_INTERVAL }, ?_,
      hindexed.keyed, hindexed.exact, hindexed.noneEmpty⟩
    rw [hs]
    rfl
  · exact ⟨pool, rfl, h⟩

theorem exists_near {m : StdMap uint256 COrphanTx} (hsize : m.size ≠ 0) (randomhash : uint256) :
    ∃ it, (m.lowerBound randomhash).or m.first = some it ∧ m.count it = true := by
  cases hlower : m.lowerBound randomhash with
  | some it => exact ⟨it, rfl, (mem_leastKey.1 hlower).1⟩
  | none =>
    rw [Option.none_or]
    cases hfirst : m.first with
    | some it => exact ⟨it, rfl, (mem_leastKey.1 hfirst).1⟩
    | none =>
      obtain ⟨it, hcount⟩ := size_ne_zero.1 hsize
      have hfalse := StdMap.leastKey_eq_none.1 hfirst it hcount
      cases hfalse

theorem Indexed.evictRandom (h : pool.Indexed GetHash) (randomhash : ℕ → uint256)
    {nMaxOrphans n nEvicted : ℕ} (hn : pool.mapOrphanTransactions.size < n) :
    ∃ s, OrphanPool.evictRandom randomhash nMaxOrphans n pool nEvicted = some s ∧
      s.1.Indexed GetHash ∧ s.1.mapOrphanTransactions.size ≤ nMaxOrphans := by
  induction n generalizing pool nEvicted with
  | zero => exact absurd hn (Nat.not_lt_zero _)
  | succ n ih =>
    rw [OrphanPool.evictRandom]
    split
    · rename_i hmany
      obtain ⟨it, hit, hcount⟩ := exists_near (Nat.ne_of_gt (Nat.zero_lt_of_lt hmany))
        (randomhash nEvicted)
      rw [hit]
      have hsmaller := size_erase hcount
      refine ih (h.eraseOrphanTx it) ?_
      rw [mapOrphanTransactions_eraseOrphanTx]
      omega
    · rename_i hfew
      exact ⟨_, rfl, h, Nat.le_of_not_lt hfew⟩

/-- **`LimitOrphanTxSize` returns, with so many orphans at most.** -/
theorem limitOrphanTxSize_spec (h : pool.Indexed GetHash) (nNow : ℤ) (randomhash : ℕ → uint256)
    (nMaxOrphans : UInt32) :
    ∃ s, pool.limitOrphanTxSize GetHash nNow randomhash nMaxOrphans = some s ∧
      s.1.Indexed GetHash ∧ s.1.mapOrphanTransactions.size ≤ nMaxOrphans.toNat := by
  obtain ⟨swept, hswept, hindexed⟩ := h.sweepExpired nNow
  obtain ⟨s, hs, hspec⟩ := hindexed.evictRandom randomhash (Nat.lt_succ_self _)
  refine ⟨s, ?_, hspec⟩
  rw [limitOrphanTxSize, hswept]
  exact hs

theorem Indexed.step (h : pool.Indexed GetHash) (call : OrphanCall) :
    ∃ pool', (orphanMachine GetHash).step pool call = some pool' ∧ pool'.Indexed GetHash := by
  cases call with
  | addOrphanTx time tx peer => exact ⟨_, rfl, h.addOrphanTx time tx peer⟩
  | eraseOrphanTx hash => exact ⟨_, rfl, h.eraseOrphanTx hash⟩
  | eraseOrphansFor peer =>
    obtain ⟨s, hs, hindexed, -⟩ := eraseOrphansFor_spec h peer
    exact ⟨s.1, congrArg (Option.map Prod.fst) hs, hindexed⟩
  | limitOrphanTxSize nNow randomhash nMaxOrphans =>
    obtain ⟨s, hs, hindexed, -⟩ := limitOrphanTxSize_spec h nNow randomhash nMaxOrphans
    exact ⟨s.1, congrArg (Option.map Prod.fst) hs, hindexed⟩

end OrphanPool

/-- **The orphan pool after any calls.**  No call follows a stale iterator, the index is the inverse
of the inputs, `EraseOrphansFor` leaves no orphan of the peer, and `LimitOrphanTxSize` returns with
as many orphans as it should leave at most. -/
theorem orphanPool_indexed (GetHash : CMutableTransaction → uint256) (calls : List OrphanCall) :
    ∃ pool, (orphanMachine GetHash).exec .empty calls = some pool ∧ pool.Indexed GetHash ∧
      (∀ peer, ∃ s, pool.eraseOrphansFor GetHash peer = some s ∧
        ∀ hash orphan, s.1.mapOrphanTransactions.find? hash = some orphan →
          orphan.fromPeer ≠ peer) ∧
      ∀ nNow randomhash nMaxOrphans,
        ∃ s, pool.limitOrphanTxSize GetHash nNow randomhash nMaxOrphans = some s ∧
          s.1.mapOrphanTransactions.size ≤ nMaxOrphans.toNat := by
  have halong : (orphanMachine GetHash).Along (fun _ _ => True) .empty calls :=
    Machine.Along.of_forall fun _ _ _ => trivial
  obtain ⟨pool, hexec, hindexed⟩ := Machine.exec_progress
    (fun _ call h _ => OrphanPool.Indexed.step h call) OrphanPool.indexed_empty halong
  refine ⟨pool, hexec, hindexed, ?_, ?_⟩
  · intro peer
    obtain ⟨s, hs, -, hnone⟩ := OrphanPool.eraseOrphansFor_spec hindexed peer
    exact ⟨s, hs, hnone⟩
  · intro nNow randomhash nMaxOrphans
    obtain ⟨s, hs, -, hsize⟩ := OrphanPool.limitOrphanTxSize_spec hindexed nNow randomhash
      nMaxOrphans
    exact ⟨s, hs, hsize⟩

end Wire

end UnemployCoin
