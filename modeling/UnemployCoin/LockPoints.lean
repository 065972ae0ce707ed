import UnemployCoin.AcceptHeader
import UnemployCoin.CheckTxAssets
import UnemployCoin.Interpreter
import UnemployCoin.TransactionFormat
import Mathlib.Data.List.Sort
/-!
# Lock points

An entry of the mempool keeps what `CheckSequenceLocks` (`validation.cpp`) has found about its
relative lock times (BIP68), and the highest block that this depends on.  `removeForReorg`
(`txmempool.cpp`) uses that again as long as the block is in the chain.

The entry of a block in the block index is given by the chain that ends there, tip first, and
`pcoinsTip` by the transactions of that chain.
-/

namespace UnemployCoin

namespace Wire

/-! ## The coins of a chain -/

structure CTransaction extends CMutableTransaction where
  hash : arith_uint256
  deriving DecidableEq

namespace CTransaction

variable (tx : CTransaction)

def prevouts : List COutPoint := tx.vin.map CTxIn.prevout

/-- `IsCoinBase`: one input, which is null. -/
def isCoinBase : Bool := tx.prevouts == [⟨0, 0xFFFFFFFF⟩]

def creates (o : COutPoint) : Bool :=
  o.hash == tx.hash && (tx.vout[o.n.toNat]?).any fun txout => !txout.scriptPubKey.isUnspendable

def spent : List COutPoint := if tx.isCoinBase then [] else tx.prevouts

end CTransaction

structure IndexedBlock where
  index : CBlockIndex
  vtx : List CTransaction
  deriving DecidableEq

abbrev BlockChain := List IndexedBlock

abbrev History := List (ℕ × CTransaction)

/-- The height of the coin at an outpoint, and whether a coinbase has made it. -/
def coinsOf : History → COutPoint → Option (ℕ × Bool)
  | [], _ => none
  | (nHeight, tx) :: l, o =>
    if tx.creates o then some (nHeight, tx.isCoinBase)
    else if o ∈ tx.spent then none
    else coinsOf l o

def history : BlockChain → History
  | [] => []
  | block :: chain => block.vtx.foldl (fun l tx => (chain.length, tx) :: l) (history chain)

/-- The checks of a block on its inputs; the height in front of the script of a coinbase
(`ContextualCheckBlock`) keeps its hash apart from those before. -/
def connects (nHeight : ℕ) : History → List CTransaction → Bool
  | _, [] => true
  | l, tx :: vtx =>
    (if tx.isCoinBase then l.all fun e => e.2.hash != tx.hash
      else !tx.vin.isEmpty && tx.prevouts.all fun o => (coinsOf l o).isSome) &&
      connects nHeight ((nHeight, tx) :: l) vtx

/-- No two transactions have one hash, and each spends coins that are there. -/
def Connected : History → Prop
  | [] => True
  | e :: l => (∀ b ∈ l, b.2.hash ≠ e.2.hash) ∧ (∀ o ∈ e.2.spent, (coinsOf l o).isSome) ∧ Connected l

/-- A transaction with the hash of one of the chain has its inputs. -/
def Apart (l : History) (tx : CTransaction) : Prop :=
  ∀ b ∈ l, b.2.hash = tx.hash → b.2.prevouts = tx.prevouts

section Coins

variable {l : History} {tx : CTransaction} {o : COutPoint} {b e : ℕ × CTransaction}
  {block : IndexedBlock} {chain : BlockChain} {nHeight : ℕ}

theorem mem_of_coinsOf {c : ℕ × Bool} (h : coinsOf l o = some c) :
    ∃ tx, (c.1, tx) ∈ l ∧ tx.creates o = true := by
  induction l with
  | nil => cases h
  | cons e l ih =>
    rw [coinsOf] at h
    split at h
    · rename_i hcreates
      cases h
      exact ⟨e.2, List.mem_cons_self, hcreates⟩
    · split at h
      · cases h
      · obtain ⟨tx, hmem, hcreates⟩ := ih h
        exact ⟨tx, List.mem_cons_of_mem e hmem, hcreates⟩

theorem hash_of_creates (h : tx.creates o = true) : tx.hash = o.hash := by
  rw [CTransaction.creates, Bool.and_eq_true] at h
  exact (beq_iff_eq.1 h.1).symm

theorem hash_of_coinsOf (h : (coinsOf l o).isSome = true) : ∃ b ∈ l, b.2.hash = o.hash := by
  obtain ⟨c, hc⟩ := Option.isSome_iff_exists.1 h
  obtain ⟨tx, hmem, hcreates⟩ := mem_of_coinsOf hc
  exact ⟨_, hmem, hash_of_creates hcreates⟩

theorem Connected.hash_of_spent (h : Connected l) (hb : b ∈ l) (ho : o ∈ b.2.spent) :
    ∃ e ∈ l, e.2.hash = o.hash := by
  induction l with
  | nil => cases hb
  | cons e l ih =>
    obtain ⟨-, hspent, htail⟩ := h
    have hearlier : ∃ e ∈ l, e.2.hash = o.hash := by
      rcases List.mem_cons.1 hb with rfl | hb
      · exact hash_of_coinsOf (hspent o ho)
      · exact ih htail hb
    obtain ⟨a, ha, hhash⟩ := hearlier
    exact ⟨a, List.mem_cons_of_mem e ha, hhash⟩

theorem Connected.unspent (h : Connected l) (hcoin : (coinsOf l o).isSome = true) (hb : b ∈ l) :
    o ∉ b.2.spent := by
  intro ho
  induction l with
  | nil => cases hb
  | cons e l ih =>
    obtain ⟨hfresh, hspent, htail⟩ := h
    rw [coinsOf] at hcoin
    split at hcoin
    · rename_i hcreates
      have hearlier : ∃ a ∈ l, a.2.hash = o.hash := by
        rcases List.mem_cons.1 hb with rfl | hb
        · exact hash_of_coinsOf (hspent o ho)
        · exact htail.hash_of_spent hb ho
      obtain ⟨a, ha, hhash⟩ := hearlier
      exact hfresh a ha (hhash.trans (hash_of_creates hcreates).symm)
    · split at hcoin
      · cases hcoin
      · rename_i hkept
        rcases List.mem_cons.1 hb with rfl | hb
        · exact hkept ho
        · exact ih htail hcoin hb

theorem Connected.fresh (h : Connected l) (happart : Apart l tx) (htx : tx.isCoinBase = false)
    (hne : tx.prevouts ≠ [])
    (hin : ∀ o ∈ tx.prevouts, (coinsOf l o).isSome = true ∨ ∀ b ∈ l, b.2.hash ≠ o.hash) :
    ∀ b ∈ l, b.2.hash ≠ tx.hash := by
  intro b hb hhash
  have hsame := happart b hb hhash
  obtain ⟨o, ho⟩ := List.exists_mem_of_ne_nil _ hne
  have hspent : o ∈ b.2.spent := by
    rw [CTransaction.isCoinBase, ← hsame] at htx
    rw [CTransaction.spent, CTransaction.isCoinBase, htx, hsame]
    exact ho
  rcases hin o ho with hcoin | hout
  · exact h.unspent hcoin hb hspent
  · obtain ⟨e, he, heq⟩ := h.hash_of_spent hb hspent
    exact hout e he heq

theorem Connected.eq_of_hash (h : Connected l) (hb : b ∈ l) (he : e ∈ l)
    (hhash : b.2.hash = e.2.hash) : b = e := by
  induction l with
  | nil => cases hb
  | cons a l ih =>
    rcases List.mem_cons.1 hb with rfl | hb' <;> rcases List.mem_cons.1 he with rfl | he'
    · rfl
    · exact absurd hhash.symm (h.1 e he')
    · exact absurd hhash (h.1 b hb')
    · exact ih h.2.2 hb' he'

theorem Connected.connects {vtx : List CTransaction} (h : Connected l)
    (hconnects : Wire.connects nHeight l vtx = true)
    (happart : ∀ b ∈ vtx.foldl (fun l tx => (nHeight, tx) :: l) l, ∀ tx ∈ vtx,
      b.2.hash = tx.hash → b.2.prevouts = tx.prevouts) :
    Connected (vtx.foldl (fun l tx => (nHeight, tx) :: l) l) := by
  induction vtx generalizing l with
  | nil => exact h
  | cons tx vtx ih =>
    rw [Wire.connects, Bool.and_eq_true] at hconnects
    have hlater : ∀ (vtx : List CTransaction) (l : History) (b : ℕ × CTransaction), b ∈ l →
        b ∈ vtx.foldl (fun l tx => (nHeight, tx) :: l) l := by
      intro vtx
      induction vtx with
      | nil => exact fun _ _ hb => hb
      | cons t vtx ih' => exact fun l b hb => ih' _ b (List.mem_cons_of_mem _ hb)
    refine ih ⟨?_, ?_, h⟩ hconnects.2 fun b hb t ht => happart b hb t (List.mem_cons_of_mem tx ht)
    · have hhead := hconnects.1
      split at hhead
      · simpa using hhead
      · rename_i htx
        rw [Bool.and_eq_true, List.all_eq_true] at hhead
        refine h.fresh (fun b hb => ?_) (Bool.eq_false_of_not_eq_true htx) ?_
          fun o ho => Or.inl (hhead.2 o ho)
        · exact happart b (hlater vtx _ b (List.mem_cons_of_mem _ hb)) tx List.mem_cons_self
        · simpa [CTransaction.prevouts] using hhead.1
    · intro o ho
      have hhead := hconnects.1
      rw [CTransaction.spent] at ho
      split at ho
      · cases ho
      · rename_i htx
        rw [if_neg htx, Bool.and_eq_true, List.all_eq_true] at hhead
        exact hhead.2 o ho

theorem mem_history_cons :
    b ∈ history (block :: chain) ↔ (b.1 = chain.length ∧ b.2 ∈ block.vtx) ∨ b ∈ history chain := by
  have hfold : ∀ (vtx : List CTransaction) (l : History),
      b ∈ vtx.foldl (fun l tx => (chain.length, tx) :: l) l ↔
        (b.1 = chain.length ∧ b.2 ∈ vtx) ∨ b ∈ l := by
    intro vtx
    induction vtx with
    | nil => simp
    | cons tx vtx ih =>
      intro l
      rw [List.foldl_cons, ih, List.mem_cons, List.mem_cons, Prod.ext_iff]
      tauto
  exact hfold block.vtx (history chain)

theorem lt_of_mem_history (h : b ∈ history chain) : b.1 < chain.length := by
  induction chain with
  | nil => cases h
  | cons block chain ih =>
    rcases mem_history_cons.1 h with ⟨heq, -⟩ | h
    · rw [heq, List.length_cons]
      omega
    · exact (ih h).trans (Nat.lt_succ_self _)

theorem mem_history_drop {n : ℕ} :
    b ∈ history (chain.drop n) ↔ b ∈ history chain ∧ b.1 < (chain.drop n).length := by
  induction n generalizing chain with
  | zero => exact ⟨fun h => ⟨h, lt_of_mem_history h⟩, fun h => h.1⟩
  | succ n ih =>
    cases chain with
    | nil => exact ⟨fun h => (nomatch h), fun h => (nomatch h.1)⟩
    | cons block chain =>
      rw [List.drop_succ_cons, ih, mem_history_cons, or_and_right]
      refine ⟨Or.inr, fun h => h.resolve_left ?_⟩
      rintro ⟨⟨heq, -⟩, hlt⟩
      rw [List.length_drop, heq] at hlt
      omega

theorem Connected.tail (h : Connected (history (block :: chain))) : Connected (history chain) := by
  have hfold : ∀ (vtx : List CTransaction) (l : History),
      Connected (vtx.foldl (fun l tx => (chain.length, tx) :: l) l) → Connected l := by
    intro vtx
    induction vtx with
    | nil => exact fun _ h => h
    | cons tx vtx ih => exact fun l h => (ih _ h).2.2
  exact hfold block.vtx _ h

end Coins

/-! ## Lock times -/

def getAncestor (chain : BlockChain) (nHeight : ℕ) : BlockChain :=
  chain.drop (chain.length - (nHeight + 1))

/-- `CBlockIndex::GetMedianTimePast`. -/
def medianTimePast (chain : BlockChain) : ℤ :=
  let times : List ℕ :=
    ((chain.take 11).map fun block => block.index.nTime.toNat).insertionSort (· ≤ ·)
  (times.getD (times.length / 2) 0 : ℕ)

theorem medianTimePast_eq (chain : BlockChain) :
    medianTimePast chain = getMedianTimePast (chain.map IndexedBlock.index) := by
  rw [medianTimePast, getMedianTimePast, List.mergeSort_eq_insertionSort, ← List.map_take,
    List.map_map]
  rfl

def LOCKTIME_VERIFY_SEQUENCE : ℕ := 1
def SEQUENCE_LOCKTIME_TYPE_FLAG : ℕ := 1 <<< 22
def SEQUENCE_LOCKTIME_MASK : ℕ := 0x0000ffff
def SEQUENCE_LOCKTIME_GRANULARITY : ℕ := 9

def CTxIn.disabled (txin : CTxIn) : Bool :=
  txin.nSequence.toNat &&& SEQUENCE_LOCKTIME_DISABLE_FLAG != 0

/-- A round of the loop of `CalculateSequenceLocks`. -/
def lockInput (chain : BlockChain) (lock : ℤ × ℤ) (txin : CTxIn) (nCoinHeight : ℕ) : ℤ × ℤ :=
  if txin.disabled then lock
  else if txin.nSequence.toNat &&& SEQUENCE_LOCKTIME_TYPE_FLAG != 0 then
    (lock.1, max lock.2 (medianTimePast (getAncestor chain (nCoinHeight - 1)) +
      ((txin.nSequence.toNat &&& SEQUENCE_LOCKTIME_MASK) <<< SEQUENCE_LOCKTIME_GRANULARITY : ℕ) -
        1))
  else
    (max lock.1 (nCoinHeight + (txin.nSequence.toNat &&& SEQUENCE_LOCKTIME_MASK : ℕ) - 1), lock.2)

/-- Whether BIP68 holds for a transaction; its version is read as unsigned. -/
def enforceBIP68 (flags : ℕ) (tx : CTransaction) : Bool :=
  decide (2 ≤ tx.nVersion.toUInt32.toNat) && flags &&& LOCKTIME_VERIFY_SEQUENCE != 0

/-- `CalculateSequenceLocks` for the block after a chain: the last height and the last time at which
the transaction is not valid, and the heights of the inputs, 0 for those without a lock time. -/
def calculateSequenceLocks (flags : ℕ) (tx : CTransaction) (prevHeights : List ℕ)
    (chain : BlockChain) : (ℤ × ℤ) × List ℕ :=
  if enforceBIP68 flags tx then
    ((tx.vin.zip prevHeights).foldl (fun lock e => lockInput chain lock e.1 e.2) (-1, -1),
      (tx.vin.zip prevHeights).map fun e => if e.1.disabled then 0 else e.2)
  else ((-1, -1), prevHeights)

def Meets (chain : BlockChain) (lock : ℤ × ℤ) : Prop :=
  lock.1 < chain.length ∧ lock.2 < medianTimePast chain

def evaluateSequenceLocks (chain : BlockChain) (lockPair : ℤ × ℤ) : Bool :=
  !(decide (lockPair.1 ≥ chain.length) || decide (lockPair.2 ≥ medianTimePast chain))

/-! ## The mempool -/

structure LockPoints where
  height : ℤ
  time : ℤ
  maxInputBlock : Option BlockChain

structure CTxMemPoolEntry where
  tx : CTransaction
  lockPoints : LockPoints
  spendsCoinbase : Bool

/-- The active chain, and the entries of the mempool. -/
structure LockNode where
  chainActive : BlockChain
  mapTx : List CTxMemPoolEntry

namespace LockNode

variable (s : LockNode) (flags : ℕ)

def pcoinsTip : COutPoint → Option (ℕ × Bool) := coinsOf (history s.chainActive)

def find (hash : arith_uint256) : Option CTxMemPoolEntry := s.mapTx.find? fun e => e.tx.hash == hash

/-- `CCoinsViewMemPool::GetCoin`, where the coins of the mempool have no height. -/
def getCoin (o : COutPoint) : Option (Option ℕ × Bool) :=
  match s.find o.hash with
  | some e => if o.n.toNat < e.tx.vout.length then some (none, false) else none
  | none => (s.pcoinsTip o).map fun coin => (some coin.1, coin.2)

/-- The heights of the coins; those of the mempool are taken to confirm in the next block. -/
def prevHeights (vin : List CTxIn) : Option (List ℕ) :=
  vin.mapM fun txin => (s.getCoin txin.prevout).map fun coin => coin.1.getD s.chainActive.length

/-- `chainActive.Contains`. -/
def contains (pindex : BlockChain) : Bool :=
  getAncestor s.chainActive (pindex.length - 1) == pindex

def testLockPointValidity (lp : LockPoints) : Bool := lp.maxInputBlock.all s.contains

def maxInputHeight (prevheights : List ℕ) : ℕ :=
  (prevheights.filter (· ≠ s.chainActive.length)).foldl max 0

/-- `CheckSequenceLocks`, and the lock points it leaves. -/
def checkSequenceLocks (tx : CTransaction) (lp : LockPoints) (useExistingLockPoints : Bool) :
    Bool × LockPoints :=
  if useExistingLockPoints then (evaluateSequenceLocks s.chainActive (lp.height, lp.time), lp)
  else match s.prevHeights tx.vin with
    | none => (false, lp)
    | some prevheights =>
      let (lockPair, prevheights) := calculateSequenceLocks flags tx prevheights s.chainActive
      (evaluateSequenceLocks s.chainActive lockPair,
        ⟨lockPair.1, lockPair.2,
          some (getAncestor s.chainActive (s.maxInputHeight prevheights))⟩)

/-- The test of `removeForReorg` for coinbases that are not mature. -/
def spendsImmature (e : CTxMemPoolEntry) : Bool :=
  e.spendsCoinbase && e.tx.prevouts.any fun o =>
    (s.find o.hash).isNone && (s.pcoinsTip o).all fun coin =>
      coin.2 && decide ((s.chainActive.length : ℤ) - coin.1 < COINBASE_MATURITY)

/-- A round of `removeForReorg`: whether the entry goes, and what it is updated to. -/
def visitForReorg (checkFinalTx : CTransaction → Bool) (e : CTxMemPoolEntry) :
    Bool × CTxMemPoolEntry :=
  let validLP := s.testLockPointValidity e.lockPoints
  let (locks, lp) := s.checkSequenceLocks flags e.tx e.lockPoints validLP
  if !checkFinalTx e.tx then (true, e)
  else (!locks || s.spendsImmature e, if validLP then e else { e with lockPoints := lp })

/-- `CalculateDescendants` of some entries, for as many rounds as there are entries. -/
def calculateDescendants : ℕ → List arith_uint256 → List arith_uint256
  | 0, setDescendants => setDescendants
  | n + 1, setDescendants => calculateDescendants n <| setDescendants ++
      (s.mapTx.filter fun e => e.tx.prevouts.any fun o => setDescendants.contains o.hash).map
        fun e => e.tx.hash

def without (s : LockNode) (hashes : List arith_uint256) : LockNode :=
  { s with mapTx := s.mapTx.filter fun e => !hashes.contains e.tx.hash }

def removeForReorg (checkFinalTx : CTransaction → Bool) : LockNode :=
  let visited := s.mapTx.map (s.visitForReorg flags checkFinalTx)
  let txToRemove := (visited.filter Prod.fst).map fun v => v.2.tx.hash
  ({ s with mapTx := visited.map Prod.snd }).without
    (s.calculateDescendants s.mapTx.length txToRemove)

end LockNode

/-- What happens to a mempool; what the other checks say is given with each step. -/
inductive LockEvent where
  | accept (tx : CTransaction) (passes : Bool)
  /-- The transactions of a block go, and those that its assets invalidate, **each alone**. -/
  | connectTip (block : IndexedBlock) (invalidated : List arith_uint256)
  | disconnectTip
  /-- What is replaced, in conflict, expired, trimmed or removed with an ancestor. -/
  | evict (hashes : List arith_uint256)
  | removeForReorg (checkFinalTx : CTransaction → Bool)

def lockMachine (flags : ℕ) : Machine LockNode LockEvent where
  step s
    | .accept tx passes =>
      let (locks, lp) := s.checkSequenceLocks flags tx ⟨0, 0, none⟩ false
      if passes && !tx.isCoinBase && !tx.vin.isEmpty && (s.find tx.hash).isNone && locks then
        some { s with
          mapTx := s.mapTx ++ [⟨tx, lp, tx.prevouts.any fun o => (s.getCoin o).any Prod.snd⟩] }
      else none
    | .connectTip block invalidated =>
      if connects s.chainActive.length (history s.chainActive) block.vtx then
        some (({ s with chainActive := block :: s.chainActive }).without
          (block.vtx.map CTransaction.hash ++ invalidated))
      else none
    | .disconnectTip => some { s with chainActive := s.chainActive.tail }
    | .evict hashes => some (s.without hashes)
    | .removeForReorg checkFinalTx => some (s.removeForReorg flags checkFinalTx)

/-! ## Lock points that are valid -/

section Locks

variable {chain chain' : BlockChain} {lock : ℤ × ℤ} {txin : CTxIn} {nHeight n : ℕ} {flags : ℕ}
  {tx : CTransaction}

theorem evaluateSequenceLocks_iff : evaluateSequenceLocks chain lock = true ↔ Meets chain lock := by
  simp [evaluateSequenceLocks, Meets]

theorem meets_none (hne : chain ≠ []) : Meets chain (-1, -1) := by
  have hlength : 0 < chain.length := List.length_pos_of_ne_nil hne
  have htime : (0 : ℤ) ≤ medianTimePast chain := Int.natCast_nonneg _
  exact ⟨by dsimp only; omega, by dsimp only; omega⟩

theorem meets_lockInput (hne : chain' ≠ []) : Meets chain' (lockInput chain lock txin nHeight) ↔
    Meets chain' lock ∧ Meets chain' (lockInput chain (-1, -1) txin nHeight) := by
  obtain ⟨hheight, htime⟩ := meets_none hne
  rw [lockInput, lockInput]
  split
  · exact (and_iff_left (meets_none hne)).symm
  · split <;> simp only [Meets, max_lt_iff] <;> tauto

theorem meets_foldl (hne : chain' ≠ []) {l : List (CTxIn × ℕ)} :
    Meets chain' (l.foldl (fun lock e => lockInput chain lock e.1 e.2) lock) ↔
      Meets chain' lock ∧ ∀ e ∈ l, Meets chain' (lockInput chain (-1, -1) e.1 e.2) := by
  induction l generalizing lock with
  | nil => simp
  | cons e l ih => rw [List.foldl_cons, ih, meets_lockInput hne, List.forall_mem_cons, and_assoc]

theorem meets_calculate (hne : chain' ≠ []) {prevHeights : List ℕ} :
    Meets chain' (calculateSequenceLocks flags tx prevHeights chain).1 ↔
      (enforceBIP68 flags tx = true → ∀ e ∈ tx.vin.zip prevHeights,
        Meets chain' (lockInput chain (-1, -1) e.1 e.2)) := by
  rw [calculateSequenceLocks]
  split
  · rename_i henforce
    rw [meets_foldl hne, and_iff_right (meets_none hne)]
    exact ⟨fun h _ => h, fun h => h henforce⟩
  · rename_i henforce
    exact ⟨fun _ h => absurd h henforce, fun _ => meets_none hne⟩

theorem meets_of_new (h : Meets chain (lockInput chain (-1, -1) txin chain.length))
    (hne : chain' ≠ []) (hheight : nHeight ≤ chain'.length)
    (hmono : medianTimePast (getAncestor chain' (nHeight - 1)) ≤ medianTimePast chain') :
    Meets chain' (lockInput chain' (-1, -1) txin nHeight) := by
  obtain ⟨hlength, htime⟩ := meets_none hne
  rw [lockInput] at h ⊢
  split at h
  · rename_i hdisabled
    rw [if_pos hdisabled]
    exact meets_none hne
  · rename_i hdisabled
    rw [if_neg hdisabled]
    split at h
    · rename_i htype
      have htip : getAncestor chain (chain.length - 1) = chain := by
        rw [getAncestor, Nat.sub_eq_zero_of_le (by omega), List.drop_zero]
      rw [if_pos htype]
      simp only [Meets, htip, max_lt_iff] at h
      exact ⟨hlength, max_lt htime (by omega)⟩
    · rename_i htype
      rw [if_neg htype]
      simp only [Meets, max_lt_iff] at h
      exact ⟨max_lt hlength (by omega), htime⟩

theorem getAncestor_drop (h : nHeight < (chain.drop n).length) :
    getAncestor (chain.drop n) nHeight = getAncestor chain nHeight := by
  rw [List.length_drop] at h
  rw [getAncestor, getAncestor, List.drop_drop, List.length_drop]
  congr 1
  omega

theorem length_getAncestor (h : nHeight < chain.length) :
    (getAncestor chain nHeight).length = nHeight + 1 := by
  rw [getAncestor, List.length_drop]
  omega

end Locks

namespace LockNode

variable {s : LockNode} {flags : ℕ} {e : CTxMemPoolEntry} {o : COutPoint} {vin : List CTxIn}
  {prevheights : List ℕ}

theorem le_maxInputHeight {nHeight : ℕ} (h : nHeight ∈ prevheights)
    (hne : nHeight ≠ s.chainActive.length) : nHeight ≤ s.maxInputHeight prevheights := by
  have hfold : ∀ (l : List ℕ) (m : ℕ), m ≤ l.foldl max m ∧ ∀ n ∈ l, n ≤ l.foldl max m := by
    intro l
    induction l with
    | nil => exact fun m => ⟨le_rfl, fun _ hn => (nomatch hn)⟩
    | cons a l ih =>
      intro m
      obtain ⟨hle, hall⟩ := ih (max m a)
      refine ⟨(le_max_left m a).trans hle, ?_⟩
      exact List.forall_mem_cons.2 ⟨(le_max_right m a).trans hle, hall⟩
  exact (hfold _ 0).2 nHeight (List.mem_filter.2 ⟨h, decide_eq_true hne⟩)

theorem maxInputHeight_lt (hpos : 0 < s.chainActive.length)
    (h : ∀ n ∈ prevheights, n ≤ s.chainActive.length) :
    s.maxInputHeight prevheights < s.chainActive.length := by
  have hfold : ∀ (l : List ℕ) (m : ℕ), (∀ n ∈ l, n < s.chainActive.length) →
      m < s.chainActive.length → l.foldl max m < s.chainActive.length := by
    intro l
    induction l with
    | nil => exact fun _ _ hm => hm
    | cons a l ih =>
      intro m hl hm
      rw [List.forall_mem_cons] at hl
      exact ih _ hl.2 (max_lt hm hl.1)
  refine hfold _ 0 (fun n hn => ?_) hpos
  obtain ⟨hmem, hne⟩ := List.mem_filter.1 hn
  exact lt_of_le_of_ne (h n hmem) (of_decide_eq_true hne)

/-- Where the height of an input comes from: a transaction of the chain, or the mempool. -/
def HeightOf (chain : BlockChain) (o : COutPoint) (nHeight : ℕ) : Prop :=
  nHeight = chain.length ∨ ∃ tx, (nHeight, tx) ∈ history chain ∧ tx.creates o = true

theorem heightOf_getCoin {coin : Option ℕ × Bool} (h : s.getCoin o = some coin) :
    HeightOf s.chainActive o (coin.1.getD s.chainActive.length) := by
  rw [getCoin] at h
  split at h
  · split at h
    · cases h
      exact Or.inl rfl
    · cases h
  · obtain ⟨c, hc, rfl⟩ := Option.map_eq_some_iff.1 h
    exact Or.inr (mem_of_coinsOf hc)

theorem forall₂_prevHeights (h : s.prevHeights vin = some prevheights) :
    List.Forall₂ (fun txin nHeight => ∃ coin, s.getCoin txin.prevout = some coin ∧
      coin.1.getD s.chainActive.length = nHeight) vin prevheights := by
  induction vin generalizing prevheights with
  | nil =>
    cases h
    exact .nil
  | cons txin vin ih =>
    rw [prevHeights, List.mapM_cons] at h
    obtain ⟨nHeight, hhead, h⟩ := Option.bind_eq_some_iff.1 h
    obtain ⟨rest, hrest, h⟩ := Option.bind_eq_some_iff.1 h
    cases h
    exact .cons (Option.map_eq_some_iff.1 hhead) (ih hrest)

theorem prevHeights_isSome : (s.prevHeights vin).isSome = true ↔
    ∀ txin ∈ vin, (s.getCoin txin.prevout).isSome = true := by
  rw [prevHeights]
  induction vin with
  | nil => simp
  | cons txin vin ih =>
    rw [List.mapM_cons, List.forall_mem_cons, ← ih]
    cases s.getCoin txin.prevout with
    | none => simp
    | some coin => cases vin.mapM (m := Option) _ <;> simp

/-- The lock points of an entry are those of a chain whose next block meets them. -/
def Cached (flags : ℕ) (e : CTxMemPoolEntry) : Prop :=
  ∃ (s : LockNode) (prevheights : List ℕ), s.chainActive ≠ [] ∧
    List.Forall₂ (fun txin => HeightOf s.chainActive txin.prevout) e.tx.vin prevheights ∧
    Meets s.chainActive (calculateSequenceLocks flags e.tx prevheights s.chainActive).1 ∧
    e.lockPoints =
      ⟨(calculateSequenceLocks flags e.tx prevheights s.chainActive).1.1,
        (calculateSequenceLocks flags e.tx prevheights s.chainActive).1.2,
        some (getAncestor s.chainActive (s.maxInputHeight
          (calculateSequenceLocks flags e.tx prevheights s.chainActive).2))⟩

structure Sound (flags : ℕ) (s : LockNode) : Prop where
  connected : Connected (history s.chainActive)
  apart : ∀ e ∈ s.mapTx, ∀ b ∈ history s.chainActive, b.2.hash ≠ e.tx.hash
  cached : ∀ e ∈ s.mapTx, Cached flags e

theorem HeightOf.le {chain : BlockChain} {nHeight : ℕ} (h : HeightOf chain o nHeight) :
    nHeight ≤ chain.length := by
  rcases h with rfl | ⟨tx, hmem, -⟩
  · exact le_rfl
  · exact (lt_of_mem_history hmem).le

theorem Sound.getCoin_of_created (hs : Sound flags s) {b : ℕ × CTransaction}
    (hb : b ∈ history s.chainActive) (hcreates : b.2.creates o = true) {coin : Option ℕ × Bool}
    (hcoin : s.getCoin o = some coin) : coin.1 = some b.1 := by
  have hnone : s.find o.hash = none := by
    refine List.find?_eq_none.2 fun e he hhash => ?_
    exact hs.apart e he b hb ((hash_of_creates hcreates).trans (beq_iff_eq.1 hhash).symm)
  rw [getCoin, hnone] at hcoin
  obtain ⟨c, hc, rfl⟩ := Option.map_eq_some_iff.1 hcoin
  obtain ⟨tx, hmem, hcreates'⟩ := mem_of_coinsOf hc
  have hsame := hs.connected.eq_of_hash hb hmem
    ((hash_of_creates hcreates).trans (hash_of_creates hcreates').symm)
  rw [hsame]

theorem le_highest {t : LockNode} {tx : CTransaction} {heights : List ℕ}
    (henforce : enforceBIP68 flags tx = true) {txin : CTxIn} {nHeight : ℕ}
    (hmem : (txin, nHeight) ∈ tx.vin.zip heights) (hdisabled : txin.disabled = false)
    (hne : nHeight ≠ t.chainActive.length) : nHeight ≤ t.maxInputHeight
      (calculateSequenceLocks flags tx heights t.chainActive).2 := by
  refine le_maxInputHeight ?_ hne
  rw [calculateSequenceLocks, if_pos henforce]
  exact List.mem_map.2 ⟨_, hmem, if_neg (by rw [hdisabled]; exact Bool.false_ne_true)⟩

theorem highest_lt {t : LockNode} {tx : CTransaction} {heights : List ℕ} (ht : t.chainActive ≠ [])
    (hheights : ∀ n ∈ heights, n ≤ t.chainActive.length) : t.maxInputHeight
      (calculateSequenceLocks flags tx heights t.chainActive).2 < t.chainActive.length := by
  refine maxInputHeight_lt (List.length_pos_of_ne_nil ht) ?_
  rw [calculateSequenceLocks]
  split
  · intro n hn
    obtain ⟨e, he, rfl⟩ := List.mem_map.1 hn
    split
    · exact Nat.zero_le _
    · exact hheights _ (List.of_mem_zip he).2
  · exact hheights

/-- **Lock points that are valid stand for the ones computed anew.** -/
theorem Sound.meets_again (hs : Sound flags s) (he : e ∈ s.mapTx)
    (hmono : ∀ n < s.chainActive.length,
      medianTimePast (s.chainActive.drop n) ≤ medianTimePast s.chainActive)
    (hvalid : s.testLockPointValidity e.lockPoints = true)
    (hlocks : Meets s.chainActive (e.lockPoints.height, e.lockPoints.time))
    (hheights : s.prevHeights e.tx.vin = some prevheights) :
    Meets s.chainActive (calculateSequenceLocks flags e.tx prevheights s.chainActive).1 := by
  obtain ⟨t, heights, ht, hfrom, hmet, hlp⟩ := hs.cached e he
  obtain ⟨hlength, hzip⟩ := List.forall₂_iff_zip.1 hfrom
  have hbound : ∀ n ∈ heights, n ≤ t.chainActive.length := by
    intro n hn
    rw [← List.map_snd_zip hlength.ge] at hn
    obtain ⟨⟨txin, n⟩, hmem, rfl⟩ := List.mem_map.1 hn
    exact (hzip hmem).le
  rw [hlp] at hvalid hlocks
  set highest := t.maxInputHeight
    (calculateSequenceLocks flags e.tx heights t.chainActive).2 with hdef
  have hhighest : highest < t.chainActive.length := highest_lt ht hbound
  have hsame : getAncestor s.chainActive ((getAncestor t.chainActive highest).length - 1) =
      getAncestor t.chainActive highest := beq_iff_eq.1 hvalid
  rw [length_getAncestor hhighest, Nat.add_sub_cancel] at hsame
  have hlen : (getAncestor s.chainActive highest).length = highest + 1 := by
    rw [hsame, length_getAncestor hhighest]
  have hne : s.chainActive ≠ [] := by
    rintro hnil
    rw [hnil, getAncestor, List.drop_nil] at hlen
    cases hlen
  rw [meets_calculate hne] at hlocks ⊢
  rw [meets_calculate ht] at hmet
  intro henforce
  rintro ⟨txin, nHeight⟩ hmem
  obtain ⟨coin, hcoin, hheight⟩ := (List.forall₂_iff_zip.1 (forall₂_prevHeights hheights)).2 hmem
  dsimp only at hcoin hheight ⊢
  subst hheight
  have hin := (List.of_mem_zip hmem).1
  rw [← List.map_fst_zip hlength.le] at hin
  obtain ⟨⟨txin, n⟩, hold, rfl⟩ := List.mem_map.1 hin
  rcases hzip hold with hnew | ⟨tx, hcreated, hcreates⟩
  · -- The coin was in the mempool, so its lock time is zero.
    subst hnew
    refine meets_of_new (hmet henforce _ hold) hne (heightOf_getCoin hcoin).le (hmono _ ?_)
    have := List.length_pos_of_ne_nil hne
    omega
  · cases hdisabled : txin.disabled with
    | true =>
      rw [lockInput, if_pos hdisabled]
      exact meets_none hne
    | false =>
      -- The coin is one of the chain that both tips share.
      have hle : n ≤ highest := le_highest henforce hold hdisabled (lt_of_mem_history hcreated).ne
      have hshared : (n, tx) ∈ history (getAncestor t.chainActive highest) :=
        mem_history_drop.2 ⟨hcreated, by
          rw [← getAncestor, length_getAncestor hhighest]
          exact Nat.lt_succ_of_le hle⟩
      rw [← hsame] at hshared
      rw [hs.getCoin_of_created (mem_history_drop.1 hshared).1 hcreates hcoin]
      have hlow : n - 1 < highest + 1 := by omega
      have hancestor : getAncestor s.chainActive (n - 1) = getAncestor t.chainActive (n - 1) := by
        calc getAncestor s.chainActive (n - 1)
            = getAncestor (getAncestor s.chainActive highest) (n - 1) :=
              (getAncestor_drop (by rwa [← getAncestor, hlen])).symm
          _ = getAncestor (getAncestor t.chainActive highest) (n - 1) := by rw [hsame]
          _ = getAncestor t.chainActive (n - 1) :=
              getAncestor_drop (by rwa [← getAncestor, length_getAncestor hhighest])
      have hagain := hlocks henforce _ hold
      rw [lockInput, ← hancestor] at hagain
      exact hagain

/-! ## Runs -/

/-- Transactions of one hash that meet have the same inputs, and the genesis block stays. -/
def Apart (s : LockNode) : LockEvent → Prop
  | .accept tx _ => Wire.Apart (history s.chainActive) tx
  | .connectTip block _ => ∀ tx ∈ block.vtx, Wire.Apart (history (block :: s.chainActive)) tx
  | .disconnectTip => 1 < s.chainActive.length
  | _ => True

instance (s : LockNode) : ∀ event, Decidable (Apart s event)
  | .accept tx _ => inferInstanceAs (Decidable (∀ b ∈ history s.chainActive,
      b.2.hash = tx.hash → b.2.prevouts = tx.prevouts))
  | .connectTip block _ => inferInstanceAs (Decidable (∀ tx ∈ block.vtx,
      ∀ b ∈ history (block :: s.chainActive), b.2.hash = tx.hash → b.2.prevouts = tx.prevouts))
  | .disconnectTip => inferInstanceAs (Decidable (1 < s.chainActive.length))
  | .evict _ => isTrue trivial
  | .removeForReorg _ => isTrue trivial

theorem Sound.without (hs : Sound flags s) (hashes : List arith_uint256) :
    Sound flags (s.without hashes) where
  connected := hs.connected
  apart e he := hs.apart e (List.mem_filter.1 he).1
  cached e he := hs.cached e (List.mem_filter.1 he).1

theorem cached_of_check (hne : s.chainActive ≠ []) {tx : CTransaction} {lp : LockPoints}
    (h : (s.checkSequenceLocks flags tx lp false).1 = true) (spendsCoinbase : Bool) :
    Cached flags ⟨tx, (s.checkSequenceLocks flags tx lp false).2, spendsCoinbase⟩ := by
  rw [checkSequenceLocks, if_neg Bool.false_ne_true] at h ⊢
  cases hheights : s.prevHeights tx.vin with
  | none =>
    rw [hheights] at h
    cases h
  | some prevheights =>
    rw [hheights] at h
    refine ⟨s, prevheights, hne, ?_, evaluateSequenceLocks_iff.1 h, rfl⟩
    refine (forall₂_prevHeights hheights).imp fun txin nHeight hcoin => ?_
    obtain ⟨coin, hcoin, rfl⟩ := hcoin
    exact heightOf_getCoin hcoin

theorem passed_of_stays {checkFinalTx : CTransaction → Bool}
    (h : (s.visitForReorg flags checkFinalTx e).1 = false) :
    (s.checkSequenceLocks flags e.tx e.lockPoints (s.testLockPointValidity e.lockPoints)).1 =
        true ∧
      (s.visitForReorg flags checkFinalTx e).2 =
        if s.testLockPointValidity e.lockPoints then e
        else { e with lockPoints := (s.checkSequenceLocks flags e.tx e.lockPoints
          (s.testLockPointValidity e.lockPoints)).2 } := by
  rw [visitForReorg] at h ⊢
  dsimp only at h ⊢
  split at h
  · cases h
  · rename_i hfinal
    rw [if_neg hfinal]
    rw [Bool.or_eq_false_iff, Bool.not_eq_false'] at h
    exact ⟨h.1, rfl⟩

theorem Sound.visit (hs : Sound flags s) (hne : s.chainActive ≠ [])
    {checkFinalTx : CTransaction → Bool} (he : e ∈ s.mapTx)
    (hstays : (s.visitForReorg flags checkFinalTx e).1 = false) :
    Cached flags (s.visitForReorg flags checkFinalTx e).2 := by
  obtain ⟨hlocks, hlp⟩ := passed_of_stays hstays
  rw [hlp]
  cases hvalid : s.testLockPointValidity e.lockPoints with
  | true => exact hs.cached e he
  | false =>
    rw [hvalid] at hlocks
    exact cached_of_check hne hlocks e.spendsCoinbase

theorem visitForReorg_tx {checkFinalTx : CTransaction → Bool} :
    (s.visitForReorg flags checkFinalTx e).2.tx = e.tx := by
  rw [visitForReorg]
  dsimp only
  split
  · rfl
  · dsimp only
    split <;> rfl

theorem mem_removeForReorg {checkFinalTx : CTransaction → Bool}
    (he : e ∈ (s.removeForReorg flags checkFinalTx).mapTx) :
    ∃ e₀ ∈ s.mapTx, (s.visitForReorg flags checkFinalTx e₀).2 = e ∧
      (s.visitForReorg flags checkFinalTx e₀).1 = false := by
  obtain ⟨hmem, hkept⟩ := List.mem_filter.1 he
  obtain ⟨v, hv, rfl⟩ := List.mem_map.1 hmem
  obtain ⟨e₀, he₀, rfl⟩ := List.mem_map.1 hv
  refine ⟨e₀, he₀, rfl, Bool.eq_false_of_not_eq_true fun hgoes => ?_⟩
  have hstaged : ∀ (n : ℕ) (l : List arith_uint256), ∀ h ∈ l, h ∈ s.calculateDescendants n l := by
    intro n
    induction n with
    | zero => exact fun _ _ h => h
    | succ n ih => exact fun l h hh => ih _ h (List.mem_append_left _ hh)
  rw [Bool.not_eq_true', List.contains_eq_mem, decide_eq_false_iff_not] at hkept
  exact hkept (hstaged _ _ _ (List.mem_map.2 ⟨_, List.mem_filter.2 ⟨hv, hgoes⟩, rfl⟩))

theorem Sound.step {s' : LockNode} {event : LockEvent} (h : Sound flags s ∧ s.chainActive ≠ [])
    (happart : Apart s event) (hstep : (lockMachine flags).step s event = some s') :
    Sound flags s' ∧ s'.chainActive ≠ [] := by
  obtain ⟨hs, hne⟩ := h
  cases event with
  | accept tx passes =>
    simp only [lockMachine] at hstep
    split at hstep
    · rename_i hok
      simp only [Bool.and_eq_true, Bool.not_eq_true'] at hok
      obtain ⟨⟨⟨⟨-, htx⟩, hvin⟩, -⟩, hlocks⟩ := hok
      cases hstep
      refine ⟨⟨hs.connected, ?_, ?_⟩, hne⟩
      · refine List.forall_mem_append.2 ⟨hs.apart, List.forall_mem_singleton.2 ?_⟩
        refine hs.connected.fresh happart htx (by simpa [CTransaction.prevouts] using hvin) ?_
        intro o ho
        obtain ⟨txin, htxin, rfl⟩ := List.mem_map.1 ho
        have hcoin : (s.getCoin txin.prevout).isSome = true := by
          rw [checkSequenceLocks, if_neg Bool.false_ne_true] at hlocks
          refine prevHeights_isSome.1 (Option.isSome_iff_ne_none.2 fun hnone => ?_) txin htxin
          rw [hnone] at hlocks
          cases hlocks
        rw [getCoin] at hcoin
        cases hfind : s.find txin.prevout.hash with
        | none =>
          rw [hfind, Option.isSome_map] at hcoin
          exact Or.inl hcoin
        | some e =>
          have hhash : e.tx.hash = txin.prevout.hash := by simpa using List.find?_some hfind
          exact Or.inr fun b hb => hhash ▸ hs.apart e (List.mem_of_find?_eq_some hfind) b hb
      · exact List.forall_mem_append.2
          ⟨hs.cached, List.forall_mem_singleton.2 (cached_of_check hne hlocks _)⟩
    · cases hstep
  | connectTip block invalidated =>
    simp only [lockMachine] at hstep
    split at hstep
    · rename_i hconnects
      cases hstep
      refine ⟨⟨?_, fun e he b hb => ?_, fun e he => hs.cached e (List.mem_filter.1 he).1⟩,
        List.cons_ne_nil _ _⟩
      · exact hs.connected.connects hconnects fun b hb tx htx => happart tx htx b hb
      · obtain ⟨hmem, hkept⟩ := List.mem_filter.1 he
        rcases mem_history_cons.1 hb with ⟨-, htx⟩ | hb
        · intro hhash
          rw [← hhash] at hkept
          simp only [List.contains_eq_mem, List.mem_append,
            List.mem_map_of_mem (f := CTransaction.hash) htx] at hkept
          simp at hkept
        · exact hs.apart e hmem b hb
    · cases hstep
  | disconnectTip =>
    cases hstep
    cases hchain : s.chainActive with
    | nil => exact absurd hchain hne
    | cons block chain =>
      rw [Apart, hchain] at happart
      refine ⟨⟨?_, fun e he b hb => hs.apart e he b ?_, hs.cached⟩, ?_⟩
      · exact Connected.tail (hchain ▸ hs.connected)
      · rw [hchain]
        exact mem_history_cons.2 (Or.inr hb)
      · exact List.ne_nil_of_length_pos (Nat.lt_of_succ_lt_succ happart)
  | evict hashes =>
    cases hstep
    exact ⟨hs.without hashes, hne⟩
  | removeForReorg checkFinalTx =>
    cases hstep
    refine ⟨⟨hs.connected, fun e he => ?_, fun e he => ?_⟩, hne⟩
    · obtain ⟨e₀, he₀, rfl, -⟩ := mem_removeForReorg he
      rw [visitForReorg_tx]
      exact hs.apart e₀ he₀
    · obtain ⟨e₀, he₀, rfl, hstays⟩ := mem_removeForReorg he
      exact hs.visit hne he₀ hstays

theorem check_iff {tx : CTransaction} {lp : LockPoints} :
    (s.checkSequenceLocks flags tx lp false).1 = true ↔ ∃ prevheights,
      s.prevHeights tx.vin = some prevheights ∧
      Meets s.chainActive (calculateSequenceLocks flags tx prevheights s.chainActive).1 := by
  rw [checkSequenceLocks, if_neg Bool.false_ne_true]
  cases s.prevHeights tx.vin with
  | none => simp
  | some prevheights => simp [evaluateSequenceLocks_iff]

/-- **Lock points are sound** in every state of a mempool that starts empty, for the transactions
whose inputs have their coins, and for no others. -/
theorem lockPoints_exact {chain : BlockChain} {es : List LockEvent} (hne : chain ≠ [])
    (hchain : Connected (history chain)) (halong : (lockMachine flags).Along Apart ⟨chain, []⟩ es)
    (hexec : (lockMachine flags).exec ⟨chain, []⟩ es = some s)
    (hmono : ∀ n < s.chainActive.length,
      medianTimePast (s.chainActive.drop n) ≤ medianTimePast s.chainActive) :
    (∀ e ∈ s.mapTx, s.testLockPointValidity e.lockPoints = true →
      (s.checkSequenceLocks flags e.tx e.lockPoints true).1 = true →
      ((s.checkSequenceLocks flags e.tx e.lockPoints false).1 = true ↔
        ∀ o ∈ e.tx.prevouts, (s.getCoin o).isSome = true)) ∧
    ∀ checkFinalTx, ∀ e ∈ (s.removeForReorg flags checkFinalTx).mapTx,
      ((s.checkSequenceLocks flags e.tx e.lockPoints false).1 = true ↔
        ∀ o ∈ e.tx.prevouts, (s.getCoin o).isSome = true) := by
  have hsound : Sound flags s ∧ s.chainActive ≠ [] :=
    Machine.exec_invariant (I := fun s : LockNode => Sound flags s ∧ s.chainActive ≠ [])
      (fun _ _ _ h happart hstep => Sound.step h happart hstep)
      ⟨⟨hchain, List.forall_mem_nil _, List.forall_mem_nil _⟩, hne⟩ halong hexec
  have hcoins : ∀ tx lp, (s.checkSequenceLocks flags tx lp false).1 = true →
      ∀ o ∈ tx.prevouts, (s.getCoin o).isSome = true := by
    intro tx lp hlocks
    obtain ⟨prevheights, hheights, -⟩ := check_iff.1 hlocks
    exact List.forall_mem_map.2
      (prevHeights_isSome.1 (Option.isSome_iff_exists.2 ⟨prevheights, hheights⟩))
  have hagain : ∀ e ∈ s.mapTx, s.testLockPointValidity e.lockPoints = true →
      (s.checkSequenceLocks flags e.tx e.lockPoints true).1 = true →
      ((s.checkSequenceLocks flags e.tx e.lockPoints false).1 = true ↔
        ∀ o ∈ e.tx.prevouts, (s.getCoin o).isSome = true) := by
    intro e he hvalid hlocks
    refine ⟨hcoins _ _, fun hin => check_iff.2 ?_⟩
    obtain ⟨prevheights, hheights⟩ :=
      Option.isSome_iff_exists.1 (prevHeights_isSome.2 (List.forall_mem_map.1 hin))
    exact ⟨prevheights, hheights,
      hsound.1.meets_again he hmono hvalid (evaluateSequenceLocks_iff.1 hlocks) hheights⟩
  refine ⟨hagain, fun checkFinalTx e he => ?_⟩
  obtain ⟨e₀, he₀, rfl, hstays⟩ := mem_removeForReorg he
  obtain ⟨hlocks, hlp⟩ := passed_of_stays hstays
  cases hvalid : s.testLockPointValidity e₀.lockPoints with
  | true =>
    rw [hvalid] at hlocks
    rw [hlp, hvalid]
    exact hagain e₀ he₀ hvalid hlocks
  | false =>
    rw [hvalid] at hlocks
    rw [visitForReorg_tx]
    exact ⟨fun _ => hcoins _ _ hlocks, fun _ => check_iff.2 (check_iff.1 hlocks)⟩

end LockNode

/-! ### A child that has lost its input -/

def coinbaseOf (hash : arith_uint256) : CTransaction where
  nVersion := 1
  vin := [⟨⟨0, 0xFFFFFFFF⟩, [], 0xFFFFFFFF, []⟩]
  vout := [⟨5000, [0x51]⟩]
  nLockTime := 0
  hash := hash

def coinbaseBlock (hash : arith_uint256) : IndexedBlock :=
  ⟨{ CBlockIndex.null with nTime := 100 + hash.toNat.toUInt32 }, [coinbaseOf hash]⟩

def spending (hash prevout : arith_uint256) : CTransaction where
  nVersion := 2
  vin := [⟨⟨prevout, 0⟩, [], 0, []⟩]
  vout := [⟨5000, [0x51]⟩]
  nLockTime := 0
  hash := hash

def matureChain : BlockChain :=
  ((List.range 101).map fun n => coinbaseBlock (n + 1)).reverse ++
    [⟨CBlockIndex.null, []⟩]

/-- The parent goes with a block that has invalidated it, and the block in a reorganisation. -/
def lostInput : List LockEvent :=
  [.accept (spending 1001 1) true, .accept (spending 1002 1001) true,
    .connectTip ⟨CBlockIndex.null, [coinbaseOf 501, spending 2001 2]⟩ [1001], .disconnectTip,
    .connectTip (coinbaseBlock 601) [], .connectTip (coinbaseBlock 602) [],
    .accept (spending 2001 2) true]

/-- It waits until the coin that it spends is `nSequence` blocks deep. -/
def waiting (hash prevout : arith_uint256) (nSequence : UInt32) : CTransaction :=
  { spending hash prevout with vin := [⟨⟨prevout, 0⟩, [], nSequence, []⟩] }

/-- Two children of a transaction are accepted once a block has confirmed it, and a reorganisation
brings it back: one of them must wait again. -/
def waitingRun : List LockEvent :=
  ((List.range 101).map fun n => .connectTip (coinbaseBlock (n + 1)) []) ++
    [.accept (waiting 1001 1 101) true, .accept (spending 1002 1001) true,
      .connectTip { coinbaseBlock 501 with vtx := [coinbaseOf 501, spending 2001 2] } [],
      .accept (spending 1003 2001) true, .accept (waiting 1004 2001 1) true, .disconnectTip,
      .connectTip (coinbaseBlock 601) [], .connectTip (coinbaseBlock 602) [],
      .accept (spending 2001 2) true, .removeForReorg fun _ => true]

/-- What was accepted at height 101 is checked again at height 103. -/
theorem lockPoints_waiting : ∃ s, (lockMachine 3).exec ⟨[⟨CBlockIndex.null, []⟩], []⟩ waitingRun =
      some s ∧ s.chainActive.length = 104 ∧
    s.mapTx.map (fun e => (e.tx.hash, e.lockPoints.height, s.testLockPointValidity e.lockPoints)) =
      [(1001, 101, true), (1002, 101, true), (1003, 103, true), (2001, 1, true)] ∧
    (∀ e ∈ s.mapTx, s.testLockPointValidity e.lockPoints = true →
      (s.checkSequenceLocks 3 e.tx e.lockPoints true).1 = true →
      ((s.checkSequenceLocks 3 e.tx e.lockPoints false).1 = true ↔
        ∀ o ∈ e.tx.prevouts, (s.getCoin o).isSome = true)) ∧
    ∀ checkFinalTx, ∀ e ∈ (s.removeForReorg 3 checkFinalTx).mapTx,
      ((s.checkSequenceLocks 3 e.tx e.lockPoints false).1 = true ↔
        ∀ o ∈ e.tx.prevouts, (s.getCoin o).isSome = true) := by
  have hrun : ((lockMachine 3).exec ⟨[⟨CBlockIndex.null, []⟩], []⟩ waitingRun).map (fun s =>
      (s.chainActive.length,
        s.mapTx.map fun e => (e.tx.hash, e.lockPoints.height, s.testLockPointValidity e.lockPoints),
        decide (∀ n < s.chainActive.length,
          medianTimePast (s.chainActive.drop n) ≤ medianTimePast s.chainActive))) =
      some (104, [(1001, 101, true), (1002, 101, true), (1003, 103, true), (2001, 1, true)],
      true) := by
    decide +kernel
  have hapart : (lockMachine 3).tests (fun s event => decide (LockNode.Apart s event))
      ⟨[⟨CBlockIndex.null, []⟩], []⟩ waitingRun = true := by
    decide +kernel
  obtain ⟨s, hexec, hresult⟩ := Option.map_eq_some_iff.1 hrun
  obtain ⟨hlength, hresult⟩ := Prod.mk.inj hresult
  obtain ⟨hpoints, hmono⟩ := Prod.mk.inj hresult
  refine ⟨s, hexec, hlength, hpoints, LockNode.lockPoints_exact (List.cons_ne_nil _ _) ?_ ?_ hexec
    (of_decide_eq_true hmono)⟩
  · trivial
  · exact Machine.Along.of_tests (fun _ _ => of_decide_eq_true) hapart

/-- The child stays, and `CheckSequenceLocks` has no coin for its input. -/
theorem lockPoints_orphan : ∃ s, (lockMachine 3).exec ⟨matureChain, []⟩ lostInput = some s ∧
    (∃ e ∈ s.mapTx, s.testLockPointValidity e.lockPoints = true ∧
      (s.checkSequenceLocks 3 e.tx e.lockPoints true).1 = true ∧
      (s.checkSequenceLocks 3 e.tx e.lockPoints false).1 = false) ∧
    ∃ e ∈ (s.removeForReorg 3 fun _ => true).mapTx,
      (s.checkSequenceLocks 3 e.tx e.lockPoints false).1 = false := by
  have hrun : ((lockMachine 3).exec ⟨matureChain, []⟩ lostInput).map (fun s =>
      (s.mapTx.any fun e => s.testLockPointValidity e.lockPoints &&
          ((s.checkSequenceLocks 3 e.tx e.lockPoints true).1 &&
            !(s.checkSequenceLocks 3 e.tx e.lockPoints false).1),
        (s.removeForReorg 3 fun _ => true).mapTx.any fun e =>
          !(s.checkSequenceLocks 3 e.tx e.lockPoints false).1)) = some (true, true) := by
    decide +kernel
  obtain ⟨s, hexec, hresult⟩ := Option.map_eq_some_iff.1 hrun
  refine ⟨s, hexec, ?_⟩
  simpa only [Prod.mk.injEq, List.any_eq_true, Bool.and_eq_true, Bool.not_eq_true'] using hresult

end Wire

end UnemployCoin
