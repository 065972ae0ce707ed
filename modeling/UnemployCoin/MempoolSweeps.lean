import UnemployCoin.MempoolNames
import UnemployCoin.Lib.Worklist
/-!
# Transactions that leave the mempool

Most ways out of the mempool take a transaction together with its descendants.  A transaction that
is confirmed goes **alone**, and so does one that `removeForBlock` evicts.  A sweep is a sequence of
such removals, and what stays after it depends only on which transactions may go alone.
-/

namespace UnemployCoin

open StdMap

def CTransaction.outpoints (tx : CTransaction) : List COutPoint := tx.outputs.map Prod.fst

theorem hash_of_mem_outpoints {tx : CTransaction} {o : COutPoint} (h : o ∈ tx.outpoints) :
    o.hash = tx.hash := by
  rw [CTransaction.outpoints, CTransaction.outputs, List.map_map] at h
  obtain ⟨e, -, rfl⟩ := List.mem_map.1 h
  rfl

namespace CTxMemPool

variable {pool pool' pool₁ : CTxMemPool} {hash child : uint256} {tx : CTransaction}
  {stage roots : List uint256} {single single' : uint256 → Prop} {o : COutPoint}

def Keyed (pool : CTxMemPool) : Prop := ∀ hash tx, pool.mapTx.find? hash = some tx → tx.hash = hash

def Apart (pool : CTxMemPool) : Prop :=
  ∀ hash tx hash' tx', pool.mapTx.find? hash = some tx → pool.mapTx.find? hash' = some tx' →
    ∀ txin ∈ tx.vin, ∀ txin' ∈ tx'.vin, txin.prevout = txin'.prevout → hash = hash'

/-! ## The transactions -/

theorem mem_txs : tx ∈ pool.txs ↔ ∃ hash, pool.mapTx.find? hash = some tx := by
  rw [txs, List.mem_map]
  constructor
  · rintro ⟨e, hmem, rfl⟩
    exact ⟨e.1, mem_entries.1 hmem⟩
  · rintro ⟨hash, hfind⟩
    exact ⟨(hash, tx), mem_entries.2 hfind, rfl⟩

theorem mem_children (hkeyed : pool.Keyed) : child ∈ pool.children hash ↔
    ∃ tx, pool.mapTx.find? child = some tx ∧ ∃ txin ∈ tx.vin, txin.prevout.hash = hash := by
  rw [children, List.mem_map]
  simp only [List.mem_filter, List.any_eq_true, beq_iff_eq]
  constructor
  · rintro ⟨tx, ⟨hmem, hspends⟩, rfl⟩
    obtain ⟨hash', hfind⟩ := mem_txs.1 hmem
    refine ⟨tx, ?_, hspends⟩
    rw [hkeyed hash' tx hfind]
    exact hfind
  · rintro ⟨tx, hfind, hspends⟩
    exact ⟨tx, ⟨mem_txs.2 ⟨child, hfind⟩, hspends⟩, hkeyed child tx hfind⟩

theorem live_of_mem_children (hkeyed : pool.Keyed) (h : child ∈ pool.children hash) :
    pool.Live child := by
  obtain ⟨tx, hfind, -⟩ := (mem_children hkeyed).1 h
  exact count_of_find? hfind

theorem nextTx_some (hkeyed : pool.Keyed) (h : pool.nextTx o = some tx) :
    pool.mapTx.find? tx.hash = some tx ∧ ∃ txin ∈ tx.vin, txin.prevout = o := by
  rw [nextTx] at h
  obtain ⟨hash, hfind⟩ := mem_txs.1 (List.mem_of_find?_eq_some h)
  have hspends := List.find?_some h
  rw [List.any_eq_true] at hspends
  obtain ⟨txin, hmem, heq⟩ := hspends
  refine ⟨?_, txin, hmem, beq_iff_eq.1 heq⟩
  rw [hkeyed hash tx hfind]
  exact hfind

theorem nextTx_none (h : pool.nextTx o = none) (hfind : pool.mapTx.find? hash = some tx) :
    ∀ txin ∈ tx.vin, txin.prevout ≠ o := by
  intro txin hmem heq
  have hnone := List.find?_eq_none.1 h tx (mem_txs.2 ⟨hash, hfind⟩)
  rw [List.any_eq_true, not_exists] at hnone
  exact hnone txin ⟨hmem, beq_iff_eq.2 heq⟩

theorem nextTx_of_spends (hkeyed : pool.Keyed) (hapart : pool.Apart)
    (hfind : pool.mapTx.find? hash = some tx) {txin : CTxIn} (hmem : txin ∈ tx.vin) :
    ∃ tx', pool.nextTx txin.prevout = some tx' ∧ tx'.hash = hash := by
  cases hnext : pool.nextTx txin.prevout with
  | none => exact absurd rfl (nextTx_none hnext hfind txin hmem)
  | some tx' =>
    obtain ⟨hfind', txin', hmem', heq⟩ := nextTx_some hkeyed hnext
    exact ⟨tx', rfl, hapart tx'.hash tx' hash tx hfind' hfind txin' hmem' txin hmem heq⟩

theorem walkDescendants_eq (n : ℕ) (stage setDescendants : List uint256) :
    pool.walkDescendants n stage setDescendants =
      Worklist.walk pool.children n stage setDescendants := by
  induction n generalizing stage setDescendants with
  | zero => rw [walkDescendants, Worklist.walk]
  | succ n ih =>
    cases stage with
    | nil =>
      rw [walkDescendants, Worklist.walk]
      all_goals exact Nat.succ_ne_zero n
    | cons it stage =>
      rw [walkDescendants, Worklist.walk]
      exact ih _ _

theorem calculateDescendants_eq :
    pool.calculateDescendants = Worklist.walkFrom pool.children pool.mapTx.size := by
  funext setDescendants entry
  rw [calculateDescendants, Worklist.walkFrom, walkDescendants_eq]

/-- **`CalculateDescendants` collects all descendants** of some transactions, and no others. -/
theorem descendants_closed (hkeyed : pool.Keyed) (hroots : ∀ hash ∈ roots, pool.Live hash) :
    Worklist.Closed pool.children (roots.foldl pool.calculateDescendants []) ∧
      (∀ hash ∈ roots, hash ∈ roots.foldl pool.calculateDescendants []) := by
  rw [calculateDescendants_eq]
  obtain ⟨hclosed, hmem, -⟩ := @Worklist.foldl_walkFrom_closed _ pool.children _ pool.mapTx.size []
    pool.mapTx.keys roots (fun hash _ child hchild =>
      mem_keys.2 (live_of_mem_children hkeyed hchild))
    (fun hash hmem => mem_keys.2 (hroots hash hmem)) (fun _ hmem => nomatch hmem)
    List.nodup_nil Worklist.Closed.nil (le_of_eq (size_eq_keys pool.mapTx).symm)
  exact ⟨hclosed, fun hash hroot => hmem hash (Or.inr hroot)⟩

/-! ## Sweeps -/

/-- Removals that take each transaction with its descendants, or one that may go alone. -/
inductive Swept (single : uint256 → Prop) (pool : CTxMemPool) : CTxMemPool → Prop
  | refl : Swept single pool pool
  | step {pool' : CTxMemPool} {stage : List uint256} : Swept single pool pool' →
      (∀ hash ∈ stage, single hash ∨ ∀ child ∈ pool'.children hash, child ∈ stage) →
        Swept single pool (pool'.removeStaged stage)

theorem Swept.trans (h : Swept single pool pool₁) (h' : Swept single pool₁ pool') :
    Swept single pool pool' := by
  induction h' with
  | refl => exact h
  | step _ hstage ih => exact ih.step hstage

theorem Swept.find? (h : Swept single pool pool') (hfind : pool'.mapTx.find? hash = some tx) :
    pool.mapTx.find? hash = some tx := by
  induction h with
  | refl => exact hfind
  | step _ _ ih => exact ih (find?_removeStaged hfind)

theorem Swept.keyed (h : Swept single pool pool') (hkeyed : pool.Keyed) : pool'.Keyed :=
  fun hash tx hfind => hkeyed hash tx (h.find? hfind)

theorem Swept.apart (h : Swept single pool pool') (hapart : pool.Apart) : pool'.Apart :=
  fun hash tx hash' tx' hfind hfind' => hapart hash tx hash' tx' (h.find? hfind) (h.find? hfind')

theorem removeWithDescendants_swept (hkeyed : pool.Keyed)
    (hroots : ∀ hash ∈ roots, pool.Live hash) :
    Swept single pool (pool.removeWithDescendants roots) := by
  refine Swept.refl.step fun hash hmem => Or.inr ?_
  exact (descendants_closed hkeyed hroots).1 hash hmem

theorem live_of_recursive_roots (hkeyed : pool.Keyed) (origTx : CTransaction) :
    ∀ hash ∈ (if pool.mapTx.count origTx.hash then [origTx.hash]
      else origTx.outputs.filterMap fun e => (pool.nextTx e.1).map CTransaction.hash),
      pool.Live hash := by
  intro hash hmem
  split at hmem
  · rename_i hcount
    rw [List.mem_singleton.1 hmem]
    exact hcount
  · obtain ⟨e, -, hnext⟩ := List.mem_filterMap.1 hmem
    obtain ⟨tx, hspender, rfl⟩ := Option.map_eq_some_iff.1 hnext
    exact count_of_find? (nextTx_some hkeyed hspender).1

theorem removeRecursive_swept (hkeyed : pool.Keyed) (origTx : CTransaction) :
    Swept single pool (pool.removeRecursive origTx) :=
  removeWithDescendants_swept hkeyed (live_of_recursive_roots hkeyed origTx)

theorem removeConflict_swept (hkeyed : pool.Keyed) (tx : CTransaction) (txin : CTxIn) :
    Swept single pool (removeConflict tx pool txin) := by
  rw [removeConflict]
  split
  · split
    · exact .refl
    · exact removeRecursive_swept hkeyed _
  · exact .refl

theorem foldl_removeConflict_swept (hkeyed : pool.Keyed) (tx : CTransaction) (vin : List CTxIn) :
    Swept single pool (vin.foldl (removeConflict tx) pool) := by
  induction vin generalizing pool with
  | nil => exact .refl
  | cons txin vin ih =>
    have hfirst : Swept single pool (removeConflict tx pool txin) :=
      removeConflict_swept hkeyed tx txin
    exact hfirst.trans (ih (hfirst.keyed hkeyed))

theorem removeAlone_swept (tx : CTransaction) (hsingle : single tx.hash) : Swept single pool
    (if pool.mapTx.count tx.hash then pool.removeStaged [tx.hash] else pool) := by
  split
  · refine Swept.refl.step fun hash hmem => Or.inl ?_
    rw [List.mem_singleton.1 hmem]
    exact hsingle
  · exact .refl

theorem removeForTx_swept (hkeyed : pool.Keyed) (tx : CTransaction) (hsingle : single tx.hash) :
    Swept single pool (removeForTx pool tx) := by
  have halone : Swept single pool _ := removeAlone_swept tx hsingle
  exact halone.trans (foldl_removeConflict_swept (halone.keyed hkeyed) tx tx.vin)

theorem foldl_removeForTx_swept {vtx : List CTransaction} (hkeyed : pool.Keyed)
    (hsingle : ∀ tx ∈ vtx, single tx.hash) : Swept single pool (vtx.foldl removeForTx pool) := by
  induction vtx generalizing pool with
  | nil => exact .refl
  | cons tx vtx ih =>
    rw [List.forall_mem_cons] at hsingle
    have hfirst := removeForTx_swept hkeyed tx hsingle.1
    exact hfirst.trans (ih (hfirst.keyed hkeyed) hsingle.2)

/-! ## What stays -/

def Makes (pool : CTxMemPool) (hash : uint256) (o : COutPoint) : Prop :=
  ∃ hash' tx', hash' ≠ hash ∧ pool.mapTx.find? hash' = some tx' ∧ o ∈ tx'.outpoints

/-- Every input is an outpoint of `source`, or another transaction of the mempool makes it; but
the transactions that are `leaving` do not matter. -/
def Fed (source : COutPoint → Prop) (leaving : uint256 → Prop) (pool : CTxMemPool) : Prop :=
  ∀ hash tx, pool.mapTx.find? hash = some tx → ¬leaving hash → ∀ txin ∈ tx.vin,
    source txin.prevout ∨ pool.Makes hash txin.prevout

variable {source source' : COutPoint → Prop} {leaving leaving' : uint256 → Prop}

theorem Fed.mono (h : pool.Fed source leaving) (hsource : ∀ o, source o → source' o)
    (hleaving : ∀ hash, leaving hash → leaving' hash) : pool.Fed source' leaving' :=
  fun hash tx hfind hstays txin hmem =>
    (h hash tx hfind (fun hl => hstays (hleaving hash hl)) txin hmem).imp_left (hsource _)

theorem Fed.congr (h : pool.Fed source leaving) (hmap : pool'.mapTx = pool.mapTx) :
    pool'.Fed source leaving := by
  intro hash tx hfind hstays txin hmem
  rw [hmap] at hfind
  refine (h hash tx hfind hstays txin hmem).imp_right ?_
  rintro ⟨hash', tx', hne, hfind', ho⟩
  rw [← hmap] at hfind'
  exact ⟨hash', tx', hne, hfind', ho⟩

/-- **What stays after a sweep is fed**, where the outputs of what goes alone are in `source`, or
spent by what is leaving only. -/
theorem Swept.fed (hswept : Swept single pool pool') (hkeyed : pool.Keyed)
    (h : pool.Fed source leaving)
    (halone : ∀ hash tx, single hash → pool.mapTx.find? hash = some tx → ∀ child tx',
      pool.mapTx.find? child = some tx' → ¬leaving child → ∀ txin ∈ tx'.vin,
        txin.prevout ∈ tx.outpoints → source txin.prevout) :
    pool'.Fed source leaving := by
  induction hswept with
  | refl => exact h
  | @step pool₁ stage hswept hstage ih =>
    intro child tx hfind hstays txin hmem
    have hbefore := find?_removeStaged hfind
    rcases ih child tx hbefore hstays txin hmem with hsource | ⟨hash', tx', hne, hfind', ho⟩
    · exact Or.inl hsource
    · by_cases hgone : hash' ∈ stage
      · rcases hstage hash' hgone with hsingle | hclosed
        · exact Or.inl (halone hash' tx' hsingle (hswept.find? hfind') child tx
            (hswept.find? hbefore) hstays txin hmem ho)
        · -- A child of what goes with its descendants goes as well.
          have hchild := hclosed child ((mem_children (hswept.keyed hkeyed)).2
            ⟨tx, hbefore, txin, hmem, by
              rw [hash_of_mem_outpoints ho, hswept.keyed hkeyed hash' tx' hfind']⟩)
          rw [mapTx_removeStaged, if_pos hchild] at hfind
          cases hfind
      · refine Or.inr ⟨hash', tx', hne, ?_, ho⟩
        rw [mapTx_removeStaged, if_neg hgone]
        exact hfind'

/-- **A transaction that goes with its descendants** leaves no child behind but one that may go
alone. -/
theorem Swept.gone (hswept : Swept single pool pool') (hkeyed : pool.Keyed) (hlive : pool.Live hash)
    (hgone : ¬pool'.Live hash) (hnot : ¬single hash) (hchild : child ∈ pool.children hash) :
    ¬pool'.Live child := by
  induction hswept with
  | refl => exact absurd hlive hgone
  | @step pool₁ stage hswept hstage ih =>
    intro hlive'
    obtain ⟨tx, hfind⟩ := count_eq_true.1 hlive'
    have hbefore := find?_removeStaged hfind
    by_cases hlive₁ : pool₁.Live hash
    · have hmem : hash ∈ stage := by
        by_contra hmem
        obtain ⟨tx', hfind'⟩ := count_eq_true.1 hlive₁
        refine hgone (count_of_find? (v := tx') ?_)
        rw [mapTx_removeStaged, if_neg hmem]
        exact hfind'
      rcases hstage hash hmem with hsingle | hclosed
      · exact hnot hsingle
      · obtain ⟨tx₀, hfind₀, hspends⟩ := (mem_children hkeyed).1 hchild
        cases hfind₀.symm.trans (hswept.find? hbefore)
        have hmem' := hclosed child ((mem_children (hswept.keyed hkeyed)).2 ⟨tx, hbefore, hspends⟩)
        rw [mapTx_removeStaged, if_pos hmem'] at hfind
        cases hfind
    · exact ih hlive₁ (count_of_find? hbefore)

theorem removeConflict_spends (hkeyed : pool.Keyed) (hapart : pool.Apart) {tx' : CTransaction}
    {txin txin' : CTxIn} (hfind : (removeConflict tx pool txin).mapTx.find? hash = some tx')
    (hmem : txin' ∈ tx'.vin) (heq : txin'.prevout = txin.prevout) : hash = tx.hash := by
  have hswept : Swept (fun _ => False) pool (removeConflict tx pool txin) :=
    removeConflict_swept hkeyed tx txin
  have hbefore := hswept.find? hfind
  obtain ⟨txConflict, hnext, hhash⟩ := nextTx_of_spends hkeyed hapart hbefore hmem
  rw [heq] at hnext
  rw [removeConflict, hnext] at hfind
  simp only at hfind
  split at hfind
  · rename_i hsame
    rw [← hhash]
    exact hsame
  · have hcount : pool.mapTx.count txConflict.hash = true := by
      rw [hhash]
      exact count_of_find? hbefore
    have hroots : ∀ hash' ∈ [txConflict.hash], pool.Live hash' := by
      intro hash' hmem'
      rw [List.mem_singleton.1 hmem']
      exact hcount
    have hstage := (descendants_closed hkeyed hroots).2 hash
      (List.mem_singleton.2 hhash.symm)
    rw [removeRecursive, if_pos hcount, removeWithDescendants, mapTx_removeStaged,
      if_pos hstage] at hfind
    cases hfind

theorem foldl_removeConflict_spends (hkeyed : pool.Keyed) (hapart : pool.Apart) {tx' : CTransaction}
    {vin : List CTxIn} {txin txin' : CTxIn} (hin : txin ∈ vin)
    (hfind : (vin.foldl (removeConflict tx) pool).mapTx.find? hash = some tx')
    (hmem : txin' ∈ tx'.vin) (heq : txin'.prevout = txin.prevout) : hash = tx.hash := by
  induction vin generalizing pool with
  | nil => cases hin
  | cons txin₀ vin ih =>
    have hfirst : Swept (fun _ => False) pool (removeConflict tx pool txin₀) :=
      removeConflict_swept hkeyed tx txin₀
    rw [List.foldl_cons] at hfind
    rcases List.mem_cons.1 hin with rfl | hin
    · have hrest : Swept (fun _ => False) _ _ :=
        foldl_removeConflict_swept (hfirst.keyed hkeyed) tx vin
      exact removeConflict_spends hkeyed hapart (hrest.find? hfind) hmem heq
    · exact ih (hfirst.keyed hkeyed) (hfirst.apart hapart) hin hfind

/-- **After a block** no transaction spends what a transaction of the block spends. -/
theorem foldl_removeForTx_spends (hkeyed : pool.Keyed) (hapart : pool.Apart)
    {vtx : List CTransaction} {b tx' : CTransaction} {txin txin' : CTxIn} (hb : b ∈ vtx)
    (hin : txin ∈ b.vin) (hfind : (vtx.foldl removeForTx pool).mapTx.find? hash = some tx')
    (hmem : txin' ∈ tx'.vin) : txin'.prevout ≠ txin.prevout := by
  intro heq
  have hgone : ¬(vtx.foldl removeForTx pool).Live b.hash := not_live_of_foldl_removeForTx hb
  suffices hhash : hash = b.hash by
    rw [← hhash] at hgone
    exact hgone (count_of_find? hfind)
  induction vtx generalizing pool with
  | nil => cases hb
  | cons tx vtx ih =>
    have hfirst : Swept (fun _ => True) pool (removeForTx pool tx) :=
      removeForTx_swept hkeyed tx trivial
    rcases List.mem_cons.1 hb with rfl | hb
    · have hrest : Swept (fun _ => True) _ (vtx.foldl removeForTx (removeForTx pool b)) :=
        foldl_removeForTx_swept (hfirst.keyed hkeyed) fun _ _ => trivial
      have halone : Swept (fun _ => True) pool _ := removeAlone_swept b trivial
      exact foldl_removeConflict_spends (halone.keyed hkeyed) (halone.apart hapart) hin
        (hrest.find? hfind) hmem heq
    · exact ih (hfirst.keyed hkeyed) (hfirst.apart hapart) hb hfind
        (not_live_of_foldl_removeForTx hb)

end CTxMemPool

end UnemployCoin
