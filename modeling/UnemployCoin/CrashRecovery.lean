import UnemployCoin.CoinbaseHeight
import UnemployCoin.ReplayBlocks
/-!
# Recovering the coins after a crash

A process that ends inside `BatchWrite` (`txdb.cpp`) leaves a coin database with some of the changes
from one tip to another.  `ReplayBlocks` makes of it **the coins of the new tip**.
-/

namespace UnemployCoin

open Check

/-! ## The coins of a chain -/

/-- The block is undone from what `ConnectBlock` wrote. -/
inductive UtxoOf (env : Env) (tree : BlockTree) : List uint256 → CCoinsView → Prop
  | null : UtxoOf env tree [] ∅
  /-- The outputs of the genesis block are in no view. -/
  | genesis : UtxoOf env tree [env.params.hashGenesisBlock] ∅
  /-- `nHeight` is an `int`. -/
  | block {hash : uint256} {chain : List uint256} {v : CCoinsView} {ctx : TipContext}
      {st : AssetState} {cache : CAssetsCache} {s : ConnectState}
      (below : UtxoOf env tree chain v) (hbelow : chain ≠ []) (hheight : chain.length < 2 ^ 31)
      (hhash : (tree.readBlock hash).hash = hash) (hgenesis : hash ≠ env.params.hashGenesisBlock)
      (hcoinbase : checkCoinbaseHeight chain.length (tree.readBlock hash) = .ok ())
      (hconnect : connectBlock (env.withTip ctx) st ⟨ctx.rules, chain.length, ctx.mempool⟩
        (tree.readBlock hash) v cache = .ok s)
      (hundo : tree.readUndo hash = s.vtxundo) : UtxoOf env tree (hash :: chain) s.view

/-- What connecting a block on a chain has shown. -/
structure Connected (env : Env) (tree : BlockTree) (hash : uint256) (chain : List uint256)
    (v w : CCoinsView) : Prop where
  below : UtxoOf env tree chain v
  nonempty : 0 < chain.length
  height : chain.length < 2 ^ 31
  coinbase : checkCoinbaseHeight chain.length (tree.readBlock hash) = .ok ()
  first : (tree.readBlock hash).CoinbaseFirst
  coins : ∃ env' : Env, v.updateAll env' chain.length (tree.readBlock hash).vtx =
    .ok (w, tree.readUndo hash)

variable {env env' : Env} {tree : BlockTree} {chain fork old new : List uint256}
  {v w d : CCoinsView} {hash : uint256}

theorem UtxoOf.cons_inv (h : UtxoOf env tree (hash :: chain) w) :
    (chain = [] ∧ w = ∅ ∧ hash = env.params.hashGenesisBlock) ∨
      ∃ v, Connected env tree hash chain v w := by
  cases h with
  | genesis => exact Or.inl ⟨rfl, rfl, rfl⟩
  | @block _ _ v ctx _ _ s below hbelow hheight hhash hgenesis hcoinbase hconnect hundo =>
    obtain ⟨hfirst, hcoins⟩ := updateAll_of_connectBlock (by rwa [hhash]) hconnect
    rw [← hundo] at hcoins
    exact Or.inr ⟨v, below, List.length_pos_iff.2 hbelow, hheight, hcoinbase, hfirst, _, hcoins⟩

theorem UtxoOf.nil_inv (h : UtxoOf env tree [] w) : w = ∅ := by
  cases h
  rfl

/-- **The coins of a chain are determined.** -/
theorem UtxoOf.unique (hv : UtxoOf env tree chain v) (hw : UtxoOf env tree chain w) :
    v.find? = w.find? := by
  induction chain generalizing v w with
  | nil => rw [hv.nil_inv, hw.nil_inv]
  | cons hash chain ih =>
    rcases hv.cons_inv with ⟨hnil, hempty, -⟩ | ⟨v₀, hblock⟩
    · rcases hw.cons_inv with ⟨-, hempty', -⟩ | ⟨w₀, hblock'⟩
      · rw [hempty, hempty']
      · exact absurd hblock'.nonempty (by rw [hnil]; exact Nat.lt_irrefl 0)
    · rcases hw.cons_inv with ⟨hnil, -, -⟩ | ⟨w₀, hblock'⟩
      · exact absurd hblock.nonempty (by rw [hnil]; exact Nat.lt_irrefl 0)
      · obtain ⟨env₁, hcoins⟩ := hblock.coins
        obtain ⟨env₂, hcoins'⟩ := hblock'.coins
        rw [find?_updateAll hcoins, find?_updateAll hcoins', ih hblock.below hblock'.below]

theorem UtxoOf.of_suffix (h : UtxoOf env tree chain w) (hfork : fork <:+ chain) :
    ∃ v, UtxoOf env tree fork v := by
  induction chain generalizing w with
  | nil =>
    rw [List.suffix_nil.1 hfork]
    exact ⟨w, h⟩
  | cons hash chain ih =>
    rcases List.suffix_cons_iff.1 hfork with rfl | hfork
    · exact ⟨w, h⟩
    · rcases h.cons_inv with ⟨rfl, -, -⟩ | ⟨v, hblock⟩
      · rw [List.suffix_nil.1 hfork]
        exact ⟨∅, .null⟩
      · exact ih hblock.below hfork

theorem UtxoOf.genesis_suffix (h : UtxoOf env tree chain w) (hne : chain ≠ []) :
    [env.params.hashGenesisBlock] <:+ chain := by
  induction chain generalizing w with
  | nil => exact absurd rfl hne
  | cons hash chain ih =>
    rcases h.cons_inv with ⟨rfl, -, rfl⟩ | ⟨v, hblock⟩
    · exact List.suffix_rfl
    · exact (ih hblock.below (List.length_pos_iff.1 hblock.nonempty)).trans
        (List.suffix_cons hash chain)

theorem CCoinsView.Valid.updateAll {nHeight : ℕ} {txs : List CTransaction}
    {vtxundo : List CTxUndo} (hv : v.Valid) (hheight : 0 < nHeight)
    (h : v.updateAll env nHeight txs = .ok (w, vtxundo)) : w.Valid := by
  induction txs generalizing v vtxundo with
  | nil =>
    cases h
    exact hv
  | cons tx txs ih =>
    obtain ⟨v₁, txundo, vtxundo', hupdate, hrest, -⟩ := updateAll_cons h
    exact ih (hv.update hheight hupdate) hrest

theorem UtxoOf.valid (h : UtxoOf env tree chain w) : w.Valid := by
  induction chain generalizing w with
  | nil =>
    rw [h.nil_inv]
    exact CCoinsView.Valid.empty
  | cons hash chain ih =>
    rcases h.cons_inv with ⟨-, rfl, -⟩ | ⟨v, hblock⟩
    · exact CCoinsView.Valid.empty
    · obtain ⟨env', hcoins⟩ := hblock.coins
      exact (ih hblock.below).updateAll hblock.nonempty hcoins

/-! ### Where a coin comes from -/

theorem createdCoin_hash {tx : CTransaction} {nHeight : ℕ} {out : COutPoint}
    (h : (tx.createdCoin nHeight out).isSome = true) : tx.hash = out.hash := by
  obtain ⟨coin, hcoin⟩ := Option.isSome_iff_exists.1 h
  obtain ⟨txout, hout, -⟩ := Option.map_eq_some_iff.1 hcoin
  obtain ⟨hmem, -⟩ := mem_of_spendableOutput hout
  obtain ⟨e, -, heq⟩ := List.mem_map.1 hmem
  rw [← (Prod.mk.inj heq).1]

theorem redoAll_some {nHeight : ℕ} {txs : List CTransaction} {coins : COutPoint → Option Coin}
    {out : COutPoint} {coin : Coin} (h : redoAll nHeight txs coins out = some coin) :
    coins out = some coin ∨ ∃ tx ∈ txs, tx.hash = out.hash := by
  induction txs generalizing coins with
  | nil => exact Or.inl h
  | cons tx txs ih =>
    rcases ih h with hfirst | ⟨tx', hmem, htx'⟩
    · change (tx.createdCoin nHeight out).or (if tx.spends out then none else coins out) =
        some coin at hfirst
      cases hcreated : tx.createdCoin nHeight out with
      | some coin' =>
        exact Or.inr ⟨tx, List.mem_cons_self, createdCoin_hash (by rw [hcreated]; rfl)⟩
      | none =>
        rw [hcreated, Option.none_or] at hfirst
        split at hfirst
        · cases hfirst
        · exact Or.inl hfirst
    · exact Or.inr ⟨tx', List.mem_cons_of_mem tx hmem, htx'⟩

/-- **Every coin comes from a block of the chain**, at its height. -/
theorem UtxoOf.origin (h : UtxoOf env tree chain w) {out : COutPoint} {coin : Coin}
    (hcoin : w.find? out = some coin) :
    ∃ hash' pprev v' w', Connected env tree hash' pprev v' w' ∧ pprev.length < chain.length ∧
      ∃ tx ∈ (tree.readBlock hash').vtx, tx.hash = out.hash := by
  induction chain generalizing w with
  | nil =>
    rw [h.nil_inv, StdMap.find?_empty] at hcoin
    cases hcoin
  | cons hash chain ih =>
    rcases h.cons_inv with ⟨-, rfl, -⟩ | ⟨v, hblock⟩
    · rw [StdMap.find?_empty] at hcoin
      cases hcoin
    · obtain ⟨env', hcoins⟩ := hblock.coins
      rw [find?_updateAll hcoins] at hcoin
      rcases redoAll_some hcoin with hbefore | htx
      · obtain ⟨hash', pprev, v', w', hblock', hlt, htx⟩ := ih hblock.below hbefore
        exact ⟨hash', pprev, v', w', hblock', Nat.lt_succ_of_lt hlt, htx⟩
      · exact ⟨hash, chain, v, w, hblock, Nat.lt_succ_self _, htx⟩

theorem CBlock.CoinbaseFirst.script {block : CBlock} {tx : CTransaction}
    (h : block.CoinbaseFirst) (hmem : tx ∈ block.vtx) (htx : tx.isCoinBase = true) :
    block.coinbaseScript = (tx.vin.head?.map CTxIn.scriptSig).getD [] := by
  obtain ⟨coinbase, txs, hvtx, -, htxs⟩ := h
  rw [hvtx] at hmem
  rcases List.mem_cons.1 hmem with rfl | hmem
  · rw [CBlock.coinbaseScript, hvtx]
    dsimp only
    cases tx.vin <;> rfl
  · rw [htxs tx hmem] at htx
    cases htx

/-- **No coinbase replaces a coin**: its height is in its script. -/
theorem Connected.fresh (h : Connected env tree hash chain v w) :
    (tree.readBlock hash).Fresh chain.length v := by
  intro coinbase hmem out hcreated
  by_contra hsome
  obtain ⟨coin, hcoin⟩ := Option.ne_none_iff_exists'.1 hsome
  obtain ⟨hash', pprev, v', w', hblock, hlt, tx, htx, hhash⟩ := h.below.origin hcoin
  have hmem' : coinbase ∈ (tree.readBlock hash).vtx := List.mem_of_mem_take hmem
  have heq : tx = coinbase :=
    tree.ids hash' hash tx htx coinbase hmem' (hhash.trans (createdCoin_hash hcreated).symm)
  have hcoinbase : coinbase.isCoinBase = true := by
    obtain ⟨first, txs, hvtx, hfirst, -⟩ := h.first
    rw [hvtx] at hmem
    rw [List.mem_singleton.1 hmem]
    exact hfirst
  have hscript : (tree.readBlock hash').coinbaseScript = (tree.readBlock hash).coinbaseScript := by
    rw [h.first.script hmem' hcoinbase, hblock.first.script htx (by rw [heq]; exact hcoinbase), heq]
  have hbound : ∀ n : ℕ, n < 2 ^ 31 → n < 256 ^ 8 := fun n hn => lt_trans hn (by decide)
  have hsame := coinbaseHeight_unique (hbound _ hblock.height) (hbound _ h.height) hscript
    hblock.coinbase h.coinbase
  exact absurd hsame (Nat.ne_of_lt hlt)

theorem climbToCommon_ok {g : uint256} {pa pb : List uint256} (hlength : pa.length = pb.length)
    (ha : [g] <:+ pa) (hb : [g] <:+ pb) :
    ∃ pindexFork, climbToCommon pa pb = some pindexFork ∧ pindexFork ≠ [] ∧
      pindexFork <:+ pa ∧ pindexFork <:+ pb := by
  induction pa generalizing pb with
  | nil => exact absurd (List.suffix_nil.1 ha) (List.cons_ne_nil g [])
  | cons a pa ih =>
    cases pb with
    | nil => exact absurd (List.suffix_nil.1 hb) (List.cons_ne_nil g [])
    | cons b pb =>
      rw [climbToCommon]
      rw [List.length_cons, List.length_cons, Nat.add_right_cancel_iff] at hlength
      split
      · rename_i heq
        exact ⟨a :: pa, rfl, List.cons_ne_nil a pa, List.suffix_rfl, heq ▸ List.suffix_rfl⟩
      · rename_i hne
        rcases List.suffix_cons_iff.1 ha with heqa | hsuffixa
        · rcases List.suffix_cons_iff.1 hb with heqb | hsuffixb
          · exact absurd (heqa.symm.trans heqb) hne
          · have hpa := (List.cons.inj heqa).2
            rw [← hpa, List.length_nil] at hlength
            rw [List.length_eq_zero_iff.1 hlength.symm] at hsuffixb
            exact absurd (List.suffix_nil.1 hsuffixb) (List.cons_ne_nil g [])
        · rcases List.suffix_cons_iff.1 hb with heqb | hsuffixb
          · have hpb := (List.cons.inj heqb).2
            rw [← hpb, List.length_nil] at hlength
            rw [List.length_eq_zero_iff.1 hlength] at hsuffixa
            exact absurd (List.suffix_nil.1 hsuffixa) (List.cons_ne_nil g [])
          · obtain ⟨pindexFork, hclimb, hfork, hforka, hforkb⟩ := ih hlength hsuffixa hsuffixb
            exact ⟨pindexFork, hclimb, hfork, hforka.trans (List.suffix_cons a pa),
              hforkb.trans (List.suffix_cons b pb)⟩

theorem getAncestor_suffix {g : uint256} {pa pb : List uint256} (hb : [g] <:+ pb)
    (ha : [g] <:+ pa) (hle : pb.length ≤ pa.length) :
    (getAncestor pa (pb.length - 1)).length = pb.length ∧
      getAncestor pa (pb.length - 1) <:+ pa ∧ [g] <:+ getAncestor pa (pb.length - 1) := by
  have hpos : 1 ≤ pb.length := hb.length_le
  have hlength : (getAncestor pa (pb.length - 1)).length = pb.length := by
    rw [getAncestor, List.length_drop]
    omega
  have hsuffix : getAncestor pa (pb.length - 1) <:+ pa := List.drop_suffix _ _
  exact ⟨hlength, hsuffix, List.suffix_of_suffix_length_le ha hsuffix (by rw [hlength]; exact hpos)⟩

/-- **The last common ancestor** of two chains that end with one block. -/
theorem lastCommonAncestor_ok {g : uint256} {pa pb : List uint256} (ha : [g] <:+ pa)
    (hb : [g] <:+ pb) :
    ∃ pindexFork, lastCommonAncestor pa pb = some pindexFork ∧ pindexFork ≠ [] ∧
      pindexFork <:+ pa ∧ pindexFork <:+ pb := by
  rw [lastCommonAncestor]
  split
  · rename_i hlt
    obtain ⟨hlength, hsuffix, hg⟩ := getAncestor_suffix hb ha (Nat.le_of_lt hlt)
    obtain ⟨pindexFork, hclimb, hfork, hforka, hforkb⟩ := climbToCommon_ok hlength hg hb
    exact ⟨pindexFork, hclimb, hfork, hforka.trans hsuffix, hforkb⟩
  · split
    · rename_i hlt
      obtain ⟨hlength, hsuffix, hg⟩ := getAncestor_suffix ha hb (Nat.le_of_lt hlt)
      obtain ⟨pindexFork, hclimb, hfork, hforka, hforkb⟩ := climbToCommon_ok hlength.symm ha hg
      exact ⟨pindexFork, hclimb, hfork, hforka, hforkb.trans hsuffix⟩
    · exact climbToCommon_ok (by omega) ha hb

/-! ## The loops -/

/-- The outpoints that the blocks of a chain change, above a fork and the genesis block. -/
def touchedAbove (tree : BlockTree) (fork : List uint256) : List uint256 → Set COutPoint
  | [] => ∅
  | hash :: pprev =>
    if hash :: pprev = fork then ∅
    else (if pprev = [] then ∅ else touchedBy pprev.length (tree.readBlock hash).vtx) ∪
      touchedAbove tree fork pprev

theorem suffix_of_ne {hash : uint256} (hfork : fork <:+ hash :: chain)
    (hne : hash :: chain ≠ fork) : fork <:+ chain :=
  (List.suffix_cons_iff.1 hfork).resolve_left fun h => hne h.symm

theorem touchedAbove_cons {hash : uint256} (hne : hash :: chain ≠ fork) :
    touchedAbove tree fork (hash :: chain) =
      (if chain = [] then ∅ else touchedBy chain.length (tree.readBlock hash).vtx) ∪
        touchedAbove tree fork chain := by
  rw [touchedAbove, if_neg hne]

theorem touchedAbove_mono {chain' : List uint256} (hfork : fork <:+ chain)
    (h : chain <:+ chain') : touchedAbove tree fork chain ⊆ touchedAbove tree fork chain' := by
  induction chain' with
  | nil => rw [List.suffix_nil.1 h]
  | cons hash pprev ih =>
    rcases List.suffix_cons_iff.1 h with rfl | hpprev
    · exact subset_rfl
    · by_cases heq : hash :: pprev = fork
      · have hle := (hfork.trans hpprev).length_le
        rw [← heq, List.length_cons] at hle
        omega
      · rw [touchedAbove_cons heq]
        exact (ih hpprev).trans Set.subset_union_right

theorem Connected.find?_eq (h : Connected env tree hash chain v w) :
    w.find? = redoAll chain.length (tree.readBlock hash).vtx v.find? := by
  obtain ⟨env', hcoins⟩ := h.coins
  exact find?_updateAll hcoins

theorem UtxoOf.eq_fork (hw : UtxoOf env tree chain w) (hv : UtxoOf env tree fork v)
    (hfork : fork <:+ chain) : ∀ out ∉ touchedAbove tree fork chain, w.find? out = v.find? out := by
  induction chain generalizing w with
  | nil =>
    rw [List.suffix_nil.1 hfork] at hv
    exact fun out _ => congrFun (hw.unique hv) out
  | cons hash chain ih =>
    intro out hout
    by_cases heq : hash :: chain = fork
    · rw [← heq] at hv
      exact congrFun (hw.unique hv) out
    · rw [touchedAbove_cons heq, Set.mem_union, not_or] at hout
      have hfork' := suffix_of_ne hfork heq
      rcases hw.cons_inv with ⟨rfl, rfl, -⟩ | ⟨v₁, hblock⟩
      · rw [List.suffix_nil.1 hfork'] at hv
        rw [hv.nil_inv]
      · rw [if_neg (List.length_pos_iff.1 hblock.nonempty)] at hout
        rw [hblock.find?_eq, (redoAll_overwrites _ _).outside out hout.1]
        exact ih hblock.below hfork' out hout.2

/-- **The loop along the old branch**: any coins get, at the outpoints that its blocks change, the
coins of the fork. -/
theorem rollback_replaces (st : AssetState) (hassets : env'.dep.areAssetsDeployed = false)
    (hw : UtxoOf env tree chain w) (hv : UtxoOf env tree fork v) (hfork : fork <:+ chain)
    (d : CCoinsView) (cache : CAssetsCache) :
    ∃ d', rollback env' tree st chain fork d cache = .ok (d', cache) ∧
      Replaces (touchedAbove tree fork chain) v.find? d.find? d'.find? := by
  induction chain generalizing w d with
  | nil =>
    refine ⟨d, ?_, .refl _ _⟩
    rw [rollback, if_pos (List.suffix_nil.1 hfork)]
  | cons hash chain ih =>
    rw [rollback]
    by_cases heq : hash :: chain = fork
    · rw [if_pos heq, touchedAbove, if_pos heq]
      exact ⟨d, rfl, .refl _ _⟩
    · have hfork' := suffix_of_ne hfork heq
      rw [if_neg heq, touchedAbove_cons heq]
      rcases hw.cons_inv with ⟨rfl, -, -⟩ | ⟨v₁, hblock⟩
      · have hgenesis : ¬([] : List uint256).length > 0 := Nat.lt_irrefl 0
        rw [if_neg hgenesis, if_pos rfl, Set.empty_union]
        exact ih .null hfork' d
      · obtain ⟨env₁, hcoins⟩ := hblock.coins
        obtain ⟨s, hstep, hcache, hreplaced⟩ :=
          disconnectBlock_replaces st ((st.passetsdb.blockUndo.find? hash).getD []) hassets
            hblock.first hblock.below.valid hblock.nonempty hblock.fresh hcoins d cache
        obtain ⟨d', hrest, hreplaces⟩ := ih hblock.below hfork' s.view
        rw [if_pos hblock.nonempty, if_neg (List.length_pos_iff.1 hblock.nonempty)]
        refine ⟨d', ?_, hreplaced.trans hreplaces ?_⟩
        · rw [bind_ok]
          exact ⟨s, hstep, by rw [hcache]; exact hrest⟩
        · exact fun out hout => (hblock.below.eq_fork hv hfork' out hout).symm

theorem rollforward_cons (env : Env) (tree : BlockTree) {n : ℕ} (hn : n < chain.length)
    (d : CCoinsView) :
    rollforward env tree (hash :: chain) n d =
      (rollforward env tree chain n d).bind
        (rollforwardBlock env (tree.readBlock hash) chain.length) := by
  have hrange : List.range' (n + 1) ((hash :: chain).length - 1 - n) =
      List.range' (n + 1) (chain.length - 1 - n) ++ [chain.length] := by
    have hcount : (hash :: chain).length - 1 - n = chain.length - 1 - n + 1 := by
      rw [List.length_cons]
      omega
    have hlast : n + 1 + 1 * (chain.length - 1 - n) = chain.length := by omega
    rw [hcount, List.range'_concat, hlast]
  -- The blocks below are the same on both chains.
  have hbelow : ∀ (l : List ℕ), (∀ h ∈ l, h < chain.length) → ∀ d : CCoinsView,
      l.foldlM (rollforwardAt env tree (hash :: chain)) d =
        l.foldlM (rollforwardAt env tree chain) d := by
    intro l
    induction l with
    | nil => exact fun _ _ => rfl
    | cons h l ih =>
      intro hl d
      rw [List.forall_mem_cons] at hl
      have hdrop : (hash :: chain).length - (h + 1) = chain.length - (h + 1) + 1 := by
        rw [List.length_cons]
        omega
      have hsame : getAncestor (hash :: chain) h = getAncestor chain h := by
        rw [getAncestor, hdrop, List.drop_succ_cons, getAncestor]
      rw [List.foldlM_cons, List.foldlM_cons, rollforwardAt, hsame, ← rollforwardAt]
      exact bind_congr fun d₁ => ih hl.2 d₁
  have htip : getAncestor (hash :: chain) chain.length = hash :: chain := by
    rw [getAncestor, List.length_cons, Nat.sub_self]
    rfl
  rw [rollforward, hrange, List.foldlM_append, hbelow, rollforward]
  · refine bind_congr fun d₁ => ?_
    rw [List.foldlM_cons, rollforwardAt, htip]
    exact bind_pure _
  · intro h hmem
    rw [List.mem_range'_1] at hmem
    omega

/-- **The loop to the new tip**: any coins get, at the outpoints that the blocks above the fork
change, the coins of the new tip. -/
theorem rollforward_replaces (env' : Env) (hw : UtxoOf env tree chain w) (hfork : fork <:+ chain)
    (d : CCoinsView) :
    ∃ d', rollforward env' tree chain (fork.length - 1) d = .ok d' ∧
      Replaces (touchedAbove tree fork chain) w.find? d.find? d'.find? := by
  have hnone : ∀ chain : List uint256, chain.length - 1 - (fork.length - 1) = 0 →
      rollforward env' tree chain (fork.length - 1) d = .ok d := by
    intro chain hzero
    rw [rollforward, hzero]
    rfl
  induction chain generalizing w with
  | nil => exact ⟨d, hnone [] (Nat.zero_sub _), .refl _ _⟩
  | cons hash chain ih =>
    by_cases heq : hash :: chain = fork
    · refine ⟨d, hnone _ (by rw [heq]; exact Nat.sub_self _), ?_⟩
      rw [touchedAbove, if_pos heq]
      exact .refl _ _
    · have hfork' := suffix_of_ne hfork heq
      rw [touchedAbove_cons heq]
      rcases hw.cons_inv with ⟨rfl, -, -⟩ | ⟨v₁, hblock⟩
      · refine ⟨d, hnone _ (Nat.zero_sub _), ?_⟩
        rw [if_pos rfl, Set.empty_union]
        exact .refl _ _
      · obtain ⟨d₁, hrest, hreplaces⟩ := ih hblock.below hfork'
        obtain ⟨env₁, hcoins⟩ := hblock.coins
        obtain ⟨d', hstep, hfind⟩ := rollforwardBlock_eq env' chain.length
          (values_of_updateAll hcoins) d₁
        have hlength : fork.length - 1 < chain.length := by
          have hle := hfork'.length_le
          have hpos := hblock.nonempty
          omega
        refine ⟨d', ?_, ?_⟩
        · rw [rollforward_cons env' tree hlength, hrest]
          exact hstep
        · have hover := redoAll_overwrites chain.length (tree.readBlock hash).vtx
          have hblocks := hreplaces.trans (hover.replaces v₁.find? d₁.find?)
            (fun out hout => hover.outside out hout v₁.find?)
          rw [if_neg (List.length_pos_iff.1 hblock.nonempty), hblock.find?_eq, hfind,
            Set.union_comm]
          exact hblocks

/-! ## What a crash leaves -/

def Between (old new chain : List uint256) : Prop :=
  (chain <:+ old ∨ chain <:+ new) ∧ ∀ fork, fork <:+ old → fork <:+ new → fork <:+ chain

/-- A coin database that a crash inside `BatchWrite` may leave, on the way from one tip to another.
Each outpoint has its value at a chain between them: at either tip, or at a chain of which the coins
were written on the way. -/
structure LeftByCrash (env : Env) (tree : BlockTree) (old new : List uint256)
    (db : ChainstateDB) : Prop where
  headBlocks : db.headBlocks = [new.headD 0, old.headD 0]
  written : ∀ out, ∃ chain view, UtxoOf env tree chain view ∧ Between old new chain ∧
    db.coins.find? out = view.find? out

theorem between_old (old new : List uint256) : Between old new old :=
  ⟨Or.inl List.suffix_rfl, fun _ h _ => h⟩

theorem between_new (old new : List uint256) : Between old new new :=
  ⟨Or.inr List.suffix_rfl, fun _ _ h => h⟩

/-- **A crash inside `BatchWrite`**, after any of the entries: the write is from the old tip to a
tip between, from coins that are there or that an earlier crash has left. -/
theorem batchWritePart_leftByCrash {db : ChainstateDB} {mapCoins : CCoinsMap}
    {written : List (COutPoint × CCoinsCacheEntry)} {view : CCoinsView}
    (hold : db.oldTip = old.headD 0)
    (hdb : ∀ out, ∃ chain view, UtxoOf env tree chain view ∧ Between old new chain ∧
      db.coins.find? out = view.find? out)
    (hnew : UtxoOf env tree new view)
    (hwrite : SameCoins (db.batchWrite mapCoins (new.headD 0)).coins view)
    (hpart : written.Sublist mapCoins.entries) :
    LeftByCrash env tree old new (db.batchWritePart written (new.headD 0)) where
  headBlocks := by rw [ChainstateDB.batchWritePart, hold]
  written := by
    intro out
    have hall := find?_foldl_writeEntry mapCoins.entries_nodup db.coins out
    have hsome := find?_foldl_writeEntry
      (mapCoins.entries_nodup.sublist (hpart.map Prod.fst)) db.coins out
    cases hfind : written.find? fun e => decide (e.1 = out) with
    | none =>
      rw [hfind] at hsome
      obtain ⟨chain, view', hview', hbetween, heq⟩ := hdb out
      exact ⟨chain, view', hview', hbetween, hsome.trans heq⟩
    | some e =>
      have hkeys := List.find?_some hfind
      have hkey : e.1 = out := of_decide_eq_true hkeys
      have hsame : (mapCoins.entries.find? fun e => decide (e.1 = out)) = some e := by
        have hexists : (mapCoins.entries.find? fun e => decide (e.1 = out)).isSome = true := by
          rw [List.find?_isSome]
          exact ⟨e, hpart.subset (List.mem_of_find?_eq_some hfind), decide_eq_true hkey⟩
        obtain ⟨e', he'⟩ := Option.isSome_iff_exists.1 hexists
        have hkeys' := List.find?_some he'
        have hkey' : e'.1 = out := of_decide_eq_true hkeys'
        rw [he', List.inj_on_of_nodup_map mapCoins.entries_nodup
          (List.mem_of_find?_eq_some he') (hpart.subset (List.mem_of_find?_eq_some hfind))
          (hkey'.trans hkey.symm)]
      rw [hfind] at hsome
      rw [hsame] at hall
      exact ⟨new, view, hnew, between_new old new, (hsome.trans hall.symm).trans (hwrite out)⟩

/-- The same **while the blocks are replayed** after a crash: the old tip is still the one of the
first write. -/
theorem LeftByCrash.again {db : ChainstateDB} {mapCoins : CCoinsMap}
    {written : List (COutPoint × CCoinsCacheEntry)} {view : CCoinsView}
    (h : LeftByCrash env tree old new db) (hbest : db.bestBlock = 0)
    (hnew : UtxoOf env tree new view)
    (hwrite : SameCoins (db.batchWrite mapCoins (new.headD 0)).coins view)
    (hpart : written.Sublist mapCoins.entries) :
    LeftByCrash env tree old new (db.batchWritePart written (new.headD 0)) := by
  refine batchWritePart_leftByCrash ?_ h.written hnew hwrite hpart
  rw [ChainstateDB.oldTip, if_pos hbest, h.headBlocks]

/-! ## `ReplayBlocks` -/

/-- The chain is in the block index; the null pointer is what a first write starts from. -/
def BlockTree.Indexed (tree : BlockTree) (chain : List uint256) : Prop :=
  tree.mapBlockIndex (chain.headD 0) = some chain

theorem BlockTree.Indexed.ne_nil (h : tree.Indexed chain) : chain ≠ [] := by
  rintro rfl
  rw [BlockTree.Indexed, List.headD_nil, tree.null] at h
  cases h

theorem BlockTree.Indexed.head_ne_zero (h : tree.Indexed chain) : chain.headD 0 ≠ 0 := by
  intro hzero
  rw [BlockTree.Indexed, hzero, tree.null] at h
  cases h

theorem findFork_ok (hold : old = [] ∨ tree.Indexed old) (hnew : tree.Indexed new)
    (hv : UtxoOf env tree old v) (hw : UtxoOf env tree new w) :
    ∃ pindexFork, findFork tree (old.headD 0) new = .ok (old, pindexFork) ∧
      pindexFork <:+ old ∧ pindexFork <:+ new := by
  rcases hold with rfl | hold
  · exact ⟨[], rfl, List.suffix_rfl, List.nil_suffix⟩
  · obtain ⟨pindexFork, hfind, hne, hforkold, hforknew⟩ := lastCommonAncestor_ok
      (hv.genesis_suffix hold.ne_nil) (hw.genesis_suffix hnew.ne_nil)
    refine ⟨pindexFork, ?_, hforkold, hforknew⟩
    rw [findFork, if_neg hold.head_ne_zero, demand_bind]
    refine ⟨old, hold, ?_⟩
    rw [demand_bind]
    exact ⟨pindexFork, hfind, by rw [require_bind]; exact ⟨decide_eq_true hne, rfl⟩⟩

/-- **The coins after a crash.**  From every old tip to every new tip, and from every database that
a crash between them can leave, `ReplayBlocks` succeeds, and the database has the coins of the new
tip. -/
theorem replayBlocks_correct (P : VersionBitsParams) (st : AssetState) {db : ChainstateDB}
    (hold : old = [] ∨ tree.Indexed old) (hnew : tree.Indexed new)
    (hv : UtxoOf env tree old v) (hw : UtxoOf env tree new w)
    (hcrash : LeftByCrash env tree old new db) :
    ∃ db' st', replayBlocks P env tree st db = .ok (db', st') ∧ SameCoins db'.coins w ∧
      db'.bestBlock = new.headD 0 ∧ db'.headBlocks = [] := by
  obtain ⟨fork, hfind, hforkold, hforknew⟩ := findFork_ok hold hnew hv hw
  obtain ⟨f, hf⟩ := hw.of_suffix hforknew
  have hassets : (env.atRestart P).dep.areAssetsDeployed = false := by
    rw [Env.atRestart, deployments_restart]
    rfl
  obtain ⟨d₁, hback, hundone⟩ :=
    rollback_replaces st hassets hv hf hforkold db.coins st.passets
  obtain ⟨d₂, hforward, hredone⟩ := rollforward_replaces (env.atRestart P) hw hforknew d₁
  refine ⟨⟨d₂, new.headD 0, []⟩, st.flush st.passets, ?_, ?_, rfl, rfl⟩
  · rw [replayBlocks, replayBlocksWith, hcrash.headBlocks]
    dsimp only
    rw [demand_bind]
    refine ⟨new, hnew, ?_⟩
    rw [hfind, bind_ok]
    refine ⟨(old, fork), rfl, ?_⟩
    dsimp only
    rw [hback, bind_ok]
    refine ⟨(d₁, st.passets), rfl, ?_⟩
    dsimp only
    rw [hforward]
    rfl
  · -- Outside of both branches every value that was written is the one of the fork.
    have hreplaced := hundone.trans hredone (fun out hout => hw.eq_fork hf hforknew out hout)
    refine hreplaced.eq_of_agree fun out hout => ?_
    rw [Set.mem_union, not_or] at hout
    obtain ⟨chain, view, hview, ⟨hbranch, habove⟩, heq⟩ := hcrash.written out
    have hfork := habove fork hforkold hforknew
    have hout' : out ∉ touchedAbove tree fork chain := by
      rcases hbranch with hbranch | hbranch
      · exact fun hmem => hout.1 (touchedAbove_mono hfork hbranch hmem)
      · exact fun hmem => hout.2 (touchedAbove_mono hfork hbranch hmem)
    rw [heq, hview.eq_fork hf hfork out hout', hw.eq_fork hf hforknew out hout.2]

/-! ### A fork -/

def forkTx (hash : uint256) : CTransaction where
  hash := hash
  vin := [⟨⟨0, 0xffffffff⟩, [OP_1, 0]⟩]
  vout := [⟨5000 * COIN, getScriptForKeyID (keyHash 3)⟩]

def forkView (hash : uint256) : CCoinsView :=
  StdMap.assign ∅ ⟨hash, 0⟩ ⟨⟨5000 * COIN, getScriptForKeyID (keyHash 3)⟩, true, 1⟩

def forkTree : BlockTree where
  mapBlockIndex := fun hash =>
    if hash = 0 then none
    else if hash = sampleEnv.params.hashGenesisBlock then some [hash]
    else some [hash, sampleEnv.params.hashGenesisBlock]
  readBlock := fun hash => ⟨hash, [forkTx hash]⟩
  readUndo := fun _ => []
  null := rfl
  indexed := by
    intro hash pindex h
    split at h
    · cases h
    · split at h
      · cases h
        rfl
      · cases h
        rfl
  ids := by
    intro hash hash' tx hmem tx' hmem' heq
    rw [List.mem_singleton.1 hmem, List.mem_singleton.1 hmem'] at heq ⊢
    exact congrArg forkTx heq

theorem forkView_utxo {hash : uint256} (hgenesis : hash ≠ sampleEnv.params.hashGenesisBlock)
    (hconnect : (connectBlock (sampleEnv.withTip quietContext) .genesis ⟨sampleRules, 1, .empty⟩
      (forkTree.readBlock hash) ∅ .empty).map (fun s => (s.view, s.vtxundo)) =
        .ok (forkView hash, [])) :
    UtxoOf sampleEnv forkTree [hash, sampleEnv.params.hashGenesisBlock] (forkView hash) := by
  cases hs : connectBlock (sampleEnv.withTip quietContext) .genesis ⟨sampleRules, 1, .empty⟩
      (forkTree.readBlock hash) ∅ .empty with
  | error e =>
    rw [hs] at hconnect
    cases hconnect
  | ok s =>
    rw [hs] at hconnect
    obtain ⟨hview, hundo⟩ := Prod.mk.inj (Except.ok.inj hconnect)
    rw [← hview]
    exact .block .genesis (List.cons_ne_nil _ _) (by decide) rfl hgenesis rfl hs hundo.symm

/-- A crash on the way from block 1 to block 2: the coin of block 2 has been written, but that of
block 1 is still there. -/
def forkDB : ChainstateDB where
  coins := StdMap.assign (forkView 1) ⟨2, 0⟩
    ⟨⟨5000 * COIN, getScriptForKeyID (keyHash 3)⟩, true, 1⟩
  bestBlock := 0
  headBlocks := [2, 1]

theorem replayBlocks_correct_fork :
    ∃ db' st', replayBlocks regTestVersionBits sampleEnv forkTree .genesis forkDB =
        .ok (db', st') ∧
      SameCoins db'.coins (forkView 2) ∧ db'.bestBlock = 2 ∧ db'.headBlocks = [] := by
  have hold : UtxoOf sampleEnv forkTree [1, sampleEnv.params.hashGenesisBlock] (forkView 1) :=
    forkView_utxo (by decide) rfl
  have hnew : UtxoOf sampleEnv forkTree [2, sampleEnv.params.hashGenesisBlock] (forkView 2) :=
    forkView_utxo (by decide) rfl
  have hindexed : ∀ hash, hash ≠ 0 → hash ≠ sampleEnv.params.hashGenesisBlock →
      forkTree.Indexed [hash, sampleEnv.params.hashGenesisBlock] := by
    intro hash hzero hgenesis
    exact (if_neg hzero).trans (if_neg hgenesis)
  refine replayBlocks_correct regTestVersionBits .genesis
    (Or.inr (hindexed 1 (by decide) (by decide))) (hindexed 2 (by decide) (by decide)) hold hnew
    ⟨rfl, ?_⟩
  intro out
  by_cases hout : out = ⟨2, 0⟩
  · refine ⟨_, _, hnew, between_new _ _, ?_⟩
    rw [hout]
    rfl
  · refine ⟨_, _, hold, between_old _ _, ?_⟩
    exact StdMap.find?_assign_ne hout

end UnemployCoin
