import UnemployCoin.DisconnectBlock
import UnemployCoin.Values
import UnemployCoin.Lib.Run
/-!
# A node

`ConnectTip`, `DisconnectTip` and `FlushStateToDisk` (`validation.cpp`), as steps of a node.  A
block is connected or disconnected on an empty local asset cache, which is flushed into `passets`
when that goes through; otherwise nothing changes.

The deployments, the mempool and what a stack slot holds are given with each step, so a run can
go through any sequence of them.
-/

namespace UnemployCoin

/-- What a change of the tip reads besides the state of the node. -/
structure TipContext where
  dep : Deployments
  uninitHeight : uint256 → ℕ → ℤ
  rules : ScriptRules
  mempool : MempoolState

def Env.withTip (env : Env) (ctx : TipContext) : Env :=
  { env with dep := ctx.dep, uninitHeight := ctx.uninitHeight }

/-- A lookup that may load an entry into the cache in front of a database. -/
inductive CacheRead where
  | asset (name : Bytes)
  | verifier (name : Bytes)
  | qualifier (name address : Bytes)
  | restriction (name address : Bytes)
  | globalRestriction (name : Bytes)
  deriving DecidableEq, Repr

structure Node where
  st : AssetState
  /-- `pcoinsTip`. -/
  view : CCoinsView
  /-- The blocks above the genesis block, tip first. -/
  chainActive : List CBlock
  undo : StdMap uint256 (List CTxUndo)

def Node.genesis : Node := ⟨.genesis, ∅, [], ∅⟩

def AssetState.read (env : Env) (st : AssetState) : CacheRead → AssetState
  | .asset name =>
    { st with
      passetsCache :=
        if st.passetsCache.exist name then st.passetsCache.touch name
        else match st.passetsdb.assetData.find? name with
          -- The entry goes under the name of the asset that is read.
          | some data => st.passetsCache.put data.asset.strName data
          | none => st.passetsCache }
  | .verifier name =>
    { st with
      passetsVerifierCache :=
        st.passetsVerifierCache.load name (st.prestricteddb.verifiers.find? name) }
  | .qualifier name address =>
    { st with
      passetsQualifierCache := st.passetsQualifierCache.load (cacheHash env name address)
        (st.prestricteddb.addressQualifiers.find? (address, name)) }
  | .restriction name address =>
    { st with
      passetsRestrictionCache := st.passetsRestrictionCache.load (cacheHash env name address)
        (st.prestricteddb.restrictedAddresses.find? (address, name)) }
  | .globalRestriction name =>
    { st with
      passetsGlobalRestrictionCache := st.passetsGlobalRestrictionCache.load name
        (st.prestricteddb.globalRestrictions.find? name) }

/-! ## The tip -/

namespace Node

variable (env : Env) (node : Node)

/-- The undo data is written when a block is connected for the first time. -/
def writeUndo (blockHash : uint256) (vtxundo : List CTxUndo)
    (vUndoAssetData : List (Bytes × CBlockAssetUndo)) : Node :=
  if node.undo.count blockHash then node
  else
    { node with
      undo := node.undo.assign blockHash vtxundo
      st :=
        if vUndoAssetData.isEmpty then node.st
        else
          { node.st with
            passetsdb :=
              { node.st.passetsdb with
                blockUndo := node.st.passetsdb.blockUndo.assign blockHash vUndoAssetData } } }

def height : ℕ := node.chainActive.length

/-- `ConnectTip`, of a block on the tip; so it is not the genesis block. -/
def connectTip (ctx : TipContext) (block : CBlock) : Option Node :=
  if block.hash = env.params.hashGenesisBlock then none
  else
    match connectBlock (env.withTip ctx) node.st ⟨ctx.rules, node.height + 1, ctx.mempool⟩ block
        node.view .empty with
    | .error _ => none
    | .ok s =>
      let node := node.writeUndo block.hash s.vtxundo s.vUndoAssetData
      some { node with
        st := node.st.flush s.assetsCache
        view := s.view
        chainActive := block :: node.chainActive }

/-- The asset undo data of a block; there is none when nothing was written. -/
def undoAssetData (blockHash : uint256) : List (Bytes × CBlockAssetUndo) :=
  (node.st.passetsdb.blockUndo.find? blockHash).getD []

def disconnectTip (ctx : TipContext) : Option Node :=
  match node.chainActive with
  | [] => none
  | block :: chain =>
    match node.undo.find? block.hash with
    | none => none
    | some vtxundo =>
      match disconnectBlock (env.withTip ctx) node.st node.height block vtxundo
          (node.undoAssetData block.hash) node.view .empty with
      | .error _ => none
      | .ok s =>
        if s.fClean then
          some { node with
            st := node.st.flush s.assetsCache
            view := s.view
            chainActive := chain }
        else none

end Node

inductive NodeEvent where
  | connectTip (ctx : TipContext) (block : CBlock)
  | disconnectTip (ctx : TipContext)
  /-- `DumpCacheToDatabase` of `passets`. -/
  | dump
  | read (lookup : CacheRead)

def node (env : Env) : Machine Node NodeEvent where
  step n
    | .connectTip ctx block => n.connectTip env ctx block
    | .disconnectTip ctx => n.disconnectTip env ctx
    | .dump => some { n with st := n.st.dumpCacheToDatabase env }
    | .read lookup => some { n with st := n.st.read env lookup }

/-! ## What a step can do -/

variable {env : Env} {n n' : Node} {ctx : TipContext} {block : CBlock}

theorem connectTip_eq_some (h : n.connectTip env ctx block = some n') :
    ∃ s, connectBlock (env.withTip ctx) n.st ⟨ctx.rules, n.height + 1, ctx.mempool⟩ block
        n.view .empty = .ok s ∧
      block.hash ≠ env.params.hashGenesisBlock ∧
      n'.view = s.view ∧ n'.chainActive = block :: n.chainActive ∧
      ∃ blockUndo, n'.st =
        { n.st with
          passets := s.assetsCache.flushInto n.st.passets
          passetsdb := { n.st.passetsdb with blockUndo := blockUndo } } := by
  rw [Node.connectTip] at h
  split at h
  · cases h
  · rename_i hgenesis
    split at h
    · cases h
    · rename_i s hs
      cases h
      refine ⟨s, hs, hgenesis, rfl, ?_, ?_⟩
      · rw [Node.writeUndo]
        split <;> rfl
      · rw [Node.writeUndo]
        split
        · exact ⟨n.st.passetsdb.blockUndo, rfl⟩
        · dsimp only
          split
          · exact ⟨n.st.passetsdb.blockUndo, rfl⟩
          · exact ⟨n.st.passetsdb.blockUndo.assign block.hash s.vUndoAssetData, rfl⟩

theorem disconnectTip_eq_some (h : n.disconnectTip env ctx = some n') :
    ∃ block vtxundo s, n.chainActive = block :: n'.chainActive ∧
      disconnectBlock (env.withTip ctx) n.st n.height block vtxundo
        (n.undoAssetData block.hash) n.view .empty = .ok s ∧ s.fClean = true ∧
      n'.view = s.view ∧ n'.st = n.st.flush s.assetsCache := by
  rw [Node.disconnectTip] at h
  split at h
  · cases h
  · rename_i block chain hchain
    split at h
    · cases h
    · rename_i vtxundo hundo
      split at h
      · cases h
      · rename_i s hs
        split at h
        · rename_i hclean
          cases h
          exact ⟨block, vtxundo, s, hchain, hs, hclean, rfl, rfl⟩
        · cases h

def connects (blocks : List (TipContext × CBlock)) : List NodeEvent :=
  blocks.map fun e => .connectTip e.1 e.2

theorem connects_append (blocks rest : List (TipContext × CBlock)) :
    connects (blocks ++ rest) = connects blocks ++ connects rest := List.map_append

theorem chainActive_connects {blocks : List (TipContext × CBlock)}
    (h : (node env).exec n (connects blocks) = some n') :
    n'.chainActive = (blocks.map Prod.snd).reverse ++ n.chainActive := by
  induction blocks generalizing n with
  | nil =>
    cases h
    rfl
  | cons e blocks ih =>
    obtain ⟨t, hstep, hrest⟩ := Machine.exec_cons.1 h
    have hconnect : n.connectTip env e.1 e.2 = some t := hstep
    obtain ⟨-, -, -, -, hchain, -⟩ := connectTip_eq_some hconnect
    rw [ih hrest, hchain, List.map_cons, List.reverse_cons, List.append_assoc,
      List.singleton_append]

theorem along_connects {P : Node → NodeEvent → Prop} {blocks : List (TipContext × CBlock)}
    (h : ∀ pre e post, blocks = pre ++ e :: post → ∀ t : Node,
      t.chainActive = (pre.map Prod.snd).reverse ++ n.chainActive → P t (.connectTip e.1 e.2)) :
    (node env).Along P n (connects blocks) := by
  induction blocks generalizing n with
  | nil => trivial
  | cons e blocks ih =>
    refine ⟨h [] e blocks rfl n rfl, fun t hstep => ih fun pre e' post hsplit t' ht' => ?_⟩
    have hconnect : n.connectTip env e.1 e.2 = some t := hstep
    obtain ⟨-, -, -, -, hchain, -⟩ := connectTip_eq_some hconnect
    refine h (e :: pre) e' post (by rw [hsplit, List.cons_append]) t' ?_
    rw [ht', hchain, List.map_cons, List.reverse_cons, List.append_assoc, List.singleton_append]

theorem read_passets (env : Env) (st : AssetState) (lookup : CacheRead) :
    (st.read env lookup).passets = st.passets ∧
      (st.read env lookup).passetsdb = st.passetsdb ∧
      (st.read env lookup).prestricteddb = st.prestricteddb := by
  cases lookup <;> exact ⟨rfl, rfl, rfl⟩

/-! ### Sample blocks -/

def sampleRules : ScriptRules :=
  ⟨fun _ => true, fun _ _ _ => true, fun _ _ _ => 0, fun _ _ _ => true⟩

def coinbaseTx (hash : uint256) (nValue : CAmount) : CTransaction where
  hash := hash
  vin := [⟨⟨0, 0xffffffff⟩, [0, 0]⟩]
  vout := [⟨nValue, getScriptForKeyID (keyHash 3)⟩]

def coinbaseBlock (n : ℕ) : CBlock := ⟨n, [coinbaseTx n (5000 * COIN)]⟩

def quietContext : TipContext := ⟨.none, fun _ _ => 0, sampleRules, .empty⟩

def coinbaseChain (n : ℕ) : List (TipContext × CBlock) :=
  (List.range n).map fun h => (quietContext, coinbaseBlock h)

def activeContext : TipContext := ⟨.all, fun _ _ => 0, sampleRules, .empty⟩

/-- The rules for assets are active, the check of the coinbase is not. -/
def uncheckedContext : TipContext :=
  { activeContext with dep := { Deployments.all with areCoinbaseCheckAssetsDeployed := false } }

def payableEnv : Env :=
  { sampleEnv with
    params :=
      { CMainParams with
        strIssueAssetBurnAddress := ascii "UNAdiGx5PWEsPRiq4jtvgEWPngMi7rkdiG"
        strReissueAssetBurnAddress := ascii "UNAdiGx5PWEsPRiq4jtvgEWPngMi7rkdiG"
        strIssueRestrictedAssetBurnAddress := ascii "UNAdiGx5PWEsPRiq4jtvgEWPngMi7rkdiG" } }

/-- The issue of `NAME`, from a coin of 5000. -/
def issueTx (hash : uint256) (prevout : COutPoint) : CTransaction where
  hash := hash
  vin := [⟨prevout, []⟩]
  vout :=
    let asset : CNewAsset := ⟨ascii "NAME", COIN, 0, 1, 0, []⟩
    [⟨500 * COIN, getScriptForKeyID (keyHash 2)⟩,
      ⟨0, asset.constructOwnerTransaction (getScriptForKeyID (keyHash 1))⟩,
      ⟨0, asset.constructTransaction (getScriptForKeyID (keyHash 1))⟩]

/-! ### The node behind a chain of coinbases -/

theorem nodup_of_isChain {l : List ℕ} (h : l.IsChain (· < ·)) : l.Nodup :=
  (List.isChain_iff_pairwise.1 h).imp Nat.ne_of_lt

/-- The coin that the coinbase of height `h + 1` leaves. -/
def subsidyCoin (h : ℕ) : Coin := ⟨⟨5000 * COIN, getScriptForKeyID (keyHash 3)⟩, true, h + 1⟩

section Coinbases

open Check StdMap

variable {κ ν : Type} {key : ℕ → κ}

/-- One entry for each height, the highest first. -/
def byHeight (hkey : key.Injective) (value : ℕ → ν) (n : ℕ) : StdMap κ ν where
  toAList := ⟨(List.range n).reverse.map fun h => ⟨key h, value h⟩, by
    rw [List.NodupKeys, List.keys, List.map_map]
    exact (List.nodup_reverse.2 List.nodup_range).map hkey⟩

theorem find?_byHeight [DecidableEq κ] (hkey : key.Injective) (value : ℕ → ν) {n k : ℕ}
    (hk : n ≤ k) : (byHeight hkey value n).find? (key k) = none := by
  refine AList.lookup_eq_none.2 fun hmem => ?_
  obtain ⟨e, he, heq⟩ := List.mem_map.1 hmem
  obtain ⟨h, hh, rfl⟩ := List.mem_map.1 he
  have hlt := List.mem_range.1 (List.mem_reverse.1 hh)
  exact absurd (hkey heq) (Nat.ne_of_lt (Nat.lt_of_lt_of_le hlt hk))

theorem assign_byHeight [DecidableEq κ] (hkey : key.Injective) (value : ℕ → ν) (n : ℕ) :
    (byHeight hkey value n).assign (key n) (value n) = byHeight hkey value (n + 1) := by
  have hnew := AList.lookup_eq_none.1 (find?_byHeight hkey value (Nat.le_refl n))
  refine congrArg StdMap.mk (AList.ext ?_)
  rw [AList.entries_insert_of_notMem hnew]
  simp only [byHeight, List.range_succ, List.reverse_append, List.reverse_singleton,
    List.singleton_append, List.map_cons]

theorem hash_injective (first : ℕ) : (fun h => h + first).Injective :=
  fun _ _ heq => Nat.add_right_cancel heq

theorem coinbaseOut_injective (first : ℕ) : (fun h => COutPoint.mk (h + first) 0).Injective :=
  fun _ _ heq => hash_injective first (congrArg COutPoint.hash heq)

/-- The node behind coinbases with hashes from `first` on. -/
def coinbaseNode (first n : ℕ) : Node where
  st := .genesis
  view := byHeight (coinbaseOut_injective first) subsidyCoin n
  chainActive := (List.range n).reverse.map fun h => coinbaseBlock (h + first)
  undo := byHeight (hash_injective first) (fun _ => []) n

/-- The subsidies and the genesis block are those of the main chain. -/
def MainSubsidies (params : CChainParams) : Prop :=
  params.hashGenesisBlock = CMainParams.hashGenesisBlock ∧
    params.nSubsidyHalvingInterval = CMainParams.nSubsidyHalvingInterval

variable {st : AssetState} {view : CCoinsView} {h first : ℕ}

theorem getBlockSubsidy_main (hh : h < 2000000) :
    getBlockSubsidy (h + 1) CMainParams = 5000 * COIN := by
  have hdiv : (h + 1) / CMainParams.nSubsidyHalvingInterval = 0 :=
    Nat.div_eq_of_lt (show h + 1 < 2100000 by omega)
  unfold getBlockSubsidy
  rw [hdiv]
  decide

theorem coinbaseBlock_not_genesis (hmain : MainSubsidies env.params) (hh : h < 2000000) :
    (coinbaseBlock h).hash ≠ env.params.hashGenesisBlock := by
  have hlarge : 2000000 ≤ CMainParams.hashGenesisBlock := by decide
  rw [hmain.1]
  exact Nat.ne_of_lt (Nat.lt_of_lt_of_le hh hlarge)

theorem connectBlock_coinbaseBlock (hmain : MainSubsidies env.params) (hh : h + first < 2000000) :
    connectBlock (env.withTip quietContext) st ⟨sampleRules, h + 1, .empty⟩
        (coinbaseBlock (h + first)) view .empty =
      .ok ⟨view.assign ⟨h + first, 0⟩ (subsidyCoin h), .empty, 0, 0, [], []⟩ := by
  have hblock : checkBlock (env.withTip quietContext) sampleRules (coinbaseBlock (h + first)) =
      .ok () := rfl
  have hfold : (coinbaseBlock (h + first)).vtx.foldlM (connectTx (env.withTip quietContext) st
      ⟨sampleRules, h + 1, .empty⟩ (coinbaseBlock (h + first)).hash) ⟨view, .empty, 0, 0, [], []⟩ =
      .ok ⟨view.assign ⟨h + first, 0⟩ (subsidyCoin h), .empty, 0, 0, [], []⟩ := rfl
  have hreward : checkCoinbaseReward (env.withTip quietContext)
      ⟨sampleRules, h + 1, .empty⟩ 0 (coinbaseTx (h + first) (5000 * COIN)) = .ok () := by
    have hvalue : (coinbaseTx (h + first) (5000 * COIN)).getValueOut false =
        some (5000 * COIN) := rfl
    have hsubsidy : getBlockSubsidy (h + 1) (env.withTip quietContext).params = 5000 * COIN := by
      rw [← getBlockSubsidy_main (Nat.lt_of_le_of_lt (Nat.le_add_right h first) hh),
        getBlockSubsidy, getBlockSubsidy, ← hmain.2]
      rfl
    rw [checkCoinbaseReward, demand_bind]
    refine ⟨_, hvalue, ?_⟩
    rw [hsubsidy]
    decide
  have hgenesis : (coinbaseBlock (h + first)).hash ≠
    (env.withTip quietContext).params.hashGenesisBlock :=
    coinbaseBlock_not_genesis hmain hh
  rw [connectBlock, unit_bind, if_neg hgenesis, bind_ok]
  refine ⟨hblock, _, hfold, ?_⟩
  rw [unit_bind, pure_ok, forEach_ok]
  refine ⟨fun coinbase hmem => ?_, rfl⟩
  obtain rfl := List.mem_singleton.1 hmem
  exact hreward

theorem connectTip_coinbaseBlock (hmain : MainSubsidies env.params) (hh : h + first < 2000000) :
    (coinbaseNode first h).connectTip env quietContext (coinbaseBlock (h + first)) =
      some (coinbaseNode first (h + 1)) := by
  have hheight : (coinbaseNode first h).height = h := by
    rw [Node.height, coinbaseNode, List.length_map, List.length_reverse, List.length_range]
  have hnew : (coinbaseNode first h).undo.count (coinbaseBlock (h + first)).hash = false :=
    count_eq_false.2 (find?_byHeight (hash_injective first) _ (Nat.le_refl h))
  have hnext : coinbaseNode first (h + 1) =
      ⟨.genesis, (coinbaseNode first h).view.assign ⟨h + first, 0⟩ (subsidyCoin h),
        coinbaseBlock (h + first) :: (coinbaseNode first h).chainActive,
        (coinbaseNode first h).undo.assign (h + first) []⟩ := by
    have hview := assign_byHeight (coinbaseOut_injective first) subsidyCoin h
    have hundo := assign_byHeight (hash_injective first) (fun _ => ([] : List CTxUndo)) h
    simp only [coinbaseNode, List.range_succ, List.reverse_append, List.reverse_singleton,
      List.singleton_append, List.map_cons, ← hview, ← hundo]
  have hblock : connectBlock (env.withTip quietContext) (coinbaseNode first h).st
      ⟨quietContext.rules, h + 1, quietContext.mempool⟩ (coinbaseBlock (h + first))
      (coinbaseNode first h).view .empty =
        .ok ⟨(coinbaseNode first h).view.assign ⟨h + first, 0⟩ (subsidyCoin h), .empty, 0, 0, [],
          []⟩ := connectBlock_coinbaseBlock hmain hh
  rw [Node.connectTip, if_neg (coinbaseBlock_not_genesis hmain hh), hheight, hnext, hblock]
  dsimp only
  rw [Node.writeUndo, hnew]
  rfl

/-- A run that begins with a chain of coinbases. -/
theorem exec_coinbases (hmain : MainSubsidies env.params) {n : ℕ} (hn : n + first ≤ 2000000)
    (events : List NodeEvent) :
    (node env).exec .genesis (connects ((List.range n).map fun h =>
        (quietContext, coinbaseBlock (h + first))) ++ events) =
      (node env).exec (coinbaseNode first n) events := by
  induction n generalizing events with
  | zero => rfl
  | succ n ih =>
    rw [List.range_succ, List.map_append, connects, List.map_append, List.append_assoc]
    refine (ih (by omega) _).trans ?_
    exact congrArg (fun t => Option.bind t fun t => (node env).exec t events)
      (connectTip_coinbaseBlock hmain (by omega))

theorem exec_coinbaseChain (hmain : MainSubsidies env.params) {n : ℕ} (hn : n ≤ 2000000)
    (events : List NodeEvent) :
    (node env).exec .genesis (connects (coinbaseChain n) ++ events) =
      (node env).exec (coinbaseNode 0 n) events := @exec_coinbases env 0 hmain n hn events

end Coinbases

end UnemployCoin
