import UnemployCoin.AcceptHeader
import UnemployCoin.Lib.Memo
/-!
# Version bits

The state of a deployment at a block (`versionbits.cpp`).  A block index pointer is given by the
entries from it back to the genesis block, and the null pointer by no entries.
-/

namespace UnemployCoin

inductive ThresholdState where
  | THRESHOLD_DEFINED
  | THRESHOLD_STARTED
  | THRESHOLD_LOCKED_IN
  | THRESHOLD_ACTIVE
  | THRESHOLD_FAILED
  deriving DecidableEq, Repr

/-- The deployments that asset rules wait for. -/
inductive DeploymentPos where
  | DEPLOYMENT_ASSETS
  | DEPLOYMENT_MSG_REST_ASSETS
  | DEPLOYMENT_TRANSFER_SCRIPT_SIZE
  | DEPLOYMENT_ENFORCE_VALUE
  | DEPLOYMENT_COINBASE_ASSETS
  deriving DecidableEq, Repr

structure BIP9Deployment where
  bit : ℕ
  nStartTime : ℤ
  nTimeout : ℤ
  nOverrideMinerConfirmationWindow : UInt32
  nOverrideRuleChangeActivationThreshold : UInt32
  deriving DecidableEq, Repr

/-- A number of the parameters (`uint32_t`) as an `int`: the value of the deployment, or the one of
all deployments where that is 0. -/
def overridden (nOverride n : UInt32) : ℤ := (if 0 < nOverride then nOverride else n).toInt32.toInt

/-- The consensus parameters for version bits.  Every period is positive. -/
structure VersionBitsParams where
  nRuleChangeActivationThreshold : UInt32
  nMinerConfirmationWindow : UInt32
  vDeployments : DeploymentPos → BIP9Deployment
  period_pos : ∀ id,
    0 < overridden (vDeployments id).nOverrideMinerConfirmationWindow nMinerConfirmationWindow

abbrev CChain := List CBlockIndex

abbrev ThresholdConditionCache := StdMap CChain ThresholdState

section Checker

variable (P : VersionBitsParams) (id : DeploymentPos)

def period : ℕ :=
  (overridden (P.vDeployments id).nOverrideMinerConfirmationWindow
    P.nMinerConfirmationWindow).toNat

def threshold : ℤ :=
  overridden (P.vDeployments id).nOverrideRuleChangeActivationThreshold
    P.nRuleChangeActivationThreshold

/-- `VersionBitsConditionChecker::Condition`, which looks at no bits but the one of the
deployment. -/
def condition (index : CBlockIndex) : Bool :=
  index.nVersion.toUInt32 &&& UInt32.ofNat (1 <<< (P.vDeployments id).bit) != 0

/-- One round of the loop that walks forward: the state after the period that ends with a chain,
from the state before it. -/
def nextState (state : ThresholdState) (chain : CChain) : ThresholdState :=
  let time : ℤ := getMedianTimePast chain
  match state with
  | .THRESHOLD_DEFINED =>
    if (P.vDeployments id).nTimeout ≤ time then .THRESHOLD_FAILED
    else if (P.vDeployments id).nStartTime ≤ time then .THRESHOLD_STARTED
    else .THRESHOLD_DEFINED
  | .THRESHOLD_STARTED =>
    if (P.vDeployments id).nTimeout ≤ time then .THRESHOLD_FAILED
    else if threshold P id ≤ (chain.take (period P id)).countP (condition P id) then
      .THRESHOLD_LOCKED_IN
    else .THRESHOLD_STARTED
  | .THRESHOLD_LOCKED_IN => .THRESHOLD_ACTIVE
  | .THRESHOLD_FAILED => .THRESHOLD_FAILED
  | .THRESHOLD_ACTIVE => .THRESHOLD_ACTIVE

/-- The last block of the period before the next block: `pindexPrev->GetAncestor(..)`. -/
def periodEnd (chain : CChain) : CChain := chain.drop (chain.length % period P id)

/-- The two loops of `GetStateFor`, back to a chain whose state is known, and forward again.  The
number is that of the periods up to the chain. -/
def walkStates : ℕ → CChain → ThresholdConditionCache → ThresholdState × ThresholdConditionCache
  | n, chain, cache =>
    match cache.find? chain with
    | some state => (state, cache)
    | none =>
      match n with
      | 0 => (.THRESHOLD_DEFINED, cache.assign chain .THRESHOLD_DEFINED)
      | n + 1 =>
        if (getMedianTimePast chain : ℤ) < (P.vDeployments id).nStartTime then
          (.THRESHOLD_DEFINED, cache.assign chain .THRESHOLD_DEFINED)
        else
          let (state, cache) := walkStates n (chain.drop (period P id)) cache
          let stateNext := nextState P id state chain
          (stateNext, cache.assign chain stateNext)

def getStateFor (chain : CChain) (cache : ThresholdConditionCache) :
    ThresholdState × ThresholdConditionCache :=
  let chain := periodEnd P id chain
  walkStates P id (chain.length / period P id) chain cache

/-! ## The state as a function -/

def stateAfter : ℕ → CChain → ThresholdState
  | 0, _ => .THRESHOLD_DEFINED
  | n + 1, chain =>
    if (getMedianTimePast chain : ℤ) < (P.vDeployments id).nStartTime then .THRESHOLD_DEFINED
    else nextState P id (stateAfter n (chain.drop (period P id))) chain

def stateAt (chain : CChain) : ThresholdState := stateAfter P id (chain.length / period P id) chain

/-- **The state of a deployment for the block after a chain.** -/
def stateFor (chain : CChain) : ThresholdState := stateAt P id (periodEnd P id chain)

end Checker

section Walk

variable {P : VersionBitsParams} {id : DeploymentPos} {cache : ThresholdConditionCache}

theorem period_pos (P : VersionBitsParams) (id : DeploymentPos) : 0 < period P id :=
  Int.pos_iff_toNat_pos.1 (P.period_pos id)

theorem length_drop_period {n : ℕ} {chain : CChain} (h : chain.length / period P id = n + 1) :
    (chain.drop (period P id)).length / period P id = n := by
  have hpos := period_pos P id
  have hle : period P id ≤ chain.length := by
    by_contra hlt
    rw [Nat.div_eq_of_lt (Nat.lt_of_not_le hlt)] at h
    omega
  have hstep := Nat.div_eq_sub_div hpos hle
  rw [List.length_drop]
  omega

/-- **The walk gives the state**, whatever of it the cache holds already. -/
theorem walkStates_eq (n : ℕ) {chain : CChain} {cache : ThresholdConditionCache}
    (hcache : cache.Caches (stateAt P id)) (hn : chain.length / period P id = n) :
    (walkStates P id n chain cache).1 = stateAt P id chain ∧
      (walkStates P id n chain cache).2.Caches (stateAt P id) := by
  induction n generalizing chain cache with
  | zero =>
    unfold walkStates
    have hstate : stateAt P id chain = .THRESHOLD_DEFINED := by
      rw [stateAt, hn]
      rfl
    split
    · rename_i state hfind
      exact ⟨hcache chain state hfind, hcache⟩
    · exact ⟨hstate.symm, hcache.assign hstate.symm⟩
  | succ n ih =>
    unfold walkStates
    split
    · rename_i state hfind
      exact ⟨hcache chain state hfind, hcache⟩
    · have hstate : stateAt P id chain =
          if (getMedianTimePast chain : ℤ) < (P.vDeployments id).nStartTime then
            .THRESHOLD_DEFINED
          else nextState P id (stateAt P id (chain.drop (period P id))) chain := by
        rw [stateAt, hn, stateAfter, stateAt, length_drop_period hn]
      dsimp only
      split
      · rename_i hstart
        rw [if_pos hstart] at hstate
        exact ⟨hstate.symm, hcache.assign hstate.symm⟩
      · rename_i hstart
        obtain ⟨hvalue, hrest⟩ := ih hcache (length_drop_period hn)
        rw [if_neg hstart, ← hvalue] at hstate
        exact ⟨hstate.symm, hrest.assign hstate.symm⟩

/-- **`GetStateFor` gives the state of the chain**, and its cache stays right. -/
theorem getStateFor_eq (chain : CChain) (hcache : cache.Caches (stateAt P id)) :
    (getStateFor P id chain cache).1 = stateFor P id chain ∧
      (getStateFor P id chain cache).2.Caches (stateAt P id) :=
  walkStates_eq _ hcache rfl

theorem getD_lt {times : List ℕ} {bound : ℕ} (hbound : 0 < bound)
    (h : ∀ time ∈ times, time < bound) (i : ℕ) : times.getD i 0 < bound := by
  rw [List.getD_eq_getElem?_getD]
  cases hget : times[i]? with
  | none => exact hbound
  | some time => exact h time (List.mem_of_getElem? hget)

theorem getMedianTimePast_lt (chain : CChain) : getMedianTimePast chain < 2 ^ 32 := by
  refine getD_lt (Nat.two_pow_pos 32) (fun time hmem => ?_) _
  rw [List.mem_mergeSort] at hmem
  obtain ⟨index, -, rfl⟩ := List.mem_map.1 hmem
  exact index.nTime.toNat_lt

/-- **A deployment whose threshold exceeds its period does not activate.** -/
theorem stateAfter_of_short (hthreshold : period P id < threshold P id)
    (htimeout : (2 ^ 32 : ℤ) ≤ (P.vDeployments id).nTimeout) (n : ℕ) (chain : CChain) :
    stateAfter P id n chain = .THRESHOLD_DEFINED ∨
      stateAfter P id n chain = .THRESHOLD_STARTED := by
  induction n generalizing chain with
  | zero => exact .inl rfl
  | succ n ih =>
    have htime : ¬ (P.vDeployments id).nTimeout ≤ (getMedianTimePast chain : ℤ) := by
      have := getMedianTimePast_lt chain
      omega
    have hcount : ¬ threshold P id ≤ (chain.take (period P id)).countP (condition P id) := by
      have hall := (chain.take (period P id)).countP_le_length (p := condition P id)
      have hlength := List.length_take_le (period P id) chain
      omega
    rw [stateAfter]
    split
    · exact .inl rfl
    · rcases ih (chain.drop (period P id)) with hdefined | hstarted
      · rw [hdefined, nextState, if_neg htime]
        split
        · exact .inr rfl
        · exact .inl rfl
      · rw [hstarted, nextState, if_neg htime, if_neg hcount]
        exact .inr rfl

end Walk

end UnemployCoin
