import UnemployCoin.Lib.Median
import UnemployCoin.VersionBits
import Mathlib.Data.Nat.Bitwise
import Mathlib.Order.Bounds.Basic
/-!
# Version bits and BIP9

`GetStateFor` stops its walk at the first period that ends before the start time, **taking it that
every earlier one does, too**.  That rests on the median times: they do not decrease along a chain
whose blocks each have a time above the median before them.
-/

namespace UnemployCoin

/-! ## Median times -/

/-- The time of each block exceeds the median time past of its parent. -/
def TimesIncrease : CChain → Prop
  | [] => True
  | index :: chain => (chain ≠ [] → getMedianTimePast chain < index.nTime.toNat) ∧
      TimesIncrease chain

variable {chain : CChain} {index : CBlockIndex}

theorem TimesIncrease.drop (h : TimesIncrease chain) (n : ℕ) : TimesIncrease (chain.drop n) := by
  induction n generalizing chain with
  | zero => exact h
  | succ n ih =>
    cases chain with
    | nil => trivial
    | cons index chain => exact ih h.2

def windowTimes (chain : CChain) : List ℕ := (chain.take 11).map fun index => index.nTime.toNat

theorem getMedianTimePast_eq (chain : CChain) :
    getMedianTimePast chain = Window.median (windowTimes chain) 0 := by
  unfold getMedianTimePast Window.median windowTimes
  simp only [List.length_mergeSort]

theorem getMedianTimePast_le_cons (hne : chain ≠ [])
    (h : getMedianTimePast chain < index.nTime.toNat) :
    getMedianTimePast chain ≤ getMedianTimePast (index :: chain) := by
  rw [getMedianTimePast_eq] at h
  rw [getMedianTimePast_eq, getMedianTimePast_eq]
  have hcons : windowTimes (index :: chain) =
      index.nTime.toNat :: (chain.take 10).map fun index => index.nTime.toNat := rfl
  rw [hcons]
  by_cases hlen : chain.length ≤ 10
  · -- The window has not been full.
    have hwindow : (chain.take 10).map (fun index => index.nTime.toNat) = windowTimes chain := by
      rw [windowTimes, List.take_of_length_le hlen, List.take_of_length_le (by omega)]
    rw [hwindow]
    refine Window.median_le_cons ?_ h
    rw [windowTimes, List.take_of_length_le (by omega)]
    simpa using hne
  · have hwindow : (chain.take 10).map (fun index => index.nTime.toNat) =
        (windowTimes chain).dropLast := by
      have hlength : (chain.take 11).length = 11 := by
        rw [List.length_take]
        omega
      rw [windowTimes, ← List.map_dropLast, List.dropLast_eq_take, hlength, List.take_take]
      rfl
    rw [hwindow]
    refine Window.median_le_shift (m := 5) ?_ h
    rw [windowTimes, List.length_map, List.length_take]
    omega

/-- **Median times do not decrease.** -/
theorem getMedianTimePast_mono (h : TimesIncrease chain) {n : ℕ} (hn : n < chain.length) :
    getMedianTimePast (chain.drop n) ≤ getMedianTimePast chain := by
  induction n generalizing chain with
  | zero => exact le_refl _
  | succ n ih =>
    cases chain with
    | nil => simp at hn
    | cons index chain =>
      have hn' : n < chain.length := by simpa using hn
      have hne : chain ≠ [] := by
        rintro rfl
        simp at hn'
      calc getMedianTimePast ((index :: chain).drop (n + 1))
          = getMedianTimePast (chain.drop n) := rfl
        _ ≤ getMedianTimePast chain := ih h.2 hn'
        _ ≤ getMedianTimePast (index :: chain) := getMedianTimePast_le_cons hne (h.1 hne)

/-! ## The plain recursion -/

variable {P : VersionBitsParams} {id : DeploymentPos}

def VERSIONBITS_TOP_BITS : UInt32 := 0x20000000

def VERSIONBITS_TOP_MASK : UInt32 := 0xE0000000

/-- The version is one of BIP9. -/
def hasTopBits (index : CBlockIndex) : Bool :=
  index.nVersion.toUInt32 &&& VERSIONBITS_TOP_MASK == VERSIONBITS_TOP_BITS

/-- BIP9: a block signals by the bit of the deployment **in a version with the top bits 001**. -/
def bip9Signals (P : VersionBitsParams) (id : DeploymentPos) (index : CBlockIndex) : Bool :=
  hasTopBits index && index.nVersion.toUInt32.toNat.testBit (P.vDeployments id).bit

/-- The transitions of BIP9 at the end of a period: a deployment fails at the timeout unless it is
locked in by then, it starts at the start time, it is locked in by enough signals in the period,
and active a period later. -/
def bip9Next (P : VersionBitsParams) (id : DeploymentPos) (state : ThresholdState)
    (chain : CChain) : ThresholdState :=
  let expired := decide ((P.vDeployments id).nTimeout ≤ (getMedianTimePast chain : ℤ))
  let started := decide ((P.vDeployments id).nStartTime ≤ (getMedianTimePast chain : ℤ))
  let signals := ((chain.take (period P id)).filter (bip9Signals P id)).length
  match state with
  | .THRESHOLD_DEFINED =>
    if expired then .THRESHOLD_FAILED else if started then .THRESHOLD_STARTED else state
  | .THRESHOLD_STARTED =>
    if expired then .THRESHOLD_FAILED
    else if threshold P id ≤ signals then .THRESHOLD_LOCKED_IN else state
  | .THRESHOLD_LOCKED_IN => .THRESHOLD_ACTIVE
  | .THRESHOLD_ACTIVE | .THRESHOLD_FAILED => state

/-- The state after some number of periods. -/
def bip9After (P : VersionBitsParams) (id : DeploymentPos) : ℕ → CChain → ThresholdState
  | 0, _ => .THRESHOLD_DEFINED
  | n + 1, chain => bip9Next P id (bip9After P id n (chain.drop (period P id))) chain

/-- **The state of a deployment for the block after a chain**, as BIP9 has it. -/
def bip9State (P : VersionBitsParams) (id : DeploymentPos) (chain : CChain) : ThresholdState :=
  bip9After P id ((periodEnd P id chain).length / period P id) (periodEnd P id chain)

/-- The recursion with the transitions of the source, without the early exit. -/
def plainAfter (P : VersionBitsParams) (id : DeploymentPos) : ℕ → CChain → ThresholdState
  | 0, _ => .THRESHOLD_DEFINED
  | n + 1, chain => nextState P id (plainAfter P id n (chain.drop (period P id))) chain

/-- The blocks of a chain set the bit of a deployment in versions of BIP9 only. -/
def SignalsTagged (P : VersionBitsParams) (id : DeploymentPos) (chain : CChain) : Prop :=
  ∀ index ∈ chain, condition P id index = true → hasTopBits index = true

theorem condition_eq_testBit (index : CBlockIndex) :
    condition P id index =
      index.nVersion.toUInt32.toNat.testBit (P.vDeployments id).bit := by
  rw [condition, Nat.one_shiftLeft, Bool.eq_iff_iff, bne_iff_ne, ne_eq, ← UInt32.toNat_inj,
    UInt32.toNat_and, UInt32.toNat_ofNat', UInt32.toNat_zero]
  by_cases hbit : (P.vDeployments id).bit < 32
  · rw [Nat.mod_eq_of_lt (Nat.pow_lt_pow_right (by decide) hbit), Nat.and_two_pow]
    cases index.nVersion.toUInt32.toNat.testBit (P.vDeployments id).bit <;> simp
  · have hle : 2 ^ 32 ≤ 2 ^ (P.vDeployments id).bit :=
      Nat.pow_le_pow_right (by decide) (Nat.le_of_not_lt hbit)
    rw [Nat.mod_eq_zero_of_dvd (Nat.pow_dvd_pow 2 (Nat.le_of_not_lt hbit)), Nat.and_zero,
      Nat.testBit_lt_two_pow (index.nVersion.toUInt32.toNat_lt.trans_le hle)]
    simp

theorem bip9Next_eq (h : SignalsTagged P id chain) (state : ThresholdState) :
    bip9Next P id state chain = nextState P id state chain := by
  have hcount : ((chain.take (period P id)).filter (bip9Signals P id)).length =
      (chain.take (period P id)).countP (condition P id) := by
    rw [← List.countP_eq_length_filter]
    refine List.countP_congr fun index hindex => ?_
    rw [bip9Signals, ← condition_eq_testBit, Bool.and_eq_true]
    exact and_iff_right_of_imp (h index (List.mem_of_mem_take hindex))
  unfold bip9Next nextState
  rw [hcount]
  cases state <;> simp only [decide_eq_true_eq]

theorem bip9After_eq {n : ℕ} (h : SignalsTagged P id chain) :
    bip9After P id n chain = plainAfter P id n chain := by
  induction n generalizing chain with
  | zero => rfl
  | succ n ih =>
    rw [bip9After, plainAfter, bip9Next_eq h,
      ih fun index hindex => h index (List.mem_of_mem_drop hindex)]

theorem periodEnd_length (chain : CChain) :
    (periodEnd P id chain).length = chain.length / period P id * period P id := by
  unfold periodEnd
  rw [List.length_drop]
  have hdiv := Nat.div_add_mod chain.length (period P id)
  have hcomm := Nat.mul_comm (period P id) (chain.length / period P id)
  omega

theorem stateAfter_of_lt {n : ℕ}
    (h : (getMedianTimePast chain : ℤ) < (P.vDeployments id).nStartTime) :
    stateAfter P id n chain = .THRESHOLD_DEFINED := by
  cases n with
  | zero => rfl
  | succ n =>
    unfold stateAfter
    exact if_pos h

theorem length_drop_of_periods {n : ℕ} (hlen : chain.length = (n + 1) * period P id) :
    (chain.drop (period P id)).length = n * period P id := by
  rw [List.length_drop, hlen, Nat.succ_mul]
  omega

theorem getMedianTimePast_prev {n : ℕ} (htimes : TimesIncrease chain)
    (hlen : chain.length = (n + 2) * period P id) :
    getMedianTimePast (chain.drop (period P id)) ≤ getMedianTimePast chain := by
  have hpos := period_pos P id
  refine getMedianTimePast_mono htimes ?_
  rw [hlen, Nat.succ_mul, Nat.succ_mul]
  omega

theorem plainAfter_of_lt {n : ℕ} (htimes : TimesIncrease chain)
    (hlen : chain.length = n * period P id)
    (hstart : (getMedianTimePast chain : ℤ) < (P.vDeployments id).nStartTime) :
    plainAfter P id n chain =
      if n ≠ 0 ∧ (P.vDeployments id).nTimeout ≤ (getMedianTimePast chain : ℤ) then
        .THRESHOLD_FAILED
      else .THRESHOLD_DEFINED := by
  induction n generalizing chain with
  | zero => rfl
  | succ n ih =>
    have hnext : ∀ state : ThresholdState,
        state = .THRESHOLD_DEFINED ∨ state = .THRESHOLD_FAILED ∧
          (P.vDeployments id).nTimeout ≤ (getMedianTimePast chain : ℤ) →
        nextState P id state chain =
          if (P.vDeployments id).nTimeout ≤ (getMedianTimePast chain : ℤ) then .THRESHOLD_FAILED
          else .THRESHOLD_DEFINED := by
      intro state hstate
      rcases hstate with rfl | ⟨rfl, htimeout⟩
      · unfold nextState
        simp only
        split
        · rfl
        · exact if_neg (by omega)
      · rw [if_pos htimeout]
        rfl
    simp only [ne_eq, Nat.succ_ne_zero, not_false_eq_true, true_and]
    unfold plainAfter
    apply hnext
    cases n with
    | zero => exact Or.inl rfl
    | succ n =>
      have hmono := getMedianTimePast_prev htimes hlen
      rw [ih (htimes.drop _) (length_drop_of_periods hlen) (by omega)]
      split
      · rename_i htimeout
        exact Or.inr ⟨rfl, by omega⟩
      · exact Or.inl rfl

/-- **When the early exit makes no difference**: unless the timeout has passed before the start
time. -/
theorem stateAfter_eq_iff {n : ℕ} (htimes : TimesIncrease chain)
    (hlen : chain.length = n * period P id) :
    stateAfter P id n chain = plainAfter P id n chain ↔
      ¬ (n ≠ 0 ∧ (P.vDeployments id).nTimeout ≤ (getMedianTimePast chain : ℤ) ∧
        (getMedianTimePast chain : ℤ) < (P.vDeployments id).nStartTime) := by
  induction n generalizing chain with
  | zero => exact iff_of_true rfl (by simp)
  | succ n ih =>
    by_cases hstart : (getMedianTimePast chain : ℤ) < (P.vDeployments id).nStartTime
    · rw [stateAfter_of_lt hstart, plainAfter_of_lt htimes hlen hstart]
      by_cases htimeout : (P.vDeployments id).nTimeout ≤ (getMedianTimePast chain : ℤ)
      · simp [hstart, htimeout]
      · simp [htimeout]
    · refine iff_of_true ?_ (fun h => hstart h.2.2)
      unfold stateAfter plainAfter
      rw [if_neg hstart]
      have hprev := ih (htimes.drop (period P id)) (length_drop_of_periods hlen)
      by_cases hbad : n ≠ 0 ∧
          (P.vDeployments id).nTimeout ≤ (getMedianTimePast (chain.drop (period P id)) : ℤ) ∧
          (getMedianTimePast (chain.drop (period P id)) : ℤ) < (P.vDeployments id).nStartTime
      · -- The walk begins one period ago, and the deployment fails now at the latest.
        obtain ⟨hn, htimeout, hbefore⟩ := hbad
        obtain ⟨m, rfl⟩ := Nat.exists_eq_succ_of_ne_zero hn
        have hmono := getMedianTimePast_prev htimes hlen
        rw [stateAfter_of_lt hbefore,
          plainAfter_of_lt (htimes.drop _) (length_drop_of_periods hlen) hbefore,
          if_pos ⟨hn, htimeout⟩]
        unfold nextState
        simp only
        exact if_pos (by omega)
      · rw [hprev.2 hbad]

theorem TimesIncrease.periodEnd (h : TimesIncrease chain) :
    TimesIncrease (periodEnd P id chain) := h.drop _

/-- **When `GetStateFor` gives the state of BIP9.** -/
theorem stateFor_eq_iff (htimes : TimesIncrease chain) (htagged : SignalsTagged P id chain) :
    stateFor P id chain = bip9State P id chain ↔
      ¬ (period P id ≤ chain.length ∧
        (P.vDeployments id).nTimeout ≤ (getMedianTimePast (periodEnd P id chain) : ℤ) ∧
        (getMedianTimePast (periodEnd P id chain) : ℤ) < (P.vDeployments id).nStartTime) := by
  have hpos := period_pos P id
  have hlen := @periodEnd_length P id chain
  have hdiv : (periodEnd P id chain).length / period P id = chain.length / period P id := by
    rw [hlen, Nat.mul_div_cancel _ hpos]
  have hne : chain.length / period P id ≠ 0 ↔ period P id ≤ chain.length := by
    rw [Nat.ne_zero_iff_zero_lt, Nat.div_pos_iff]
    omega
  unfold stateFor stateAt bip9State
  have htagged' : SignalsTagged P id (periodEnd P id chain) :=
    fun index hindex => htagged index (List.mem_of_mem_drop hindex)
  rw [hdiv, bip9After_eq htagged', stateAfter_eq_iff htimes.periodEnd hlen, hne]

/-! ## How the state moves -/

inductive Moves : ThresholdState → ThresholdState → Prop where
  | start : Moves .THRESHOLD_DEFINED .THRESHOLD_STARTED
  | lockIn : Moves .THRESHOLD_STARTED .THRESHOLD_LOCKED_IN
  | activate : Moves .THRESHOLD_LOCKED_IN .THRESHOLD_ACTIVE
  | fail : Moves .THRESHOLD_DEFINED .THRESHOLD_FAILED
  | timeout : Moves .THRESHOLD_STARTED .THRESHOLD_FAILED

def ThresholdState.rank : ThresholdState → ℕ
  | .THRESHOLD_DEFINED => 0
  | .THRESHOLD_STARTED => 1
  | .THRESHOLD_LOCKED_IN => 2
  | .THRESHOLD_ACTIVE => 3
  | .THRESHOLD_FAILED => 4

theorem ThresholdState.rank_injective : Function.Injective ThresholdState.rank := by
  intro a b h
  cases a <;> cases b <;> first | rfl | cases h

theorem Moves.rank_lt {a b : ThresholdState} (h : Moves a b) : a.rank < b.rank := by
  cases h <;> decide

theorem moves_nextState (state : ThresholdState) (chain : CChain) :
    nextState P id state chain = state ∨ Moves state (nextState P id state chain) := by
  cases state with
  | THRESHOLD_DEFINED =>
    unfold nextState
    simp only
    split
    · exact Or.inr .fail
    · split
      · exact Or.inr .start
      · exact Or.inl rfl
  | THRESHOLD_STARTED =>
    unfold nextState
    simp only
    split
    · exact Or.inr .timeout
    · split
      · exact Or.inr .lockIn
      · exact Or.inl rfl
  | THRESHOLD_LOCKED_IN => exact Or.inr .activate
  | THRESHOLD_ACTIVE => exact Or.inl rfl
  | THRESHOLD_FAILED => exact Or.inl rfl

/-- The chain of the first `n` blocks of a chain. -/
def firstBlocks (chain : CChain) (n : ℕ) : CChain := chain.drop (chain.length - n)

def stateAtPeriod (P : VersionBitsParams) (id : DeploymentPos) (chain : CChain) (m : ℕ) :
    ThresholdState := stateAt P id (firstBlocks chain (m * period P id))

theorem firstBlocks_length {n : ℕ} (hn : n ≤ chain.length) : (firstBlocks chain n).length = n := by
  unfold firstBlocks
  rw [List.length_drop]
  omega

theorem firstBlocks_self (chain : CChain) : firstBlocks chain chain.length = chain := by
  unfold firstBlocks
  rw [Nat.sub_self]
  rfl

theorem firstBlocks_drop {n k : ℕ} (hn : n ≤ chain.length) (hk : k ≤ n) :
    (firstBlocks chain n).drop k = firstBlocks chain (n - k) := by
  unfold firstBlocks
  rw [List.drop_drop]
  congr 1
  omega

theorem stateFor_firstBlocks {h : ℕ} (hh : h ≤ chain.length) :
    stateFor P id (firstBlocks chain h) = stateAtPeriod P id chain (h / period P id) := by
  have hmod := Nat.mod_le h (period P id)
  have hdiv := Nat.div_add_mod h (period P id)
  have hcomm := Nat.mul_comm (period P id) (h / period P id)
  unfold stateFor stateAtPeriod periodEnd
  rw [firstBlocks_length hh, firstBlocks_drop hh hmod]
  congr 2
  omega

theorem stateAtPeriod_zero : stateAtPeriod P id chain 0 = .THRESHOLD_DEFINED := by
  unfold stateAtPeriod stateAt
  rw [Nat.zero_mul, firstBlocks_length (Nat.zero_le _), Nat.zero_div]
  rfl

/-- **From one period to the next** the state stays or moves. -/
theorem stateAtPeriod_succ (htimes : TimesIncrease chain) {m : ℕ}
    (hm : (m + 1) * period P id ≤ chain.length) :
    stateAtPeriod P id chain (m + 1) = stateAtPeriod P id chain m ∨
      Moves (stateAtPeriod P id chain m) (stateAtPeriod P id chain (m + 1)) := by
  have hpos := period_pos P id
  have hsucc : (m + 1) * period P id = m * period P id + period P id := Nat.succ_mul m _
  have hprev : (firstBlocks chain ((m + 1) * period P id)).drop (period P id) =
      firstBlocks chain (m * period P id) := by
    rw [firstBlocks_drop hm (by rw [hsucc]; omega), hsucc, Nat.add_sub_cancel]
  have hstate : stateAtPeriod P id chain m =
      stateAfter P id m (firstBlocks chain (m * period P id)) := by
    unfold stateAtPeriod stateAt
    rw [firstBlocks_length (by omega), Nat.mul_div_cancel _ hpos]
  have hstate' : stateAtPeriod P id chain (m + 1) =
      stateAfter P id (m + 1) (firstBlocks chain ((m + 1) * period P id)) := by
    unfold stateAtPeriod stateAt
    rw [firstBlocks_length hm, Nat.mul_div_cancel _ hpos]
  rw [hstate', hstate, stateAfter, hprev]
  split
  · rename_i hstart
    refine Or.inl ?_
    cases m with
    | zero => rfl
    | succ m =>
      -- Every earlier period ended before the start time, too.
      have hmono : getMedianTimePast (firstBlocks chain ((m + 1) * period P id)) ≤
          getMedianTimePast (firstBlocks chain ((m + 1 + 1) * period P id)) := by
        rw [← hprev]
        exact getMedianTimePast_prev (n := m) (htimes.drop _) (firstBlocks_length hm)
      exact (stateAfter_of_lt (by omega)).symm
  · exact moves_nextState _ _

theorem rank_stateAtPeriod_mono (htimes : TimesIncrease chain) {m n : ℕ} (hmn : m ≤ n)
    (hn : n * period P id ≤ chain.length) :
    (stateAtPeriod P id chain m).rank ≤ (stateAtPeriod P id chain n).rank := by
  induction hmn with
  | refl => exact le_refl _
  | @step k hmn ih =>
    have hk : k * period P id ≤ chain.length :=
      (Nat.mul_le_mul_right _ (Nat.le_succ k)).trans hn
    refine (ih hk).trans ?_
    rcases stateAtPeriod_succ htimes hn with hsame | hmoves
    · rw [hsame]
    · exact hmoves.rank_lt.le

/-- **Along a chain** the state moves from one block to the next as in BIP9, or stays. -/
theorem stateFor_moves (htimes : TimesIncrease chain) {h : ℕ} (hh : h < chain.length) :
    stateFor P id (firstBlocks chain (h + 1)) = stateFor P id (firstBlocks chain h) ∨
      Moves (stateFor P id (firstBlocks chain h)) (stateFor P id (firstBlocks chain (h + 1))) := by
  rw [stateFor_firstBlocks hh, stateFor_firstBlocks hh.le]
  have hpos := period_pos P id
  rw [Nat.succ_div]
  split
  · rename_i hdvd
    refine stateAtPeriod_succ htimes ?_
    have hdiv := Nat.div_mul_cancel hdvd
    rw [Nat.succ_div, if_pos hdvd] at hdiv
    omega
  · exact Or.inl rfl

/-! ## Since when -/

/-- The loop of `GetStateSinceHeightFor`; the number is that of the periods up to the chain. -/
def sinceWalk (P : VersionBitsParams) (id : DeploymentPos) (initialState : ThresholdState) :
    ℕ → CChain → ThresholdConditionCache → CChain × ThresholdConditionCache
  | 0, pindexPrev, cache => (pindexPrev, cache)
  | n + 1, pindexPrev, cache =>
    let previousPeriodParent := pindexPrev.drop (period P id)
    if previousPeriodParent = [] then (pindexPrev, cache)
    else
      let (state, cache) := getStateFor P id previousPeriodParent cache
      if state = initialState then sinceWalk P id initialState n previousPeriodParent cache
      else (pindexPrev, cache)

def getStateSinceHeightFor (P : VersionBitsParams) (id : DeploymentPos) (pindexPrev : CChain)
    (cache : ThresholdConditionCache) : ℕ × ThresholdConditionCache :=
  let (initialState, cache) := getStateFor P id pindexPrev cache
  if initialState = .THRESHOLD_DEFINED then (0, cache)
  else
    let pindexPrev := periodEnd P id pindexPrev
    let (pindexPrev, cache) :=
      sinceWalk P id initialState (pindexPrev.length / period P id) pindexPrev cache
    (pindexPrev.length, cache)

theorem stateFor_periods {m : ℕ} (hm : m * period P id ≤ chain.length) :
    stateFor P id (firstBlocks chain (m * period P id)) = stateAtPeriod P id chain m := by
  rw [stateFor_firstBlocks hm, Nat.mul_div_cancel _ (period_pos P id)]

/-- **The loop** stops after the first period of those that have the state. -/
theorem sinceWalk_eq {n : ℕ} {cache : ThresholdConditionCache}
    (hcache : cache.Caches (stateAt P id))
    (hn : (n + 1) * period P id ≤ chain.length) :
    ∃ m cache', sinceWalk P id (stateAtPeriod P id chain (n + 1)) (n + 1)
        (firstBlocks chain ((n + 1) * period P id)) cache =
          (firstBlocks chain ((m + 1) * period P id), cache') ∧
      cache'.Caches (stateAt P id) ∧ m ≤ n ∧
      stateAtPeriod P id chain (m + 1) = stateAtPeriod P id chain (n + 1) ∧
      (m = 0 ∨ stateAtPeriod P id chain m ≠ stateAtPeriod P id chain (n + 1)) := by
  have hpos := period_pos P id
  generalize hstate : stateAtPeriod P id chain (n + 1) = state
  induction n generalizing cache with
  | zero =>
    refine ⟨0, cache, ?_, hcache, le_refl _, hstate, Or.inl rfl⟩
    unfold sinceWalk
    rw [firstBlocks_drop hn (by omega), if_pos]
    rw [← List.length_eq_zero_iff, firstBlocks_length (by omega)]
    omega
  | succ n ih =>
    have hsucc : (n + 1 + 1) * period P id = (n + 1) * period P id + period P id :=
      Nat.succ_mul (n + 1) _
    have hn' : (n + 1) * period P id ≤ chain.length := by omega
    have hprev : (firstBlocks chain ((n + 1 + 1) * period P id)).drop (period P id) =
        firstBlocks chain ((n + 1) * period P id) := by
      rw [firstBlocks_drop hn (by omega), hsucc, Nat.add_sub_cancel]
    have hne : firstBlocks chain ((n + 1) * period P id) ≠ [] := by
      rw [← List.length_pos_iff, firstBlocks_length hn']
      exact Nat.mul_pos (Nat.succ_pos n) hpos
    obtain ⟨hvalue, hcache'⟩ := getStateFor_eq (firstBlocks chain ((n + 1) * period P id)) hcache
    rw [stateFor_periods hn'] at hvalue
    unfold sinceWalk
    rw [hprev, if_neg hne]
    simp only [hvalue]
    by_cases hsame : stateAtPeriod P id chain (n + 1) = state
    · rw [if_pos hsame]
      obtain ⟨m, cache', hwalk, hkeep, hm, hlast, hfirst⟩ := ih hcache' hn' hsame
      exact ⟨m, cache', hwalk, hkeep, by omega, hlast, hfirst⟩
    · rw [if_neg hsame]
      exact ⟨n + 1, _, rfl, hcache', le_refl _, hstate, Or.inr hsame⟩

/-- **`GetStateSinceHeightFor` gives the first height of the current state**, that is of the state
of the block after the chain. -/
theorem getStateSinceHeightFor_eq {cache : ThresholdConditionCache} (htimes : TimesIncrease chain)
    (hcache : cache.Caches (stateAt P id)) :
    IsLeast {h | h ≤ chain.length ∧ stateFor P id (firstBlocks chain h) = stateFor P id chain}
        (getStateSinceHeightFor P id chain cache).1 ∧
      (getStateSinceHeightFor P id chain cache).2.Caches (stateAt P id) := by
  have hpos := period_pos P id
  have hself : stateFor P id chain = stateAtPeriod P id chain (chain.length / period P id) := by
    rw [← stateFor_firstBlocks (le_refl _), firstBlocks_self]
  obtain ⟨hvalue, hcache'⟩ := getStateFor_eq chain hcache
  unfold getStateSinceHeightFor
  simp only [hvalue]
  by_cases hdefined : stateFor P id chain = .THRESHOLD_DEFINED
  · rw [if_pos hdefined]
    refine ⟨⟨⟨Nat.zero_le _, ?_⟩, fun h _ => Nat.zero_le h⟩, hcache'⟩
    rw [stateFor_firstBlocks (Nat.zero_le _), Nat.zero_div, stateAtPeriod_zero, hdefined]
  · rw [if_neg hdefined]
    have hperiods : chain.length / period P id ≠ 0 := by
      intro hzero
      rw [hself, hzero, stateAtPeriod_zero] at hdefined
      exact hdefined rfl
    obtain ⟨n, hn⟩ := Nat.exists_eq_succ_of_ne_zero hperiods
    have hle : (n + 1) * period P id ≤ chain.length := by
      have hmul := Nat.div_mul_le_self chain.length (period P id)
      rw [hn] at hmul
      exact hmul
    have hend : periodEnd P id chain = firstBlocks chain ((n + 1) * period P id) := by
      have hdiv := Nat.div_add_mod chain.length (period P id)
      have hcomm := Nat.mul_comm (period P id) (chain.length / period P id)
      unfold periodEnd firstBlocks
      rw [hn] at hcomm hdiv
      congr 1
      have hsame : (n + 1) * period P id = n.succ * period P id := rfl
      omega
    have hcount : (periodEnd P id chain).length / period P id = n + 1 := by
      rw [hend, firstBlocks_length hle, Nat.mul_div_cancel _ hpos]
    rw [hcount, hend, hself, hn]
    obtain ⟨m, cache', hwalk, hkeep, hm, hlast, hfirst⟩ := sinceWalk_eq (n := n) hcache' hle
    have hmle : (m + 1) * period P id ≤ chain.length :=
      (Nat.mul_le_mul_right _ (by omega)).trans hle
    have hstate : stateAtPeriod P id chain n.succ = stateAtPeriod P id chain (n + 1) := rfl
    simp only [hstate, hwalk, firstBlocks_length hmle]
    refine ⟨⟨⟨hmle, ?_⟩, ?_⟩, hkeep⟩
    · rw [stateFor_periods hmle, hlast]
    · rintro h ⟨hh, hsame⟩
      rw [stateFor_firstBlocks hh] at hsame
      by_contra hlt
      have hquot : h / period P id < m + 1 := (Nat.div_lt_iff_lt_mul hpos).2 (by omega)
      rcases hfirst with rfl | hne
      · -- Only the first period is before, and it is defined.
        have hzero : h / period P id = 0 := Nat.lt_one_iff.1 (by simpa using hquot)
        rw [hzero, stateAtPeriod_zero] at hsame
        rw [hself, hn, hstate, ← hsame] at hdefined
        exact hdefined rfl
      · have hmle' : m * period P id ≤ chain.length :=
          (Nat.mul_le_mul_right _ (by omega)).trans hmle
        have hlow := rank_stateAtPeriod_mono htimes (show h / period P id ≤ m by omega) hmle'
        have hhigh := rank_stateAtPeriod_mono htimes (show m ≤ m + 1 by omega) hmle
        rw [hsame] at hlow
        rw [hlast] at hhigh
        exact hne (ThresholdState.rank_injective (le_antisymm hhigh hlow))

def filledCache (P : VersionBitsParams) (id : DeploymentPos) (earlier : List CChain) :
    ThresholdConditionCache :=
  earlier.foldl (fun cache chain => (getStateFor P id chain cache).2) ∅

theorem filledCache_caches (earlier : List CChain) :
    (filledCache P id earlier).Caches (stateAt P id) := by
  unfold filledCache
  exact List.foldlRecOn (motive := StdMap.Caches (stateAt P id)) _ _
    StdMap.Caches.empty fun cache hcache chain _ => (getStateFor_eq chain hcache).2

/-- **Version bits and BIP9.**  Whatever calls have filled the cache: on a chain whose signals are
those of BIP9, `GetStateFor` gives its state, unless the timeout has passed at the last period end
and the start time has not come; `GetStateSinceHeightFor` gives the first height of the state; and
along the chain the state moves as in BIP9. -/
theorem versionBits_bip9 (earlier : List CChain) (htimes : TimesIncrease chain) :
    (SignalsTagged P id chain →
      ((getStateFor P id chain (filledCache P id earlier)).1 = bip9State P id chain ↔
        ¬ (period P id ≤ chain.length ∧
          (P.vDeployments id).nTimeout ≤ (getMedianTimePast (periodEnd P id chain) : ℤ) ∧
          (getMedianTimePast (periodEnd P id chain) : ℤ) < (P.vDeployments id).nStartTime))) ∧
    IsLeast {h | h ≤ chain.length ∧
        (getStateFor P id (firstBlocks chain h) (filledCache P id earlier)).1 =
          (getStateFor P id chain (filledCache P id earlier)).1}
      (getStateSinceHeightFor P id chain (filledCache P id earlier)).1 ∧
    ∀ h < chain.length,
      let state := (getStateFor P id (firstBlocks chain h) (filledCache P id earlier)).1
      let state' := (getStateFor P id (firstBlocks chain (h + 1)) (filledCache P id earlier)).1
      state' = state ∨ Moves state state' := by
  have hcache := @filledCache_caches P id earlier
  have hvalue : ∀ chain, (getStateFor P id chain (filledCache P id earlier)).1 =
      stateFor P id chain := fun chain => (getStateFor_eq chain hcache).1
  simp only [hvalue]
  exact ⟨fun htagged => stateFor_eq_iff htimes htagged, (getStateSinceHeightFor_eq htimes hcache).1,
    fun h hh => stateFor_moves htimes hh⟩

/-- Periods of one block, and the start time 10. -/
def shortPeriods (nTimeout : ℤ) : VersionBitsParams where
  nRuleChangeActivationThreshold := 1
  nMinerConfirmationWindow := 1
  vDeployments := fun _ => ⟨6, 10, nTimeout, 0, 0⟩
  period_pos := fun _ => (by decide : 0 < overridden 0 1)

def blockAt (nVersion : Int32) (nTime : UInt32) : CBlockIndex :=
  { CBlockIndex.null with nVersion := nVersion, nTime := nTime }

/-- **The early exit makes a difference**: a deployment that has timed out before it could start is
taken to be defined. -/
theorem earlyExit_differs :
    TimesIncrease [blockAt 0 5] ∧
      (getStateFor (shortPeriods 3) .DEPLOYMENT_ASSETS [blockAt 0 5] ∅).1 = .THRESHOLD_DEFINED ∧
      bip9State (shortPeriods 3) .DEPLOYMENT_ASSETS [blockAt 0 5] = .THRESHOLD_FAILED := by
  refine ⟨⟨fun h => absurd rfl h, trivial⟩, ?_, ?_⟩ <;> decide +kernel

def signalling : CChain := [blockAt 4 14, blockAt 0x20000040 13, blockAt 4 12]

/-- The deployment starts, is locked in by the second block and then active.  The cache has seen a
branch whose second block does not signal. -/
theorem signalling_active :
    (getStateFor (shortPeriods 100) .DEPLOYMENT_ASSETS signalling
        (filledCache (shortPeriods 100) .DEPLOYMENT_ASSETS [[blockAt 4 20, blockAt 4 12]])).1 =
      bip9State (shortPeriods 100) .DEPLOYMENT_ASSETS signalling ∧
    bip9State (shortPeriods 100) .DEPLOYMENT_ASSETS signalling = .THRESHOLD_ACTIVE := by
  have hmedian : getMedianTimePast [blockAt 0x20000040 13, blockAt 4 12] = 13 := by
    simp [getMedianTimePast, blockAt, List.mergeSort, List.MergeSort.Internal.splitInTwo]
  have htimes : TimesIncrease signalling :=
    ⟨fun _ => hmedian.trans_lt (by decide), fun _ => by decide +kernel, fun h => absurd rfl h,
      trivial⟩
  have htagged : SignalsTagged (shortPeriods 100) .DEPLOYMENT_ASSETS signalling := by
    unfold SignalsTagged
    decide +kernel
  refine ⟨((versionBits_bip9 _ htimes).1 htagged).2 ?_, ?_⟩
  · rintro ⟨-, hexpired, hstart⟩
    exact absurd (hexpired.trans_lt hstart) (by decide)
  · have hstarted : bip9After (shortPeriods 100) .DEPLOYMENT_ASSETS 1 [blockAt 4 12] =
        .THRESHOLD_STARTED := by decide +kernel
    have hlocked : bip9After (shortPeriods 100) .DEPLOYMENT_ASSETS 2
        [blockAt 0x20000040 13, blockAt 4 12] = .THRESHOLD_LOCKED_IN := by
      change bip9Next _ _ (bip9After (shortPeriods 100) .DEPLOYMENT_ASSETS 1 [blockAt 4 12]) _ = _
      rw [hstarted, bip9Next, hmedian]
      decide +kernel
    change bip9Next _ _ (bip9After (shortPeriods 100) .DEPLOYMENT_ASSETS 2
      [blockAt 0x20000040 13, blockAt 4 12]) _ = _
    rw [hlocked]
    rfl

end UnemployCoin
