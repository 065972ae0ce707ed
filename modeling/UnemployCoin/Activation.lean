import UnemployCoin.AssetAmounts
import UnemployCoin.ConnectBlock
import UnemployCoin.Lib.Run
import UnemployCoin.VersionBits
/-!
# Which rules are active

`AreAssetsDeployed`, `IsRip5Active` and their siblings (`validation.cpp`) look at the state of a
deployment at the tip, **until they have seen it active once**.  From then on a flag of the
process answers.
-/

namespace UnemployCoin

/-! ## The flags -/

structure ActivationState where
  /-- `chainActive`, tip first. -/
  chainActive : CChain
  /-- `fAssetsIsActive`, `fRip5IsActive`, `fTransferScriptIsActive`, `fEnforcedValuesIsActive` and
  `fCheckCoinbaseAssetsIsActive`. -/
  fIsActive : DeploymentPos → Bool
  versionbitscache : DeploymentPos → ThresholdConditionCache

def ActivationState.started (chainActive : CChain) : ActivationState :=
  ⟨chainActive, fun _ => false, fun _ => ∅⟩

def activates : DeploymentPos → ThresholdState → Bool
  | .DEPLOYMENT_ENFORCE_VALUE, state => state == .THRESHOLD_ACTIVE || state == .THRESHOLD_LOCKED_IN
  | _, state => state == .THRESHOLD_ACTIVE

section Flags

variable (P : VersionBitsParams) (s : ActivationState)

/-- What `AreAssetsDeployed` and its siblings do: the answer, and the state afterwards. -/
def isDeployed (id : DeploymentPos) : Bool × ActivationState :=
  if s.fIsActive id then (true, s)
  else
    -- `VersionBitsTipState`.
    let (thresholdState, cache) := getStateFor P id s.chainActive (s.versionbitscache id)
    let s := { s with versionbitscache := Function.update s.versionbitscache id cache }
    if activates id thresholdState then
      (true, { s with fIsActive := Function.update s.fIsActive id true })
    else (false, s)

def areAssetsDeployed : Bool × ActivationState := isDeployed P s .DEPLOYMENT_ASSETS

/-- `IsRip5Active`, which `AreMessagesDeployed` and `AreRestrictedAssetsDeployed` ask. -/
def isRip5Active : Bool × ActivationState := isDeployed P s .DEPLOYMENT_MSG_REST_ASSETS

def areTransferScriptsSizeDeployed : Bool × ActivationState :=
  isDeployed P s .DEPLOYMENT_TRANSFER_SCRIPT_SIZE

def areEnforcedValuesDeployed : Bool × ActivationState := isDeployed P s .DEPLOYMENT_ENFORCE_VALUE

def areCoinbaseCheckAssetsDeployed : Bool × ActivationState :=
  isDeployed P s .DEPLOYMENT_COINBASE_ASSETS

def ActivationState.deployments : Deployments where
  areAssetsDeployed := (areAssetsDeployed P s).1
  areMessagesDeployed := (isRip5Active P s).1
  areRestrictedAssetsDeployed := (isRip5Active P s).1
  areEnforcedValuesDeployed := (areEnforcedValuesDeployed P s).1
  areCoinbaseCheckAssetsDeployed := (areCoinbaseCheckAssetsDeployed P s).1
  areTransferScriptsSizeDeployed := (areTransferScriptsSizeDeployed P s).1

end Flags

/-! ## Runs -/

inductive ActivationEvent where
  | connectTip (index : CBlockIndex)
  | disconnectTip
  | ask (id : DeploymentPos)
  /-- The process ends and is started again. -/
  | restart

def activation (P : VersionBitsParams) : Machine ActivationState ActivationEvent where
  step s
    | .connectTip index => some { s with chainActive := index :: s.chainActive }
    | .disconnectTip =>
      match s.chainActive with
      | [] => none
      | _ :: chain => some { s with chainActive := chain }
    | .ask id => some (isDeployed P s id).2
    | .restart => some (.started s.chainActive)

/-- Every deployment whose flag is set counts as active for the block after some chain. -/
def FlagsHold (P : VersionBitsParams) (s : ActivationState) (chain : CChain) : Prop :=
  ∀ id, s.fIsActive id = true → activates id (stateFor P id chain) = true

/-- **No change of the tip makes a flag out of date.** -/
def ActivationEvent.KeepsFlags (P : VersionBitsParams) (s : ActivationState) :
    ActivationEvent → Prop
  | .connectTip index => FlagsHold P s (index :: s.chainActive)
  | .disconnectTip => FlagsHold P s s.chainActive.tail
  | .ask _ => True
  | .restart => True

def AnswersOfTip (P : VersionBitsParams) (s : ActivationState) : Prop :=
  ∀ id, (isDeployed P s id).1 = activates id (stateFor P id s.chainActive)

section Runs

variable {P : VersionBitsParams} {s s' t : ActivationState} {id : DeploymentPos}

def CachesHold (P : VersionBitsParams) (s : ActivationState) : Prop :=
  ∀ id, (s.versionbitscache id).Caches (stateAt P id)

/-- **The answer is the state at the tip, or the flag.** -/
theorem isDeployed_eq (h : CachesHold P s) (id : DeploymentPos) :
    (isDeployed P s id).1 = (s.fIsActive id || activates id (stateFor P id s.chainActive)) := by
  rw [isDeployed]
  cases hflag : s.fIsActive id with
  | true => rfl
  | false =>
    obtain ⟨hstate, -⟩ := getStateFor_eq s.chainActive (h id)
    rw [if_neg Bool.false_ne_true]
    dsimp only
    rw [hstate, Bool.false_or]
    cases activates id (stateFor P id s.chainActive) <;> rfl

theorem isDeployed_state (h : CachesHold P s) (id : DeploymentPos) :
    (isDeployed P s id).2.chainActive = s.chainActive ∧ CachesHold P (isDeployed P s id).2 ∧
      ∀ id', (isDeployed P s id).2.fIsActive id' = true → s.fIsActive id' = true ∨
        activates id' (stateFor P id' s.chainActive) = true := by
  rw [isDeployed]
  cases hflag : s.fIsActive id with
  | true => exact ⟨rfl, h, fun id' hid' => .inl hid'⟩
  | false =>
    obtain ⟨hstate, hcache⟩ := getStateFor_eq s.chainActive (h id)
    rw [if_neg Bool.false_ne_true]
    dsimp only
    have hcaches : ∀ id', (Function.update s.versionbitscache id
        (getStateFor P id s.chainActive (s.versionbitscache id)).2 id').Caches (stateAt P id') := by
      intro id'
      by_cases heq : id' = id
      · subst heq
        rw [Function.update_self]
        exact hcache
      · rw [Function.update_of_ne heq]
        exact h id'
    cases hactive : activates id (getStateFor P id s.chainActive (s.versionbitscache id)).1 with
    | false => exact ⟨rfl, hcaches, fun id' hid' => .inl hid'⟩
    | true =>
      refine ⟨rfl, hcaches, fun id' hid' => ?_⟩
      by_cases heq : id' = id
      · subst heq
        rw [hstate] at hactive
        exact .inr hactive
      · have hsame : Function.update s.fIsActive id true id' = true := hid'
        rw [Function.update_of_ne heq] at hsame
        exact .inl hsame

theorem step_cachesHold {e : ActivationEvent} (h : CachesHold P s)
    (hstep : (activation P).step s e = some s') : CachesHold P s' := by
  cases e with
  | connectTip index =>
    cases hstep
    exact h
  | disconnectTip =>
    have hstep' : (match s.chainActive with
      | [] => none
      | _ :: chain => some { s with chainActive := chain }) = some s' := hstep
    split at hstep'
    · cases hstep'
    · cases hstep'
      exact h
  | ask id =>
    cases hstep
    exact (isDeployed_state h id).2.1
  | restart =>
    cases hstep
    exact fun _ => .empty

theorem answersOfTip_iff (h : CachesHold P s) : AnswersOfTip P s ↔ FlagsHold P s s.chainActive := by
  constructor
  · intro hall id hflag
    rw [← hall id, isDeployed_eq h, hflag, Bool.true_or]
  · intro hflags id
    rw [isDeployed_eq h]
    cases hflag : s.fIsActive id with
    | false => exact Bool.false_or _
    | true => rw [hflags id hflag, Bool.true_or]

/-- **A step keeps the answers those of the tip exactly when it makes no flag out of date.** -/
theorem step_keepsFlags {e : ActivationEvent} (h : CachesHold P s ∧ FlagsHold P s s.chainActive)
    (hstep : (activation P).step s e = some s') :
    e.KeepsFlags P s ↔ CachesHold P s' ∧ FlagsHold P s' s'.chainActive := by
  have hcaches := step_cachesHold h.1 hstep
  rw [and_iff_right hcaches]
  cases e with
  | connectTip index =>
    cases hstep
    exact Iff.rfl
  | disconnectTip =>
    have hstep' : (match s.chainActive with
      | [] => none
      | _ :: chain => some { s with chainActive := chain }) = some s' := hstep
    split at hstep'
    · cases hstep'
    · rename_i index chain hchain
      cases hstep'
      rw [ActivationEvent.KeepsFlags, hchain]
      exact Iff.rfl
  | ask id =>
    cases hstep
    refine iff_of_true trivial ?_
    obtain ⟨htip, -, hflags⟩ := isDeployed_state h.1 id
    intro id' hid'
    rw [htip]
    exact (hflags id' hid').elim (h.2 id') fun hactive => hactive
  | restart =>
    cases hstep
    exact iff_of_true trivial fun id hflag => absurd hflag Bool.false_ne_true

theorem started_holds (chain : CChain) :
    CachesHold P (.started chain) ∧ FlagsHold P (.started chain) chain :=
  ⟨fun _ => .empty, fun _ hflag => absurd hflag Bool.false_ne_true⟩

theorem deployments_eq (h : AnswersOfTip P s) (h' : AnswersOfTip P s')
    (htip : s.chainActive = s'.chainActive) : s.deployments P = s'.deployments P := by
  have hsame : ∀ id, (isDeployed P s id).1 = (isDeployed P s' id).1 := by
    intro id
    rw [h id, h' id, htip]
  rw [ActivationState.deployments, ActivationState.deployments]
  simp only [areAssetsDeployed, isRip5Active, areTransferScriptsSizeDeployed,
    areEnforcedValuesDeployed, areCoinbaseCheckAssetsDeployed, hsame]

theorem answers_iff {chain : CChain} {es : List ActivationEvent}
    (hexec : (activation P).exec (.started chain) es = some t) :
    (∀ pre post u, es = pre ++ post → (activation P).exec (.started chain) pre = some u →
      AnswersOfTip P u) ↔
    (activation P).Along (fun s e => e.KeepsFlags P s) (.started chain) es := by
  have hcaches : ∀ pre u, (activation P).exec (.started chain) pre = some u → CachesHold P u := by
    intro pre u hu
    exact Machine.exec_invariant (I := CachesHold P) (P := fun _ _ => True)
      (fun s e s' h _ hstep => step_cachesHold h hstep) (started_holds chain).1
      (Machine.Along.of_forall fun _ _ _ => trivial) hu
  have hreached := Machine.reached_iff (I := fun s => CachesHold P s ∧ FlagsHold P s s.chainActive)
    (P := fun s e => e.KeepsFlags P s) (fun s e s' h hstep => step_keepsFlags h hstep)
    (started_holds chain) hexec
  rw [← hreached]
  constructor
  · intro hall pre post u hsplit hu
    have hu' := hcaches pre u hu
    exact ⟨hu', (answersOfTip_iff hu').1 (hall pre post u hsplit hu)⟩
  · intro hall pre post u hsplit hu
    exact (answersOfTip_iff (hcaches pre u hu)).2 (hall pre post u hsplit hu).2

/-- The environment of a validation routine that gets its answers from some process. -/
def Env.withActivation (env : Env) (P : VersionBitsParams) (s : ActivationState) : Env :=
  { env with dep := s.deployments P }

end Runs

/-! ## A flag that is out of date -/

def regTestVersionBits : VersionBitsParams where
  nRuleChangeActivationThreshold := 108
  nMinerConfirmationWindow := 144
  vDeployments
    | .DEPLOYMENT_ASSETS => ⟨6, 0, 999999999999, 108, 144⟩
    | .DEPLOYMENT_MSG_REST_ASSETS => ⟨7, 0, 999999999999, 108, 144⟩
    | .DEPLOYMENT_TRANSFER_SCRIPT_SIZE => ⟨8, 0, 999999999999, 208, 288⟩
    | .DEPLOYMENT_ENFORCE_VALUE => ⟨9, 0, 999999999999, 108, 144⟩
    | .DEPLOYMENT_COINBASE_ASSETS => ⟨10, 0, 999999999999, 400, 500⟩
  period_pos id := by cases id <;> decide

theorem activates_of_short {P : VersionBitsParams} {id : DeploymentPos}
    (hthreshold : period P id < threshold P id)
    (htimeout : (2 ^ 32 : ℤ) ≤ (P.vDeployments id).nTimeout) (chain : CChain) :
    activates id (stateFor P id chain) = false := by
  rw [stateFor, stateAt]
  rcases stateAfter_of_short hthreshold htimeout _ _ with hstate | hstate <;>
    rw [hstate] <;> cases id <;> rfl

/-- On the regression test network **no deployment activates**: the literals have the threshold in
front of the window, the struct has it behind. -/
theorem regTest_inactive (id : DeploymentPos) (chain : CChain) :
    activates id (stateFor regTestVersionBits id chain) = false := by
  apply activates_of_short <;> cases id <;> decide

/-- With a window of 500 blocks and a threshold of 400 for the check of the coinbase. -/
def signalVersionBits : VersionBitsParams where
  nRuleChangeActivationThreshold := 108
  nMinerConfirmationWindow := 144
  vDeployments
    | .DEPLOYMENT_COINBASE_ASSETS => ⟨10, 0, 999999999999, 500, 400⟩
    | id => regTestVersionBits.vDeployments id
  period_pos id := by cases id <;> decide

def signalIndex : CBlockIndex := { CBlockIndex.null with nVersion := 0x30000400 }

/-- A chain of blocks that signal for the check of the coinbase. -/
def signalChain (n : ℕ) : CChain := List.replicate n signalIndex

/-- The check of the coinbase is seen active, and the block that makes it so is disconnected. -/
def staleFlagRun : List ActivationEvent := [.ask .DEPLOYMENT_COINBASE_ASSETS, .disconnectTip]

def assetCoinbaseBlock : CBlock where
  hash := 1
  vtx := [{
    hash := 2
    vin := [⟨⟨0, 0xffffffff⟩, [0, 0]⟩]
    vout := [⟨0, CAssetTransfer.constructTransaction ⟨ascii "NAME", 100, [], 0⟩
      (getScriptForKeyID (List.replicate 20 7))⟩] }]

def activationEnv : Env := amountEnv .none

def activationRules : ScriptRules :=
  ⟨fun _ => true, fun _ _ _ => true, fun _ _ _ => 0, fun _ _ _ => true⟩

theorem stateAfter_signal {P : VersionBitsParams} {id : DeploymentPos}
    (hstart : (P.vDeployments id).nStartTime = 0)
    (htimeout : (2 ^ 32 : ℤ) ≤ (P.vDeployments id).nTimeout) {chain : CChain}
    (hcount : threshold P id ≤ (chain.take (period P id)).countP (condition P id)) :
    stateAfter P id 2 chain = .THRESHOLD_LOCKED_IN := by
  have htime : ∀ chain : CChain, ¬ (P.vDeployments id).nTimeout ≤ (getMedianTimePast chain : ℤ) ∧
      ¬ (getMedianTimePast chain : ℤ) < (P.vDeployments id).nStartTime := by
    intro chain
    have := getMedianTimePast_lt chain
    omega
  have hone : ∀ chain : CChain, stateAfter P id 1 chain = .THRESHOLD_STARTED := by
    intro chain
    rw [stateAfter, if_neg (htime chain).2, stateAfter, nextState, if_neg (htime chain).1,
      if_pos (Int.not_lt.1 (htime chain).2)]
  rw [stateAfter, if_neg (htime chain).2, hone, nextState, if_neg (htime chain).1, if_pos hcount]

theorem fIsActive_of_isDeployed {P : VersionBitsParams} {s : ActivationState} {id : DeploymentPos}
    (h : (isDeployed P s id).1 = true) : (isDeployed P s id).2.fIsActive id = true := by
  rw [isDeployed] at h ⊢
  cases hflag : s.fIsActive id with
  | true => exact hflag
  | false =>
    rw [hflag, if_neg Bool.false_ne_true] at h
    rw [if_neg Bool.false_ne_true]
    dsimp only at h ⊢
    split at h
    · rename_i hactive
      rw [if_pos hactive]
      exact Function.update_self ..
    · cases h

theorem isDeployed_stale {P : VersionBitsParams} {id : DeploymentPos} {index : CBlockIndex}
    {chain : CChain} (hactive : activates id (stateFor P id (index :: chain)) = true) :
    ∃ t, (activation P).exec (.started (index :: chain)) [.ask id, .disconnectTip] = some t ∧
      t.chainActive = chain ∧ (isDeployed P t id).1 = true ∧
      ∀ id', activates id' (stateFor P id' (index :: chain)) = false →
        activates id' (stateFor P id' chain) = false → (isDeployed P t id').1 = false := by
  have hstarted : CachesHold P (.started (index :: chain)) := (started_holds _).1
  obtain ⟨htip, hcaches, hflags⟩ := isDeployed_state hstarted id
  have hflag : (isDeployed P (.started (index :: chain)) id).2.fIsActive id = true := by
    refine fIsActive_of_isDeployed ?_
    rw [isDeployed_eq hstarted]
    exact (congrArg _ hactive).trans (Bool.or_true _)
  obtain ⟨s, hs⟩ : ∃ s, s = (isDeployed P (.started (index :: chain)) id).2 := ⟨_, rfl⟩
  rw [← hs] at htip hcaches hflags hflag
  have hcaches' : CachesHold P { s with chainActive := chain } := hcaches
  refine ⟨{ s with chainActive := chain }, ?_, rfl, ?_, fun id' hbefore hafter => ?_⟩
  · refine Machine.exec_cons.2 ⟨s, congrArg some hs.symm, Machine.exec_cons.2 ⟨_, ?_, rfl⟩⟩
    have hstep : (activation P).step s .disconnectTip =
        (match s.chainActive with
          | [] => none
          | _ :: chain => some { s with chainActive := chain }) := rfl
    rw [hstep, htip]
    rfl
  · rw [isDeployed_eq hcaches']
    exact (congrArg (· || _) hflag).trans (Bool.true_or _)
  · have hunset : s.fIsActive id' = false := by
      rw [← Bool.not_eq_true]
      intro hset
      rcases hflags id' hset with hstart | hholds
      · exact absurd hstart Bool.false_ne_true
      · exact absurd (hholds.symm.trans hbefore) (by decide)
    rw [isDeployed_eq hcaches']
    exact (congrArg₂ (· || ·) hunset hafter).trans (Bool.or_false _)

theorem stateFor_signal_other {id : DeploymentPos} (h : id ≠ .DEPLOYMENT_COINBASE_ASSETS)
    (chain : CChain) : activates id (stateFor signalVersionBits id chain) = false := by
  cases id with
  | DEPLOYMENT_COINBASE_ASSETS => exact absurd rfl h
  | _ => exact activates_of_short (by decide) (by decide) chain

theorem stateFor_signal_coinbase :
    stateFor signalVersionBits .DEPLOYMENT_COINBASE_ASSETS (signalChain 1500) =
        .THRESHOLD_ACTIVE ∧
      stateFor signalVersionBits .DEPLOYMENT_COINBASE_ASSETS (signalChain 1499) =
        .THRESHOLD_LOCKED_IN := by
  have hperiod : period signalVersionBits .DEPLOYMENT_COINBASE_ASSETS = 500 := rfl
  have hlocked : ∀ n, 500 ≤ n → stateAfter signalVersionBits .DEPLOYMENT_COINBASE_ASSETS 2
      (List.replicate n signalIndex) = .THRESHOLD_LOCKED_IN := by
    intro n hn
    refine stateAfter_signal rfl (by decide) ?_
    have hsignals : condition signalVersionBits .DEPLOYMENT_COINBASE_ASSETS signalIndex = true := by
      decide
    rw [hperiod, List.take_replicate, Nat.min_eq_left hn, List.countP_replicate, if_pos hsignals]
    decide
  constructor
  · have hstart : ¬ (getMedianTimePast (List.replicate 1500 signalIndex) : ℤ) <
        (signalVersionBits.vDeployments .DEPLOYMENT_COINBASE_ASSETS).nStartTime :=
      Int.not_lt.2 (Int.natCast_nonneg _)
    rw [stateFor, stateAt, periodEnd, signalChain, hperiod, List.length_replicate,
      List.drop_replicate, List.length_replicate, stateAfter, if_neg hstart, hperiod,
      List.drop_replicate, hlocked _ (by decide)]
    rfl
  · rw [stateFor, stateAt, periodEnd, signalChain, hperiod, List.length_replicate,
      List.drop_replicate, List.length_replicate]
    exact hlocked _ (by decide)

end UnemployCoin
