import UnemployCoin.AssetOwnership
import UnemployCoin.InterpreterBounds
import UnemployCoin.ScriptParsing
/-!
# Runs of a script

What `EvalScript` does with one operation after the other, on a script of which the first
operations are known.  `evalRest` is the loop with as many rounds as the script has bytes, so that
no rule counts rounds.
-/

namespace UnemployCoin

open Check

variable {crypto : ScriptCrypto} {checker : BaseSignatureChecker} {flags : UInt32}
  {sigversion : SigVersion} {s rest code : CScript}

/-! ## Rounds -/

section Runs

variable (crypto checker flags sigversion)

theorem bind_of_ok {α β : Type} {r : Eval α} {a : α} (h : r = .ok a) (f : α → Eval β) :
    (r >>= f) = f a := by
  rw [h]
  rfl

def evalRest (s : EvalState) : Eval EvalState :=
  evalLoop crypto checker flags sigversion s.pc.length s

variable {crypto checker flags sigversion} {stack altstack : List Bytes} {k : ℕ} {opcode : UInt8}
  {data : Bytes} {t t' : EvalState}

theorem evalRest_nil : evalRest crypto checker flags sigversion ⟨stack, altstack, [], [], code, k⟩ =
    .ok ⟨stack, altstack, [], [], code, k⟩ := rfl

theorem evalRest_round (hpc : t.pc ≠ []) :
    evalRest crypto checker flags sigversion t =
      evalStep crypto checker flags sigversion t >>= evalRest crypto checker flags sigversion := by
  obtain ⟨b, pc, hcons⟩ := List.exists_cons_of_ne_nil hpc
  have hempty : ¬t.pc.isEmpty = true := by rwa [List.isEmpty_iff]
  have hlength : t.pc.length = pc.length + 1 := congrArg List.length hcons
  rw [evalRest, hlength, evalLoop, if_neg hempty]
  cases hstep : evalStep crypto checker flags sigversion t with
  | error e => rfl
  | ok t' =>
    have hlt := length_pc_evalStep hstep
    exact evalLoop_eq (by omega)

theorem evalRest_step (hpc : t.pc ≠ []) (h : evalStep crypto checker flags sigversion t = .ok t') :
    evalRest crypto checker flags sigversion t = evalRest crypto checker flags sigversion t' := by
  rw [evalRest_round hpc, h]
  rfl

theorem evalScript_eq (hlength : s.length ≤ MAX_SCRIPT_SIZE) :
    evalScript crypto checker flags sigversion stack s = (do
      let t ← evalRest crypto checker flags sigversion (.start stack s)
      require t.vfExec.isEmpty .SCRIPT_ERR_UNBALANCED_CONDITIONAL
      return t.stack) := by
  rw [evalScript, decide_eq_true hlength]
  rfl

theorem evalScript_of_evalRest (hlength : s.length ≤ MAX_SCRIPT_SIZE)
    (h : evalRest crypto checker flags sigversion (.start stack s) = .ok t)
    (hif : t.vfExec.isEmpty = true) :
    evalScript crypto checker flags sigversion stack s = .ok t.stack := by
  rw [evalScript_eq hlength, h]
  exact require_bind.2 ⟨hif, rfl⟩

theorem evalRest_op_eq (hop : OP_16 < opcode) (hne : opcode ≠ OP_UNEMP_ASSET)
    (henabled : disabledOpcodes.contains opcode = false) (hk : k + 1 ≤ MAX_OPS_PER_SCRIPT) :
    evalRest crypto checker flags sigversion ⟨stack, altstack, [], opcode :: rest, code, k⟩ = (do
      let t ← evalOp crypto checker flags sigversion true opcode
        ⟨stack, altstack, [], rest, code, k + 1⟩
      require (decide (t.stack.length + t.altstack.length ≤ MAX_STACK_SIZE)) .SCRIPT_ERR_STACK_SIZE
      evalRest crypto checker flags sigversion t) := by
  have hops : (decide (opcode ≤ OP_16) || decide (k + 1 ≤ MAX_OPS_PER_SCRIPT)) = true := by
    rw [decide_eq_true hk, Bool.or_true]
  have hexecute : execute crypto checker flags sigversion true opcode []
      ⟨stack, altstack, [], rest, code, k + 1⟩ = evalOp crypto checker flags sigversion true opcode
        ⟨stack, altstack, [], rest, code, k + 1⟩ := by
    rw [execute, if_neg fun hpush => not_push hop hpush.2, if_pos (.inl rfl)]
  have hstep : evalStep crypto checker flags sigversion
      ⟨stack, altstack, [], opcode :: rest, code, k⟩ = (do
        let t ← evalOp crypto checker flags sigversion true opcode
          ⟨stack, altstack, [], rest, code, k + 1⟩
        require (decide (t.stack.length + t.altstack.length ≤ MAX_STACK_SIZE))
          .SCRIPT_ERR_STACK_SIZE
        return t) := by
    have hget : demand (CScript.getOp (opcode :: rest)) ScriptError.SCRIPT_ERR_BAD_OPCODE =
        .ok (opcode, [], rest) := by
      rw [getOp_cons hop hne]
      rfl
    rw [evalStep]
    refine (bind_of_ok hget _).trans ((bind_of_ok rfl _).trans ?_)
    dsimp only
    rw [if_pos hop, ← hexecute]
    refine (bind_of_ok (require_ok.2 hops) _).trans ((bind_of_ok (require_ok.2 ?_) _).trans rfl)
    rw [henabled]
    rfl
  rw [evalRest_round (List.cons_ne_nil _ _), hstep]
  simp only [bind_assoc, pure_bind]

theorem evalRest_op (hop : OP_16 < opcode) (hne : opcode ≠ OP_UNEMP_ASSET)
    (henabled : disabledOpcodes.contains opcode = false) (hk : k + 1 ≤ MAX_OPS_PER_SCRIPT)
    (h : evalOp crypto checker flags sigversion true opcode
      ⟨stack, altstack, [], rest, code, k + 1⟩ = .ok t)
    (hsize : t.stack.length + t.altstack.length ≤ MAX_STACK_SIZE) :
    evalRest crypto checker flags sigversion ⟨stack, altstack, [], opcode :: rest, code, k⟩ =
      evalRest crypto checker flags sigversion t := by
  rw [evalRest_op_eq hop hne henabled hk, h, bind_of_ok rfl, decide_eq_true hsize]
  rfl

theorem not_disabled (hop : opcode ≤ OP_16) : disabledOpcodes.contains opcode = false := by
  rw [← Bool.not_eq_true, List.contains_iff_mem]
  intro hmem
  have hall : (disabledOpcodes.all fun op => decide (OP_16 < op)) = true := rfl
  have hlt := of_decide_eq_true (List.all_eq_true.1 hall opcode hmem)
  exact absurd hlt (UInt8.not_lt.2 hop)

theorem evalRest_data (hget : s.getOp = some (opcode, data, rest)) (hop : opcode ≤ OP_16)
    (hdata : data.length ≤ MAX_SCRIPT_ELEMENT_SIZE)
    (h : execute crypto checker flags sigversion true opcode data
      ⟨stack, altstack, [], rest, code, k⟩ = .ok t)
    (hsize : t.stack.length + t.altstack.length ≤ MAX_STACK_SIZE) :
    evalRest crypto checker flags sigversion ⟨stack, altstack, [], s, code, k⟩ =
      evalRest crypto checker flags sigversion t := by
  have hpc : s ≠ [] := by
    intro hnil
    rw [hnil] at hget
    cases hget
  refine evalRest_step hpc (demand_bind.2 ⟨_, hget, ?_⟩)
  dsimp only
  rw [if_neg (UInt8.not_lt.2 hop)]
  refine require_bind.2 ⟨decide_eq_true hdata, require_bind.2 ⟨?_, require_bind.2 ⟨?_,
    bind_ok.2 ⟨t, h, require_bind.2 ⟨decide_eq_true hsize, rfl⟩⟩⟩⟩⟩
  · rw [decide_eq_true hop]
    rfl
  · rw [not_disabled hop]
    rfl

theorem le_op16 (hop : opcode ≤ OP_PUSHDATA4) : opcode ≤ OP_16 := UInt8.le_trans hop (by decide)

theorem evalRest_push (hget : s.getOp = some (opcode, data, rest)) (hop : opcode ≤ OP_PUSHDATA4)
    (hdata : data.length ≤ MAX_SCRIPT_ELEMENT_SIZE)
    (hflags : hasFlag flags SCRIPT_VERIFY_MINIMALDATA = false)
    (hsize : stack.length + altstack.length < MAX_STACK_SIZE) :
    evalRest crypto checker flags sigversion ⟨stack, altstack, [], s, code, k⟩ =
      evalRest crypto checker flags sigversion ⟨data :: stack, altstack, [], rest, code, k⟩ := by
  refine evalRest_data (t := ⟨data :: stack, altstack, [], rest, code, k⟩) hget (le_op16 hop) hdata
    ?_ ?_
  · rw [execute, if_pos ⟨rfl, hop⟩, hflags]
    rfl
  · change (data :: stack).length + altstack.length ≤ MAX_STACK_SIZE
    rw [List.length_cons]
    omega

theorem evalRest_small (hone : OP_1 ≤ opcode) (hop : opcode ≤ OP_16)
    (hsize : stack.length + altstack.length < MAX_STACK_SIZE) :
    evalRest crypto checker flags sigversion ⟨stack, altstack, [], opcode :: rest, code, k⟩ =
      evalRest crypto checker flags sigversion
        ⟨serializeScriptNum (opcode.toNat - 0x50) :: stack, altstack, [], rest, code, k⟩ := by
  have hlt : OP_PUSHDATA4 < opcode := UInt8.lt_of_lt_of_le (by decide) hone
  have hne : opcode ≠ OP_UNEMP_ASSET := by
    intro heq
    rw [heq] at hop
    exact absurd hop (by decide)
  refine evalRest_data (CScript.getOp_opcode hlt hne) hop (Nat.zero_le _) ?_ ?_
  · rw [execute, if_neg fun hpush => absurd hpush.2 (UInt8.not_le.2 hlt), if_pos (.inl rfl), evalOp,
      if_pos (.inr ⟨hone, hop⟩)]
  · change (_ :: stack).length + altstack.length ≤ MAX_STACK_SIZE
    rw [List.length_cons]
    omega

theorem evalRest_asset (hrest : rest.length ≤ MAX_SCRIPT_ELEMENT_SIZE)
    (hk : k + 1 ≤ MAX_OPS_PER_SCRIPT) (hsize : stack.length + altstack.length ≤ MAX_STACK_SIZE) :
    evalRest crypto checker flags sigversion
        ⟨stack, altstack, [], OP_UNEMP_ASSET :: rest, code, k⟩ =
      .ok ⟨stack, altstack, [], [], code, k + 1⟩ := by
  have hround : evalStep crypto checker flags sigversion
      ⟨stack, altstack, [], OP_UNEMP_ASSET :: rest, code, k⟩ =
        .ok ⟨stack, altstack, [], [], code, k + 1⟩ := by
    refine demand_bind.2 ⟨(OP_UNEMP_ASSET, rest, []), rfl, ?_⟩
    refine require_bind.2 ⟨decide_eq_true hrest, require_bind.2 ⟨?_, require_bind.2 ⟨rfl,
      bind_ok.2 ⟨_, rfl, require_bind.2 ⟨decide_eq_true hsize, rfl⟩⟩⟩⟩⟩
    rw [if_pos (by decide), decide_eq_true hk, Bool.or_true]
  exact evalRest_step (List.cons_ne_nil _ _) hround

theorem evalScript_sized (hcrypto : EvalScript.HashSized crypto) {stack' : List Bytes}
    (hsize : stack.length ≤ MAX_STACK_SIZE) (hsized : EvalScript.Sized stack)
    (h : evalScript crypto checker flags sigversion stack s = .ok stack') :
    EvalScript.Sized stack' ∧ stack'.length ≤ MAX_STACK_SIZE := by
  have hloop : ∀ (n : ℕ) (t t' : EvalState), EvalScript.Bounded t →
      evalLoop crypto checker flags sigversion n t = .ok t' → EvalScript.Bounded t' := by
    intro n
    induction n with
    | zero =>
      intro t t' ht h
      rw [evalLoop] at h
      split at h
      · cases h
        exact ht
      · cases h
    | succ n ih =>
      intro t t' ht h
      rw [evalLoop] at h
      split at h
      · cases h
        exact ht
      · obtain ⟨u, hstep, h⟩ := bind_ok.1 h
        exact ih u t' (ht.evalStep hcrypto u hstep) h
  obtain ⟨-, h⟩ := require_bind.1 h
  obtain ⟨t, ht, h⟩ := bind_ok.1 h
  obtain ⟨-, h⟩ := require_bind.1 h
  cases h
  have hbounded := hloop _ _ _ (.start hsize hsized s) ht
  exact ⟨hbounded.stack, by have := hbounded.size; omega⟩

end Runs

/-! ## `PushAll` -/

def encodeOP_N (n : ℕ) : UInt8 := if n = 0 then OP_0 else UInt8.ofNat (OP_1.toNat + n - 1)

/-- What `PushAll` appends for one value. -/
def pushValue (v : Bytes) : CScript :=
  if v.length = 0 then [OP_0]
  else if v.length = 1 ∧ 1 ≤ v.at 0 ∧ v.at 0 ≤ 16 then [encodeOP_N (v.at 0).toNat]
  else CScript.pushData v

def pushAll (values : List Bytes) : CScript :=
  values.foldl (fun result v => result ++ pushValue v) []

theorem pushAll_eq (values : List Bytes) : pushAll values = values.flatMap pushValue := by
  have happend : ∀ (l : List Bytes) (front : CScript),
      l.foldl (fun result v => result ++ pushValue v) front = front ++ l.flatMap pushValue := by
    intro l
    induction l with
    | nil =>
      intro front
      rw [List.flatMap_nil, List.append_nil]
      rfl
    | cons v l ih =>
      intro front
      rw [List.foldl_cons, ih, List.flatMap_cons, List.append_assoc]
  exact happend values []

section Values

variable {v : Bytes} {values stack : List Bytes} {k : ℕ}

theorem pushValue_cases (v : Bytes) :
    (pushValue v = CScript.pushData v) ∨
    ∃ n, 1 ≤ n ∧ n ≤ 16 ∧ v = [UInt8.ofNat n] ∧ pushValue v = [UInt8.ofNat (0x50 + n)] := by
  rw [pushValue]
  split
  · rename_i hzero
    left
    rw [List.length_eq_zero_iff.1 hzero]
    rfl
  · split
    · rename_i hsmall
      right
      obtain ⟨hone, hlow, hhigh⟩ := hsmall
      obtain ⟨b, rfl⟩ := List.length_eq_one_iff.1 hone
      have hb : Bytes.at [b] 0 = b := rfl
      rw [hb] at hlow hhigh ⊢
      rw [UInt8.le_iff_toNat_le] at hlow hhigh
      refine ⟨b.toNat, hlow, hhigh, by rw [UInt8.ofNat_toNat], ?_⟩
      have hn : b.toNat ≠ 0 := by
        have hone : (1 : UInt8).toNat = 1 := rfl
        omega
      have hsum : OP_1.toNat + b.toNat - 1 = 0x50 + b.toNat := by
        have hop : OP_1.toNat = 0x51 := rfl
        omega
      rw [encodeOP_N, if_neg hn, hsum]
    · exact .inl rfl

theorem small_opcode {n : ℕ} (hone : 1 ≤ n) (hn : n ≤ 16) :
    OP_1 ≤ UInt8.ofNat (0x50 + n) ∧ UInt8.ofNat (0x50 + n) ≤ OP_16 ∧
      serializeScriptNum ((UInt8.ofNat (0x50 + n)).toNat - 0x50) = [UInt8.ofNat n] := by
  interval_cases n <;> exact ⟨by decide, by decide, rfl⟩

theorem length_pushData_le {data : Bytes} : (CScript.pushData data).length ≤ data.length + 5 := by
  rw [CScript.pushData]
  split
  · exact Nat.add_le_add_left (show 1 ≤ 5 by decide) _
  · split
    · exact Nat.add_le_add_left (show 2 ≤ 5 by decide) _
    · split
      · rw [List.length_cons, List.length_append, length_writeLE]
        omega
      · rw [List.length_cons, List.length_append, length_writeLE]
        omega

theorem pushOpcode_le {data : Bytes} : pushOpcode data ≤ OP_PUSHDATA4 := by
  rw [pushOpcode]
  split
  · rename_i hshort
    exact (ofNat_le_pushdata (Nat.le_of_lt_succ hshort)).2.2
  · split
    · decide
    · split <;> decide

theorem length_pushValue_le (v : Bytes) : (pushValue v).length ≤ v.length + 5 := by
  obtain hdata | ⟨n, -, -, hv, hpush⟩ := pushValue_cases v
  · rw [hdata]
    exact length_pushData_le
  · rw [hpush, hv]
    exact Nat.le_add_right 1 5

theorem evalRest_pushValue (hv : v.length ≤ MAX_SCRIPT_ELEMENT_SIZE)
    (hflags : hasFlag flags SCRIPT_VERIFY_MINIMALDATA = false)
    (hsize : stack.length < MAX_STACK_SIZE) :
    evalRest crypto checker flags sigversion ⟨stack, [], [], pushValue v ++ rest, code, k⟩ =
      evalRest crypto checker flags sigversion ⟨v :: stack, [], [], rest, code, k⟩ := by
  obtain hdata | ⟨n, hone, hn, rfl, hpush⟩ := pushValue_cases v
  · have hmax : MAX_SCRIPT_ELEMENT_SIZE = 520 := rfl
    rw [hdata]
    exact evalRest_push (CScript.getOp_pushData (by omega)) pushOpcode_le hv hflags hsize
  · obtain ⟨hlow, hhigh, hnum⟩ := small_opcode hone hn
    have hroom : stack.length + ([] : List Bytes).length < MAX_STACK_SIZE := hsize
    rw [hpush, List.singleton_append, evalRest_small hlow hhigh hroom, hnum]

/-- **The values are what the script leaves.** -/
theorem evalRest_pushAll (hvalues : ∀ v ∈ values, v.length ≤ MAX_SCRIPT_ELEMENT_SIZE)
    (hflags : hasFlag flags SCRIPT_VERIFY_MINIMALDATA = false)
    (hsize : stack.length + values.length ≤ MAX_STACK_SIZE) :
    evalRest crypto checker flags sigversion ⟨stack, [], [], pushAll values ++ rest, code, k⟩ =
      evalRest crypto checker flags sigversion
        ⟨values.reverse ++ stack, [], [], rest, code, k⟩ := by
  rw [pushAll_eq]
  induction values generalizing stack with
  | nil => rfl
  | cons v values ih =>
    rw [List.forall_mem_cons] at hvalues
    rw [List.length_cons] at hsize
    rw [List.flatMap_cons, List.append_assoc,
      evalRest_pushValue hvalues.1 hflags (by omega),
      ih hvalues.2 (by rw [List.length_cons]; omega), List.reverse_cons, List.append_assoc]
    rfl

theorem length_pushAll_le (hvalues : ∀ v ∈ values, v.length ≤ MAX_SCRIPT_ELEMENT_SIZE) :
    (pushAll values).length ≤ 525 * values.length := by
  rw [pushAll_eq]
  induction values with
  | nil => exact Nat.zero_le _
  | cons v values ih =>
    rw [List.forall_mem_cons] at hvalues
    have hv := length_pushValue_le v
    have hmax : MAX_SCRIPT_ELEMENT_SIZE = 520 := rfl
    have hrest := ih hvalues.2
    rw [List.flatMap_cons, List.length_append, List.length_cons]
    omega

theorem evalScript_pushAll (hvalues : ∀ v ∈ values, v.length ≤ MAX_SCRIPT_ELEMENT_SIZE)
    (hflags : hasFlag flags SCRIPT_VERIFY_MINIMALDATA = false) (hlength : values.length ≤ 19) :
    evalScript crypto checker flags sigversion [] (pushAll values) = .ok values.reverse := by
  have hmax : MAX_STACK_SIZE = 1000 := rfl
  have hsize := length_pushAll_le hvalues
  have hscript : (pushAll values).length ≤ MAX_SCRIPT_SIZE := by
    rw [MAX_SCRIPT_SIZE]
    omega
  have hrun := @evalRest_pushAll crypto checker flags sigversion [] (pushAll values) values [] 0
    hvalues hflags (by rw [List.length_nil]; omega)
  rw [List.append_nil, List.append_nil] at hrun
  exact evalScript_of_evalRest hscript hrun rfl

end Values

namespace CScript

theorem getOp_pushValue {v : Bytes} (hv : v.length ≤ MAX_SCRIPT_ELEMENT_SIZE) (rest : CScript) :
    ∃ op data, getOp (pushValue v ++ rest) = some (op, data, rest) ∧ op ≤ OP_16 := by
  have hmax : MAX_SCRIPT_ELEMENT_SIZE = 520 := rfl
  obtain hdata | ⟨n, hone, hn, -, hpush⟩ := pushValue_cases v
  · rw [hdata]
    exact ⟨_, _, getOp_pushData (by omega), le_op16 pushOpcode_le⟩
  · obtain ⟨hlow, hhigh, -⟩ := small_opcode hone hn
    have hlt : OP_PUSHDATA4 < UInt8.ofNat (0x50 + n) := UInt8.lt_of_lt_of_le (by decide) hlow
    have hne : UInt8.ofNat (0x50 + n) ≠ OP_UNEMP_ASSET := by
      intro heq
      rw [heq] at hhigh
      exact absurd hhigh (by decide)
    rw [hpush]
    exact ⟨_, _, getOp_opcode hlt hne, hhigh⟩

theorem getOps_pushAll {values : List Bytes}
    (hvalues : ∀ v ∈ values, v.length ≤ MAX_SCRIPT_ELEMENT_SIZE) {n : ℕ}
    (hn : (pushAll values).length ≤ n) :
    (getOps n (pushAll values)).2 = true ∧
      ∀ op ∈ (getOps n (pushAll values)).1, op ≤ OP_16 := by
  rw [pushAll_eq] at hn ⊢
  induction values generalizing n with
  | nil => cases n <;> exact ⟨rfl, nofun⟩
  | cons v values ih =>
    rw [List.forall_mem_cons] at hvalues
    rw [List.flatMap_cons] at hn ⊢
    obtain ⟨op, data, hget, hop⟩ := getOp_pushValue hvalues.1 (values.flatMap pushValue)
    have hlt := length_getOp hget
    cases n with
    | zero => omega
    | succ n =>
      obtain ⟨hend, hops⟩ := ih hvalues.2 (show _ ≤ n by omega)
      have hempty : (pushValue v ++ values.flatMap pushValue).isEmpty = false := by
        rw [List.isEmpty_eq_false_iff]
        intro hnil
        rw [hnil] at hlt
        exact absurd hlt (Nat.not_lt_zero _)
      rw [getOps, hempty, if_neg Bool.false_ne_true, hget]
      refine ⟨hend, fun op' hop' => ?_⟩
      rcases List.mem_cons.1 hop' with rfl | hmem
      · exact hop
      · exact hops op' hmem

theorem isPushOnly_pushAll {values : List Bytes}
    (hvalues : ∀ v ∈ values, v.length ≤ MAX_SCRIPT_ELEMENT_SIZE) :
    (pushAll values).isPushOnly = true := by
  obtain ⟨hend, hops⟩ := getOps_pushAll hvalues le_rfl
  rw [isPushOnly]
  dsimp only
  rw [hend, Bool.true_and, List.all_eq_true]
  exact fun op hop => decide_eq_true (hops op hop)

end CScript

theorem verifyScript_plain {scriptSig : CScript} {stackCopy : List Bytes} {vch : Bytes}
    (hflags : FlagsConsistent flags)
    (hsigPush : hasFlag flags SCRIPT_VERIFY_SIGPUSHONLY = true → scriptSig.isPushOnly = true)
    (hsig : evalScript crypto checker flags .SIGVERSION_BASE [] scriptSig = .ok stackCopy)
    (hscript : evalScript crypto checker flags .SIGVERSION_BASE stackCopy s = .ok [vch])
    (htrue : castToBool vch = true) (hwitness : s.isWitnessProgram = none)
    (hhash : s.isPayToScriptHash = false) :
    verifyScript crypto checker flags scriptSig s [] = .ok () := by
  refine onlyIf_bind.2 ⟨fun h => require_ok.2 (hsigPush h), bind_ok.2 ⟨stackCopy, hsig, ?_⟩⟩
  refine bind_ok.2 ⟨[vch], hscript, require_bind.2 ⟨htrue, ?_⟩⟩
  refine bind_ok.2 ⟨([vch], false), ?_, bind_ok.2 ⟨([vch], false), ?_, verifyEnd_one hflags vch⟩⟩
  · rw [verifyWitness, hwitness, ite_self]
  · rw [verifyPayToScriptHash, hhash, Bool.and_false, if_neg Bool.false_ne_true]

end UnemployCoin
