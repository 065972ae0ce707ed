import UnemployCoin.StackAccess
import UnemployCoin.Lib.Loop
import UnemployCoin.Lib.Matching
/-!
# `OP_CHECKMULTISIG`

`([sig ...] num_of_signatures [pubkey ...] num_of_pubkeys -- bool)` as `EvalScript`
(`script/interpreter.cpp`) has it: two indexes into the stack that move over the signatures and over
the keys, and a loop that takes the arguments from the stack with indexes of its own.
-/

namespace UnemployCoin

open Check

namespace EvalScript

/-- The variables of the loop over signatures and keys. -/
structure MultiSig where
  isig : ℤ
  ikey : ℤ
  nSigsCount : ℤ
  nKeysCount : ℤ
  deriving DecidableEq, Repr

section Eval

variable (crypto : ScriptCrypto) (checker : BaseSignatureChecker) (flags : UInt32)
  (sigversion : SigVersion)

/-- The two counts and the new count of operations, with the tests up to the last argument. -/
def multiSigCounts (nOpCount : ℕ) (stack : List Bytes) : Exec (ℤ × ℤ × ℕ) := do
  sizeCheck stack 1
  let vchKeys ← stacktop stack (-1)
  let bn ← cScriptNum flags nDefaultMaxNumSize vchKeys
  let nKeysCount := getint bn
  check (!(decide (nKeysCount < 0) || decide ((MAX_PUBKEYS_PER_MULTISIG : ℤ) < nKeysCount)))
    .SCRIPT_ERR_PUBKEY_COUNT
  let nOpCount := nOpCount + nKeysCount.toNat
  check (decide (nOpCount ≤ MAX_OPS_PER_SCRIPT)) .SCRIPT_ERR_OP_COUNT
  let i := 2 + nKeysCount
  sizeCheck stack i.toNat
  let vchSigs ← stacktop stack (-i)
  let bn ← cScriptNum flags nDefaultMaxNumSize vchSigs
  let nSigsCount := getint bn
  check (!(decide (nSigsCount < 0) || decide (nKeysCount < nSigsCount))) .SCRIPT_ERR_SIG_COUNT
  let i := i + 1 + nSigsCount
  sizeCheck stack i.toNat
  return (nKeysCount, nSigsCount, nOpCount)

/-- The script without a signature, where it is one without witness. -/
def dropSignature (scriptCode : CScript) (vchSig : Bytes) : CScript :=
  if sigversion = .SIGVERSION_BASE then scriptCode.findAndDelete (CScript.pushData vchSig)
  else scriptCode

/-- The script without the signatures, which stand at `isig` and below. -/
def dropSignatures (codehash : CScript) (stack : List Bytes) (isig nSigsCount : ℤ) :
    Exec CScript :=
  (List.range nSigsCount.toNat).foldlM (fun scriptCode (k : ℕ) => do
    let vchSig ← stacktop stack (-isig - k)
    return dropSignature sigversion scriptCode vchSig) codehash

/-- A round of the loop, which goes on or ends with `fSuccess`. -/
def multiSigRound (scriptCode : CScript) (stack : List Bytes) (m : MultiSig) :
    Exec (MultiSig ⊕ Bool) :=
  if m.nSigsCount ≤ 0 then .ok (.inr true)
  else do
    let vchSig ← stacktop stack (-m.isig)
    let vchPubKey ← stacktop stack (-m.ikey)
    returns (checkEncodings crypto flags sigversion vchSig vchPubKey)
    let fOk := checker.checkSig vchSig vchPubKey scriptCode sigversion
    let m := if fOk then { m with isig := m.isig + 1, nSigsCount := m.nSigsCount - 1 } else m
    let m := { m with ikey := m.ikey + 1, nKeysCount := m.nKeysCount - 1 }
    -- more signatures left than keys
    return if m.nKeysCount < m.nSigsCount then .inr false else .inl m

def multiSigStep (scriptCode : CScript) (stack : List Bytes) (m : MultiSig) :
    MultiSig ⊕ Exec Bool :=
  match multiSigRound crypto checker flags sigversion scriptCode stack m with
  | .error t => .inr (.error t)
  | .ok (.inr fSuccess) => .inr (.ok fSuccess)
  | .ok (.inl m) => .inl m

def multiSigLoop (scriptCode : CScript) (stack : List Bytes) (m : MultiSig) : Exec Bool :=
  (Loop.run (multiSigStep crypto checker flags sigversion scriptCode stack)
    (m.nKeysCount.toNat + 1) m).getD (.error .undefined)

/-- `while (i-- > 1)`: takes the arguments from the stack.  From `ikey2 = 0` on they are
signatures, which have to be empty where the operation failed. -/
def cleanUp (fSuccess : Bool) : ℕ → ℤ → List Bytes → Exec (List Bytes)
  | i + 2, ikey2, stack => do
    onlyIf (!fSuccess && hasFlag flags SCRIPT_VERIFY_NULLFAIL && ikey2 == 0) do
      let vch ← stacktop stack (-1)
      check vch.isEmpty .SCRIPT_ERR_SIG_NULLFAIL
    let stack ← popstack stack
    cleanUp fSuccess (i + 1) (if 0 < ikey2 then ikey2 - 1 else ikey2) stack
  | _, _, stack => .ok stack

def multiSigArgs (fVerify : Bool) (codehash : CScript) (stack : List Bytes)
    (nKeysCount nSigsCount : ℤ) : Exec (List Bytes) := do
  let ikey := 2
  let ikey2 := nKeysCount + 2
  let isig := nKeysCount + 3
  let i := nKeysCount + 3 + nSigsCount
  let scriptCode ← dropSignatures sigversion codehash stack isig nSigsCount
  let fSuccess ← multiSigLoop crypto checker flags sigversion scriptCode stack
    ⟨isig, ikey, nSigsCount, nKeysCount⟩
  let stack ← cleanUp flags fSuccess i.toNat ikey2 stack
  sizeCheck stack 1
  let vchDummy ← stacktop stack (-1)
  check (!hasFlag flags SCRIPT_VERIFY_NULLDUMMY || vchDummy.isEmpty) .SCRIPT_ERR_SIG_NULLDUMMY
  let stack ← popstack stack
  pushVerify fVerify fSuccess .SCRIPT_ERR_CHECKMULTISIGVERIFY stack

/-- `OP_CHECKMULTISIG` and `OP_CHECKMULTISIGVERIFY`, with the new count of operations. -/
def checkMultiSigOp (fVerify : Bool) (codehash : CScript) (nOpCount : ℕ) (stack : List Bytes) :
    Exec (List Bytes × ℕ) := do
  let (nKeysCount, nSigsCount, nOpCount) ← multiSigCounts flags nOpCount stack
  let stack ← multiSigArgs crypto checker flags sigversion fVerify codehash stack nKeysCount
    nSigsCount
  return (stack, nOpCount)

end Eval

variable {crypto : ScriptCrypto} {checker : BaseSignatureChecker} {flags : UInt32}
  {sigversion : SigVersion} {stack sigs keys rest front : List Bytes} {n i j : ℕ}
  {codehash scriptCode : CScript} {fSuccess : Bool}

/-! ## The parts -/

theorem bind_eq_ok {α β : Type} {r : Exec α} {a : α} (f : α → Exec β) (h : r = .ok a) :
    (r >>= f) = f a := by
  rw [h]
  rfl

theorem stacktop_append {v : ℤ} (hi : i < sigs.length) (hv : v = -((front.length : ℤ) + i) - 1) :
    stacktop (front ++ (sigs ++ rest)) v = .ok (sigs.getD i []) := by
  have hget : (front ++ (sigs ++ rest))[front.length + i]? = some (sigs.getD i []) := by
    rw [List.getElem?_append_right (Nat.le_add_right _ _), Nat.add_sub_cancel_left,
      List.getElem?_append_left hi, List.getD_eq_getElem?_getD, List.getElem?_eq_getElem hi,
      Option.getD_some]
  exact stacktop_ok hget (by push_cast; omega)

theorem signedCode_eq :
    signedCode sigversion codehash sigs = sigs.foldl (dropSignature sigversion) codehash := by
  cases sigversion with
  | SIGVERSION_BASE => rfl
  | SIGVERSION_WITNESS_V0 =>
    induction sigs with
    | nil => rfl
    | cons vchSig sigs ih => exact ih

theorem dropSignatures_ok :
    dropSignatures sigversion codehash (front ++ (sigs ++ rest)) (front.length + 1) sigs.length =
      .ok (signedCode sigversion codehash sigs) := by
  have htake : ∀ k ≤ sigs.length, (List.range k).foldlM (fun scriptCode (k : ℕ) => do
      let vchSig ← stacktop (front ++ (sigs ++ rest)) (-((front.length : ℤ) + 1) - k)
      return dropSignature sigversion scriptCode vchSig) codehash =
      .ok ((sigs.take k).foldl (dropSignature sigversion) codehash) := by
    intro k
    induction k with
    | zero => exact fun _ => rfl
    | succ k ih =>
      intro hk
      have hsig : sigs.take (k + 1) = sigs.take k ++ [sigs.getD k []] := by
        rw [List.take_add_one, List.getD_eq_getElem?_getD, List.getElem?_eq_getElem hk]
        rfl
      rw [List.range_succ, List.foldlM_append, bind_eq_ok _ (ih (Nat.le_of_succ_le hk)),
        List.foldlM_cons, hsig, List.foldl_append, stacktop_append hk (by omega)]
      rfl
  rw [dropSignatures, Int.toNat_natCast, htake _ le_rfl, List.take_length, signedCode_eq]

theorem stacktop_prefix {vch : Bytes} (h : vch :: sigs <+: stack.drop i) :
    stacktop stack (-((i : ℤ) + 1)) = .ok vch ∧ sigs <+: stack.drop (i + 1) := by
  obtain ⟨rest, hrest⟩ := h
  have hget : stack[i]? = some vch := by
    rw [← List.head?_drop, ← hrest]
    rfl
  refine ⟨stacktop_ok hget (by omega), rest, ?_⟩
  rw [← List.tail_drop, ← hrest]
  rfl

theorem length_cons_pos {vch : Bytes} : ¬((vch :: sigs).length : ℤ) ≤ 0 := by
  rw [List.length_cons]
  omega

theorem multiSigStep_cons {vchSig vchPubKey : Bytes} (hsigs : vchSig :: sigs <+: stack.drop i)
    (hkeys : vchPubKey :: keys <+: stack.drop j) {fOk : Bool}
    (henc : checkEncodings crypto flags sigversion vchSig vchPubKey = .ok ())
    (hok : checker.checkSig vchSig vchPubKey scriptCode sigversion = fOk) :
    multiSigStep crypto checker flags sigversion scriptCode stack
        ⟨i + 1, j + 1, (vchSig :: sigs).length, (vchPubKey :: keys).length⟩ =
      if keys.length < (if fOk then sigs else vchSig :: sigs).length then .inr (.ok false)
      else .inl ⟨(if fOk then i + 1 else i : ℕ) + 1, (j + 1 : ℕ) + 1,
        (if fOk then sigs else vchSig :: sigs).length, keys.length⟩ := by
  obtain ⟨hsig, -⟩ := stacktop_prefix hsigs
  obtain ⟨hkey, -⟩ := stacktop_prefix hkeys
  have hreturns : returns (checkEncodings crypto flags sigversion vchSig vchPubKey) = .ok () := by
    rw [henc]
    rfl
  have hkeys' : ((vchPubKey :: keys).length : ℤ) - 1 = keys.length := by
    rw [List.length_cons]
    omega
  have hround : multiSigRound crypto checker flags sigversion scriptCode stack
      ⟨i + 1, j + 1, (vchSig :: sigs).length, (vchPubKey :: keys).length⟩ =
        .ok (if keys.length < (if fOk then sigs else vchSig :: sigs).length then .inr false
          else .inl ⟨(if fOk then i + 1 else i : ℕ) + 1, (j + 1 : ℕ) + 1,
            (if fOk then sigs else vchSig :: sigs).length, keys.length⟩) := by
    rw [multiSigRound, if_neg length_cons_pos, bind_eq_ok _ hsig, bind_eq_ok _ hkey,
      bind_eq_ok _ hreturns, hok]
    cases fOk with
    | true =>
      have hsigs' : ((vchSig :: sigs).length : ℤ) - 1 = sigs.length := by
        rw [List.length_cons]
        omega
      simp only [if_true, hsigs', hkeys', Nat.cast_lt, Nat.cast_succ]
      rfl
    | false =>
      simp only [Bool.false_eq_true, if_false, hkeys', Nat.cast_lt, Nat.cast_succ]
      rfl
  rw [multiSigStep, hround]
  by_cases hlt : keys.length < (if fOk then sigs else vchSig :: sigs).length
  · rw [if_pos hlt, if_pos hlt]
  · rw [if_neg hlt, if_neg hlt]

theorem run_multiSigStep (hsigs : sigs <+: stack.drop i) (hkeys : keys <+: stack.drop j)
    (hle : sigs.length ≤ keys.length) (hn : keys.length < n) :
    Loop.run (multiSigStep crypto checker flags sigversion scriptCode stack) n
        ⟨i + 1, j + 1, sigs.length, keys.length⟩ =
      some (returns (checkMultiSigLoop crypto checker flags sigversion scriptCode sigs keys)) := by
  induction n generalizing sigs keys i j with
  | zero => exact absurd hn (Nat.not_lt_zero _)
  | succ n ih =>
    match sigs, keys with
    | [], keys =>
      have hend : multiSigStep crypto checker flags sigversion scriptCode stack
          ⟨i + 1, j + 1, ([] : List Bytes).length, keys.length⟩ = .inr (.ok true) := rfl
      rw [Loop.run_inr hend, checkMultiSigLoop]
      rfl
    | vchSig :: sigs, [] => cases hle
    | vchSig :: sigs, vchPubKey :: keys =>
      obtain ⟨hsig, hsigs'⟩ := stacktop_prefix hsigs
      obtain ⟨hkey, hkeys'⟩ := stacktop_prefix hkeys
      rw [checkMultiSigLoop]
      cases henc : checkEncodings crypto flags sigversion vchSig vchPubKey with
      | error e =>
        have hround : multiSigStep crypto checker flags sigversion scriptCode stack
            ⟨i + 1, j + 1, (vchSig :: sigs).length, (vchPubKey :: keys).length⟩ =
              .inr (.error (.set_error e)) := by
          rw [multiSigStep, multiSigRound, if_neg length_cons_pos, bind_eq_ok _ hsig,
            bind_eq_ok _ hkey, henc]
          rfl
        rw [Loop.run_inr hround]
        rfl
      | ok u =>
        generalize hok : checker.checkSig vchSig vchPubKey scriptCode sigversion = fOk
        have hround := multiSigStep_cons hsigs hkeys henc hok
        have hrest : (if fOk then sigs else vchSig :: sigs) <+:
            stack.drop (if fOk then i + 1 else i) := by
          cases fOk with
          | true => exact hsigs'
          | false => exact hsigs
        change _ = some (returns (if keys.length <
          (if fOk then sigs else vchSig :: sigs).length then _ else _))
        by_cases hlt : keys.length < (if fOk then sigs else vchSig :: sigs).length
        · rw [if_pos hlt] at hround
          rw [Loop.run_inr hround, if_pos hlt]
          rfl
        · rw [if_neg hlt] at hround
          rw [Loop.run_inl hround, if_neg hlt]
          exact ih hrest hkeys' (Nat.not_lt.1 hlt) (Nat.lt_of_succ_lt_succ hn)

theorem cleanUp_front :
    cleanUp flags fSuccess (front.length + i + 1) front.length (front ++ rest) =
      cleanUp flags fSuccess (i + 1) 0 rest := by
  induction front with
  | nil => rw [List.length_nil, Nat.zero_add, List.nil_append]; rfl
  | cons vch front ih =>
    have hpos : (((vch :: front).length : ℤ) == 0) = false := by
      rw [beq_eq_false_iff_ne, List.length_cons]
      omega
    have hlt : 0 < ((vch :: front).length : ℤ) := by
      rw [List.length_cons]
      omega
    have hpred : ((vch :: front).length : ℤ) - 1 = front.length := by
      rw [List.length_cons]
      omega
    have hi : (vch :: front).length + i + 1 = front.length + i + 2 := by
      rw [List.length_cons]
      omega
    rw [hi, cleanUp, hpos, Bool.and_false, if_pos hlt, hpred]
    exact ih

theorem cleanUp_sigs :
    cleanUp flags fSuccess (sigs.length + 1) 0 (sigs ++ rest) = do
      check (fSuccess || !hasFlag flags SCRIPT_VERIFY_NULLFAIL || sigs.all List.isEmpty)
        .SCRIPT_ERR_SIG_NULLFAIL
      return rest := by
  induction sigs with
  | nil =>
    rw [List.all_nil, Bool.or_true]
    rfl
  | cons vchSig sigs ih =>
    have hround : cleanUp flags fSuccess (sigs.length + 2) 0 (vchSig :: (sigs ++ rest)) = (do
        onlyIf (!fSuccess && hasFlag flags SCRIPT_VERIFY_NULLFAIL)
          (check vchSig.isEmpty .SCRIPT_ERR_SIG_NULLFAIL)
        cleanUp flags fSuccess (sigs.length + 1) 0 (sigs ++ rest)) := by
      rw [cleanUp, beq_self_eq_true, Bool.and_true]
      rfl
    rw [List.length_cons, List.cons_append, hround, ih, List.all_cons]
    cases fSuccess <;> cases hasFlag flags SCRIPT_VERIFY_NULLFAIL <;> cases vchSig.isEmpty <;> rfl

/-! ## The operation -/

theorem run_multiSigStep_args {vchKeys vchSigs : Bytes}
    (hstack : stack = vchKeys :: (keys ++ vchSigs :: (sigs ++ rest)))
    (hle : sigs.length ≤ keys.length) :
    Loop.run (multiSigStep crypto checker flags sigversion scriptCode stack) (keys.length + 1)
        ⟨keys.length + 3, 2, sigs.length, keys.length⟩ =
      some (returns (checkMultiSigLoop crypto checker flags sigversion scriptCode sigs keys)) := by
  have hkeys : keys <+: stack.drop 1 := by
    rw [hstack]
    exact List.prefix_append _ _
  have hsigs : sigs <+: stack.drop (keys.length + 2) := by
    rw [hstack, List.drop_succ_cons, List.drop_append, List.drop_of_length_le (Nat.le_succ _),
      Nat.add_sub_cancel_left]
    exact List.prefix_append _ _
  exact run_multiSigStep hsigs hkeys hle (Nat.lt_succ_self _)

/-- **The operation, on a stack that holds its arguments.** -/
theorem multiSigArgs_eq {vchKeys vchSigs vchDummy : Bytes} {fVerify : Bool}
    (hstack : stack = vchKeys :: (keys ++ vchSigs :: (sigs ++ vchDummy :: rest)))
    (hle : sigs.length ≤ keys.length) :
    multiSigArgs crypto checker flags sigversion fVerify codehash stack keys.length sigs.length =
    (do
      let fSuccess ← returns (checkMultiSigLoop crypto checker flags sigversion
        (signedCode sigversion codehash sigs) sigs keys)
      check (fSuccess || !hasFlag flags SCRIPT_VERIFY_NULLFAIL || sigs.all List.isEmpty)
        .SCRIPT_ERR_SIG_NULLFAIL
      check (!hasFlag flags SCRIPT_VERIFY_NULLDUMMY || vchDummy.isEmpty) .SCRIPT_ERR_SIG_NULLDUMMY
      pushVerify fVerify fSuccess .SCRIPT_ERR_CHECKMULTISIGVERIFY rest) := by
  -- what stands above the signatures
  obtain ⟨front, hfront⟩ : ∃ front, front = vchKeys :: (keys ++ [vchSigs]) := ⟨_, rfl⟩
  have hlength : front.length = keys.length + 2 := by
    rw [hfront, List.length_cons, List.length_append]
    rfl
  have hsplit : stack = front ++ (sigs ++ vchDummy :: rest) := by
    rw [hstack, hfront, List.cons_append, List.append_assoc]
    rfl
  have hdrop : dropSignatures sigversion codehash stack (keys.length + 3) sigs.length =
      .ok (signedCode sigversion codehash sigs) := by
    have h := @dropSignatures_ok sigversion sigs (vchDummy :: rest) front codehash
    rw [← hsplit, hlength] at h
    rw [← h]
    congr 1
  have hloop : multiSigLoop crypto checker flags sigversion (signedCode sigversion codehash sigs)
      stack ⟨keys.length + 3, 2, sigs.length, keys.length⟩ =
        returns (checkMultiSigLoop crypto checker flags sigversion
          (signedCode sigversion codehash sigs) sigs keys) := by
    rw [multiSigLoop, Int.toNat_natCast, run_multiSigStep_args hstack hle]
    rfl
  have hclean : ∀ fSuccess, cleanUp flags fSuccess ((keys.length : ℤ) + 3 + sigs.length).toNat
      (keys.length + 2) stack = (do
        check (fSuccess || !hasFlag flags SCRIPT_VERIFY_NULLFAIL || sigs.all List.isEmpty)
          .SCRIPT_ERR_SIG_NULLFAIL
        return vchDummy :: rest) := by
    intro fSuccess
    have hi : ((keys.length : ℤ) + 3 + sigs.length).toNat = front.length + sigs.length + 1 := by
      omega
    have hikey2 : (keys.length : ℤ) + 2 = front.length := by omega
    rw [hi, hikey2, hsplit, cleanUp_front, cleanUp_sigs]
  rw [multiSigArgs, bind_eq_ok _ hdrop, hloop]
  simp only [hclean, bind_assoc, pure_bind]
  rfl

theorem count_test {a b : ℤ} (hb : b < 2 ^ 30) :
    (!(decide (getint a < 0) || decide (b < getint a))) = (decide (0 ≤ a) && decide (a ≤ b)) := by
  rw [Bool.eq_iff_iff, getint]
  simp only [Bool.not_or, Bool.and_eq_true, Bool.not_eq_true', decide_eq_false_iff_not,
    decide_eq_true_eq]
  omega

theorem sizeCheck_eq {k : ℕ} {b : Bool} (h : decide (k ≤ stack.length) = b) :
    sizeCheck stack k = check b .SCRIPT_ERR_INVALID_STACK_OPERATION := by
  rw [sizeCheck, h]

theorem exists_eq_append_cons (h : n < stack.length) :
    ∃ front vch rest, stack = front ++ vch :: rest ∧ front.length = n := by
  refine ⟨stack.take n, stack[n], stack.drop (n + 1), ?_, List.length_take_of_le h.le⟩
  rw [← List.drop_eq_getElem_cons h, List.take_append_drop]

/-- **With its accesses it is the operation of the interpreter.** -/
theorem checkMultiSigOp_models (fVerify : Bool) (nOpCount : ℕ) :
    Models (checkMultiSigOp crypto checker flags sigversion fVerify codehash nOpCount stack)
      (UnemployCoin.checkMultiSigOp crypto checker flags sigversion fVerify codehash nOpCount
        stack) := by
  match stack with
  | [] => exact ⟨_, rfl, rfl⟩
  | vchKeys :: stack =>
    rw [checkMultiSigOp, multiSigCounts, UnemployCoin.checkMultiSigOp]
    simp only [bind_assoc, pure_bind]
    change Models (cScriptNum flags nDefaultMaxNumSize vchKeys >>= _)
      (scriptNum flags nDefaultMaxNumSize vchKeys >>= _)
    refine (cScriptNum_models nDefaultMaxNumSize_le).bind fun nKeysCount hkeys => ?_
    rw [count_test (by decide)]
    refine (check_models _ _).bind fun _ hcount => ?_
    rw [check, require_ok, Bool.and_eq_true, decide_eq_true_eq, decide_eq_true_eq] at hcount
    obtain ⟨nKeys, rfl⟩ := Int.eq_ofNat_of_zero_le hcount.1
    have hmax : nKeys ≤ 20 := by
      have := hcount.2
      rw [MAX_PUBKEYS_PER_MULTISIG] at this
      omega
    have hgetint : getint (nKeys : ℤ) = (nKeys : ℤ) := by
      rw [getint]
      omega
    have hsize : decide ((2 + (nKeys : ℤ)).toNat ≤ (vchKeys :: stack).length) =
        decide (nKeys < stack.length) := by
      rw [List.length_cons, decide_eq_decide]
      omega
    rw [hgetint, Int.toNat_natCast]
    refine (check_models _ _).bind fun _ _ => ?_
    rw [sizeCheck_eq hsize]
    refine (check_models _ _).bind fun _ hlt => ?_
    rw [check, require_ok, decide_eq_true_eq] at hlt
    obtain ⟨keys, vchSigs, below, rfl, rfl⟩ := exists_eq_append_cons hlt
    have htop : stacktop (vchKeys :: (keys ++ vchSigs :: below)) (-(2 + (keys.length : ℤ))) =
        .ok vchSigs := by
      refine stacktop_ok (i := keys.length + 1) ?_ (by push_cast; omega)
      rw [List.getElem?_cons_succ, List.getElem?_append_right le_rfl, Nat.sub_self]
      rfl
    rw [htop, List.drop_left, List.take_left]
    change Models (cScriptNum flags nDefaultMaxNumSize vchSigs >>= _)
      (scriptNum flags nDefaultMaxNumSize vchSigs >>= _)
    refine (cScriptNum_models nDefaultMaxNumSize_le).bind fun nSigsCount _ => ?_
    rw [count_test (by omega)]
    refine (check_models _ _).bind fun _ hcount => ?_
    rw [check, require_ok, Bool.and_eq_true, decide_eq_true_eq, decide_eq_true_eq] at hcount
    obtain ⟨nSigs, rfl⟩ := Int.eq_ofNat_of_zero_le hcount.1
    have hgetint : getint (nSigs : ℤ) = (nSigs : ℤ) := by
      rw [getint]
      omega
    have hsize : decide ((2 + (keys.length : ℤ) + 1 + nSigs).toNat ≤
        (vchKeys :: (keys ++ vchSigs :: below)).length) = decide (nSigs < below.length) := by
      rw [List.length_cons, List.length_append, List.length_cons, decide_eq_decide]
      omega
    rw [hgetint, sizeCheck_eq hsize, Int.toNat_natCast]
    refine (check_models _ _).bind fun _ hlt => ?_
    rw [check, require_ok, decide_eq_true_eq] at hlt
    obtain ⟨sigs, vchDummy, rest, rfl, rfl⟩ := exists_eq_append_cons hlt
    rw [List.drop_left, List.take_left, multiSigArgs_eq rfl (by omega)]
    simp only [bind_assoc]
    refine (returns_models _).bind fun fSuccess _ => (check_models _ _).bind fun _ _ =>
      (check_models _ _).bind fun _ _ => ?_
    cases fVerify with
    | false => exact Caught.ok _
    | true =>
      cases fSuccess with
      | false => exact ⟨_, rfl, rfl⟩
      | true => exact Caught.ok _

theorem checkMultiSigLoop_eq (henc : ∀ vchSig ∈ sigs, ∀ vchPubKey ∈ keys,
    checkEncodings crypto flags sigversion vchSig vchPubKey = .ok ()) :
    checkMultiSigLoop crypto checker flags sigversion scriptCode sigs keys =
      .ok (Matching.greedyEarly (fun vchSig vchPubKey =>
        checker.checkSig vchSig vchPubKey scriptCode sigversion) sigs keys) := by
  induction keys generalizing sigs with
  | nil => cases sigs <;> rfl
  | cons vchPubKey keys ih =>
    cases sigs with
    | nil => rfl
    | cons vchSig sigs =>
      have hhead := henc vchSig List.mem_cons_self vchPubKey List.mem_cons_self
      have hrest : ∀ sigs', sigs' ⊆ vchSig :: sigs →
          checkMultiSigLoop crypto checker flags sigversion scriptCode sigs' keys = _ :=
        fun sigs' hsub => ih fun vchSig hsig vchPubKey hkey =>
          henc vchSig (hsub hsig) vchPubKey (List.mem_cons_of_mem _ hkey)
      rw [checkMultiSigLoop, Matching.greedyEarly, hhead]
      change (if _ then _ else _) = _
      generalize hsigs' : (if checker.checkSig vchSig vchPubKey scriptCode sigversion then sigs
        else vchSig :: sigs) = sigs'
      have hsub : sigs' ⊆ vchSig :: sigs := by
        rw [← hsigs']
        split
        · exact List.subset_cons_self _ _
        · exact List.Subset.refl _
      rw [hrest sigs' hsub]
      split <;> rfl

/-- **`OP_CHECKMULTISIG` finds a matching if there is one.**  The loop ends, it succeeds if and only
if the signatures can be matched with keys in order, whether it gives up early or not, and the
operation takes exactly its arguments. -/
theorem checkMultiSig_exact {vchKeys vchSigs vchDummy : Bytes} (hle : sigs.length ≤ keys.length)
    (henc : ∀ vchSig ∈ sigs, ∀ vchPubKey ∈ keys,
      checkEncodings crypto flags sigversion vchSig vchPubKey = .ok ())
    (hstack : stack = vchKeys :: (keys ++ vchSigs :: (sigs ++ vchDummy :: rest)))
    (hcode : scriptCode = signedCode sigversion codehash sigs) :
    ∃ fSuccess,
      Loop.run (multiSigStep crypto checker flags sigversion scriptCode stack) (keys.length + 1)
        ⟨keys.length + 3, 2, sigs.length, keys.length⟩ = some (.ok fSuccess) ∧
      (fSuccess = true ↔ ∃ f : Fin sigs.length → Fin keys.length, StrictMono f ∧
        ∀ i, checker.checkSig (sigs.get i) (keys.get (f i)) scriptCode sigversion = true) ∧
      fSuccess = Matching.greedy (fun vchSig vchPubKey =>
        checker.checkSig vchSig vchPubKey scriptCode sigversion) sigs keys ∧
      multiSigArgs crypto checker flags sigversion false codehash stack keys.length sigs.length =
        (do
          check (fSuccess || !hasFlag flags SCRIPT_VERIFY_NULLFAIL || sigs.all List.isEmpty)
            .SCRIPT_ERR_SIG_NULLFAIL
          check (!hasFlag flags SCRIPT_VERIFY_NULLDUMMY || vchDummy.isEmpty)
            .SCRIPT_ERR_SIG_NULLDUMMY
          return ofBool fSuccess :: stack.drop (sigs.length + keys.length + 3)) := by
  subst hcode
  have hanswer := @checkMultiSigLoop_eq crypto checker flags sigversion sigs keys
    (signedCode sigversion codehash sigs) henc
  rw [Matching.greedyEarly_eq] at hanswer
  refine ⟨_, ?_, ?_, rfl, ?_⟩
  · rw [run_multiSigStep_args hstack hle, hanswer]
    rfl
  · rw [Matching.greedy_iff, Matching.sublistForall₂_iff_strictMono]
  · have hdrop : stack.drop (sigs.length + keys.length + 3) = rest := by
      have hlength : (vchKeys :: (keys ++ vchSigs :: (sigs ++ [vchDummy]))).length =
          sigs.length + keys.length + 3 := by
        simp only [List.length_cons, List.length_append, List.length_nil]
        omega
      have hsplit : stack = vchKeys :: (keys ++ vchSigs :: (sigs ++ [vchDummy])) ++ rest := by
        rw [hstack]
        simp
      rw [hsplit, ← hlength, List.drop_left]
    rw [multiSigArgs_eq hstack hle, hanswer, hdrop]
    rfl

/-- Two signatures and three keys, the first of which is not used. -/
theorem checkMultiSig_two_of_three : ∃ fSuccess,
    Loop.run (multiSigStep ⟨id, id, id, fun _ => true⟩ ⟨fun s k _ _ => s == k, fun _ => true,
        fun _ => true⟩ SCRIPT_VERIFY_NONE .SIGVERSION_BASE []
        [[3], [1], [2], [4], [2], [2], [4], [], [7]]) 4 ⟨6, 2, 2, 3⟩ = some (.ok fSuccess) ∧
      fSuccess = true := by
  obtain ⟨fSuccess, hrun, -, hgreedy, -⟩ := @checkMultiSig_exact ⟨id, id, id, fun _ => true⟩
    ⟨fun s k _ _ => s == k, fun _ => true, fun _ => true⟩ SCRIPT_VERIFY_NONE .SIGVERSION_BASE
    [[3], [1], [2], [4], [2], [2], [4], [], [7]] [[2], [4]] [[1], [2], [4]] [[7]] [] [] [3] [2] []
    (by decide) (by decide) rfl (by decide)
  exact ⟨fSuccess, hrun, hgreedy.trans (by decide)⟩

end EvalScript

end UnemployCoin
