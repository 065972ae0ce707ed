import UnemployCoin.AssetAmounts
import UnemployCoin.CheckMultiSig
import UnemployCoin.Destination
import UnemployCoin.ScriptRuns
/-!
# Multisig scripts

The scripts that `Solver` (`script/standard.cpp`) takes for `m <key> .. <key> n OP_CHECKMULTISIG`,
and what `EvalScript` does with one.
-/

namespace UnemployCoin

open Check

/-! ## The shape -/

/-- Pushes of keys, and the script behind them. -/
inductive KeyPushes : CScript → List Bytes → CScript → Prop
  | nil (s : CScript) : KeyPushes s [] s
  | cons {s rest s' : CScript} {opcode : UInt8} {key : Bytes} {keys : List Bytes}
    (hget : s.getOp = some (opcode, key, rest)) (hop : opcode ≤ OP_PUSHDATA4)
    (hlow : 33 ≤ key.length) (hhigh : key.length ≤ 65) (h : KeyPushes rest keys s') :
    KeyPushes s (key :: keys) s'

/-- `m` of these keys have to sign. -/
structure IsMultisig (s : CScript) (m : ℕ) (keys : List Bytes) : Prop where
  pos : 1 ≤ m
  le : m ≤ keys.length
  few : keys.length ≤ 16
  script : ∃ body, s = UInt8.ofNat (0x50 + m) :: body ∧
    KeyPushes body keys [UInt8.ofNat (0x50 + keys.length), OP_CHECKMULTISIG]

section Solver

variable {s rest rest' : CScript} {opcode opcode' : UInt8} {vch vch' : Bytes}
  {keys sols : List Bytes}

theorem eq_cons_of_getOp (h : s.getOp = some (opcode, vch, rest)) (hop : OP_PUSHDATA4 < opcode)
    (hne : opcode ≠ OP_UNEMP_ASSET) : s = opcode :: rest ∧ vch = [] := by
  cases s with
  | nil => cases h
  | cons b s =>
    rw [CScript.getOp] at h
    split at h
    · rename_i hpush
      split at h
      · cases h
      · dsimp only at h
        split at h
        · cases h
        · cases h
          exact absurd hpush (UInt8.not_le.2 hop)
    · split at h
      · rename_i hasset
        cases h
        exact absurd hasset hne
      · cases h
        exact ⟨rfl, rfl⟩

theorem push_of_getOp (h : s.getOp = some (opcode, vch, rest)) (hvch : vch ≠ []) :
    opcode ≤ OP_PUSHDATA4 ∨ rest = [] := by
  cases s with
  | nil => cases h
  | cons b s =>
    rw [CScript.getOp] at h
    split at h
    · rename_i hpush
      split at h
      · cases h
      · dsimp only at h
        split at h
        · cases h
        · cases h
          exact .inl hpush
    · split at h
      · cases h
        exact .inr rfl
      · cases h
        exact absurd rfl hvch

theorem length_of_getOp (h : s.getOp = some (opcode, vch, rest)) (hop : opcode ≤ OP_PUSHDATA4) :
    s.length ≤ rest.length + vch.length + 5 := by
  cases s with
  | nil => cases h
  | cons b s =>
    rw [CScript.getOp] at h
    split at h
    · rw [CScript.pushSize_eq] at h
      split at h
      · cases h
      · rename_i hsize
        split at hsize
        · cases hsize
        · cases hsize
          dsimp only at h
          split at h
          · cases h
          · cases h
            have hbytes : CScript.lengthBytes opcode ≤ 4 := by
              unfold CScript.lengthBytes
              repeat' split
              all_goals decide
            rw [List.length_cons, List.length_take, List.length_drop, List.length_drop]
            omega
    · rename_i hpush
      split at h
      · rename_i hasset
        cases h
        exact absurd hop hpush
      · cases h
        exact absurd hop hpush

theorem KeyPushes.length_le (h : KeyPushes s keys rest) :
    s.length ≤ rest.length + 70 * keys.length := by
  induction h with
  | nil s => exact Nat.le_add_right _ _
  | cons hget hop hlow hhigh h ih =>
    have hlength := length_of_getOp hget hop
    rw [List.length_cons]
    omega

theorem keyPushes_of_take {n : ℕ} (hget : s.getOp = some (opcode, vch, rest))
    (htake : takePubKeys n (opcode, vch) rest = (keys, (opcode', vch'), rest'))
    (hop : opcode' ≠ 0xff) :
    ∃ s', KeyPushes s keys s' ∧ s'.getOp = some (opcode', vch', rest') := by
  induction n generalizing s opcode vch rest keys with
  | zero =>
    cases htake
    exact ⟨s, .nil s, hget⟩
  | succ n ih =>
    rw [takePubKeys] at htake
    split at htake
    · rename_i hsize
      cases hnext : rest.getOp with
      | none =>
        rw [hnext] at htake
        cases htake
        exact absurd rfl hop
      | some next =>
        obtain ⟨opcode'', vch'', rest''⟩ := next
        rw [hnext] at htake
        dsimp only at htake
        rcases htail : takePubKeys n (opcode'', vch'') rest'' with ⟨keys', op, r⟩
        rw [htail] at htake
        cases htake
        obtain ⟨s', hpushes, hget'⟩ := ih hnext htail
        refine ⟨s', .cons hget ?_ hsize.1 hsize.2 hpushes, hget'⟩
        refine (push_of_getOp hget ?_).resolve_right ?_
        · rintro rfl
          exact absurd hsize.1 (by decide)
        · rintro rfl
          cases hnext
    · cases htake
      exact ⟨s, .nil s, hget⟩

theorem matchOp_small {sol : List Bytes} (h : matchOp OP_SMALLINTEGER opcode vch = some sol) :
    (opcode = OP_0 ∧ sol = [[0]]) ∨
    ∃ n, 1 ≤ n ∧ n ≤ 16 ∧ opcode = UInt8.ofNat (0x50 + n) ∧ sol = [[UInt8.ofNat n]] := by
  rw [matchOp, if_neg (by decide), if_neg (by decide), if_pos rfl] at h
  split at h
  · rename_i hzero
    cases h
    exact .inl ⟨hzero, rfl⟩
  · split at h
    · rename_i hop
      cases h
      obtain ⟨hlow, hhigh⟩ := hop
      rw [UInt8.le_iff_toNat_le] at hlow hhigh
      have hone : OP_1.toNat = 0x51 := rfl
      have hsixteen : OP_16.toNat = 0x60 := rfl
      have hsub : opcode = UInt8.ofNat (0x50 + (opcode.toNat - 0x50)) := by
        rw [Nat.add_sub_cancel' (by omega), UInt8.ofNat_toNat]
      refine .inr ⟨opcode.toNat - 0x50, by omega, by omega, hsub, ?_⟩
      have hvalue : opcode - 0x50 = UInt8.ofNat (opcode.toNat - 0x50) := by
        rw [← UInt8.toNat_inj, UInt8.toNat_sub, UInt8.toNat_ofNat']
        have h50 : (0x50 : UInt8).toNat = 0x50 := rfl
        have hlt := opcode.toNat_lt
        omega
      rw [hvalue]
    · cases h

theorem ne_asset (hop : opcode ≤ OP_16) : opcode ≠ OP_UNEMP_ASSET := by
  rintro rfl
  exact absurd hop (by decide)

theorem ne_invalid (hop : opcode ≤ OP_16) : opcode ≠ 0xff := by
  rintro rfl
  exact absurd hop (by decide)

theorem eq_of_match_end (h : matchTemplate [OP_CHECKMULTISIG] s = some sols) :
    s = [OP_CHECKMULTISIG] ∧ sols = [] := by
  have hne : OP_CHECKMULTISIG ≠ OP_PUBKEYS := by decide
  rw [matchTemplate] at h
  cases hget : s.getOp with
  | none =>
    rw [hget] at h
    cases h
  | some op =>
    obtain ⟨opcode, vch, rest⟩ := op
    rw [hget] at h
    dsimp only at h
    rw [if_neg hne] at h
    obtain ⟨sol, hsol, h⟩ := Option.bind_eq_some_iff.1 h
    obtain ⟨sols', hend, h⟩ := Option.bind_eq_some_iff.1 h
    cases h
    rw [matchOp, if_neg (by decide), if_neg (by decide), if_neg (by decide)] at hsol
    split at hsol
    · rename_i hop
      obtain ⟨rfl, rfl⟩ := hop
      cases hsol
      cases rest with
      | nil =>
        cases hend
        exact ⟨(eq_cons_of_getOp hget (by decide) (by decide)).1, rfl⟩
      | cons b rest => cases hend
    · cases hsol

theorem multisigPossible_iff {m n : UInt8} :
    multisigPossible ([m] :: (keys ++ [[n]])) = true ↔
      1 ≤ m ∧ m ≤ n ∧ keys.length = n.toNat := by
  have hlast : ([m] :: (keys ++ [[n]])).getLastD [] = [n] := by
    rw [List.getLastD_cons, List.getLastD_eq_getLast?, List.getLast?_concat]
    rfl
  have hlength : ([m] :: (keys ++ [[n]])).length - 2 = keys.length := by
    rw [List.length_cons, List.length_append, List.length_singleton]
    omega
  rw [multisigPossible, hlast, hlength]
  simp only [List.headD_cons, gt_iff_lt, Bool.not_or, Bool.and_eq_true, Bool.not_eq_true',
    decide_eq_false_iff_not, UInt8.not_lt, bne_eq_false_iff_eq]
  constructor
  · rintro ⟨⟨⟨hm, -⟩, hle⟩, hcount⟩
    exact ⟨UInt8.not_lt.1 (of_decide_eq_false hm), hle, hcount⟩
  · rintro ⟨hm, hle, hcount⟩
    exact ⟨⟨⟨decide_eq_false (UInt8.not_lt.2 hm),
      decide_eq_false (UInt8.not_lt.2 (UInt8.le_trans hm hle))⟩, hle⟩, hcount⟩

theorem isMultisig_of_match
    (h : matchTemplate [OP_SMALLINTEGER, OP_PUBKEYS, OP_SMALLINTEGER, OP_CHECKMULTISIG] s =
      some sols) (hpossible : multisigPossible sols = true) :
    ∃ m keys, IsMultisig s m keys ∧
      sols = [UInt8.ofNat m] :: (keys ++ [[UInt8.ofNat keys.length]]) := by
  have hkeysNe : OP_SMALLINTEGER ≠ OP_PUBKEYS := by decide
  have hcheckNe : OP_CHECKMULTISIG ≠ OP_PUBKEYS := by decide
  rw [matchTemplate] at h
  cases hfirst : s.getOp with
  | none =>
    rw [hfirst] at h
    cases h
  | some first =>
    obtain ⟨opcode₁, vch₁, rest₁⟩ := first
    rw [hfirst] at h
    dsimp only at h
    rw [if_neg hkeysNe] at h
    obtain ⟨sol, hsol, h⟩ := Option.bind_eq_some_iff.1 h
    obtain ⟨sols₁, h₁, h⟩ := Option.bind_eq_some_iff.1 h
    cases h
    rw [matchTemplate] at h₁
    cases hsecond : rest₁.getOp with
    | none =>
      rw [hsecond] at h₁
      cases h₁
    | some second =>
      obtain ⟨opcode₂, vch₂, rest₂⟩ := second
      rw [hsecond] at h₁
      dsimp only at h₁
      rw [if_pos rfl] at h₁
      rcases htake : takePubKeys rest₁.length (opcode₂, vch₂) rest₂ with
        ⟨keys, ⟨opcode₃, vch₃⟩, rest₃⟩
      rw [htake] at h₁
      dsimp only at h₁
      obtain ⟨sol₃, hsol₃, h₁⟩ := Option.bind_eq_some_iff.1 h₁
      obtain ⟨sols₃, h₃, h₁⟩ := Option.bind_eq_some_iff.1 h₁
      cases h₁
      obtain ⟨rfl, rfl⟩ := eq_of_match_end h₃
      rw [List.append_nil] at hpossible ⊢
      obtain ⟨-, rfl⟩ | ⟨m, hm, hm16, rfl, rfl⟩ := matchOp_small hsol
      · obtain ⟨-, rfl⟩ | ⟨n, -, -, -, rfl⟩ := matchOp_small hsol₃
        all_goals exact absurd (multisigPossible_iff.1 hpossible).1 (by decide)
      · obtain ⟨-, rfl⟩ | ⟨n, hn, hn16, rfl, rfl⟩ := matchOp_small hsol₃
        · obtain ⟨hpos, hle, -⟩ := multisigPossible_iff.1 hpossible
          exact absurd (UInt8.le_trans hpos hle) (by decide)
        · obtain ⟨-, hle, hcount⟩ := multisigPossible_iff.1 hpossible
          rw [toNat_ofNat_of_lt (by omega)] at hcount
          rw [UInt8.le_iff_toNat_le, toNat_ofNat_of_lt (by omega), toNat_ofNat_of_lt (by omega)]
            at hle
          subst hcount
          obtain ⟨hlow, hhigh, -⟩ := small_opcode hm hm16
          obtain ⟨hlow', hhigh', -⟩ := small_opcode hn hn16
          obtain ⟨rfl, -⟩ := eq_cons_of_getOp hfirst (UInt8.lt_of_lt_of_le (by decide) hlow)
            (ne_asset hhigh)
          obtain ⟨s', hpushes, hget⟩ := keyPushes_of_take hsecond htake (ne_invalid hhigh')
          obtain ⟨rfl, -⟩ := eq_cons_of_getOp hget (UInt8.lt_of_lt_of_le (by decide) hlow')
            (ne_asset hhigh')
          exact ⟨m, keys, ⟨hm, hle, hn16, rest₁, rfl, hpushes⟩, rfl⟩

/-- **What `Solver` takes for a multisig script is one.** -/
theorem isMultisig_of_solver (h : solver s = some (.TX_MULTISIG, sols)) :
    s.isPayToScriptHash = false ∧ s.isWitnessProgram = none ∧
    ∃ m keys, IsMultisig s m keys ∧
      sols = [UInt8.ofNat m] :: (keys ++ [[UInt8.ofNat keys.length]]) := by
  unfold solver at h
  split at h
  · cases h
  · rename_i hhash
    split at h
    · rename_i t ht
      obtain ⟨-, ⟨hkind, -⟩ | hkind | ⟨hkind, -⟩⟩ := isAssetScript_cases ht
      all_goals
        rw [hkind] at h
        cases h
    · split at h
      · split at h
        · cases h
        · split at h <;> cases h
      · rename_i hwitness
        refine ⟨Bool.not_eq_true _ ▸ hhash, hwitness, ?_⟩
        split at h
        · cases h
        · split at h
          · cases h
          · split at h
            · cases h
            · split at h
              · cases h
              · split at h
                · rename_i sols' hmatch
                  split at h
                  · rename_i hpossible
                    cases h
                    exact isMultisig_of_match hmatch hpossible
                  · cases h
                · cases h

end Solver

section Eval

variable {crypto : ScriptCrypto} {checker : BaseSignatureChecker} {flags : UInt32}
  {sigversion : SigVersion} {s rest code : CScript} {stack keys sigs below : List Bytes}
  {vchDummy : Bytes} {k m n : ℕ}

theorem scriptNum_small (hn : n ≤ 16) (hpos : 1 ≤ n)
    (hflags : hasFlag flags SCRIPT_VERIFY_MINIMALDATA = false) :
    scriptNum flags nDefaultMaxNumSize [UInt8.ofNat n] = .ok (n : ℤ) := by
  rw [scriptNum, hflags]
  interval_cases n <;> rfl

theorem checkMultiSigOp_small (hm : 1 ≤ sigs.length) (hle : sigs.length ≤ keys.length)
    (hn : keys.length ≤ 16) (hk : k ≤ 1)
    (hflags : hasFlag flags SCRIPT_VERIFY_MINIMALDATA = false) :
    checkMultiSigOp crypto checker flags sigversion false code k
      ([UInt8.ofNat keys.length] ::
        (keys ++ [UInt8.ofNat sigs.length] :: (sigs ++ vchDummy :: below))) = (do
      let fSuccess ← checkMultiSigLoop crypto checker flags sigversion
        (signedCode sigversion code sigs) sigs keys
      require (fSuccess || !hasFlag flags SCRIPT_VERIFY_NULLFAIL || sigs.all List.isEmpty)
        .SCRIPT_ERR_SIG_NULLFAIL
      require (!hasFlag flags SCRIPT_VERIFY_NULLDUMMY || vchDummy.isEmpty)
        .SCRIPT_ERR_SIG_NULLDUMMY
      return (ofBool fSuccess :: below, k + keys.length)) := by
  have hkeys : scriptNum flags nDefaultMaxNumSize [UInt8.ofNat keys.length] =
      .ok (keys.length : ℤ) := scriptNum_small hn (by omega) hflags
  have hsigs : scriptNum flags nDefaultMaxNumSize [UInt8.ofNat sigs.length] =
      .ok (sigs.length : ℤ) := scriptNum_small (by omega) hm hflags
  have hcount : (decide ((0 : ℤ) ≤ keys.length) &&
      decide ((keys.length : ℤ) ≤ MAX_PUBKEYS_PER_MULTISIG)) = true := by
    rw [Bool.and_eq_true, decide_eq_true_iff, decide_eq_true_iff, MAX_PUBKEYS_PER_MULTISIG]
    omega
  have hops : decide (k + keys.length ≤ MAX_OPS_PER_SCRIPT) = true := by
    rw [decide_eq_true_iff, MAX_OPS_PER_SCRIPT]
    omega
  have hroom : decide (keys.length <
      (keys ++ [UInt8.ofNat sigs.length] :: (sigs ++ vchDummy :: below)).length) = true := by
    rw [decide_eq_true_iff, List.length_append, List.length_cons]
    omega
  have hsigCount : (decide ((0 : ℤ) ≤ sigs.length) &&
      decide ((sigs.length : ℤ) ≤ keys.length)) = true := by
    rw [Bool.and_eq_true, decide_eq_true_iff, decide_eq_true_iff]
    omega
  have hsigRoom : decide (sigs.length < (sigs ++ vchDummy :: below).length) = true := by
    rw [decide_eq_true_iff, List.length_append, List.length_cons]
    omega
  have hdrop : take1 ((keys ++ [UInt8.ofNat sigs.length] :: (sigs ++ vchDummy :: below)).drop
      keys.length) = .ok ([UInt8.ofNat sigs.length], sigs ++ vchDummy :: below) := by
    rw [List.drop_left]
    rfl
  rw [checkMultiSigOp]
  refine (bind_of_ok rfl _).trans ((bind_of_ok hkeys _).trans ?_)
  refine (bind_of_ok (require_ok.2 hcount) _).trans ?_
  dsimp only
  rw [Int.toNat_natCast]
  refine (bind_of_ok (require_ok.2 hops) _).trans ((bind_of_ok (require_ok.2 hroom) _).trans ?_)
  refine (bind_of_ok hdrop _).trans ((bind_of_ok hsigs _).trans ?_)
  refine (bind_of_ok (require_ok.2 hsigCount) _).trans ?_
  dsimp only
  rw [Int.toNat_natCast]
  refine (bind_of_ok (require_ok.2 hsigRoom) _).trans ?_
  rw [List.take_left, List.take_left, List.drop_left]
  rfl

theorem evalRest_keys (h : KeyPushes s keys rest)
    (hflags : hasFlag flags SCRIPT_VERIFY_MINIMALDATA = false)
    (hsize : stack.length + keys.length ≤ MAX_STACK_SIZE) :
    evalRest crypto checker flags sigversion ⟨stack, [], [], s, code, k⟩ =
      evalRest crypto checker flags sigversion ⟨keys.reverse ++ stack, [], [], rest, code, k⟩ := by
  induction h generalizing stack with
  | nil s => rfl
  | @cons s rest s' opcode key keys hget hop hlow hhigh h ih =>
    have hmax : MAX_SCRIPT_ELEMENT_SIZE = 520 := rfl
    rw [List.length_cons] at hsize
    have hroom : stack.length + ([] : List Bytes).length < MAX_STACK_SIZE := by
      rw [List.length_nil]
      omega
    rw [evalRest_push hget hop (by omega) hflags hroom,
      ih (by rw [List.length_cons]; omega), List.reverse_cons, List.append_assoc]
    rfl

/-- **The signatures on the stack are matched with the keys in order.** -/
theorem evalScript_multisig (h : IsMultisig s sigs.length keys)
    (hflags : hasFlag flags SCRIPT_VERIFY_MINIMALDATA = false) (hbelow : below.length ≤ 900) :
    evalScript crypto checker flags sigversion (sigs ++ vchDummy :: below) s = (do
      let fSuccess ← checkMultiSigLoop crypto checker flags sigversion
        (signedCode sigversion s sigs) sigs keys.reverse
      require (fSuccess || !hasFlag flags SCRIPT_VERIFY_NULLFAIL || sigs.all List.isEmpty)
        .SCRIPT_ERR_SIG_NULLFAIL
      require (!hasFlag flags SCRIPT_VERIFY_NULLDUMMY || vchDummy.isEmpty)
        .SCRIPT_ERR_SIG_NULLDUMMY
      return ofBool fSuccess :: below) := by
  obtain ⟨hpos, hle, hfew, body, hs, hpushes⟩ := h
  have hmax : MAX_STACK_SIZE = 1000 := rfl
  have hlength := hpushes.length_le
  have hscript : s.length ≤ MAX_SCRIPT_SIZE := by
    rw [hs, List.length_cons, MAX_SCRIPT_SIZE]
    rw [List.length_cons, List.length_singleton] at hlength
    omega
  have hstack : (sigs ++ vchDummy :: below).length = sigs.length + below.length + 1 := by
    rw [List.length_append, List.length_cons]
    omega
  obtain ⟨hlow, hhigh, hm⟩ := small_opcode hpos (hle.trans hfew)
  obtain ⟨hlow', hhigh', hn⟩ := small_opcode (hpos.trans hle) hfew
  have hnil : ([] : List Bytes).length = 0 := rfl
  have hstart : EvalState.start (sigs ++ vchDummy :: below) s =
      ⟨sigs ++ vchDummy :: below, [], [], UInt8.ofNat (0x50 + sigs.length) :: body, s, 0⟩ := by
    rw [EvalState.start, ← hs]
  rw [evalScript_eq hscript, hstart, evalRest_small hlow hhigh (by omega), hm,
    evalRest_keys hpushes hflags (by rw [List.length_cons]; omega),
    evalRest_small hlow' hhigh' (by
      rw [List.length_append, List.length_reverse, List.length_cons]
      omega), hn,
    evalRest_op_eq (by decide) (by decide) rfl (by decide)]
  have hop : ∀ st : List Bytes, evalOp crypto checker flags sigversion true OP_CHECKMULTISIG
      ⟨st, [], [], [], s, 1⟩ = (do
        let r ← checkMultiSigOp crypto checker flags sigversion false s 1 st
        return ⟨r.1, [], [], [], s, r.2⟩) := fun _ => rfl
  have hcheck := @checkMultiSigOp_small crypto checker flags sigversion s keys.reverse sigs below
    vchDummy 1 hpos (by rwa [List.length_reverse]) (by rwa [List.length_reverse]) le_rfl hflags
  rw [List.length_reverse] at hcheck
  have hend : ∀ fSuccess : Bool, decide ((ofBool fSuccess :: below).length +
      ([] : List Bytes).length ≤ MAX_STACK_SIZE) = true := by
    intro fSuccess
    rw [List.length_cons, List.length_nil, decide_eq_true_iff]
    omega
  rw [hop, hcheck]
  simp only [bind_assoc, pure_bind, hend]
  rfl

end Eval

end UnemployCoin
