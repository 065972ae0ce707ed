import Mathlib.Data.List.Dedup
import UnemployCoin.MultisigScript
/-!
# Partial signatures

`CombineSignatures` (`script/sign.cpp`) makes one input of two that have some of the signatures
each.  Of a multisig script it keeps what is valid, in the order of the keys.
-/

namespace UnemployCoin

open Check

/-! ## `CombineSignatures` -/

structure SignatureData where
  scriptSig : CScript
  scriptWitness : List Bytes
  deriving DecidableEq, Repr

/-- What they leave on the stack, from the bottom up. -/
structure Stacks where
  script : List Bytes
  witness : List Bytes
  deriving DecidableEq, Repr

/-- `BaseSignatureChecker`, which accepts nothing. -/
def baseSignatureChecker : BaseSignatureChecker :=
  ⟨fun _ _ _ _ => false, fun _ => false, fun _ => false⟩

/-- The constructor of `Stacks`.  What a script that fails leaves on the stack is not modelled. -/
def Stacks.ofData (crypto : ScriptCrypto) (data : SignatureData) : Option Stacks :=
  match evalScript crypto baseSignatureChecker SCRIPT_VERIFY_STRICTENC .SIGVERSION_BASE []
    data.scriptSig with
  | .ok stack => some ⟨stack.reverse, data.scriptWitness⟩
  | .error _ => none

def Stacks.output (s : Stacks) : SignatureData := ⟨pushAll s.script, s.witness⟩

section Combine

variable (checker : BaseSignatureChecker)

/-- The set of the signatures that are not empty, in its order. -/
def allSigs (sigs1 sigs2 : List Bytes) : List Bytes :=
  ((sigs1 ++ sigs2).filter fun v => !v.isEmpty).dedup.mergeSort fun v w => !decide (w < v)

/-- The loop over the keys: the first key without a signature for which `sig` is valid gets it. -/
def matchSig (scriptPubKey : CScript) (sigversion : SigVersion) (pubkeys : List Bytes)
    (sigs : StdMap Bytes Bytes) (sig : Bytes) : StdMap Bytes Bytes :=
  match pubkeys.find? fun pubkey =>
    !sigs.count pubkey && checker.checkSig sig pubkey scriptPubKey sigversion with
  | some pubkey => sigs.assign pubkey sig
  | none => sigs

/-- The signatures in the order of the keys, as many as are required. -/
def mergeSigs (sigs : StdMap Bytes Bytes) : ℕ → List Bytes → List Bytes
  | 0, _ => []
  | _ + 1, [] => []
  | n + 1, pubkey :: pubkeys =>
    match sigs.find? pubkey with
    | some sig => sig :: mergeSigs sigs n pubkeys
    | none => mergeSigs sigs (n + 1) pubkeys

/-- `CombineMultisig`; `none` stands for `assert(vSolutions.size() > 1)`. -/
def combineMultisig (scriptPubKey : CScript) (vSolutions sigs1 sigs2 : List Bytes)
    (sigversion : SigVersion) : Option (List Bytes) :=
  if 1 < vSolutions.length then
    let nSigsRequired := (Bytes.at (vSolutions.headD []) 0).toNat
    let pubkeys := (vSolutions.drop 1).take (vSolutions.length - 2)
    let sigs := (allSigs sigs1 sigs2).foldl (matchSig checker scriptPubKey sigversion pubkeys) ∅
    let result := mergeSigs sigs nSigsRequired pubkeys
    -- pop-one-too-many workaround
    some ([] :: (result ++ List.replicate (nSigsRequired - result.length) []))
  else none

/-- What `Solver` leaves in `typeRet` and in `vSolutionsRet`, whatever it returns.  For a witness
program that is not known it sets no type. -/
def solverRet (s : CScript) : Option (txnouttype × List Bytes) :=
  match solver s with
  | some r => some r
  | none =>
    if s.isWitnessProgram.isSome then none
    else
      match matchTemplate [OP_SMALLINTEGER, OP_PUBKEYS, OP_SMALLINTEGER, OP_CHECKMULTISIG] s with
      | some sols => some (.TX_MULTISIG, sols)
      | none => some (.TX_NONSTANDARD, [])

/-- `CombineSignatures`, on the stacks. -/
def combineStacks (scriptPubKey : CScript) (txType : txnouttype) (vSolutions : List Bytes)
    (sigs1 sigs2 : Stacks) (sigversion : SigVersion) : Option Stacks :=
  match txType with
  | .TX_NONSTANDARD | .TX_NULL_DATA | .TX_RESTRICTED_ASSET_DATA =>
    -- Don't know anything about this, assume bigger one is correct
    if sigs2.script.length ≤ sigs1.script.length then some sigs1 else some sigs2
  | .TX_PUBKEY | .TX_PUBKEYHASH | .TX_TRANSFER_ASSET | .TX_NEW_ASSET | .TX_REISSUE_ASSET =>
    -- Signatures are bigger than placeholders or empty scripts
    if (sigs1.script.headD []).isEmpty then some sigs2 else some sigs1
  | .TX_WITNESS_V0_KEYHASH => if (sigs1.witness.headD []).isEmpty then some sigs2 else some sigs1
  | .TX_SCRIPTHASH =>
    if _h : (sigs1.script.getLastD []).isEmpty = true then some sigs2
    else if (sigs2.script.getLastD []).isEmpty then some sigs1
    else do
      -- Recur to combine
      let spk := sigs1.script.getLastD []
      let (txType2, vSolutions2) ← solverRet spk
      let result ← combineStacks spk txType2 vSolutions2 ⟨sigs1.script.dropLast, sigs1.witness⟩
        ⟨sigs2.script.dropLast, sigs2.witness⟩ sigversion
      return { result with script := result.script ++ [spk] }
  | .TX_MULTISIG =>
    (combineMultisig checker scriptPubKey vSolutions sigs1.script sigs2.script sigversion).map
      fun script => ⟨script, []⟩
  | .TX_WITNESS_V0_SCRIPTHASH =>
    if _h : (sigs1.witness.getLastD []).isEmpty = true then some sigs2
    else if (sigs2.witness.getLastD []).isEmpty then some sigs1
    else do
      -- Recur to combine
      let pubKey2 := sigs1.witness.getLastD []
      let (txType2, vSolutions2) ← solverRet pubKey2
      let result ← combineStacks pubKey2 txType2 vSolutions2 ⟨sigs1.witness.dropLast, []⟩
        ⟨sigs2.witness.dropLast, []⟩ .SIGVERSION_WITNESS_V0
      return ⟨[], result.script ++ [pubKey2]⟩
termination_by sigs1.script.length + sigs1.witness.length
decreasing_by
  · cases hscript : sigs1.script with
    | nil =>
      rw [hscript] at _h
      exact absurd rfl _h
    | cons v l =>
      rw [List.length_dropLast, List.length_cons]
      omega
  · cases hwitness : sigs1.witness with
    | nil =>
      rw [hwitness] at _h
      exact absurd rfl _h
    | cons v l =>
      rw [List.length_dropLast, List.length_cons, List.length_nil]
      omega

def combineSignatures (crypto : ScriptCrypto) (scriptPubKey : CScript)
    (scriptSig1 scriptSig2 : SignatureData) : Option SignatureData := do
  let (txType, vSolutions) ← solverRet scriptPubKey
  let sigs1 ← Stacks.ofData crypto scriptSig1
  let sigs2 ← Stacks.ofData crypto scriptSig2
  let result ← combineStacks checker scriptPubKey txType vSolutions sigs1 sigs2 .SIGVERSION_BASE
  return result.output

end Combine

/-! ## The signatures that are kept -/

/-- What `checker` says of signatures and of the keys of a script: it does not depend on the script,
and a signature is valid for at most one of the keys. -/
structure Validity (checker : BaseSignatureChecker) (R : Bytes → Bytes → Bool) (keys : List Bytes) :
    Prop where
  checkSig : ∀ sig key code, checker.checkSig sig key code .SIGVERSION_BASE = R sig key
  empty : ∀ key ∈ keys, R [] key = false
  unique : ∀ sig, ∀ key ∈ keys, ∀ key' ∈ keys, R sig key = true → R sig key' = true → key = key'

/-- `found` are valid signatures of the list for the first `m` of the keys that have one. -/
structure Merged (R : Bytes → Bytes → Bool) (m : ℕ) (keys sigs found : List Bytes) : Prop where
  valid : List.Forall₂ (fun sig key => R sig key = true) found
    ((Matching.fitting R sigs keys).take m)
  mem : ∀ sig ∈ found, sig ∈ sigs

/-- What `CombineMultisig` makes of these. -/
def padded (m : ℕ) (found : List Bytes) : List Bytes :=
  [] :: (found ++ List.replicate (m - found.length) [])

section Kept

variable {checker : BaseSignatureChecker} {R : Bytes → Bytes → Bool} {m n : ℕ}
  {keys sigs found sigs1 sigs2 : List Bytes} {s : CScript} {sig key : Bytes}
  {sigsOf : StdMap Bytes Bytes}

theorem mem_allSigs : sig ∈ allSigs sigs1 sigs2 ↔ sig ∈ sigs1 ++ sigs2 ∧ sig ≠ [] := by
  rw [allSigs, List.mem_mergeSort, List.mem_dedup, List.mem_filter, Bool.not_eq_true',
    List.isEmpty_eq_false_iff]

theorem find?_matchSig (hvalid : Validity checker R keys) (hkey : key ∈ keys) :
    (matchSig checker s .SIGVERSION_BASE keys sigsOf sig).find? key =
      (sigsOf.find? key).or (if R sig key then some sig else none) := by
  have hfits : ∀ key', (!sigsOf.count key' && checker.checkSig sig key' s .SIGVERSION_BASE) = true ↔
      sigsOf.find? key' = none ∧ R sig key' = true := by
    intro key'
    rw [hvalid.checkSig, Bool.and_eq_true, Bool.not_eq_true', StdMap.count_eq_false]
  rw [matchSig]
  split
  · rename_i key' hfind
    obtain ⟨hfree, hR⟩ := (hfits key').1 (List.find?_some (p := fun key' =>
      !sigsOf.count key' && checker.checkSig sig key' s .SIGVERSION_BASE) hfind)
    rw [StdMap.find?_assign]
    split
    · rename_i heq
      rw [heq, hfree, if_pos hR]
      rfl
    · rename_i hne
      have hnot : ¬R sig key = true := fun hkeyR =>
        hne (hvalid.unique sig key hkey key' (List.mem_of_find?_eq_some hfind) hkeyR hR)
      rw [if_neg hnot, Option.or_none]
  · rename_i hnone
    cases hfind : sigsOf.find? key with
    | some sig' => rfl
    | none =>
      have hnot : ¬R sig key = true := fun hkeyR =>
        List.find?_eq_none.1 hnone key hkey ((hfits key).2 ⟨hfind, hkeyR⟩)
      rw [if_neg hnot]
      rfl

theorem find?_matchSigs (hvalid : Validity checker R keys) (hkey : key ∈ keys) :
    (sigs.foldl (matchSig checker s .SIGVERSION_BASE keys) sigsOf).find? key =
      (sigsOf.find? key).or (sigs.find? fun sig => R sig key) := by
  induction sigs generalizing sigsOf with
  | nil => exact (Option.or_none).symm
  | cons sig sigs ih =>
    rw [List.foldl_cons, ih, find?_matchSig hvalid hkey, Option.or_assoc, List.find?_cons]
    cases R sig key <;> rfl

theorem mergeSigs_eq (n : ℕ) (keys : List Bytes) :
    mergeSigs sigsOf n keys = (keys.filterMap sigsOf.find?).take n := by
  induction keys generalizing n with
  | nil => cases n <;> rfl
  | cons key keys ih =>
    cases n with
    | zero => rfl
    | succ n =>
      rw [mergeSigs, List.filterMap_cons]
      cases sigsOf.find? key with
      | none => exact ih (n + 1)
      | some sig =>
        rw [List.take_succ_cons]
        exact congrArg _ (ih n)

def kept (R : Bytes → Bytes → Bool) (m : ℕ) (keys sigs1 sigs2 : List Bytes) : List Bytes :=
  (Matching.firstFits R (allSigs sigs1 sigs2) keys).take m

theorem combineMultisig_eq (hvalid : Validity checker R keys) (hm : m < 256) (last : Bytes) :
    combineMultisig checker s ([UInt8.ofNat m] :: (keys ++ [last])) sigs1 sigs2 .SIGVERSION_BASE =
      some (padded m (kept R m keys sigs1 sigs2)) := by
  have hlength : ([UInt8.ofNat m] :: (keys ++ [last])).length = keys.length + 2 := by
    rw [List.length_cons, List.length_append, List.length_singleton]
  have hkeys : (([UInt8.ofNat m] :: (keys ++ [last])).drop 1).take (keys.length + 2 - 2) =
      keys := by
    rw [List.drop_one, List.tail_cons, Nat.add_sub_cancel, List.take_left]
  have hrequired : (Bytes.at (([UInt8.ofNat m] :: (keys ++ [last])).headD []) 0).toNat = m :=
    toNat_ofNat_of_lt hm
  have hfound : mergeSigs ((allSigs sigs1 sigs2).foldl
      (matchSig checker s .SIGVERSION_BASE keys) ∅) m keys = kept R m keys sigs1 sigs2 := by
    rw [mergeSigs_eq, kept, Matching.firstFits]
    refine congrArg (List.take m) (List.filterMap_congr fun key hkey => ?_)
    rw [find?_matchSigs hvalid hkey, StdMap.find?_empty]
    rfl
  rw [combineMultisig, if_pos (by omega)]
  dsimp only
  rw [hlength, hkeys, hrequired, hfound, padded]

theorem fitting_allSigs (hvalid : Validity checker R keys) :
    Matching.fitting R (allSigs sigs1 sigs2) keys = Matching.fitting R (sigs1 ++ sigs2) keys := by
  refine Matching.fitting_congr fun key hkey sig hsig => mem_allSigs.trans (and_iff_left ?_)
  rintro rfl
  rw [hvalid.empty key hkey] at hsig
  cases hsig

theorem merged_kept (hvalid : Validity checker R keys) :
    Merged R m keys (sigs1 ++ sigs2) (kept R m keys sigs1 sigs2) where
  valid := by
    rw [← fitting_allSigs hvalid]
    exact List.forall₂_take m (Matching.forall₂_firstFits R _ keys)
  mem sig hsig := by
    have hmem := Matching.mem_of_mem_firstFits (List.mem_of_mem_take hsig)
    exact (mem_allSigs.1 hmem).1

theorem fitting_append_comm :
    Matching.fitting R (sigs2 ++ sigs1) keys = Matching.fitting R (sigs1 ++ sigs2) keys :=
  Matching.fitting_congr fun _ _ _ _ => by rw [List.mem_append, List.mem_append, or_comm]

theorem Merged.length_eq (h : Merged R m keys sigs found) :
    found.length = min m (Matching.fitting R sigs keys).length := by
  rw [h.valid.length_eq, List.length_take]

theorem Merged.fitting_eq (h : Merged R m keys sigs found) (hvalid : Validity checker R keys)
    (hnodup : keys.Nodup) :
    Matching.fitting R found keys = (Matching.fitting R sigs keys).take m :=
  Matching.fitting_of_forall₂ h.valid ((List.take_sublist _ _).trans List.filter_sublist) hnodup
    fun sig _ => hvalid.unique sig

theorem length_padded (h : Merged R m keys sigs found) : (padded m found).length = m + 1 := by
  have hlength := h.length_eq
  rw [padded, List.length_cons, List.length_append, List.length_replicate]
  omega

theorem mem_padded (hmem : sig ∈ padded m found) : sig = [] ∨ sig ∈ found := by
  obtain rfl | hmem := List.mem_cons.1 hmem
  · exact .inl rfl
  · obtain hmem | hmem := List.mem_append.1 hmem
    · exact .inr hmem
    · exact .inl (List.eq_of_mem_replicate hmem)

theorem sized_padded (h : Merged R m keys sigs found)
    (hsized : ∀ sig ∈ sigs, sig.length ≤ MAX_SCRIPT_ELEMENT_SIZE) :
    ∀ sig ∈ padded m found, sig.length ≤ MAX_SCRIPT_ELEMENT_SIZE := by
  intro sig hsig
  obtain rfl | hsig := mem_padded hsig
  · exact Nat.zero_le _
  · exact hsized sig (h.mem sig hsig)

end Kept

/-! ## Whether they are enough -/

section Enough

variable {crypto : ScriptCrypto} {checker : BaseSignatureChecker} {flags : UInt32}
  {R : Bytes → Bytes → Bool} {m : ℕ} {keys sigs found : List Bytes} {s code : CScript}

theorem greedyEarly_of_loop
    (hcheck : ∀ sig key, checker.checkSig sig key code .SIGVERSION_BASE = R sig key)
    (h : checkMultiSigLoop crypto checker flags .SIGVERSION_BASE code sigs keys = .ok true) :
    Matching.greedyEarly R sigs keys = true := by
  induction keys generalizing sigs with
  | nil =>
    cases sigs with
    | nil => rfl
    | cons sig sigs => cases h
  | cons key keys ih =>
    cases sigs with
    | nil => rfl
    | cons sig sigs =>
      obtain ⟨-, h⟩ := unit_bind.1 h
      rw [Matching.greedyEarly]
      dsimp only at h ⊢
      rw [hcheck] at h
      generalize (if R sig key = true then sigs else sig :: sigs) = sigs' at h ⊢
      split at h
      · cases h
      · rename_i hlt
        rw [if_neg hlt]
        exact ih h

/-- **The signatures that are kept match if and only if there are enough of them.** -/
theorem matching_padded (hvalid : Validity checker R keys) (h : Merged R m keys sigs found) :
    Matching.greedy R (found ++ List.replicate (m - found.length) []).reverse keys.reverse = true ↔
      m ≤ (Matching.fitting R sigs keys).length := by
  have hlength := h.length_eq
  rw [Matching.greedy_iff]
  constructor
  · intro hmatch
    by_contra hlt
    -- an empty signature would have to match a key
    have hmem : ([] : Bytes) ∈ (found ++ List.replicate (m - found.length) []).reverse := by
      rw [List.mem_reverse, List.mem_append, List.mem_replicate]
      exact .inr ⟨by omega, rfl⟩
    obtain ⟨l, hl, hsub⟩ := List.sublistForall₂_iff.1 hmatch
    obtain ⟨key, hkey, hR⟩ := Matching.exists_of_mem_left hl hmem
    rw [hvalid.empty key (List.mem_reverse.1 (hsub.subset hkey))] at hR
    cases hR
  · intro hle
    have hpad : m - found.length = 0 := by omega
    rw [hpad, List.replicate_zero, List.append_nil]
    refine List.sublistForall₂_iff.2 ⟨_, List.rel_reverse h.valid, ?_⟩
    exact ((List.take_sublist _ _).trans List.filter_sublist).reverse

/-- The valid signatures of the list, and the keys, are in an encoding that `flags` accept. -/
def Encoded (crypto : ScriptCrypto) (flags : UInt32) (R : Bytes → Bytes → Bool)
    (keys sigs : List Bytes) : Prop :=
  ∀ sig ∈ sigs, (∃ key ∈ keys, R sig key = true) →
    ∀ key ∈ keys, checkEncodings crypto flags .SIGVERSION_BASE sig key = .ok ()

theorem reverse_padded :
    (padded m found).reverse = (found ++ List.replicate (m - found.length) []).reverse ++ [[]] := by
  rw [padded, List.reverse_cons]

theorem length_reverse_padded (h : Merged R m keys sigs found) :
    (found ++ List.replicate (m - found.length) []).reverse.length = m := by
  have hlength := h.length_eq
  rw [List.length_reverse, List.length_append, List.length_replicate]
  omega

theorem evalScript_padded (h : Merged R m keys sigs found) (hscript : IsMultisig s m keys)
    (hflags : hasFlag flags SCRIPT_VERIFY_MINIMALDATA = false) :
    evalScript crypto checker flags .SIGVERSION_BASE (padded m found).reverse s = (do
      let sigs' := (found ++ List.replicate (m - found.length) []).reverse
      let fSuccess ← checkMultiSigLoop crypto checker flags .SIGVERSION_BASE
        (signedCode .SIGVERSION_BASE s sigs') sigs' keys.reverse
      require (fSuccess || !hasFlag flags SCRIPT_VERIFY_NULLFAIL || sigs'.all List.isEmpty)
        .SCRIPT_ERR_SIG_NULLFAIL
      require (!hasFlag flags SCRIPT_VERIFY_NULLDUMMY || ([] : Bytes).isEmpty)
        .SCRIPT_ERR_SIG_NULLDUMMY
      return [ofBool fSuccess]) := by
  have hlength := length_reverse_padded h
  rw [reverse_padded]
  exact evalScript_multisig (by rwa [hlength]) hflags (Nat.zero_le _)

theorem evalScript_of_le (hvalid : Validity checker R keys) (h : Merged R m keys sigs found)
    (hscript : IsMultisig s m keys) (hflags : hasFlag flags SCRIPT_VERIFY_MINIMALDATA = false)
    (henc : Encoded crypto flags R keys sigs)
    (hle : m ≤ (Matching.fitting R sigs keys).length) :
    evalScript crypto checker flags .SIGVERSION_BASE (padded m found).reverse s =
      .ok [vchTrue] := by
  have hmatch := (matching_padded hvalid h).2 hle
  have hlength := h.length_eq
  have hpad : m - found.length = 0 := by omega
  rw [evalScript_padded h hscript hflags]
  dsimp only
  rw [hpad, List.replicate_zero, List.append_nil] at hmatch ⊢
  have hencodings : ∀ sig ∈ found.reverse, ∀ key ∈ keys.reverse,
      checkEncodings crypto flags .SIGVERSION_BASE sig key = .ok () := by
    intro sig hsig key hkey
    rw [List.mem_reverse] at hsig hkey
    obtain ⟨key', hkey', hR⟩ := Matching.exists_of_mem_left h.valid hsig
    refine henc sig (h.mem sig hsig) ⟨key', ?_, hR⟩ key hkey
    exact List.mem_of_mem_filter (List.mem_of_mem_take hkey')
  have hloop : ∀ code, checkMultiSigLoop crypto checker flags .SIGVERSION_BASE code found.reverse
      keys.reverse = .ok true := by
    intro code
    rw [EvalScript.checkMultiSigLoop_eq hencodings, Matching.greedyEarly_eq]
    simp only [hvalid.checkSig]
    rw [hmatch]
  have hdummy : (!hasFlag flags SCRIPT_VERIFY_NULLDUMMY || ([] : Bytes).isEmpty) = true :=
    Bool.or_true _
  rw [hloop, hdummy]
  rfl

theorem le_of_evalScript (hvalid : Validity checker R keys) (h : Merged R m keys sigs found)
    (hscript : IsMultisig s m keys) (hflags : hasFlag flags SCRIPT_VERIFY_MINIMALDATA = false)
    {stack : List Bytes}
    (heval : evalScript crypto checker flags .SIGVERSION_BASE (padded m found).reverse s =
      .ok stack) (htrue : requireTrue stack = .ok ()) :
    m ≤ (Matching.fitting R sigs keys).length := by
  rw [evalScript_padded h hscript hflags] at heval
  obtain ⟨fSuccess, hloop, heval⟩ := bind_ok.1 heval
  obtain ⟨-, heval⟩ := require_bind.1 heval
  obtain ⟨-, heval⟩ := require_bind.1 heval
  cases heval
  cases fSuccess with
  | false => cases htrue
  | true =>
    have hgreedy := greedyEarly_of_loop (hvalid.checkSig · · _) hloop
    rw [Matching.greedyEarly_eq] at hgreedy
    exact (matching_padded hvalid h).1 hgreedy

end Enough

/-! ## The outputs -/

/-- The outputs that the multisig script `ms` locks, and what an input adds to the signatures. -/
inductive LockedBy (crypto : ScriptCrypto) (ms : CScript) : CScript → List Bytes → Prop
  | bare : LockedBy crypto ms ms []
  | scriptHash {s : CScript} (hscript : s.isPayToScriptHash = true)
    (hhash : crypto.Hash160 ms = s.substr 2 20) : LockedBy crypto ms s [ms]

section Outputs

variable {crypto : ScriptCrypto} {checker : BaseSignatureChecker} {flags : UInt32}
  {R : Bytes → Bytes → Bool} {m : ℕ} {keys sigs found : List Bytes} {s ms : CScript}

theorem eq_of_isPayToScriptHash (h : s.isPayToScriptHash = true) :
    s = OP_HASH160 :: 0x14 :: (s.substr 2 20 ++ [OP_EQUAL]) ∧ (s.substr 2 20).length = 20 := by
  simp only [CScript.isPayToScriptHash, Bool.and_eq_true, beq_iff_eq] at h
  obtain ⟨⟨⟨hlength, h0⟩, h1⟩, h22⟩ := h
  have hlast : s.drop 22 = [OP_EQUAL] := by
    rw [drop_eq_at_cons (by omega), h22, List.drop_eq_nil_of_le (by omega)]
  have hmiddle : s.drop 2 = s.substr 2 20 ++ [OP_EQUAL] := by
    rw [← hlast, ← List.drop_drop (i := 20) (j := 2), Bytes.substr, List.take_append_drop]
  constructor
  · calc s = s.drop 0 := List.drop_zero.symm
      _ = OP_HASH160 :: 0x14 :: s.drop 2 := by
        rw [drop_eq_at_cons (by omega), drop_eq_at_cons (by omega), h0, h1]
      _ = _ := by rw [hmiddle]
  · rw [Bytes.substr, List.length_take, List.length_drop, hlength]
    rfl

theorem isWitnessProgram_of_scriptHash (h : s.isPayToScriptHash = true) :
    s.isWitnessProgram = none := by
  have heq := (eq_of_isPayToScriptHash h).1
  have hfirst : Bytes.at s 0 = OP_HASH160 := by
    rw [heq]
    rfl
  rw [CScript.isWitnessProgram, hfirst]
  split
  · rfl
  · exact if_pos (by decide)

theorem evalScript_scriptHash {stack : List Bytes} (h : s.isPayToScriptHash = true)
    (hhash : crypto.Hash160 ms = s.substr 2 20)
    (hflags : hasFlag flags SCRIPT_VERIFY_MINIMALDATA = false) (hstack : stack.length ≤ 900) :
    evalScript crypto checker flags .SIGVERSION_BASE (ms :: stack) s =
      .ok (vchTrue :: stack) := by
  obtain ⟨hs, hlength⟩ := eq_of_isPayToScriptHash h
  have hmax : MAX_STACK_SIZE = 1000 := rfl
  have hsize : s.length ≤ MAX_SCRIPT_SIZE := by
    rw [hs, List.length_cons, List.length_cons, List.length_append, hlength]
    decide
  have hstart : EvalState.start (ms :: stack) s = ⟨ms :: stack, [], [],
      OP_HASH160 :: 0x14 :: (s.substr 2 20 ++ [OP_EQUAL]), s, 0⟩ := by
    rw [EvalState.start, ← hs]
  have hpush : CScript.getOp (0x14 :: (s.substr 2 20 ++ [OP_EQUAL])) =
      some (0x14, s.substr 2 20, [OP_EQUAL]) := by
    have hget := @getOp_push [OP_EQUAL] (s.substr 2 20) (by omega)
    rwa [hlength] at hget
  have hhashOp : evalOp crypto checker flags .SIGVERSION_BASE true OP_HASH160
      ⟨ms :: stack, [], [], 0x14 :: (s.substr 2 20 ++ [OP_EQUAL]), s, 1⟩ =
        .ok ⟨s.substr 2 20 :: stack, [], [], 0x14 :: (s.substr 2 20 ++ [OP_EQUAL]), s, 1⟩ := by
    rw [← hhash]
    rfl
  have hequalOp : evalOp crypto checker flags .SIGVERSION_BASE true OP_EQUAL
      ⟨s.substr 2 20 :: s.substr 2 20 :: stack, [], [], [], s, 2⟩ =
        .ok ⟨vchTrue :: stack, [], [], [], s, 2⟩ := by
    have hop : evalOp crypto checker flags .SIGVERSION_BASE true OP_EQUAL
        ⟨s.substr 2 20 :: s.substr 2 20 :: stack, [], [], [], s, 2⟩ =
          .ok ⟨ofBool (s.substr 2 20 == s.substr 2 20) :: stack, [], [], [], s, 2⟩ := rfl
    rw [hop, beq_self_eq_true]
    rfl
  refine evalScript_of_evalRest (t := ⟨vchTrue :: stack, [], [], [], s, 2⟩) hsize ?_ rfl
  have hroom : ∀ vch : Bytes,
      (vch :: stack).length + ([] : List Bytes).length < MAX_STACK_SIZE := by
    intro vch
    rw [List.length_cons, List.length_nil]
    omega
  rw [hstart, evalRest_op (by decide) (by decide) rfl (by decide) hhashOp (hroom _).le,
    evalRest_push hpush (by decide) (by rw [hlength]; decide) hflags (hroom _),
    evalRest_op (by decide) (by decide) rfl (by decide) hequalOp (hroom _).le, evalRest_nil]

theorem verify_bare (hvalid : Validity checker R keys) (h : Merged R m keys sigs found)
    (hscript : IsMultisig s m keys) (hwitness : s.isWitnessProgram = none)
    (hhash : s.isPayToScriptHash = false)
    (hsized : ∀ sig ∈ sigs, sig.length ≤ MAX_SCRIPT_ELEMENT_SIZE)
    (hconsistent : FlagsConsistent flags)
    (hflags : hasFlag flags SCRIPT_VERIFY_MINIMALDATA = false)
    (henc : Encoded crypto flags R keys sigs) :
    verifyScript crypto checker flags (pushAll (padded m found)) s [] = .ok () ↔
      m ≤ (Matching.fitting R sigs keys).length := by
  have hvalues := sized_padded h hsized
  have hm := hscript.le.trans hscript.few
  have hlength := length_padded h
  have hpush : evalScript crypto checker flags .SIGVERSION_BASE [] (pushAll (padded m found)) =
      .ok (padded m found).reverse := evalScript_pushAll hvalues hflags (by omega)
  constructor
  · intro hverify
    obtain ⟨-, hverify⟩ := onlyIf_bind.1 hverify
    obtain ⟨stackCopy, hsig, hverify⟩ := bind_ok.1 hverify
    obtain ⟨stack, heval, hverify⟩ := bind_ok.1 hverify
    obtain ⟨htrue, -⟩ := unit_bind.1 hverify
    rw [hpush] at hsig
    cases hsig
    exact le_of_evalScript hvalid h hscript hflags heval htrue
  · intro hle
    exact verifyScript_plain hconsistent (fun _ => CScript.isPushOnly_pushAll hvalues) hpush
      (evalScript_of_le hvalid h hscript hflags henc hle) rfl hwitness hhash

theorem verify_scriptHash (hvalid : Validity checker R keys) (h : Merged R m keys sigs found)
    (hscript : IsMultisig ms m keys) (hwitness : ms.isWitnessProgram = none)
    (hhash : s.isPayToScriptHash = true) (heq : crypto.Hash160 ms = s.substr 2 20)
    (hsized : ∀ sig ∈ sigs, sig.length ≤ MAX_SCRIPT_ELEMENT_SIZE)
    (hms : ms.length ≤ MAX_SCRIPT_ELEMENT_SIZE) (hconsistent : FlagsConsistent flags)
    (hP2SH : hasFlag flags SCRIPT_VERIFY_P2SH = true)
    (hflags : hasFlag flags SCRIPT_VERIFY_MINIMALDATA = false)
    (henc : Encoded crypto flags R keys sigs) :
    verifyScript crypto checker flags (pushAll (padded m found ++ [ms])) s [] = .ok () ↔
      m ≤ (Matching.fitting R sigs keys).length := by
  have hvalues : ∀ v ∈ padded m found ++ [ms], v.length ≤ MAX_SCRIPT_ELEMENT_SIZE := by
    intro v hv
    obtain hv | hv := List.mem_append.1 hv
    · exact sized_padded h hsized v hv
    · rw [List.mem_singleton.1 hv]
      exact hms
  have hm := hscript.le.trans hscript.few
  have hlength := length_padded h
  have hpush : evalScript crypto checker flags .SIGVERSION_BASE []
      (pushAll (padded m found ++ [ms])) = .ok (ms :: (padded m found).reverse) := by
    have hrun := @evalScript_pushAll crypto checker flags .SIGVERSION_BASE _ hvalues hflags (by
      rw [List.length_append, List.length_singleton]
      omega)
    rwa [List.reverse_append, List.reverse_singleton, List.singleton_append] at hrun
  have houter : evalScript crypto checker flags .SIGVERSION_BASE
      (ms :: (padded m found).reverse) s = .ok (vchTrue :: (padded m found).reverse) :=
    evalScript_scriptHash hhash heq hflags (by rw [List.length_reverse]; omega)
  have hsPlain : ∀ (state : VerifyState) (fExact : Bool) (e : ScriptError),
      verifyWitness crypto checker flags [] s fExact e state = .ok state := by
    intro state fExact e
    rw [verifyWitness, isWitnessProgram_of_scriptHash hhash, ite_self]
  have hmsPlain : ∀ (state : VerifyState) (fExact : Bool) (e : ScriptError),
      verifyWitness crypto checker flags [] ms fExact e state = .ok state := by
    intro state fExact e
    rw [verifyWitness, hwitness, ite_self]
  have hhashed : (hasFlag flags SCRIPT_VERIFY_P2SH && s.isPayToScriptHash) = true := by
    rw [hP2SH, hhash]
    rfl
  constructor
  · intro hverify
    obtain ⟨-, hverify⟩ := onlyIf_bind.1 hverify
    obtain ⟨stackCopy, hsig, hverify⟩ := bind_ok.1 hverify
    rw [hpush] at hsig
    cases hsig
    obtain ⟨stack, -, hverify⟩ := bind_ok.1 hverify
    obtain ⟨-, hverify⟩ := unit_bind.1 hverify
    obtain ⟨state, -, hverify⟩ := bind_ok.1 hverify
    obtain ⟨state', hinner, -⟩ := bind_ok.1 hverify
    rw [verifyPayToScriptHash, if_pos hhashed] at hinner
    obtain ⟨-, hinner⟩ := require_bind.1 hinner
    obtain ⟨stack', heval, hinner⟩ := bind_ok.1 hinner
    obtain ⟨htrue, -⟩ := unit_bind.1 hinner
    exact le_of_evalScript hvalid h hscript hflags heval htrue
  · intro hle
    have heval := evalScript_of_le hvalid h hscript hflags henc hle
    refine onlyIf_bind.2 ⟨fun _ => require_ok.2 (CScript.isPushOnly_pushAll hvalues),
      bind_ok.2 ⟨_, hpush, bind_ok.2 ⟨_, houter, require_bind.2 ⟨rfl, ?_⟩⟩⟩⟩
    refine bind_ok.2 ⟨_, hsPlain _ _ _, bind_ok.2 ⟨([vchTrue], false), ?_,
      verifyEnd_one hconsistent vchTrue⟩⟩
    rw [verifyPayToScriptHash, if_pos hhashed]
    exact require_bind.2 ⟨CScript.isPushOnly_pushAll hvalues,
      bind_ok.2 ⟨_, heval, require_bind.2 ⟨rfl, hmsPlain _ _ _⟩⟩⟩

end Outputs

/-! ## The combination -/

section Combination

variable {crypto : ScriptCrypto} {checker : BaseSignatureChecker} {flags : UInt32}
  {R : Bytes → Bytes → Bool} {m : ℕ} {keys sols sigs1 sigs2 redeem : List Bytes} {s ms : CScript}
  {data1 data2 : SignatureData} {stacks1 stacks2 : Stacks}

theorem combineStacks_multisig {witness1 witness2 : List Bytes} (hvalid : Validity checker R keys)
    (hm : m < 256) (last : Bytes) :
    combineStacks checker ms .TX_MULTISIG ([UInt8.ofNat m] :: (keys ++ [last]))
        ⟨sigs1, witness1⟩ ⟨sigs2, witness2⟩ .SIGVERSION_BASE =
      some ⟨padded m (kept R m keys sigs1 sigs2), []⟩ := by
  rw [combineStacks, combineMultisig_eq hvalid hm]
  rfl

theorem solverRet_of_solver {t : txnouttype} (h : solver s = some (t, sols)) :
    solverRet s = some (t, sols) := by
  rw [solverRet, h]

theorem solver_scriptHash (h : s.isPayToScriptHash = true) :
    solver s = some (.TX_SCRIPTHASH, [s.substr 2 20]) := by
  rw [solver, if_pos h]

theorem sized_ofData {data : SignatureData} {t : Stacks} (hcrypto : EvalScript.HashSized crypto)
    (h : Stacks.ofData crypto data = some t) :
    ∀ v ∈ t.script, v.length ≤ MAX_SCRIPT_ELEMENT_SIZE := by
  rw [Stacks.ofData] at h
  split at h
  · rename_i stack heval
    cases h
    intro v hv
    have hnil : EvalScript.Sized [] := fun _ hmem => absurd hmem List.not_mem_nil
    exact (evalScript_sized hcrypto (Nat.zero_le _) hnil heval).1 v (List.mem_reverse.1 hv)
  · cases h

theorem ofData_pushAll {values witness : List Bytes}
    (hvalues : ∀ v ∈ values, v.length ≤ MAX_SCRIPT_ELEMENT_SIZE) (hlength : values.length ≤ 19) :
    Stacks.ofData crypto ⟨pushAll values, witness⟩ = some ⟨values, witness⟩ := by
  rw [Stacks.ofData, evalScript_pushAll hvalues rfl hlength]
  dsimp only
  rw [List.reverse_reverse]

theorem combineSignatures_empty (hscript : s.isPayToScriptHash = true)
    (h1 : Stacks.ofData crypto data1 = some stacks1)
    (h2 : Stacks.ofData crypto data2 = some stacks2)
    (hempty : stacks1.script.getLastD [] = [] ∨ stacks2.script.getLastD [] = []) :
    combineSignatures checker crypto s data1 data2 =
      some (if stacks1.script.getLastD [] = [] then stacks2 else stacks1).output := by
  have hsolver := solverRet_of_solver (solver_scriptHash hscript)
  rw [combineSignatures, hsolver, h1, h2]
  change (combineStacks checker s .TX_SCRIPTHASH _ stacks1 stacks2 _ >>= _) = _
  rw [combineStacks]
  by_cases hfirst : stacks1.script.getLastD [] = []
  · rw [dif_pos (List.isEmpty_iff.2 hfirst), if_pos hfirst]
    rfl
  · have hsecond := hempty.resolve_left hfirst
    rw [dif_neg (mt List.isEmpty_iff.1 hfirst), if_pos (List.isEmpty_iff.2 hsecond), if_neg hfirst]
    rfl

theorem combineSignatures_eq {last : Bytes}
    (hsolver : solver ms = some (.TX_MULTISIG, [UInt8.ofNat m] :: (keys ++ [last])))
    (hscript : IsMultisig ms m keys) (hlocked : LockedBy crypto ms s redeem)
    (hvalid : Validity checker R keys)
    (h1 : Stacks.ofData crypto data1 = some stacks1)
    (h2 : Stacks.ofData crypto data2 = some stacks2)
    (hsigs1 : stacks1.script = sigs1 ++ redeem) (hsigs2 : stacks2.script = sigs2 ++ redeem) :
    combineSignatures checker crypto s data1 data2 =
      some ⟨pushAll (padded m (kept R m keys sigs1 sigs2) ++ redeem), []⟩ := by
  have hm : m < 256 := by
    have hle := hscript.le.trans hscript.few
    omega
  obtain ⟨script1, witness1⟩ := stacks1
  obtain ⟨script2, witness2⟩ := stacks2
  dsimp only at hsigs1 hsigs2
  subst hsigs1 hsigs2
  cases hlocked with
  | bare =>
    rw [combineSignatures, solverRet_of_solver hsolver, h1, h2, List.append_nil, List.append_nil,
      List.append_nil]
    change (combineStacks checker s .TX_MULTISIG _ _ _ _ >>= _) = _
    rw [combineStacks_multisig hvalid hm]
    rfl
  | scriptHash hhash heq =>
    have hne : ¬(ms : Bytes).isEmpty = true := by
      obtain ⟨body, hms, -⟩ := hscript.script
      rw [hms]
      exact Bool.false_ne_true
    have hlast : ∀ sigs : List Bytes, (sigs ++ [ms]).getLastD [] = ms := by
      intro sigs
      rw [List.getLastD_eq_getLast?, List.getLast?_concat]
      rfl
    rw [combineSignatures, solverRet_of_solver (solver_scriptHash hhash), h1, h2]
    change (combineStacks checker s .TX_SCRIPTHASH _ _ _ _ >>= _) = _
    rw [combineStacks, dif_neg (by rw [hlast]; exact hne), if_neg (by rw [hlast]; exact hne)]
    dsimp only
    rw [hlast, solverRet_of_solver hsolver, List.dropLast_concat, List.dropLast_concat]
    change ((combineStacks checker ms .TX_MULTISIG _ _ _ _ >>= _) >>= _) = _
    rw [combineStacks_multisig hvalid hm]
    rfl

theorem isMultisig_of_sols {required : UInt8} {last : Bytes}
    (hsolver : solver ms = some (.TX_MULTISIG, [required] :: (keys ++ [last]))) :
    IsMultisig ms required.toNat keys := by
  obtain ⟨-, -, m', keys', hscript, hsols⟩ := isMultisig_of_solver hsolver
  obtain ⟨hhead, htail⟩ := List.cons.inj hsols
  have hm' := hscript.le.trans hscript.few
  rw [(List.cons.inj hhead).1, (List.append_inj' htail rfl).1, toNat_ofNat_of_lt (by omega)]
  exact hscript

/-- **The result has a signature of each key that one of the inputs has one of, up to the required
number, and it verifies if and only if these are enough.** -/
theorem combineSignatures_exact {required : UInt8} {last : Bytes}
    (hcrypto : EvalScript.HashSized crypto)
    (hsolver : solver ms = some (.TX_MULTISIG, [required] :: (keys ++ [last])))
    (hnodup : keys.Nodup) (hlocked : LockedBy crypto ms s redeem)
    (hvalid : Validity checker R keys)
    (h1 : Stacks.ofData crypto data1 = some stacks1)
    (h2 : Stacks.ofData crypto data2 = some stacks2) :
    (∀ sigs1 sigs2, stacks1.script = sigs1 ++ redeem → stacks2.script = sigs2 ++ redeem →
      ∃ found, Merged R required.toNat keys (sigs1 ++ sigs2) found ∧
        combineSignatures checker crypto s data1 data2 =
          some ⟨pushAll (padded required.toNat found ++ redeem), []⟩ ∧
        found.length = min required.toNat (Matching.fitting R (sigs1 ++ sigs2) keys).length ∧
        (padded required.toNat found).length = required.toNat + 1 ∧
        Matching.fitting R found keys =
          (Matching.fitting R (sigs1 ++ sigs2) keys).take required.toNat ∧
        Matching.fitting R (sigs1 ++ sigs2) keys = Matching.fitting R (sigs2 ++ sigs1) keys ∧
        ∀ flags, FlagsConsistent flags → hasFlag flags SCRIPT_VERIFY_P2SH = true →
          hasFlag flags SCRIPT_VERIFY_MINIMALDATA = false →
          Encoded crypto flags R keys (sigs1 ++ sigs2) →
          (verifyScript crypto checker flags (pushAll (padded required.toNat found ++ redeem)) s
              [] = .ok () ↔ required.toNat ≤ (Matching.fitting R (sigs1 ++ sigs2) keys).length)) ∧
    (s.isPayToScriptHash = true →
      stacks1.script.getLastD [] = [] ∨ stacks2.script.getLastD [] = [] →
      combineSignatures checker crypto s data1 data2 =
        some (if stacks1.script.getLastD [] = [] then stacks2 else stacks1).output) := by
  refine ⟨?_, fun hscript hempty => combineSignatures_empty hscript h1 h2 hempty⟩
  intro sigs1 sigs2 hsigs1 hsigs2
  obtain ⟨hhash, hwitness, -⟩ := isMultisig_of_solver hsolver
  have hscript := isMultisig_of_sols hsolver
  have hmerged : Merged R required.toNat keys (sigs1 ++ sigs2)
      (kept R required.toNat keys sigs1 sigs2) := merged_kept hvalid
  have hsolver' : solver ms =
      some (.TX_MULTISIG, [UInt8.ofNat required.toNat] :: (keys ++ [last])) := by
    rw [UInt8.ofNat_toNat, hsolver]
  refine ⟨_, hmerged, combineSignatures_eq hsolver' hscript hlocked hvalid h1 h2 hsigs1 hsigs2,
    hmerged.length_eq, length_padded hmerged, hmerged.fitting_eq hvalid hnodup,
    fitting_append_comm, ?_⟩
  intro flags hconsistent hP2SH hflags henc
  have hsized1 := sized_ofData hcrypto h1
  have hsized2 := sized_ofData hcrypto h2
  rw [hsigs1] at hsized1
  rw [hsigs2] at hsized2
  have hsized : ∀ sig ∈ sigs1 ++ sigs2, sig.length ≤ MAX_SCRIPT_ELEMENT_SIZE := by
    intro sig hsig
    obtain hsig | hsig := List.mem_append.1 hsig
    · exact hsized1 sig (List.mem_append_left _ hsig)
    · exact hsized2 sig (List.mem_append_left _ hsig)
  cases hlocked with
  | bare =>
    rw [List.append_nil]
    exact verify_bare hvalid hmerged hscript hwitness hhash hsized hconsistent hflags henc
  | scriptHash houter heq =>
    exact verify_scriptHash hvalid hmerged hscript hwitness houter heq hsized
      (hsized1 ms (List.mem_append_right _ (List.mem_singleton_self ms))) hconsistent hP2SH hflags
      henc

end Combination

/-! ## Two inputs of a script with two keys -/

namespace TwoOfTwo

def crypto : ScriptCrypto where
  RIPEMD160 _ := List.replicate 20 0
  SHA1 _ := List.replicate 20 0
  SHA256 _ := List.replicate 32 0
  checkLowS _ := true

def key1 : Bytes := List.replicate 33 2
def key2 : Bytes := List.replicate 33 3
def sig1 : Bytes := [0x31]
def sig2 : Bytes := [0x32]

def valid (sig key : Bytes) : Bool := sig == sig1 && key == key1 || sig == sig2 && key == key2

def checker : BaseSignatureChecker :=
  ⟨fun sig key _ _ => valid sig key, fun _ => false, fun _ => false⟩

/-- `2 <key1> <key2> 2 OP_CHECKMULTISIG`. -/
def script : CScript := 0x52 :: 33 :: (key1 ++ 33 :: (key2 ++ [0x52, OP_CHECKMULTISIG]))

def output : CScript := OP_HASH160 :: 0x14 :: (List.replicate 20 0 ++ [OP_EQUAL])

theorem solver_script :
    solver script = some (.TX_MULTISIG, [2] :: ([key1, key2] ++ [[2]])) := by decide

theorem lockedBy : LockedBy crypto script output [script] := .scriptHash (by decide) (by decide)

theorem validity : Validity checker valid [key1, key2] where
  checkSig _ _ _ := rfl
  empty := by decide
  unique sig key hkey key' hkey' h h' := by
    simp only [valid, Bool.or_eq_true, Bool.and_eq_true, beq_iff_eq] at h h'
    obtain ⟨rfl, rfl⟩ | ⟨rfl, rfl⟩ := h
    · obtain ⟨-, rfl⟩ | ⟨hsig, -⟩ := h'
      · rfl
      · exact absurd hsig (by decide)
    · obtain ⟨hsig, -⟩ | ⟨-, rfl⟩ := h'
      · exact absurd hsig (by decide)
      · rfl

theorem hashSized : EvalScript.HashSized crypto :=
  ⟨fun _ => rfl, fun _ => rfl, fun _ => rfl⟩

end TwoOfTwo

/-- Each input has one signature, and the two together verify. -/
theorem combineSignatures_complete :
    ∃ found, Merged TwoOfTwo.valid 2 [TwoOfTwo.key1, TwoOfTwo.key2]
        ([[], TwoOfTwo.sig2] ++ [[], TwoOfTwo.sig1, []]) found ∧
      combineSignatures TwoOfTwo.checker TwoOfTwo.crypto TwoOfTwo.output
          ⟨pushAll [[], TwoOfTwo.sig2, TwoOfTwo.script], []⟩
          ⟨pushAll [[], TwoOfTwo.sig1, [], TwoOfTwo.script], []⟩ =
        some ⟨pushAll (padded 2 found ++ [TwoOfTwo.script]), []⟩ ∧
      verifyScript TwoOfTwo.crypto TwoOfTwo.checker SCRIPT_VERIFY_P2SH
        (pushAll (padded 2 found ++ [TwoOfTwo.script])) TwoOfTwo.output [] = .ok () := by
  have h1 : Stacks.ofData TwoOfTwo.crypto ⟨pushAll [[], TwoOfTwo.sig2, TwoOfTwo.script], []⟩ =
      some ⟨[[], TwoOfTwo.sig2, TwoOfTwo.script], []⟩ := ofData_pushAll (by decide) (by decide)
  have h2 : Stacks.ofData TwoOfTwo.crypto ⟨pushAll [[], TwoOfTwo.sig1, [], TwoOfTwo.script], []⟩ =
      some ⟨[[], TwoOfTwo.sig1, [], TwoOfTwo.script], []⟩ := ofData_pushAll (by decide) (by decide)
  obtain ⟨found, hmerged, hcombine, -, -, -, -, hverify⟩ :=
    (combineSignatures_exact TwoOfTwo.hashSized TwoOfTwo.solver_script (by decide)
      TwoOfTwo.lockedBy TwoOfTwo.validity h1 h2).1 [[], TwoOfTwo.sig2] [[], TwoOfTwo.sig1, []]
      rfl rfl
  have henc : Encoded TwoOfTwo.crypto SCRIPT_VERIFY_P2SH TwoOfTwo.valid
      [TwoOfTwo.key1, TwoOfTwo.key2] ([[], TwoOfTwo.sig2] ++ [[], TwoOfTwo.sig1, []]) := by
    intro sig _ _ key _
    cases sig <;> rfl
  exact ⟨found, hmerged, hcombine,
    (hverify SCRIPT_VERIFY_P2SH ⟨nofun, nofun⟩ rfl rfl henc).2 (by decide)⟩

/-- An input that is not signed yet is empty and has not even the script.  **The signature of the
other one is then not padded to two.** -/
theorem combineSignatures_unpadded :
    solver TwoOfTwo.script =
        some (.TX_MULTISIG, [2] :: ([TwoOfTwo.key1, TwoOfTwo.key2] ++ [[2]])) ∧
      LockedBy TwoOfTwo.crypto TwoOfTwo.script TwoOfTwo.output [TwoOfTwo.script] ∧
      Validity TwoOfTwo.checker TwoOfTwo.valid [TwoOfTwo.key1, TwoOfTwo.key2] ∧
      ¬∃ found, Merged TwoOfTwo.valid 2 [TwoOfTwo.key1, TwoOfTwo.key2]
          ([] ++ [[], TwoOfTwo.sig1]) found ∧
        combineSignatures TwoOfTwo.checker TwoOfTwo.crypto TwoOfTwo.output ⟨[], []⟩
            ⟨pushAll [[], TwoOfTwo.sig1, TwoOfTwo.script], []⟩ =
          some ⟨pushAll (padded 2 found ++ [TwoOfTwo.script]), []⟩ := by
  refine ⟨TwoOfTwo.solver_script, TwoOfTwo.lockedBy, TwoOfTwo.validity, ?_⟩
  rintro ⟨found, hmerged, hcombine⟩
  have h2 : Stacks.ofData TwoOfTwo.crypto ⟨pushAll [[], TwoOfTwo.sig1, TwoOfTwo.script], []⟩ =
      some ⟨[[], TwoOfTwo.sig1, TwoOfTwo.script], []⟩ := ofData_pushAll (by decide) (by decide)
  have h1 : Stacks.ofData TwoOfTwo.crypto ⟨[], []⟩ = some ⟨[], []⟩ := rfl
  rw [combineSignatures_empty (by decide) h1 h2 (.inl rfl)] at hcombine
  have hlength : found.length = 1 := hmerged.length_eq.trans (by decide)
  obtain ⟨sig, rfl⟩ := List.length_eq_one_iff.1 hlength
  have hmem := hmerged.mem sig List.mem_cons_self
  obtain rfl | hmem := List.mem_cons.1 hmem
  · exact absurd hcombine (by decide)
  · rw [List.mem_singleton.1 hmem] at hcombine
    exact absurd hcombine (by decide)

end UnemployCoin
