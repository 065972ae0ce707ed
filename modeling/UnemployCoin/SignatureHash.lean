import UnemployCoin.AssetScripts
import UnemployCoin.ScriptParsing
import UnemployCoin.TransactionFormat
/-!
# The signature hash

`CTransactionSignatureSerializer` (`script/interpreter.cpp`) writes a transaction with the changes
that its signature hash needs, without a copy of it.  `SignatureHashOld` (`sighash_tests.cpp`)
makes the copy, changes it and serializes that.
-/

namespace UnemployCoin

namespace Wire

def SIGHASH_ALL : Int32 := 1
def SIGHASH_NONE : Int32 := 2
def SIGHASH_SINGLE : Int32 := 3
def SIGHASH_ANYONECANPAY : Int32 := 0x80

/-! ## `SignatureHash` -/

structure CTransactionSignatureSerializer where
  txTo : CMutableTransaction
  scriptCode : CScript
  nIn : ℕ
  fAnyoneCanPay : Bool
  fHashSingle : Bool
  fHashNone : Bool

namespace CTransactionSignatureSerializer

def new (txToIn : CMutableTransaction) (scriptCodeIn : CScript) (nInIn : ℕ) (nHashTypeIn : Int32) :
    CTransactionSignatureSerializer where
  txTo := txToIn
  scriptCode := scriptCodeIn
  nIn := nInIn
  fAnyoneCanPay := nHashTypeIn &&& SIGHASH_ANYONECANPAY != 0
  fHashSingle := nHashTypeIn &&& 0x1f == SIGHASH_SINGLE
  fHashNone := nHashTypeIn &&& 0x1f == SIGHASH_NONE

variable (t : CTransactionSignatureSerializer)

def serializeInput (nInput : ℕ) : Option Bytes := do
  -- In case of SIGHASH_ANYONECANPAY, only the input being signed is serialized
  let nInput := if t.fAnyoneCanPay then t.nIn else nInput
  let txin ← t.txTo.vin[nInput]?
  let script ← if nInput ≠ t.nIn then some (bytesFormat.write [])
    else t.scriptCode.serializeScriptCode
  let nSequence := if nInput ≠ t.nIn ∧ (t.fHashSingle ∨ t.fHashNone) then int32Format.write 0
    else uint32Format.write txin.nSequence
  return outPointFormat.write txin.prevout ++ (script ++ nSequence)

def serializeOutput (nOutput : ℕ) : Option Bytes :=
  if t.fHashSingle ∧ nOutput ≠ t.nIn then some (txOutFormat.write ⟨-1, []⟩)
  else t.txTo.vout[nOutput]?.map txOutFormat.write

/-- `Serialize`.  The numbers of inputs and outputs are of type `unsigned int`. -/
def serialize : Option Bytes := do
  let nInputs := if t.fAnyoneCanPay then 1 else t.txTo.vin.length % 2 ^ 32
  let inputs ← (List.range nInputs).mapM t.serializeInput
  let nOutputs := if t.fHashNone then 0
    else if t.fHashSingle then (t.nIn + 1) % 2 ^ 32 else t.txTo.vout.length % 2 ^ 32
  let outputs ← (List.range nOutputs).mapM t.serializeOutput
  return int32Format.write t.txTo.nVersion ++ (writeCompactSize nInputs ++ inputs.flatten ++
    (writeCompactSize nOutputs ++ outputs.flatten ++ writeUInt32 t.txTo.nLockTime))

end CTransactionSignatureSerializer

section Hash

variable (hash : Bytes → arith_uint256)

def getPrevoutHash (txTo : CMutableTransaction) : arith_uint256 :=
  hash (txTo.vin.flatMap fun txin => outPointFormat.write txin.prevout)

def getSequenceHash (txTo : CMutableTransaction) : arith_uint256 :=
  hash (txTo.vin.flatMap fun txin => uint32Format.write txin.nSequence)

def getOutputsHash (txTo : CMutableTransaction) : arith_uint256 :=
  hash (txTo.vout.flatMap txOutFormat.write)

structure PrecomputedTransactionData where
  hashPrevouts : arith_uint256
  hashSequence : arith_uint256
  hashOutputs : arith_uint256
  ready : Bool

/-- `SignatureHash` for a witness program of version 0, with a cache that is ready if there is
one. -/
def signatureHashWitness (scriptCode : CScript) (txTo : CMutableTransaction) (nIn : ℕ)
    (nHashType : Int32) (amount : CAmount) (cache : Option PrecomputedTransactionData) :
    Option arith_uint256 := do
  let fAnyoneCanPay := nHashType &&& SIGHASH_ANYONECANPAY != 0
  let fHashSingle := nHashType &&& 0x1f == SIGHASH_SINGLE
  let fHashNone := nHashType &&& 0x1f == SIGHASH_NONE
  let hashPrevouts :=
    if !fAnyoneCanPay then (cache.map fun c => c.hashPrevouts).getD (getPrevoutHash hash txTo)
    else 0
  let hashSequence :=
    if !fAnyoneCanPay && !fHashSingle && !fHashNone then
      (cache.map fun c => c.hashSequence).getD (getSequenceHash hash txTo)
    else 0
  let hashOutputs :=
    if !fHashSingle && !fHashNone then
      (cache.map fun c => c.hashOutputs).getD (getOutputsHash hash txTo)
    else if fHashSingle then (txTo.vout[nIn]?.map fun out => hash (txOutFormat.write out)).getD 0
    else 0
  let txin ← txTo.vin[nIn]?
  return hash (int32Format.write txTo.nVersion ++ uint256Format.write hashPrevouts ++
    uint256Format.write hashSequence ++ outPointFormat.write txin.prevout ++
    bytesFormat.write scriptCode ++ int64Format.write amount ++ uint32Format.write txin.nSequence ++
    uint256Format.write hashOutputs ++ uint32Format.write txTo.nLockTime ++
    int32Format.write nHashType)

/-- `SignatureHash`; `none` stands for `assert(nIn < txTo.vin.size())`. -/
def signatureHash (scriptCode : CScript) (txTo : CMutableTransaction) (nIn : ℕ) (nHashType : Int32)
    (amount : CAmount) (sigversion : SigVersion) (cache : Option PrecomputedTransactionData) :
    Option arith_uint256 :=
  if txTo.vin.length ≤ nIn then none
  else if sigversion = .SIGVERSION_WITNESS_V0 then
    signatureHashWitness hash scriptCode txTo nIn nHashType amount
      (cache.filter PrecomputedTransactionData.ready)
  -- Check for invalid use of SIGHASH_SINGLE
  else if nHashType &&& 0x1f = SIGHASH_SINGLE ∧ txTo.vout.length ≤ nIn then some 1
  else do
    let bytes ← (CTransactionSignatureSerializer.new txTo scriptCode nIn nHashType).serialize
    return hash (bytes ++ int32Format.write nHashType)

def letOthersUpdate (nIn : ℕ) (vin : List CTxIn) : List CTxIn :=
  vin.mapIdx fun i txin => if i ≠ nIn then { txin with nSequence := 0 } else txin

/-- The changes that `SignatureHashOld` makes to the outputs and the sequences; none if `nIn` has no
output. -/
def pruneOutputs (txTmp : CMutableTransaction) (nIn : ℕ) (nHashType : Int32) :
    Option CMutableTransaction :=
  if nHashType &&& 0x1f = SIGHASH_NONE then
    -- Wildcard payee
    some { txTmp with vout := [], vin := letOthersUpdate nIn txTmp.vin }
  else if nHashType &&& 0x1f = SIGHASH_SINGLE then
    -- Only lock-in the txout payee at same index as txin
    if txTmp.vout.length ≤ nIn then none
    else some { txTmp with
      vout := (txTmp.vout.take (nIn + 1)).mapIdx fun i txout => if i < nIn then ⟨-1, []⟩ else txout
      vin := letOthersUpdate nIn txTmp.vin }
  else some txTmp

def txTmpOld (scriptCode : CScript) (txTo : CMutableTransaction) (nIn : ℕ) (nHashType : Int32) :
    Option CMutableTransaction := do
  -- Blank out other inputs' signatures
  let vin := txTo.vin.map fun txin => { txin with scriptSig := [] }
  let vin := vin.modify nIn fun txin => { txin with scriptSig := scriptCode }
  let txTmp ← pruneOutputs { txTo with vin := vin } nIn nHashType
  -- Blank out other inputs completely, not recommended for open transactions
  if nHashType &&& SIGHASH_ANYONECANPAY != 0 then
    return { txTmp with vin := (txTmp.vin.set 0 (← txTmp.vin[nIn]?)).take 1 }
  else return txTmp

def signatureHashOld (scriptCode : CScript) (txTo : CMutableTransaction) (nIn : ℕ)
    (nHashType : Int32) : Option arith_uint256 :=
  if txTo.vin.length ≤ nIn then some 1
  else do
    -- In case concatenating two scripts ends up with two codeseparators, or an extra one at the
    -- end, this prevents all those possible incompatibilities.
    let (_, scriptCode) ← scriptCode.findAndDeleteCount [OP_CODESEPARATOR]
    match txTmpOld scriptCode txTo nIn nHashType with
    | none => return 1
    | some txTmp => return hash (serializeTransaction false txTmp ++ int32Format.write nHashType)

end Hash

/-! ## Scripts that are parsed to their end -/

end Wire

namespace CScript

variable {s : CScript} {pc : ℕ} {reads : List OpRead}

/-- The reads from `pc` on, none of which fails, up to the end. -/
inductive Parses (s : CScript) : ℕ → List OpRead → Prop
  | done : Parses s s.length []
  | op {pc : ℕ} {reads : List OpRead} (hpc : pc < s.length) (hret : (getOp2 s pc).fRet = true)
    (h : Parses s (getOp2 s pc).pc reads) : Parses s pc (getOp2 s pc :: reads)

theorem Parses.le (h : Parses s pc reads) : pc ≤ s.length := by
  cases h with
  | done => exact le_rfl
  | op hpc => exact hpc.le

theorem parses_of_readOps {ops : List (UInt8 × Bytes)} (h : readOps s = some (ops, true)) :
    ∃ reads, Parses s 0 reads := by
  have hrun : ∀ (n pc : ℕ) (ops ops' : List (UInt8 × Bytes)), pc ≤ s.length →
      Loop.run (readStep s) n (pc, ops) = some (ops', true) → ∃ reads, Parses s pc reads := by
    intro n
    induction n with
    | zero =>
      intro pc ops ops' _ h
      cases h
    | succ n ih =>
      intro pc ops ops' hpc h
      by_cases hend : s.length ≤ pc
      · obtain rfl : pc = s.length := le_antisymm hpc hend
        exact ⟨[], .done⟩
      · cases hret : (getOp2 s pc).fRet with
        | false =>
          have hstep : readStep s (pc, ops) = .inr (ops, false) := by
            rw [readStep, opsStep, if_neg hend]
            dsimp only
            rw [hret, if_neg Bool.false_ne_true]
          rw [Loop.run_inr hstep] at h
          cases h
        | true =>
          have hstep : readStep s (pc, ops) = .inl ((getOp2 s pc).pc,
              ops ++ [((getOp2 s pc).opcodeRet, (getOp2 s pc).vchRet)]) := by
            rw [readStep, opsStep, if_neg hend]
            dsimp only
            rw [if_pos hret]
            rfl
          rw [Loop.run_inl hstep] at h
          obtain ⟨reads, hreads⟩ := ih _ _ _ (getOp2_progress hpc).1 h
          exact ⟨_, .op (Nat.lt_of_not_le hend) hret hreads⟩
  exact hrun _ 0 [] ops (Nat.zero_le _) h

def separators (reads : List OpRead) : ℕ :=
  reads.countP fun op => decide (op.opcodeRet = OP_CODESEPARATOR)

/-- The bytes from `pc` on without the separators. -/
def withoutSeparators (s : CScript) : ℕ → List OpRead → Bytes
  | _, [] => []
  | pc, op :: reads =>
    (if op.opcodeRet = OP_CODESEPARATOR then [] else s.substr pc (op.pc - pc)) ++
      withoutSeparators s op.pc reads

theorem substr_append_drop {i j : ℕ} (h : i ≤ j) :
    Bytes.substr s i (j - i) ++ s.drop j = s.drop i := by
  have hdrop : s.drop j = (s.drop i).drop (j - i) := by
    rw [List.drop_drop, Nat.add_sub_cancel' h]
  rw [hdrop]
  exact List.take_append_drop _ _

theorem substr_append_substr {i j k : ℕ} (hij : i ≤ j) (hjk : j ≤ k) :
    Bytes.substr s i (j - i) ++ Bytes.substr s j (k - j) = Bytes.substr s i (k - i) := by
  have hsum : k - i = (j - i) + (k - j) := by omega
  have hdrop : s.drop j = (s.drop i).drop (j - i) := by
    rw [List.drop_drop, Nat.add_sub_cancel' hij]
  rw [Bytes.substr, Bytes.substr, Bytes.substr, hsum, List.take_add, hdrop]

theorem substr_end {i : ℕ} : Bytes.substr s i (s.length - i) = s.drop i := by
  rw [Bytes.substr, ← List.length_drop, List.take_length]

theorem opcodeRet_eq (hret : (getOp2 s pc).fRet = true) :
    (getOp2 s pc).opcodeRet = Bytes.at s pc := by
  unfold getOp2 at hret ⊢
  split at hret
  · cases hret
  · rename_i hin
    rw [if_neg hin]
    dsimp only at hret ⊢
    split at hret
    · rename_i hpush
      rw [if_pos hpush]
      split at hret
      · cases hret
      · rename_i hlength
        rw [if_neg hlength]
        split at hret
        · cases hret
        · rename_i hsize
          rw [if_neg hsize]
    · rename_i hpush
      rw [if_neg hpush]
      split <;> rfl

theorem getOp2_separator (hpc : pc < s.length) (h : Bytes.at s pc = OP_CODESEPARATOR) :
    getOp2 s pc = ⟨true, pc + 1, OP_CODESEPARATOR, []⟩ := by
  rw [getOp2, if_neg (Nat.not_le.2 hpc), h]
  rfl

theorem overOps_of_parses {β ρ : Type*} {body : β → OpRead → β ⊕ ρ} {f : β → OpRead → β}
    {atEnd : β → ρ} {onFail : β → OpRead → ρ} (hbody : ∀ b op, body b op = .inl (f b op))
    (h : Parses s pc reads) (b : β) :
    overOps s body atEnd onFail pc b = some (atEnd (reads.foldl f b)) := by
  have hrun : ∀ n, s.length - pc < n →
      Loop.run (opsStep s body atEnd onFail) n (pc, b) = some (atEnd (reads.foldl f b)) := by
    induction h generalizing b with
    | done =>
      intro n hn
      cases n with
      | zero => exact absurd hn (Nat.not_lt_zero _)
      | succ n => exact Loop.run_inr (by rw [opsStep, if_pos le_rfl, List.foldl_nil])
    | @op pc reads hpc hret hreads ih =>
      intro n hn
      cases n with
      | zero => exact absurd hn (Nat.not_lt_zero _)
      | succ n =>
        have hstep : opsStep s body atEnd onFail (pc, b) =
            .inl ((getOp2 s pc).pc, f b (getOp2 s pc)) := by
          rw [opsStep, if_neg (Nat.not_le.2 hpc)]
          dsimp only
          rw [if_pos hret, hbody]
          rfl
        have hlt := (getOp2_progress hpc.le).2 hret
        rw [Loop.run_inl hstep, List.foldl_cons]
        exact ih _ n (by omega)
  exact hrun _ (by omega)

theorem countCodeSeparators_eq (h : Parses s 0 reads) :
    countCodeSeparators s = some (separators reads) := by
  have hcount : ∀ (l : List OpRead) (n : ℕ),
      l.foldl (fun n op => if op.opcodeRet = OP_CODESEPARATOR then n + 1 else n) n =
        n + separators l := by
    intro l
    induction l with
    | nil => exact fun _ => rfl
    | cons op l ih =>
      intro n
      rw [List.foldl_cons, ih, separators, separators, List.countP_cons]
      by_cases hop : op.opcodeRet = OP_CODESEPARATOR
      · rw [if_pos hop, if_pos (decide_eq_true hop)]
        omega
      · rw [if_neg hop, if_neg (by rwa [decide_eq_true_eq])]
        rfl
  rw [countCodeSeparators, overOps_of_parses
    (f := fun n op => if op.opcodeRet = OP_CODESEPARATOR then n + 1 else n) (fun _ _ => rfl) h,
    hcount, Nat.zero_add]
  rfl

theorem length_substr_read (hpc : pc < s.length) :
    (Bytes.substr s pc ((getOp2 s pc).pc - pc)).length = (getOp2 s pc).pc - pc := by
  obtain ⟨hin, -⟩ := getOp2_progress hpc.le
  rw [Bytes.substr, List.length_take, List.length_drop]
  exact Nat.min_eq_left (Nat.sub_le_sub_right hin pc)

theorem pc_of_separator (hpc : pc < s.length) (hret : (getOp2 s pc).fRet = true)
    (h : (getOp2 s pc).opcodeRet = OP_CODESEPARATOR) : (getOp2 s pc).pc = pc + 1 := by
  rw [opcodeRet_eq hret] at h
  rw [getOp2_separator hpc h]

theorem length_withoutSeparators (h : Parses s pc reads) :
    (withoutSeparators s pc reads).length + separators reads = s.length - pc := by
  induction h with
  | done => rw [Nat.sub_self]; rfl
  | @op pc reads hpc hret hreads ih =>
    obtain ⟨hin, hlt⟩ := getOp2_progress hpc.le
    have hmove := hlt hret
    rw [separators] at ih
    rw [withoutSeparators, separators, List.countP_cons, List.length_append]
    by_cases hop : (getOp2 s pc).opcodeRet = OP_CODESEPARATOR
    · rw [if_pos hop, if_pos (decide_eq_true hop), List.length_nil]
      have hnext := pc_of_separator hpc hret hop
      omega
    · rw [if_neg hop, if_neg (by rwa [decide_eq_true_eq]), length_substr_read hpc]
      omega

theorem withoutSeparators_eq_drop (h : Parses s pc reads) (hnone : separators reads = 0) :
    withoutSeparators s pc reads = s.drop pc := by
  induction h with
  | done => exact (List.drop_length).symm
  | @op pc reads hpc hret hreads ih =>
    rw [separators, List.countP_cons, Nat.add_eq_zero_iff] at hnone
    obtain ⟨hnone, hop⟩ := hnone
    have hmove := (getOp2_progress hpc.le).2 hret
    split at hop
    · cases hop
    · rename_i hne
      rw [decide_eq_true_eq] at hne
      rw [withoutSeparators, if_neg hne, ih hnone, substr_append_drop hmove.le]

/-- A round of the second loop of `SerializeScriptCode`. -/
def writeRound (s : CScript) (b : ℕ × Bytes) (op : OpRead) : ℕ × Bytes :=
  if op.opcodeRet = OP_CODESEPARATOR then
    (op.pc, b.2 ++ Bytes.substr s b.1 (op.pc - b.1 - 1)) else b

theorem foldl_writeRound (h : Parses s pc reads) {itBegin : ℕ} (hle : itBegin ≤ pc) (out : Bytes) :
    (reads.foldl (writeRound s) (itBegin, out)).2 ++
        s.drop (reads.foldl (writeRound s) (itBegin, out)).1 =
      out ++ (Bytes.substr s itBegin (pc - itBegin) ++ withoutSeparators s pc reads) := by
  induction h generalizing itBegin out with
  | done => rw [List.foldl_nil, substr_end, withoutSeparators, List.append_nil]
  | @op pc reads hpc hret hreads ih =>
    have hmove := (getOp2_progress hpc.le).2 hret
    rw [List.foldl_cons, writeRound, withoutSeparators]
    by_cases hop : (getOp2 s pc).opcodeRet = OP_CODESEPARATOR
    · have hnext := pc_of_separator hpc hret hop
      have hlength : (getOp2 s pc).pc - itBegin - 1 = pc - itBegin := by omega
      rw [if_pos hop, if_pos hop, ih le_rfl, Nat.sub_self, hlength, List.append_assoc]
      rfl
    · rw [if_neg hop, if_neg hop, ih (hle.trans hmove.le), ← List.append_assoc (Bytes.substr ..),
        substr_append_substr hle hmove.le]

theorem writeBetweenSeparators_eq (h : Parses s 0 reads) :
    writeBetweenSeparators s = some (withoutSeparators s 0 reads) := by
  have hfinish : ∀ b : ℕ × Bytes, (if b.1 ≠ s.length then
      b.2 ++ Bytes.substr s b.1 (s.length - b.1) else b.2) = b.2 ++ s.drop b.1 := by
    intro b
    by_cases hend : b.1 = s.length
    · rw [if_neg (not_not.2 hend), hend, List.drop_length, List.append_nil]
    · rw [if_pos hend, substr_end]
  have hfold := @foldl_writeRound s 0 reads h 0 le_rfl []
  rw [List.nil_append, Nat.sub_self] at hfold
  refine (overOps_of_parses (f := writeRound s) (fun b op => ?_) h _).trans (congrArg some ?_)
  · dsimp only [writeRound]
  · exact (hfinish _).trans hfold

/-- **What is written has no separators**, under its length. -/
theorem serializeScriptCode_eq (h : Parses s 0 reads) :
    serializeScriptCode s = some (bytesFormat.write (withoutSeparators s 0 reads)) := by
  have hlength := length_withoutSeparators h
  have hsize : s.length - separators reads = (withoutSeparators s 0 reads).length := by omega
  rw [serializeScriptCode, countCodeSeparators_eq h, writeBetweenSeparators_eq h]
  dsimp only [bind, Option.bind, pure]
  rw [hsize]
  rfl

/-! ### `FindAndDelete` -/

theorem copy_iff : ([OP_CODESEPARATOR].length ≤ s.length - pc ∧
    [OP_CODESEPARATOR].isPrefixOf (s.drop pc) = true) ↔
      pc < s.length ∧ Bytes.at s pc = OP_CODESEPARATOR := by
  have hlength : [OP_CODESEPARATOR].length = 1 := rfl
  refine ⟨fun ⟨hle, hprefix⟩ => ?_, fun ⟨hpc, hat⟩ => ?_⟩
  · have hpc : pc < s.length := by omega
    rw [drop_eq_at_cons hpc, List.isPrefixOf_cons_cons, Bool.and_eq_true, beq_iff_eq] at hprefix
    exact ⟨hpc, hprefix.1.symm⟩
  · refine ⟨by omega, ?_⟩
    rw [drop_eq_at_cons hpc, hat]
    rfl

/-- Where the reads go on once some separators are skipped: `n` of them are left out. -/
structure Skipped (s : CScript) (pc : ℕ) (reads : List OpRead) (pc' n : ℕ) (reads' : List OpRead) :
    Prop where
  le : pc ≤ pc'
  parses : Parses s pc' reads'
  count : n + separators reads' = separators reads
  bytes : withoutSeparators s pc' reads' = withoutSeparators s pc reads

theorem Skipped.step {pc' n : ℕ} {reads' : List OpRead} (h : Skipped s pc reads pc' n reads')
    (hpc : pc' < s.length) (hat : Bytes.at s pc' = OP_CODESEPARATOR) :
    ∃ reads'', Skipped s pc reads (pc' + 1) (n + 1) reads'' := by
  obtain ⟨hle, hparses, hcount, hbytes⟩ := h
  cases hparses with
  | done => exact absurd hpc (lt_irrefl _)
  | @op _ reads'' _ _ hreads =>
    rw [getOp2_separator hpc hat] at hreads hcount hbytes
    have hop : (decide (OP_CODESEPARATOR = OP_CODESEPARATOR)) = true := rfl
    rw [separators, List.countP_cons, if_pos hop] at hcount
    rw [withoutSeparators, if_pos rfl, List.nil_append] at hbytes
    refine ⟨reads'', by omega, hreads, ?_, hbytes⟩
    rw [separators]
    omega

theorem skipCopies_separators (h : Parses s pc reads) (nFound : ℕ) :
    ∃ pc' n reads', skipCopies s [OP_CODESEPARATOR] pc nFound = some (pc', nFound + n) ∧
      Skipped s pc reads pc' n reads' ∧ (pc' < s.length → Bytes.at s pc' ≠ OP_CODESEPARATOR) := by
  have hrun : ∃ c, skipCopies s [OP_CODESEPARATOR] pc nFound = some c ∧ ∃ n reads',
      c.2 = nFound + n ∧ Skipped s pc reads c.1 n reads' ∧
        (c.1 < s.length → Bytes.at s c.1 ≠ OP_CODESEPARATOR) := by
    refine Loop.run_total
      (I := fun c => ∃ n reads', c.2 = nFound + n ∧ Skipped s pc reads c.1 n reads')
      (m := fun c => s.length - c.1) ?_ ?_ ⟨0, reads, rfl, le_rfl, h, Nat.zero_add _, rfl⟩
      (Nat.lt_succ_of_le (Nat.sub_le _ _))
    · rintro ⟨pc', count⟩ c' ⟨n, reads', hcount, hskipped⟩ hstep
      dsimp only at hcount hskipped hstep ⊢
      split at hstep
      · rename_i hcopy
        obtain ⟨hpc, hat⟩ := copy_iff.1 hcopy
        obtain ⟨reads'', hnext⟩ := hskipped.step hpc hat
        cases hstep
        dsimp only [List.length_singleton]
        refine ⟨⟨n + 1, reads'', by omega, hnext⟩, ?_⟩
        have hlength : [OP_CODESEPARATOR].length = 1 := rfl
        omega
      · cases hstep
    · rintro ⟨pc', count⟩ c' ⟨n, reads', hcount, hskipped⟩ hstep
      dsimp only at hcount hskipped hstep
      split at hstep
      · cases hstep
      · rename_i hcopy
        cases hstep
        exact ⟨n, reads', hcount, hskipped, fun hpc hat => hcopy (copy_iff.2 ⟨hpc, hat⟩)⟩
  obtain ⟨⟨pc', count⟩, hr, n, reads', hcount, hskipped, hat⟩ := hrun
  dsimp only at hcount
  rw [hcount] at hr
  exact ⟨pc', n, reads', hr, hskipped, hat⟩

/-- What `FindAndDelete` has still to read, and what it has copied. -/
structure Deleting (s : CScript) (all : List OpRead) (d : DeleteState) (reads : List OpRead) :
    Prop where
  parses : Parses s d.pc reads
  le : d.pc2 ≤ d.pc
  count : d.nFound + separators reads = separators all
  bytes : d.result ++ (Bytes.substr s d.pc2 (d.pc - d.pc2) ++ withoutSeparators s d.pc reads) =
    withoutSeparators s 0 all

theorem Deleting.step {all : List OpRead} {d : DeleteState} (h : Parses s 0 all)
    (hd : Deleting s all d reads) :
    (∃ d' reads', deleteStep s [OP_CODESEPARATOR] d = .inl d' ∧ Deleting s all d' reads' ∧
      d.pc < d'.pc) ∨
    deleteStep s [OP_CODESEPARATOR] d =
      .inr (some (separators all, withoutSeparators s 0 all)) := by
  obtain ⟨pc', n, reads', hskip, ⟨hle, hparses, hcount, hbytes⟩, hat⟩ :=
    skipCopies_separators hd.parses d.nFound
  have hcounted := hd.count
  have hcopied := hd.bytes
  rw [← hbytes, ← List.append_assoc] at hcopied
  cases hparses with
  | done =>
    right
    have hend : (getOp2 s s.length).fRet = false := by
      rw [getOp2, if_pos le_rfl]
      rfl
    have hzero : separators [] = 0 := rfl
    have hfound : d.nFound + n = separators all := by omega
    rw [withoutSeparators, List.append_nil] at hcopied
    rw [deleteStep, hskip]
    dsimp only
    rw [hend, if_neg Bool.false_ne_true, hfound]
    by_cases hpos : 0 < separators all
    · rw [if_pos hpos, List.drop_length, List.append_nil, hcopied]
    · rw [if_neg hpos, withoutSeparators_eq_drop h (Nat.eq_zero_of_not_pos hpos)]
      rfl
  | @op _ reads'' hpc hret hreads =>
    left
    have hop : (getOp2 s pc').opcodeRet ≠ OP_CODESEPARATOR := by
      rw [opcodeRet_eq hret]
      exact hat hpc
    have hmove := (getOp2_progress hpc.le).2 hret
    rw [separators, List.countP_cons, if_neg (by rwa [decide_eq_true_eq])] at hcount
    rw [withoutSeparators, if_neg hop] at hcopied
    refine ⟨⟨(getOp2 s pc').pc, pc', d.result ++ Bytes.substr s d.pc2 (d.pc - d.pc2),
      d.nFound + n⟩, reads'', ?_, ⟨hreads, hmove.le, ?_, hcopied⟩, lt_of_le_of_lt hle hmove⟩
    · rw [deleteStep, hskip]
      dsimp only
      rw [if_pos hret]
    · rw [separators]
      dsimp only
      omega

/-- **`FindAndDelete` leaves out the same.** -/
theorem findAndDelete_separators (h : Parses s 0 reads) :
    findAndDeleteCount s [OP_CODESEPARATOR] =
      some (separators reads, withoutSeparators s 0 reads) := by
  have hrun : ∃ r, Loop.run (deleteStep s [OP_CODESEPARATOR]) (s.length + 1) ⟨0, 0, [], 0⟩ =
      some r ∧ r = some (separators reads, withoutSeparators s 0 reads) := by
    refine Loop.run_total (I := fun d => ∃ reads', Deleting s reads d reads')
      (m := fun d => s.length - d.pc) ?_ ?_ ⟨reads, h, le_rfl, Nat.zero_add _, rfl⟩
      (Nat.lt_succ_of_le (Nat.sub_le _ _))
    · rintro d d' ⟨reads', hd⟩ hstep
      obtain ⟨d'', reads'', hstep', hd'', hlt⟩ | hstep' := hd.step h
      · rw [hstep] at hstep'
        cases hstep'
        have hin := hd''.parses.le
        exact ⟨⟨reads'', hd''⟩, by omega⟩
      · rw [hstep] at hstep'
        cases hstep'
    · rintro d r ⟨reads', hd⟩ hstep
      obtain ⟨d'', reads'', hstep', -, -⟩ | hstep' := hd.step h
      · rw [hstep] at hstep'
        cases hstep'
      · rw [hstep] at hstep'
        cases hstep'
        rfl
  obtain ⟨r, hr, rfl⟩ := hrun
  have hempty : ¬[OP_CODESEPARATOR].isEmpty = true := nofun
  rw [findAndDeleteCount, if_neg hempty, hr]
  rfl

end CScript

namespace Wire

/-! ## The same bytes -/

section Equal

variable {txTo txTmp : CMutableTransaction} {scriptCode script : CScript} {nIn : ℕ}
  {nHashType : Int32}

theorem mapM_range {α β : Type*} {f : ℕ → Option β} {g : α → β} {l : List α}
    (h : ∀ i a, l[i]? = some a → f i = some (g a)) :
    (List.range l.length).mapM f = some (l.map g) := by
  induction l using List.reverseRecOn with
  | nil => rfl
  | append_singleton l a ih =>
    have hfront : (List.range l.length).mapM f = some (l.map g) := by
      refine ih fun i b hb => h i b ?_
      rw [List.getElem?_append_left (List.getElem?_eq_some_iff.1 hb).1]
      exact hb
    have hlast : f l.length = some (g a) := h _ _ List.getElem?_concat_length
    rw [List.length_append, List.length_singleton, List.range_succ, List.mapM_append, hfront,
      List.map_append, List.mapM_cons, List.mapM_nil, hlast]
    rfl

/-- An input as it is signed: all scripts but one are blank, and some sequences are zero. -/
def signedInput (nIn : ℕ) (script : CScript) (others : Prop) [Decidable others] (i : ℕ)
    (txin : CTxIn) : CTxIn :=
  { txin with
    scriptSig := if i = nIn then script else []
    nSequence := if i ≠ nIn ∧ others then 0 else txin.nSequence }

abbrev Others (nHashType : Int32) : Prop :=
  (nHashType &&& 0x1f == SIGHASH_SINGLE) = true ∨ (nHashType &&& 0x1f == SIGHASH_NONE) = true

theorem blank_eq (vin : List CTxIn) :
    (vin.map fun txin => { txin with scriptSig := [] }).modify nIn
        (fun txin => { txin with scriptSig := script }) =
      vin.mapIdx (signedInput nIn script False) := by
  refine List.ext_getElem? fun i => ?_
  rw [List.getElem?_modify, List.getElem?_map, List.getElem?_mapIdx]
  cases vin[i]? with
  | none => rfl
  | some txin =>
    by_cases hi : nIn = i
    · simp only [signedInput, hi, if_true, Option.map_some, and_false, if_false]
      rfl
    · simp only [signedInput, hi, Ne.symm hi, if_false, Option.map_some, and_false]
      rfl

theorem letOthersUpdate_eq (vin : List CTxIn) :
    letOthersUpdate nIn (vin.mapIdx (signedInput nIn script False)) =
      vin.mapIdx (signedInput nIn script True) := by
  rw [letOthersUpdate, List.mapIdx_mapIdx]
  refine congrArg (fun f => vin.mapIdx f) (funext fun i => funext fun txin => ?_)
  by_cases hi : i = nIn
  · simp only [Function.comp_apply, signedInput, hi, ne_eq, not_true, if_false, false_and]
  · simp only [Function.comp_apply, signedInput, hi, ne_eq, not_false_eq_true, if_true, and_self]

theorem pruneOutputs_some {vin : List CTxIn}
    (hvin : txTmp.vin = vin.mapIdx (signedInput nIn script False))
    {txTmp' : CMutableTransaction} (h : pruneOutputs txTmp nIn nHashType = some txTmp') :
    txTmp'.nVersion = txTmp.nVersion ∧ txTmp'.nLockTime = txTmp.nLockTime ∧
    txTmp'.vin = vin.mapIdx (signedInput nIn script (Others nHashType)) ∧
    (if nHashType &&& 0x1f == SIGHASH_NONE then txTmp'.vout = []
      else if nHashType &&& 0x1f == SIGHASH_SINGLE then nIn < txTmp.vout.length ∧
        txTmp'.vout = (txTmp.vout.take (nIn + 1)).mapIdx fun i txout =>
          if i < nIn then ⟨-1, []⟩ else txout
      else txTmp'.vout = txTmp.vout) := by
  have hothers : ∀ p : Prop, [Decidable p] → p →
      vin.mapIdx (signedInput nIn script True) = vin.mapIdx (signedInput nIn script p) := by
    intro p _ hp
    refine congrArg (fun f => vin.mapIdx f) (funext fun i => funext fun txin => ?_)
    simp only [signedInput, hp, and_true]
  rw [pruneOutputs] at h
  split at h
  · rename_i hnone
    cases h
    rw [if_pos (beq_iff_eq.2 hnone)]
    exact ⟨rfl, rfl, by rw [hvin, letOthersUpdate_eq,
      hothers (Others nHashType) (.inr (beq_iff_eq.2 hnone))], rfl⟩
  · rename_i hnone
    rw [if_neg fun h => hnone (beq_iff_eq.1 h)]
    split at h
    · rename_i hsingle
      rw [if_pos (beq_iff_eq.2 hsingle)]
      split at h
      · cases h
      · rename_i hin
        cases h
        refine ⟨rfl, rfl, ?_, Nat.lt_of_not_le hin, rfl⟩
        rw [hvin, letOthersUpdate_eq, hothers (Others nHashType) (.inl (beq_iff_eq.2 hsingle))]
    · rename_i hsingle
      cases h
      rw [if_neg fun h => hsingle (beq_iff_eq.1 h)]
      refine ⟨rfl, rfl, ?_, rfl⟩
      rw [hvin]
      refine congrArg (fun f => vin.mapIdx f) (funext fun i => funext fun txin => ?_)
      have hothers : ¬Others nHashType := by
        rw [Others, beq_iff_eq, beq_iff_eq]
        exact not_or.2 ⟨hsingle, hnone⟩
      simp only [signedInput, hothers, and_false]

theorem serializeInput_eq {t : CTransactionSignatureSerializer}
    (hcode : t.scriptCode.serializeScriptCode = some (bytesFormat.write script)) {i j : ℕ}
    {txin : CTxIn} (hj : (if t.fAnyoneCanPay then t.nIn else i) = j)
    (hin : t.txTo.vin[j]? = some txin) :
    t.serializeInput i =
      some (txInFormat.write (signedInput t.nIn script (t.fHashSingle ∨ t.fHashNone) j txin)) := by
  rw [CTransactionSignatureSerializer.serializeInput, hj]
  dsimp only
  rw [hin, hcode]
  dsimp only [bind, Option.bind, pure]
  by_cases hsigned : j = t.nIn
  · rw [if_neg (not_not.2 hsigned), if_neg fun h => h.1 hsigned, signedInput, if_pos hsigned,
      if_neg fun h => h.1 hsigned]
    rfl
  · rw [if_pos hsigned, signedInput, if_neg hsigned]
    by_cases hothers : t.fHashSingle = true ∨ t.fHashNone = true
    · rw [if_pos ⟨hsigned, hothers⟩, if_pos ⟨hsigned, hothers⟩]
      rfl
    · rw [if_neg fun h => hothers h.2, if_neg fun h => hothers h.2]
      rfl

theorem serializeOutput_eq {t : CTransactionSignatureSerializer} {i : ℕ} {txout : CTxOut}
    (hout : t.txTo.vout[i]? = some txout) :
    t.serializeOutput i = some (txOutFormat.write
      (if t.fHashSingle ∧ i ≠ t.nIn then ⟨-1, []⟩ else txout)) := by
  rw [CTransactionSignatureSerializer.serializeOutput, hout]
  split <;> rfl

theorem inputs_eq {t : CTransactionSignatureSerializer}
    (hcode : t.scriptCode.serializeScriptCode = some (bytesFormat.write script))
    (hIn : t.nIn < t.txTo.vin.length) {vin vin' : List CTxIn}
    (hsigned : vin = t.txTo.vin.mapIdx (signedInput t.nIn script (t.fHashSingle ∨ t.fHashNone)))
    (h : if t.fAnyoneCanPay then ∃ txin, vin[t.nIn]? = some txin ∧ vin' = (vin.set 0 txin).take 1
      else vin' = vin) :
    vin'.length = (if t.fAnyoneCanPay then 1 else t.txTo.vin.length) ∧
      (List.range vin'.length).mapM t.serializeInput = some (vin'.map txInFormat.write) := by
  by_cases hacp : t.fAnyoneCanPay = true
  · rw [if_pos hacp] at h ⊢
    obtain ⟨txin, htxin, rfl⟩ := h
    have hone : (vin.set 0 txin).take 1 = [txin] := by
      cases vin with
      | nil => cases htxin
      | cons first vin => rfl
    rw [hone]
    refine ⟨rfl, mapM_range fun i a ha => ?_⟩
    rw [hsigned, List.getElem?_mapIdx, List.getElem?_eq_getElem hIn, Option.map_some] at htxin
    cases htxin
    rw [serializeInput_eq hcode (if_pos hacp) (List.getElem?_eq_getElem hIn)]
    obtain ⟨hi, rfl⟩ := List.getElem?_eq_some_iff.1 ha
    rw [List.getElem_singleton]
  · rw [if_neg hacp] at h ⊢
    subst h hsigned
    refine ⟨List.length_mapIdx, mapM_range fun i a ha => ?_⟩
    rw [List.getElem?_mapIdx, Option.map_eq_some_iff] at ha
    obtain ⟨txin, hin, rfl⟩ := ha
    exact serializeInput_eq hcode (if_neg hacp) hin

theorem outputs_eq {t : CTransactionSignatureSerializer} {vout : List CTxOut}
    (h : if t.fHashNone then vout = []
      else if t.fHashSingle then t.nIn < t.txTo.vout.length ∧
        vout = (t.txTo.vout.take (t.nIn + 1)).mapIdx fun i txout =>
          if i < t.nIn then ⟨-1, []⟩ else txout
      else vout = t.txTo.vout) :
    vout.length = (if t.fHashNone then 0 else if t.fHashSingle then t.nIn + 1
        else t.txTo.vout.length) ∧ vout.length ≤ t.txTo.vout.length ∧
      (List.range vout.length).mapM t.serializeOutput = some (vout.map txOutFormat.write) := by
  by_cases hnone : t.fHashNone = true
  · rw [if_pos hnone] at h ⊢
    subst h
    exact ⟨rfl, Nat.zero_le _, rfl⟩
  · rw [if_neg hnone] at h ⊢
    by_cases hsingle : t.fHashSingle = true
    · rw [if_pos hsingle] at h ⊢
      obtain ⟨hin, rfl⟩ := h
      have hlength : ((t.txTo.vout.take (t.nIn + 1)).mapIdx fun i txout =>
          if i < t.nIn then (⟨-1, []⟩ : CTxOut) else txout).length = t.nIn + 1 := by
        rw [List.length_mapIdx, List.length_take]
        exact Nat.min_eq_left hin
      refine ⟨hlength, by omega, mapM_range fun i a ha => ?_⟩
      rw [List.getElem?_mapIdx, Option.map_eq_some_iff] at ha
      obtain ⟨txout, hout, rfl⟩ := ha
      rw [List.getElem?_take] at hout
      split at hout
      · rename_i hi
        rw [serializeOutput_eq hout]
        have hblank : t.fHashSingle = true ∧ i ≠ t.nIn ↔ i < t.nIn :=
          ⟨fun h => by omega, fun h => ⟨hsingle, by omega⟩⟩
        simp only [hblank]
      · cases hout
    · rw [if_neg hsingle] at h ⊢
      subst h
      refine ⟨rfl, le_rfl, mapM_range fun i a ha => ?_⟩
      rw [serializeOutput_eq ha, if_neg fun h => hsingle h.1]

/-- **The same bytes.** -/
theorem serialize_eq (hcode : scriptCode.serializeScriptCode = some (bytesFormat.write script))
    (hvin : txTo.vin.length < 2 ^ 32) (hvout : txTo.vout.length < 2 ^ 32)
    (hIn : nIn < txTo.vin.length) (h : txTmpOld script txTo nIn nHashType = some txTmp) :
    (CTransactionSignatureSerializer.new txTo scriptCode nIn nHashType).serialize =
      some (serializeTransaction false txTmp) := by
  obtain ⟨pruned, hpruned, h⟩ := Option.bind_eq_some_iff.1 h
  obtain ⟨hversion, hlock, hsigned, hout⟩ := pruneOutputs_some (blank_eq txTo.vin) hpruned
  have hfields : txTmp.nVersion = txTo.nVersion ∧ txTmp.nLockTime = txTo.nLockTime ∧
      txTmp.vout = pruned.vout ∧
      if nHashType &&& SIGHASH_ANYONECANPAY != 0 then
        ∃ txin, pruned.vin[nIn]? = some txin ∧ txTmp.vin = (pruned.vin.set 0 txin).take 1
      else txTmp.vin = pruned.vin := by
    split at h
    · rename_i hacp
      obtain ⟨txin, htxin, h⟩ := Option.bind_eq_some_iff.1 h
      cases h
      rw [if_pos hacp]
      exact ⟨hversion, hlock, rfl, txin, htxin, rfl⟩
    · rename_i hacp
      cases h
      rw [if_neg hacp]
      exact ⟨hversion, hlock, rfl, rfl⟩
  obtain ⟨hversion', hlock', hvout', hvin'⟩ := hfields
  rw [← hvout'] at hout
  have hin := inputs_eq (t := .new txTo scriptCode nIn nHashType) hcode hIn hsigned hvin'
  have houts := outputs_eq (t := .new txTo scriptCode nIn nHashType) hout
  revert hin houts
  generalize ht : CTransactionSignatureSerializer.new txTo scriptCode nIn nHashType = t
  rintro ⟨hinLength, hinputs⟩ ⟨houtLength, houtLe, houtputs⟩
  obtain rfl : t.txTo = txTo := by rw [← ht]; rfl
  -- no number of inputs or outputs is too large for an `unsigned int`
  have hnInputs : (if t.fAnyoneCanPay then 1 else t.txTo.vin.length % 2 ^ 32) =
      txTmp.vin.length := by
    rw [Nat.mod_eq_of_lt hvin, hinLength]
  have hnOutputs : (if t.fHashNone then 0 else if t.fHashSingle then (t.nIn + 1) % 2 ^ 32
      else t.txTo.vout.length % 2 ^ 32) = txTmp.vout.length := by
    rw [Nat.mod_eq_of_lt hvout, houtLength]
    split
    · rfl
    · split
      · rename_i hnone hsingle
        rw [if_neg hnone, if_pos hsingle] at houtLength
        exact Nat.mod_eq_of_lt (by omega)
      · rfl
  rw [CTransactionSignatureSerializer.serialize, hnInputs, hnOutputs, hinputs]
  dsimp only
  rw [houtputs, serializeTransaction_basic (Bool.false_and _), hversion', hlock']
  rfl

theorem txTmpOld_eq_none (hIn : nIn < txTo.vin.length) :
    txTmpOld script txTo nIn nHashType = none ↔
      nHashType &&& 0x1f = SIGHASH_SINGLE ∧ txTo.vout.length ≤ nIn := by
  have hprune : pruneOutputs { txTo with
      vin := (txTo.vin.map fun txin => { txin with scriptSig := [] }).modify nIn
        fun txin => { txin with scriptSig := script } } nIn nHashType = none ↔
      nHashType &&& 0x1f = SIGHASH_SINGLE ∧ txTo.vout.length ≤ nIn := by
    rw [pruneOutputs]
    split
    · rename_i hnone
      refine ⟨nofun, fun ⟨hsingle, _⟩ => ?_⟩
      rw [hnone] at hsingle
      exact absurd hsingle (by decide)
    · split
      · rename_i hsingle
        split
        · rename_i hout
          exact ⟨fun _ => ⟨hsingle, hout⟩, fun _ => rfl⟩
        · rename_i hout
          exact ⟨nofun, fun h => absurd h.2 hout⟩
      · rename_i hsingle
        exact ⟨nofun, fun h => absurd h.1 hsingle⟩
  rw [← hprune, txTmpOld]
  cases hpruned : pruneOutputs { txTo with
      vin := (txTo.vin.map fun txin => { txin with scriptSig := [] }).modify nIn
        fun txin => { txin with scriptSig := script } } nIn nHashType with
  | none => exact ⟨fun _ => rfl, fun _ => rfl⟩
  | some pruned =>
    obtain ⟨-, -, hvin, -⟩ := pruneOutputs_some (blank_eq txTo.vin) hpruned
    have hin : nIn < pruned.vin.length := by
      rw [hvin, List.length_mapIdx]
      exact hIn
    refine ⟨fun h => ?_, nofun⟩
    dsimp only [bind, Option.bind] at h
    rw [List.getElem?_eq_getElem hin] at h
    split at h <;> cases h

/-- **`SignatureHash` is `SignatureHashOld`**: for every hash type, the serializer writes the bytes
of the copy, which is the transaction with the scripts but one blank, its outputs pruned and its
sequences set to zero, and without any `OP_CODESEPARATOR` in the script. -/
theorem signatureHash_eq_old (hash : Bytes → arith_uint256) {ops : List (UInt8 × Bytes)}
    (hparse : scriptCode.readOps = some (ops, true)) (hvin : txTo.vin.length < 2 ^ 32)
    (hvout : txTo.vout.length < 2 ^ 32) (hIn : nIn < txTo.vin.length) (nHashType : Int32)
    (amount : CAmount) (cache : Option PrecomputedTransactionData) :
    ∃ nFound script, scriptCode.findAndDeleteCount [OP_CODESEPARATOR] = some (nFound, script) ∧
      (∀ txTmp, txTmpOld script txTo nIn nHashType = some txTmp →
        (CTransactionSignatureSerializer.new txTo scriptCode nIn nHashType).serialize =
          some (serializeTransaction false txTmp)) ∧
      ∃ h, signatureHash hash scriptCode txTo nIn nHashType amount .SIGVERSION_BASE cache = some h ∧
        signatureHashOld hash scriptCode txTo nIn nHashType = some h := by
  obtain ⟨reads, hreads⟩ := CScript.parses_of_readOps hparse
  have hcode := CScript.serializeScriptCode_eq hreads
  have hdelete := CScript.findAndDelete_separators hreads
  have hbytes : ∀ txTmp, txTmpOld (scriptCode.withoutSeparators 0 reads) txTo nIn nHashType =
      some txTmp → (CTransactionSignatureSerializer.new txTo scriptCode nIn nHashType).serialize =
        some (serializeTransaction false txTmp) :=
    fun txTmp htxTmp => serialize_eq hcode hvin hvout hIn htxTmp
  refine ⟨_, _, hdelete, hbytes, ?_⟩
  have hbase : ¬SigVersion.SIGVERSION_BASE = .SIGVERSION_WITNESS_V0 := nofun
  rw [signatureHash, if_neg (Nat.not_le.2 hIn), if_neg hbase, signatureHashOld,
    if_neg (Nat.not_le.2 hIn), hdelete]
  dsimp only [bind, Option.bind]
  cases htxTmp : txTmpOld (scriptCode.withoutSeparators 0 reads) txTo nIn nHashType with
  | none =>
    rw [if_pos ((txTmpOld_eq_none hIn).1 htxTmp)]
    exact ⟨1, rfl, rfl⟩
  | some txTmp =>
    have hin : ¬(nHashType &&& 0x1f = SIGHASH_SINGLE ∧ txTo.vout.length ≤ nIn) := by
      rw [← txTmpOld_eq_none hIn, htxTmp]
      nofun
    rw [if_neg hin, hbytes txTmp htxTmp]
    exact ⟨_, rfl, rfl⟩

/-- Two inputs, one of which is signed for one output under a script with a separator and an
asset. -/
theorem signatureHash_asset :
    signatureHash (fun bytes => BitVec.ofNat 256 (readLE bytes))
        [OP_DUP, OP_CODESEPARATOR, OP_CHECKSIG, OP_UNEMP_ASSET, OP_CODESEPARATOR, 0x4e]
        ⟨2, [⟨⟨7, 1⟩, [], 5, []⟩, ⟨⟨8, 0⟩, [0x51], 6, []⟩], [⟨1, [0x51]⟩, ⟨2, []⟩], 9⟩ 1
        (SIGHASH_SINGLE ||| SIGHASH_ANYONECANPAY) 0 .SIGVERSION_BASE none =
      signatureHashOld (fun bytes => BitVec.ofNat 256 (readLE bytes))
        [OP_DUP, OP_CODESEPARATOR, OP_CHECKSIG, OP_UNEMP_ASSET, OP_CODESEPARATOR, 0x4e]
        ⟨2, [⟨⟨7, 1⟩, [], 5, []⟩, ⟨⟨8, 0⟩, [0x51], 6, []⟩], [⟨1, [0x51]⟩, ⟨2, []⟩], 9⟩ 1
        (SIGHASH_SINGLE ||| SIGHASH_ANYONECANPAY) := by
  have hparse : CScript.readOps
      [OP_DUP, OP_CODESEPARATOR, OP_CHECKSIG, OP_UNEMP_ASSET, OP_CODESEPARATOR, 0x4e] =
        some ([(OP_DUP, []), (OP_CODESEPARATOR, []), (OP_CHECKSIG, []),
          (OP_UNEMP_ASSET, [OP_CODESEPARATOR, 0x4e])], true) := rfl
  obtain ⟨_, _, -, -, h, hnew, hold⟩ := @signatureHash_eq_old
    ⟨2, [⟨⟨7, 1⟩, [], 5, []⟩, ⟨⟨8, 0⟩, [0x51], 6, []⟩], [⟨1, [0x51]⟩, ⟨2, []⟩], 9⟩ _ 1
    (fun bytes => BitVec.ofNat 256 (readLE bytes)) _ hparse (show 2 < 2 ^ 32 by decide)
    (show 2 < 2 ^ 32 by decide) (show 1 < 2 by decide) (SIGHASH_SINGLE ||| SIGHASH_ANYONECANPAY) 0
    none
  rw [hnew, hold]

end Equal


end Wire

end UnemployCoin
