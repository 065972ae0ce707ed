import UnemployCoin.Interpreter
import UnemployCoin.CoinbaseHeight
import UnemployCoin.Serialization
import UnemployCoin.Lib.Loop
/-!
# Reading a script operation by operation

`CScript::GetOp2` (`script/script.h`) with its cursor, which moves on also when the read fails, and
the loops over it: `GetSigOpCount`, `IsPushOnly`, `HasValidOps` (`script/script.cpp`), `Find`,
`FindAndDelete`, and `SerializeScriptCode` (`script/interpreter.cpp`).

An opcode from `OP_PUSHDATA1` to `OP_PUSHDATA4`, appended as an opcode, takes what follows for its
data, so that the first of these holds **without the opcodes of pushes** only.
-/

namespace UnemployCoin

def OP_INVALIDOPCODE : UInt8 := 0xff
def MAX_OPCODE : UInt8 := OP_NOP10

/-- What `GetOp2` returns and writes: the cursor it leaves, the opcode and its data. -/
structure OpRead where
  fRet : Bool
  pc : ℕ
  opcodeRet : UInt8
  vchRet : Bytes
  deriving DecidableEq, Repr

namespace CScript

/-- A read that fails, with the cursor at `pc`. -/
def failedAt (pc : ℕ) : OpRead := ⟨false, pc, OP_INVALIDOPCODE, []⟩

/-- The number of bytes that hold the length of what an opcode pushes. -/
def lengthBytes (opcode : UInt8) : ℕ :=
  if opcode < OP_PUSHDATA1 then 0
  else if opcode = OP_PUSHDATA1 then 1
  else if opcode = OP_PUSHDATA2 then 2
  else 4

def pushLength (opcode : UInt8) (rest : Bytes) : ℕ :=
  if opcode < OP_PUSHDATA1 then opcode.toNat else readLE (rest.take (lengthBytes opcode))

/-- `CScript::GetOp2`.  The number of bytes to the end is an `unsigned int`. -/
def getOp2 (s : CScript) (pc : ℕ) : OpRead :=
  if s.length ≤ pc then failedAt pc
  else
    let opcode := Bytes.at s pc
    let pc := pc + 1
    if opcode ≤ OP_PUSHDATA4 then
      if s.length - pc < lengthBytes opcode then failedAt pc
      else
        let nSize := pushLength opcode (s.drop pc)
        let pc := pc + lengthBytes opcode
        if (s.length - pc) % 2 ^ 32 < nSize then failedAt pc
        else ⟨true, pc + nSize, opcode, Bytes.substr s pc nSize⟩
    else if opcode = OP_UNEMP_ASSET then
      let nSize := (s.length - pc) % 2 ^ 32
      ⟨true, pc + nSize, opcode, Bytes.substr s pc nSize⟩
    else ⟨true, pc, opcode, []⟩

/-! ## The loops -/

section Loops

variable {β ρ : Type*}

/-- A round of `while (pc < end()) { if (!GetOp(pc, ..)) ..; .. }`, over the variables `b` of the
loop. -/
def opsStep (s : CScript) (body : β → OpRead → β ⊕ ρ) (atEnd : β → ρ) (onFail : β → OpRead → ρ) :
    ℕ × β → (ℕ × β) ⊕ ρ
  | (pc, b) =>
    if s.length ≤ pc then .inr (atEnd b)
    else
      let op := getOp2 s pc
      if op.fRet then (body b op).map (fun b => (op.pc, b)) id else .inr (onFail b op)

/-- The loop, from `pc` on. -/
def overOps (s : CScript) (body : β → OpRead → β ⊕ ρ) (atEnd : β → ρ) (onFail : β → OpRead → ρ)
    (pc : ℕ) (b : β) : Option ρ :=
  Loop.run (opsStep s body atEnd onFail) (s.length + 1) (pc, b)

end Loops

/-- A round of repeated `GetOp`, over the operations that were read. -/
def readStep (s : CScript) : ℕ × List (UInt8 × Bytes) →
    (ℕ × List (UInt8 × Bytes)) ⊕ (List (UInt8 × Bytes) × Bool) :=
  opsStep s (fun ops op => .inl (ops ++ [(op.opcodeRet, op.vchRet)])) (fun ops => (ops, true))
    (fun ops _ => (ops, false))

/-- Repeated `GetOp`: the operations with their data, and whether the end was reached. -/
def readOps (s : CScript) : Option (List (UInt8 × Bytes) × Bool) :=
  Loop.run (readStep s) (s.length + 1) (0, [])

def decodeOP_N (opcode : UInt8) : ℕ :=
  if opcode = OP_0 then 0 else (opcode - (OP_1 - 1)).toNat

/-- `CScript::GetSigOpCount(bool)`. -/
def getSigOpCount (s : CScript) (fAccurate : Bool) : Option UInt32 :=
  overOps s (fun (n, lastOpcode) op =>
    let opcode := op.opcodeRet
    let n :=
      if opcode = OP_CHECKSIG ∨ opcode = OP_CHECKSIGVERIFY then n + 1
      else if opcode = OP_CHECKMULTISIG ∨ opcode = OP_CHECKMULTISIGVERIFY then
        if fAccurate ∧ OP_1 ≤ lastOpcode ∧ lastOpcode ≤ OP_16 then
          n + UInt32.ofNat (decodeOP_N lastOpcode)
        else n + UInt32.ofNat MAX_PUBKEYS_PER_MULTISIG
      else n
    .inl (n, opcode))
    Prod.fst (fun b _ => b.1) 0 (0, OP_INVALIDOPCODE)

/-- The data of the last push of `scriptSig`, as `GetSigOpCount` looks for it. -/
def lastPush (scriptSig : CScript) : Option (Option Bytes) :=
  overOps scriptSig (fun _ op =>
    if OP_16 < op.opcodeRet then .inr none else .inl op.vchRet)
    some (fun _ _ => none) 0 []

/-- `CScript::GetSigOpCount(const CScript&)`. -/
def getSigOpCountP2SH (s scriptSig : CScript) : Option UInt32 :=
  if !isPayToScriptHash s then getSigOpCount s true
  else do
    match ← lastPush scriptSig with
    | none => some 0
    | some vData => getSigOpCount vData true

/-- `CScript::IsPushOnly(const_iterator)`. -/
def isPushOnlyFrom (s : CScript) (pc : ℕ) : Option Bool :=
  overOps s (fun _ op => if OP_16 < op.opcodeRet then .inr false else .inl ())
    (fun _ => true) (fun _ _ => false) pc ()

def hasValidOps (s : CScript) : Option Bool :=
  overOps s (fun _ op =>
    if MAX_OPCODE < op.opcodeRet ∨ MAX_SCRIPT_ELEMENT_SIZE < op.vchRet.length then .inr false
    else .inl ())
    (fun _ => true) (fun _ _ => false) 0 ()

/-- `CScript::Find`. -/
def findCount (s : CScript) (op : UInt8) : Option ℕ :=
  overOps s (fun nFound read => .inl (if read.opcodeRet = op then nFound + 1 else nFound))
    id (fun nFound _ => nFound) 0 0

/-- The inner loop of `FindAndDelete`: the cursor behind the copies of `b`, and their number. -/
def skipCopies (s b : CScript) (pc nFound : ℕ) : Option (ℕ × ℕ) :=
  Loop.run (fun (pc, nFound) =>
    if b.length ≤ s.length - pc ∧ b.isPrefixOf (s.drop pc) then
      .inl (pc + b.length, nFound + 1)
    else .inr (pc, nFound))
    (s.length + 1) (pc, nFound)

/-- The variables of `FindAndDelete`. -/
structure DeleteState where
  pc : ℕ
  pc2 : ℕ
  result : CScript
  nFound : ℕ

/-- A round of `FindAndDelete`. -/
def deleteStep (s b : CScript) (d : DeleteState) : DeleteState ⊕ Option (ℕ × CScript) :=
  let result := d.result ++ Bytes.substr s d.pc2 (d.pc - d.pc2)
  match skipCopies s b d.pc d.nFound with
  | none => .inr none
  | some (pc2, nFound) =>
    let op := getOp2 s pc2
    if op.fRet then .inl ⟨op.pc, pc2, result, nFound⟩
    else .inr (some (nFound, if 0 < nFound then result ++ s.drop pc2 else s))

/-- `CScript::FindAndDelete`: the number of copies of `b`, and what the script is then. -/
def findAndDeleteCount (s b : CScript) : Option (ℕ × CScript) :=
  if b.isEmpty then some (0, s)
  else (Loop.run (deleteStep s b) (s.length + 1) ⟨0, 0, [], 0⟩).join

/-- The first loop of `SerializeScriptCode`. -/
def countCodeSeparators (scriptCode : CScript) : Option ℕ :=
  overOps scriptCode (fun n op => .inl (if op.opcodeRet = OP_CODESEPARATOR then n + 1 else n))
    id (fun n _ => n) 0 0

/-- The second loop of `SerializeScriptCode`, over `itBegin` and what is written. -/
def writeBetweenSeparators (scriptCode : CScript) : Option Bytes :=
  let finish := fun (itBegin, out) (it : ℕ) =>
    if itBegin ≠ scriptCode.length then out ++ Bytes.substr scriptCode itBegin (it - itBegin)
    else out
  overOps scriptCode (fun (itBegin, out) op =>
    .inl (if op.opcodeRet = OP_CODESEPARATOR then
      (op.pc, out ++ Bytes.substr scriptCode itBegin (op.pc - itBegin - 1)) else (itBegin, out)))
    (fun b => finish b scriptCode.length) (fun b op => finish b op.pc) 0 (0, [])

def serializeScriptCode (scriptCode : CScript) : Option Bytes := do
  let nCodeSeparators ← countCodeSeparators scriptCode
  let out ← writeBetweenSeparators scriptCode
  return writeCompactSize (scriptCode.length - nCodeSeparators) ++ out

variable {s b : CScript} {pc : ℕ} {opcode : UInt8} {rest : CScript}

/-- **A read that succeeds moves the cursor**, and no read moves it beyond the end. -/
theorem getOp2_progress (hpc : pc ≤ s.length) :
    (getOp2 s pc).pc ≤ s.length ∧ ((getOp2 s pc).fRet = true → pc < (getOp2 s pc).pc) := by
  rw [getOp2]
  split
  · exact ⟨hpc, nofun⟩
  · rename_i hin
    dsimp only
    split
    · split
      · exact ⟨by dsimp only [failedAt]; omega, nofun⟩
      · rename_i hfield
        split
        · exact ⟨by dsimp only [failedAt]; omega, nofun⟩
        · rename_i hsize
          have hmod := Nat.mod_le (s.length - (pc + 1 + lengthBytes (Bytes.at s pc))) (2 ^ 32)
          exact ⟨by dsimp only; omega, fun _ => by dsimp only; omega⟩
    · split
      · have hmod := Nat.mod_le (s.length - (pc + 1)) (2 ^ 32)
        exact ⟨by dsimp only; omega, fun _ => by dsimp only; omega⟩
      · exact ⟨by dsimp only; omega, fun _ => Nat.lt_succ_self pc⟩

theorem pushSize_eq : pushSize opcode rest =
    if rest.length < lengthBytes opcode then none
    else some (lengthBytes opcode, pushLength opcode rest) := by
  rw [pushSize, pushLength, lengthBytes]
  by_cases hshort : opcode < OP_PUSHDATA1
  · simp [hshort]
  · rw [if_neg hshort, if_neg hshort, if_neg hshort]
    by_cases hone : opcode = OP_PUSHDATA1
    · rw [if_pos hone, if_pos hone]
    · rw [if_neg hone, if_neg hone]
      by_cases htwo : opcode = OP_PUSHDATA2
      · rw [if_pos htwo, if_pos htwo]
      · rw [if_neg htwo, if_neg htwo]

/-- **With the cursor, or on what is left of the script**, it is the same read. -/
theorem getOp_drop (hs : s.length < 2 ^ 32) :
    getOp (s.drop pc) = if (getOp2 s pc).fRet then
      some ((getOp2 s pc).opcodeRet, (getOp2 s pc).vchRet, s.drop (getOp2 s pc).pc) else none := by
  rw [getOp2]
  by_cases hend : s.length ≤ pc
  · rw [if_pos hend, List.drop_eq_nil_of_le hend]
    rfl
  · have hlt : pc < s.length := by omega
    have hat : Bytes.at s pc = s[pc] := by
      rw [Bytes.at, List.getD_eq_getElem?_getD, List.getElem?_eq_getElem hlt, Option.getD_some]
    rw [if_neg hend, List.drop_eq_getElem_cons hlt, getOp, ← hat]
    dsimp only
    by_cases hpush : Bytes.at s pc ≤ OP_PUSHDATA4
    · rw [if_pos hpush, if_pos hpush, pushSize_eq, List.length_drop]
      by_cases hfield : s.length - (pc + 1) < lengthBytes (Bytes.at s pc)
      · rw [if_pos hfield, if_pos hfield]
        rfl
      · rw [if_neg hfield, if_neg hfield]
        dsimp only
        have hmod : (s.length - (pc + 1 + lengthBytes (Bytes.at s pc))) % 2 ^ 32 =
            s.length - (pc + 1 + lengthBytes (Bytes.at s pc)) := Nat.mod_eq_of_lt (by omega)
        rw [hmod, List.drop_drop, List.length_drop]
        split
        · rfl
        · rw [if_pos rfl, Bytes.substr, List.drop_drop]
    · rw [if_neg hpush, if_neg hpush]
      by_cases hasset : Bytes.at s pc = OP_UNEMP_ASSET
      · have hmod : (s.length - (pc + 1)) % 2 ^ 32 = s.length - (pc + 1) :=
          Nat.mod_eq_of_lt (by omega)
        have hrest : s.drop (pc + 1 + (s.length - (pc + 1))) = [] :=
          List.drop_eq_nil_of_le (by omega)
        rw [if_pos hasset, if_pos hasset, if_pos rfl, hmod, Bytes.substr, hrest,
          List.take_of_length_le (by rw [List.length_drop])]
      · rw [if_neg hasset, if_neg hasset, if_pos rfl]

/-! ## The loops end -/

theorem overOps_isSome {β ρ : Type*} {body : β → OpRead → β ⊕ ρ} {atEnd : β → ρ}
    {onFail : β → OpRead → ρ} {c : β} (hpc : pc ≤ s.length) :
    (overOps s body atEnd onFail pc c).isSome := by
  refine Loop.run_isSome (I := fun c => c.1 ≤ s.length) (m := fun c => s.length - c.1)
    ?_ hpc (by dsimp only; omega)
  rintro ⟨pc, c⟩ c' hpc hstep
  dsimp only [opsStep] at hpc hstep ⊢
  obtain ⟨hle, hlt⟩ := getOp2_progress hpc
  split at hstep
  · cases hstep
  · split at hstep
    · rename_i hend hret
      have hmove := hlt hret
      cases hbody : body c (getOp2 s pc) with
      | inl c =>
        rw [hbody] at hstep
        cases hstep
        exact ⟨hle, by dsimp only; omega⟩
      | inr r =>
        rw [hbody] at hstep
        cases hstep
    · cases hstep

theorem getSigOpCount_isSome (fAccurate : Bool) : (getSigOpCount s fAccurate).isSome :=
  overOps_isSome (Nat.zero_le _)

theorem getSigOpCountP2SH_isSome (scriptSig : CScript) :
    (getSigOpCountP2SH s scriptSig).isSome := by
  rw [getSigOpCountP2SH]
  split
  · exact getSigOpCount_isSome true
  · have hlast : (lastPush scriptSig).isSome := overOps_isSome (Nat.zero_le _)
    obtain ⟨vData, hv⟩ := Option.isSome_iff_exists.1 hlast
    rw [hv]
    cases vData with
    | none => rfl
    | some vData => exact getSigOpCount_isSome true

theorem skipCopies_spec (hb : b.isEmpty = false) (hpc : pc ≤ s.length) (nFound : ℕ) :
    ∃ r, skipCopies s b pc nFound = some r ∧ pc ≤ r.1 ∧ r.1 ≤ s.length := by
  have hpos : 0 < b.length := by
    cases b with
    | nil => cases hb
    | cons x b => exact Nat.succ_pos _
  refine Loop.run_total (I := fun c => pc ≤ c.1 ∧ c.1 ≤ s.length)
    (m := fun c => s.length - c.1) ?_ ?_ ⟨le_rfl, hpc⟩ (by dsimp only; omega)
  · rintro ⟨pc', n⟩ c' ⟨hle, hend⟩ hstep
    dsimp only at hle hend hstep ⊢
    split at hstep
    · rename_i hcopy
      cases hstep
      dsimp only
      omega
    · cases hstep
  · rintro ⟨pc', n⟩ r hin hstep
    dsimp only at hstep
    split at hstep
    · cases hstep
    · cases hstep
      exact hin

theorem findAndDeleteCount_isSome : (findAndDeleteCount s b).isSome := by
  rw [findAndDeleteCount]
  cases hb : b.isEmpty with
  | true => rfl
  | false =>
    rw [if_neg Bool.false_ne_true]
    have hrun : ∃ r, Loop.run (deleteStep s b) (s.length + 1) ⟨0, 0, [], 0⟩ = some r ∧
        r.isSome := by
      refine Loop.run_total (I := fun d => d.pc ≤ s.length) (m := fun d => s.length - d.pc)
        ?_ ?_ (Nat.zero_le _) (by dsimp only; omega)
      · intro d d' hd hstep
        obtain ⟨⟨pc2, n⟩, hskip, hle, hend⟩ := skipCopies_spec hb hd d.nFound
        rw [deleteStep, hskip] at hstep
        dsimp only at hstep hle hend
        obtain ⟨hin, hlt⟩ := getOp2_progress hend
        split at hstep
        · rename_i hret
          have hmove := hlt hret
          cases hstep
          dsimp only
          omega
        · cases hstep
      · intro d r hd hstep
        obtain ⟨⟨pc2, n⟩, hskip, -, -⟩ := skipCopies_spec hb hd d.nFound
        rw [deleteStep, hskip] at hstep
        dsimp only at hstep
        split at hstep
        · cases hstep
        · cases hstep
          rfl
    obtain ⟨r, hr, hsome⟩ := hrun
    rw [hr]
    exact hsome

theorem serializeScriptCode_isSome : (serializeScriptCode s).isSome := by
  have hcount : (countCodeSeparators s).isSome := overOps_isSome (Nat.zero_le _)
  have hwrite : (writeBetweenSeparators s).isSome := by
    unfold writeBetweenSeparators
    exact overOps_isSome (Nat.zero_le _)
  obtain ⟨n, hn⟩ := Option.isSome_iff_exists.1 hcount
  obtain ⟨out, hout⟩ := Option.isSome_iff_exists.1 hwrite
  rw [serializeScriptCode, hn, hout]
  rfl

end CScript

/-! ## What is appended is what is read -/

/-- What `operator<<` appends to a script. -/
inductive ScriptItem where
  | data (b : Bytes)
  | num (n : ℤ)
  | opcode (op : UInt8)
  deriving DecidableEq, Repr

/-- The opcode that pushes `b`. -/
def pushOpcode (b : Bytes) : UInt8 :=
  if b.length < OP_PUSHDATA1.toNat then UInt8.ofNat b.length
  else if b.length ≤ 0xff then OP_PUSHDATA1
  else if b.length ≤ 0xffff then OP_PUSHDATA2
  else OP_PUSHDATA4

namespace ScriptItem

def bytes : ScriptItem → CScript
  | data b => CScript.pushData b
  | num n => pushInt64 n
  | opcode op => [op]

/-- What `GetOp` is to read of it. -/
def read : ScriptItem → UInt8 × Bytes
  | data b => (pushOpcode b, b)
  | num n =>
    if n = -1 ∨ (1 ≤ n ∧ n ≤ 16) then (UInt8.ofInt (n + (OP_1.toNat - 1)), [])
    else if n = 0 then (OP_0, [])
    else (pushOpcode (serializeScriptNum n), serializeScriptNum n)
  | opcode op => (op, [])

/-- It is not an opcode that takes what follows for its data. -/
def Plain : ScriptItem → Prop
  | opcode op => op ≠ OP_UNEMP_ASSET ∧ (op = OP_0 ∨ OP_PUSHDATA4 < op)
  | _ => True

end ScriptItem

/-- `CScript() << .. << ..`. -/
def built (items : List ScriptItem) : CScript :=
  items.foldl (fun s item => s ++ item.bytes) []

namespace CScript

variable {s rest : CScript} {data field : Bytes} {op : UInt8} {item : ScriptItem}
  {items : List ScriptItem}

theorem getOp_push_field (hop : op ≤ OP_PUSHDATA4) (hfield : field.length = lengthBytes op)
    (hlength : pushLength op (field ++ (data ++ rest)) = data.length) :
    getOp (op :: (field ++ (data ++ rest))) = some (op, data, rest) := by
  have hlong : ¬(field ++ (data ++ rest)).length < lengthBytes op := by
    rw [List.length_append]
    omega
  have hbody : ¬(data ++ rest).length < data.length := by
    rw [List.length_append]
    omega
  rw [getOp, if_pos hop, pushSize_eq, if_neg hlong]
  dsimp only
  rw [hlength, ← hfield, List.drop_left, if_neg hbody, List.take_left, List.drop_left]

theorem getOp_pushData (hdata : data.length < 2 ^ 32) :
    getOp (pushData data ++ rest) = some (pushOpcode data, data, rest) := by
  rw [pushData, pushOpcode]
  by_cases hshort : data.length < OP_PUSHDATA1.toNat
  · have hone : OP_PUSHDATA1.toNat = 0x4c := rfl
    have hnat : (UInt8.ofNat data.length).toNat = data.length := by
      rw [UInt8.toNat_ofNat']
      omega
    have hlt : UInt8.ofNat data.length < OP_PUSHDATA1 := by
      rw [UInt8.lt_iff_toNat_lt, hnat]
      exact hshort
    rw [if_pos hshort, if_pos hshort]
    refine @getOp_push_field rest data [] _ (UInt8.le_trans (UInt8.le_of_lt hlt) (by decide)) ?_ ?_
    · rw [lengthBytes, if_pos hlt, List.length_nil]
    · rw [pushLength, if_pos hlt, hnat]
  · rw [if_neg hshort, if_neg hshort]
    by_cases hone : data.length ≤ 0xff
    · rw [if_pos hone, if_pos hone]
      refine @getOp_push_field rest data [UInt8.ofNat data.length] _ (by decide) rfl ?_
      have hnat : (UInt8.ofNat data.length).toNat = data.length := by
        rw [UInt8.toNat_ofNat']
        omega
      change readLE [UInt8.ofNat data.length] = data.length
      rw [readLE, readLE, hnat, Nat.mul_zero, Nat.add_zero]
    · rw [if_neg hone, if_neg hone]
      by_cases htwo : data.length ≤ 0xffff
      · rw [if_pos htwo, if_pos htwo, List.cons_append, List.append_assoc]
        refine getOp_push_field (by decide) (length_writeLE 2 _) ?_
        change readLE (List.take 2 (writeLE 2 data.length ++ (data ++ rest))) = data.length
        rw [List.take_left' (length_writeLE 2 _), readLE_writeLE_of_lt (by omega)]
      · rw [if_neg htwo, if_neg htwo, List.cons_append, List.append_assoc]
        refine getOp_push_field (by decide) (length_writeLE 4 _) ?_
        change readLE (List.take 4 (writeLE 4 data.length ++ (data ++ rest))) = data.length
        rw [List.take_left' (length_writeLE 4 _), readLE_writeLE_of_lt (by omega)]

theorem length_le_pushData : data.length ≤ (pushData data).length := by
  rw [pushData]
  split
  · exact Nat.le_succ _
  · split
    · exact Nat.le_add_right _ 2
    · split <;>
      · rw [List.length_cons, List.length_append]
        omega

theorem getOp_opcode (hop : OP_PUSHDATA4 < op) (hne : op ≠ OP_UNEMP_ASSET) :
    getOp (op :: rest) = some (op, [], rest) := by
  rw [getOp, if_neg (UInt8.not_le.2 hop), if_neg hne]

/-- **What one `operator<<` appends is what one `GetOp` reads.** -/
theorem getOp_bytes (hplain : item.Plain) (hlength : item.bytes.length < 2 ^ 32) :
    getOp (item.bytes ++ rest) = some (item.read.1, item.read.2, rest) := by
  cases item with
  | data b => exact getOp_pushData (lt_of_le_of_lt length_le_pushData hlength)
  | opcode op =>
    obtain ⟨hne, rfl | hop⟩ := hplain
    · rfl
    · exact getOp_opcode hop hne
  | num n =>
    change (pushInt64 n).length < 2 ^ 32 at hlength
    change getOp (pushInt64 n ++ rest) = some ((ScriptItem.read (.num n)).1, _, rest)
    rw [pushInt64] at hlength ⊢
    rw [ScriptItem.read]
    by_cases hsmall : n = -1 ∨ (1 ≤ n ∧ n ≤ 16)
    · rw [if_pos hsmall, if_pos hsmall]
      have hop : OP_PUSHDATA4 < UInt8.ofInt (n + (OP_1.toNat - 1)) ∧
          UInt8.ofInt (n + (OP_1.toNat - 1)) ≠ OP_UNEMP_ASSET := by
        obtain rfl | ⟨hlow, hhigh⟩ := hsmall
        · decide
        · interval_cases n <;> decide
      exact getOp_opcode hop.1 hop.2
    · rw [if_neg hsmall] at hlength
      rw [if_neg hsmall, if_neg hsmall]
      by_cases hzero : n = 0
      · rw [if_pos hzero, if_pos hzero]
        rfl
      · rw [if_neg hzero] at hlength
        rw [if_neg hzero, if_neg hzero]
        exact getOp_pushData (lt_of_le_of_lt length_le_pushData hlength)

theorem built_eq : built items = items.flatMap ScriptItem.bytes := by
  have hfold : ∀ (items : List ScriptItem) (s : CScript),
      items.foldl (fun s item => s ++ item.bytes) s = s ++ items.flatMap ScriptItem.bytes := by
    intro items
    induction items with
    | nil => exact fun s => (List.append_nil s).symm
    | cons item items ih =>
      intro s
      rw [List.foldl_cons, ih, List.flatMap_cons, List.append_assoc]
  exact hfold items []

theorem getOp2_of_getOp {pc : ℕ} (hs : s.length < 2 ^ 32) (hpc : pc ≤ s.length)
    (h : getOp (s.drop pc) = some (op, data, rest)) :
    getOp2 s pc = ⟨true, s.length - rest.length, op, data⟩ := by
  rw [getOp_drop hs] at h
  split at h
  · rename_i hret
    obtain ⟨hin, -⟩ := getOp2_progress hpc
    simp only [Option.some.injEq, Prod.mk.injEq] at h
    obtain ⟨hop, hdata, hrest⟩ := h
    have hlength : s.length - (getOp2 s pc).pc = rest.length := by
      rw [← hrest, List.length_drop]
    have hcursor : (getOp2 s pc).pc = s.length - rest.length := by omega
    rw [← hop, ← hdata, ← hcursor, ← hret]
  · cases h

theorem readStep_end {ops : List (UInt8 × Bytes)} :
    readStep s (s.length, ops) = .inr (ops, true) := by
  rw [readStep, opsStep, if_pos le_rfl]

theorem readStep_op {before bytes : CScript} {ops : List (UInt8 × Bytes)}
    (hs : (before ++ (bytes ++ rest)).length < 2 ^ 32)
    (h : getOp (bytes ++ rest) = some (op, data, rest)) :
    readStep (before ++ (bytes ++ rest)) (before.length, ops) =
      .inl ((before ++ bytes).length, ops ++ [(op, data)]) := by
  have hpc : before.length ≤ (before ++ (bytes ++ rest)).length := by
    rw [List.length_append]
    exact Nat.le_add_right _ _
  have hread := getOp2_of_getOp hs hpc (by rw [List.drop_left]; exact h)
  have hpos : bytes ++ rest ≠ [] := by
    intro hnil
    rw [hnil] at h
    cases h
  have hlt := List.length_pos_iff.2 hpos
  rw [readStep, opsStep, if_neg (by rw [List.length_append]; omega), hread]
  dsimp only
  rw [if_pos rfl, Sum.map_inl]
  simp only [List.length_append, Sum.inl.injEq, Prod.mk.injEq, and_true]
  omega

theorem run_readStep {before : CScript} {ops : List (UInt8 × Bytes)} {n : ℕ}
    (hplain : ∀ item ∈ items, item.Plain)
    (hs : (before ++ (items.flatMap ScriptItem.bytes ++ rest)).length < 2 ^ 32) :
    Loop.run (readStep (before ++ (items.flatMap ScriptItem.bytes ++ rest))) (n + items.length)
        (before.length, ops) =
      Loop.run (readStep (before ++ (items.flatMap ScriptItem.bytes ++ rest))) n
        ((before ++ items.flatMap ScriptItem.bytes).length, ops ++ items.map ScriptItem.read) := by
  induction items generalizing before ops with
  | nil => rw [List.flatMap_nil, List.append_nil, List.map_nil, List.append_nil]; rfl
  | cons item items ih =>
    rw [List.forall_mem_cons] at hplain
    rw [List.flatMap_cons, List.append_assoc] at hs ⊢
    have hitem : item.bytes.length < 2 ^ 32 := by
      rw [List.length_append, List.length_append] at hs
      omega
    have hround := @readStep_op _ _ _ _ _ ops hs (getOp_bytes hplain.1 hitem)
    have hrest := @ih (before ++ item.bytes) (ops ++ [item.read]) hplain.2
    rw [List.append_assoc before] at hrest
    rw [List.length_cons, ← Nat.add_assoc, Loop.run_inl hround, hrest hs, List.append_assoc,
      List.append_assoc, List.map_cons]
    rfl

theorem bytes_ne_nil : item.bytes ≠ [] := by
  have hpush : ∀ data, pushData data ≠ [] := by
    intro data
    rw [pushData]
    repeat' split
    all_goals exact List.cons_ne_nil _ _
  cases item with
  | data b => exact hpush b
  | opcode op => exact List.cons_ne_nil _ _
  | num n =>
    change pushInt64 n ≠ []
    rw [pushInt64]
    split
    · exact List.cons_ne_nil _ _
    · split
      · exact List.cons_ne_nil _ _
      · exact hpush _

theorem length_le_built : items.length ≤ (built items).length := by
  rw [built_eq]
  induction items with
  | nil => exact le_rfl
  | cons item items ih =>
    have hpos := List.length_pos_iff.2 (@bytes_ne_nil item)
    rw [List.length_cons, List.flatMap_cons, List.length_append]
    omega

theorem readOps_built_append (hplain : ∀ item ∈ items, item.Plain)
    (hs : (built items ++ rest).length < 2 ^ 32) : ∃ n, rest.length < n ∧
    readOps (built items ++ rest) = Loop.run (readStep (built items ++ rest)) n
      ((built items).length, items.map ScriptItem.read) := by
  have hle := @length_le_built items
  have hlength : (built items ++ rest).length = (built items).length + rest.length :=
    List.length_append
  obtain ⟨n, hn⟩ := Nat.exists_eq_add_of_le
    (show items.length ≤ (built items ++ rest).length + 1 by omega)
  rw [Nat.add_comm items.length] at hn
  refine ⟨n, by omega, ?_⟩
  rw [built_eq] at hs
  have hrun := @run_readStep rest items [] [] n hplain hs
  rw [List.nil_append, List.nil_append, List.nil_append, ← built_eq] at hrun
  rw [readOps, hn]
  exact hrun

/-- **What was appended is what is read.** -/
theorem readOps_built (hplain : ∀ item ∈ items, item.Plain) (hs : (built items).length < 2 ^ 32) :
    readOps (built items) = some (items.map ScriptItem.read, true) := by
  have hs' : (built items ++ []).length < 2 ^ 32 := by rwa [List.append_nil]
  obtain ⟨n, hn, hread⟩ := readOps_built_append hplain hs'
  rw [List.append_nil] at hread
  obtain ⟨n, rfl⟩ := Nat.exists_eq_succ_of_ne_zero (Nat.ne_of_gt hn)
  rw [hread, Loop.run_inr readStep_end]

/-- **Behind an `OP_UNEMP_ASSET` all is its operand**, wherever it is read. -/
theorem getOp2_asset {pc : ℕ} (hs : s.length < 2 ^ 32) (hpc : pc < s.length)
    (hop : Bytes.at s pc = OP_UNEMP_ASSET) :
    getOp2 s pc = ⟨true, s.length, OP_UNEMP_ASSET, s.drop (pc + 1)⟩ := by
  have hdrop : s.drop pc = OP_UNEMP_ASSET :: s.drop (pc + 1) := by
    rw [List.drop_eq_getElem_cons hpc, ← hop, Bytes.at, List.getD_eq_getElem?_getD,
      List.getElem?_eq_getElem hpc, Option.getD_some]
  refine @getOp2_of_getOp s [] _ _ pc hs hpc.le ?_
  rw [hdrop]
  rfl

theorem readOps_built_asset (hplain : ∀ item ∈ items, item.Plain)
    (hs : (built items ++ OP_UNEMP_ASSET :: rest).length < 2 ^ 32) :
    readOps (built items ++ OP_UNEMP_ASSET :: rest) =
      some (items.map ScriptItem.read ++ [(OP_UNEMP_ASSET, rest)], true) := by
  obtain ⟨n, hn, hread⟩ := readOps_built_append hplain hs
  obtain ⟨n, rfl⟩ := Nat.exists_eq_add_of_lt hn
  have hround := @readStep_op [] rest OP_UNEMP_ASSET (built items) (OP_UNEMP_ASSET :: rest)
    (items.map ScriptItem.read)
  rw [List.append_nil] at hround
  rw [hread, Loop.run_inl (hround hs rfl), List.length_cons, Nat.add_right_comm,
    Loop.run_inr readStep_end]

/-! ## Lengths beyond the length field -/

theorem getOp2_pushData (hdata : data.length = 2 ^ 32) :
    getOp2 (pushData data) 0 = ⟨true, 5, OP_PUSHDATA4, []⟩ := by
  have hpush : pushData data = OP_PUSHDATA4 :: ([0, 0, 0, 0] ++ data) := by
    have hshort : OP_PUSHDATA1.toNat = 0x4c := rfl
    rw [pushData, if_neg (by omega), if_neg (by omega), if_neg (by omega), hdata]
    rfl
  have hlength : (pushData data).length = 5 + 2 ^ 32 := by
    rw [hpush, List.length_cons, List.length_append, hdata]
    rfl
  have hat : Bytes.at (pushData data) 0 = OP_PUSHDATA4 := by
    rw [hpush]
    rfl
  have hsize : pushLength OP_PUSHDATA4 ((pushData data).drop 1) = 0 := by
    rw [hpush]
    rfl
  have hbytes : lengthBytes OP_PUSHDATA4 = 4 := rfl
  rw [getOp2, if_neg (by omega), hat]
  dsimp only
  rw [if_pos (by decide), Nat.zero_add, hsize, hbytes, hlength, if_neg (by omega),
    if_neg (Nat.not_lt_zero _), Bytes.substr, List.take_zero]

theorem readOps_pushData {result : List (UInt8 × Bytes) × Bool} (hdata : data.length = 2 ^ 32)
    (h : readOps (pushData data) = some result) :
    result.1.head? = some (OP_PUSHDATA4, []) := by
  have hlong := @length_le_pushData data
  have hround : readStep (pushData data) (0, []) = .inl (5, [(OP_PUSHDATA4, [])]) := by
    rw [readStep, opsStep, if_neg (by omega), getOp2_pushData hdata]
    rfl
  rw [readOps, Loop.run_inl hround] at h
  refine Loop.run_invariant (I := fun c : ℕ × List (UInt8 × Bytes) =>
    c.2.head? = some (OP_PUSHDATA4, [])) (Q := fun r => r.1.head? = some (OP_PUSHDATA4, []))
    ?_ ?_ rfl h
  · rintro ⟨pc, ops⟩ c' hops hstep
    rw [readStep, opsStep] at hstep
    dsimp only at hops hstep
    split at hstep
    · cases hstep
    · split at hstep
      · cases hstep
        dsimp only
        rw [List.head?_append, hops, Option.some_or]
      · cases hstep
  · rintro ⟨pc, ops⟩ r hops hstep
    rw [readStep, opsStep] at hstep
    dsimp only at hops hstep
    split at hstep
    · cases hstep
      exact hops
    · split at hstep
      · cases hstep
      · cases hstep
        exact hops

theorem readOps_built_long (hdata : data.length = 2 ^ 32) :
    readOps (built [.data data]) ≠ some ([(OP_PUSHDATA4, data)], true) := by
  intro h
  have hhead := readOps_pushData hdata h
  rw [List.head?_cons, Option.some.injEq, Prod.mk.injEq] at hhead
  rw [hhead.2, List.length_nil] at hdata
  omega

end CScript

open CScript

end UnemployCoin
