import UnemployCoin.ConnectBlock
import UnemployCoin.Script
import Mathlib.Tactic.IntervalCases
/-!
# The height in the coinbase

`ContextualCheckBlock` (`validation.cpp`) asks that the script of the coinbase starts with the push
of the block height (`script.h`).  Every network has this rule from its first block on.
-/

namespace UnemployCoin

open Check

/-! ## Numbers in a script -/

/-- The loop of `CScriptNum::serialize`, over the eight bytes of the absolute value. -/
def absBytes : ℕ → ℕ → Bytes
  | 0, _ => []
  | n + 1, absvalue =>
    if absvalue = 0 then [] else UInt8.ofNat (absvalue % 256) :: absBytes n (absvalue / 256)

/-- `CScriptNum::serialize`.  The top bit of the last byte is the sign. -/
def serializeScriptNum (value : ℤ) : Bytes :=
  let neg := decide (value < 0)
  let result := absBytes 8 value.natAbs
  match result.getLast? with
  | none => []
  | some back =>
    if back &&& 0x80 != 0 then result ++ [if neg then 0x80 else 0]
    else if neg then result.dropLast ++ [back ||| 0x80]
    else result

/-- `CScript::push_int64` on the empty script. -/
def pushInt64 (n : ℤ) : CScript :=
  if n = -1 ∨ (1 ≤ n ∧ n ≤ 16) then [UInt8.ofInt (n + (OP_1.toNat - 1))]
  else if n = 0 then [OP_0]
  else CScript.pushData (serializeScriptNum n)

def CBlock.coinbaseScript (block : CBlock) : CScript :=
  match block.vtx with
  | [] => []
  | coinbase :: _ =>
    match coinbase.vin with
    | [] => []
    | txin :: _ => txin.scriptSig

/-- The check of `ContextualCheckBlock` on the height in the coinbase. -/
def checkCoinbaseHeight (nHeight : ℕ) (block : CBlock) : Verdict :=
  require ((pushInt64 nHeight).isPrefixOf block.coinbaseScript) "bad-cb-height"

/-! ## Read back -/

theorem readLE_append_zero (s : Bytes) : readLE (s ++ [0]) = readLE s := by
  induction s with
  | nil => rfl
  | cons b s ih => rw [List.cons_append, readLE, readLE, ih]

theorem length_absBytes (n v : ℕ) : (absBytes n v).length ≤ n := by
  induction n generalizing v with
  | zero => exact le_rfl
  | succ n ih =>
    rw [absBytes]
    split
    · exact Nat.zero_le _
    · exact Nat.succ_le_succ (ih _)

theorem readLE_absBytes {n v : ℕ} (h : v < 256 ^ n) : readLE (absBytes n v) = v := by
  induction n generalizing v with
  | zero =>
    rw [Nat.pow_zero, Nat.lt_one_iff] at h
    exact h.symm
  | succ n ih =>
    rw [absBytes]
    split
    · rename_i hzero
      exact hzero.symm
    · have hbyte : (UInt8.ofNat (v % 256)).toNat = v % 256 := by
        rw [UInt8.toNat_ofNat']
        exact Nat.mod_mod v 256
      have hrest : v / 256 < 256 ^ n := by
        rw [Nat.pow_succ] at h
        exact Nat.div_lt_of_lt_mul (by rwa [Nat.mul_comm])
      rw [readLE, hbyte, ih hrest, Nat.mod_add_div]

theorem serializeScriptNum_natCast {n : ℕ} (h : n < 256 ^ 8) :
    readLE (serializeScriptNum n) = n ∧ (serializeScriptNum n).length ≤ 9 := by
  have hlength := length_absBytes 8 n
  have hread := readLE_absBytes h
  have hneg : decide ((n : ℤ) < 0) = false := decide_eq_false (by omega)
  rw [serializeScriptNum]
  rw [hneg, Int.natAbs_natCast]
  cases hlast : (absBytes 8 n).getLast? with
  | none =>
    rw [List.getLast?_eq_none_iff.1 hlast] at hread
    exact ⟨hread, Nat.zero_le _⟩
  | some back =>
    dsimp only
    split
    · rw [if_neg Bool.false_ne_true, readLE_append_zero, List.length_append, List.length_singleton]
      exact ⟨hread, by omega⟩
    · rw [if_neg Bool.false_ne_true]
      exact ⟨hread, by omega⟩

def readPush : CScript → ℕ
  | [] => 0
  | op :: s => if OP_1 ≤ op then (op - OP_1).toNat + 1 else readLE (s.take op.toNat)

/-- **The height can be read back.** -/
theorem readPush_pushInt64 {n : ℕ} {s : CScript} (h : n < 256 ^ 8)
    (hstarts : pushInt64 n <+: s) : readPush s = n := by
  obtain ⟨rest, rfl⟩ := hstarts
  rw [pushInt64]
  by_cases hsmall : (n : ℤ) = -1 ∨ (1 ≤ (n : ℤ) ∧ (n : ℤ) ≤ 16)
  · rw [if_pos hsmall]
    have hrange : 1 ≤ n ∧ n ≤ 16 := by omega
    obtain ⟨hlow, hhigh⟩ := hrange
    interval_cases n <;> rfl
  · rw [if_neg hsmall]
    by_cases hzero : (n : ℤ) = 0
    · rw [if_pos hzero, Int.natCast_eq_zero.1 hzero]
      rfl
    · obtain ⟨hread, hlength⟩ := serializeScriptNum_natCast h
      have hshort : (serializeScriptNum n).length < OP_PUSHDATA1.toNat :=
        lt_of_le_of_lt hlength (by decide)
      rw [if_neg hzero, CScript.pushData, if_pos hshort, List.cons_append, readPush]
      have hop : (UInt8.ofNat (serializeScriptNum n).length).toNat =
          (serializeScriptNum n).length := by
        rw [UInt8.toNat_ofNat']
        omega
      rw [if_neg, hop, List.take_left, hread]
      rw [UInt8.le_iff_toNat_le, hop]
      intro hle
      have : (81 : ℕ) ≤ (serializeScriptNum n).length := hle
      omega

/-- **A coinbase is of one height only.** -/
theorem coinbaseHeight_unique {n m : ℕ} {block block' : CBlock} (hn : n < 256 ^ 8)
    (hm : m < 256 ^ 8) (hscript : block.coinbaseScript = block'.coinbaseScript)
    (h : checkCoinbaseHeight n block = .ok ()) (h' : checkCoinbaseHeight m block' = .ok ()) :
    n = m := by
  rw [checkCoinbaseHeight, require_ok, List.isPrefixOf_iff_prefix] at h h'
  rw [← readPush_pushInt64 hn h, ← readPush_pushInt64 hm h', hscript]

end UnemployCoin
