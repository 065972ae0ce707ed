import UnemployCoin.Base58
import Mathlib.Data.Nat.Digits.Lemmas
/-!
# Base58 text has one form

`EncodeBase58` and `DecodeBase58` as their loops run: a buffer of a fixed size, of which only the
first `length` places are in use, and an assertion that no carry is left after a step.  The size
is an `int`: from `2 ^ 31` on it is negative, or there is no room for the number.
-/

namespace UnemployCoin

open Radix

/-! ## The loops -/

/-- `Apply "b58 = b58 * 256 + ch"` and the assertion that follows; `none` when it fails. -/
def applyDigit (b m : ℕ) (buffer : List ℕ × ℕ) (digit : ℕ) : Option (List ℕ × ℕ) :=
  let (digits, carry, i) := carryLoop b m buffer.2 0 digit buffer.1
  if carry = 0 then some (digits, i) else none

/-- `EncodeBase58` with its buffer; `none` when there is no vector of its size or an assertion
fails.  The digits are least significant first. -/
def encodeBase58Loops (vch : Bytes) : Option Bytes := do
  let zeroes := (vch.takeWhile fun b => b == 0).length
  let rest := vch.drop zeroes
  let size := intSize (rest.length * 138 / 100 + 1)
  if size < 0 then none
  else
    let (b58, length) ← rest.foldlM (fun buffer b => applyDigit 58 256 buffer b.toNat)
      (List.replicate size.toNat 0, 0)
    return List.replicate zeroes (pszBase58.at 0) ++
      ((b58.take length).reverse.dropWhile fun d => d == 0).map fun d => pszBase58.at d

/-- `c_str`, which ends at the first NUL byte. -/
def cStr (str : Bytes) : Bytes := str.takeWhile fun c => c != 0

/-- `Process the characters` of `DecodeBase58`: the buffer and what is left to read, `some none`
when a character is not in the alphabet, and `none` when the assertion fails. -/
def processCharacters : List ℕ × ℕ → Bytes → Option (Option ((List ℕ × ℕ) × Bytes))
  | buffer, [] => some (some (buffer, []))
  | buffer, c :: psz =>
    if isSpace c then some (some (buffer, c :: psz))
    else if pszBase58.contains c then
      match applyDigit 256 58 buffer (pszBase58.idxOf c) with
      | none => none
      | some buffer => processCharacters buffer psz
    else some none

/-- `DecodeBase58` with its buffer; `none` when there is no vector of its size or an assertion
fails. -/
def decodeBase58Loops (str : Bytes) : Option (Option Bytes) :=
  let psz := (cStr str).dropWhile isSpace
  let zeroes := (psz.takeWhile fun c => c == pszBase58.at 0).length
  let psz := psz.drop zeroes
  let size := intSize (psz.length * 733 / 1000 + 1)
  if size < 0 then none
  else match processCharacters (List.replicate size.toNat 0, 0) psz with
  | none => none
  | some none => some none
  | some (some ((b256, length), psz)) =>
    if psz.dropWhile isSpace = [] then
      some (some (List.replicate zeroes 0 ++
        ((b256.take length).reverse.dropWhile fun b => b == 0).map fun b => UInt8.ofNat b))
    else some none

/-! ## No carry is left -/

section Buffers

variable {b m size : ℕ}

/-- A buffer that holds the digits so far, all of them, and nothing behind the places in use. -/
structure Holds (b m size : ℕ) (buffer : List ℕ × ℕ) (done : List ℕ) : Prop where
  digits : buffer.1 = convert b m size done
  unused : ∀ d ∈ buffer.1.drop buffer.2, d = 0
  room : Nat.ofDigits m done.reverse < b ^ size

theorem Holds.empty (hb : 0 < b) : Holds b m size (List.replicate size 0, 0) [] :=
  ⟨rfl, fun _ hd => (List.mem_replicate.1 (List.mem_of_mem_drop hd)).2, Nat.pow_pos hb⟩

theorem Holds.applyDigit {buffer : List ℕ × ℕ} {done : List ℕ} {d : ℕ}
    (h : Holds b m size buffer done)
    (hroom : Nat.ofDigits m (done ++ [d]).reverse < b ^ size) :
    ∃ buffer', applyDigit b m buffer d = some buffer' ∧
      Holds b m size buffer' (done ++ [d]) := by
  have hzeros : ∀ d ∈ (convert b m size done).drop buffer.2, d = 0 := by
    rw [← h.digits]
    exact h.unused
  obtain ⟨i, hloop, hunused⟩ := carryLoop_convert hzeros hroom
  refine ⟨(convert b m size (done ++ [d]), i), ?_, rfl, hunused, hroom⟩
  rw [UnemployCoin.applyDigit, h.digits, hloop]
  rfl

/-- **No carry is left only where there is room.** -/
theorem Holds.room_of_applyDigit (hb : 1 < b) {buffer buffer' : List ℕ × ℕ} {done : List ℕ} {d : ℕ}
    (h : Holds b m size buffer done)
    (happly : UnemployCoin.applyDigit b m buffer d = some buffer') :
    Nat.ofDigits m (done ++ [d]).reverse < b ^ size := by
  have hzeros : ∀ d ∈ (convert b m size done).drop buffer.2, d = 0 := by
    rw [← h.digits]
    exact h.unused
  obtain ⟨hmul, hsum, -⟩ := @carryLoop_spec b m buffer.2 0 d (convert b m size done) hzeros
  rw [UnemployCoin.applyDigit, h.digits] at happly
  generalize carryLoop b m buffer.2 0 d (convert b m size done) = r at hmul hsum happly
  obtain ⟨digits, carry, i⟩ := r
  dsimp only at hmul hsum happly
  split at happly
  · rename_i hcarry
    have hlt : ∀ d ∈ digits, d < b := by
      rw [hmul]
      exact fun d hd => lt_of_mem_mulAdd (by omega) hd
    have hdigits := Nat.ofDigits_lt_base_pow_length hb hlt
    rw [hmul, length_mulAdd, length_convert, ← hmul] at hdigits
    rw [hcarry, Nat.zero_mul, Nat.add_zero, ofDigits_convert, Nat.mod_eq_of_lt h.room] at hsum
    rwa [List.reverse_append, List.reverse_singleton, List.singleton_append, Nat.ofDigits_cons,
      Nat.add_comm, ← hsum]
  · cases happly

theorem Holds.strip {buffer : List ℕ × ℕ} {done : List ℕ} (h : Holds b m size buffer done) :
    ((buffer.1.take buffer.2).reverse.dropWhile fun d => d == 0) =
      strip (convert b m size done) := by
  have hsplit : convert b m size done = buffer.1.take buffer.2 ++ buffer.1.drop buffer.2 := by
    rw [List.take_append_drop, h.digits]
  have hzeros : ∀ d ∈ (buffer.1.drop buffer.2).reverse, (d == 0) = true := by
    intro d hd
    rw [h.unused d (List.mem_reverse.1 hd)]
    rfl
  rw [Radix.strip, hsplit, List.reverse_append, List.dropWhile_append_of_pos hzeros]

theorem ofDigits_lt_of_length {n : ℕ} {digits : List ℕ} (hm : 1 < m) (hroom : m ^ n < b ^ size)
    (hdigits : ∀ d ∈ digits, d < m) (hlength : digits.length ≤ n) :
    Nat.ofDigits m digits.reverse < b ^ size := by
  have hlt := Nat.ofDigits_lt_base_pow_length hm fun d hd => hdigits d (List.mem_reverse.1 hd)
  rw [List.length_reverse] at hlt
  have hmono := Nat.pow_le_pow_right (Nat.zero_lt_of_lt hm) hlength
  omega

/-- The next digit goes into the buffer, or the buffer has no room for so many digits. -/
theorem Holds.step {buffer : List ℕ × ℕ} {done : List ℕ} {d n : ℕ} (hb : 1 < b) (hm : 1 < m)
    (h : Holds b m size buffer done) (hdigits : ∀ d' ∈ done ++ [d], d' < m)
    (hlength : (done ++ [d]).length ≤ n) :
    (∃ buffer', UnemployCoin.applyDigit b m buffer d = some buffer' ∧
        Holds b m size buffer' (done ++ [d])) ∨
      UnemployCoin.applyDigit b m buffer d = none ∧ b ^ size ≤ m ^ n := by
  cases happly : UnemployCoin.applyDigit b m buffer d with
  | none =>
    refine .inr ⟨rfl, not_lt.1 fun hroom => ?_⟩
    obtain ⟨next, hnext, -⟩ := h.applyDigit (ofDigits_lt_of_length hm hroom hdigits hlength)
    cases happly.symm.trans hnext
  | some next =>
    obtain ⟨next', happly', hnext⟩ := h.applyDigit (h.room_of_applyDigit hb happly)
    cases happly.symm.trans happly'
    exact .inl ⟨next, rfl, hnext⟩

end Buffers

theorem foldlM_applyDigit {size : ℕ} {rest done : Bytes} {buffer : List ℕ × ℕ}
    (h : Holds 58 256 size buffer (done.map UInt8.toNat)) :
    (∃ buffer', rest.foldlM (fun buffer b => applyDigit 58 256 buffer b.toNat) buffer =
        some buffer' ∧ Holds 58 256 size buffer' ((done ++ rest).map UInt8.toNat)) ∨
      rest.foldlM (fun buffer b => applyDigit 58 256 buffer b.toNat) buffer = none ∧
        58 ^ size ≤ 256 ^ (done ++ rest).length := by
  induction rest generalizing done buffer with
  | nil => exact .inl ⟨buffer, rfl, by rwa [List.append_nil]⟩
  | cons b rest ih =>
    have hmap : done.map UInt8.toNat ++ [b.toNat] = (done ++ [b]).map UInt8.toNat := by
      rw [List.map_append, List.map_singleton]
    have hdigits : ∀ d ∈ done.map UInt8.toNat ++ [b.toNat], d < 256 := by
      rw [hmap]
      intro d hd
      obtain ⟨c, -, rfl⟩ := List.mem_map.1 hd
      exact c.toNat_lt
    have hlength : (done.map UInt8.toNat ++ [b.toNat]).length ≤ (done ++ b :: rest).length := by
      rw [hmap, List.length_map, List.append_cons done b rest]
      exact (List.prefix_append _ _).length_le
    rw [List.foldlM_cons]
    rcases h.step (by omega) (by omega) hdigits hlength with ⟨next, happly, hnext⟩ | ⟨hnone, hfull⟩
    · rw [hmap] at hnext
      have hback := ih hnext
      rw [happly]
      rwa [List.append_assoc, List.singleton_append] at hback
    · rw [hnone]
      exact .inr ⟨rfl, hfull⟩

theorem intSize_of_le {n : ℕ} (h : 2 ^ 31 ≤ n) :
    intSize n < 0 ∨ (intSize n).toNat < 2 ^ 31 ∧ 2 ^ 32 ≤ n := by
  rw [intSize, Int32.toInt_ofNat', Int32.size, Int.bmod_eq_emod]
  split <;> omega

theorem significant_head (vch : Bytes) : (significant vch).head? ≠ some 0 := by
  have hnot := List.head?_dropWhile_not (fun b : UInt8 => b == 0) vch
  rw [← significant_eq] at hnot
  intro hzero
  rw [hzero] at hnot
  cases hnot

theorem no_room {n size value : ℕ} (hsize : size + 1 ≤ n) (hvalue : 256 ^ n ≤ 256 * value) :
    ¬value < 58 ^ size := by
  intro hroom
  have hpow : 58 ^ size ≤ 256 ^ size := Nat.pow_le_pow_left (by omega) size
  have hmono : 256 ^ (size + 1) ≤ 256 ^ n := Nat.pow_le_pow_right (by omega) hsize
  rw [Nat.pow_succ] at hmono
  omega

/-- **The encoder comes to an end exactly where the size of its buffer is one of an `int`.** -/
theorem encodeBase58Loops_eq (vch : Bytes) : (TextFits vch →
    encodeBase58Loops vch = some (encodeBase58 vch)) ∧
      (¬TextFits vch → encodeBase58Loops vch = none) := by
  generalize hsize : intSize ((significant vch).length * 138 / 100 + 1) = size
  have hrun := @foldlM_applyDigit size.toNat (significant vch) [] _ (Holds.empty (by omega))
  rw [List.nil_append] at hrun
  have hloops : encodeBase58Loops vch = if size < 0 then none
      else ((significant vch).foldlM (fun buffer b => applyDigit 58 256 buffer b.toNat)
        (List.replicate size.toNat 0, 0)).bind fun buffer =>
          some (base58Text (vch.takeWhile fun b => b == 0).length
            ((buffer.1.take buffer.2).reverse.dropWhile fun d => d == 0)) := by
    rw [← hsize]
    rfl
  constructor
  · intro hfits
    have hcount := intSize_of_lt hfits
    rw [hsize] at hcount
    rcases hrun with ⟨buffer, hrun, hlast⟩ | ⟨-, hle⟩
    · have hpos : ¬size < 0 := by omega
      rw [hloops, hrun, encodeBase58_eq, hsize, ← hlast.strip, if_neg hpos]
      rfl
    · rw [hcount, Int.toNat_natCast] at hle
      exact absurd (room_base58 (significant vch).length) (not_lt.2 hle)
  · intro hlong
    rw [hloops]
    rcases intSize_of_le (not_lt.1 hlong) with hneg | ⟨hsmall, hlarge⟩
    · rw [hsize] at hneg
      exact if_pos hneg
    rw [hsize] at hsmall
    rcases hrun with ⟨buffer, -, hlast⟩ | ⟨hrun, -⟩
    · -- The number has more digits than the buffer has places.
      have hlength : 2 ^ 31 + 1 ≤ (significant vch).length := by omega
      have hne : (significant vch).map UInt8.toNat ≠ [] := by
        intro hnil
        rw [List.map_eq_nil_iff.1 hnil, List.length_nil] at hlength
        omega
      have hfirst : ((significant vch).map UInt8.toNat).reverse.getLast
          (List.reverse_ne_nil_iff.2 hne) ≠ 0 := by
        rw [List.getLast_reverse]
        intro hzero
        refine significant_head vch ?_
        have hhead := List.head?_eq_some_head hne
        rw [hzero, List.head?_map] at hhead
        obtain ⟨b, hb, hb0⟩ := Option.map_eq_some_iff.1 hhead
        have hb' : b = 0 := UInt8.toNat_inj.1 hb0
        rw [hb, hb']
      have hvalue : 256 ^ (significant vch).length ≤
          256 * Nat.ofDigits 256 ((significant vch).map UInt8.toNat).reverse := by
        have hpow := @Nat.pow_length_le_mul_ofDigits 254 _ (List.reverse_ne_nil_iff.2 hne) hfirst
        rwa [List.length_reverse, List.length_map] at hpow
      exact absurd hlast.room (no_room (by omega) hvalue)
    · rw [hrun]
      exact ite_self none

theorem processCharacters_digits {size : ℕ} {digits tail done : Bytes} {buffer : List ℕ × ℕ}
    (hdone : ∀ c ∈ done, pszBase58.contains c = true)
    (hdigits : ∀ c ∈ digits, isSpace c = false)
    (htail : ∀ c ∈ tail.head?, isSpace c = true)
    (h : Holds 256 58 size buffer (done.map fun c => pszBase58.idxOf c)) :
    processCharacters buffer (digits ++ tail) = none ∧
        256 ^ size ≤ 58 ^ (done ++ digits).length ∨
      processCharacters buffer (digits ++ tail) = some none ∧
        (digits.all fun c => pszBase58.contains c) = false ∨
      ∃ buffer', processCharacters buffer (digits ++ tail) = some (some (buffer', tail)) ∧
        Holds 256 58 size buffer' ((done ++ digits).map fun c => pszBase58.idxOf c) ∧
        (digits.all fun c => pszBase58.contains c) = true := by
  induction digits generalizing done buffer with
  | nil =>
    refine Or.inr (Or.inr ⟨buffer, ?_, by rwa [List.append_nil], rfl⟩)
    cases tail with
    | nil => rfl
    | cons c tail => rw [List.nil_append, processCharacters, if_pos (htail c rfl)]
  | cons c digits ih =>
    rw [List.forall_mem_cons] at hdigits
    rw [List.cons_append, processCharacters, hdigits.1, List.all_cons]
    by_cases hc : pszBase58.contains c = true
    · have hall : ∀ c' ∈ done ++ [c], pszBase58.contains c' = true := by
        intro c' hc'
        rcases List.mem_append.1 hc' with hc' | hc'
        · exact hdone c' hc'
        · rwa [List.mem_singleton.1 hc']
      have hmap : (done.map fun c => pszBase58.idxOf c) ++ [pszBase58.idxOf c] =
          (done ++ [c]).map fun c => pszBase58.idxOf c := by rw [List.map_append]; rfl
      rw [hc, Bool.true_and]
      have hlt : ∀ d ∈ (done.map fun c => pszBase58.idxOf c) ++ [pszBase58.idxOf c], d < 58 := by
        rw [hmap]
        intro d hd
        obtain ⟨c', hc', rfl⟩ := List.mem_map.1 hd
        exact idxOf_lt_pszBase58 (hall c' hc')
      have hlength : ((done.map fun c => pszBase58.idxOf c) ++ [pszBase58.idxOf c]).length ≤
          (done ++ c :: digits).length := by
        rw [hmap, List.length_map, List.append_cons done c digits]
        exact (List.prefix_append _ _).length_le
      rcases h.step (by omega) (by omega) hlt hlength with ⟨next, happly, hnext⟩ | ⟨hnone, hfull⟩
      · rw [hmap] at hnext
        have hback := ih hall hdigits.2 hnext
        rw [happly]
        rwa [List.append_assoc, List.singleton_append] at hback
      · rw [hnone]
        exact Or.inl ⟨rfl, hfull⟩
    · refine Or.inr (Or.inl ⟨?_, ?_⟩)
      · rw [if_neg Bool.false_ne_true, if_neg hc]
      · rw [Bool.not_eq_true] at hc
        rw [hc, Bool.false_and]

theorem split_blank (rest : Bytes) :
    ∃ digits tail, rest = digits ++ tail ∧ rest.takeWhile (fun c => !isSpace c) = digits ∧
      rest.drop digits.length = tail ∧ (∀ c ∈ digits, isSpace c = false) ∧
      ∀ c ∈ tail.head?, isSpace c = true := by
  have hsplit := List.takeWhile_append_dropWhile (p := fun c => !isSpace c) (l := rest)
  refine ⟨rest.takeWhile fun c => !isSpace c, rest.dropWhile fun c => !isSpace c, hsplit.symm, rfl,
    ?_, ?_, ?_⟩
  · conv_lhs =>
      arg 2
      rw [← hsplit]
    exact List.drop_left
  · intro c hc
    have hnot := List.mem_takeWhile_imp hc
    rwa [Bool.not_eq_true'] at hnot
  · intro c hc
    have hnot := List.head?_dropWhile_not (fun c => !isSpace c) rest
    rw [Option.mem_def.1 hc] at hnot
    simpa using hnot

/-- The buffer has room for the number that the characters denote. -/
def HasRoom (str : Bytes) : Prop :=
  Nat.ofDigits 58 (((bodyOf str).takeWhile fun c => !isSpace c).map fun c =>
    pszBase58.idxOf c).reverse < 256 ^ (intSize ((bodyOf str).length * 733 / 1000 + 1)).toNat

/-- **The decoder comes to an end** at least where the size of its buffer is one of an `int`, and
where it does the buffer has room for what is accepted. -/
theorem decodeBase58Loops_eq (str : Bytes) :
    decodeBase58Loops str = none ∧ 2 ^ 31 ≤ (bodyOf (cStr str)).length * 733 / 1000 + 1 ∨
      decodeBase58Loops str = some (decodeBase58 (cStr str)) ∧
        ((decodeBase58 (cStr str)).isSome = true → HasRoom (cStr str)) := by
  rw [decodeBase58Loops, decodeBase58, HasRoom, bodyOf]
  generalize (cStr str).dropWhile isSpace = psz
  dsimp only
  generalize (psz.takeWhile fun c => c == pszBase58.at 0).length = zeroes
  generalize psz.drop zeroes = rest
  generalize hsize : intSize (rest.length * 733 / 1000 + 1) = size
  by_cases hneg : size < 0
  · refine Or.inl ⟨if_pos hneg, not_lt.1 fun hfits => ?_⟩
    rw [← hsize, intSize_of_lt hfits] at hneg
    omega
  rw [if_neg hneg]
  obtain ⟨digits, tail, hsplit, hdigits, hdrop, hnospace, hspace⟩ := split_blank rest
  have hblank : tail.dropWhile isSpace = [] ↔ tail.all isSpace = true := by
    rw [List.dropWhile_eq_nil_iff, List.all_eq_true]
  rw [hdigits, hdrop]
  rcases @processCharacters_digits size.toNat digits tail [] _ (fun _ h => by cases h) hnospace
    hspace (Holds.empty (by omega)) with ⟨hrun, hfull⟩ | ⟨hrun, hall⟩ | ⟨buffer, hrun, hlast, hall⟩
  · rw [← hsplit] at hrun
    rw [hrun]
    refine Or.inl ⟨rfl, not_lt.1 fun hfits => ?_⟩
    have hle : digits.length ≤ rest.length := by
      rw [hsplit, List.length_append]
      omega
    have hroom := (Nat.pow_le_pow_right (by omega : 0 < 58) hle).trans_lt (room_base256 rest.length)
    rw [← toNat_intSize hfits, hsize] at hroom
    exact absurd hroom (not_lt.2 hfull)
  · rw [← hsplit] at hrun
    rw [hrun, hall]
    exact Or.inr ⟨rfl, fun h => by cases h⟩
  · rw [← hsplit] at hrun
    have hstrip := hlast.strip
    have hfold : convert 256 58 size.toNat (([] ++ digits).map fun c => pszBase58.idxOf c) =
        digits.foldl (fun b256 c => base256Step b256 (pszBase58.idxOf c))
          (List.replicate size.toNat 0) := by
      rw [List.nil_append, convert, List.foldl_map]
      simp only [base256Step_eq]
    rw [hfold, Radix.strip] at hstrip
    rw [hrun, hall, ← hstrip]
    refine Or.inr ⟨?_, fun _ => hlast.room⟩
    by_cases hend : tail.dropWhile isSpace = []
    · simp only [if_pos hend, hblank.1 hend, if_true]
    · dsimp only
      rw [if_neg hend, if_pos rfl, if_neg (mt hblank.2 hend)]

/-! ## What is accepted -/

def trim (str : Bytes) : Bytes :=
  ((str.dropWhile isSpace).reverse.dropWhile isSpace).reverse

theorem trim_eq {str text tail : Bytes} (h : str.dropWhile isSpace = text ++ tail)
    (htext : ∀ c ∈ text, isSpace c = false) (htail : tail.all isSpace = true) :
    trim str = text := by
  have hblank : ∀ c ∈ tail.reverse, isSpace c = true := by
    intro c hc
    exact List.all_eq_true.1 htail c (List.mem_reverse.1 hc)
  have hstay : text.reverse.dropWhile isSpace = text.reverse := by
    rw [List.dropWhile_eq_self_iff]
    intro hpos
    rw [htext _ (List.mem_reverse.1 (List.getElem_mem hpos))]
    exact Bool.false_ne_true
  rw [trim, h, List.reverse_append, List.dropWhile_append_of_pos hblank, hstay,
    List.reverse_reverse]

theorem pszBase58_at_idxOf {c : UInt8} (h : pszBase58.contains c = true) :
    pszBase58.at (pszBase58.idxOf c) = c := by
  have hlt := List.idxOf_lt_length_of_mem (List.contains_iff_mem.1 h)
  rw [Bytes.at, List.getD_eq_getElem?_getD, List.getElem?_eq_getElem hlt, Option.getD_some,
    List.getElem_idxOf]

section Zeros

variable {zeroes : ℕ} {digits : List ℕ}

theorem toNat_digit (hdigits : ∀ d ∈ digits, d < 256) :
    ∀ d ∈ digits, (UInt8.ofNat d).toNat = d := by
  intro d hd
  rw [UInt8.toNat_ofNat', Nat.mod_eq_of_lt (hdigits d hd)]

theorem takeWhile_zeros (hdigits : ∀ d ∈ digits, d < 256) (hhead : digits.head? ≠ some 0) :
    (List.replicate zeroes (0 : UInt8) ++ digits.map UInt8.ofNat).takeWhile (fun b => b == 0) =
      List.replicate zeroes 0 := by
  refine takeWhile_replicate_append rfl ?_
  cases digits with
  | nil => rfl
  | cons d digits =>
    refine List.takeWhile_cons_of_neg ?_
    rw [beq_iff_eq]
    intro hzero
    have hd := toNat_digit hdigits d List.mem_cons_self
    rw [hzero] at hd
    exact hhead (by rw [← hd]; rfl)

theorem significant_zeros (hdigits : ∀ d ∈ digits, d < 256) (hhead : digits.head? ≠ some 0) :
    significant (List.replicate zeroes (0 : UInt8) ++ digits.map UInt8.ofNat) =
      digits.map UInt8.ofNat := by
  rw [significant, takeWhile_zeros hdigits hhead, List.drop_left]

theorem encodeBase58_zeros (hdigits : ∀ d ∈ digits, d < 256) (hhead : digits.head? ≠ some 0) :
    encodeBase58 (List.replicate zeroes 0 ++ digits.map UInt8.ofNat) =
      base58Text zeroes
        (strip (convert 58 256 (intSize (digits.length * 138 / 100 + 1)).toNat digits)) := by
  have hnumbers : (digits.map UInt8.ofNat).map UInt8.toNat = digits := by
    rw [List.map_map]
    conv_rhs => rw [← List.map_id digits]
    exact List.map_congr_left (toNat_digit hdigits)
  rw [encodeBase58_eq, takeWhile_zeros hdigits hhead, significant_zeros hdigits hhead, hnumbers,
    List.length_replicate, List.length_map]

end Zeros

theorem decodeBase58_form {str vch : Bytes} (hroom : HasRoom str)
    (h : decodeBase58 str = some vch) :
    ∃ zeroes digits size, (∀ d ∈ digits, d < 58) ∧ digits.head? ≠ some 0 ∧
      Nat.ofDigits 58 digits.reverse < 256 ^ size ∧
      vch = List.replicate zeroes 0 ++ (strip (convert 256 58 size digits)).map UInt8.ofNat ∧
      trim str = base58Text zeroes digits := by
  have hones := List.takeWhile_append_dropWhile (p := fun c => c == pszBase58.at 0)
    (l := str.dropWhile isSpace)
  have hfirst := List.head?_dropWhile_not (fun c => c == pszBase58.at 0) (str.dropWhile isSpace)
  have hone : ∀ c ∈ (str.dropWhile isSpace).takeWhile (fun c => c == pszBase58.at 0),
      c = pszBase58.at 0 := by
    intro c hc
    have heq := List.mem_takeWhile_imp hc
    exact beq_iff_eq.1 heq
  rw [decodeBase58] at h
  dsimp only at h
  rw [HasRoom, bodyOf] at hroom
  generalize hzeroes : (str.dropWhile isSpace).takeWhile (fun c => c == pszBase58.at 0) = ones
    at h hones hone hroom
  have hdropped : (str.dropWhile isSpace).drop ones.length =
      (str.dropWhile isSpace).dropWhile (fun c => c == pszBase58.at 0) := by
    conv_lhs =>
      arg 2
      rw [← hones]
    exact List.drop_left
  rw [hdropped] at h hroom
  generalize (str.dropWhile isSpace).dropWhile (fun c => c == pszBase58.at 0) = rest
    at h hones hfirst hroom
  obtain ⟨chars, tail, hsplit, hchars, hdrop, hnospace, -⟩ := split_blank rest
  rw [hchars, hdrop] at h
  rw [hchars] at hroom
  split at h
  · rename_i hall
    split at h
    · rename_i htail
      obtain rfl := Option.some.inj h
      have hcontains := List.all_eq_true.1 hall
      have hdigits : ∀ d ∈ chars.map (fun c => pszBase58.idxOf c), d < 58 := by
        intro d hd
        obtain ⟨c, hc, rfl⟩ := List.mem_map.1 hd
        exact idxOf_lt_pszBase58 (hcontains c hc)
      refine ⟨ones.length, chars.map fun c => pszBase58.idxOf c,
        (intSize (rest.length * 733 / 1000 + 1)).toNat, hdigits, ?_, hroom, ?_, ?_⟩
      · -- A first digit zero would be one more of the ones.
        rw [List.head?_map]
        intro hzero
        obtain ⟨c, hc, hidx⟩ := Option.map_eq_some_iff.1 hzero
        have hmem := List.mem_of_mem_head? (Option.mem_def.2 hc)
        have hback := pszBase58_at_idxOf (hcontains c hmem)
        rw [hidx] at hback
        rw [hsplit, List.head?_append, hc, Option.some_or, ← hback] at hfirst
        exact absurd hfirst (by simp)
      · rw [convert, List.foldl_map]
        simp only [base256Step_eq]
        rfl
      · have htext : (chars.map fun c => pszBase58.idxOf c).map (fun d => pszBase58.at d) =
            chars := by
          rw [List.map_map]
          conv_rhs => rw [← List.map_id chars]
          refine List.map_congr_left fun c hc => ?_
          rw [Function.comp_apply]
          exact pszBase58_at_idxOf (hcontains c hc)
        have hvisible : ∀ c ∈ ones ++ chars, isSpace c = false := by
          intro c hc
          rcases List.mem_append.1 hc with hc | hc
          · rw [hone c hc]
            exact isSpace_pszBase58 (by omega)
          · exact hnospace c hc
        rw [base58Text, htext, ← List.eq_replicate_of_mem hone]
        refine trim_eq ?_ hvisible htail
        rw [List.append_assoc, ← hsplit, hones]
    · cases h
  · cases h

/-- **What `DecodeBase58` accepts is the encoding, between blanks.** -/
theorem encodeBase58_decode {str vch : Bytes} (hroom : HasRoom str)
    (h : decodeBase58 str = some vch) (hfits : TextFits vch) : encodeBase58 vch = trim str := by
  obtain ⟨zeroes, digits, size, hdigits, hhead, hnumber, rfl, htrim⟩ := decodeBase58_form hroom h
  have hbytes : ∀ d ∈ strip (convert 256 58 size digits), d < 256 :=
    lt_of_mem_strip fun d hd => lt_of_mem_convert (by omega) hd
  have hroom' := ofDigits_lt_of_length (by omega) (room_base58 _) hbytes le_rfl
  rw [ofDigits_strip_convert (by omega) hnumber] at hroom'
  have hback := strip_convert_convert (by omega) (by omega) hdigits hhead hnumber hroom'
  rw [TextFits, significant_zeros hbytes strip_head_ne_zero, List.length_map] at hfits
  rw [encodeBase58_zeros hbytes strip_head_ne_zero, toNat_intSize hfits, hback, htrim]

/-! ## Addresses -/

section Addresses

variable {env : Env}

/-- The versions of key and script addresses of the main, the test and the regression network. -/
def base58Prefixes : List (Bytes × Bytes) := [([68], [125]), ([111], [196]), ([111], [196])]

theorem decodeBase58_of_check {str vch : Bytes} (h : decodeBase58Check env str = some vch) :
    decodeBase58 str = some (vch ++ (env.Hash vch).take 4) := by
  rw [decodeBase58Check] at h
  split at h
  · cases h
  · rename_i full hfull
    split at h
    · cases h
    · dsimp only at h
      split at h
      · rename_i hsum
        obtain rfl := Option.some.inj h
        rw [hfull, hsum, List.take_append_drop]
      · cases h

theorem base58Prefixes_spec {pubkey script : Bytes} (h : (pubkey, script) ∈ base58Prefixes) :
    pubkey.length = 1 ∧ script.length = 1 ∧ script ≠ pubkey := by
  have hall : ∀ p ∈ base58Prefixes, p.1.length = 1 ∧ p.2.length = 1 ∧ p.2 ≠ p.1 := by decide
  exact hall (pubkey, script) h

theorem decodeDestination_encodeScript {id : Bytes}
    (hash : 4 ≤ (env.Hash (env.params.scriptAddressPrefix ++ id)).length)
    (hversion : env.params.scriptAddressPrefix.length = 1)
    (hother : env.params.scriptAddressPrefix ≠ env.params.pubkeyAddressPrefix)
    (hid : id.length = 20) :
    decodeDestination env (encodeDestination env (.CScriptID id)) = .CScriptID id := by
  have hlength : (env.params.scriptAddressPrefix ++ id).length = 21 := by
    rw [List.length_append, hversion, hid]
  have htake : (env.params.scriptAddressPrefix ++ id).take 1 = env.params.scriptAddressPrefix := by
    rw [← hversion, List.take_left]
  have hdrop : (env.params.scriptAddressPrefix ++ id).drop 1 = id := by
    rw [← hversion, List.drop_left]
  rw [encodeDestination, decodeDestination,
    decodeBase58Check_encode hash (textFits_destination hversion hid)]
  simp only [hlength, htake, hdrop, ne_eq, not_true_eq_false, if_false, if_true, if_neg hother]

/-- **A valid address is the text of its destination, between blanks.** -/
theorem encodeDestination_decode {str : Bytes}
    (hroom : (decodeBase58 str).isSome = true → HasRoom str)
    (h : decodeDestination env str ≠ .CNoDestination) :
    encodeDestination env (decodeDestination env str) = trim str := by
  rw [decodeDestination] at h ⊢
  split at h
  · exact absurd rfl h
  · rename_i vch hvch
    split at h
    · exact absurd rfl h
    · rename_i hlength
      have hfull := decodeBase58_of_check hvch
      have hfits : TextFits (vch ++ (env.Hash vch).take 4) := by
        apply textFits_of_length
        rw [List.length_append, List.length_take]
        omega
      have hback : encodeBase58Check env vch = trim str :=
        encodeBase58_decode (hroom (hfull ▸ rfl)) hfull hfits
      rw [if_neg hlength]
      split at h
      · rename_i hpubkey
        rw [if_pos hpubkey, encodeDestination, ← hpubkey, List.take_append_drop, hback]
      · rename_i hpubkey
        split at h
        · rename_i hscript
          rw [if_neg hpubkey, if_pos hscript, encodeDestination, ← hscript,
            List.take_append_drop, hback]
        · exact absurd rfl h

/-- A key hash or a script hash, a `uint160`. -/
inductive CTxDestination.IsHash : CTxDestination → Prop
  | key {id : Bytes} : id.length = 20 → IsHash (.CKeyID id)
  | script {id : Bytes} : id.length = 20 → IsHash (.CScriptID id)

theorem isHash_decodeDestination {str : Bytes} (h : decodeDestination env str ≠ .CNoDestination) :
    (decodeDestination env str).IsHash := by
  rw [decodeDestination] at h ⊢
  split at h
  · exact absurd rfl h
  · rename_i vch hvch
    split at h
    · exact absurd rfl h
    · rename_i hlength
      rw [if_neg hlength]
      have hid : (vch.drop 1).length = 20 := by
        rw [List.length_drop]
        omega
      split at h
      · rename_i hpubkey
        rw [if_pos hpubkey]
        exact .key hid
      · rename_i hpubkey
        split at h
        · rename_i hscript
          rw [if_neg hpubkey, if_pos hscript]
          exact .script hid
        · exact absurd rfl h

theorem encodeBase58_ne_zero (vch : Bytes) : ∀ c ∈ encodeBase58 vch, c ≠ 0 := by
  have halphabet : ∀ d < 58, pszBase58.at d ≠ 0 := by
    rw [pszBase58_eq]
    decide
  intro c hc
  rw [encodeBase58_eq, base58Text] at hc
  rcases List.mem_append.1 hc with hc | hc
  · rw [(List.mem_replicate.1 hc).2]
    exact halphabet 0 (by omega)
  · obtain ⟨d, hd, rfl⟩ := List.mem_map.1 hc
    exact halphabet d (lt_of_mem_strip (fun d hd => lt_of_mem_convert (by omega) hd) d hd)

theorem cStr_eq {str : Bytes} (h : ∀ c ∈ str, c ≠ 0) : cStr str = str := by
  rw [cStr, List.takeWhile_eq_self_iff]
  intro c hc
  rw [bne_iff_ne]
  exact h c hc

theorem encodeBase58Loops_iff {vch text : Bytes} (h : TextFits vch → encodeBase58 vch = text) :
    encodeBase58Loops vch = some text ↔ TextFits vch := by
  constructor
  · intro hsome
    by_contra hlong
    rw [(encodeBase58Loops_eq vch).2 hlong] at hsome
    cases hsome
  · intro hfits
    rw [(encodeBase58Loops_eq vch).1 hfits, h hfits]

theorem decodeBase58Loops_encode {vch : Bytes} (hfits : TextFits vch) :
    decodeBase58Loops (encodeBase58 vch) = some (some vch) := by
  obtain ⟨digits, htext, hdigits, hhead, hlength⟩ := encodeBase58_digits hfits
  have hrun := decodeBase58Loops_eq (encodeBase58 vch)
  rw [cStr_eq (encodeBase58_ne_zero vch)] at hrun
  rcases hrun with ⟨-, hlong⟩ | ⟨hrun, -⟩
  · rw [htext, bodyOf_base58Text hdigits hhead, List.length_map] at hlong
    omega
  · rw [hrun, decodeBase58_encode hfits]

end Addresses

/-! ### An address between blanks -/

def onesAddress : Bytes := ascii "UN5KqL7LLPNizx6rs8moKt1SnzSRncTKKH"

theorem onesAddress_eq : onesAddress =
    [85, 78, 53, 75, 113, 76, 55, 76, 76, 80, 78, 105, 122, 120, 54, 114, 115, 56, 109, 111, 75,
      116, 49, 83, 110, 122, 83, 82, 110, 99, 84, 75, 75, 72] := by
  refine (ascii_ofList _).trans ?_
  rfl

/-- The main network, with the double SHA-256 of that key hash behind its version. -/
def onesEnv : Env where
  Hash := fun data =>
    if data = 68 :: List.replicate 20 1 then
      [180, 234, 234, 140, 95, 100, 1, 15, 233, 217, 165, 205, 119, 43, 180, 253, 155, 235, 11, 145,
        186, 120, 241, 4, 73, 53, 86, 0, 211, 58, 87, 160]
    else List.replicate 32 0
  Hash160 := fun _ => []
  params := CMainParams
  dep := .all
  fReindex := false
  uninitHeight := fun _ _ => 0

theorem hash_onesEnv (data : Bytes) : (onesEnv.Hash data).length = 32 := by
  simp only [onesEnv]
  split
  · rfl
  · exact List.length_replicate

/-- The size is `2 ^ 31`, which is negative as an `int`. -/
def longBytes : Bytes := List.replicate 1556147571 1

end UnemployCoin
