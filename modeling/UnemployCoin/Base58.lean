import UnemployCoin.Destination
import UnemployCoin.Lib.Radix
import Mathlib.Data.List.Chain
import Mathlib.Data.List.GetD
import Mathlib.Data.List.Nodup
/-!
# Addresses and their text

`EncodeBase58` and `DecodeBase58` convert between radix 256 and radix 58, with one leading `1` for
each leading zero byte.  Decoding an encoded string gives it back, and so does decoding the text
of a destination.
-/

namespace UnemployCoin

open Radix

/-! ## Digits and characters -/

theorem base58Step_eq (digits : List ℕ) (carry : ℕ) :
    base58Step digits carry = mulAdd 58 256 digits carry := by
  induction digits generalizing carry with
  | nil => rfl
  | cons digit digits ih => rw [base58Step, mulAdd, ih]

theorem base256Step_eq (digits : List ℕ) (carry : ℕ) :
    base256Step digits carry = mulAdd 256 58 digits carry := by
  induction digits generalizing carry with
  | nil => rfl
  | cons digit digits ih => rw [base256Step, mulAdd, ih]

theorem pszBase58_eq : pszBase58 =
    [49, 50, 51, 52, 53, 54, 55, 56, 57, 65, 66, 67, 68, 69, 70, 71, 72, 74, 75, 76, 77, 78, 80,
      81, 82, 83, 84, 85, 86, 87, 88, 89, 90, 97, 98, 99, 100, 101, 102, 103, 104, 105, 106, 107,
      109, 110, 111, 112, 113, 114, 115, 116, 117, 118, 119, 120, 121, 122] := by
  refine (ascii_ofList _).trans ?_
  rfl

theorem length_pszBase58 : pszBase58.length = 58 := by
  rw [pszBase58_eq]
  rfl

theorem nodup_pszBase58 : pszBase58.Nodup := by
  have hchain : (pszBase58.map UInt8.toNat).IsChain (· < ·) := by
    rw [pszBase58_eq]
    decide
  have hnodup : (pszBase58.map UInt8.toNat).Nodup :=
    (List.isChain_iff_pairwise.1 hchain).imp Nat.ne_of_lt
  exact List.Nodup.of_map UInt8.toNat hnodup

theorem idxOf_lt_pszBase58 {c : UInt8} (h : pszBase58.contains c = true) :
    pszBase58.idxOf c < 58 := by
  rw [← length_pszBase58]
  exact List.idxOf_lt_length_of_mem (List.contains_iff_mem.1 h)

variable {d : ℕ}

theorem at_pszBase58 (hd : d < 58) :
    ∃ _ : d < pszBase58.length, pszBase58.at d = pszBase58[d] := by
  have hlength : d < pszBase58.length := by rwa [length_pszBase58]
  exact ⟨hlength, List.getD_eq_getElem _ _ hlength⟩

theorem idxOf_pszBase58 (hd : d < 58) : pszBase58.idxOf (pszBase58.at d) = d := by
  obtain ⟨hlength, hat⟩ := at_pszBase58 hd
  rw [hat]
  exact nodup_pszBase58.idxOf_getElem d hlength

theorem at_mem_pszBase58 (hd : d < 58) : pszBase58.at d ∈ pszBase58 := by
  obtain ⟨hlength, hat⟩ := at_pszBase58 hd
  rw [hat]
  exact List.getElem_mem hlength

theorem isSpace_pszBase58 (hd : d < 58) : isSpace (pszBase58.at d) = false := by
  have hall : (pszBase58.all fun c => !isSpace c) = true := by
    rw [pszBase58_eq]
    decide
  simpa using List.all_eq_true.1 hall _ (at_mem_pszBase58 hd)

theorem contains_pszBase58 (hd : d < 58) : pszBase58.contains (pszBase58.at d) = true :=
  List.contains_iff_mem.2 (at_mem_pszBase58 hd)

theorem pszBase58_eq_one (hd : d < 58) (h : pszBase58.at d = pszBase58.at 0) : d = 0 := by
  rw [← idxOf_pszBase58 hd, h, idxOf_pszBase58 (by omega)]

theorem pow_lt_pow_of_ratio {a b p q n : ℕ} (hb : 1 < b) (hq : 0 < q) (h : a ^ q ≤ b ^ p) :
    a ^ n < b ^ (n * p / q + 1) := by
  refine lt_of_pow_lt_pow_left₀ q (Nat.zero_le _) ?_
  have hexp : n * p < (n * p / q + 1) * q := by
    rw [Nat.add_mul, Nat.one_mul]
    have hdiv := Nat.div_add_mod' (n * p) q
    have hmod := Nat.mod_lt (n * p) hq
    omega
  calc (a ^ n) ^ q = (a ^ q) ^ n := by rw [← pow_mul, ← pow_mul, Nat.mul_comm]
    _ ≤ (b ^ p) ^ n := Nat.pow_le_pow_left h n
    _ = b ^ (n * p) := by rw [← pow_mul, Nat.mul_comm]
    _ < b ^ ((n * p / q + 1) * q) := Nat.pow_lt_pow_right hb hexp
    _ = (b ^ (n * p / q + 1)) ^ q := by rw [pow_mul]

theorem room_base58 (n : ℕ) : 256 ^ n < 58 ^ (n * 138 / 100 + 1) := by
  have h : 256 ^ 100 ≤ 58 ^ 138 := by decide +kernel
  exact pow_lt_pow_of_ratio (by omega) (by omega) h

theorem room_base256 (n : ℕ) : 58 ^ n < 256 ^ (n * 733 / 1000 + 1) := by
  have h : 58 ^ 1000 ≤ 256 ^ 733 := by decide +kernel
  exact pow_lt_pow_of_ratio (by omega) (by omega) h

/-! ## The round trip of byte strings -/

def base58Text (zeroes : ℕ) (digits : List ℕ) : Bytes :=
  List.replicate zeroes (pszBase58.at 0) ++ digits.map fun d => pszBase58.at d

def significant (vch : Bytes) : Bytes :=
  vch.drop (vch.takeWhile fun b => b == 0).length

theorem significant_eq (vch : Bytes) : significant vch = vch.dropWhile fun b => b == 0 := by
  conv_lhs =>
    rw [significant]
    arg 2
    rw [← List.takeWhile_append_dropWhile (p := fun b : UInt8 => b == 0) (l := vch)]
  exact List.drop_left

/-- The size of the buffer for the text of some bytes is one of an `int`. -/
def TextFits (vch : Bytes) : Prop := (significant vch).length * 138 / 100 + 1 < 2 ^ 31

theorem intSize_of_lt {n : ℕ} (h : n < 2 ^ 31) : intSize n = n := by
  rw [intSize, Int32.toInt_ofNat', Int32.size, Int.bmod_eq_emod]
  split <;> omega

theorem toNat_intSize {n : ℕ} (h : n < 2 ^ 31) : (intSize n).toNat = n := by
  rw [intSize_of_lt h, Int.toNat_natCast]

theorem textFits_of_length {vch : Bytes} (h : vch.length ≤ 100) : TextFits vch := by
  rw [TextFits, significant, List.length_drop]
  omega

theorem encodeBase58_eq (vch : Bytes) :
    encodeBase58 vch = base58Text (vch.takeWhile fun b => b == 0).length
      (strip (convert 58 256 (intSize ((significant vch).length * 138 / 100 + 1)).toNat
        ((significant vch).map UInt8.toNat))) := by
  have hfold : ∀ size, (significant vch).foldl (fun b58 b => base58Step b58 b.toNat)
      (List.replicate size 0) = convert 58 256 size ((significant vch).map UInt8.toNat) := by
    intro size
    rw [convert, List.foldl_map]
    simp only [base58Step_eq]
  rw [base58Text, ← hfold]
  rfl

theorem takeWhile_replicate_append {α : Type} {p : α → Bool} {n : ℕ} {a : α} {l : List α}
    (ha : p a = true) (hl : l.takeWhile p = []) :
    (List.replicate n a ++ l).takeWhile p = List.replicate n a := by
  induction n with
  | zero => exact hl
  | succ n ih => rw [List.replicate_succ, List.cons_append, List.takeWhile_cons_of_pos ha, ih]

/-- What `DecodeBase58` reads behind blanks and ones. -/
def bodyOf (str : Bytes) : Bytes :=
  (str.dropWhile isSpace).drop
    ((str.dropWhile isSpace).takeWhile fun c => c == pszBase58.at 0).length

section Text

variable {zeroes : ℕ} {digits : List ℕ}

theorem isSpace_base58Text (hdigits : ∀ d ∈ digits, d < 58) :
    ∀ c ∈ base58Text zeroes digits, isSpace c = false := by
  intro c hc
  rcases List.mem_append.1 hc with hc | hc
  · rw [(List.mem_replicate.1 hc).2]
    exact isSpace_pszBase58 (by omega)
  · obtain ⟨d, hd, rfl⟩ := List.mem_map.1 hc
    exact isSpace_pszBase58 (hdigits d hd)

theorem dropWhile_base58Text (hdigits : ∀ d ∈ digits, d < 58) :
    (base58Text zeroes digits).dropWhile isSpace = base58Text zeroes digits := by
  have hspace := @isSpace_base58Text zeroes digits hdigits
  cases htext : base58Text zeroes digits with
  | nil => rfl
  | cons c text =>
    refine List.dropWhile_cons_of_neg ?_
    rw [hspace c (by rw [htext]; exact List.mem_cons_self)]
    exact Bool.false_ne_true

theorem takeWhile_base58Text (hdigits : ∀ d ∈ digits, d < 58) (hhead : digits.head? ≠ some 0) :
    (base58Text zeroes digits).takeWhile (fun c => c == pszBase58.at 0) =
      List.replicate zeroes (pszBase58.at 0) := by
  refine takeWhile_replicate_append (beq_self_eq_true _) ?_
  cases digits with
  | nil => rfl
  | cons d digits =>
    refine List.takeWhile_cons_of_neg ?_
    rw [beq_iff_eq]
    intro hone
    exact hhead (by rw [pszBase58_eq_one (hdigits d List.mem_cons_self) hone]; rfl)

theorem bodyOf_base58Text (hdigits : ∀ d ∈ digits, d < 58) (hhead : digits.head? ≠ some 0) :
    bodyOf (base58Text zeroes digits) = digits.map fun d => pszBase58.at d := by
  rw [bodyOf, dropWhile_base58Text hdigits, takeWhile_base58Text hdigits hhead,
    List.length_replicate, base58Text, List.drop_left' List.length_replicate]

theorem decodeBase58_text (hdigits : ∀ d ∈ digits, d < 58) (hhead : digits.head? ≠ some 0) :
    decodeBase58 (base58Text zeroes digits) = some (List.replicate zeroes 0 ++
      (strip (convert 256 58 (intSize (digits.length * 733 / 1000 + 1)).toNat digits)).map
        UInt8.ofNat) := by
  have hspace := @isSpace_base58Text zeroes digits hdigits
  have hdrop := @dropWhile_base58Text zeroes digits hdigits
  have hones := @takeWhile_base58Text zeroes digits hdigits hhead
  have hrest : (base58Text zeroes digits).drop zeroes = digits.map fun d => pszBase58.at d := by
    rw [base58Text, List.drop_left' List.length_replicate]
  have hall : (digits.map fun d => pszBase58.at d).takeWhile (fun c => !isSpace c) =
      digits.map fun d => pszBase58.at d := by
    rw [List.takeWhile_eq_self_iff]
    intro c hc
    rw [hspace c (List.mem_append_right _ hc)]
    rfl
  have hchars : ((digits.map fun d => pszBase58.at d).all fun c => pszBase58.contains c) =
      true := by
    rw [List.all_map, List.all_eq_true]
    intro d hd
    rw [Function.comp_apply]
    exact contains_pszBase58 (hdigits d hd)
  have hfold : ∀ size, (digits.map fun d => pszBase58.at d).foldl
      (fun b256 c => base256Step b256 (pszBase58.idxOf c)) (List.replicate size 0) =
        convert 256 58 size digits := by
    intro size
    rw [convert, List.foldl_map]
    refine List.foldl_ext _ _ _ fun b256 d hd => ?_
    rw [base256Step_eq, idxOf_pszBase58 (hdigits d hd)]
  have htail : (digits.map fun d => pszBase58.at d).drop digits.length = [] :=
    List.drop_eq_nil_of_le (by rw [List.length_map])
  simp only [decodeBase58, hdrop, hones, List.length_replicate, hrest, hall, hchars, if_true,
    List.length_map, htail, List.all_nil, hfold]
  rfl

end Text

/-- The digits of the text. -/
theorem encodeBase58_digits {vch : Bytes} (hfits : TextFits vch) :
    ∃ digits, encodeBase58 vch = base58Text (vch.takeWhile fun b => b == 0).length digits ∧
      (∀ d ∈ digits, d < 58) ∧ digits.head? ≠ some 0 ∧ digits.length < 2 ^ 31 := by
  refine ⟨_, encodeBase58_eq vch, lt_of_mem_strip fun d hd => lt_of_mem_convert (by omega) hd,
    strip_head_ne_zero, ?_⟩
  rw [TextFits] at hfits
  refine ((List.dropWhile_sublist _).length_le).trans_lt ?_
  rwa [List.length_reverse, length_convert, toNat_intSize hfits]

theorem decodeBase58_encode {vch : Bytes} (hfits : TextFits vch) :
    decodeBase58 (encodeBase58 vch) = some vch := by
  have hsignificant := significant_eq vch
  have hbytes : ∀ d ∈ (significant vch).map UInt8.toNat, d < 256 := by
    intro d hd
    obtain ⟨b, -, rfl⟩ := List.mem_map.1 hd
    exact b.toNat_lt
  have hhead : ((significant vch).map UInt8.toNat).head? ≠ some 0 := by
    rw [List.head?_map]
    intro hzero
    obtain ⟨b, hb, hb0⟩ := Option.map_eq_some_iff.1 hzero
    have hnot := List.head?_dropWhile_not (fun b : UInt8 => b == 0) vch
    rw [← hsignificant, hb] at hnot
    simp only [beq_eq_false_iff_ne, ne_eq] at hnot
    exact hnot (UInt8.toNat_inj.1 hb0)
  have hlength : ((significant vch).map UInt8.toNat).length = (significant vch).length :=
    List.length_map _
  have hroom : Nat.ofDigits 256 ((significant vch).map UInt8.toNat).reverse <
      58 ^ ((significant vch).length * 138 / 100 + 1) := by
    refine lt_trans ?_ (room_base58 _)
    have hlt := Nat.ofDigits_lt_base_pow_length (by omega : 1 < 256)
      (fun d hd => hbytes d (List.mem_reverse.1 hd))
    rwa [List.length_reverse, hlength] at hlt
  -- The digits of the text, without leading zeros.
  generalize hdigits : strip (convert 58 256 ((significant vch).length * 138 / 100 + 1)
    ((significant vch).map UInt8.toNat)) = digits
  have hlt : ∀ d ∈ digits, d < 58 := by
    rw [← hdigits]
    exact lt_of_mem_strip fun d hd => lt_of_mem_convert (by omega) hd
  have hfirst : digits.head? ≠ some 0 := by
    rw [← hdigits]
    exact strip_head_ne_zero
  have hroom' : Nat.ofDigits 256 ((significant vch).map UInt8.toNat).reverse <
      256 ^ (digits.length * 733 / 1000 + 1) := by
    rw [← ofDigits_strip_convert (by omega) hroom, hdigits]
    refine lt_trans ?_ (room_base256 _)
    have hpow := Nat.ofDigits_lt_base_pow_length (by omega : 1 < 58)
      (fun d hd => hlt d (List.mem_reverse.1 hd))
    rwa [List.length_reverse] at hpow
  have hback := strip_convert_convert (by omega) (by omega) hbytes hhead hroom hroom'
  rw [hdigits] at hback
  have hcount : digits.length ≤ (significant vch).length * 138 / 100 + 1 := by
    rw [← hdigits]
    refine ((List.dropWhile_sublist _).length_le).trans ?_
    rw [List.length_reverse, length_convert]
  rw [TextFits] at hfits
  have hsize := toNat_intSize hfits
  have hsize' : (intSize (digits.length * 733 / 1000 + 1)).toNat =
      digits.length * 733 / 1000 + 1 := toNat_intSize (by omega)
  have hzeros : ∀ c ∈ vch.takeWhile fun b => b == 0, c = 0 := by
    intro c hc
    have hzero := List.mem_takeWhile_imp hc
    exact beq_iff_eq.1 hzero
  have hmap : ((significant vch).map UInt8.toNat).map UInt8.ofNat = significant vch := by
    rw [List.map_map]
    exact List.map_id'' (fun b => UInt8.ofNat_toNat) _
  rw [encodeBase58_eq, hsize, hdigits, decodeBase58_text hlt hfirst, hsize', hback, hmap,
    ← List.eq_replicate_of_mem hzeros, hsignificant, List.takeWhile_append_dropWhile]

/-! ## The round trip of destinations -/

section Destinations

variable {env : Env}

theorem decodeBase58Check_encode {vch : Bytes} (hash : 4 ≤ (env.Hash vch).length)
    (hfits : TextFits (vch ++ (env.Hash vch).take 4)) :
    decodeBase58Check env (encodeBase58Check env vch) = some vch := by
  have hsum : ((env.Hash vch).take 4).length = 4 := by
    rw [List.length_take]
    omega
  have hlength : (vch ++ (env.Hash vch).take 4).length = vch.length + 4 := by
    rw [List.length_append, hsum]
  have hsize : vch.length + 4 - 4 = vch.length := by omega
  have hlong : ¬ vch.length + 4 < 4 := by omega
  simp only [decodeBase58Check, encodeBase58Check, decodeBase58_encode hfits, hlength, hsize,
    List.take_left, List.drop_left, if_neg hlong, if_true]

/-- The text of a version, a hash of twenty bytes and four bytes of a sum. -/
theorem textFits_destination {version id sum : Bytes} (hversion : version.length = 1)
    (hid : id.length = 20) : TextFits (version ++ id ++ sum.take 4) := by
  apply textFits_of_length
  rw [List.length_append, List.length_append, List.length_take, hversion, hid]
  omega

theorem decodeDestination_encode {id : Bytes}
    (hash : 4 ≤ (env.Hash (env.params.pubkeyAddressPrefix ++ id)).length)
    (hversion : env.params.pubkeyAddressPrefix.length = 1) (hid : id.length = 20) :
    decodeDestination env (encodeDestination env (.CKeyID id)) = .CKeyID id := by
  have hlength : (env.params.pubkeyAddressPrefix ++ id).length = 21 := by
    rw [List.length_append, hversion, hid]
  have htake : (env.params.pubkeyAddressPrefix ++ id).take 1 = env.params.pubkeyAddressPrefix := by
    rw [← hversion, List.take_left]
  have hdrop : (env.params.pubkeyAddressPrefix ++ id).drop 1 = id := by
    rw [← hversion, List.drop_left]
  rw [encodeDestination, decodeDestination,
    decodeBase58Check_encode hash (textFits_destination hversion hid)]
  simp only [hlength, htake, hdrop, ne_eq, not_true_eq_false, if_false, if_true]

theorem encodeDestination_ne_nil {id : Bytes}
    (hash : 4 ≤ (env.Hash (env.params.pubkeyAddressPrefix ++ id)).length)
    (hversion : env.params.pubkeyAddressPrefix.length = 1) (hid : id.length = 20) :
    encodeDestination env (.CKeyID id) ≠ [] := by
  intro hnil
  have hback := decodeDestination_encode hash hversion hid
  have hempty : decodeDestination env [] = .CNoDestination := rfl
  rw [hnil, hempty] at hback
  exact CTxDestination.noConfusion hback

theorem isPayToScriptHash_of_asset {s : CScript} {t : AssetScriptType}
    (h : s.isAssetScript = some t) : s.isPayToScriptHash = false ∧ 31 < s.length := by
  unfold CScript.isAssetScript at h
  split at h
  · rename_i hlong
    simp only [Bool.and_eq_true, decide_eq_true_eq] at hlong
    refine ⟨?_, hlong.1⟩
    have hne : (s.length == 23) = false := by
      rw [beq_eq_false_iff_ne]
      omega
    rw [CScript.isPayToScriptHash, hne]
    rfl
  · exact absurd h (by simp)

theorem nType_of_asset {s : CScript} {t : AssetScriptType} (h : s.isAssetScript = some t) :
    t.nType = .TX_TRANSFER_ASSET ∨ t.nType = .TX_NEW_ASSET ∨ t.nType = .TX_REISSUE_ASSET := by
  unfold CScript.isAssetScript at h
  split at h
  · split at h
    · exact absurd h (by simp)
    · split at h
      · exact Or.inl (by rw [← Option.some.inj h])
      · split at h
        · exact Or.inr (Or.inl (by rw [← Option.some.inj h]))
        · split at h
          · exact Or.inr (Or.inl (by rw [← Option.some.inj h]))
          · split at h
            · exact Or.inr (Or.inr (by rw [← Option.some.inj h]))
            · exact absurd h (by simp)
  · exact absurd h (by simp)

theorem addressOf_asset {s : CScript} (h : s.isAssetScript.isSome = true) :
    addressOf env s = encodeDestination env (.CKeyID (s.substr 3 20)) ∧
      (s.substr 3 20).length = 20 := by
  obtain ⟨t, ht⟩ := Option.isSome_iff_exists.1 h
  obtain ⟨hscript, hlong⟩ := isPayToScriptHash_of_asset ht
  refine ⟨?_, ?_⟩
  · have hsolver : solver s = some (t.nType, [s.substr 3 20]) := by
      simp only [solver, hscript, ht]
      rfl
    rcases nType_of_asset ht with hkind | hkind | hkind <;>
      simp only [addressOf, extractDestination, hsolver, hkind, Option.getD_some]
  · rw [Bytes.substr, List.length_take, List.length_drop]
    omega

end Destinations

end UnemployCoin
