import UnemployCoin.Lib.BitGroups
import UnemployCoin.Snapshots
import Mathlib.Data.Fin.VecNotation
import Mathlib.Data.List.TakeWhile
import Mathlib.Tactic.FinCases
/-!
# Mnemonic phrases

A wallet is backed up as a phrase of words (`wallet/bip39.cpp`).  `FromData` writes an entropy and
the first bits of its digest in groups of eleven bits, each as a word of one of eight lists;
`Check` reads the words back and compares the bits, in a language that it is told or detects
itself.
-/

namespace UnemployCoin

open BitGroups

/-! ## The source -/

/-- A list of words: 2048 different ones, none of them empty or with a blank. -/
structure WordList where
  words : List Bytes
  length_words : words.length = 2048
  nodup : words.Nodup
  isWord : ∀ word ∈ words, word ≠ [] ∧ 32 ∉ word

/-- The digest and the eight lists, English, Spanish, French, Japanese, both Chinese ones, Korean
and Italian. -/
structure Bip39Env where
  CSHA256 : Bytes → Bytes
  length_digest : ∀ data, (CSHA256 data).length = 32
  wordlist : Fin 8 → WordList

structure LanguageDetails where
  minimumWordsCheckLang : ℕ
  wordlist : WordList

def NUM_LANGUAGES_BIP39_SUPPORTED : ℤ := 8
def DEFAULT_LANG : ℕ := 0
def NOT_LANG_DEFINED : ℤ := -1

namespace CMnemonic

variable (env : Bip39Env)

def getLanguagesDetails : List LanguageDetails :=
  [⟨12, env.wordlist 0⟩, ⟨3, env.wordlist 1⟩, ⟨12, env.wordlist 2⟩, ⟨3, env.wordlist 3⟩,
    ⟨12, env.wordlist 4⟩, ⟨12, env.wordlist 5⟩, ⟨3, env.wordlist 6⟩, ⟨3, env.wordlist 7⟩]

/-- `GetLanguageWords`; `none` behind the end of the array, where its test lets language 8 read. -/
def getLanguageWords (lang : ℤ) : Option WordList :=
  if lang ≥ 0 ∧ lang ≤ NUM_LANGUAGES_BIP39_SUPPORTED then
    (getLanguagesDetails env)[lang.toNat]?.map LanguageDetails.wordlist
  else (getLanguagesDetails env)[DEFAULT_LANG]?.map LanguageDetails.wordlist

/-- The index of word `i` in the bits of an entropy and its checksum. -/
def wordIndex (bits : Bytes) (i : ℕ) : ℕ := readNumber (fun j => bitAt bits (i * 11 + j)) 11

/-- `FromData`; `none` when it reads out of range. -/
def fromData (data : Bytes) (len : ℕ) (languageSelected : ℤ) : Option Bytes :=
  if len % 4 ≠ 0 ∨ len < 16 ∨ len > 32 then some []
  else if data.length < len then none
  else do
    let checksum := env.CSHA256 (data.take len)
    let bits := data.take len ++ [checksum.at 0]
    let mlen := len * 3 / 4
    let wordlist ← getLanguageWords env languageSelected
    return [32].intercalate
      ((List.range mlen).map fun i => wordlist.words.getD (wordIndex bits i) [])

/-- `Generate`, with the random bytes that it draws. -/
def generate (data : Bytes) (strength : ℤ) (languageSelected : ℤ) : Option Bytes :=
  if strength % 32 ≠ 0 ∨ strength < 128 ∨ strength > 256 then some []
  else fromData env data (strength / 8).toNat languageSelected

/-- The words that the loops read: each up to a blank, which is skipped. -/
def readWords : ℕ → Bytes → List Bytes
  | 0, _ => []
  | _ + 1, [] => []
  | n + 1, c :: mnemonic =>
    (c :: mnemonic).takeWhile (fun c => c != 32) ::
      readWords n (((c :: mnemonic).dropWhile fun c => c != 32).drop 1)

def mnemonicWords (mnemonic : Bytes) : List Bytes := readWords mnemonic.length mnemonic

/-- Writing the eleven bits of an index; `none` where it would write behind the end. -/
def writeIndex (nWordIndex : ℕ) (s : Bytes × ℕ) : Option (Bytes × ℕ) :=
  (List.range 11).foldlM (fun s ki =>
    if nWordIndex.testBit (10 - ki) then
      if s.2 / 8 < s.1.length then some (orBit s.1 s.2, s.2 + 1) else none
    else some (s.1, s.2 + 1)) s

/-- The loop of `Check` over the words: the bits and their number, and `some none` when a word is
not found. -/
def writeWords (wordlist : List Bytes) : List Bytes → Bytes × ℕ → Option (Option (Bytes × ℕ))
  | [], s => some (some s)
  | word :: words, s =>
    match wordlist.idxOf? word with
    | none => some none
    | some nWordIndex =>
      match writeIndex nWordIndex s with
      | none => none
      | some s => writeWords wordlist words s

/-- What `Check` compares at the end, by the number of words. -/
def checkBits (nWordCount : ℕ) (bits : Bytes) : Bool :=
  let bits := bits.set 32 (bits.at (nWordCount * 4 / 3))
  let digest := env.CSHA256 (bits.take (nWordCount * 4 / 3))
  let bits := digest ++ bits.drop 32
  if nWordCount = 12 then bits.at 0 &&& 0xF0 == bits.at 32 &&& 0xF0
  else if nWordCount = 18 then bits.at 0 &&& 0xFC == bits.at 32 &&& 0xFC
  else if nWordCount = 24 then bits.at 0 == bits.at 32
  else false

/-- One word of `DetectLanguageSeed`: how many words are found, and whether these suffice. -/
def countWord (wordlist : List Bytes) (required : ℕ) (word : Bytes) (words_founds : ℕ) :
    ℕ × Bool :=
  wordlist.foldl (fun s w =>
    let words_founds := if w == word then s.1 + 1 else s.1
    (words_founds, s.2 || words_founds == required)) (words_founds, false)

/-- The loop of `DetectLanguageSeed` over the words for one language. -/
def detectWords (wordlist : List Bytes) (required : ℕ) : List Bytes → ℕ → ℕ → Bool
  | [], _, _ => false
  | word :: words, words_founds, words_readed =>
    if words_founds < required then
      let (words_founds, detected) := countWord wordlist required word words_founds
      let words_readed := words_readed + 1
      detected || (words_founds == words_readed &&
        detectWords wordlist required words words_founds words_readed)
    else false

def detectLanguageSeed (mnemonic : Bytes) : ℤ :=
  match (getLanguagesDetails env).findIdx? fun details =>
    detectWords details.wordlist.words details.minimumWordsCheckLang (mnemonicWords mnemonic)
      0 0 with
  | some lang => lang
  | none => -1

/-- `Check` once the words are counted and the list is chosen. -/
def checkWords (nWordCount : ℕ) (wordlist : WordList) (mnemonic : Bytes) : Option Bool :=
  match writeWords wordlist.words (mnemonicWords mnemonic) (List.replicate 33 0, 0) with
  | none => none
  | some none => some false
  | some (some (bits, nBitsCount)) =>
    if nBitsCount ≠ nWordCount * 11 then some false else some (checkBits env nWordCount bits)

/-- `Check`; `none` when it reads or writes out of range.  A phrase has fewer than `2 ^ 32`
words, so their counters are numbers. -/
def check (mnemonic : Bytes) (languageSelected : ℤ) : Option Bool :=
  if mnemonic = [] then some false
  else
    let nWordCount := mnemonic.count 32 + 1
    if nWordCount ≠ 12 ∧ nWordCount ≠ 18 ∧ nWordCount ≠ 24 then some false
    else do
      let languageSelected :=
        if languageSelected = NOT_LANG_DEFINED then detectLanguageSeed env mnemonic
        else languageSelected
      let wordlist ← getLanguageWords env languageSelected
      checkWords env nWordCount wordlist mnemonic

/-! ## Words -/

variable {env : Bip39Env} {words : List Bytes}

theorem takeWhile_word {word rest : Bytes} (h : 32 ∉ word) :
    (word ++ rest).takeWhile (fun c => c != 32) = word ++ rest.takeWhile (fun c => c != 32) := by
  refine List.takeWhile_append_of_pos fun c hc => ?_
  rw [bne_iff_ne]
  rintro rfl
  exact h hc

theorem dropWhile_word {word rest : Bytes} (h : 32 ∉ word) :
    (word ++ rest).dropWhile (fun c => c != 32) = rest.dropWhile (fun c => c != 32) := by
  refine List.dropWhile_append_of_pos fun c hc => ?_
  rw [bne_iff_ne]
  rintro rfl
  exact h hc

theorem readWords_append {word rest : Bytes} {n : ℕ} (hne : word ≠ []) (h : 32 ∉ word) :
    readWords (n + 1) (word ++ rest) = (word ++ rest.takeWhile fun c => c != 32) ::
      readWords n ((rest.dropWhile fun c => c != 32).drop 1) := by
  cases word with
  | nil => exact absurd rfl hne
  | cons c word =>
    rw [← takeWhile_word h, ← dropWhile_word h, List.cons_append, readWords]

/-- **The words of a phrase are read back.** -/
theorem readWords_intercalate {n : ℕ} (h : ∀ word ∈ words, word ≠ [] ∧ 32 ∉ word)
    (hn : ([32].intercalate words).length ≤ n) : readWords n ([32].intercalate words) = words := by
  induction words generalizing n with
  | nil =>
    cases n with
    | zero => rfl
    | succ n => rfl
  | cons word words ih =>
    rw [List.forall_mem_cons] at h
    obtain ⟨⟨hne, hword⟩, hrest⟩ := h
    have hpos := List.length_pos_iff.2 hne
    cases words with
    | nil =>
      rw [List.intercalate_singleton] at hn ⊢
      obtain ⟨n, rfl⟩ : ∃ n', n = n' + 1 := ⟨n - 1, by omega⟩
      have happend := @readWords_append word [] n hne hword
      rw [List.append_nil] at happend
      rw [happend]
      cases n with
      | zero => simp [readWords]
      | succ n => simp [readWords]
    | cons word' words =>
      rw [List.intercalate_cons_cons] at hn ⊢
      rw [List.length_append, List.length_append, List.length_singleton] at hn
      obtain ⟨n, rfl⟩ : ∃ n', n = n' + 1 := ⟨n - 1, by omega⟩
      rw [List.append_assoc, readWords_append hne hword, List.singleton_append,
        List.takeWhile_cons_of_neg (by simp), List.dropWhile_cons_of_neg (by simp), List.append_nil,
        List.drop_succ_cons, List.drop_zero, ih hrest (by omega)]

theorem count_intercalate (h : ∀ word ∈ words, word ≠ [] ∧ 32 ∉ word) (hne : words ≠ []) :
    ([32].intercalate words).count 32 + 1 = words.length := by
  induction words with
  | nil => exact absurd rfl hne
  | cons word words ih =>
    rw [List.forall_mem_cons] at h
    have hnone := List.count_eq_zero_of_not_mem h.1.2
    cases words with
    | nil => rw [List.intercalate_singleton, hnone]; rfl
    | cons word' words =>
      have hrest := ih h.2 (List.cons_ne_nil _ _)
      rw [List.intercalate_cons_cons, List.count_append, List.count_append, hnone,
        List.count_singleton_self, List.length_cons]
      omega

theorem intercalate_readWords {phrase : Bytes} {n : ℕ} (hn : phrase.length ≤ n) :
    (readWords n phrase).length ≤ phrase.count 32 + 1 ∧
      ((readWords n phrase).length = phrase.count 32 + 1 →
        [32].intercalate (readWords n phrase) = phrase) := by
  induction n generalizing phrase with
  | zero =>
    obtain rfl := List.length_eq_zero_iff.1 (Nat.le_zero.1 hn)
    exact ⟨Nat.zero_le _, fun h => by cases h⟩
  | succ n ih =>
    cases phrase with
    | nil => exact ⟨Nat.zero_le _, fun h => by cases h⟩
    | cons c phrase =>
      rw [readWords]
      have hsplit := List.takeWhile_append_dropWhile (p := fun c => c != (32 : UInt8))
        (l := c :: phrase)
      have hnone : ((c :: phrase).takeWhile fun c => c != 32).count 32 = 0 := by
        refine List.count_eq_zero_of_not_mem fun hmem => ?_
        have hne := List.mem_takeWhile_imp hmem
        rw [bne_iff_ne] at hne
        exact hne rfl
      generalize (c :: phrase).takeWhile (fun c => c != 32) = word at hsplit hnone ⊢
      cases htail : (c :: phrase).dropWhile (fun c => c != 32) with
      | nil =>
        rw [htail, List.append_nil] at hsplit
        have hread : ∀ n, readWords n [] = [] := fun n => by cases n <;> rfl
        rw [List.drop_nil, hread, ← hsplit, hnone]
        exact ⟨le_rfl, fun _ => List.intercalate_singleton⟩
      | cons d rest =>
        have hd : d = 32 := by
          have hnot := List.head?_dropWhile_not (fun c => c != (32 : UInt8)) (c :: phrase)
          rw [htail] at hnot
          simpa using hnot
        rw [htail, hd] at hsplit
        have hlength := congrArg List.length hsplit
        rw [List.length_append, List.length_cons] at hlength
        obtain ⟨hle, heq⟩ := @ih rest (by omega)
        rw [List.drop_succ_cons, List.drop_zero, ← hsplit, List.count_append, hnone,
          List.count_cons_self, List.length_cons]
        refine ⟨by omega, fun h => ?_⟩
        have hrest := heq (by omega)
        have hwords : readWords n rest ≠ [] := by
          intro hnil
          rw [hnil] at h
          simp only [List.length_nil] at h
          omega
        rw [List.intercalate_cons_of_ne_nil hwords, hrest, List.append_assoc,
          List.singleton_append]

/-! ## Bits -/

variable {indices : List ℕ} {bits : Bytes}

/-- A buffer of 33 bytes that holds the eleven bits of each index, and zeros behind them. -/
structure Written (indices : List ℕ) (bits : Bytes) : Prop where
  length_bits : bits.length = 33
  bit : ∀ k, bitAt bits k =
    (decide (k < 11 * indices.length) && (indices.getD (k / 11) 0).testBit (10 - k % 11))

theorem written_nil : Written [] (List.replicate 33 0) := by
  refine ⟨List.length_replicate, fun k => ?_⟩
  have hzero : ∀ i, (List.replicate 33 (0 : UInt8)).getD i 0 = 0 := by
    intro i
    rw [List.getD_eq_getElem?_getD, List.getElem?_replicate]
    split <;> rfl
  rw [bitAt, hzero, UInt8.toNat_zero, Nat.zero_testBit]
  rfl

theorem writeBits_eq {n m : ℕ} (hm : m + 11 ≤ 264) (hlength : bits.length = 33) {i : ℕ}
    (hi : i ≤ 11) :
    ∃ bits', (List.range i).foldlM (fun (s : Bytes × ℕ) ki =>
        if n.testBit (10 - ki) then
          if s.2 / 8 < s.1.length then some (orBit s.1 s.2, s.2 + 1) else none
        else some (s.1, s.2 + 1)) (bits, m) = some (bits', m + i) ∧ bits'.length = 33 ∧
      ∀ k, bitAt bits' k =
        (bitAt bits k || (decide (m ≤ k ∧ k < m + i) && n.testBit (10 - (k - m)))) := by
  induction i with
  | zero =>
    refine ⟨bits, rfl, hlength, fun k => ?_⟩
    have hnone : ¬ (m ≤ k ∧ k < m + 0) := by omega
    rw [decide_eq_false hnone, Bool.false_and, Bool.or_false]
  | succ i ih =>
    obtain ⟨bits', hrun, hlength', hbits⟩ := ih (by omega)
    have hsplit : ∀ k, decide (m ≤ k ∧ k < m + (i + 1)) =
        (decide (m ≤ k ∧ k < m + i) || decide (k = m + i)) := by
      intro k
      rw [← Bool.decide_or, decide_eq_decide]
      omega
    rw [List.range_succ, List.foldlM_append, hrun, Option.bind_eq_bind, Option.bind_some,
      List.foldlM_cons]
    by_cases hset : n.testBit (10 - i) = true
    · refine ⟨orBit bits' (m + i), ?_, by rw [length_orBit, hlength'], fun k => ?_⟩
      · rw [if_pos hset, if_pos (by dsimp only; omega)]
        rfl
      · rw [bitAt_orBit (by omega), hbits k, hsplit, Bool.or_assoc]
        by_cases hk : k = m + i
        · have hback : m + i - m = i := by omega
          rw [hk, decide_eq_true rfl, hback, hset]
          simp only [Bool.or_true, Bool.and_true]
        · rw [decide_eq_false hk, Bool.or_false, Bool.or_false]
    · refine ⟨bits', ?_, hlength', fun k => ?_⟩
      · rw [if_neg hset]
        rfl
      · rw [hbits k, hsplit]
        by_cases hk : k = m + i
        · have hback : m + i - m = i := by omega
          have hnone : ¬ (m ≤ m + i ∧ m + i < m + i) := by omega
          rw [hk, decide_eq_false hnone, decide_eq_true rfl, Bool.false_and, Bool.false_or,
            Bool.true_and, hback, Bool.eq_false_of_not_eq_true hset]
        · rw [decide_eq_false hk, Bool.or_false]

theorem Written.writeIndex (h : Written indices bits) (hroom : indices.length < 24) (n : ℕ) :
    ∃ bits', writeIndex n (bits, 11 * indices.length) =
        some (bits', 11 * (indices ++ [n]).length) ∧ Written (indices ++ [n]) bits' := by
  obtain ⟨bits', hrun, hlength, hbits⟩ := @writeBits_eq bits n (11 * indices.length) (by omega)
    h.length_bits 11 le_rfl
  have hnext : 11 * (indices ++ [n]).length = 11 * indices.length + 11 := by
    rw [List.length_append, List.length_singleton]
    omega
  refine ⟨bits', by rw [hnext]; exact hrun, hlength, fun k => ?_⟩
  rw [hbits k, h.bit k, hnext]
  by_cases hold : k < 11 * indices.length
  · have hnone : ¬ (11 * indices.length ≤ k ∧ k < 11 * indices.length + 11) := by omega
    have hall : k < 11 * indices.length + 11 := by omega
    rw [decide_eq_true hold, decide_eq_false hnone, decide_eq_true hall, Bool.false_and,
      Bool.or_false, List.getD_eq_getElem?_getD, List.getD_eq_getElem?_getD,
      List.getElem?_append_left (by omega)]
  · rw [decide_eq_false hold, Bool.false_and, Bool.false_or]
    by_cases hnew : k < 11 * indices.length + 11
    · have hin : 11 * indices.length ≤ k ∧ k < 11 * indices.length + 11 := by omega
      have hdiv : k / 11 = indices.length := by omega
      have hmod : k - 11 * indices.length = k % 11 := by omega
      rw [decide_eq_true hin, decide_eq_true hnew, hmod, hdiv, List.getD_eq_getElem?_getD,
        List.getElem?_append_right le_rfl, Nat.sub_self]
      rfl
    · have hout : ¬ (11 * indices.length ≤ k ∧ k < 11 * indices.length + 11) := by omega
      rw [decide_eq_false hout, decide_eq_false hnew, Bool.false_and, Bool.false_and]

variable {wordlist : WordList}

theorem map_words_injective {indices indices' : List ℕ} (h : ∀ n ∈ indices, n < 2048)
    (h' : ∀ n ∈ indices', n < 2048)
    (heq : indices.map (fun n => wordlist.words.getD n []) =
      indices'.map fun n => wordlist.words.getD n []) : indices = indices' := by
  induction indices generalizing indices' with
  | nil => exact (List.map_eq_nil_iff.1 heq.symm).symm
  | cons n indices ih =>
    cases indices' with
    | nil => cases heq
    | cons n' indices' =>
      rw [List.forall_mem_cons] at h h'
      rw [List.map_cons, List.map_cons, List.cons.injEq] at heq
      have hlength := wordlist.length_words
      have hn : n < wordlist.words.length := by omega
      have hn' : n' < wordlist.words.length := by omega
      have hsame : n = n' := by
        have hword := heq.1
        rw [List.getD_eq_getElem?_getD, List.getD_eq_getElem?_getD, List.getElem?_eq_getElem hn,
          List.getElem?_eq_getElem hn', Option.getD_some, Option.getD_some] at hword
        exact (wordlist.nodup.getElem_inj_iff).1 hword
      rw [hsame, ih h.2 h'.2 heq.2]

/-- **The loop over the words**, behind those written so far: a word is not in the list, or all are
written. -/
theorem writeWords_spec (h : Written indices bits) (hroom : indices.length + words.length ≤ 24) :
    (∃ word ∈ words, word ∉ wordlist.words) ∧
        writeWords wordlist.words words (bits, 11 * indices.length) = some none ∨
      ∃ more bits', words = more.map (fun n => wordlist.words.getD n []) ∧ (∀ n ∈ more, n < 2048) ∧
        writeWords wordlist.words words (bits, 11 * indices.length) =
          some (some (bits', 11 * (indices ++ more).length)) ∧ Written (indices ++ more) bits' := by
  induction words generalizing indices bits with
  | nil =>
    refine Or.inr ⟨[], bits, rfl, fun n hn => absurd hn List.not_mem_nil, ?_, ?_⟩
    · rw [List.append_nil]
      rfl
    · rwa [List.append_nil]
  | cons word words ih =>
    rw [List.length_cons] at hroom
    rw [writeWords]
    cases hfind : wordlist.words.idxOf? word with
    | none =>
      refine Or.inl ⟨⟨word, List.mem_cons_self, ?_⟩, rfl⟩
      exact List.idxOf?_eq_none_iff.1 hfind
    | some n =>
      obtain ⟨hn, hword, -⟩ := List.idxOf?_eq_some_iff.1 hfind
      have hless : n < 2048 := by
        rw [← wordlist.length_words]
        exact hn
      obtain ⟨bits', hwrite, hwritten⟩ := h.writeIndex (by omega) n
      dsimp only
      rw [hwrite]
      have hlength : (indices ++ [n]).length = indices.length + 1 := by
        rw [List.length_append, List.length_singleton]
      rcases ih hwritten (by omega) with ⟨⟨other, hother, hnot⟩, hrun⟩ |
        ⟨more, last, hwords, hmore, hrun, hlast⟩
      · exact Or.inl ⟨⟨other, List.mem_cons_of_mem _ hother, hnot⟩, hrun⟩
      · rw [List.append_assoc, List.singleton_append] at hrun hlast
        refine Or.inr ⟨n :: more, last, ?_, ?_, hrun, hlast⟩
        · rw [List.map_cons, List.getD_eq_getElem?_getD, List.getElem?_eq_getElem hn,
            Option.getD_some, hword, hwords]
        · rw [List.forall_mem_cons]
          exact ⟨hless, hmore⟩

/-! ## Entropy and checksum -/

/-- The bytes that `FromData` takes its bits from. -/
def withChecksum (env : Bip39Env) (data : Bytes) : Bytes := data ++ [(env.CSHA256 data).at 0]

def entropyIndices (env : Bip39Env) (data : Bytes) : List ℕ :=
  (List.range (data.length * 3 / 4)).map (wordIndex (withChecksum env data))

def phraseOf (wordlist : WordList) (indices : List ℕ) : Bytes :=
  [32].intercalate (indices.map fun n => wordlist.words.getD n [])

theorem fromData_eq {data : Bytes} {lang : ℤ} (hfour : data.length % 4 = 0)
    (hlow : 16 ≤ data.length) (hhigh : data.length ≤ 32) :
    fromData env data data.length lang =
      (getLanguageWords env lang).map fun wordlist =>
        phraseOf wordlist (entropyIndices env data) := by
  have hsize : ¬ (data.length % 4 ≠ 0 ∨ data.length < 16 ∨ data.length > 32) := by omega
  rw [fromData, if_neg hsize, if_neg (lt_irrefl _), List.take_length]
  cases getLanguageWords env lang with
  | none => rfl
  | some wordlist =>
    rw [Option.bind_eq_bind, Option.bind_some, Option.map_some, phraseOf, entropyIndices,
      List.map_map]
    rfl

theorem entropyIndices_lt (env : Bip39Env) (data : Bytes) :
    ∀ n ∈ entropyIndices env data, n < 2048 := by
  intro n hn
  obtain ⟨i, -, rfl⟩ := List.mem_map.1 hn
  exact readNumber_lt _ 11

theorem length_entropyIndices (env : Bip39Env) (data : Bytes) :
    (entropyIndices env data).length = data.length * 3 / 4 := by
  rw [entropyIndices, List.length_map, List.length_range]

/-- **The words hold the bits**, of the entropy and of the checksum behind it. -/
theorem testBit_entropyIndices {data : Bytes} {k : ℕ} (hk : k < 11 * (data.length * 3 / 4)) :
    ((entropyIndices env data).getD (k / 11) 0).testBit (10 - k % 11) =
      bitAt (withChecksum env data) k := by
  have hi : k / 11 < data.length * 3 / 4 := by omega
  have hsum : k / 11 * 11 + k % 11 = k := Nat.div_add_mod' k 11
  rw [entropyIndices, List.getD_eq_getElem?_getD, List.getElem?_map, List.getElem?_range hi,
    Option.map_some, Option.getD_some, wordIndex, ← Nat.sub_zero 10]
  have hbit := @testBit_readNumber (fun j => bitAt (withChecksum env data) (k / 11 * 11 + j)) 11
    (k % 11) (Nat.mod_lt _ (by omega))
  rw [hsum] at hbit
  exact hbit

theorem entropyIndices_eq {data : Bytes} {indices : List ℕ} (hless : ∀ n ∈ indices, n < 2048)
    (hlength : data.length * 3 / 4 = indices.length)
    (h : ∀ k < 11 * indices.length, bitAt (withChecksum env data) k =
      (indices.getD (k / 11) 0).testBit (10 - k % 11)) : entropyIndices env data = indices := by
  refine List.ext_getElem (by rw [length_entropyIndices, hlength]) fun i hi hi' => ?_
  have hget : indices.getD i 0 = indices[i] := by
    rw [List.getD_eq_getElem?_getD, List.getElem?_eq_getElem hi', Option.getD_some]
  have hbits : ∀ j < 11, bitAt (withChecksum env data) (i * 11 + j) =
      indices[i].testBit (11 - 1 - j) := by
    intro j hj
    have hdiv : (i * 11 + j) / 11 = i := by omega
    have hmod : (i * 11 + j) % 11 = j := by omega
    rw [h _ (by omega), hdiv, hmod, hget]
  simp only [entropyIndices, List.getElem_map, List.getElem_range]
  rw [wordIndex, readNumber_congr hbits,
    readNumber_testBit (hless _ (List.getElem_mem hi'))]

theorem checkBits_iff {n : ℕ} (hlength : bits.length = 33) (hn : n = 12 ∨ n = 18 ∨ n = 24) :
    checkBits env n bits = true ↔ ∀ j < n / 3,
      ((env.CSHA256 (bits.take (n * 4 / 3))).at 0).toNat.testBit (7 - j) =
        (bits.at (n * 4 / 3)).toNat.testBit (7 - j) := by
  have htake : (bits.set 32 (bits.at (n * 4 / 3))).take (n * 4 / 3) = bits.take (n * 4 / 3) := by
    rw [List.take_set_of_le (by omega)]
  have hdigest := env.length_digest (bits.take (n * 4 / 3))
  have hfirst : ∀ rest, (env.CSHA256 (bits.take (n * 4 / 3)) ++ rest : Bytes).at 0 =
      (env.CSHA256 (bits.take (n * 4 / 3))).at 0 := by
    intro rest
    rw [Bytes.at, Bytes.at, List.getD_eq_getElem?_getD, List.getD_eq_getElem?_getD,
      List.getElem?_append_left (by omega)]
  have hlast : (env.CSHA256 (bits.take (n * 4 / 3)) ++
      (bits.set 32 (bits.at (n * 4 / 3))).drop 32 : Bytes).at 32 = bits.at (n * 4 / 3) := by
    conv_lhs => rw [Bytes.at, List.getD_eq_getElem?_getD, List.getElem?_append_right (by omega),
      hdigest, Nat.sub_self, List.getElem?_drop, Nat.add_zero, List.getElem?_set_self (by omega),
      Option.getD_some]
  rw [checkBits, htake, hfirst, hlast]
  rcases hn with rfl | rfl | rfl
  · rw [if_pos rfl, beq_iff_eq, @and_mask_eq_iff _ _ 0xF0 4 (by decide)]
    exact ⟨fun h j hj => h j hj (by omega), fun h j hj _ => h j hj⟩
  · rw [if_neg (by omega), if_pos rfl, beq_iff_eq, @and_mask_eq_iff _ _ 0xFC 6 (by decide)]
    exact ⟨fun h j hj => h j hj (by omega), fun h j hj _ => h j hj⟩
  · rw [if_neg (by omega), if_neg (by omega), if_pos rfl, beq_iff_eq]
    exact ⟨fun h j _ => by rw [h], fun h => eq_of_testBit h⟩

/-- **When the bits are accepted**: when the words are those of an entropy. -/
theorem checkBits_written (h : Written indices bits) (hless : ∀ n ∈ indices, n < 2048)
    (hn : indices.length = 12 ∨ indices.length = 18 ∨ indices.length = 24) :
    checkBits env indices.length bits = true ↔
      ∃ data, data.length = indices.length * 4 / 3 ∧ entropyIndices env data = indices := by
  have hbits : ∀ k < 11 * indices.length, bitAt bits k =
      (indices.getD (k / 11) 0).testBit (10 - k % 11) := by
    intro k hk
    rw [h.bit k, decide_eq_true hk, Bool.true_and]
  have hbyte : ∀ j < 8, (bits.at (indices.length * 4 / 3)).toNat.testBit (7 - j) =
      bitAt bits (8 * (indices.length * 4 / 3) + j) := by
    intro j hj
    have hdiv : (8 * (indices.length * 4 / 3) + j) / 8 = indices.length * 4 / 3 := by omega
    have hmod : (8 * (indices.length * 4 / 3) + j) % 8 = j := by omega
    rw [bitAt, hdiv, hmod, Bytes.at]
  rw [checkBits_iff h.length_bits hn]
  constructor
  · intro hsame
    have hlength : (bits.take (indices.length * 4 / 3)).length = indices.length * 4 / 3 := by
      rw [List.length_take, h.length_bits]
      omega
    refine ⟨bits.take (indices.length * 4 / 3), hlength,
      entropyIndices_eq hless (by omega) fun k hk => ?_⟩
    rw [← hbits k hk, withChecksum]
    rcases Nat.lt_or_ge k (8 * (indices.length * 4 / 3)) with hentropy | hchecksum
    · rw [bitAt_append_left (by omega), bitAt_take hentropy]
    · obtain ⟨j, rfl⟩ := Nat.exists_eq_add_of_le hchecksum
      have hbit := @bitAt_append_singleton (bits.take (indices.length * 4 / 3))
        ((env.CSHA256 (bits.take (indices.length * 4 / 3))).at 0) j (by omega)
      rw [hlength] at hbit
      rw [hbit, hsame j (by omega), hbyte j (by omega)]
  · rintro ⟨data, hlength, hdata⟩ j hj
    have hcount := length_entropyIndices env data
    have hall : ∀ k < 11 * indices.length, bitAt bits k = bitAt (withChecksum env data) k := by
      intro k hk
      rw [hbits k hk, ← hdata, testBit_entropyIndices (by omega)]
    have htake : bits.take (indices.length * 4 / 3) = data := by
      have hwritten := h.length_bits
      refine eq_of_bitAt (by rw [List.length_take]; omega) fun k hk => ?_
      rw [List.length_take] at hk
      rw [bitAt_take (by omega), hall k (by omega), withChecksum, bitAt_append_left (by omega)]
    rw [htake, hbyte j (by omega), hall _ (by omega), withChecksum, ← hlength,
      bitAt_append_singleton (by omega)]

/-! ## Phrases in one language -/

def Accepted (size : ℕ) : Prop := size = 16 ∨ size = 24 ∨ size = 32

theorem isWord_of_indices (wordlist : WordList) (h : ∀ n ∈ indices, n < 2048) :
    ∀ word ∈ indices.map (fun n => wordlist.words.getD n []),
      word ∈ wordlist.words ∧ word ≠ [] ∧ 32 ∉ word := by
  intro word hword
  obtain ⟨n, hn, rfl⟩ := List.mem_map.1 hword
  have hless : n < wordlist.words.length := by
    rw [wordlist.length_words]
    exact h n hn
  have hmem : wordlist.words.getD n [] ∈ wordlist.words := by
    rw [List.getD_eq_getElem?_getD, List.getElem?_eq_getElem hless, Option.getD_some]
    exact List.getElem_mem hless
  exact ⟨hmem, wordlist.isWord _ hmem⟩

theorem words_phraseOf (wordlist : WordList) (h : ∀ n ∈ indices, n < 2048) (hne : indices ≠ []) :
    mnemonicWords (phraseOf wordlist indices) =
        indices.map (fun n => wordlist.words.getD n []) ∧
      (phraseOf wordlist indices).count 32 + 1 = indices.length := by
  have hwords := fun word hword => (isWord_of_indices wordlist h word hword).2
  refine ⟨readWords_intercalate hwords le_rfl, ?_⟩
  rw [phraseOf, count_intercalate hwords fun hnil => hne (List.map_eq_nil_iff.1 hnil),
    List.length_map]

theorem data_of_checkWords {phrase : Bytes} {n : ℕ} (hcount : n = phrase.count 32 + 1)
    (hn : n = 12 ∨ n = 18 ∨ n = 24) (h : checkWords env n wordlist phrase = some true) :
    ∃ data, data.length = n * 4 / 3 ∧
      phraseOf wordlist (entropyIndices env data) = phrase := by
  obtain ⟨hle, hwhole⟩ := @intercalate_readWords phrase phrase.length le_rfl
  rw [checkWords] at h
  rcases @writeWords_spec (mnemonicWords phrase) [] (List.replicate 33 0) wordlist written_nil
    (by rw [List.length_nil, mnemonicWords]; omega) with
    ⟨-, hrun⟩ | ⟨indices, bits, hwords, hless, hrun, hwritten⟩
  · rw [List.length_nil, Nat.mul_zero] at hrun
    rw [hrun] at h
    cases h
  · rw [List.length_nil, Nat.mul_zero, List.nil_append] at hrun
    rw [List.nil_append] at hwritten
    rw [hrun] at h
    dsimp only at h
    split at h
    · cases h
    · rename_i hsame
      have hlength : indices.length = n := by omega
      have hmap := congrArg List.length hwords
      rw [List.length_map, mnemonicWords] at hmap
      rw [← hlength] at h
      obtain ⟨data, hdata, hindices⟩ :=
        (checkBits_written hwritten hless (by omega)).1 (Option.some.inj h)
      refine ⟨data, by omega, ?_⟩
      rw [hindices, phraseOf, ← hwords]
      exact hwhole (by omega)

theorem checkWords_phraseOf {data : Bytes} {n : ℕ} (hn : n = 12 ∨ n = 18 ∨ n = 24)
    (hlength : (entropyIndices env data).length = n) (hdata : data.length = n * 4 / 3) :
    checkWords env n wordlist (phraseOf wordlist (entropyIndices env data)) = some true := by
  have hless := entropyIndices_lt env data
  have hne : entropyIndices env data ≠ [] := by
    intro hnil
    rw [hnil, List.length_nil] at hlength
    omega
  rw [checkWords, (words_phraseOf wordlist hless hne).1]
  rcases @writeWords_spec ((entropyIndices env data).map fun n => wordlist.words.getD n []) []
    (List.replicate 33 0) wordlist written_nil
    (by rw [List.length_nil, List.length_map]; omega) with
    ⟨⟨word, hmem, hnot⟩, -⟩ | ⟨indices, bits, hsame, hless', hrun, hwritten⟩
  · exact absurd (isWord_of_indices wordlist hless word hmem).1 hnot
  · have hindices := map_words_injective hless hless' hsame
    rw [List.length_nil, Nat.mul_zero, List.nil_append] at hrun
    rw [List.nil_append] at hwritten
    have hbits : checkBits env indices.length bits = true :=
      (checkBits_written hwritten hless' (by rw [← hindices]; omega)).2
        ⟨data, by rw [← hindices]; omega, hindices⟩
    have hcount : indices.length = n := by rw [← hindices, hlength]
    rw [hcount] at hbits
    rw [hrun]
    dsimp only
    rw [if_neg (by omega), hbits]

/-- **What is accepted in one language**: the phrases of 16, 24 and 32 bytes. -/
theorem check_iff {phrase : Bytes} {lang : ℤ}
    (hlang : getLanguageWords env (if lang = NOT_LANG_DEFINED then detectLanguageSeed env phrase
      else lang) = some wordlist) :
    check env phrase lang = some true ↔
      ∃ data, Accepted data.length ∧ phraseOf wordlist (entropyIndices env data) = phrase := by
  rw [check]
  dsimp only
  rw [hlang, Option.bind_eq_bind, Option.bind_some]
  constructor
  · intro h
    split at h
    · cases h
    · split at h
      · cases h
      · obtain ⟨data, hdata, hphrase⟩ := data_of_checkWords rfl (by omega) h
        refine ⟨data, ?_, hphrase⟩
        rw [Accepted]
        omega
  · rintro ⟨data, hsize, rfl⟩
    rw [Accepted] at hsize
    have hlength := length_entropyIndices env data
    have hne : entropyIndices env data ≠ [] := by
      intro hnil
      rw [hnil, List.length_nil] at hlength
      omega
    have hcount := (words_phraseOf wordlist (entropyIndices_lt env data) hne).2
    have hphrase : phraseOf wordlist (entropyIndices env data) ≠ [] := by
      intro hnil
      rw [hnil, List.count_nil] at hcount
      omega
    rw [if_neg hphrase, if_neg (by omega)]
    exact checkWords_phraseOf (by omega) (by omega) (by omega)

/-! ## Which language is detected -/

section Detection

variable {required founds : ℕ} {word : Bytes} {list : List Bytes}

/-- The step of `countWord` for one word of the list. -/
abbrev countStep (required : ℕ) (word : Bytes) (s : ℕ × Bool) (w : Bytes) : ℕ × Bool :=
  (if w == word then s.1 + 1 else s.1,
    s.2 || (if w == word then s.1 + 1 else s.1) == required)

theorem countWord_absent (h : word ∉ list) (detected : Bool) :
    list.foldl (countStep required word) (founds, detected) =
      (founds, detected || (!list.isEmpty && founds == required)) := by
  induction list generalizing detected with
  | nil => rw [List.foldl_nil, List.isEmpty_nil, Bool.not_true, Bool.false_and, Bool.or_false]
  | cons w list ih =>
    rw [List.mem_cons, not_or] at h
    have hw : (w == word) = false := beq_eq_false_iff_ne.2 (Ne.symm h.1)
    rw [List.foldl_cons, countStep, hw, if_neg Bool.false_ne_true, ih h.2]
    cases detected <;> cases (founds == required) <;> simp

theorem countWord_present (hnodup : list.Nodup) (h : word ∈ list) (hless : founds < required)
    (detected : Bool) :
    list.foldl (countStep required word) (founds, detected) =
      (founds + 1, detected || founds + 1 == required) := by
  induction list generalizing detected with
  | nil => cases h
  | cons w list ih =>
    rw [List.nodup_cons] at hnodup
    rw [List.foldl_cons, countStep]
    by_cases hw : w = word
    · rw [hw] at hnodup
      rw [hw, beq_self_eq_true, if_pos rfl, countWord_absent hnodup.1]
      cases detected <;> cases (founds + 1 == required) <;> simp
    · have hmem : word ∈ list := (List.mem_cons.1 h).resolve_left (Ne.symm hw)
      have hother : (founds == required) = false := beq_eq_false_iff_ne.2 (by omega)
      rw [beq_eq_false_iff_ne.2 hw, if_neg Bool.false_ne_true, hother, Bool.or_false,
        ih hnodup.2 hmem]

/-- **When a language is detected**: when the first words are all in its list. -/
theorem detectWords_iff (hnodup : list.Nodup) (hless : founds < required) :
    detectWords list required words founds founds = true ↔
      required - founds ≤ words.length ∧ ∀ w ∈ words.take (required - founds), w ∈ list := by
  induction words generalizing founds with
  | nil =>
    rw [detectWords, List.length_nil]
    refine ⟨fun h => absurd h Bool.false_ne_true, fun h => ?_⟩
    omega
  | cons word words ih =>
    have hsucc : required - founds = required - (founds + 1) + 1 := by omega
    have hcount : ∀ s, countWord list required word s =
        list.foldl (countStep required word) (s, false) := fun _ => rfl
    rw [detectWords, if_pos hless, hsucc, List.take_succ_cons, List.forall_mem_cons,
      List.length_cons, hcount]
    by_cases hmem : word ∈ list
    · rw [countWord_present hnodup hmem hless]
      dsimp only
      rw [Bool.false_or, beq_self_eq_true, Bool.true_and]
      by_cases hlast : founds + 1 = required
      · have hnone : required - (founds + 1) = 0 := by omega
        rw [beq_iff_eq.2 hlast, Bool.true_or, hnone, List.take_zero]
        refine ⟨fun _ => ⟨by omega, hmem, fun w hw => absurd hw List.not_mem_nil⟩, fun _ => rfl⟩
      · rw [beq_eq_false_iff_ne.2 hlast, Bool.false_or, ih (by omega)]
        exact ⟨fun h => ⟨by omega, hmem, h.2⟩, fun h => ⟨by omega, h.2.2⟩⟩
    · have hother : (founds == required) = false := beq_eq_false_iff_ne.2 (by omega)
      have hmore : (founds == founds + 1) = false := beq_eq_false_iff_ne.2 (by omega)
      rw [countWord_absent hmem, hother]
      dsimp only
      rw [Bool.and_false, Bool.or_false, hmore, Bool.false_and, Bool.or_false]
      exact ⟨fun h => absurd h Bool.false_ne_true, fun h => absurd h.2.1 hmem⟩

end Detection

/-- `minimumWordsCheckLang`. -/
def minimumWords : Fin 8 → ℕ := ![12, 3, 12, 3, 12, 12, 3, 3]

/-- A phrase begins with words of a language, as many as are required to detect it. -/
def BeginsIn (env : Bip39Env) (phrase : Bytes) (lang : Fin 8) : Prop :=
  minimumWords lang ≤ (mnemonicWords phrase).length ∧
    ∀ word ∈ (mnemonicWords phrase).take (minimumWords lang), word ∈ (env.wordlist lang).words

def TakenFor (env : Bip39Env) (phrase : Bytes) (lang : Fin 8) : Prop :=
  BeginsIn env phrase lang ∧ ∀ lang' < lang, ¬ BeginsIn env phrase lang'

theorem getLanguagesDetails_eq (env : Bip39Env) :
    getLanguagesDetails env = List.ofFn fun lang => ⟨minimumWords lang, env.wordlist lang⟩ := rfl

theorem getLanguageWords_eq (env : Bip39Env) (lang : Fin 8) :
    getLanguageWords env lang = some (env.wordlist lang) := by
  fin_cases lang <;> rfl

theorem detectWords_language (env : Bip39Env) (phrase : Bytes) (lang : Fin 8) :
    detectWords (env.wordlist lang).words (minimumWords lang) (mnemonicWords phrase) 0 0 = true ↔
      BeginsIn env phrase lang := by
  have hpos : 0 < minimumWords lang := by
    fin_cases lang <;> decide
  rw [detectWords_iff (env.wordlist lang).nodup hpos, Nat.sub_zero, BeginsIn]

/-- **The language that a phrase is taken for.** -/
theorem detectLanguageSeed_spec (env : Bip39Env) (phrase : Bytes) :
    (detectLanguageSeed env phrase = NOT_LANG_DEFINED ∧ ∀ lang, ¬ BeginsIn env phrase lang) ∨
      ∃ lang : Fin 8, detectLanguageSeed env phrase = lang ∧ TakenFor env phrase lang := by
  rw [detectLanguageSeed, getLanguagesDetails_eq]
  cases hfind : (List.ofFn fun lang => (⟨minimumWords lang, env.wordlist lang⟩ :
      LanguageDetails)).findIdx? fun details => detectWords details.wordlist.words
        details.minimumWordsCheckLang (mnemonicWords phrase) 0 0 with
  | none =>
    refine Or.inl ⟨rfl, fun lang hbegins => ?_⟩
    have hnone := List.findIdx?_eq_none_iff.1 hfind _ (List.mem_ofFn.2 ⟨lang, rfl⟩)
    rw [(detectWords_language env phrase lang).2 hbegins] at hnone
    cases hnone
  | some i =>
    obtain ⟨hi, hdetected, hfirst⟩ := List.findIdx?_eq_some_iff_getElem.1 hfind
    rw [List.length_ofFn] at hi
    refine Or.inr ⟨⟨i, hi⟩, rfl, ?_, ?_⟩
    · rw [List.getElem_ofFn] at hdetected
      exact (detectWords_language env phrase ⟨i, hi⟩).1 hdetected
    · intro lang hlt hbegins
      have hnot := hfirst lang hlt
      rw [List.getElem_ofFn] at hnot
      exact hnot ((detectWords_language env phrase lang).2 hbegins)

/-! ## Every phrase -/

def IsEntropy (size : ℕ) : Prop := size = 16 ∨ size = 20 ∨ size = 24 ∨ size = 28 ∨ size = 32

def IsPhrase (env : Bip39Env) (lang : Fin 8) (phrase : Bytes) : Prop :=
  ∃ data, Accepted data.length ∧ fromData env data data.length lang = some phrase

variable {data data' phrase : Bytes} {lang : Fin 8}

theorem Accepted.isEntropy {size : ℕ} (h : Accepted size) : IsEntropy size := by
  rw [Accepted] at h
  rw [IsEntropy]
  omega

theorem fromData_entropy (h : IsEntropy data.length) (lang : Fin 8) :
    fromData env data data.length lang =
      some (phraseOf (env.wordlist lang) (entropyIndices env data)) := by
  rw [IsEntropy] at h
  rw [fromData_eq (by omega) (by omega) (by omega), getLanguageWords_eq, Option.map_some]

theorem entropyIndices_ne_nil (h : IsEntropy data.length) : entropyIndices env data ≠ [] := by
  intro hnil
  have hlength := length_entropyIndices env data
  rw [hnil, List.length_nil] at hlength
  rw [IsEntropy] at h
  omega

/-- **Different entropies, different phrases.** -/
theorem fromData_injective (h : IsEntropy data.length) (h' : IsEntropy data'.length)
    (heq : fromData env data data.length lang = fromData env data' data'.length lang) :
    data = data' := by
  rw [fromData_entropy h, fromData_entropy h'] at heq
  have hphrase := Option.some.inj heq
  have hwords := congrArg mnemonicWords hphrase
  rw [(words_phraseOf _ (entropyIndices_lt env data) (entropyIndices_ne_nil h)).1,
    (words_phraseOf _ (entropyIndices_lt env data') (entropyIndices_ne_nil h')).1] at hwords
  have hindices := map_words_injective (entropyIndices_lt env data) (entropyIndices_lt env data')
    hwords
  have hcount := congrArg List.length hindices
  rw [length_entropyIndices, length_entropyIndices] at hcount
  rw [IsEntropy] at h h'
  refine eq_of_bitAt (by omega) fun k hk => ?_
  have hbit := @testBit_entropyIndices env data k (by omega)
  rw [hindices, testBit_entropyIndices (by omega), withChecksum, withChecksum,
    bitAt_append_left (by omega), bitAt_append_left hk] at hbit
  exact hbit.symm

theorem beginsIn_of_fromData (h : IsEntropy data.length)
    (hphrase : fromData env data data.length lang = some phrase) : BeginsIn env phrase lang := by
  rw [fromData_entropy h] at hphrase
  obtain rfl := Option.some.inj hphrase
  have hwords := (words_phraseOf (env.wordlist lang) (entropyIndices_lt env data)
    (entropyIndices_ne_nil h)).1
  have hlength := length_entropyIndices env data
  have hminimum : minimumWords lang ≤ 12 := by
    fin_cases lang <;> decide
  rw [BeginsIn, hwords, List.length_map]
  refine ⟨?_, fun word hword => ?_⟩
  · rw [IsEntropy] at h
    omega
  · exact (isWord_of_indices _ (entropyIndices_lt env data) word (List.mem_of_mem_take hword)).1

theorem isPhrase_iff : IsPhrase env lang phrase ↔
    ∃ data, Accepted data.length ∧
      phraseOf (env.wordlist lang) (entropyIndices env data) = phrase := by
  refine exists_congr fun data => and_congr_right fun h => ?_
  rw [fromData_entropy h.isEntropy, Option.some_inj]

theorem check_language : check env phrase lang = some true ↔ IsPhrase env lang phrase := by
  have hlang : ¬ ((lang : ℕ) : ℤ) = NOT_LANG_DEFINED := by
    rw [NOT_LANG_DEFINED]
    omega
  rw [isPhrase_iff, check_iff]
  rw [if_neg hlang, getLanguageWords_eq]

theorem check_detected : check env phrase NOT_LANG_DEFINED = some true ↔
    ∃ lang, TakenFor env phrase lang ∧ IsPhrase env lang phrase := by
  rcases detectLanguageSeed_spec env phrase with ⟨hnone, hnot⟩ | ⟨lang, hlang, htaken⟩
  · have hdefault : getLanguageWords env (if NOT_LANG_DEFINED = NOT_LANG_DEFINED then
        detectLanguageSeed env phrase else NOT_LANG_DEFINED) = some (env.wordlist 0) := by
      rw [if_pos rfl, hnone]
      rfl
    rw [check_iff hdefault, ← isPhrase_iff]
    constructor
    · rintro ⟨data, hsize, hdata⟩
      exact absurd (beginsIn_of_fromData hsize.isEntropy hdata) (hnot 0)
    · rintro ⟨lang, htaken, -⟩
      exact absurd htaken.1 (hnot lang)
  · have hdetected : getLanguageWords env (if NOT_LANG_DEFINED = NOT_LANG_DEFINED then
        detectLanguageSeed env phrase else NOT_LANG_DEFINED) = some (env.wordlist lang) := by
      rw [if_pos rfl, hlang, getLanguageWords_eq]
    rw [check_iff hdetected, ← isPhrase_iff]
    constructor
    · exact fun h => ⟨lang, htaken, h⟩
    · rintro ⟨lang', htaken', h⟩
      rcases lt_trichotomy lang' lang with hlt | rfl | hgt
      · exact absurd htaken'.1 (htaken.2 lang' hlt)
      · exact h
      · exact absurd htaken.1 (htaken'.2 lang hgt)

theorem accepted_of_isPhrase {lang' : Fin 8} (h : IsEntropy data.length)
    (hphrase : fromData env data data.length lang = some phrase)
    (haccepted : IsPhrase env lang' phrase) : Accepted data.length := by
  obtain ⟨data', hsize, hdata⟩ := haccepted
  rw [fromData_entropy h] at hphrase
  rw [fromData_entropy hsize.isEntropy] at hdata
  have hcount := (words_phraseOf (env.wordlist lang) (entropyIndices_lt env data)
    (entropyIndices_ne_nil h)).2
  have hcount' := (words_phraseOf (env.wordlist lang') (entropyIndices_lt env data')
    (entropyIndices_ne_nil hsize.isEntropy)).2
  rw [Option.some.inj hphrase, length_entropyIndices] at hcount
  rw [Option.some.inj hdata, length_entropyIndices] at hcount'
  rw [Accepted] at hsize ⊢
  rw [IsEntropy] at h
  omega

/-- **When the phrase of an entropy is accepted**, both in its language and in the one that is
detected. -/
theorem check_fromData_iff (h : IsEntropy data.length)
    (hphrase : fromData env data data.length lang = some phrase) :
    (check env phrase lang = some true ∧ check env phrase NOT_LANG_DEFINED = some true) ↔
      Accepted data.length ∧ ∃ detected, TakenFor env phrase detected ∧
        (detected = lang ∨ IsPhrase env detected phrase) := by
  rw [check_language, check_detected]
  constructor
  · rintro ⟨htold, detected, htaken, hdetected⟩
    exact ⟨accepted_of_isPhrase h hphrase htold, detected, htaken, Or.inr hdetected⟩
  · rintro ⟨hsize, detected, htaken, hlang⟩
    have htold : IsPhrase env lang phrase := ⟨data, hsize, hphrase⟩
    refine ⟨htold, detected, htaken, ?_⟩
    rcases hlang with rfl | hdetected
    · exact htold
    · exact hdetected

/-- **Mnemonic phrases.**  The phrase of every entropy is accepted exactly where it has 16, 24 or 32
bytes, and the language that the phrase is taken for is its own or one in which it is a phrase as
well; different entropies have different phrases; and nothing but phrases is accepted. -/
theorem mnemonic_exact (env : Bip39Env) :
    (∀ (data : Bytes) (lang : Fin 8), IsEntropy data.length →
      ∃ phrase, fromData env data data.length lang = some phrase ∧
        ((check env phrase lang = some true ∧ check env phrase NOT_LANG_DEFINED = some true) ↔
          Accepted data.length ∧ ∃ detected, TakenFor env phrase detected ∧
            (detected = lang ∨ IsPhrase env detected phrase))) ∧
    (∀ (data data' : Bytes) (lang : Fin 8), IsEntropy data.length → IsEntropy data'.length →
      fromData env data data.length lang = fromData env data' data'.length lang → data = data') ∧
    (∀ (phrase : Bytes) (lang : Fin 8),
      check env phrase lang = some true ↔ IsPhrase env lang phrase) ∧
    ∀ phrase : Bytes,
      (check env phrase NOT_LANG_DEFINED = some true ↔ ∃ (data : Bytes) (lang : Fin 8),
        IsEntropy data.length ∧ fromData env data data.length lang = some phrase) ↔
      ∀ (data : Bytes) (lang : Fin 8), IsEntropy data.length →
        fromData env data data.length lang = some phrase →
          Accepted data.length ∧ ∃ detected, TakenFor env phrase detected ∧
            (detected = lang ∨ IsPhrase env detected phrase) := by
  refine ⟨fun data lang h => ⟨_, fromData_entropy h lang,
    check_fromData_iff h (fromData_entropy h lang)⟩, fun data data' lang => fromData_injective,
    fun phrase lang => check_language, fun phrase => ?_⟩
  constructor
  · intro h data lang hsize hphrase
    have haccepted := h.2 ⟨data, lang, hsize, hphrase⟩
    obtain ⟨detected, htaken, hdetected⟩ := check_detected.1 haccepted
    exact ⟨accepted_of_isPhrase hsize hphrase hdetected, detected, htaken, Or.inr hdetected⟩
  · intro h
    constructor
    · intro haccepted
      obtain ⟨lang, -, data, hsize, hphrase⟩ := check_detected.1 haccepted
      exact ⟨data, lang, hsize.isEntropy, hphrase⟩
    · rintro ⟨data, lang, hsize, hphrase⟩
      exact ((check_fromData_iff hsize hphrase).2 (h data lang hsize hphrase)).2

def numerals : WordList where
  words := (List.range 2048).map decimal
  length_words := by rw [List.length_map, List.length_range]
  nodup := List.nodup_range.map decimal_injective
  isWord := by
    intro word hword
    obtain ⟨n, -, rfl⟩ := List.mem_map.1 hword
    refine ⟨decimal_ne_nil n, fun hblank => ?_⟩
    exact absurd (isDigit_decimal n 32 hblank) (by decide)

/-- Numerals in every language, and the digest of twenty zero bytes. -/
def numeralEnv : Bip39Env where
  CSHA256 := fun data =>
    if data = List.replicate 20 0 then
      [222, 71, 201, 178, 126, 184, 211, 0, 219, 181, 242, 195, 83, 230, 50, 195, 147, 38, 44, 240,
        99, 64, 196, 250, 127, 27, 64, 196, 203, 211, 111, 144]
    else List.replicate 32 0
  length_digest := fun data => by
    split
    · rfl
    · exact List.length_replicate
  wordlist := fun _ => numerals

/-- The fifteen words of twenty zero bytes are refused. -/
theorem twentyBytes_refused : ¬ ∀ (env : Bip39Env) (data : Bytes) (lang : Fin 8),
    IsEntropy data.length → ∃ phrase, fromData env data data.length lang = some phrase ∧
      check env phrase lang = some true ∧ check env phrase NOT_LANG_DEFINED = some true := by
  intro h
  obtain ⟨phrase, hphrase, hcheck⟩ := h numeralEnv (List.replicate 20 0) 0 (Or.inr (Or.inl rfl))
  have hsize := ((check_fromData_iff (Or.inr (Or.inl rfl)) hphrase).1 hcheck).1
  rw [Accepted, List.length_replicate] at hsize
  omega

end CMnemonic

end UnemployCoin
