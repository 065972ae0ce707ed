import UnemployCoin.Tags
import Mathlib.Data.List.Chain
/-!
# The grammar of asset names

`Spells` is the grammar that the rules of `assets/assets.cpp` describe, kind by kind.
-/

namespace UnemployCoin

open Regex

/-! ## Words -/

/-- Characters of a class, no mark at the end and no two marks together. -/
structure IsTail (p : UInt8 → Bool) (s : Bytes) : Prop where
  ne_nil : s ≠ []
  chars : ∀ c ∈ s, p c = true
  last : ∀ c ∈ s.getLast?, punctuation c = false
  single : s.IsChain fun a b => ¬(punctuation a = true ∧ punctuation b = true)

/-- A word does not begin with a mark either. -/
structure IsWord (p : UInt8 → Bool) (s : Bytes) : Prop extends IsTail p s where
  first : ∀ c ∈ s.head?, punctuation c = false

variable {s : Bytes}

theorem regexMatch_doublePunctuation (h : ∀ c ∈ s, anyChar c = true) :
    regexMatch s DOUBLE_PUNCTUATION = false ↔
      s.IsChain fun a b => ¬(punctuation a = true ∧ punctuation b = true) := by
  rw [Bool.eq_false_iff, List.isChain_iff_forall_rel_of_append_cons_cons, DOUBLE_PUNCTUATION, Ne,
    regexMatch_cat]
  constructor
  · rintro hnot a b l₁ l₂ rfl ⟨ha, hb⟩
    refine hnot ⟨l₁, a :: b :: l₂, rfl,
      regexMatch_star_chars.2 fun c hc => h c (List.mem_append_left _ hc),
      regexMatch_cat.2 ⟨[a, b], l₂, rfl, regexMatch_atLeast_chars.2 ⟨Nat.le_refl 2, ?_⟩, ?_⟩⟩
    · exact List.forall_mem_cons.2 ⟨ha, List.forall_mem_singleton.2 hb⟩
    · exact regexMatch_star_chars.2 fun c hc => h c
        (List.mem_append_right _ (List.mem_cons_of_mem _ (List.mem_cons_of_mem _ hc)))
  · rintro hall ⟨u, v, rfl, -, hv⟩
    obtain ⟨marks, w, rfl, hmarks, -⟩ := regexMatch_cat.1 hv
    obtain ⟨hlength, hmarks⟩ := regexMatch_atLeast_chars.1 hmarks
    match marks, hlength, hmarks with
    | a :: b :: marks, _, hmarks =>
      exact hall rfl ⟨hmarks a List.mem_cons_self,
        hmarks b (List.mem_cons_of_mem _ List.mem_cons_self)⟩

variable {c : UInt8}

theorem anyChar_of_nameChar (h : nameChar c = true) : anyChar c = true := by
  rw [anyChar, Bool.not_eq_true', Bool.or_eq_false_iff, beq_eq_false_iff_ne, beq_eq_false_iff_ne]
  constructor <;> (rintro rfl; exact absurd h (by decide))

theorem regexMatch_leadingPunctuation (h : ∀ c ∈ s, anyChar c = true) :
    regexMatch s LEADING_PUNCTUATION = false ↔ ∀ c ∈ s.head?, punctuation c = false := by
  rw [Bool.eq_false_iff, LEADING_PUNCTUATION, Ne, regexMatch_cat]
  cases s with
  | nil =>
    refine iff_of_true ?_ fun c hc => by cases hc
    rintro ⟨u, v, heq, hu, -⟩
    obtain ⟨c, rfl, -⟩ := regexMatch_chars.1 hu
    cases heq
  | cons a s =>
    constructor
    · intro hnot c hc
      obtain rfl := Option.some.inj hc
      rw [Bool.eq_false_iff]
      intro hmark
      exact hnot ⟨[a], s, rfl, regexMatch_chars.2 ⟨a, rfl, hmark⟩,
        regexMatch_star_chars.2 fun c hc => h c (List.mem_cons_of_mem _ hc)⟩
    · rintro hall ⟨u, v, heq, hu, -⟩
      obtain ⟨c, rfl, hc⟩ := regexMatch_chars.1 hu
      obtain ⟨rfl, -⟩ := List.cons.inj heq
      rw [hall a rfl] at hc
      cases hc

theorem regexMatch_trailingPunctuation (h : ∀ c ∈ s, anyChar c = true) :
    regexMatch s TRAILING_PUNCTUATION = false ↔ ∀ c ∈ s.getLast?, punctuation c = false := by
  rw [Bool.eq_false_iff, TRAILING_PUNCTUATION, Ne, regexMatch_cat]
  constructor
  · intro hnot c hc
    rw [Bool.eq_false_iff]
    intro hmark
    obtain ⟨s, rfl⟩ := List.getLast?_eq_some_iff.1 hc
    exact hnot ⟨s, [c], rfl, regexMatch_star_chars.2 fun c hc => h c (List.mem_append_left _ hc),
      regexMatch_chars.2 ⟨c, rfl, hmark⟩⟩
  · rintro hall ⟨u, v, rfl, -, hv⟩
    obtain ⟨c, rfl, hc⟩ := regexMatch_chars.1 hv
    rw [hall c List.getLast?_concat] at hc
    cases hc

theorem isPartValid_iff {r leading : Regex UInt8}
    (h : regexMatch s r = true → ∀ c ∈ s, anyChar c = true) :
    isPartValid r leading s = true ↔ regexMatch s r = true ∧
      (s.IsChain fun a b => ¬(punctuation a = true ∧ punctuation b = true)) ∧
      regexMatch s leading = false ∧ ∀ c ∈ s.getLast?, punctuation c = false := by
  rw [isPartValid]
  simp only [Bool.and_eq_true, Bool.not_eq_true', and_assoc]
  refine and_congr_right fun hr => ?_
  rw [regexMatch_doublePunctuation (h hr), regexMatch_trailingPunctuation (h hr)]

variable {p : UInt8 → Bool} {n : ℕ}

theorem isPartValid_leading {r : Regex UInt8}
    (hclass : ∀ c, p c = true → anyChar c = true)
    (h : regexMatch s r = true ↔ n + 1 ≤ s.length ∧ ∀ c ∈ s, p c = true) :
    isPartValid r LEADING_PUNCTUATION s = true ↔ IsWord p s ∧ n + 1 ≤ s.length := by
  have hany : regexMatch s r = true → ∀ c ∈ s, anyChar c = true :=
    fun hr c hc => hclass c ((h.1 hr).2 c hc)
  rw [isPartValid_iff hany]
  constructor
  · rintro ⟨hr, hsingle, hfirst, hlast⟩
    obtain ⟨hlength, hchars⟩ := h.1 hr
    refine ⟨⟨⟨?_, hchars, hlast, hsingle⟩,
      (regexMatch_leadingPunctuation (hany hr)).1 hfirst⟩, hlength⟩
    rintro rfl
    cases hlength
  · rintro ⟨hword, hlength⟩
    have hr := h.2 ⟨hlength, hword.chars⟩
    exact ⟨hr, hword.single, (regexMatch_leadingPunctuation (hany hr)).2 hword.first, hword.last⟩

variable {name : Bytes} {sign : UInt8}

theorem isPartValid_sign {leading : Regex UInt8}
    (hsign : anyChar sign = true ∧ punctuation sign = false) :
    isPartValid (cat (lit [sign]) (atLeast (n + 1) (chars nameChar))) leading name = true ↔
      ∃ s, name = sign :: s ∧ IsTail nameChar s ∧ n + 1 ≤ s.length ∧
        regexMatch name leading = false := by
  have hshape : regexMatch name (cat (lit [sign]) (atLeast (n + 1) (chars nameChar))) = true ↔
      ∃ s, name = sign :: s ∧ n + 1 ≤ s.length ∧ ∀ c ∈ s, nameChar c = true := by
    rw [regexMatch_cat]
    constructor
    · rintro ⟨u, s, rfl, hu, hs⟩
      rw [regexMatch_lit.1 hu]
      exact ⟨s, rfl, regexMatch_atLeast_chars.1 hs⟩
    · rintro ⟨s, rfl, hs⟩
      exact ⟨[sign], s, rfl, regexMatch_lit.2 rfl, regexMatch_atLeast_chars.2 hs⟩
  rw [isPartValid_iff, hshape]
  · constructor
    · rintro ⟨⟨s, rfl, hlength, hchars⟩, hsingle, hleading, hlast⟩
      have hne : s ≠ [] := by
        rintro rfl
        cases hlength
      rw [List.getLast?_cons_of_ne_nil hne] at hlast
      exact ⟨s, rfl, ⟨hne, hchars, hlast, hsingle.tail⟩, hlength, hleading⟩
    · rintro ⟨s, rfl, hs, hlength, hleading⟩
      refine ⟨⟨s, rfl, hlength, hs.chars⟩, List.isChain_cons.2 ⟨?_, hs.single⟩, hleading, ?_⟩
      · rintro c - ⟨hmark, -⟩
        rw [hsign.2] at hmark
        cases hmark
      · rw [List.getLast?_cons_of_ne_nil hs.ne_nil]
        exact hs.last
  · intro hmatch c hc
    obtain ⟨s, rfl, -, hchars⟩ := hshape.1 hmatch
    rcases List.mem_cons.1 hc with rfl | hc
    · exact hsign.1
    · exact anyChar_of_nameChar (hchars c hc)

/-! ## The grammar -/

def IsReserved (s : Bytes) : Prop := s = ascii "UNEMP" ∨ s = ascii "UNEMPLOYCOIN"

structure IsRootName (s : Bytes) : Prop extends IsWord nameChar s where
  length_ge : 3 ≤ s.length
  not_reserved : ¬IsReserved s

inductive IsPath : AssetType → Bytes → Prop
  | root {s : Bytes} : IsRootName s → IsPath .ROOT s
  | sub {type : AssetType} {p s : Bytes} :
      IsPath type p → IsWord nameChar s → IsPath .SUB (p ++ SUB_NAME_DELIMITER :: s)

/-- `[-A-Za-z0-9@$%&*()[\]{}_.?:]`. -/
def uniqueTagChar (c : UInt8) : Bool :=
  isUpper c || isLower c || isDigit c || (ascii "-@$%&*()[]\x7b\x7d_.?:").contains c

/-- `[A-Za-z0-9_]`. -/
def channelTagChar (c : UInt8) : Bool :=
  isUpper c || isLower c || isDigit c || (ascii "_").contains c

/-- The names of each kind, whatever their length. -/
inductive Spells : AssetType → Bytes → Prop
  | path {type : AssetType} {s : Bytes} : IsPath type s → Spells type s
  | unique {type : AssetType} {p tag : Bytes} : IsPath type p → tag ≠ [] →
      (∀ c ∈ tag, uniqueTagChar c = true) → Spells .UNIQUE (p ++ UNIQUE_TAG_DELIMITER :: tag)
  | msgchannel {type : AssetType} {p tag : Bytes} : IsPath type p → IsWord channelTagChar tag →
      tag.length ≤ MAX_CHANNEL_NAME_LENGTH →
        Spells .MSGCHANNEL (p ++ MSG_CHANNEL_TAG_DELIMITER :: tag)
  | owner {type : AssetType} {p : Bytes} : IsPath type p → Spells .OWNER (p ++ OWNER_TAG)
  | vote {type : AssetType} {p tag : Bytes} : IsPath type p → tag ≠ [] →
      (∀ c ∈ tag, nameChar c = true) → Spells .VOTE (p ++ VOTE_TAG_DELIMITER :: tag)
  | qualifier {s : Bytes} : IsRootName s → Spells .QUALIFIER (QUALIFIER_CHAR :: s)
  | subQualifier {q s : Bytes} : IsRootName q → IsWord nameChar s →
      Spells .SUB_QUALIFIER (QUALIFIER_CHAR :: q ++ SUB_NAME_DELIMITER :: QUALIFIER_CHAR :: s)
  | restricted {s : Bytes} : IsRootName s → Spells .RESTRICTED (RESTRICTED_CHAR :: s)

/-- Assets and sub-assets leave one character for the owner tag. -/
def maxLength : AssetType → ℕ
  | .ROOT | .SUB => MAX_NAME_LENGTH - 1
  | _ => MAX_NAME_LENGTH

/-! ## The parts -/

theorem regexMatch_reserved :
    regexMatch s UNEMPLOYCOIN_NAMES = true ↔
      IsReserved s ∨ ∃ t, s = QUALIFIER_CHAR :: t ∧ IsReserved t := by
  have hsign : ascii "#UNEMP" = QUALIFIER_CHAR :: ascii "UNEMP" ∧
      ascii "#UNEMPLOYCOIN" = QUALIFIER_CHAR :: ascii "UNEMPLOYCOIN" := by decide
  rw [UNEMPLOYCOIN_NAMES, regexMatch_alt, regexMatch_alt, regexMatch_alt, Bool.or_eq_true,
    Bool.or_eq_true, Bool.or_eq_true, regexMatch_lit, regexMatch_lit, regexMatch_lit,
    regexMatch_lit, hsign.1, hsign.2, ← or_assoc]
  refine or_congr Iff.rfl ?_
  constructor
  · rintro (rfl | rfl)
    · exact ⟨_, rfl, .inl rfl⟩
    · exact ⟨_, rfl, .inr rfl⟩
  · rintro ⟨t, rfl, rfl | rfl⟩
    · exact .inl rfl
    · exact .inr rfl

theorem not_regexMatch_reserved :
    regexMatch s UNEMPLOYCOIN_NAMES = false ↔
      ¬(IsReserved s ∨ ∃ t, s = QUALIFIER_CHAR :: t ∧ IsReserved t) := by
  rw [← regexMatch_reserved, Bool.not_eq_true]

theorem isRootNameValid_iff : isRootNameValid s = true ↔ IsRootName s := by
  have hpart := isPartValid_leading (n := 2) (fun _ => anyChar_of_nameChar)
    (@regexMatch_atLeast_chars _ nameChar 3 s)
  rw [isRootNameValid, Bool.and_eq_true, ROOT_NAME_CHARACTERS, hpart, Bool.not_eq_true',
    not_regexMatch_reserved]
  constructor
  · rintro ⟨⟨hword, hlength⟩, hnot⟩
    exact ⟨hword, hlength, fun h => hnot (.inl h)⟩
  · intro h
    refine ⟨⟨h.toIsWord, h.length_ge⟩, ?_⟩
    rintro (hreserved | ⟨t, rfl, -⟩)
    · exact h.not_reserved hreserved
    · exact absurd (h.chars QUALIFIER_CHAR List.mem_cons_self) (by decide)

theorem isSubNameValid_iff : isSubNameValid s = true ↔ IsWord nameChar s := by
  have hpart := isPartValid_leading (n := 0) (fun _ => anyChar_of_nameChar)
    (@regexMatch_atLeast_chars _ nameChar 1 s)
  rw [isSubNameValid, SUB_NAME_CHARACTERS, plus, hpart]
  exact and_iff_left_of_imp fun h => List.length_pos_iff.2 h.ne_nil

theorem anyChar_of_channelTagChar (h : channelTagChar c = true) :
    anyChar c = true := by
  rw [anyChar, Bool.not_eq_true', Bool.or_eq_false_iff, beq_eq_false_iff_ne, beq_eq_false_iff_ne]
  constructor <;> (rintro rfl; exact absurd h (by decide))

theorem isMsgChannelTagValid_iff :
    isMsgChannelTagValid s = true ↔ IsWord channelTagChar s := by
  have hpart := isPartValid_leading (n := 0) (fun _ => anyChar_of_channelTagChar)
    (@regexMatch_atLeast_chars _ channelTagChar 1 s)
  rw [isMsgChannelTagValid, MSG_CHANNEL_TAG_CHARACTERS, plus]
  refine hpart.trans ?_
  exact and_iff_left_of_imp fun h => List.length_pos_iff.2 h.ne_nil

theorem isUniqueTagValid_iff :
    isUniqueTagValid s = true ↔ s ≠ [] ∧ ∀ c ∈ s, uniqueTagChar c = true :=
  regexMatch_plus_chars

theorem isVoteTagValid_iff :
    isVoteTagValid s = true ↔ s ≠ [] ∧ ∀ c ∈ s, nameChar c = true :=
  regexMatch_plus_chars

theorem regexMatch_qualifierLeading (h : ∀ c ∈ s, anyChar c = true) :
    regexMatch (QUALIFIER_CHAR :: s) QUALIFIER_LEADING_PUNCTUATION = false ↔
      ∀ c ∈ s.head?, punctuation c = false := by
  rw [← regexMatch_leadingPunctuation h, Bool.eq_false_iff, Bool.eq_false_iff,
    QUALIFIER_LEADING_PUNCTUATION, LEADING_PUNCTUATION, Ne, Ne, regexMatch_cat, not_iff_not]
  constructor
  · rintro ⟨u, v, heq, hu, hv⟩
    obtain ⟨c, rfl, -⟩ := regexMatch_chars.1 hu
    rw [(List.cons.inj heq).2]
    exact hv
  · exact fun hs => ⟨[QUALIFIER_CHAR], s, rfl, regexMatch_chars.2 ⟨_, rfl, by decide⟩, hs⟩

theorem isQualifierNameValid_iff :
    isQualifierNameValid name = true ↔ ∃ s, name = QUALIFIER_CHAR :: s ∧ IsRootName s := by
  have hlit : ascii "#" = [QUALIFIER_CHAR] := by decide
  rw [isQualifierNameValid, Bool.and_eq_true, QUALIFIER_NAME_CHARACTERS, hlit,
    isPartValid_sign (by decide), Bool.not_eq_true', not_regexMatch_reserved]
  constructor
  · rintro ⟨⟨s, rfl, hs, hlength, hleading⟩, hnot⟩
    have hany : ∀ c ∈ s, anyChar c = true := fun c hc => anyChar_of_nameChar (hs.chars c hc)
    exact ⟨s, rfl, ⟨⟨hs, (regexMatch_qualifierLeading hany).1 hleading⟩, hlength,
      fun h => hnot (.inr ⟨s, rfl, h⟩)⟩⟩
  · rintro ⟨s, rfl, hs⟩
    have hany : ∀ c ∈ s, anyChar c = true := fun c hc => anyChar_of_nameChar (hs.chars c hc)
    refine ⟨⟨s, rfl, hs.toIsTail, hs.length_ge, (regexMatch_qualifierLeading hany).2 hs.first⟩, ?_⟩
    rintro ((heq | heq) | ⟨t, heq, ht⟩)
    · exact absurd (List.cons.inj heq).1 (by decide)
    · exact absurd (List.cons.inj heq).1 (by decide)
    · exact hs.not_reserved ((List.cons.inj heq).2 ▸ ht)

theorem regexMatch_leading_sign (h : punctuation sign = false) :
    regexMatch (sign :: s) LEADING_PUNCTUATION = false := by
  rw [Bool.eq_false_iff, LEADING_PUNCTUATION, Ne, regexMatch_cat]
  rintro ⟨u, v, heq, hu, -⟩
  obtain ⟨c, rfl, hc⟩ := regexMatch_chars.1 hu
  rw [← (List.cons.inj heq).1, h] at hc
  cases hc

theorem isRestrictedNameValid_iff :
    isRestrictedNameValid name = true ↔
      ∃ s, name = RESTRICTED_CHAR :: s ∧ IsTail nameChar s ∧ 3 ≤ s.length := by
  have hlit : ascii "$" = [RESTRICTED_CHAR] := by decide
  rw [isRestrictedNameValid, Bool.and_eq_true, RESTRICTED_NAME_CHARACTERS, hlit,
    isPartValid_sign (by decide), Bool.not_eq_true', not_regexMatch_reserved]
  constructor
  · rintro ⟨⟨s, rfl, hs, hlength, -⟩, -⟩
    exact ⟨s, rfl, hs, hlength⟩
  · rintro ⟨s, rfl, hs, hlength⟩
    refine ⟨⟨s, rfl, hs, hlength, regexMatch_leading_sign (by decide)⟩, ?_⟩
    rintro ((heq | heq) | ⟨t, heq, ht⟩)
    · exact absurd (List.cons.inj heq).1 (by decide)
    · exact absurd (List.cons.inj heq).1 (by decide)
    · exact absurd (List.cons.inj heq).1 (by decide)

theorem isSubQualifierNameValid_iff :
    isSubQualifierNameValid name = true ↔ ∃ s, name = QUALIFIER_CHAR :: s ∧ IsTail nameChar s := by
  have hlit : ascii "#" = [QUALIFIER_CHAR] := by decide
  rw [isSubQualifierNameValid, SUB_QUALIFIER_NAME_CHARACTERS, hlit, plus,
    isPartValid_sign (by decide)]
  constructor
  · rintro ⟨s, rfl, hs, -, -⟩
    exact ⟨s, rfl, hs⟩
  · rintro ⟨s, rfl, hs⟩
    exact ⟨s, rfl, hs, List.length_pos_iff.2 hs.ne_nil, regexMatch_leading_sign (by decide)⟩

/-! ## Paths -/

theorem split_cons_eq (b : UInt8) (s : Bytes) (c : UInt8) :
    Bytes.split (b :: s) c =
      if b == c then [] :: s.split c
      else
        match s.split c with
        | p :: ps => (b :: p) :: ps
        | [] => [[b]] := rfl

theorem split_of_not_mem (h : c ∉ s) : s.split c = [s] := by
  induction s with
  | nil => rfl
  | cons b s ih =>
    rw [List.mem_cons, not_or] at h
    have hb : ¬(b == c) = true := fun heq => h.1 (beq_iff_eq.1 heq).symm
    rw [split_cons_eq, if_neg hb, ih h.2]

theorem split_append {p s : Bytes} (h : c ∉ s) :
    Bytes.split (p ++ c :: s) c = p.split c ++ [s] := by
  induction p with
  | nil =>
    rw [List.nil_append, split_cons_eq, if_pos (beq_self_eq_true c), split_of_not_mem h]
    rfl
  | cons b p ih =>
    rw [List.cons_append, split_cons_eq, split_cons_eq, ih]
    split
    · rfl
    · cases hsplit : Bytes.split p c with
      | nil => exact absurd hsplit (split_ne_nil p c)
      | cons q qs => rfl

theorem exists_last_part (h : c ∈ s) : ∃ p q, s = p ++ c :: q ∧ c ∉ q := by
  obtain ⟨p, q, heq, hnot⟩ := List.eq_append_cons_of_mem (List.mem_reverse.2 h)
  refine ⟨q.reverse, p.reverse, ?_, fun hmem => hnot (List.mem_reverse.1 hmem)⟩
  rw [← List.reverse_reverse s, heq, List.reverse_append, List.reverse_cons, List.append_assoc,
    List.singleton_append]

def pathChar (c : UInt8) : Bool := nameChar c || c == SUB_NAME_DELIMITER

theorem IsTail.not_mem (h : IsTail p s)
    (hc : p c = false) : c ∉ s := by
  intro hmem
  rw [h.chars c hmem] at hc
  cases hc

variable {type : AssetType}

theorem IsPath.chars (h : IsPath type s) :
    ∀ c ∈ s, pathChar c = true := by
  induction h with
  | root h =>
    intro c hc
    rw [pathChar, h.chars c hc, Bool.true_or]
  | sub _ hs ih =>
    intro c hc
    rcases List.mem_append.1 hc with hc | hc
    · exact ih c hc
    rcases List.mem_cons.1 hc with rfl | hc
    · rfl
    · rw [pathChar, hs.chars c hc, Bool.true_or]

theorem IsPath.not_mem (h : IsPath type s)
    (hc : pathChar c = false) : c ∉ s := by
  intro hmem
  rw [h.chars c hmem] at hc
  cases hc

theorem IsPath.ne_nil (h : IsPath type s) : s ≠ [] := by
  cases h with
  | root h => exact h.ne_nil
  | sub _ _ => exact List.append_ne_nil_of_right_ne_nil _ (List.cons_ne_nil _ _)

theorem IsPath.root_or_sub (h : IsPath type s) :
    type = .ROOT ∨ type = .SUB := by
  cases h with
  | root _ => exact .inl rfl
  | sub _ _ => exact .inr rfl

theorem isNameValidBeforeTag_of_not_mem (h : SUB_NAME_DELIMITER ∉ s) :
    isNameValidBeforeTag s = isRootNameValid s := by
  rw [isNameValidBeforeTag, split_of_not_mem h]
  exact Bool.and_true _

theorem isNameValidBeforeTag_append {p s : Bytes} (h : SUB_NAME_DELIMITER ∉ s) :
    isNameValidBeforeTag (p ++ SUB_NAME_DELIMITER :: s) =
      (isNameValidBeforeTag p && isSubNameValid s) := by
  rw [isNameValidBeforeTag, isNameValidBeforeTag, split_append h]
  cases hsplit : p.split SUB_NAME_DELIMITER with
  | nil => exact absurd hsplit (split_ne_nil p _)
  | cons front parts =>
    simp only [List.cons_append, List.all_append, List.all_cons, List.all_nil, Bool.and_true,
      Bool.and_assoc]

/-- **The names in front of a tag are the paths.** -/
theorem isNameValidBeforeTag_iff :
    isNameValidBeforeTag s = true ↔ ∃ type, IsPath type s := by
  constructor
  · intro h
    -- The last part goes first.
    induction hlength : s.length using Nat.strong_induction_on generalizing s with
    | _ n ih =>
      by_cases hmem : SUB_NAME_DELIMITER ∈ s
      · obtain ⟨p, q, rfl, hq⟩ := exists_last_part hmem
        rw [isNameValidBeforeTag_append hq, Bool.and_eq_true, isSubNameValid_iff] at h
        have hlt : p.length < n := by
          rw [← hlength, List.length_append, List.length_cons]
          omega
        obtain ⟨type, hp⟩ := ih p.length hlt h.1 rfl
        exact ⟨.SUB, .sub hp h.2⟩
      · rw [isNameValidBeforeTag_of_not_mem hmem, isRootNameValid_iff] at h
        exact ⟨.ROOT, .root h⟩
  · rintro ⟨type, h⟩
    induction h with
    | root h =>
      have hnot := h.not_mem (by decide : nameChar SUB_NAME_DELIMITER = false)
      rw [isNameValidBeforeTag_of_not_mem hnot, isRootNameValid_iff]
      exact h
    | sub _ hs ih =>
      rw [isNameValidBeforeTag_append (hs.not_mem (by decide)), Bool.and_eq_true]
      exact ⟨ih, isSubNameValid_iff.2 hs⟩

theorem IsPath.isAssetNameASubasset (h : IsPath type s) :
    isAssetNameASubasset s = decide (type = .SUB) := by
  have hvalid := isNameValidBeforeTag_iff.2 ⟨type, h⟩
  cases h with
  | root h =>
    have hnot := h.not_mem (by decide : nameChar SUB_NAME_DELIMITER = false)
    rw [UnemployCoin.isAssetNameASubasset, split_of_not_mem hnot]
    exact Bool.and_false _
  | @sub _ p s _ hs =>
    rw [isNameValidBeforeTag, split_append (hs.not_mem (by decide))] at hvalid
    rw [UnemployCoin.isAssetNameASubasset, split_append (hs.not_mem (by decide))]
    cases hsplit : p.split SUB_NAME_DELIMITER with
    | nil => exact absurd hsplit (split_ne_nil p _)
    | cons front parts =>
      rw [hsplit] at hvalid
      simp only [List.cons_append, Bool.and_eq_true] at hvalid ⊢
      rw [hvalid.1]
      simp

/-! ## Indicators -/

variable {delimiter : UInt8}

theorem regexMatch_tagIndicator :
    regexMatch name (tagIndicator delimiter) = true ↔
      ∃ u v, name = u ++ delimiter :: v ∧ (u ≠ [] ∧ ∀ c ∈ u, beforeTag c = true) ∧
        v ≠ [] ∧ ∀ c ∈ v, insideTag c = true := by
  rw [tagIndicator, regexMatch_cat]
  constructor
  · rintro ⟨u, v, rfl, hu, hv⟩
    obtain ⟨d, v, rfl, hd, hv⟩ := regexMatch_cat.1 hv
    rw [regexMatch_lit.1 hd]
    exact ⟨u, v, rfl, regexMatch_plus_chars.1 hu, regexMatch_plus_chars.1 hv⟩
  · rintro ⟨u, v, rfl, hu, hv⟩
    exact ⟨u, delimiter :: v, rfl, regexMatch_plus_chars.2 hu,
      regexMatch_cat.2 ⟨[delimiter], v, rfl, regexMatch_lit.2 rfl, regexMatch_plus_chars.2 hv⟩⟩

theorem regexMatch_ownerIndicator :
    regexMatch name OWNER_INDICATOR = true ↔
      ∃ u, name = u ++ OWNER_TAG ∧ u ≠ [] ∧ ∀ c ∈ u, beforeTag c = true := by
  rw [OWNER_INDICATOR, regexMatch_cat]
  constructor
  · rintro ⟨u, v, rfl, hu, hv⟩
    rw [regexMatch_lit.1 hv]
    exact ⟨u, rfl, regexMatch_plus_chars.1 hu⟩
  · rintro ⟨u, rfl, hu⟩
    exact ⟨u, OWNER_TAG, rfl, regexMatch_plus_chars.2 hu, regexMatch_lit.2 rfl⟩

theorem regexMatch_sign :
    regexMatch name (cat (lit [sign]) (atLeast 3 (chars nameChar))) = true ↔
      ∃ s, name = sign :: s ∧ 3 ≤ s.length ∧ ∀ c ∈ s, nameChar c = true := by
  rw [regexMatch_cat]
  constructor
  · rintro ⟨u, v, rfl, hu, hv⟩
    rw [regexMatch_lit.1 hu]
    exact ⟨v, rfl, regexMatch_atLeast_chars.1 hv⟩
  · rintro ⟨s, rfl, hs⟩
    exact ⟨[sign], s, rfl, regexMatch_lit.2 rfl, regexMatch_atLeast_chars.2 hs⟩

theorem regexMatch_qualifierIndicator :
    regexMatch name QUALIFIER_INDICATOR = true ↔
      ∃ s, name = QUALIFIER_CHAR :: s ∧ 3 ≤ s.length ∧ ∀ c ∈ s, nameChar c = true := by
  have hlit : ascii "#" = [QUALIFIER_CHAR] := by decide
  rw [QUALIFIER_INDICATOR, hlit, regexMatch_sign]

theorem regexMatch_restrictedIndicator :
    regexMatch name RESTRICTED_INDICATOR = true ↔
      ∃ s, name = RESTRICTED_CHAR :: s ∧ 3 ≤ s.length ∧ ∀ c ∈ s, nameChar c = true := by
  have hlit : ascii "$" = [RESTRICTED_CHAR] := by decide
  rw [RESTRICTED_INDICATOR, hlit, regexMatch_sign]

theorem regexMatch_subQualifierIndicator :
    regexMatch name SUB_QUALIFIER_INDICATOR = true ↔
      ∃ q s, name = QUALIFIER_CHAR :: q ++ SUB_NAME_DELIMITER :: QUALIFIER_CHAR :: s ∧
        (q ≠ [] ∧ ∀ c ∈ q, nameChar c = true) ∧ s ≠ [] ∧ ∀ c ∈ s, nameChar c = true := by
  have hlit : ascii "#" = [QUALIFIER_CHAR] := by decide
  have hlits : ascii "/#" = [SUB_NAME_DELIMITER, QUALIFIER_CHAR] := by decide
  rw [SUB_QUALIFIER_INDICATOR, hlit, hlits, regexMatch_cat]
  constructor
  · rintro ⟨u, v, rfl, hu, hv⟩
    obtain ⟨q, v, rfl, hq, hv⟩ := regexMatch_cat.1 hv
    obtain ⟨d, s, rfl, hd, hs⟩ := regexMatch_cat.1 hv
    rw [regexMatch_lit.1 hu, regexMatch_lit.1 hd]
    exact ⟨q, s, rfl, regexMatch_plus_chars.1 hq, regexMatch_plus_chars.1 hs⟩
  · rintro ⟨q, s, rfl, hq, hs⟩
    exact ⟨[QUALIFIER_CHAR], q ++ SUB_NAME_DELIMITER :: QUALIFIER_CHAR :: s, rfl,
      regexMatch_lit.2 rfl, regexMatch_cat.2 ⟨q, SUB_NAME_DELIMITER :: QUALIFIER_CHAR :: s, rfl,
        regexMatch_plus_chars.2 hq, regexMatch_cat.2 ⟨[SUB_NAME_DELIMITER, QUALIFIER_CHAR], s, rfl,
          regexMatch_lit.2 rfl, regexMatch_plus_chars.2 hs⟩⟩⟩

/-! ## Kinds -/

/-- What makes `IsAssetNameValid` try a kind. -/
def Indicates (name : Bytes) : AssetType → Prop
  | .UNIQUE => regexMatch name UNIQUE_INDICATOR = true
  | .MSGCHANNEL => regexMatch name MSG_CHANNEL_INDICATOR = true
  | .OWNER => regexMatch name OWNER_INDICATOR = true
  | .VOTE => regexMatch name VOTE_INDICATOR = true
  | .QUALIFIER => regexMatch name QUALIFIER_INDICATOR = true
  | .SUB_QUALIFIER =>
    (regexMatch name QUALIFIER_INDICATOR = true ∧ isAssetNameASubQualifier name = true) ∨
      regexMatch name SUB_QUALIFIER_INDICATOR = true
  | .RESTRICTED => regexMatch name RESTRICTED_INDICATOR = true
  | .SUB => isAssetNameASubasset name = true
  | .ROOT => isAssetNameASubasset name = false
  | _ => False

theorem indicates_indicatedType (name : Bytes) : Indicates name (indicatedType name) := by
  rw [indicatedType]
  repeat' split
  all_goals first
    | exact .inl ⟨‹_›, ‹_›⟩
    | exact .inr ‹_›
    | exact Bool.eq_false_of_not_eq_true ‹_›
    | assumption

theorem isAssetNameValid_iff :
    isAssetNameValid name = some type ↔
      name.length ≤ 40 ∧ indicatedType name = type ∧ isTypeCheckNameValid type name = true := by
  rw [isAssetNameValid]
  split
  · rename_i hlength
    exact iff_of_false (Option.some_ne_none _).symm fun h =>
      absurd h.1 (Nat.not_le_of_gt hlength)
  · rename_i hlength
    rw [and_iff_right (Nat.le_of_not_gt hlength), Option.ite_none_right_eq_some]
    constructor
    · rintro ⟨hcheck, heq⟩
      obtain rfl := Option.some.inj heq
      exact ⟨rfl, hcheck⟩
    · rintro ⟨rfl, hcheck⟩
      exact ⟨hcheck, rfl⟩

theorem isAssetNameValid_parts
    (h : isAssetNameValid name = some type) :
    Indicates name type ∧ isTypeCheckNameValid type name = true := by
  obtain ⟨-, rfl, hcheck⟩ := isAssetNameValid_iff.1 h
  exact ⟨indicates_indicatedType name, hcheck⟩

theorem tagParts_append {u v : Bytes} (hu : delimiter ∉ u)
    (hv : delimiter ∉ v) : tagParts (u ++ delimiter :: v) delimiter = (u, v) := by
  rw [tagParts, split_append hv, split_of_not_mem hu]
  rfl

theorem substr_ownerTag (p : Bytes) :
    Bytes.substr (p ++ OWNER_TAG) 0 ((p ++ OWNER_TAG).length - 1) = p := by
  rw [Bytes.substr, List.drop_zero, List.length_append, show OWNER_TAG.length = 1 from by decide,
    Nat.add_sub_cancel, List.take_left]

theorem not_mem_of_class (h : ∀ c ∈ s, p c = true)
    (hc : p c = false) : c ∉ s := by
  intro hmem
  rw [h c hmem] at hc
  cases hc

theorem subQualifier_parts (h : isAssetNameValid name = some .SUB_QUALIFIER) :
    ∃ q s, name = QUALIFIER_CHAR :: q ++ SUB_NAME_DELIMITER :: QUALIFIER_CHAR :: s ∧
      IsRootName q ∧ IsTail nameChar s ∧ name.length ≤ MAX_NAME_LENGTH := by
  obtain ⟨hindicates, hcheck⟩ := isAssetNameValid_parts h
  simp only [isTypeCheckNameValid, Bool.and_eq_true, decide_eq_true_eq] at hcheck
  obtain ⟨hlength, hcheck⟩ := hcheck
  rcases hindicates with ⟨hqualifier, hsub⟩ | hsub
  · obtain ⟨s, rfl, -, hs⟩ := regexMatch_qualifierIndicator.1 hqualifier
    have hnot : SUB_NAME_DELIMITER ∉ QUALIFIER_CHAR :: s :=
      List.not_mem_cons_of_ne_of_not_mem (by decide) (not_mem_of_class hs (by decide))
    rw [isAssetNameASubQualifier, split_of_not_mem hnot] at hsub
    simp at hsub
  · obtain ⟨q, s, rfl, ⟨-, hq⟩, -, hs⟩ := regexMatch_subQualifierIndicator.1 hsub
    have hnot : SUB_NAME_DELIMITER ∉ QUALIFIER_CHAR :: q :=
      List.not_mem_cons_of_ne_of_not_mem (by decide) (not_mem_of_class hq (by decide))
    have hnot' : SUB_NAME_DELIMITER ∉ QUALIFIER_CHAR :: s :=
      List.not_mem_cons_of_ne_of_not_mem (by decide) (not_mem_of_class hs (by decide))
    rw [isQualifierNameValidBeforeTag, split_append hnot', split_of_not_mem hnot] at hcheck
    simp only [List.singleton_append, Bool.and_eq_true, List.all_cons, List.all_nil,
      Bool.and_true] at hcheck
    obtain ⟨q', heq, hq'⟩ := isQualifierNameValid_iff.1 hcheck.1.1
    obtain ⟨s', heq', hs'⟩ := isSubQualifierNameValid_iff.1 hcheck.2
    obtain rfl := (List.cons.inj heq).2
    obtain rfl := (List.cons.inj heq').2
    exact ⟨q, s, rfl, hq', hs', hlength⟩

theorem restricted_parts (h : isAssetNameValid name = some .RESTRICTED) :
    ∃ s, name = RESTRICTED_CHAR :: s ∧ IsTail nameChar s ∧ 3 ≤ s.length ∧
      name.length ≤ MAX_NAME_LENGTH := by
  obtain ⟨-, hcheck⟩ := isAssetNameValid_parts h
  simp only [isTypeCheckNameValid, Bool.and_eq_true, decide_eq_true_eq] at hcheck
  obtain ⟨s, rfl, hs, hthree⟩ := isRestrictedNameValid_iff.1 hcheck.2
  exact ⟨s, rfl, hs, hthree, hcheck.1⟩

/-- Names with which the expressions are laxer than the grammar: a mark directly behind `$` or `/#`,
a reserved name behind `$`, and a second `^`, in front of which anything may stand. -/
inductive Lenient : Bytes → Prop
  | restricted {s : Bytes} : (∃ c ∈ s.head?, punctuation c = true) ∨ IsReserved s →
      Lenient (RESTRICTED_CHAR :: s)
  | subQualifier {q s : Bytes} : (∃ c ∈ s.head?, punctuation c = true) →
      Lenient (QUALIFIER_CHAR :: q ++ SUB_NAME_DELIMITER :: QUALIFIER_CHAR :: s)
  | vote {name : Bytes} : 2 ≤ name.count VOTE_TAG_DELIMITER → Lenient name

def HasLenient (type : AssetType) : Prop :=
  type = .RESTRICTED ∨ type = .SUB_QUALIFIER ∨ type = .VOTE

theorem first_of_not_marked (h : ¬∃ c ∈ s.head?, punctuation c = true) :
    ∀ c ∈ s.head?, punctuation c = false := by
  intro c hc
  rw [Bool.eq_false_iff]
  exact fun hmark => h ⟨c, hc, hmark⟩

/-- **A valid name is a name of the grammar**, but for the lenient ones. -/
theorem spells_of_isAssetNameValid
    (h : isAssetNameValid name = some type) (hlenient : HasLenient type → ¬Lenient name) :
    Spells type name ∧ name.length ≤ maxLength type := by
  obtain ⟨hindicates, hcheck⟩ := isAssetNameValid_parts h
  cases type with
  | ROOT | SUB =>
    simp only [isTypeCheckNameValid, Bool.and_eq_true, decide_eq_true_eq] at hcheck
    obtain ⟨type, hpath⟩ := isNameValidBeforeTag_iff.1 hcheck.2
    have hsub := hpath.isAssetNameASubasset
    rw [show isAssetNameASubasset name = _ from hindicates] at hsub
    refine ⟨.path ?_, hcheck.1.1⟩
    rcases hpath.root_or_sub with rfl | rfl
    · first | exact hpath | cases hsub
    · first | exact hpath | cases hsub
  | UNIQUE =>
    simp only [isTypeCheckNameValid, Bool.and_eq_true, decide_eq_true_eq] at hcheck
    obtain ⟨u, v, rfl, ⟨-, hu⟩, -, hv⟩ := regexMatch_tagIndicator.1 hindicates
    rw [tagParts_append (not_mem_of_class hu (by decide)) (not_mem_of_class hv (by decide))]
      at hcheck
    obtain ⟨hlength, hpath, htag⟩ := hcheck
    obtain ⟨type, hpath⟩ := isNameValidBeforeTag_iff.1 hpath
    obtain ⟨hne, hchars⟩ := isUniqueTagValid_iff.1 htag
    exact ⟨.unique hpath hne hchars, hlength⟩
  | MSGCHANNEL =>
    simp only [isTypeCheckNameValid, Bool.and_eq_true, decide_eq_true_eq] at hcheck
    obtain ⟨u, v, rfl, ⟨-, hu⟩, -, hv⟩ := regexMatch_tagIndicator.1 hindicates
    rw [tagParts_append (not_mem_of_class hu (by decide)) (not_mem_of_class hv (by decide))]
      at hcheck
    obtain ⟨hlength, hshort, hpath, htag⟩ := hcheck
    obtain ⟨type, hpath⟩ := isNameValidBeforeTag_iff.1 hpath
    exact ⟨.msgchannel hpath (isMsgChannelTagValid_iff.1 htag) hshort, hlength⟩
  | OWNER =>
    simp only [isTypeCheckNameValid, Bool.and_eq_true, decide_eq_true_eq] at hcheck
    obtain ⟨u, rfl, -, -⟩ := regexMatch_ownerIndicator.1 hindicates
    rw [substr_ownerTag] at hcheck
    obtain ⟨type, hpath⟩ := isNameValidBeforeTag_iff.1 hcheck.2
    exact ⟨.owner hpath, hcheck.1⟩
  | VOTE =>
    simp only [isTypeCheckNameValid, Bool.and_eq_true, decide_eq_true_eq] at hcheck
    obtain ⟨u, v, rfl, ⟨-, hu⟩, -, -⟩ := regexMatch_tagIndicator.1 hindicates
    have hnot : VOTE_TAG_DELIMITER ∉ v := by
      intro hmem
      refine hlenient (.inr (.inr rfl)) (.vote ?_)
      rw [List.count_append, List.count_cons_self]
      have := List.count_pos_iff.2 hmem
      omega
    rw [tagParts_append (not_mem_of_class hu (by decide)) hnot] at hcheck
    obtain ⟨hlength, hpath, htag⟩ := hcheck
    obtain ⟨type, hpath⟩ := isNameValidBeforeTag_iff.1 hpath
    obtain ⟨hne, hchars⟩ := isVoteTagValid_iff.1 htag
    exact ⟨.vote hpath hne hchars, hlength⟩
  | QUALIFIER =>
    simp only [isTypeCheckNameValid, Bool.and_eq_true, decide_eq_true_eq] at hcheck
    obtain ⟨s, rfl, -, hs⟩ := regexMatch_qualifierIndicator.1 hindicates
    have hnot : SUB_NAME_DELIMITER ∉ QUALIFIER_CHAR :: s :=
      List.not_mem_cons_of_ne_of_not_mem (by decide) (not_mem_of_class hs (by decide))
    rw [isQualifierNameValidBeforeTag, split_of_not_mem hnot] at hcheck
    simp only [Bool.and_eq_true] at hcheck
    obtain ⟨t, heq, ht⟩ := isQualifierNameValid_iff.1 hcheck.2.1.1
    obtain rfl := (List.cons.inj heq).2
    exact ⟨.qualifier ht, hcheck.1⟩
  | SUB_QUALIFIER =>
    obtain ⟨q, s, rfl, hq, hs, hlength⟩ := subQualifier_parts h
    have hmark : ¬∃ c ∈ s.head?, punctuation c = true := fun hmark =>
      hlenient (.inr (.inl rfl)) (.subQualifier hmark)
    exact ⟨.subQualifier hq ⟨hs, first_of_not_marked hmark⟩, hlength⟩
  | RESTRICTED =>
    obtain ⟨s, rfl, hs, hthree, hlength⟩ := restricted_parts h
    have hnot := hlenient (.inl rfl)
    have hmark : ¬∃ c ∈ s.head?, punctuation c = true := fun hmark =>
      hnot (.restricted (.inl hmark))
    exact ⟨.restricted ⟨⟨hs, first_of_not_marked hmark⟩, hthree, fun hreserved =>
      hnot (.restricted (.inr hreserved))⟩, hlength⟩
  | _ => exact absurd hindicates id

/-! ## Names of the grammar are valid -/

theorem not_tagIndicator (h : delimiter ∉ name) :
    ¬regexMatch name (tagIndicator delimiter) = true := by
  intro hmatch
  obtain ⟨u, v, rfl, -⟩ := regexMatch_tagIndicator.1 hmatch
  exact h (List.mem_append_right _ List.mem_cons_self)

theorem not_ownerIndicator (h : 33 ∉ name) :
    ¬regexMatch name OWNER_INDICATOR = true := by
  intro hmatch
  obtain ⟨u, rfl, -⟩ := regexMatch_ownerIndicator.1 hmatch
  exact h (List.mem_append_right _ (by decide))

theorem not_qualifierIndicators (h : QUALIFIER_CHAR ∉ name) :
    ¬regexMatch name QUALIFIER_INDICATOR = true ∧
      ¬regexMatch name SUB_QUALIFIER_INDICATOR = true := by
  constructor
  · intro hmatch
    obtain ⟨s, rfl, -⟩ := regexMatch_qualifierIndicator.1 hmatch
    exact h List.mem_cons_self
  · intro hmatch
    obtain ⟨q, s, rfl, -⟩ := regexMatch_subQualifierIndicator.1 hmatch
    exact h (List.mem_append_left _ List.mem_cons_self)

/-- The characters that a name needs for an indicator other than that of a restricted asset. -/
def indicatorMarks : Bytes :=
  [UNIQUE_TAG_DELIMITER, MSG_CHANNEL_TAG_DELIMITER, 33, VOTE_TAG_DELIMITER, QUALIFIER_CHAR]

theorem indicatedType_of_unmarked (h : ∀ c ∈ indicatorMarks, c ∉ name) : indicatedType name =
    if regexMatch name RESTRICTED_INDICATOR then .RESTRICTED
    else if isAssetNameASubasset name then .SUB else .ROOT := by
  obtain ⟨hqualifier, hsubQualifier⟩ := not_qualifierIndicators (h QUALIFIER_CHAR (by decide))
  rw [indicatedType, UNIQUE_INDICATOR, if_neg (not_tagIndicator (h _ (by decide))),
    MSG_CHANNEL_INDICATOR, if_neg (not_tagIndicator (h _ (by decide))),
    if_neg (not_ownerIndicator (h _ (by decide))), VOTE_INDICATOR,
    if_neg (not_tagIndicator (h _ (by decide))), if_neg hqualifier, if_neg hsubQualifier]

theorem not_indicators_of_qualifier (s : Bytes) :
    (∀ delimiter, ¬regexMatch (QUALIFIER_CHAR :: s) (tagIndicator delimiter) = true) ∧
      ¬regexMatch (QUALIFIER_CHAR :: s) OWNER_INDICATOR = true := by
  have hfront : ∀ u v : Bytes, QUALIFIER_CHAR :: s = u ++ v → u ≠ [] →
      ¬∀ c ∈ u, beforeTag c = true := by
    intro u v heq hne hall
    obtain ⟨c, u, rfl⟩ := List.exists_cons_of_ne_nil hne
    obtain ⟨rfl, -⟩ := List.cons.inj heq
    exact absurd (hall QUALIFIER_CHAR List.mem_cons_self) (by decide)
  constructor
  · intro delimiter hmatch
    obtain ⟨u, v, heq, ⟨hne, hall⟩, -⟩ := regexMatch_tagIndicator.1 hmatch
    exact hfront u _ heq hne hall
  · intro hmatch
    obtain ⟨u, heq, hne, hall⟩ := regexMatch_ownerIndicator.1 hmatch
    exact hfront u _ heq hne hall

theorem IsPath.beforeTag (h : IsPath type s) :
    s ≠ [] ∧ ∀ c ∈ s, beforeTag c = true := by
  refine ⟨h.ne_nil, fun c hc => ?_⟩
  have hpath := h.chars c hc
  rw [UnemployCoin.beforeTag, Bool.not_eq_true', List.contains_eq_mem, decide_eq_false_iff_not]
  intro hmem
  have hall : ((ascii "^~#!").all fun c => !pathChar c) = true := by decide
  have hclass := List.all_eq_true.1 hall c hmem
  rw [hpath] at hclass
  cases hclass

theorem IsPath.tagIndicator {p tag : Bytes} {q : UInt8 → Bool} (h : IsPath type p) (hne : tag ≠ [])
    (hq : ∀ c ∈ tag, q c = true)
    (hinside : ((ascii "~#!/").all fun c => !q c) = true) :
    regexMatch (p ++ delimiter :: tag) (UnemployCoin.tagIndicator delimiter) = true := by
  refine regexMatch_tagIndicator.2 ⟨p, tag, rfl, h.beforeTag, hne, fun c hc => ?_⟩
  rw [insideTag, Bool.not_eq_true', List.contains_eq_mem, decide_eq_false_iff_not]
  intro hmem
  have hclass := List.all_eq_true.1 hinside c hmem
  rw [hq c hc] at hclass
  cases hclass

theorem IsPath.not_mem_tag {p tag : Bytes} {q : UInt8 → Bool}
    {delimiter c : UInt8} (h : IsPath type p) (hq : ∀ c ∈ tag, q c = true)
    (hc : pathChar c = false ∧ c ≠ delimiter ∧ q c = false) : c ∉ p ++ delimiter :: tag := by
  intro hmem
  rcases List.mem_append.1 hmem with hmem | hmem
  · exact h.not_mem hc.1 hmem
  rcases List.mem_cons.1 hmem with heq | hmem
  · exact hc.2.1 heq
  · exact not_mem_of_class hq hc.2.2 hmem

theorem IsPath.not_mem_owner {p : Bytes} (h : IsPath type p)
    (hc : pathChar c = false ∧ c ≠ 33) : c ∉ p ++ OWNER_TAG := by
  intro hmem
  rcases List.mem_append.1 hmem with hmem | hmem
  · exact h.not_mem hc.1 hmem
  · exact hc.2 (List.mem_singleton.1 hmem)

/-- **A name of the grammar is valid.** -/
theorem isAssetNameValid_of_spells (h : Spells type name)
    (hlength : name.length ≤ maxLength type) : isAssetNameValid name = some type := by
  have hforty : name.length ≤ 40 := by
    refine Nat.le_trans hlength ?_
    cases type <;> decide
  refine isAssetNameValid_iff.2 ⟨hforty, ?_⟩
  cases h with
  | path h =>
    have hmarks : (indicatorMarks.all fun c => !pathChar c) = true := by decide
    have hrestricted : ¬regexMatch name RESTRICTED_INDICATOR = true := by
      intro hmatch
      obtain ⟨s, rfl, -⟩ := regexMatch_restrictedIndicator.1 hmatch
      exact h.not_mem (by decide : pathChar RESTRICTED_CHAR = false) List.mem_cons_self
    have hvalid := isNameValidBeforeTag_iff.2 ⟨type, h⟩
    have hsub := h.isAssetNameASubasset
    have htype : indicatedType name = type := by
      rw [indicatedType_of_unmarked fun c hc => h.not_mem (by
        simpa using List.all_eq_true.1 hmarks c hc), if_neg hrestricted, hsub]
      rcases h.root_or_sub with rfl | rfl <;> rfl
    refine ⟨htype, ?_⟩
    cases h with
    | root h =>
      simp only [isTypeCheckNameValid, Bool.and_eq_true, Bool.or_eq_true, decide_eq_true_eq]
      exact ⟨⟨hlength, .inr h.length_ge⟩, hvalid⟩
    | sub hp hs =>
      simp only [isTypeCheckNameValid, Bool.and_eq_true, Bool.or_eq_true, decide_eq_true_eq]
      exact ⟨⟨hlength, .inl hsub⟩, hvalid⟩
  | @unique _ p tag h hne hchars =>
    have hmatch : regexMatch (p ++ UNIQUE_TAG_DELIMITER :: tag) UNIQUE_INDICATOR = true :=
      h.tagIndicator hne hchars (by decide)
    refine ⟨by rw [indicatedType, if_pos hmatch], ?_⟩
    simp only [isTypeCheckNameValid, Bool.and_eq_true, decide_eq_true_eq]
    rw [tagParts_append (h.not_mem (by decide)) (not_mem_of_class hchars (by decide))]
    exact ⟨hlength, isNameValidBeforeTag_iff.2 ⟨_, h⟩, isUniqueTagValid_iff.2 ⟨hne, hchars⟩⟩
  | @msgchannel _ p tag h htag hshort =>
    have hunique : ¬regexMatch (p ++ MSG_CHANNEL_TAG_DELIMITER :: tag) UNIQUE_INDICATOR = true :=
      not_tagIndicator (h.not_mem_tag htag.chars (by decide))
    have hmatch : regexMatch (p ++ MSG_CHANNEL_TAG_DELIMITER :: tag) MSG_CHANNEL_INDICATOR =
        true := h.tagIndicator htag.ne_nil htag.chars (by decide)
    refine ⟨by rw [indicatedType, if_neg hunique, if_pos hmatch], ?_⟩
    simp only [isTypeCheckNameValid, Bool.and_eq_true, decide_eq_true_eq]
    rw [tagParts_append (h.not_mem (by decide)) (htag.not_mem (by decide))]
    exact ⟨hlength, hshort, isNameValidBeforeTag_iff.2 ⟨_, h⟩, isMsgChannelTagValid_iff.2 htag⟩
  | @owner _ p h =>
    have hunique : ¬regexMatch (p ++ OWNER_TAG) UNIQUE_INDICATOR = true :=
      not_tagIndicator (h.not_mem_owner (by decide))
    have hchannel : ¬regexMatch (p ++ OWNER_TAG) MSG_CHANNEL_INDICATOR = true :=
      not_tagIndicator (h.not_mem_owner (by decide))
    have hmatch : regexMatch (p ++ OWNER_TAG) OWNER_INDICATOR = true :=
      regexMatch_ownerIndicator.2 ⟨p, rfl, h.beforeTag⟩
    refine ⟨by rw [indicatedType, if_neg hunique, if_neg hchannel, if_pos hmatch], ?_⟩
    simp only [isTypeCheckNameValid, Bool.and_eq_true, decide_eq_true_eq]
    rw [substr_ownerTag]
    exact ⟨hlength, isNameValidBeforeTag_iff.2 ⟨_, h⟩⟩
  | @vote _ p tag h hne hchars =>
    have hunique : ¬regexMatch (p ++ VOTE_TAG_DELIMITER :: tag) UNIQUE_INDICATOR = true :=
      not_tagIndicator (h.not_mem_tag hchars (by decide))
    have hchannel : ¬regexMatch (p ++ VOTE_TAG_DELIMITER :: tag) MSG_CHANNEL_INDICATOR = true :=
      not_tagIndicator (h.not_mem_tag hchars (by decide))
    have howner : ¬regexMatch (p ++ VOTE_TAG_DELIMITER :: tag) OWNER_INDICATOR = true :=
      not_ownerIndicator (h.not_mem_tag hchars (by decide))
    have hmatch : regexMatch (p ++ VOTE_TAG_DELIMITER :: tag) VOTE_INDICATOR = true :=
      h.tagIndicator hne hchars (by decide)
    refine ⟨by rw [indicatedType, if_neg hunique, if_neg hchannel, if_neg howner, if_pos hmatch],
      ?_⟩
    simp only [isTypeCheckNameValid, Bool.and_eq_true, decide_eq_true_eq]
    rw [tagParts_append (h.not_mem (by decide)) (not_mem_of_class hchars (by decide))]
    exact ⟨hlength, isNameValidBeforeTag_iff.2 ⟨_, h⟩, isVoteTagValid_iff.2 ⟨hne, hchars⟩⟩
  | @qualifier s hs =>
    obtain ⟨htag, howner⟩ := not_indicators_of_qualifier s
    have hmatch : regexMatch (QUALIFIER_CHAR :: s) QUALIFIER_INDICATOR = true :=
      regexMatch_qualifierIndicator.2 ⟨s, rfl, hs.length_ge, hs.chars⟩
    have hnot : SUB_NAME_DELIMITER ∉ QUALIFIER_CHAR :: s :=
      List.not_mem_cons_of_ne_of_not_mem (by decide) (hs.not_mem (by decide))
    have hvalid := isQualifierNameValid_iff.2 ⟨s, rfl, hs⟩
    have hsub : ¬isAssetNameASubQualifier (QUALIFIER_CHAR :: s) = true := by
      rw [isAssetNameASubQualifier, split_of_not_mem hnot]
      simp
    refine ⟨by rw [indicatedType, UNIQUE_INDICATOR, if_neg (htag _), MSG_CHANNEL_INDICATOR,
      if_neg (htag _), if_neg howner, VOTE_INDICATOR, if_neg (htag _), if_pos hmatch,
      if_neg hsub], ?_⟩
    simp only [isTypeCheckNameValid, Bool.and_eq_true, decide_eq_true_eq]
    rw [isQualifierNameValidBeforeTag, split_of_not_mem hnot]
    refine ⟨hlength, ?_⟩
    simp [hvalid]
  | @subQualifier q s hq hs =>
    obtain ⟨htag, howner⟩ :=
      not_indicators_of_qualifier (q ++ SUB_NAME_DELIMITER :: QUALIFIER_CHAR :: s)
    have hnot : SUB_NAME_DELIMITER ∉ QUALIFIER_CHAR :: q :=
      List.not_mem_cons_of_ne_of_not_mem (by decide) (hq.not_mem (by decide))
    have hnot' : SUB_NAME_DELIMITER ∉ QUALIFIER_CHAR :: s :=
      List.not_mem_cons_of_ne_of_not_mem (by decide) (hs.not_mem (by decide))
    have hmatch : regexMatch (QUALIFIER_CHAR :: q ++ SUB_NAME_DELIMITER :: QUALIFIER_CHAR :: s)
        SUB_QUALIFIER_INDICATOR = true :=
      regexMatch_subQualifierIndicator.2 ⟨q, s, rfl, ⟨hq.ne_nil, hq.chars⟩, hs.ne_nil, hs.chars⟩
    have hqualifier : ¬regexMatch
        (QUALIFIER_CHAR :: q ++ SUB_NAME_DELIMITER :: QUALIFIER_CHAR :: s) QUALIFIER_INDICATOR =
          true := by
      intro hmatch
      obtain ⟨t, heq, -, ht⟩ := regexMatch_qualifierIndicator.1 hmatch
      obtain rfl := (List.cons.inj heq).2
      exact absurd (ht SUB_NAME_DELIMITER (List.mem_append_right _ List.mem_cons_self)) (by decide)
    have hvalid := isQualifierNameValid_iff.2 ⟨q, rfl, hq⟩
    have hvalid' := isSubQualifierNameValid_iff.2 ⟨s, rfl, hs.toIsTail⟩
    refine ⟨by rw [indicatedType, UNIQUE_INDICATOR, List.cons_append, if_neg (htag _),
      MSG_CHANNEL_INDICATOR, if_neg (htag _), if_neg howner, VOTE_INDICATOR, if_neg (htag _),
      ← List.cons_append, if_neg hqualifier, if_pos hmatch], ?_⟩
    simp only [isTypeCheckNameValid, Bool.and_eq_true, decide_eq_true_eq]
    rw [isQualifierNameValidBeforeTag, split_append hnot', split_of_not_mem hnot]
    refine ⟨hlength, ?_⟩
    simp [hvalid, hvalid']
  | @restricted s hs =>
    have hmarks : (indicatorMarks.all fun c => c != RESTRICTED_CHAR && !nameChar c) = true := by
      decide
    have hmatch : regexMatch (RESTRICTED_CHAR :: s) RESTRICTED_INDICATOR = true :=
      regexMatch_restrictedIndicator.2 ⟨s, rfl, hs.length_ge, hs.chars⟩
    have hnot : ∀ c ∈ indicatorMarks, c ∉ RESTRICTED_CHAR :: s := by
      intro c hc
      have hclass := List.all_eq_true.1 hmarks c hc
      rw [Bool.and_eq_true, bne_iff_ne, Bool.not_eq_true'] at hclass
      exact List.not_mem_cons_of_ne_of_not_mem hclass.1 (hs.not_mem hclass.2)
    refine ⟨by rw [indicatedType_of_unmarked hnot, if_pos hmatch], ?_⟩
    simp only [isTypeCheckNameValid, Bool.and_eq_true, decide_eq_true_eq]
    exact ⟨hlength, isRestrictedNameValid_iff.2 ⟨s, rfl, hs.toIsTail, hs.length_ge⟩⟩

/-! ## Relatives -/

theorem getParentName_append {p s : Bytes}
    (hvalid : isAssetNameValid (p ++ delimiter :: s) = some type)
    (hdelimiter : parentDelimiter type = some delimiter) (h : delimiter ∉ s) :
    getParentName (p ++ delimiter :: s) = p := by
  rw [getParentName, hvalid]
  simp only [hdelimiter, Option.bind_some, findLast_append h]
  rw [Bytes.substr, List.drop_zero, List.take_left]

theorem IsPath.isAssetNameValid {p : Bytes} (h : IsPath type p)
    (hlength : p.length < MAX_NAME_LENGTH) : isAssetNameValid p = some .ROOT ∨
      isAssetNameValid p = some .SUB := by
  have hshort : p.length ≤ MAX_NAME_LENGTH - 1 := Nat.le_pred_of_lt hlength
  rcases h.root_or_sub with rfl | rfl
  · exact .inl (isAssetNameValid_of_spells (.path h) hshort)
  · exact .inr (isAssetNameValid_of_spells (.path h) hshort)

theorem length_lt_of_append {p s : Bytes} (h : (p ++ c :: s).length ≤ n) :
    p.length < n := by
  rw [List.length_append, List.length_cons] at h
  omega

/-- **The parent of a sub-asset, a unique asset or a channel is an asset or a sub-asset.** -/
theorem parent_isAssetNameValid
    (h : isAssetNameValid name = some type)
    (htype : type = .SUB ∨ type = .UNIQUE ∨ type = .MSGCHANNEL) :
    isAssetNameValid (getParentName name) = some .ROOT ∨
      isAssetNameValid (getParentName name) = some .SUB := by
  have hlenient : HasLenient type → ¬Lenient name := by
    rintro (rfl | rfl | rfl) <;> simp at htype
  obtain ⟨hspells, hlength⟩ := spells_of_isAssetNameValid h hlenient
  rcases htype with rfl | rfl | rfl
  · cases hspells with
    | path hpath =>
      cases hpath with
      | sub hp hs =>
        rw [getParentName_append h rfl (hs.not_mem (by decide))]
        exact hp.isAssetNameValid (Nat.lt_succ_of_lt (length_lt_of_append hlength))
  · cases hspells with
    | path hpath => rcases hpath.root_or_sub with heq | heq <;> cases heq
    | unique hp _ hchars =>
      rw [getParentName_append h rfl (not_mem_of_class hchars (by decide))]
      exact hp.isAssetNameValid (length_lt_of_append hlength)
  · cases hspells with
    | path hpath => rcases hpath.root_or_sub with heq | heq <;> cases heq
    | msgchannel hp htag _ =>
      rw [getParentName_append h rfl (htag.not_mem (by decide))]
      exact hp.isAssetNameValid (length_lt_of_append hlength)

theorem parent_of_subQualifier (h : isAssetNameValid name = some .SUB_QUALIFIER) :
    isAssetNameValid (getParentName name) = some .QUALIFIER := by
  obtain ⟨q, s, rfl, hq, hs, hlength⟩ := subQualifier_parts h
  have hnot : SUB_NAME_DELIMITER ∉ QUALIFIER_CHAR :: s :=
    List.not_mem_cons_of_ne_of_not_mem (by decide) (hs.not_mem (by decide))
  rw [getParentName_append h rfl hnot]
  exact isAssetNameValid_of_spells (.qualifier hq) (Nat.le_of_lt (length_lt_of_append hlength))

theorem owner_isAssetNameValid
    (h : isAssetNameValid name = some type) (htype : type = .ROOT ∨ type = .SUB) :
    isAssetNameValid (name ++ OWNER_TAG) = some .OWNER := by
  have hlenient : HasLenient type → ¬Lenient name := by
    rintro (rfl | rfl | rfl) <;> simp at htype
  obtain ⟨hspells, hlength⟩ := spells_of_isAssetNameValid h hlenient
  have hmax : maxLength type = MAX_NAME_LENGTH - 1 := by rcases htype with rfl | rfl <;> rfl
  have howner : (name ++ OWNER_TAG).length ≤ MAX_NAME_LENGTH := by
    rw [List.length_append, show OWNER_TAG.length = 1 from by decide]
    rw [hmax] at hlength
    exact Nat.succ_le_succ hlength
  cases hspells with
  | path hpath => exact isAssetNameValid_of_spells (.owner hpath) howner
  | _ => simp at htype

theorem restricted_owner (h : isAssetNameValid name = some .RESTRICTED)
    (hlenient : ¬Lenient name) :
    isAssetNameValid (restrictedNameToOwnerName name) = some .OWNER ∧
      ∃ root, isAssetNameValid root = some .ROOT ∧
        restrictedNameToOwnerName name = root ++ OWNER_TAG := by
  obtain ⟨hspells, hlength⟩ := spells_of_isAssetNameValid h fun _ => hlenient
  cases hspells with
  | path hpath => rcases hpath.root_or_sub with heq | heq <;> cases heq
  | @restricted s hs =>
    have hroot : isAssetNameValid s = some .ROOT :=
      isAssetNameValid_of_spells (.path (.root hs)) (Nat.le_of_succ_le_succ hlength)
    have hindicator : regexMatch (RESTRICTED_CHAR :: s) RESTRICTED_INDICATOR = true :=
      (isAssetNameValid_parts h).1
    have howner : restrictedNameToOwnerName (RESTRICTED_CHAR :: s) = s ++ OWNER_TAG := by
      rw [restrictedNameToOwnerName, isAssetNameAnRestricted, isAssetNameAn, h, hindicator]
      rfl
    rw [howner]
    exact ⟨owner_isAssetNameValid hroot (.inl rfl), s, hroot, rfl⟩

/-! ## No name of the grammar is lenient -/

theorem IsPath.append_ne {p t s : Bytes} (h : IsPath type p)
    (hsign : pathChar sign = false) : p ++ t ≠ sign :: s := by
  intro heq
  obtain ⟨c, q, rfl⟩ := List.exists_cons_of_ne_nil h.ne_nil
  obtain ⟨rfl, -⟩ := List.cons.inj heq
  exact h.not_mem hsign List.mem_cons_self

theorem subQualifier_inj {q s q' s' : Bytes} (hq : SUB_NAME_DELIMITER ∉ q)
    (hs : SUB_NAME_DELIMITER ∉ s)
    (h : q ++ SUB_NAME_DELIMITER :: QUALIFIER_CHAR :: s =
      q' ++ SUB_NAME_DELIMITER :: QUALIFIER_CHAR :: s') : s = s' := by
  have hcount := congrArg (List.count SUB_NAME_DELIMITER) h
  have hsign : ∀ l : Bytes, (QUALIFIER_CHAR :: l).count SUB_NAME_DELIMITER =
      l.count SUB_NAME_DELIMITER := fun l => List.count_cons_of_ne (by decide)
  rw [List.count_append, List.count_append, List.count_cons_self, List.count_cons_self, hsign,
    hsign, List.count_eq_zero.2 hq, List.count_eq_zero.2 hs] at hcount
  have hs' : SUB_NAME_DELIMITER ∉ QUALIFIER_CHAR :: s' :=
    List.not_mem_cons_of_ne_of_not_mem (by decide) (List.count_eq_zero.1 (by omega))
  have hs : SUB_NAME_DELIMITER ∉ QUALIFIER_CHAR :: s :=
    List.not_mem_cons_of_ne_of_not_mem (by decide) hs
  have hlast := congrArg (Bytes.findLast · SUB_NAME_DELIMITER) h
  simp only [findLast_append hs, findLast_append hs'] at hlast
  have hrest := (List.append_inj h (Option.some.inj hlast)).2
  exact (List.cons.inj (List.cons.inj hrest).2).2

theorem not_marked_of_word (h : IsWord p s) :
    ¬∃ c ∈ s.head?, punctuation c = true := by
  rintro ⟨c, hc, hmark⟩
  rw [h.first c hc] at hmark
  cases hmark

theorem Spells.count_vote (h : Spells type name) :
    name.count VOTE_TAG_DELIMITER ≤ 1 := by
  have hpath : ∀ {type : AssetType} {p : Bytes}, IsPath type p → p.count VOTE_TAG_DELIMITER = 0 :=
    fun h => List.count_eq_zero.2 (h.not_mem (by decide))
  have hroot : ∀ {s : Bytes}, IsRootName s → s.count VOTE_TAG_DELIMITER = 0 :=
    fun h => List.count_eq_zero.2 (h.not_mem (by decide))
  have hcons : ∀ {c : UInt8} {s : Bytes}, c ≠ VOTE_TAG_DELIMITER →
      (c :: s).count VOTE_TAG_DELIMITER = s.count VOTE_TAG_DELIMITER :=
    fun hc => List.count_cons_of_ne hc
  cases h with
  | path h => rw [hpath h]; exact Nat.zero_le 1
  | unique h _ hchars =>
    rw [List.count_append, hpath h, hcons (by decide),
      List.count_eq_zero.2 (not_mem_of_class hchars (by decide))]
    exact Nat.zero_le 1
  | msgchannel h htag _ =>
    rw [List.count_append, hpath h, hcons (by decide),
      List.count_eq_zero.2 (htag.not_mem (by decide))]
    exact Nat.zero_le 1
  | owner h =>
    rw [List.count_append, hpath h]
    decide
  | vote h _ hchars =>
    rw [List.count_append, hpath h, List.count_cons_self,
      List.count_eq_zero.2 (not_mem_of_class hchars (by decide))]
  | qualifier h =>
    rw [hcons (by decide), hroot h]
    exact Nat.zero_le 1
  | subQualifier hq hs =>
    rw [List.count_append, hcons (by decide), hroot hq, hcons (by decide), hcons (by decide),
      List.count_eq_zero.2 (hs.not_mem (by decide))]
    exact Nat.zero_le 1
  | restricted h =>
    rw [hcons (by decide), hroot h]
    exact Nat.zero_le 1

theorem Spells.not_lenient (h : Spells type name) :
    ¬Lenient name := by
  intro hlenient
  -- A name that starts with a sign is that of a qualifier or of a restricted asset.
  have hpath : ∀ {type : AssetType} {p t s : Bytes} {sign : UInt8}, pathChar sign = false →
      IsPath type p → p ++ t = sign :: s → False :=
    fun hsign h heq => h.append_ne hsign heq
  cases hlenient with
  | vote hcount => exact absurd h.count_vote (Nat.not_le_of_gt hcount)
  | @restricted s hbad =>
    generalize hname : RESTRICTED_CHAR :: s = name at h
    cases h with
    | path h => exact hpath (by decide) h ((List.append_nil _).trans hname.symm)
    | unique h _ _ | msgchannel h _ _ | owner h | vote h _ _ => exact hpath (by decide) h hname.symm
    | qualifier _ | subQualifier _ _ => exact absurd (List.cons.inj hname).1 (by decide)
    | restricted hs =>
      obtain rfl := (List.cons.inj hname).2
      exact hbad.elim (not_marked_of_word hs.toIsWord) hs.not_reserved
  | @subQualifier q s hmark =>
    generalize hname : QUALIFIER_CHAR :: q ++ SUB_NAME_DELIMITER :: QUALIFIER_CHAR :: s = name at h
    cases h with
    | path h => exact hpath (by decide) h ((List.append_nil _).trans hname.symm)
    | unique h _ _ | msgchannel h _ _ | owner h | vote h _ _ => exact hpath (by decide) h hname.symm
    | qualifier hs =>
      refine hs.not_mem (by decide : nameChar SUB_NAME_DELIMITER = false) ?_
      rw [← (List.cons.inj hname).2]
      exact List.mem_append_right _ List.mem_cons_self
    | subQualifier hq hs =>
      have heq := subQualifier_inj (hq.not_mem (by decide)) (hs.not_mem (by decide))
        (List.cons.inj hname).2.symm
      rw [← heq] at hmark
      exact not_marked_of_word hs hmark
    | restricted _ => exact absurd (List.cons.inj hname).1 (by decide)

end UnemployCoin
