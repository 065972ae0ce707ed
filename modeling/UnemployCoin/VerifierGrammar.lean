import UnemployCoin.VerifierEvaluation
import Mathlib.Data.List.Dedup
import Mathlib.Data.List.SplitBy
/-!
# The grammar of verifier strings

What a verifier string should be: an expression over the names of qualifiers, `!` before `&`
before `|`, and parentheses (`Derives`), with the usual meaning (`Formula.eval`).  `resolve` gives
that meaning to the strings that `CheckVerifierString` accepts, but for those in which something is
skipped in front of an operand (`checkVerifierString_means`): `singleParse` looks for the first
operand and passes over what stands before it.
-/

namespace UnemployCoin

open LibBoolEE

inductive Formula where
  | var (name : Bytes)
  | not (f : Formula)
  | and (f g : Formula)
  | or (f g : Formula)
  deriving DecidableEq

namespace Formula

/-- The value of a formula, where `holds` gives the values of the variables. -/
def eval (holds : Bytes → Bool) : Formula → Bool
  | var name => holds name
  | not f => !f.eval holds
  | and f g => f.eval holds && g.eval holds
  | or f g => f.eval holds || g.eval holds

def names : Formula → List Bytes
  | var name => [name]
  | not f => f.names
  | and f g | or f g => f.names ++ g.names

theorem eval_congr {holds holds' : Bytes → Bool} {f : Formula}
    (h : ∀ name ∈ f.names, holds name = holds' name) : f.eval holds = f.eval holds' := by
  induction f with
  | var name => exact h name (List.mem_singleton_self name)
  | not f ih => rw [eval, eval, ih h]
  | and f g ihf ihg =>
    rw [eval, eval, ihf fun name hname => h name (List.mem_append_left _ hname),
      ihg fun name hname => h name (List.mem_append_right _ hname)]
  | or f g ihf ihg =>
    rw [eval, eval, ihf fun name hname => h name (List.mem_append_left _ hname),
      ihg fun name hname => h name (List.mem_append_right _ hname)]

end Formula

/-! ## Strings for formulas -/

/-- How tightly the operators of a string bind. -/
inductive Level where
  | expr
  | term
  | factor

/-- The string is an expression for the formula. -/
inductive Derives (isName : Bytes → Prop) : Level → Bytes → Formula → Prop
  | name {name : Bytes} : isName name → Derives isName .factor name (.var name)
  | not {s : Bytes} {f : Formula} :
      Derives isName .factor s f → Derives isName .factor (33 :: s) (.not f)
  | paren {s : Bytes} {f : Formula} :
      Derives isName .expr s f → Derives isName .factor (40 :: (s ++ [41])) f
  | factor {s : Bytes} {f : Formula} : Derives isName .factor s f → Derives isName .term s f
  | and {s t : Bytes} {f g : Formula} : Derives isName .factor s f → Derives isName .term t g →
      Derives isName .term (s ++ 38 :: t) (.and f g)
  | term {s : Bytes} {f : Formula} : Derives isName .term s f → Derives isName .expr s f
  | or {s t : Bytes} {f g : Formula} : Derives isName .term s f → Derives isName .expr t g →
      Derives isName .expr (s ++ 124 :: t) (.or f g)

section Derives

variable {isName isName' : Bytes → Prop} {level : Level} {s : Bytes} {f : Formula}

theorem Derives.mono (h : Derives isName level s f) (hnames : ∀ name ∈ f.names, isName' name) :
    Derives isName' level s f := by
  induction h with
  | name _ => exact .name (hnames _ (List.mem_singleton_self _))
  | not _ ih => exact .not (ih hnames)
  | paren _ ih => exact .paren (ih hnames)
  | factor _ ih => exact .factor (ih hnames)
  | and _ _ ihf ihg =>
    exact .and (ihf fun name hname => hnames name (List.mem_append_left _ hname))
      (ihg fun name hname => hnames name (List.mem_append_right _ hname))
  | term _ ih => exact .term (ih hnames)
  | or _ _ ihf ihg =>
    exact .or (ihf fun name hname => hnames name (List.mem_append_left _ hname))
      (ihg fun name hname => hnames name (List.mem_append_right _ hname))

def IsToken (s : Bytes) : Prop := s ≠ [] ∧ ∀ c ∈ s, nameChar c = true

def opensOperand (c : UInt8) : Bool := charIs c "(!&|"

/-- At the start of the string, behind an opening parenthesis and behind an operator an operand
begins. -/
def OperandsBegin (s : Bytes) : Prop :=
  (∀ c ∈ s.head?, startsOperand c = true) ∧
    s.IsChain fun a b => opensOperand a = true → startsOperand b = true

theorem Derives.chars (h : Derives isName level s f) (htoken : ∀ name, isName name → IsToken name) :
    ∀ c ∈ s, nameChar c = true ∨ charIs c "!&|()" = true := by
  induction h with
  | name hname => exact fun c hc => .inl ((htoken _ hname).2 c hc)
  | not _ ih =>
    intro c hc
    rcases List.mem_cons.1 hc with rfl | hc
    · exact .inr rfl
    · exact ih c hc
  | paren _ ih =>
    intro c hc
    rcases List.mem_cons.1 hc with rfl | hc
    · exact .inr rfl
    rcases List.mem_append.1 hc with hc | hc
    · exact ih c hc
    · rw [List.mem_singleton.1 hc]
      exact .inr rfl
  | factor _ ih => exact ih
  | and _ _ ihf ihg =>
    intro c hc
    rcases List.mem_append.1 hc with hc | hc
    · exact ihf c hc
    rcases List.mem_cons.1 hc with rfl | hc
    · exact .inr rfl
    · exact ihg c hc
  | term _ ih => exact ih
  | or _ _ ihf ihg =>
    intro c hc
    rcases List.mem_append.1 hc with hc | hc
    · exact ihf c hc
    rcases List.mem_cons.1 hc with rfl | hc
    · exact .inr rfl
    · exact ihg c hc

end Derives

/-! ## Names in a string -/

def runs (s : Bytes) : List Bytes :=
  (s.splitBy fun a b => nameChar a && nameChar b).filter fun run => run.any nameChar

theorem mem_extractVerifierStringQualifiers {s name : Bytes} :
    name ∈ extractVerifierStringQualifiers s ↔ name ∈ runs s := List.mem_dedup

variable {c : UInt8}

theorem runs_append_cons (s t : Bytes) (h : nameChar c = false) :
    runs (s ++ c :: t) = runs s ++ runs t := by
  have hbefore : ∀ x ∈ s.getLast?, ∀ y ∈ (c :: t).head?,
      (fun a b => nameChar a && nameChar b) x y = false := by
    intro x _ y hy
    rw [← Option.some.inj hy]
    simp [h]
  have hbehind : ∀ x ∈ [c].getLast?, ∀ y ∈ t.head?,
      (fun a b => nameChar a && nameChar b) x y = false := by
    intro x hx y _
    rw [← Option.some.inj hx]
    simp [h]
  have hone : [c].splitBy (fun a b => nameChar a && nameChar b) = [[c]] := rfl
  have hnone : ([c].any nameChar) = false := by simp [h]
  have hsplit : (c :: t).splitBy (fun a b => nameChar a && nameChar b) =
      [c] :: t.splitBy fun a b => nameChar a && nameChar b := by
    have := List.splitBy_append hbehind
    rwa [hone] at this
  rw [runs, List.splitBy_append hbefore, hsplit, List.filter_append,
    List.filter_cons_of_neg (by rw [hnone]; exact Bool.false_ne_true)]
  rfl

variable {s : Bytes}

theorem runs_token (h : IsToken s) : runs s = [s] := by
  have hchain : s.IsChain fun a b => (nameChar a && nameChar b) = true := by
    apply List.Pairwise.isChain
    apply List.pairwise_of_forall_mem_list
    intro a ha b hb
    rw [h.2 a ha, h.2 b hb]
    rfl
  obtain ⟨c, t, rfl⟩ := List.exists_cons_of_ne_nil h.1
  rw [runs, List.splitBy_of_isChain h.1 hchain, List.filter_cons_of_pos, List.filter_nil]
  rw [List.any_cons, h.2 c (List.mem_cons_self ..), Bool.true_or]

/-- **The names of a formula are the runs of name characters in its string.** -/
theorem Derives.mem_runs {isName : Bytes → Prop} {level : Level} {f : Formula}
    (h : Derives isName level s f) (htoken : ∀ name, isName name → IsToken name) :
    runs s = f.names := by
  induction h with
  | name hname => exact runs_token (htoken _ hname)
  | not _ ih => exact (runs_append_cons [] _ rfl).trans ih
  | paren _ ih =>
    rw [← List.nil_append (40 :: _), runs_append_cons [] _ rfl, runs_append_cons _ [] rfl, ih]
    exact List.append_nil _
  | factor _ ih => exact ih
  | and _ _ ihf ihg => rw [runs_append_cons _ _ rfl, ihf, ihg, Formula.names]
  | term _ ih => exact ih
  | or _ _ ihf ihg => rw [runs_append_cons _ _ rfl, ihf, ihg, Formula.names]


/-! ## What is evaluated -/

def IsKnown (valuation : Vals) (name : Bytes) : Prop :=
  name = [49] ∨ name = [48] ∨ valuation.count name = true

def holdsIn (valuation : Vals) (name : Bytes) : Bool := (valueOf valuation name).getD false

/-- Under all valuations of the same names the string is evaluated as the formula. -/
def Evaluates (valuation : Vals) (n : ℕ) (s : Bytes) (f : Formula) : Prop :=
  ∀ valuation' : Vals, (∀ name, valuation'.count name = valuation.count name) →
    resolveRec valuation' n s = some (f.eval (holdsIn valuation'))

variable {valuation : Vals}

theorem derives_joined {n : ℕ} {sep : UInt8} {level operand : Level}
    {op : Formula → Formula → Formula} {combine : List Bool → Bool}
    (hone : ∀ s f, Derives (IsKnown valuation) operand s f → Derives (IsKnown valuation) level s f)
    (hcons : ∀ s t f g, Derives (IsKnown valuation) operand s f →
      Derives (IsKnown valuation) level t g →
        Derives (IsKnown valuation) level (s ++ sep :: t) (op f g))
    (hcombine_one : ∀ b, combine [b] = b)
    (hcombine : ∀ holds f g bs, combine bs = Formula.eval holds g →
      combine (f.eval holds :: bs) = (op f g).eval holds)
    {ps : List Bytes} (hne : ps ≠ [])
    (h : ∀ p ∈ ps, ∃ f, Derives (IsKnown valuation) operand p f ∧ Evaluates valuation n p f) :
    ∃ f, Derives (IsKnown valuation) level (Nesting.joined sep ps) f ∧
      ∀ valuation' : Vals, (∀ name, valuation'.count name = valuation.count name) →
        (LibBoolEE.sequence (ps.map (resolveRec valuation' n))).map combine =
          some (f.eval (holdsIn valuation')) := by
  induction ps with
  | nil => exact absurd rfl hne
  | cons p ps ih =>
    obtain ⟨f, hf, heval⟩ := h p (List.mem_cons_self ..)
    match ps, ih, h with
    | [], _, _ =>
      refine ⟨f, hone p f hf, fun valuation' hkeys => ?_⟩
      rw [List.map_singleton, heval valuation' hkeys, LibBoolEE.sequence, LibBoolEE.sequence,
        Option.map_some, Option.map_some, hcombine_one]
    | q :: qs, ih, h =>
      obtain ⟨g, hg, hevals⟩ := ih (List.cons_ne_nil q qs) fun r hr =>
        h r (List.mem_cons_of_mem p hr)
      refine ⟨op f g, hcons _ _ _ _ hf hg, fun valuation' hkeys => ?_⟩
      obtain ⟨bs, hbs, hcomb⟩ := Option.map_eq_some_iff.1 (hevals valuation' hkeys)
      rw [List.map_cons, heval valuation' hkeys, LibBoolEE.sequence, hbs, Option.map_some,
        Option.map_some, hcombine _ _ _ _ hcomb]

theorem operandsBegin_of_isChain
    (h : (c :: s).IsChain fun a b => opensOperand a = true → startsOperand b = true)
    (hc : opensOperand c = true) : OperandsBegin s := by
  refine ⟨fun d hd => ?_, h.tail⟩
  cases s with
  | nil => cases hd
  | cons a s =>
    obtain rfl := Option.some.inj hd
    exact (List.isChain_cons_cons.1 h).1 hc

theorem OperandsBegin.take (h : OperandsBegin s) (n : ℕ) :
    OperandsBegin (s.take n) := by
  refine ⟨fun d hd => ?_, h.2.take n⟩
  apply h.1
  cases s with
  | nil => simp at hd
  | cons a s =>
    cases n with
    | zero => cases hd
    | succ n => exact hd

theorem OperandsBegin.parts {sep : UInt8} (hsep : opensOperand sep = true) {ps : List Bytes}
    (h : OperandsBegin (Nesting.joined sep ps)) : ∀ p ∈ ps, OperandsBegin p := by
  induction ps with
  | nil => exact fun p hp => absurd hp List.not_mem_nil
  | cons p ps ih =>
    match ps, ih, h with
    | [], _, h =>
      intro q hq
      rw [List.mem_singleton.1 hq]
      exact h
    | q :: qs, ih, h =>
      rw [Nesting.joined] at h
      have hp : OperandsBegin p := by
        have htake := h.take p.length
        rwa [List.take_left] at htake
      have hchain := (List.isChain_append.1 h.2).2.1
      intro r hr
      rcases List.mem_cons.1 hr with rfl | hmem
      · exact hp
      · exact ih (operandsBegin_of_isChain hchain hsep) r hmem

/-! ## Reading a string in which operands begin -/

theorem eq_of_charIs_closes (h : charIs c ")" = true) : c = 41 := by
  have hascii : ascii ")" = [41] := by decide
  rw [charIs, hascii, List.contains_eq_mem, decide_eq_true_eq] at h
  exact List.mem_singleton.1 h

theorem weight_kindOf (op c : UInt8) :
    (kindOf op c).weight = if charIs c ")" then -1 else if charIs c "(" then 1 else 0 := by
  rw [kindOf]
  repeat' split <;> try rfl

theorem singleParse_of_operandsBegin (hne : s ≠ []) (h : OperandsBegin s) (op : UInt8) :
    singleParse s op = Nesting.parts (kindOf op) 0 s := by
  obtain ⟨c, t, rfl⟩ := List.exists_cons_of_ne_nil hne
  have hstarts : startsOperand c = true := h.1 c rfl
  have hcloses : ¬charIs c ")" = true := by
    intro hc
    rw [eq_of_charIs_closes hc] at hstarts
    exact absurd hstarts (by decide)
  have hskip : skipToOperand 0 (c :: t) = (0, c :: t) := by
    rw [skipToOperand, if_neg hcloses, if_pos]
    rw [startsOperand, Bool.or_assoc] at hstarts
    rwa [decide_eq_true rfl, Bool.true_and]
  rw [singleParse_eq, hskip]

theorem removeWhitespaces_eq_self (hspace : ∀ c ∈ s, isSpace c = false) :
    removeWhitespaces s = s := by
  rw [removeWhitespaces, List.filter_eq_self]
  intro c hc
  rw [hspace c hc, Bool.not_false]

theorem depth_of_readFormula {r : Reading} (hspace : ∀ c ∈ s, isSpace c = false)
    (hbegin : OperandsBegin s) (h : readFormula s = some r) :
    Nesting.depth (kindOf 124) s = 0 := by
  rw [readFormula, removeWhitespaces_eq_self hspace] at h
  split at h
  · cases h
  rename_i hempty
  rw [List.isEmpty_iff] at hempty
  obtain ⟨⟨op, parts⟩, htop, -⟩ := Option.bind_eq_some_iff.1 h
  rw [← zero_add (Nesting.depth (kindOf 124) s)]
  rcases topLevel_cases htop with ⟨-, hsum, -⟩ | ⟨-, -, bySum, hsum, -⟩
  · rw [singleParse_of_operandsBegin hempty hbegin] at hsum
    exact Nesting.depth_of_parts hsum
  · rw [singleParse_of_operandsBegin hempty hbegin] at hsum
    exact Nesting.depth_of_parts hsum

/-- **How a string in which operands begin is read**: at the operators that bind loosest. -/
theorem readFormula_cases {r : Reading} (hspace : ∀ c ∈ s, isSpace c = false)
    (hbegin : OperandsBegin s) (h : readFormula s = some r) :
    (∃ ps, r = .disjunction ps ∧ s = Nesting.joined 124 ps ∧ ps ≠ [] ∧
        ¬Nesting.Whole (kindOf 124) 0 s ∧ ∀ p ∈ ps, Nesting.Whole (kindOf 124) 0 p) ∨
      (∃ ps, r = .conjunction ps ∧ s = Nesting.joined 38 ps ∧ ps ≠ [] ∧
        ¬Nesting.Whole (kindOf 38) 0 s ∧
          ∀ p ∈ ps, Nesting.Whole (kindOf 124) 0 p ∧ Nesting.Whole (kindOf 38) 0 p) ∨
      (Nesting.Whole (kindOf 124) 0 s ∧ Nesting.Whole (kindOf 38) 0 s ∧
        ((∃ t, r = .negation t ∧ s = 33 :: t) ∨ (∃ t c, r = .group t ∧ s = 40 :: (t ++ [c])) ∨
          r = .var s)) := by
  rw [readFormula, removeWhitespaces_eq_self hspace] at h
  split at h
  · cases h
  rename_i hempty
  rw [List.isEmpty_iff] at hempty
  obtain ⟨⟨op, parts⟩, htop, hread⟩ := Option.bind_eq_some_iff.1 h
  rcases topLevel_cases htop with ⟨rfl, hparts, hmany⟩ | ⟨rfl, hparts, bySum, hsum, hone⟩
  · rw [singleParse_of_operandsBegin hempty hbegin] at hparts
    have hjoined := Nesting.parts_joined (fun c => eq_of_separates) hparts
    have hnot : ¬Nesting.Whole (kindOf 124) 0 s := by
      intro hwhole
      rw [Nesting.Whole, hparts] at hwhole
      rw [Option.some.inj hwhole] at hmany
      exact hmany rfl
    rcases parts with _ | ⟨p, _ | ⟨q, ps⟩⟩
    · exact absurd rfl (Nesting.parts_ne_nil hparts)
    · exact absurd rfl hmany
    · obtain ⟨hp, hps⟩ := Nesting.whole_of_parts hparts
      refine .inl ⟨p :: q :: ps, (Option.some.inj hread).symm, hjoined.symm,
        List.cons_ne_nil _ _, hnot, fun r hr => ?_⟩
      rcases List.mem_cons.1 hr with rfl | hmem
      · exact hp
      · exact hps r hmem
  · rw [singleParse_of_operandsBegin hempty hbegin] at hparts hsum
    have hjoined := Nesting.parts_joined (fun c => eq_of_separates) hparts
    have hwhole : Nesting.Whole (kindOf 124) 0 s := by
      obtain ⟨p, rfl⟩ := List.length_eq_one_iff.1 hone
      rw [Nesting.eq_of_parts_singleton (fun c => eq_of_separates) hsum] at hsum
      exact hsum
    rcases parts with _ | ⟨p, _ | ⟨q, ps⟩⟩
    · exact absurd rfl (Nesting.parts_ne_nil hparts)
    · have hp : p = s := Nesting.eq_of_parts_singleton (fun c => eq_of_separates) hparts
      rw [hp] at hparts
      refine .inr (.inr ⟨hwhole, hparts, ?_⟩)
      dsimp only [readParts] at hread
      obtain ⟨c, t, rfl⟩ := List.exists_cons_of_ne_nil hempty
      split at hread
      · rename_i hc
        have hc : c = 33 := beq_iff_eq.1 hc
        exact .inl ⟨t, (Option.some.inj hread).symm, by rw [hc]⟩
      split at hread
      · rename_i hc
        have hc : c = 40 := beq_iff_eq.1 hc
        subst hc
        have hdepth := Nesting.depth_of_parts hparts
        rcases List.eq_nil_or_concat t with rfl | ⟨t, d, rfl⟩
        · exact absurd hdepth (by decide)
        · refine .inr (.inl ⟨t, d, ?_, by rw [List.concat_eq_append]⟩)
          have hlength : (40 :: (t ++ [d])).length - 2 = t.length := by
            rw [List.length_cons, List.length_append, List.length_singleton]
            rfl
          rw [← Option.some.inj hread, Bytes.substr, List.concat_eq_append, hlength, List.drop_one,
            List.tail_cons, List.take_left]
      · exact .inr (.inr (Option.some.inj hread).symm)
    · have hnot : ¬Nesting.Whole (kindOf 38) 0 s := by
        intro hwhole
        rw [Nesting.Whole, hparts] at hwhole
        cases Option.some.inj hwhole
      obtain ⟨hp, hps⟩ := Nesting.whole_of_parts hparts
      obtain ⟨hp', hps'⟩ := hwhole.of_parts
        (fun c => (weight_kindOf 124 c).trans (weight_kindOf 38 c).symm) hparts
      refine .inr (.inl ⟨p :: q :: ps, (Option.some.inj hread).symm, hjoined.symm,
        List.cons_ne_nil _ _, hnot, fun r hr => ?_⟩)
      rcases List.mem_cons.1 hr with rfl | hmem
      · exact ⟨hp', hp⟩
      · exact ⟨hps' r hmem, hps r hmem⟩

variable {name : Bytes}

theorem valueOf_eq {valuation valuation' : Vals} (hname : IsKnown valuation name)
    (hkeys : ∀ name, valuation'.count name = valuation.count name) :
    valueOf valuation' name = some (holdsIn valuation' name) := by
  have hsome : (valueOf valuation' name).isSome = true := by
    rw [valueOf]
    split
    · rfl
    split
    · rfl
    · rename_i hone hzero
      rcases hname with rfl | rfl | hcount
      · exact absurd rfl hone
      · exact absurd rfl hzero
      · exact (hkeys name).trans hcount
  obtain ⟨b, hb⟩ := Option.isSome_iff_exists.1 hsome
  rw [holdsIn, hb, Option.getD_some]

theorem isKnown_of_valueOf
    (h : (valueOf valuation name).isSome = true) : IsKnown valuation name := by
  rw [valueOf] at h
  split at h
  · rename_i hone
    exact .inl (beq_iff_eq.1 hone)
  split at h
  · rename_i hzero
    exact .inr (.inl (beq_iff_eq.1 hzero))
  · exact .inr (.inr h)

theorem closes_of_resolveRec {n : ℕ} {t : Bytes}
    (hwhole : Nesting.Whole (kindOf 124) 0 (40 :: (t ++ [c])))
    (hspace : ∀ c ∈ t, isSpace c = false) (ht : OperandsBegin t)
    (hsome : (resolveRec valuation n t).isSome = true) : c = 41 := by
  have hinner : Nesting.depth (kindOf 124) t = 0 := by
    cases n with
    | zero => exact absurd hsome Bool.false_ne_true
    | succ n =>
      rw [resolveRec_succ] at hsome
      cases hread : readFormula t with
      | none =>
        rw [hread] at hsome
        exact absurd hsome Bool.false_ne_true
      | some r => exact depth_of_readFormula hspace ht hread
  have hdepth := Nesting.depth_of_parts hwhole
  have hopens : (kindOf 124 40).weight = 1 := by decide
  rw [Nesting.depth] at hinner
  rw [Nesting.depth, List.map_cons, List.sum_cons, List.map_append, List.sum_append, hinner,
    List.map_singleton, List.sum_singleton, hopens, weight_kindOf] at hdepth
  split at hdepth
  · rename_i hc
    exact eq_of_charIs_closes hc
  split at hdepth <;> omega

/-- **What has a value is an expression**, if operands begin where they should: for each operator
the parts between which it stands are read as what binds more tightly, and the value is that of the
formula.  The induction is on the depth of the recursion. -/
theorem resolveRec_derives (valuation : Vals) (n : ℕ) : ∀ s : Bytes,
    (∀ c ∈ s, isSpace c = false) → OperandsBegin s → (resolveRec valuation n s).isSome = true →
      ∃ f, Derives (IsKnown valuation) .expr s f ∧
        (Nesting.Whole (kindOf 124) 0 s → Derives (IsKnown valuation) .term s f) ∧
        (Nesting.Whole (kindOf 124) 0 s → Nesting.Whole (kindOf 38) 0 s →
          Derives (IsKnown valuation) .factor s f) ∧
        Evaluates valuation n s f := by
  induction n with
  | zero => exact fun s _ _ h => absurd h Bool.false_ne_true
  | succ n ih =>
    intro s hspace hbegin hsome
    rw [resolveRec_succ] at hsome
    cases hread : readFormula s with
    | none =>
      rw [hread] at hsome
      exact absurd hsome Bool.false_ne_true
    | some r =>
    have hround : ∀ valuation', resolveRec valuation' (n + 1) s =
        r.eval valuation' (resolveRec valuation' n) := by
      intro valuation'
      rw [resolveRec_succ, hread, Option.bind_some]
    rw [hread, Option.bind_some] at hsome
    rcases readFormula_cases hspace hbegin hread with
      ⟨ps, rfl, hs, hne, hnot, hwhole⟩ | ⟨ps, rfl, hs, hne, hnot, hwhole⟩ | ⟨hsum, hand, hfactor⟩
    · rw [Reading.eval, Option.isSome_map, isSome_sequence, List.all_map, List.all_eq_true] at hsome
      obtain ⟨f, hf, heval⟩ := @derives_joined valuation n 124 .expr .term .or (fun bs => bs.any id)
        (fun _ _ => .term) (fun _ _ _ _ => .or) (fun b => Bool.or_false b)
        (fun holds f g bs hbs => congrArg (f.eval holds || ·) hbs) ps hne fun p hp => by
          have hsub : p ⊆ s := hs ▸ Nesting.subset_joined hp
          have hparts : OperandsBegin p := OperandsBegin.parts rfl (hs ▸ hbegin) p hp
          obtain ⟨f, -, hterm, -, heval⟩ :=
            ih p (fun c hc => hspace c (hsub hc)) hparts (hsome p hp)
          exact ⟨f, hterm (hwhole p hp), heval⟩
      rw [← hs] at hf
      refine ⟨f, hf, fun h => absurd h hnot, fun h => absurd h hnot, fun valuation' hkeys => ?_⟩
      rw [hround, Reading.eval]
      exact heval valuation' hkeys
    · rw [Reading.eval, Option.isSome_map, isSome_sequence, List.all_map, List.all_eq_true] at hsome
      obtain ⟨f, hf, heval⟩ := @derives_joined valuation n 38 .term .factor .and
        (fun bs => bs.all id) (fun _ _ => .factor) (fun _ _ _ _ => .and) (fun b => Bool.and_true b)
        (fun holds f g bs hbs => congrArg (f.eval holds && ·) hbs) ps hne fun p hp => by
          have hsub : p ⊆ s := hs ▸ Nesting.subset_joined hp
          have hparts : OperandsBegin p := OperandsBegin.parts rfl (hs ▸ hbegin) p hp
          obtain ⟨f, -, -, hfactor, heval⟩ :=
            ih p (fun c hc => hspace c (hsub hc)) hparts (hsome p hp)
          exact ⟨f, hfactor (hwhole p hp).1 (hwhole p hp).2, heval⟩
      rw [← hs] at hf
      refine ⟨f, .term hf, fun _ => hf, fun _ h => absurd h hnot, fun valuation' hkeys => ?_⟩
      rw [hround, Reading.eval]
      exact heval valuation' hkeys
    · have hfactor : ∃ f, Derives (IsKnown valuation) .factor s f ∧
          Evaluates valuation (n + 1) s f := by
        rcases hfactor with ⟨t, rfl, rfl⟩ | ⟨t, c, rfl, rfl⟩ | rfl
        · rw [Reading.eval, Option.isSome_map] at hsome
          obtain ⟨-, -, hsum'⟩ := hsum.of_cons
          obtain ⟨-, -, hand'⟩ := hand.of_cons
          obtain ⟨f, -, -, hf, heval⟩ := ih t (fun c hc => hspace c (List.mem_cons_of_mem _ hc))
            (operandsBegin_of_isChain hbegin.2 rfl) hsome
          refine ⟨.not f, .not (hf hsum' hand'), fun valuation' hkeys => ?_⟩
          rw [hround, Reading.eval, heval valuation' hkeys, Option.map_some, Formula.eval]
        · rw [Reading.eval] at hsome
          have hinner : OperandsBegin (t ++ [c]) := operandsBegin_of_isChain hbegin.2 rfl
          have ht : OperandsBegin t := by
            have htake := hinner.take t.length
            rwa [List.take_left] at htake
          obtain ⟨f, hf, -, -, heval⟩ := ih t
            (fun d hd => hspace d (List.mem_cons_of_mem _ (List.mem_append_left _ hd))) ht hsome
          have hc : c = 41 := closes_of_resolveRec hsum
            (fun d hd => hspace d (List.mem_cons_of_mem _ (List.mem_append_left _ hd))) ht hsome
          subst hc
          refine ⟨f, .paren hf, fun valuation' hkeys => ?_⟩
          rw [hround, Reading.eval, heval valuation' hkeys]
        · rw [Reading.eval] at hsome
          have hname := isKnown_of_valueOf hsome
          refine ⟨.var s, .name hname, fun valuation' hkeys => ?_⟩
          rw [hround, Reading.eval, valueOf_eq hname hkeys, Formula.eval]
      obtain ⟨f, hf, heval⟩ := hfactor
      exact ⟨f, .term (.factor hf), fun _ => .factor hf, fun _ _ => hf, heval⟩

theorem not_opensOperand (h : nameChar c = true) : opensOperand c = false := by
  by_contra hc
  rw [Bool.not_eq_false, opensOperand, charIs, List.contains_eq_mem, decide_eq_true_eq] at hc
  have hall : ((ascii "(!&|").all fun c => !nameChar c) = true := by decide
  have hclass := List.all_eq_true.1 hall c hc
  rw [h] at hclass
  cases hclass

theorem startsOperand_of_nameChar (h : nameChar c = true) : startsOperand c = true := by
  have hpunct : (ascii "._").contains c = true → charIs c "_#." = true := by
    intro hc
    rw [List.contains_eq_mem, decide_eq_true_eq] at hc
    have hall : ((ascii "._").all fun c => charIs c "_#.") = true := by decide
    exact List.all_eq_true.1 hall c hc
  rw [nameChar, Bool.or_eq_true, Bool.or_eq_true] at h
  rw [startsOperand, belongsToName]
  rcases h with (h | h) | h
  · simp [h]
  · simp [h]
  · simp [hpunct h]

theorem Derives.begins {isName : Bytes → Prop} {level : Level} {f : Formula}
    (h : Derives isName level s f) (htoken : ∀ name, isName name → IsToken name) :
    s ≠ [] ∧ OperandsBegin s ∧ ∀ c ∈ s.getLast?, opensOperand c = false := by
  have hjoin : ∀ {s t : Bytes} {op : UInt8}, startsOperand op = false →
      (s ≠ [] ∧ OperandsBegin s ∧ ∀ c ∈ s.getLast?, opensOperand c = false) →
      (t ≠ [] ∧ OperandsBegin t ∧ ∀ c ∈ t.getLast?, opensOperand c = false) →
        s ++ op :: t ≠ [] ∧ OperandsBegin (s ++ op :: t) ∧
          ∀ c ∈ (s ++ op :: t).getLast?, opensOperand c = false := by
    intro s t op hop hs ht
    obtain ⟨c, s, rfl⟩ := List.exists_cons_of_ne_nil hs.1
    refine ⟨List.cons_ne_nil _ _, ⟨hs.2.1.1, ?_⟩, ?_⟩
    · refine List.isChain_append.2 ⟨hs.2.1.2, List.isChain_cons.2 ⟨?_, ht.2.1.2⟩, ?_⟩
      · exact fun d hd _ => ht.2.1.1 d hd
      · intro a ha b hb hopens
        rw [hs.2.2 a ha] at hopens
        cases hopens
    · rw [List.getLast?_append_cons, List.getLast?_cons_of_ne_nil ht.1]
      exact ht.2.2
  induction h with
  | name hname =>
    obtain ⟨hne, hall⟩ := htoken _ hname
    refine ⟨hne, ⟨fun c hc => startsOperand_of_nameChar (hall c (List.mem_of_mem_head? hc)), ?_⟩,
      fun c hc => not_opensOperand (hall c (List.mem_of_getLast? hc))⟩
    apply List.Pairwise.isChain
    apply List.pairwise_of_forall_mem_list
    intro a ha b _ hopens
    rw [not_opensOperand (hall a ha)] at hopens
    cases hopens
  | not _ ih =>
    refine ⟨List.cons_ne_nil _ _, ⟨fun c hc => ?_, ?_⟩, ?_⟩
    · rw [← Option.some.inj hc]
      decide
    · exact List.isChain_cons.2 ⟨fun d hd _ => ih.2.1.1 d hd, ih.2.1.2⟩
    · rw [List.getLast?_cons_of_ne_nil ih.1]
      exact ih.2.2
  | @paren s f _ ih =>
    refine ⟨List.cons_ne_nil _ _, ⟨fun c hc => ?_, ?_⟩, ?_⟩
    · rw [← Option.some.inj hc]
      decide
    · refine List.isChain_cons.2 ⟨fun d hd _ => ?_, List.isChain_append.2
        ⟨ih.2.1.2, List.isChain_singleton _, fun a ha b _ hopens => ?_⟩⟩
      · obtain ⟨c, s, rfl⟩ := List.exists_cons_of_ne_nil ih.1
        exact ih.2.1.1 d hd
      · rw [ih.2.2 a ha] at hopens
        cases hopens
    · intro c hc
      rw [← List.cons_append, List.getLast?_concat] at hc
      rw [← Option.some.inj hc]
      decide
  | factor _ ih | term _ ih => exact ih
  | and _ _ ihf ihg | or _ _ ihf ihg => exact hjoin (by decide) ihf ihg

/-! ## Verifiers that have been checked -/

theorem find?_valuationOf {qualifiers : List Bytes} (f : Bytes → Bool)
    (h : name ∈ qualifiers) : (valuationOf qualifiers f).find? name = some (f name) := by
  have hfold : ∀ (l : List Bytes) (vals : Vals),
      (vals.find? name = some (f name) ∨ (vals.find? name = none ∧ name ∈ l)) →
      (l.foldl (fun vals qualifier => vals.emplace qualifier (f qualifier)) vals).find? name =
        some (f name) := by
    intro l
    induction l with
    | nil =>
      rintro vals (hsome | ⟨-, hmem⟩)
      · exact hsome
      · cases hmem
    | cons qualifier l ih =>
      intro vals hvals
      rw [List.foldl_cons]
      apply ih
      rw [StdMap.find?_emplace]
      by_cases heq : name = qualifier
      · subst heq
        rw [if_pos rfl]
        rcases hvals with hsome | ⟨hnone, -⟩
        · rw [hsome]
          exact .inl rfl
        · rw [hnone]
          exact .inl rfl
      · rw [if_neg heq]
        refine hvals.imp_right fun hnone => ⟨hnone.1, ?_⟩
        exact (List.mem_cons.1 hnone.2).resolve_left heq
  exact hfold qualifiers ∅ (.inr ⟨rfl, h⟩)

theorem isToken_of_isQualifierNameValid
    (h : isQualifierNameValid (QUALIFIER_CHAR :: name) = true) :
    IsToken name ∧ 3 ≤ name.length := by
  simp only [isQualifierNameValid, isPartValid, Bool.and_eq_true] at h
  obtain ⟨u, v, heq, hu, hv⟩ := Regex.regexMatch_cat.1 h.1.1.1.1
  rw [Regex.regexMatch_lit.1 hu] at heq
  obtain ⟨hlength, hall⟩ := Regex.regexMatch_atLeast_chars.1 hv
  obtain rfl : name = v := (List.cons.inj heq).2
  refine ⟨⟨?_, hall⟩, hlength⟩
  rintro rfl
  cases hlength

theorem resolveRec_removeWhitespaces (valuation : Vals) (n : ℕ) (formula : Bytes) :
    resolveRec valuation n (removeWhitespaces formula) = resolveRec valuation n formula := by
  have htwice : removeWhitespaces (removeWhitespaces formula) = removeWhitespaces formula := by
    apply removeWhitespaces_eq_self
    intro c hc
    rw [← Bool.not_eq_true']
    exact (List.mem_filter.1 hc).2
  cases n with
  | zero => rfl
  | succ n => rw [resolveRec_succ, resolveRec_succ, readFormula, htwice, readFormula]

theorem holdsIn_valuationOf {qualifiers : List Bytes} (holds : Bytes → Bool)
    (hmem : name ∈ qualifiers) (hlength : 3 ≤ name.length) :
    holdsIn (valuationOf qualifiers holds) name = holds name := by
  have hone : ¬(name == [49]) = true := by
    intro heq
    rw [beq_iff_eq.1 heq] at hlength
    exact absurd hlength (by decide)
  have hzero : ¬(name == [48]) = true := by
    intro heq
    rw [beq_iff_eq.1 heq] at hlength
    exact absurd hlength (by decide)
  rw [holdsIn, valueOf, if_neg hone, if_neg hzero, find?_valuationOf holds hmem, Option.getD_some]

/-- **Verifiers mean what they say** where nothing stands in front of their operands.  Such a
verifier, unless it is `true`, is an expression over the names of qualifiers, and evaluates to what
the expression means; nothing else that is accepted does. -/
theorem checkVerifierString_means {verifier : Bytes} {qualifiers : List Bytes}
    (h : checkVerifierString verifier = .ok qualifiers) :
    (∃ f, Derives (fun name => isQualifierNameValid (QUALIFIER_CHAR :: name) = true) .expr
          (removeWhitespaces verifier) f ∧
        ∀ holds : Bytes → Bool,
          resolve verifier (valuationOf qualifiers holds) = some (f.eval holds)) ↔
      verifier ≠ ascii "true" ∧ OperandsBegin (removeWhitespaces verifier) := by
  constructor
  · rintro ⟨f, hf, heval⟩
    refine ⟨?_, (hf.begins fun name hname => (isToken_of_isQualifierNameValid hname).1).2.1⟩
    rintro rfl
    have hchars := hf.chars fun name hname => (isToken_of_isQualifierNameValid hname).1
    have hlower : ¬(nameChar 116 = true ∨ charIs 116 "!&|()" = true) := by decide
    exact hlower (hchars 116 (by decide))
  · rintro ⟨hverifier, hbegin⟩
    obtain ⟨-, -, hnames, hresolve, hfound⟩ := (checkVerifierString_eq_ok hverifier).1 h
    have hvalid : ∀ name, IsKnown (valuationOf qualifiers fun _ => true) name → IsToken name := by
      rintro name (rfl | rfl | hcount)
      · exact ⟨by decide +kernel, by decide +kernel⟩
      · exact ⟨by decide +kernel, by decide +kernel⟩
      · rw [count_valuationOf, decide_eq_true_eq] at hcount
        exact (isToken_of_isQualifierNameValid (hnames name hcount)).1
    have hspace : ∀ c ∈ removeWhitespaces verifier, isSpace c = false := by
      intro c hc
      rw [← Bool.not_eq_true']
      exact (List.mem_filter.1 hc).2
    rw [resolve, ← resolveRec_removeWhitespaces] at hresolve
    obtain ⟨f, hf, -, -, heval⟩ := resolveRec_derives _ _ _ hspace hbegin hresolve
    have hstripped : getStrippedVerifierString verifier = removeWhitespaces verifier := by
      rw [getStrippedVerifierString, removeCharacter, List.filter_eq_self]
      intro c hc
      rw [Bool.not_eq_true', beq_eq_false_iff_ne]
      rintro rfl
      have hchar : ¬(nameChar 35 = true ∨ charIs 35 "!&|()" = true) := by decide
      exact hchar (hf.chars hvalid 35 hc)
    have hmem : ∀ name ∈ f.names, name ∈ qualifiers := by
      intro name hname
      rw [← hfound, hstripped, mem_extractVerifierStringQualifiers, hf.mem_runs hvalid]
      exact hname
    refine ⟨f, hf.mono fun name hname => hnames name (hmem name hname), fun holds => ?_⟩
    rw [resolve, ← resolveRec_removeWhitespaces, heval (valuationOf qualifiers holds) fun name => by
      rw [count_valuationOf, count_valuationOf]]
    refine congrArg some (Formula.eval_congr fun name hname => ?_)
    exact holdsIn_valuationOf holds (hmem name hname)
      (isToken_of_isQualifierNameValid (hnames name (hmem name hname))).2

/-- A disjunction of two qualifiers. -/
theorem disjunction_means :
    ∃ f, Derives (fun name => isQualifierNameValid (QUALIFIER_CHAR :: name) = true) .expr
        (removeWhitespaces (ascii "AAA|BBB")) f ∧
      ∀ holds : Bytes → Bool,
        resolve (ascii "AAA|BBB") (valuationOf [ascii "AAA", ascii "BBB"] holds) =
          some (f.eval holds) :=
  (checkVerifierString_means (by decide +kernel)).2
    ⟨by decide, fun c hc => by rw [← Option.some.inj hc]; decide, by decide +kernel⟩

/-- **An operator in front of the first operand is accepted and passed over.** -/
theorem leadingOperator_accepted :
    checkVerifierString (ascii "|AAA|BBB") = .ok [ascii "AAA", ascii "BBB"] ∧
      resolve (ascii "|AAA|BBB") (valuationOf [ascii "AAA", ascii "BBB"] fun _ => true) =
        some true ∧
      ¬∃ f, Derives (fun name => isQualifierNameValid (QUALIFIER_CHAR :: name) = true) .expr
        (ascii "|AAA|BBB") f := by
  refine ⟨by decide +kernel, by decide +kernel, ?_⟩
  rintro ⟨f, hf⟩
  have hbegin := (hf.begins fun name hname => (isToken_of_isQualifierNameValid hname).1).2.1
  exact absurd (hbegin.1 124 rfl) (by decide)

end UnemployCoin
