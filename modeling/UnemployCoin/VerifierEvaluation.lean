import UnemployCoin.Lib.Nesting
import UnemployCoin.Contextual
/-!
# Evaluation of verifier strings

`LibBoolEE` reads a formula while it evaluates it.  `singleParse` skips what stands in front of
the first operand and cuts the rest at the operators outside parentheses (`singleParse_eq`).  One
round of `resolveRec` is `resolveStep`, which evaluates shorter formulas only
(`resolveStep_congr`), so the recursion ends (`resolve_eq`), and which of them throws is not up to
the valuation (`isSome_resolveStep`).
-/

namespace UnemployCoin

open Check

namespace LibBoolEE

/-! ## `singleParse` -/

/-- What `singleParse` takes a character for. -/
def kindOf (op c : UInt8) : Nesting.Kind :=
  if charIs c ")" then .closes
  else if charIs c "(" then .opens
  else if belongsToName c || charIs c "!" then .keeps
  else if c == op then .separates
  else if charIs c "&|" then .keeps
  else .fails

def startsOperand (c : UInt8) : Bool := charIs c "(" || belongsToName c || charIs c "!"

/-- What stands in front of the first operand is skipped: the depth behind it, and the rest. -/
def skipToOperand : ℤ → Bytes → ℤ × Bytes
  | d, [] => (d, [])
  | d, c :: s =>
    if charIs c ")" then skipToOperand (d - 1) s
    else if charIs c "(" || (decide (d = 0) && (belongsToName c || charIs c "!")) then (d, c :: s)
    else skipToOperand d s

/-- What `singleParse` makes of the state behind its loop. -/
def finishParse (formula : Bytes) (s : ParseState) : Option (List Bytes) :=
  let subexpressions := match s.start_pos with
    | some start_pos => s.subexpressions ++ [formula.drop start_pos]
    | none => s.subexpressions
  if s.parity_count ≠ 0 then none else some subexpressions

theorem parseStep_started {formula : Bytes} {op : UInt8} {start_pos i : ℕ} {d : ℤ}
    {subexpressions : List Bytes} {c : UInt8} :
    parseStep formula op ⟨some start_pos, d, subexpressions⟩ i c =
      if d = 0 ∧ kindOf op c = .separates then
        some ⟨some (i + 1), d,
          subexpressions ++ [formula.substr start_pos (i - start_pos)]⟩
      else if d = 0 ∧ kindOf op c = .fails then none
      else some ⟨some start_pos, d + (kindOf op c).weight, subexpressions⟩ := by
  rw [parseStep, kindOf]
  generalize charIs c ")" = closes, charIs c "(" = opens,
    (belongsToName c || charIs c "!") = name, (c == op) = separates, charIs c "&|" = operator
  by_cases hd : d = 0
  · cases closes <;> cases opens <;> cases name <;> cases separates <;> cases operator <;>
      simp [hd, Nesting.Kind.weight]
  · cases closes <;> cases opens <;> cases name <;> cases separates <;> cases operator <;>
      simp [hd, Nesting.Kind.weight, Int.sub_eq_add_neg]

/-- **From the first operand on the formula is cut at the operators outside parentheses.** -/
theorem foldlM_started (formula : Bytes) (op : UInt8) (rest : Bytes) :
    ∀ (pre cur : Bytes) (d : ℤ) (subexpressions : List Bytes), formula = pre ++ cur ++ rest →
      ((rest.zipIdx (pre.length + cur.length)).foldlM
        (fun s e => parseStep formula op s e.2 e.1)
        (⟨some pre.length, d, subexpressions⟩ : ParseState)).bind (finishParse formula) =
      (Nesting.parts (kindOf op) d rest).map fun ps =>
        subexpressions ++ Nesting.prepend cur ps := by
  induction rest with
  | nil =>
    intro pre cur d subexpressions hformula
    have hdrop : formula.drop pre.length = cur := by
      rw [hformula, List.append_nil, List.drop_left]
    rw [Nesting.parts]
    by_cases hd : d = 0
    · simp [finishParse, hd, hdrop, Nesting.prepend]
    · simp [finishParse, hd]
  | cons c rest ih =>
    intro pre cur d subexpressions hformula
    have hnext : pre.length + cur.length + 1 = pre.length + (cur ++ [c]).length := by
      rw [List.length_append, List.length_singleton, Nat.add_assoc]
    rw [List.zipIdx_cons, List.foldlM_cons, parseStep_started, Nesting.parts]
    by_cases hsep : d = 0 ∧ kindOf op c = .separates
    · have hcut : formula.substr pre.length (pre.length + cur.length - pre.length) = cur := by
        rw [Bytes.substr, hformula, List.append_assoc, List.drop_left, Nat.add_sub_cancel_left,
          List.take_left]
      have hpre : pre.length + cur.length + 1 = (pre ++ cur ++ [c]).length := by
        rw [List.length_append, List.length_append, List.length_singleton]
      have hformula' : formula = (pre ++ cur ++ [c]) ++ [] ++ rest := by
        rw [hformula, List.append_nil, List.append_assoc (pre ++ cur), List.singleton_append]
      have hlater := ih (pre ++ cur ++ [c]) [] d (subexpressions ++ [cur]) hformula'
      rw [if_pos hsep, if_pos hsep, hcut, hpre]
      rw [List.length_nil, Nat.add_zero] at hlater
      rw [Option.map_map]
      refine Eq.trans hlater ?_
      cases hparts : Nesting.parts (kindOf op) d rest with
      | none => rfl
      | some ps =>
        have hnil := Nesting.prepend_nil (Nesting.parts_ne_nil hparts)
        have hcur : Nesting.prepend cur ([] :: ps) = cur :: ps := by
          rw [Nesting.prepend, List.append_nil]
        simp only [Option.map_some, Function.comp_apply, hnil, hcur, List.append_assoc,
          List.singleton_append]
    · rw [if_neg hsep, if_neg hsep]
      by_cases hfails : d = 0 ∧ kindOf op c = .fails
      · rw [if_pos hfails, if_pos hfails]
        rfl
      · have hformula' : formula = pre ++ (cur ++ [c]) ++ rest := by
          rw [hformula, List.append_assoc, List.append_assoc, List.append_assoc,
            List.singleton_append]
        have hlater := ih pre (cur ++ [c]) (d + (kindOf op c).weight) subexpressions hformula'
        rw [if_neg hfails, if_neg hfails, hnext, Option.map_map]
        refine Eq.trans hlater ?_
        simp only [Function.comp_def, Nesting.prepend_prepend]

theorem parseStep_notStarted {formula : Bytes} {op : UInt8} {i : ℕ} {d : ℤ} {c : UInt8} :
    parseStep formula op ⟨none, d, []⟩ i c =
      if charIs c ")" then some ⟨none, d - 1, []⟩
      else if charIs c "(" || (decide (d = 0) && (belongsToName c || charIs c "!")) then
        parseStep formula op ⟨some i, d, []⟩ i c
      else some ⟨none, d, []⟩ := by
  rw [parseStep, parseStep]
  generalize charIs c ")" = closes, charIs c "(" = opens,
    (belongsToName c || charIs c "!") = name, (c == op) = separates, charIs c "&|" = operator
  by_cases hd : d = 0
  · cases closes <;> cases opens <;> cases name <;> simp [hd]
  · cases closes <;> cases opens <;> cases name <;> simp [hd]

/-- **What `singleParse` does**: it skips to the first operand and cuts the rest. -/
theorem singleParse_eq (formula : Bytes) (op : UInt8) :
    singleParse formula op =
      match skipToOperand 0 formula with
      | (d, []) => if d = 0 then some [] else none
      | (d, c :: rest) => Nesting.parts (kindOf op) d (c :: rest) := by
  have hskip : ∀ (rest pre : Bytes) (d : ℤ), formula = pre ++ rest →
      ((rest.zipIdx pre.length).foldlM (fun s e => parseStep formula op s e.2 e.1)
        (⟨none, d, []⟩ : ParseState)).bind (finishParse formula) =
      match skipToOperand d rest with
      | (d, []) => if d = 0 then some [] else none
      | (d, c :: rest) => Nesting.parts (kindOf op) d (c :: rest) := by
    intro rest
    induction rest with
    | nil =>
      intro pre d _
      rw [skipToOperand]
      by_cases hd : d = 0 <;> simp [finishParse, hd]
    | cons c rest ih =>
      intro pre d hformula
      have hformula' : formula = (pre ++ [c]) ++ rest := by
        rw [hformula, List.append_assoc, List.singleton_append]
      have hnext : pre.length + 1 = (pre ++ [c]).length := by
        rw [List.length_append, List.length_singleton]
      have hstart := foldlM_started formula op (c :: rest) pre [] d [] (by
        rw [List.append_nil]
        exact hformula)
      rw [List.length_nil, Nat.add_zero, List.zipIdx_cons, List.foldlM_cons] at hstart
      rw [List.zipIdx_cons, List.foldlM_cons, parseStep_notStarted, skipToOperand]
      by_cases hcloses : charIs c ")" = true
      · rw [if_pos hcloses, if_pos hcloses, hnext]
        exact ih (pre ++ [c]) (d - 1) hformula'
      rw [if_neg hcloses, if_neg hcloses]
      by_cases hbegins : (charIs c "(" || (decide (d = 0) && (belongsToName c || charIs c "!"))) =
          true
      · rw [if_pos hbegins, if_pos hbegins]
        refine Eq.trans hstart ?_
        show Option.map _ _ = Nesting.parts (kindOf op) d (c :: rest)
        cases hparts : Nesting.parts (kindOf op) d (c :: rest) with
        | none => rfl
        | some ps =>
          rw [Option.map_some, List.nil_append, Nesting.prepend_nil (Nesting.parts_ne_nil hparts)]
      · rw [if_neg hbegins, if_neg hbegins, hnext]
        exact ih (pre ++ [c]) d hformula'
  exact hskip formula [] 0 rfl

theorem skipToOperand_suffix (s : Bytes) : ∀ d : ℤ, (skipToOperand d s).2 <:+ s := by
  induction s with
  | nil => exact fun _ => List.suffix_refl []
  | cons c s ih =>
    intro d
    rw [skipToOperand]
    split
    · exact (ih _).trans (List.suffix_cons c s)
    split
    · exact List.suffix_refl _
    · exact (ih _).trans (List.suffix_cons c s)

theorem eq_of_separates {op c : UInt8} (h : kindOf op c = .separates) : c = op := by
  rw [kindOf] at h
  split at h
  · cases h
  split at h
  · cases h
  split at h
  · cases h
  split at h
  · rename_i heq
    exact beq_iff_eq.1 heq
  split at h <;> cases h

theorem length_lt_of_singleParse {formula : Bytes} {op : UInt8} {parts : List Bytes}
    (h : singleParse formula op = some parts) (hmany : parts.length ≠ 1) {part : Bytes}
    (hpart : part ∈ parts) : part.length < formula.length := by
  rw [singleParse_eq] at h
  have hsuffix := skipToOperand_suffix formula 0
  match hskip : skipToOperand 0 formula with
  | (d, []) =>
    rw [hskip] at h
    dsimp only at h
    split at h
    · rw [← Option.some.inj h] at hpart
      cases hpart
    · cases h
  | (d, c :: rest) =>
    rw [hskip] at h hsuffix
    have hlt := Nesting.length_lt_of_parts (fun c => eq_of_separates) h hmany hpart
    exact Nat.lt_of_lt_of_le hlt hsuffix.length_le

/-! ## One round of `resolveRec` -/

/-- How a formula is read: as a variable, a negation, a group, or operands of one operator. -/
inductive Reading where
  | var (name : Bytes)
  | negation (formula : Bytes)
  | group (formula : Bytes)
  | disjunction (operands : List Bytes)
  | conjunction (operands : List Bytes)
  deriving DecidableEq

def topLevel (source : Bytes) : Option (UInt8 × List Bytes) := do
  let bySum ← singleParse source 124
  if bySum.length = 1 then (singleParse source 38).map fun byAnd => (38, byAnd)
  else some (124, bySum)

def readParts (source : Bytes) (top : UInt8 × List Bytes) : Option Reading :=
  match top.2 with
  | [] => none
  | [_] =>
    if source.at 0 == 33 then some (.negation (source.drop 1))
    else if source.at 0 == 40 then some (.group (source.substr 1 (source.length - 2)))
    else some (.var source)
  | _ => some (if top.1 = 124 then .disjunction top.2 else .conjunction top.2)

def readFormula (formula : Bytes) : Option Reading :=
  let source := removeWhitespaces formula
  if source.isEmpty then none else (topLevel source).bind (readParts source)

def valueOf (valuation : Vals) (name : Bytes) : Option Bool :=
  if name == [49] then some true else if name == [48] then some false else valuation.find? name

namespace Reading

def calls : Reading → List Bytes
  | var _ => []
  | negation formula | group formula => [formula]
  | disjunction operands | conjunction operands => operands

/-- The value of a reading, where `rec` evaluates the formulas in it. -/
def eval (valuation : Vals) (rec : Bytes → Option Bool) : Reading → Option Bool
  | var name => valueOf valuation name
  | negation formula => (rec formula).map fun b => !b
  | group formula => rec formula
  | disjunction operands => (sequence (operands.map rec)).map fun results => results.any id
  | conjunction operands => (sequence (operands.map rec)).map fun results => results.all id

theorem eval_congr {valuation : Vals} {rec rec' : Bytes → Option Bool} {r : Reading}
    (h : ∀ formula ∈ r.calls, rec formula = rec' formula) :
    r.eval valuation rec = r.eval valuation rec' := by
  cases r with
  | var name => rfl
  | negation formula => rw [eval, eval, h formula (List.mem_singleton_self formula)]
  | group formula => exact h formula (List.mem_singleton_self formula)
  | disjunction operands =>
    have hmap : operands.map rec = operands.map rec' := List.map_congr_left h
    rw [eval, eval, hmap]
  | conjunction operands =>
    have hmap : operands.map rec = operands.map rec' := List.map_congr_left h
    rw [eval, eval, hmap]

end Reading

theorem eval_readParts (valuation : Vals) (n : ℕ) (source : Bytes) (top : UInt8 × List Bytes) :
    (match top with
      | (current_op, subexpressions) =>
        match subexpressions with
        | [] => none
        | [_] =>
          if source.at 0 == 33 then (resolveRec valuation n (source.drop 1)).map fun b => !b
          else if source.at 0 == 40 then
            resolveRec valuation n (source.substr 1 (source.length - 2))
          else if source == [49] then some true
          else if source == [48] then some false
          else valuation.find? source
        | _ =>
          (sequence (subexpressions.map (resolveRec valuation n))).bind fun results =>
            if current_op = 124 then some (results.any id) else some (results.all id)) =
      (readParts source top).bind (Reading.eval valuation (resolveRec valuation n)) := by
  obtain ⟨current_op, subexpressions⟩ := top
  rcases subexpressions with _ | ⟨p, _ | ⟨q, ps⟩⟩
  · rfl
  · simp only [readParts]
    split
    · rfl
    split <;> rfl
  · simp only [readParts, Option.bind_some]
    by_cases hop : current_op = 124
    · simp only [if_pos hop, Reading.eval]
      cases sequence ((p :: q :: ps).map (resolveRec valuation n)) <;> rfl
    · simp only [if_neg hop, Reading.eval]
      cases sequence ((p :: q :: ps).map (resolveRec valuation n)) <;> rfl

/-- **A round of `resolveRec` reads the formula and evaluates what it has read.** -/
theorem resolveRec_succ (valuation : Vals) (n : ℕ) (formula : Bytes) :
    resolveRec valuation (n + 1) formula =
      (readFormula formula).bind (Reading.eval valuation (resolveRec valuation n)) := by
  rw [resolveRec, readFormula]
  generalize removeWhitespaces formula = source
  dsimp only
  split
  · rfl
  rw [Option.bind_assoc, topLevel, ← funext (eval_readParts valuation n source)]
  cases singleParse source 124 with
  | none => rfl
  | some bySum => rcases bySum with _ | ⟨p, _ | ⟨q, ps⟩⟩ <;> rfl

/-! ## The recursion ends -/

theorem length_removeWhitespaces_le (formula : Bytes) :
    (removeWhitespaces formula).length ≤ formula.length := List.length_filter_le _ _

theorem topLevel_cases {source : Bytes} {op : UInt8} {parts : List Bytes}
    (h : topLevel source = some (op, parts)) :
    (op = 124 ∧ singleParse source 124 = some parts ∧ parts.length ≠ 1) ∨
      (op = 38 ∧ singleParse source 38 = some parts ∧
        ∃ bySum, singleParse source 124 = some bySum ∧ bySum.length = 1) := by
  rw [topLevel] at h
  obtain ⟨bySum, hsum, h⟩ := Option.bind_eq_some_iff.1 h
  by_cases hone : bySum.length = 1
  · rw [if_pos hone] at h
    obtain ⟨byAnd, hand, heq⟩ := Option.map_eq_some_iff.1 h
    obtain ⟨rfl, rfl⟩ := Prod.mk.inj heq
    exact .inr ⟨rfl, hand, bySum, hsum, hone⟩
  · rw [if_neg hone] at h
    obtain ⟨rfl, rfl⟩ := Prod.mk.inj (Option.some.inj h)
    exact .inl ⟨rfl, hsum, hone⟩

/-- **Only shorter formulas are evaluated.** -/
theorem length_lt_of_mem_calls {formula : Bytes} {r : Reading} (h : readFormula formula = some r)
    {call : Bytes} (hcall : call ∈ r.calls) : call.length < formula.length := by
  refine Nat.lt_of_lt_of_le ?_ (length_removeWhitespaces_le formula)
  rw [readFormula] at h
  generalize removeWhitespaces formula = source at h
  split at h
  · cases h
  rename_i hempty
  have hpos : 0 < source.length := by
    rw [List.isEmpty_iff] at hempty
    exact List.length_pos_iff.2 hempty
  obtain ⟨⟨op, parts⟩, htop, hread⟩ := Option.bind_eq_some_iff.1 h
  have hshorter : parts.length ≠ 1 → ∀ part ∈ parts, part.length < source.length := by
    intro hmany part hpart
    rcases topLevel_cases htop with ⟨-, hparts, -⟩ | ⟨-, hparts, -⟩
    · exact length_lt_of_singleParse hparts hmany hpart
    · exact length_lt_of_singleParse hparts hmany hpart
  rw [readParts] at hread
  rcases parts with _ | ⟨p, _ | ⟨q, ps⟩⟩
  · cases hread
  · dsimp only at hread
    split at hread
    · obtain rfl := Option.some.inj hread
      rw [List.mem_singleton.1 hcall, List.length_drop]
      omega
    split at hread
    · obtain rfl := Option.some.inj hread
      rw [List.mem_singleton.1 hcall, Bytes.substr, List.length_take, List.length_drop]
      omega
    · obtain rfl := Option.some.inj hread
      cases hcall
  · have hmany : (p :: q :: ps).length ≠ 1 := by simp
    dsimp only at hread
    split at hread
    · obtain rfl := Option.some.inj hread
      exact hshorter hmany call hcall
    · obtain rfl := Option.some.inj hread
      exact hshorter hmany call hcall

theorem resolveRec_stable (valuation : Vals) : ∀ (n m : ℕ) (formula : Bytes),
    formula.length < n → formula.length < m →
      resolveRec valuation n formula = resolveRec valuation m formula := by
  intro n
  induction n with
  | zero => exact fun _ _ h => absurd h (Nat.not_lt_zero _)
  | succ n ih =>
    intro m formula hn hm
    cases m with
    | zero => exact absurd hm (Nat.not_lt_zero _)
    | succ m =>
      rw [resolveRec_succ, resolveRec_succ]
      cases hread : readFormula formula with
      | none => rfl
      | some r =>
        rw [Option.bind_some, Option.bind_some]
        apply Reading.eval_congr
        intro call hcall
        have hlt := length_lt_of_mem_calls hread hcall
        exact ih m call (by omega) (by omega)

/-- **`resolve` is the recursion of the source**, without a bound: whatever a call on a formula that
is not shorter would give, there is none. -/
theorem resolve_eq (valuation : Vals) (formula : Bytes) (other : Bytes → Option Bool) :
    resolve formula valuation =
      (readFormula formula).bind (Reading.eval valuation fun call =>
        if call.length < formula.length then resolve call valuation else other call) := by
  rw [resolve, resolveRec_succ]
  cases hread : readFormula formula with
  | none => rfl
  | some r =>
    rw [Option.bind_some, Option.bind_some]
    apply Reading.eval_congr
    intro call hcall
    have hlt := length_lt_of_mem_calls hread hcall
    rw [if_pos hlt, resolve]
    exact resolveRec_stable valuation _ _ call hlt (Nat.lt_succ_self _)

theorem isSome_sequence (l : List (Option Bool)) :
    (sequence l).isSome = l.all Option.isSome := by
  induction l with
  | nil => rfl
  | cons b l ih =>
    cases b with
    | none => rfl
    | some b => rw [sequence, Option.isSome_map, ih, List.all_cons, Option.isSome_some,
      Bool.true_and]

theorem Reading.isSome_eval {valuation valuation' : Vals} {rec rec' : Bytes → Option Bool}
    {r : Reading} (hkeys : ∀ name, valuation.count name = valuation'.count name)
    (h : ∀ formula ∈ r.calls, (rec formula).isSome = (rec' formula).isSome) :
    (r.eval valuation rec).isSome = (r.eval valuation' rec').isSome := by
  have hoperands : ∀ operands : List Bytes,
      (∀ formula ∈ operands, (rec formula).isSome = (rec' formula).isSome) →
      (sequence (operands.map rec)).isSome = (sequence (operands.map rec')).isSome := by
    intro operands h
    rw [isSome_sequence, isSome_sequence, List.all_map, List.all_map, Bool.eq_iff_iff,
      List.all_eq_true, List.all_eq_true]
    exact forall₂_congr fun formula hmem => by
      rw [Function.comp_apply, Function.comp_apply, h formula hmem]
  cases r with
  | var name =>
    rw [eval, eval, valueOf, valueOf]
    split
    · rfl
    split
    · rfl
    · exact hkeys name
  | negation formula =>
    rw [eval, eval, Option.isSome_map, Option.isSome_map]
    exact h formula (List.mem_singleton_self formula)
  | group formula => exact h formula (List.mem_singleton_self formula)
  | disjunction operands =>
    rw [eval, eval, Option.isSome_map, Option.isSome_map]
    exact hoperands operands h
  | conjunction operands =>
    rw [eval, eval, Option.isSome_map, Option.isSome_map]
    exact hoperands operands h

theorem isSome_resolveRec {valuation valuation' : Vals}
    (hkeys : ∀ name, valuation.count name = valuation'.count name) (n : ℕ) (formula : Bytes) :
    (resolveRec valuation n formula).isSome = (resolveRec valuation' n formula).isSome := by
  induction n generalizing formula with
  | zero => rfl
  | succ n ih =>
    rw [resolveRec_succ, resolveRec_succ]
    cases readFormula formula with
    | none => rfl
    | some r => exact Reading.isSome_eval hkeys fun call _ => ih call

end LibBoolEE

/-! ## Verifiers that have been checked -/

theorem count_valuationOf (qualifiers : List Bytes) (f : Bytes → Bool) (name : Bytes) :
    (valuationOf qualifiers f).count name = decide (name ∈ qualifiers) := by
  have hfold : ∀ (l : List Bytes) (vals : LibBoolEE.Vals),
      (l.foldl (fun vals qualifier => vals.emplace qualifier (f qualifier)) vals).count name =
        (vals.count name || decide (name ∈ l)) := by
    intro l
    induction l with
    | nil => simp
    | cons qualifier l ih =>
      intro vals
      rw [List.foldl_cons, ih, StdMap.count_emplace]
      by_cases h : name = qualifier <;> simp [h]
  rw [valuationOf, hfold, StdMap.count_empty, Bool.false_or]

/-- **What `CheckVerifierString` accepts** besides `true`. -/
theorem checkVerifierString_eq_ok {verifier : Bytes} {qualifiers : List Bytes}
    (hverifier : verifier ≠ ascii "true") :
    checkVerifierString verifier = .ok qualifiers ↔
      verifier ≠ [] ∧ (getStrippedVerifierString verifier).length ≤ 80 ∧
        (∀ qualifier ∈ qualifiers, isQualifierNameValid (QUALIFIER_CHAR :: qualifier) = true) ∧
        (LibBoolEE.resolve verifier (valuationOf qualifiers fun _ => true)).isSome = true ∧
        extractVerifierStringQualifiers (getStrippedVerifierString verifier) = qualifiers := by
  rw [checkVerifierString, if_neg hverifier]
  simp only [unit_bind, demand_bind, forEach_ok, require_ok, pure_ok,
    Bool.not_eq_true', List.isEmpty_eq_false_iff, decide_eq_true_eq]
  constructor
  · rintro ⟨hne, hlength, hnames, b, hresolve, rfl⟩
    refine ⟨hne, hlength, hnames, ?_, rfl⟩
    rw [hresolve, Option.isSome_some]
  · rintro ⟨hne, hlength, hnames, hresolve, rfl⟩
    obtain ⟨b, hb⟩ := Option.isSome_iff_exists.1 hresolve
    exact ⟨hne, hlength, hnames, b, hb, rfl⟩

theorem isSome_resolve_of_check {verifier : Bytes} {qualifiers : List Bytes}
    (hverifier : verifier ≠ ascii "true") (h : checkVerifierString verifier = .ok qualifiers)
    (f : Bytes → Bool) :
    (LibBoolEE.resolve verifier (valuationOf qualifiers f)).isSome = true := by
  obtain ⟨-, -, -, hresolve, -⟩ := (checkVerifierString_eq_ok hverifier).1 h
  rw [← hresolve]
  apply LibBoolEE.isSome_resolveRec
  intro name
  rw [count_valuationOf, count_valuationOf]

/-- **The evaluation of a checked verifier does not throw** in `ContextualCheckVerifierString`. -/
theorem contextualCheckVerifierString_evaluates {verifier : Bytes} {qualifiers : List Bytes}
    (h : checkVerifierString verifier = .ok qualifiers) (env : Env) (st : AssetState)
    (cache : CAssetsCache) (check_address : Bytes) :
    contextualCheckVerifierString env st cache verifier check_address ≠
      .error "bad-txns-null-verifier-failed-contexual-syntax-check" := by
  rw [contextualCheckVerifierString]
  by_cases hverifier : verifier = ascii "true"
  · rw [if_pos hverifier]
    nofun
  · obtain ⟨b, hb⟩ := Option.isSome_iff_exists.1
      (isSome_resolve_of_check hverifier h fun qualifier =>
        cache.checkForAddressQualifier env st (QUALIFIER_CHAR :: qualifier) check_address true)
    rw [if_neg hverifier, h]
    simp only [bind, Except.bind, require, onlyIf, demand, hb]
    split
    · rename_i herror
      split at herror <;> cases herror
      decide
    · split
      · split
        · nofun
        · decide
      · nofun

/-- **The syntax of a verifier is not up to the valuation.**  Under two valuations of the same
names the same formulas throw; the recursion of the source ends on every string; and a verifier
that `CheckVerifierString` accepts never fails in `ContextualCheckVerifierString` for its syntax. -/
theorem resolve_syntax :
    (∀ (formula : Bytes) (valuation valuation' : LibBoolEE.Vals),
      (∀ name, valuation.count name = valuation'.count name) →
        (LibBoolEE.resolve formula valuation).isSome =
          (LibBoolEE.resolve formula valuation').isSome) ∧
    (∀ (formula : Bytes) (valuation : LibBoolEE.Vals) (other : Bytes → Option Bool),
      LibBoolEE.resolve formula valuation =
        (LibBoolEE.readFormula formula).bind (LibBoolEE.Reading.eval valuation fun call =>
          if call.length < formula.length then LibBoolEE.resolve call valuation
          else other call)) ∧
    ∀ (verifier : Bytes) (qualifiers : List Bytes),
      checkVerifierString verifier = .ok qualifiers →
        ∀ (env : Env) (st : AssetState) (cache : CAssetsCache) (check_address : Bytes),
          contextualCheckVerifierString env st cache verifier check_address ≠
            .error "bad-txns-null-verifier-failed-contexual-syntax-check" :=
  ⟨fun formula _ _ hkeys => LibBoolEE.isSome_resolveRec hkeys (formula.length + 1) formula,
    fun formula valuation other => LibBoolEE.resolve_eq valuation formula other,
    fun _ _ h env st cache check_address =>
      contextualCheckVerifierString_evaluates h env st cache check_address⟩

/-! ## Verifiers in a transaction output -/

/-- What `isspace` knows besides the blank: the bytes from the tab to the carriage return. -/
def isControlSpace (c : UInt8) : Bool := decide (9 ≤ c) && decide (c ≤ 13)

theorem getStrippedVerifierString_eq_self {verifier : Bytes} :
    getStrippedVerifierString verifier = verifier ↔
      ∀ c ∈ verifier, isSpace c = false ∧ c ≠ QUALIFIER_CHAR := by
  have hfilter : getStrippedVerifierString verifier =
      verifier.filter fun c => !(c == QUALIFIER_CHAR) && !isSpace c := by
    rw [getStrippedVerifierString, LibBoolEE.removeCharacter, LibBoolEE.removeWhitespaces,
      List.filter_filter]
  rw [hfilter, List.filter_eq_self]
  refine forall₂_congr fun c _ => ?_
  rw [Bool.and_eq_true, Bool.not_eq_true', Bool.not_eq_true', beq_eq_false_iff_ne, and_comm]

/-- `CheckVerifierAssetTxOut` takes the blank for the only whitespace: **the string of an accepted
output is its own stripped string, and at most 80 bytes long, exactly when none of the other
whitespace is in it.** -/
theorem checkVerifierAssetTxOut_normalised {txout : CTxOut} {verifier : CNullAssetTxVerifierString}
    (hread : assetNullVerifierDataFromScript txout.scriptPubKey = some verifier)
    (h : checkVerifierAssetTxOut txout = .ok ()) :
    (getStrippedVerifierString verifier.verifier_string = verifier.verifier_string ∧
        verifier.verifier_string.length ≤ 80) ↔
      ∀ c ∈ verifier.verifier_string, isControlSpace c = false := by
  rw [checkVerifierAssetTxOut, hread, demand_bind] at h
  obtain ⟨verifier', heq, h⟩ := h
  obtain rfl := Option.some.inj heq
  rw [require_bind, require_bind, bind_ok, Bool.not_eq_true', Bool.not_eq_true',
    List.contains_eq_mem, List.contains_eq_mem, decide_eq_false_iff_not,
    decide_eq_false_iff_not] at h
  obtain ⟨hblank, htag, qualifiers, hcheck, -⟩ := h
  have hchars : (∀ c ∈ verifier.verifier_string, isSpace c = false ∧ c ≠ QUALIFIER_CHAR) ↔
      ∀ c ∈ verifier.verifier_string, isControlSpace c = false := by
    refine forall₂_congr fun c hc => ?_
    have hne : c ≠ 32 := fun heq => hblank (heq ▸ hc)
    have hne' : c ≠ QUALIFIER_CHAR := fun heq => htag (heq ▸ hc)
    rw [isSpace, isControlSpace, beq_eq_false_iff_ne.2 hne, Bool.false_or]
    exact and_iff_left hne'
  rw [getStrippedVerifierString_eq_self, ← hchars]
  refine and_iff_left_of_imp fun hnone => ?_
  by_cases hverifier : verifier.verifier_string = ascii "true"
  · rw [hverifier]
    decide
  · obtain ⟨-, hlength, -⟩ := (checkVerifierString_eq_ok hverifier).1 hcheck
    rwa [getStrippedVerifierString_eq_self.2 hnone] at hlength

def verifierTxOut (verifier : Bytes) : CTxOut :=
  ⟨0, [OP_UNEMP_ASSET, OP_RESERVED] ++
    CScript.pushData (CNullAssetTxVerifierString.serialize ⟨verifier⟩)⟩

/-- An output with a verifier that has nothing to strip. -/
theorem plainVerifier_normalised :
    getStrippedVerifierString (ascii "AAA|BBB") = ascii "AAA|BBB" ∧
      (ascii "AAA|BBB").length ≤ 80 :=
  (@checkVerifierAssetTxOut_normalised (verifierTxOut (ascii "AAA|BBB")) ⟨ascii "AAA|BBB"⟩
    (by decide +kernel) (by decide +kernel)).2 (by decide +kernel)

/-- **A verifier with a tab is accepted and kept with it.** -/
theorem tabbedVerifier_accepted :
    checkVerifierAssetTxOut (verifierTxOut (ascii "AAA" ++ 9 :: ascii "|BBB")) = .ok () ∧
      assetNullVerifierDataFromScript
          (verifierTxOut (ascii "AAA" ++ 9 :: ascii "|BBB")).scriptPubKey =
        some ⟨ascii "AAA" ++ 9 :: ascii "|BBB"⟩ ∧
      getStrippedVerifierString (ascii "AAA" ++ 9 :: ascii "|BBB") = ascii "AAA|BBB" ∧
      ascii "AAA" ++ 9 :: ascii "|BBB" ≠ ascii "AAA|BBB" := by
  refine ⟨?_, ?_, ?_, ?_⟩ <;> decide +kernel

end UnemployCoin
