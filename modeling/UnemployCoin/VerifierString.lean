import UnemployCoin.AssetTransaction
/-!
# Verifier strings

The Boolean formulas that say which addresses may hold a restricted asset: the evaluator
`LibBoolEE` and the checks of a verifier string (`LibBoolEE.cpp`, `assets/assets.cpp`).  The
evaluator throws on a formula it cannot read; here it gives `none`.  Its loops run to the size as an
`int`: a script has at most 10000 bytes and an RPC request 32 MiB, so the cast changes nothing.
-/

namespace UnemployCoin

open Check

namespace LibBoolEE

abbrev Vals := StdMap Bytes Bool

def charIs (c : UInt8) (s : String) : Bool := (ascii s).contains c

def belongsToName (ch : UInt8) : Bool := isUpper ch || isLower ch || isDigit ch || charIs ch "_#."

def removeWhitespaces (source : Bytes) : Bytes := source.filter fun c => !isSpace c

def removeCharacter (source : Bytes) (ch : UInt8) : Bytes := source.filter fun c => !(c == ch)

/-- The state of the loop of `singleParse`. -/
structure ParseState where
  start_pos : Option ℕ
  parity_count : ℤ
  subexpressions : List Bytes

/-- One round of the loop of `singleParse`, at the character with index `i`. -/
def parseStep (formula : Bytes) (op : UInt8) (s : ParseState) (i : ℕ) (c : UInt8) :
    Option ParseState :=
  if charIs c ")" then some { s with parity_count := s.parity_count - 1 }
  else if charIs c "(" then
    some { s with parity_count := s.parity_count + 1, start_pos := s.start_pos.or (some i) }
  else if s.parity_count = 0 then
    match s.start_pos with
    | none =>
      if belongsToName c || charIs c "!" then some { s with start_pos := some i } else some s
    | some start_pos =>
      if belongsToName c || charIs c "!" then some s
      else if c == op then
        some { s with
          subexpressions := s.subexpressions ++ [formula.substr start_pos (i - start_pos)]
          start_pos := some (i + 1) }
      else if charIs c "&|" then some s
      else none
  else some s

/-- `LibBoolEE::singleParse`: the parts of a formula between top-level operators `op`. -/
def singleParse (formula : Bytes) (op : UInt8) : Option (List Bytes) := do
  let s ← formula.zipIdx.foldlM (fun s e => parseStep formula op s e.2 e.1) ⟨none, 0, []⟩
  let subexpressions := match s.start_pos with
    | some start_pos => s.subexpressions ++ [formula.drop start_pos]
    | none => s.subexpressions
  if s.parity_count ≠ 0 then none else some subexpressions

/-- All values of a list of evaluations, if none of them throws. -/
def sequence : List (Option Bool) → Option (List Bool)
  | [] => some []
  | none :: _ => none
  | some b :: l => (sequence l).map (b :: ·)

/-- `LibBoolEE::resolve`.  Every recursive call is on a shorter formula, so a bound of one more
than the length is never reached. -/
def resolveRec (valuation : Vals) : ℕ → Bytes → Option Bool
  | 0, _ => none
  | n + 1, formula =>
    let source := removeWhitespaces formula
    if source.isEmpty then none
    else do
      let bySum ← singleParse source 124
      let (current_op, subexpressions) ←
        if bySum.length = 1 then (singleParse source 38).map fun byAnd => ((38 : UInt8), byAnd)
        else some (124, bySum)
      match subexpressions with
      | [] => none
      | [_] =>
        if source.at 0 == 33 then (resolveRec valuation n (source.drop 1)).map fun b => !b
        else if source.at 0 == 40 then resolveRec valuation n (source.substr 1 (source.length - 2))
        else if source == [49] then some true
        else if source == [48] then some false
        else valuation.find? source
      | _ =>
        let results ← sequence (subexpressions.map (resolveRec valuation n))
        if current_op = 124 then some (results.any id) else some (results.all id)

def resolve (source : Bytes) (valuation : Vals) : Option Bool :=
  resolveRec valuation (source.length + 1) source

end LibBoolEE

/-! ## Checks -/

def QUALIFIER_CHAR : UInt8 := 35
def RESTRICTED_CHAR : UInt8 := 36

def textOf (s : Bytes) : String := String.ofList (s.map fun b => Char.ofNat b.toNat)

/-- `ExtractVerifierStringQualifiers`: the longest runs of name characters, each once. -/
def extractVerifierStringQualifiers (verifier : Bytes) : List Bytes :=
  ((verifier.splitBy fun a b => nameChar a && nameChar b).filter fun run =>
    run.any nameChar).dedup

def getStrippedVerifierString (verifier : Bytes) : Bytes :=
  LibBoolEE.removeCharacter (LibBoolEE.removeWhitespaces verifier) QUALIFIER_CHAR

/-- The valuation that gives each qualifier the value of `f`. -/
def valuationOf (qualifiers : List Bytes) (f : Bytes → Bool) : LibBoolEE.Vals :=
  qualifiers.foldl (fun vals qualifier => vals.emplace qualifier (f qualifier)) ∅

/-- `CheckVerifierString`: the qualifiers it finds. -/
def checkVerifierString (verifier : Bytes) : Except String (List Bytes) :=
  if verifier = ascii "true" then .ok []
  else do
    require (!verifier.isEmpty)
      "Verifier string can not be empty. To default to true, use \"true\""
    let strippedVerifier := getStrippedVerifierString verifier
    require (decide (strippedVerifier.length ≤ 80))
      "Verifier string has length greater than 80 after whitespaces and '#' are removed"
    let setFoundQualifiers := extractVerifierStringQualifiers strippedVerifier
    forEach (fun qualifier => require (isQualifierNameValid (QUALIFIER_CHAR :: qualifier))
      ("bad-txns-null-verifier-invalid-asset-name-" ++ textOf qualifier)) setFoundQualifiers
    let _ ← demand (LibBoolEE.resolve verifier (valuationOf setFoundQualifiers fun _ => true))
      "bad-txns-null-verifier-failed-syntax-check"
    return setFoundQualifiers

def checkVerifierAssetTxOut (txout : CTxOut) : Verdict := do
  let verifier ← demand (assetNullVerifierDataFromScript txout.scriptPubKey)
    "bad-txns-null-verifier-data-serialization"
  require (!verifier.verifier_string.contains 32)
    "bad-txns-null-verifier-data-contained-whitespaces"
  require (!verifier.verifier_string.contains QUALIFIER_CHAR)
    "bad-txns-null-verifier-data-contained-qualifier-character-#"
  let _ ← checkVerifierString verifier.verifier_string

end UnemployCoin
