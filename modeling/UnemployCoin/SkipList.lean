import UnemployCoin.HeaderRoundTrip
import UnemployCoin.Lib.Ancestry
import UnemployCoin.Lib.Run
/-!
# Skip pointers

Each entry of the block index points to its parent (`pprev`) and to an ancestor further back
(`pskip`, `chain.cpp`).  Pointers are given by the hashes, and the null pointer is `none`.

`GetAncestor` follows the skip pointers by the **heights** that `GetSkipHeight` computes, and
`BuildSkip` sets them by `GetAncestor`.
-/

namespace UnemployCoin

open Ancestry StdMap

def invertLowestOne (n : ℕ) : ℕ := n &&& (n - 1)

def getSkipHeight (height : ℕ) : ℕ :=
  if height < 2 then 0
  else if height &&& 1 ≠ 0 then invertLowestOne (invertLowestOne (height - 1)) + 1
  else invertLowestOne height

theorem invertLowestOne_lt {n : ℕ} (hn : 0 < n) : invertLowestOne n < n := by
  have hle : n &&& (n - 1) ≤ n - 1 := Nat.and_le_right
  rw [invertLowestOne]
  omega

theorem invertLowestOne_le (n : ℕ) : invertLowestOne n ≤ n := Nat.and_le_left

theorem getSkipHeight_lt {height : ℕ} (hheight : 0 < height) : getSkipHeight height < height := by
  rw [getSkipHeight]
  split
  · exact hheight
  · split
    · have hinner := invertLowestOne_lt (show 0 < height - 1 by omega)
      have houter := invertLowestOne_le (invertLowestOne (height - 1))
      omega
    · exact invertLowestOne_lt hheight

/-! ## The tree -/

/-- The block index with the skip pointers. -/
structure SkipTree where
  mapBlockIndex : BlockMap
  hashGenesisBlock : arith_uint256
  pskip : StdMap arith_uint256 arith_uint256
  /-- An entry is one higher than its parent, and only the genesis block has none. -/
  parents : ∀ hash e, mapBlockIndex.find? hash = some e →
    match e.pprev with
    | none => hash = hashGenesisBlock ∧ e.nHeight = 0
    | some p => ∃ prev, mapBlockIndex.find? p = some prev ∧ e.nHeight = prev.nHeight + 1

namespace SkipTree

section Pointers

variable (t : SkipTree)

def pprev (hash : arith_uint256) : Option arith_uint256 :=
  (t.mapBlockIndex.find? hash).bind CBlockIndex.pprev

def nHeight (hash : arith_uint256) : ℕ := (t.mapBlockIndex.find? hash).elim 0 CBlockIndex.nHeight

def IsEntry (hash : arith_uint256) : Prop := t.mapBlockIndex.count hash = true

variable {t} {hash p : arith_uint256}

theorem isEntry_of_pprev (h : t.pprev hash = some p) : t.IsEntry p := by
  rw [pprev, Option.bind_eq_some_iff] at h
  obtain ⟨e, he, hp⟩ := h
  have hparent := t.parents hash e he
  rw [hp] at hparent
  obtain ⟨prev, hprev, -⟩ := hparent
  exact count_of_find? hprev

theorem isEntry_of_pprev_some (h : t.pprev hash = some p) : t.IsEntry hash := by
  rw [pprev, Option.bind_eq_some_iff] at h
  obtain ⟨e, he, -⟩ := h
  exact count_of_find? he

theorem levelled (t : SkipTree) : Levelled t.pprev t.nHeight := by
  constructor
  · intro hash hroot
    rw [nHeight]
    cases he : t.mapBlockIndex.find? hash with
    | none => rfl
    | some e =>
      have hparent := t.parents hash e he
      rw [pprev, he, Option.bind_some] at hroot
      rw [hroot] at hparent
      exact hparent.2
  · intro hash p h
    rw [pprev, Option.bind_eq_some_iff] at h
    obtain ⟨e, he, hp⟩ := h
    have hparent := t.parents hash e he
    rw [hp] at hparent
    obtain ⟨prev, hprev, hheight⟩ := hparent
    rw [nHeight, nHeight, he, hprev]
    exact hheight

theorem nHeight_pprev_lt (h : t.pprev hash = some p) : t.nHeight p < t.nHeight hash := by
  have hstep := t.levelled.step hash p h
  omega

theorem eq_genesis_of_root (hentry : t.IsEntry hash) (hroot : t.pprev hash = none) :
    hash = t.hashGenesisBlock := by
  obtain ⟨e, he⟩ := count_eq_true.1 hentry
  have hparent := t.parents hash e he
  rw [pprev, he, Option.bind_some] at hroot
  rw [hroot] at hparent
  exact hparent.1

end Pointers

/-! ## The walks of the source -/

variable (t : SkipTree)

/-- The loop of `GetAncestor`.  It fails where a parent is missing. -/
def getAncestorLoop (height : ℕ) (pindexWalk : arith_uint256) (heightWalk : ℕ) :
    Except String arith_uint256 :=
  if height < heightWalk then
    let heightSkip := getSkipHeight heightWalk
    let heightSkipPrev := getSkipHeight (heightWalk - 1)
    let follow := heightSkip == height || (decide (heightSkip > height) &&
      !(decide ((heightSkipPrev : ℤ) < heightSkip - 2) && decide (heightSkipPrev ≥ height)))
    match if follow then t.pskip.find? pindexWalk else none with
    | some pskip => getAncestorLoop height pskip heightSkip
    | none =>
      match t.pprev pindexWalk with
      | some pprev => getAncestorLoop height pprev (heightWalk - 1)
      | none => .error "pindexWalk->pprev"
  else .ok pindexWalk
termination_by heightWalk
decreasing_by
  · exact getSkipHeight_lt (by omega)
  · omega

def getAncestor (pindex : arith_uint256) (height : ℤ) : Except String (Option arith_uint256) :=
  if height > t.nHeight pindex ∨ height < 0 then .ok none
  else (t.getAncestorLoop height.toNat pindex (t.nHeight pindex)).map some

def buildSkip (pindex : arith_uint256) : Except String SkipTree :=
  match t.pprev pindex with
  | none => .ok t
  | some pprev => do
    match ← t.getAncestor pprev (getSkipHeight (t.nHeight pindex)) with
    | some pskip => .ok { t with pskip := t.pskip.assign pindex pskip }
    | none => .ok { t with pskip := t.pskip.erase pindex }

/-- The loop of `LastCommonAncestor`. -/
def lastCommonLoop (pa pb : Option arith_uint256) : Option arith_uint256 × Option arith_uint256 :=
  match pa, pb with
  | some a, some b =>
    if a = b then (pa, pb)
    else
      match _ha : t.pprev a with
      | some a' => lastCommonLoop (some a') (t.pprev b)
      | none => (none, t.pprev b)
  | _, _ => (pa, pb)
termination_by pa.elim 0 t.nHeight
decreasing_by exact nHeight_pprev_lt _ha

/-- The higher of the two goes to the height of the other, in `LastCommonAncestor`. -/
def toSameHeight (pa pb : arith_uint256) :
    Except String (Option arith_uint256 × Option arith_uint256) :=
  if t.nHeight pa > t.nHeight pb then (t.getAncestor pa (t.nHeight pb)).map fun pa => (pa, some pb)
  else if t.nHeight pb > t.nHeight pa then
    (t.getAncestor pb (t.nHeight pa)).map fun pb => (some pa, pb)
  else .ok (some pa, some pb)

/-- `LastCommonAncestor`.  It fails where the two walks do not meet. -/
def lastCommonAncestor (pa pb : arith_uint256) : Except String (Option arith_uint256) := do
  let (pa, pb) ← t.toSameHeight pa pb
  let (pa, pb) := t.lastCommonLoop pa pb
  if pa = pb then .ok pa else .error "pa == pb"

variable {t} {pindex pindexWalk a pa pb : arith_uint256} {height heightWalk : ℕ}

/-! ## Exact skip pointers -/

/-- Each skip pointer leads to the ancestor at the skip height. -/
def SkipsBuilt (t : SkipTree) : Prop := ∀ hash pskip, t.pskip.find? hash = some pskip →
  t.IsEntry hash ∧
    ancestorAt t.pprev t.nHeight (getSkipHeight (t.nHeight hash)) hash = some pskip

/-- **The walk** reaches the ancestor at the height, whichever pointers it follows. -/
theorem getAncestorLoop_eq (hskips : t.SkipsBuilt) (hwalk : t.nHeight pindexWalk = heightWalk)
    (hle : height ≤ heightWalk) :
    ∃ a, t.getAncestorLoop height pindexWalk heightWalk = .ok a ∧
      ancestorAt t.pprev t.nHeight height pindexWalk = some a := by
  have hl := t.levelled
  -- The walk goes down to smaller heights.
  induction heightWalk using Nat.strong_induction_on generalizing pindexWalk with
  | _ heightWalk ih =>
    rw [getAncestorLoop]
    split
    · rename_i hlt
      have hskipped := getSkipHeight_lt (show 0 < heightWalk by omega)
      simp only
      split
      · rename_i pskip hfollow
        split at hfollow
        · rename_i hcond
          -- Where the skip pointer is followed, it does not go below the height.
          have hnotbelow : height ≤ getSkipHeight heightWalk := by
            simp only [Bool.or_eq_true, beq_iff_eq, Bool.and_eq_true, decide_eq_true_eq] at hcond
            omega
          obtain ⟨-, hbuilt⟩ := hskips _ _ hfollow
          rw [hwalk] at hbuilt
          obtain ⟨hanc, hheight⟩ := (ancestorAt_eq_some hl).1 hbuilt
          obtain ⟨a, hloop, ha⟩ := ih _ hskipped hheight hnotbelow
          refine ⟨a, hloop, ?_⟩
          rw [← ancestorAt_of_isAncestor hl hanc (by omega), ha]
        · cases hfollow
      · cases hprev : t.pprev pindexWalk with
        | none =>
          -- The genesis block is not above any height.
          have hroot := hl.root _ hprev
          omega
        | some p =>
          have hstep := hl.step _ _ hprev
          obtain ⟨a, hloop, ha⟩ := @ih (heightWalk - 1) (by omega) p (by omega) (by omega)
          refine ⟨a, hloop, ?_⟩
          rw [← ancestorAt_of_isAncestor hl (isAncestor_of_prev hprev) (by omega), ha]
    · refine ⟨pindexWalk, rfl, ?_⟩
      rw [ancestorAt_eq_some hl]
      exact ⟨.refl _ _, by omega⟩

/-- **`GetAncestor`** returns the ancestor at the height. -/
theorem getAncestor_eq (hskips : t.SkipsBuilt) (pindex : arith_uint256) (height : ℕ) :
    t.getAncestor pindex height = .ok (ancestorAt t.pprev t.nHeight height pindex) := by
  rw [getAncestor]
  split
  · rename_i hout
    rw [ancestorAt, if_neg (by omega)]
  · rename_i hin
    obtain ⟨a, hloop, ha⟩ := getAncestorLoop_eq hskips (rfl : t.nHeight pindex = _)
      (show height ≤ t.nHeight pindex by omega)
    rw [Int.toNat_natCast, hloop, ha]
    rfl

theorem getAncestor_neg {height : ℤ} (hneg : height < 0) :
    t.getAncestor pindex height = .ok none := by
  rw [getAncestor, if_pos (Or.inr hneg)]

/-- **`BuildSkip`** does not fail, and keeps the skip pointers exact. -/
theorem buildSkip_ok (hskips : t.SkipsBuilt) (pindex : arith_uint256) :
    ∃ t', t.buildSkip pindex = .ok t' ∧ t'.SkipsBuilt ∧ t'.mapBlockIndex = t.mapBlockIndex ∧
      t'.hashGenesisBlock = t.hashGenesisBlock := by
  have hl := t.levelled
  rw [buildSkip]
  cases hprev : t.pprev pindex with
  | none => exact ⟨t, rfl, hskips, rfl, rfl⟩
  | some p =>
    have hstep := hl.step _ _ hprev
    have hlower := getSkipHeight_lt (show 0 < t.nHeight pindex by omega)
    obtain ⟨a, ha⟩ :=
      hl.exists_ancestorAt (show getSkipHeight (t.nHeight pindex) ≤ t.nHeight p by omega)
    simp only [getAncestor_eq hskips, ha]
    refine ⟨_, rfl, fun hash pskip hfind => ?_, rfl, rfl⟩
    replace hfind : (t.pskip.assign pindex a).find? hash = some pskip := hfind
    rw [find?_assign] at hfind
    split at hfind
    · rename_i heq
      subst heq
      cases hfind
      refine ⟨isEntry_of_pprev_some hprev, ?_⟩
      show ancestorAt t.pprev t.nHeight (getSkipHeight (t.nHeight hash)) hash = some a
      rw [← ancestorAt_of_isAncestor hl (isAncestor_of_prev hprev) (by omega)]
      exact ha
    · exact hskips hash pskip hfind

/-! ## The last common ancestor -/

theorem lastCommonLoop_eq (ha : t.IsEntry pa) (hb : t.IsEntry pb)
    (hheight : t.nHeight pa = t.nHeight pb) :
    ∃ a, t.lastCommonLoop (some pa) (some pb) = (some a, some a) ∧
      IsDeepestCommon t.pprev a pa pb := by
  have hl := t.levelled
  induction hn : t.nHeight pa using Nat.strong_induction_on generalizing pa pb with
  | _ n ih =>
    rw [lastCommonLoop]
    split
    · rename_i heq
      subst heq
      exact ⟨pa, rfl, .self _ _⟩
    · rename_i hne
      split
      · rename_i a' hpa
        have hstepa := hl.step _ _ hpa
        cases hpb : t.pprev pb with
        | none =>
          have hroot := hl.root _ hpb
          omega
        | some b' =>
          have hstepb := hl.step _ _ hpb
          obtain ⟨c, hloop, hc⟩ := ih (t.nHeight a') (by omega) (isEntry_of_pprev hpa)
            (isEntry_of_pprev hpb) (by omega) rfl
          exact ⟨c, hloop, hc.of_prev hl hne hheight hpa hpb⟩
      · rename_i hpa
        -- Both are the genesis block.
        have hroot := hl.root _ hpa
        have hpb : t.pprev pb = none := by
          cases hpb : t.pprev pb with
          | none => rfl
          | some b' =>
            have hstepb := hl.step _ _ hpb
            omega
        rw [eq_genesis_of_root ha hpa, eq_genesis_of_root hb hpb] at hne
        exact absurd rfl hne

theorem isEntry_of_isAncestor (hentry : t.IsEntry pindex) (ha : IsAncestor t.pprev a pindex) :
    t.IsEntry a := by
  obtain ⟨n, hn⟩ := ha
  induction n generalizing pindex with
  | zero =>
    cases hn
    exact hentry
  | succ n ih =>
    rw [back, Option.bind_eq_some_iff] at hn
    obtain ⟨p, hprev, hn⟩ := hn
    exact ih (isEntry_of_pprev hprev) hn

theorem toSameHeight_eq (hskips : t.SkipsBuilt) (ha : t.IsEntry pa) (hb : t.IsEntry pb) :
    ∃ pa' pb', t.toSameHeight pa pb = .ok (some pa', some pb') ∧ t.IsEntry pa' ∧ t.IsEntry pb' ∧
      t.nHeight pa' = t.nHeight pb' ∧
      ∀ c, IsDeepestCommon t.pprev c pa' pb' → IsDeepestCommon t.pprev c pa pb := by
  have hl := t.levelled
  rw [toSameHeight]
  split
  · rename_i hlt
    obtain ⟨pa', hpa⟩ := hl.exists_ancestorAt (Nat.le_of_lt hlt)
    obtain ⟨hanc, hheight⟩ := (ancestorAt_eq_some hl).1 hpa
    rw [getAncestor_eq hskips, hpa]
    exact ⟨pa', pb, rfl, isEntry_of_isAncestor ha hanc, hb, hheight,
      fun c hc => hc.of_ancestorAt hl hpa⟩
  · split
    · rename_i hlt
      obtain ⟨pb', hpb⟩ := hl.exists_ancestorAt (Nat.le_of_lt hlt)
      obtain ⟨hanc, hheight⟩ := (ancestorAt_eq_some hl).1 hpb
      rw [getAncestor_eq hskips, hpb]
      exact ⟨pa, pb', rfl, ha, isEntry_of_isAncestor hb hanc, hheight.symm,
        fun c hc => (hc.symm.of_ancestorAt hl hpb).symm⟩
    · exact ⟨pa, pb, rfl, ha, hb, by omega, fun c hc => hc⟩

/-- **`LastCommonAncestor`** returns the deepest common ancestor. -/
theorem lastCommonAncestor_eq (hskips : t.SkipsBuilt) (ha : t.IsEntry pa) (hb : t.IsEntry pb) :
    ∃ a, t.lastCommonAncestor pa pb = .ok (some a) ∧ IsDeepestCommon t.pprev a pa pb := by
  obtain ⟨pa', pb', hsame, ha', hb', hheight, hdeepest⟩ := toSameHeight_eq hskips ha hb
  obtain ⟨c, hloop, hc⟩ := lastCommonLoop_eq ha' hb' hheight
  refine ⟨c, ?_, hdeepest c hc⟩
  rw [lastCommonAncestor, hsame]
  show (if (t.lastCommonLoop (some pa') (some pb')).1 = (t.lastCommonLoop (some pa') (some pb')).2
    then Except.ok (t.lastCommonLoop (some pa') (some pb')).1 else _) = _
  rw [hloop, if_pos rfl]

theorem genesis_isAncestor (hentry : t.IsEntry pindex) :
    IsAncestor t.pprev t.hashGenesisBlock pindex := by
  have hl := t.levelled
  obtain ⟨a, ha⟩ := hl.exists_ancestorAt (Nat.zero_le (t.nHeight pindex))
  obtain ⟨hanc, hheight⟩ := (ancestorAt_eq_some hl).1 ha
  have hroot : t.pprev a = none := by
    cases hprev : t.pprev a with
    | none => rfl
    | some p =>
      have hstep := hl.step _ _ hprev
      omega
  rw [← eq_genesis_of_root (isEntry_of_isAncestor hentry hanc) hroot]
  exact hanc

/-! ## Chains -/

section Chains

/-- `CChain::operator[]`. -/
def chainAt (vChain : List (Option arith_uint256)) (nHeight : ℤ) : Option arith_uint256 :=
  if nHeight < 0 ∨ nHeight ≥ vChain.length then none else vChain[nHeight.toNat]?.join

/-- `CChain::Height`. -/
def chainHeight (vChain : List (Option arith_uint256)) : ℤ := vChain.length - 1

/-- `CChain::Tip`. -/
def chainTip (vChain : List (Option arith_uint256)) : Option arith_uint256 :=
  if vChain.length > 0 then vChain[vChain.length - 1]?.join else none

/-- `vChain.resize(n)`. -/
def resize (vChain : List (Option arith_uint256)) (n : ℕ) : List (Option arith_uint256) :=
  vChain.take n ++ List.replicate (n - vChain.length) none

variable (t : SkipTree) (vChain : List (Option arith_uint256))

def contains (pindex : arith_uint256) : Bool := chainAt vChain (t.nHeight pindex) == some pindex

/-- The loop of `CChain::SetTip`. -/
def setTipLoop (vChain : List (Option arith_uint256)) (pindex : arith_uint256) :
    List (Option arith_uint256) :=
  if vChain[t.nHeight pindex]? = some (some pindex) then vChain
  else
    match _h : t.pprev pindex with
    | some pprev => setTipLoop (vChain.set (t.nHeight pindex) (some pindex)) pprev
    | none => vChain.set (t.nHeight pindex) (some pindex)
termination_by t.nHeight pindex
decreasing_by exact nHeight_pprev_lt _h

def setTip : Option arith_uint256 → List (Option arith_uint256)
  | none => []
  | some pindex => t.setTipLoop (resize vChain (t.nHeight pindex + 1)) pindex

/-- The loop of `CChain::FindFork`. -/
def findForkLoop (pindex : arith_uint256) : Option arith_uint256 :=
  if t.contains vChain pindex then some pindex
  else
    match _h : t.pprev pindex with
    | some pprev => findForkLoop pprev
    | none => none
termination_by t.nHeight pindex
decreasing_by exact nHeight_pprev_lt _h

def findFork : Option arith_uint256 → Except String (Option arith_uint256)
  | none => .ok none
  | some pindex =>
    if t.nHeight pindex > chainHeight vChain then
      (t.getAncestor pindex (chainHeight vChain)).map fun p => p.bind (t.findForkLoop vChain)
    else .ok (t.findForkLoop vChain pindex)

/-- Where `CChain::GetLocator` goes next, by the chain or by the skip pointers. -/
def locatorNext (pindex : arith_uint256) (nHeight : ℕ) : Except String (Option arith_uint256) :=
  if t.contains vChain pindex then .ok (chainAt vChain nHeight) else t.getAncestor pindex nHeight

/-- The loop of `CChain::GetLocator`.  The step is doubled once more than it is used. -/
def getLocatorLoop : ℕ → ℕ → List arith_uint256 → arith_uint256 →
    Except String (List arith_uint256)
  | 0, _, _, _ => .error "fuel"
  | fuel + 1, nStep, vHave, pindex =>
    let vHave := vHave ++ [pindex]
    if t.nHeight pindex = 0 then .ok vHave
    else do
      let nHeight := t.nHeight pindex - nStep
      match ← t.locatorNext vChain pindex nHeight with
      | some pindex =>
        getLocatorLoop fuel (if vHave.length > 10 then nStep * 2 else nStep) vHave pindex
      | none => .ok vHave

/-- `CChain::GetLocator`.  Each round goes to a lower height. -/
def getLocator (pindex : Option arith_uint256) : Except String (List arith_uint256) :=
  match pindex.or (chainTip vChain) with
  | some pindex => t.getLocatorLoop vChain (t.nHeight pindex + 1) 1 [] pindex
  | none => .ok []

structure PathTo (tip : arith_uint256) : Prop where
  length : vChain.length = t.nHeight tip + 1
  get : ∀ k ≤ t.nHeight tip, vChain[k]? = some (ancestorAt t.pprev t.nHeight k tip)

def IsPath : Prop := vChain = [] ∨ ∃ tip, t.IsEntry tip ∧ t.PathTo vChain tip

end Chains

variable {vChain : List (Option arith_uint256)} {tip : arith_uint256} {k n : ℕ}

theorem getElem?_resize (hk : k < n) :
    (resize vChain n)[k]? = if k < vChain.length then vChain[k]? else some none := by
  rw [resize, List.getElem?_append, List.length_take]
  split
  · rename_i hlt
    rw [List.getElem?_take_of_lt hk, if_pos (by omega)]
  · rename_i hlt
    rw [if_neg (by omega), List.getElem?_replicate, if_pos (by omega)]

theorem length_resize : (resize vChain n).length = n := by
  rw [resize, List.length_append, List.length_take, List.length_replicate]
  omega

/-- **The loop of `SetTip`** leaves the ancestors of the tip.  Above the entry they are set, and
from the entry down an entry of the chain has its ancestors below it. -/
theorem setTipLoop_path (hp : IsAncestor t.pprev pindex tip)
    (hlength : vChain.length = t.nHeight tip + 1)
    (habove : ∀ k ≤ t.nHeight tip, t.nHeight pindex < k →
      vChain[k]? = some (ancestorAt t.pprev t.nHeight k tip))
    (hbelow : ∀ k ≤ t.nHeight pindex, ∀ q, vChain[k]? = some (some q) →
      ∀ j ≤ k, vChain[j]? = some (ancestorAt t.pprev t.nHeight j q)) :
    t.PathTo (t.setTipLoop vChain pindex) tip := by
  have hl := t.levelled
  have hle := hp.height_le hl
  induction hn : t.nHeight pindex using Nat.strong_induction_on generalizing pindex vChain with
  | _ n ih =>
    rw [setTipLoop]
    split
    · -- The chain already goes through the entry.
      rename_i hfound
      refine ⟨hlength, fun k hk => ?_⟩
      by_cases hkp : k ≤ t.nHeight pindex
      · rw [hbelow _ (Nat.le_refl _) _ hfound k hkp, ancestorAt_of_isAncestor hl hp hkp]
      · exact habove k hk (by omega)
    · have hself : ancestorAt t.pprev t.nHeight (t.nHeight pindex) tip = some pindex :=
        (ancestorAt_eq_some hl).2 ⟨hp, rfl⟩
      have hset : ∀ k ≤ t.nHeight tip, t.nHeight pindex ≤ k →
          (vChain.set (t.nHeight pindex) (some pindex))[k]? =
            some (ancestorAt t.pprev t.nHeight k tip) := by
        intro k hk hpk
        rw [List.getElem?_set]
        split
        · rename_i heq
          rw [if_pos (by omega), ← heq, hself]
        · exact habove k hk (by omega)
      split
      · rename_i p hprev
        have hstep := hl.step _ _ hprev
        refine @ih (t.nHeight p) (by omega) p _ ((isAncestor_of_prev hprev).trans hp) ?_ ?_ ?_
          (by omega) rfl
        · rw [List.length_set, hlength]
        · exact fun k hk hpk => hset k hk (by omega)
        · intro k hk q hq j hj
          rw [List.getElem?_set_ne (by omega)] at hq ⊢
          exact hbelow k (by omega) q hq j hj
      · rename_i hprev
        have hroot := hl.root _ hprev
        refine ⟨?_, fun k hk => hset k hk (by omega)⟩
        rw [List.length_set, hlength]

/-- **`SetTip`** makes the chain that of the tip, whatever it was before. -/
theorem setTip_path (h : t.IsPath vChain) {pindex : Option arith_uint256}
    (hentry : ∀ p ∈ pindex, t.IsEntry p) : t.IsPath (t.setTip vChain pindex) := by
  have hl := t.levelled
  cases pindex with
  | none => exact Or.inl rfl
  | some tip =>
    refine Or.inr ⟨tip, hentry tip rfl, ?_⟩
    refine setTipLoop_path (.refl _ tip) length_resize (fun k hk hlt => by omega) ?_
    intro k hk q hq j hj
    rw [getElem?_resize (by omega)] at hq ⊢
    split at hq
    · rename_i hlt
      rw [if_pos (by omega)]
      rcases h with rfl | ⟨old, -, hold⟩
      · cases hlt
      · have hlength := hold.length
        rw [hold.get k (by omega)] at hq
        obtain ⟨hanc, hheight⟩ := (ancestorAt_eq_some hl).1 (Option.some.inj hq)
        rw [hold.get j (by omega), ancestorAt_of_isAncestor hl hanc (by omega)]
    · cases hq

theorem PathTo.chainAt_eq (h : t.PathTo vChain tip) (hk : k ≤ t.nHeight tip) :
    chainAt vChain k = ancestorAt t.pprev t.nHeight k tip := by
  have hlength := h.length
  rw [chainAt, if_neg (by omega), Int.toNat_natCast, h.get k hk, Option.join_some]

theorem PathTo.contains_iff (h : t.PathTo vChain tip) :
    t.contains vChain pindex = true ↔ IsAncestor t.pprev pindex tip := by
  have hl := t.levelled
  rw [contains, beq_iff_eq]
  constructor
  · intro hfound
    by_cases hle : t.nHeight pindex ≤ t.nHeight tip
    · rw [h.chainAt_eq hle] at hfound
      exact ((ancestorAt_eq_some hl).1 hfound).1
    · have hlength := h.length
      rw [chainAt, if_pos (by omega)] at hfound
      cases hfound
  · intro hanc
    rw [h.chainAt_eq (hanc.height_le hl)]
    exact (ancestorAt_eq_some hl).2 ⟨hanc, rfl⟩

theorem contains_nil : t.contains [] pindex = false := by
  have hout : (t.nHeight pindex : ℤ) ≥ ([] : List (Option arith_uint256)).length :=
    Int.natCast_nonneg _
  rw [contains, chainAt, if_pos (Or.inr hout)]
  rfl

theorem PathTo.findForkLoop_eq (h : t.PathTo vChain tip) (htip : t.IsEntry tip)
    (hentry : t.IsEntry pindex) :
    ∃ a, t.findForkLoop vChain pindex = some a ∧ IsDeepestCommon t.pprev a pindex tip := by
  have hl := t.levelled
  induction hn : t.nHeight pindex using Nat.strong_induction_on generalizing pindex with
  | _ n ih =>
    rw [findForkLoop]
    split
    · rename_i hin
      exact ⟨pindex, rfl, .refl _ _, h.contains_iff.1 hin, fun b hb _ => hb⟩
    · rename_i hout
      split
      · rename_i p hprev
        have hstep := hl.step _ _ hprev
        obtain ⟨a, hloop, ha⟩ := ih (t.nHeight p) (by omega) (isEntry_of_pprev hprev) rfl
        refine ⟨a, hloop, ha.of_prev_left (fun hanc => hout ?_) hprev⟩
        exact h.contains_iff.2 hanc
      · rename_i hprev
        rw [eq_genesis_of_root hentry hprev, h.contains_iff] at hout
        exact absurd (genesis_isAncestor htip) hout

/-- **`FindFork`** returns the last block of the chain that is an ancestor of the entry. -/
theorem PathTo.findFork_eq (hskips : t.SkipsBuilt) (h : t.PathTo vChain tip) (htip : t.IsEntry tip)
    (hentry : t.IsEntry pindex) :
    ∃ a, t.findFork vChain (some pindex) = .ok (some a) ∧
      IsDeepestCommon t.pprev a pindex tip := by
  have hl := t.levelled
  have hheight : chainHeight vChain = t.nHeight tip := by
    rw [chainHeight, h.length]
    omega
  rw [findFork, hheight]
  split
  · rename_i hgt
    obtain ⟨p, hp⟩ := hl.exists_ancestorAt (show t.nHeight tip ≤ t.nHeight pindex by omega)
    obtain ⟨hanc, -⟩ := (ancestorAt_eq_some hl).1 hp
    obtain ⟨a, hloop, ha⟩ := h.findForkLoop_eq htip (isEntry_of_isAncestor hentry hanc)
    refine ⟨a, ?_, ha.of_ancestorAt hl hp⟩
    rw [getAncestor_eq hskips, hp]
    exact congrArg Except.ok hloop
  · obtain ⟨a, hloop, ha⟩ := h.findForkLoop_eq htip hentry
    refine ⟨a, ?_, ha⟩
    rw [hloop]

theorem findFork_nil (pindex : Option arith_uint256) : t.findFork [] pindex = .ok none := by
  cases pindex with
  | none => rfl
  | some pindex =>
    have hheight : chainHeight [] < 0 := by decide
    rw [findFork, if_pos (by omega), getAncestor_neg hheight]
    rfl

def Descends (t : SkipTree) (a b : arith_uint256) : Prop :=
  IsAncestor t.pprev b a ∧ t.nHeight b < t.nHeight a

theorem locatorNext_eq (hskips : t.SkipsBuilt) (h : t.IsPath vChain) (hk : k ≤ t.nHeight pindex) :
    t.locatorNext vChain pindex k = .ok (ancestorAt t.pprev t.nHeight k pindex) := by
  rw [locatorNext]
  split
  · rename_i hin
    rcases h with rfl | ⟨tip, -, hpath⟩
    · rw [contains_nil] at hin
      cases hin
    · have hanc := hpath.contains_iff.1 hin
      have hle := hanc.height_le t.levelled
      rw [hpath.chainAt_eq (by omega), ancestorAt_of_isAncestor t.levelled hanc hk]
  · exact getAncestor_eq hskips pindex k

/-- **The loop of `GetLocator`** adds ancestors down to the genesis block. -/
theorem getLocatorLoop_eq (hskips : t.SkipsBuilt) (h : t.IsPath vChain) {fuel nStep : ℕ}
    {vHave : List arith_uint256} (hentry : t.IsEntry pindex) (hfuel : t.nHeight pindex < fuel)
    (hstep : 0 < nStep) :
    ∃ rest, t.getLocatorLoop vChain fuel nStep vHave pindex = .ok (vHave ++ pindex :: rest) ∧
      (pindex :: rest).getLast? = some t.hashGenesisBlock ∧
      (pindex :: rest).Pairwise t.Descends := by
  have hl := t.levelled
  induction fuel generalizing nStep vHave pindex with
  | zero => omega
  | succ fuel ih =>
    rw [getLocatorLoop]
    split
    · rename_i hzero
      refine ⟨[], rfl, ?_, List.pairwise_singleton _ _⟩
      have hgenesis := (genesis_isAncestor hentry).height_le hl
      rw [List.getLast?_singleton, (genesis_isAncestor hentry).eq_of_height hl (.refl _ pindex)
        (by omega)]
    · rename_i hpos
      have hlower : t.nHeight pindex - nStep ≤ t.nHeight pindex := Nat.sub_le _ _
      obtain ⟨p, hp⟩ := hl.exists_ancestorAt hlower
      obtain ⟨hanc, hheight⟩ := (ancestorAt_eq_some hl).1 hp
      have hdescends : t.Descends pindex p := ⟨hanc, by omega⟩
      obtain ⟨rest, hloop, hlast, hpairs⟩ := @ih p
        (if (vHave ++ [pindex]).length > 10 then nStep * 2 else nStep) (vHave ++ [pindex])
        (isEntry_of_isAncestor hentry hanc) (by omega) (by split <;> omega)
      refine ⟨p :: rest, ?_, ?_, ?_⟩
      · simp only
        rw [locatorNext_eq hskips h hlower, hp]
        show t.getLocatorLoop vChain fuel _ _ p = _
        rw [hloop, List.append_assoc, List.singleton_append]
      · rw [List.getLast?_cons_cons, hlast]
      · refine List.pairwise_cons.2 ⟨fun b hb => ?_, hpairs⟩
        rcases List.mem_cons.1 hb with rfl | hb
        · exact hdescends
        · obtain ⟨hanc', hlt⟩ := (List.pairwise_cons.1 hpairs).1 b hb
          exact ⟨hanc'.trans hanc, Nat.lt_trans hlt hdescends.2⟩

/-! ## Linking an entry -/

section Link

variable {H : HeaderHashes} {P : HeaderParams} {block : CBlockHeader} {t t' : SkipTree}
  {m : BlockMap}

theorem newBlockIndex_pointers {prev : CBlockIndex}
    (hprev : m.find? block.hashPrevBlock = some prev) :
    (newBlockIndex m block).pprev = some block.hashPrevBlock ∧
      (newBlockIndex m block).nHeight = prev.nHeight + 1 := by
  have hraise := raiseValidity_eq (childIndex block prev) BLOCK_VALID_TREE
  rw [newBlockIndex_eq hprev]
  exact ⟨hraise.pprev, hraise.height⟩

theorem newBlockIndex_root :
    (newBlockIndex ∅ block).pprev = none ∧
      (newBlockIndex ∅ block).nHeight = block.nHeight.toNat := by
  have hraise := raiseValidity_eq
    { CBlockIndex.ofHeader block with
      nTimeMax := block.nTime, nChainWork := 0 + getBlockProof block.nBits }
    BLOCK_VALID_TREE
  exact ⟨hraise.pprev, hraise.height⟩

variable (H P) in
def genesisTree (genesis : CBlockHeader) (hgenesis : genesis.nHeight = 0) : SkipTree where
  mapBlockIndex := genesisIndex H P genesis
  hashGenesisBlock := genesis.getHash H P
  pskip := ∅
  parents := by
    intro hash e he
    rw [genesisIndex, addToBlockIndex_of_new (find?_empty _), find?_assign] at he
    split at he
    · rename_i hhash
      cases he
      obtain ⟨hroot, hheight⟩ := @newBlockIndex_root genesis
      rw [hroot]
      refine ⟨hhash, ?_⟩
      rw [hheight, hgenesis]
      rfl
    · cases he

variable (H P) in
/-- The entry that `AddToBlockIndex` makes for a header, before `BuildSkip`. -/
def link (t : SkipTree) (block : CBlockHeader)
    (hnew : t.mapBlockIndex.find? (block.getHash H P) = none)
    (hparent : t.mapBlockIndex.count block.hashPrevBlock = true) : SkipTree where
  mapBlockIndex := addToBlockIndex H P t.mapBlockIndex block
  hashGenesisBlock := t.hashGenesisBlock
  pskip := t.pskip
  parents := by
    rw [addToBlockIndex_of_new hnew]
    -- The new entry hides no other one.
    have hkept : ∀ p prev, t.mapBlockIndex.find? p = some prev →
        (t.mapBlockIndex.assign (block.getHash H P) (newBlockIndex t.mapBlockIndex block)).find? p =
          some prev := by
      intro p prev hprev
      rw [find?_assign_ne, hprev]
      rintro rfl
      rw [hnew] at hprev
      cases hprev
    intro hash e he
    rw [find?_assign] at he
    split at he
    · cases he
      obtain ⟨prev, hprev⟩ := count_eq_true.1 hparent
      obtain ⟨hpprev, hheight⟩ := newBlockIndex_pointers hprev
      rw [hpprev]
      exact ⟨prev, hkept _ _ hprev, hheight⟩
    · have hold := t.parents hash e he
      cases hpprev : e.pprev with
      | none =>
        rw [hpprev] at hold
        exact hold
      | some p =>
        rw [hpprev] at hold
        obtain ⟨prev, hprev, hheight⟩ := hold
        exact ⟨prev, hkept p prev hprev, hheight⟩

variable (H P) in
/-- `AddToBlockIndex`.  `AcceptBlockHeader` has found the parent. -/
def add (t : SkipTree) (block : CBlockHeader) : Except String SkipTree :=
  match hnew : t.mapBlockIndex.find? (block.getHash H P) with
  | some _ => .ok t
  | none =>
    if hparent : t.mapBlockIndex.count block.hashPrevBlock = true then
      (t.link H P block hnew hparent).buildSkip (block.getHash H P)
    else .error "prev-blk-not-found"

/-- `t'` has the entries of `t`, with the same pointers. -/
structure Extends (t t' : SkipTree) : Prop where
  isEntry : ∀ hash, t.IsEntry hash → t'.IsEntry hash
  pprev : ∀ hash, t.IsEntry hash → t'.pprev hash = t.pprev hash
  nHeight : ∀ hash, t.IsEntry hash → t'.nHeight hash = t.nHeight hash

theorem Extends.ancestorAt_eq (h : Extends t t') {hash : arith_uint256} (hentry : t.IsEntry hash)
    (k : ℕ) : ancestorAt t'.pprev t'.nHeight k hash = ancestorAt t.pprev t.nHeight k hash := by
  rw [ancestorAt, ancestorAt, h.nHeight hash hentry]
  have hback : back t'.pprev (t.nHeight hash - k) hash = back t.pprev (t.nHeight hash - k) hash :=
    back_congr (S := {hash | t.IsEntry hash}) (fun _ _ _ hprev => isEntry_of_pprev hprev) h.pprev
      hentry
  rw [hback]

theorem Extends.skipsBuilt (h : Extends t t') (hskip : t'.pskip = t.pskip) (hskips : t.SkipsBuilt) :
    t'.SkipsBuilt := by
  intro hash pskip hfind
  rw [hskip] at hfind
  obtain ⟨hentry, hbuilt⟩ := hskips hash pskip hfind
  refine ⟨h.isEntry hash hentry, ?_⟩
  rw [h.nHeight hash hentry, h.ancestorAt_eq hentry, hbuilt]

theorem Extends.isPath (h : Extends t t') {vChain : List (Option arith_uint256)}
    (hpath : t.IsPath vChain) : t'.IsPath vChain := by
  rcases hpath with rfl | ⟨tip, hentry, hlength, hget⟩
  · exact Or.inl rfl
  · refine Or.inr ⟨tip, h.isEntry tip hentry, ?_, ?_⟩
    · rw [h.nHeight tip hentry, hlength]
    · intro k hk
      rw [h.nHeight tip hentry] at hk
      rw [h.ancestorAt_eq hentry, hget k hk]

theorem extends_link {hnew : t.mapBlockIndex.find? (block.getHash H P) = none}
    {hparent : t.mapBlockIndex.count block.hashPrevBlock = true} :
    Extends t (t.link H P block hnew hparent) := by
  have hkept : ∀ hash, t.IsEntry hash →
      (t.link H P block hnew hparent).mapBlockIndex.find? hash = t.mapBlockIndex.find? hash := by
    intro hash hentry
    show (addToBlockIndex H P t.mapBlockIndex block).find? hash = _
    rw [addToBlockIndex_of_new hnew]
    refine find?_assign_ne ?_
    rintro rfl
    rw [IsEntry, count_eq_false.2 hnew] at hentry
    cases hentry
  constructor
  · intro hash hentry
    rw [IsEntry, StdMap.count, hkept hash hentry]
    exact hentry
  · intro hash hentry
    rw [SkipTree.pprev, hkept hash hentry, ← SkipTree.pprev]
  · intro hash hentry
    rw [SkipTree.nHeight, hkept hash hentry, ← SkipTree.nHeight]

/-- **Linking** an entry does not fail, and the skip pointers stay exact. -/
theorem add_ok (hskips : t.SkipsBuilt) (hparent : t.IsEntry block.hashPrevBlock) :
    ∃ t', t.add H P block = .ok t' ∧ t'.SkipsBuilt ∧ Extends t t' := by
  rw [add]
  split
  · exact ⟨t, rfl, hskips, fun _ h => h, fun _ _ => rfl, fun _ _ => rfl⟩
  · rename_i hnew
    rw [dif_pos (show t.mapBlockIndex.count block.hashPrevBlock = true from hparent)]
    have hlink : Extends t (t.link H P block hnew hparent) := extends_link
    obtain ⟨t', ht', hskips', hmap, -⟩ :=
      buildSkip_ok (hlink.skipsBuilt rfl hskips) (block.getHash H P)
    refine ⟨t', ht', hskips', ?_⟩
    constructor
    · intro hash hentry
      rw [IsEntry, hmap]
      exact hlink.isEntry hash hentry
    · intro hash hentry
      rw [SkipTree.pprev, hmap]
      exact hlink.pprev hash hentry
    · intro hash hentry
      rw [SkipTree.nHeight, hmap]
      exact hlink.nHeight hash hentry

/-- The skip pointers when the block index is read from the disk: `LoadBlockIndex` builds them entry
by entry. -/
def load (t : SkipTree) (order : List arith_uint256) : Except String SkipTree :=
  order.foldlM buildSkip { t with pskip := ∅ }

theorem load_ok (t : SkipTree) (order : List arith_uint256) :
    ∃ t', t.load order = .ok t' ∧ t'.SkipsBuilt := by
  have hfold : ∀ (order : List arith_uint256) {t : SkipTree}, t.SkipsBuilt →
      ∃ t', order.foldlM buildSkip t = .ok t' ∧ t'.SkipsBuilt := by
    intro order
    induction order with
    | nil => exact fun {t} hskips => ⟨t, rfl, hskips⟩
    | cons hash order ih =>
      intro t hskips
      obtain ⟨t', ht', hskips', -⟩ := buildSkip_ok hskips hash
      obtain ⟨t'', ht'', hskips''⟩ := ih hskips'
      refine ⟨t'', ?_, hskips''⟩
      rw [List.foldlM_cons, ht']
      exact ht''
  refine hfold order fun hash pskip hfind => ?_
  replace hfind : (∅ : StdMap arith_uint256 arith_uint256).find? hash = some pskip := hfind
  rw [find?_empty] at hfind
  cases hfind

end Link

end SkipTree

/-! ## Runs -/

/-- What changes the pointers: a header gets an entry, the block index is loaded, a chain gets a
tip. -/
inductive TreeEvent where
  | add (block : CBlockHeader)
  | load (order : List arith_uint256)
  | setTip (pindex : Option arith_uint256)

/-- The block index and a `CChain`. -/
structure ChainIndex where
  tree : SkipTree
  vChain : List (Option arith_uint256)

section Runs

variable (H : HeaderHashes) (P : HeaderParams)

/-- A step, or the failed assertion.  A restart begins with an empty `CChain`. -/
def ChainIndex.stepOn (s : ChainIndex) : TreeEvent → Except String ChainIndex
  | .add block => (s.tree.add H P block).map fun tree => { s with tree := tree }
  | .load order => (s.tree.load order).map fun tree => ⟨tree, []⟩
  | .setTip pindex => .ok { s with vChain := s.tree.setTip s.vChain pindex }

/-- The callers pass entries: a header with a parent, and a tip of the tree. -/
def ChainIndex.Takes (s : ChainIndex) : TreeEvent → Prop
  | .add block => s.tree.IsEntry block.hashPrevBlock
  | .load _ => True
  | .setTip pindex => ∀ p ∈ pindex, s.tree.IsEntry p

def chainIndexMachine : Machine ChainIndex TreeEvent := ⟨fun s e => (s.stepOn H P e).toOption⟩

def ChainIndex.genesis (genesis : CBlockHeader) (hgenesis : genesis.nHeight = 0) : ChainIndex :=
  ⟨SkipTree.genesisTree H P genesis hgenesis, []⟩

/-- The skip pointers are exact, and the chain is that of a tip. -/
structure ChainIndex.Exact (s : ChainIndex) : Prop where
  skips : s.tree.SkipsBuilt
  path : s.tree.IsPath s.vChain

variable {H P} {s : ChainIndex} {e : TreeEvent}

theorem ChainIndex.Exact.genesis (genesis : CBlockHeader) (hgenesis : genesis.nHeight = 0) :
    (ChainIndex.genesis H P genesis hgenesis).Exact := by
  refine ⟨fun hash pskip hfind => ?_, Or.inl rfl⟩
  replace hfind : (∅ : StdMap arith_uint256 arith_uint256).find? hash = some pskip := hfind
  rw [find?_empty] at hfind
  cases hfind

/-- **No step fails**, and each keeps the invariant. -/
theorem ChainIndex.Exact.step (h : s.Exact) (he : s.Takes e) :
    ∃ s', s.stepOn H P e = .ok s' ∧ s'.Exact := by
  cases e with
  | add block =>
    obtain ⟨t', ht', hskips, hextends⟩ := @SkipTree.add_ok H P block s.tree h.skips he
    refine ⟨{ s with tree := t' }, ?_, hskips, hextends.isPath h.path⟩
    rw [ChainIndex.stepOn, ht']
    rfl
  | load order =>
    obtain ⟨t', ht', hskips⟩ := s.tree.load_ok order
    refine ⟨⟨t', []⟩, ?_, hskips, Or.inl rfl⟩
    rw [ChainIndex.stepOn, ht']
    rfl
  | setTip pindex => exact ⟨_, rfl, h.skips, SkipTree.setTip_path h.path he⟩

theorem ChainIndex.Exact.machineStep (h : s.Exact) (he : s.Takes e) :
    ∃ s', (chainIndexMachine H P).step s e = some s' ∧ s'.Exact := by
  obtain ⟨s', hs', hexact⟩ := @ChainIndex.Exact.step H P s e h he
  refine ⟨s', ?_, hexact⟩
  show (s.stepOn H P e).toOption = some s'
  rw [hs']
  rfl

/-- The last block of a chain that is an ancestor of an entry. -/
structure SkipTree.IsFork (t : SkipTree) (vChain : List (Option arith_uint256))
    (pindex a : arith_uint256) : Prop where
  inChain : t.contains vChain a = true
  isAncestor : IsAncestor t.pprev a pindex
  last : ∀ b, t.contains vChain b = true → IsAncestor t.pprev b pindex → t.nHeight b ≤ t.nHeight a

/-- What the walks return for the entries of a tree. -/
structure SkipTree.Navigates (t : SkipTree) (vChain : List (Option arith_uint256)) : Prop where
  /-- `GetAncestor` goes to the parent until the height is right. -/
  getAncestor : ∀ pindex (height : ℕ), t.IsEntry pindex → height ≤ t.nHeight pindex →
    ∃ a, t.getAncestor pindex height = .ok (some a) ∧
      back t.pprev (t.nHeight pindex - height) pindex = some a
  getAncestor_none : ∀ pindex (height : ℤ), t.IsEntry pindex →
    height < 0 ∨ height > t.nHeight pindex → t.getAncestor pindex height = .ok none
  lastCommonAncestor : ∀ pa pb, t.IsEntry pa → t.IsEntry pb →
    ∃ a, t.lastCommonAncestor pa pb = .ok (some a) ∧ IsDeepestCommon t.pprev a pa pb
  findFork : ∀ pindex, t.IsEntry pindex → if vChain = [] then t.findFork vChain pindex = .ok none
    else ∃ a, t.findFork vChain pindex = .ok (some a) ∧ t.IsFork vChain pindex a
  /-- `GetLocator` starts with the entry and goes down to the genesis block. -/
  getLocator : ∀ pindex, t.IsEntry pindex → ∃ rest,
    t.getLocator vChain pindex = .ok (pindex :: rest) ∧
      (pindex :: rest).getLast? = some t.hashGenesisBlock ∧
      (pindex :: rest).Pairwise t.Descends

theorem ChainIndex.Exact.navigates (h : s.Exact) : s.tree.Navigates s.vChain where
  getAncestor pindex height hentry hle := by
    obtain ⟨a, ha⟩ := s.tree.levelled.exists_ancestorAt hle
    refine ⟨a, ?_, ?_⟩
    · rw [SkipTree.getAncestor_eq h.skips, ha]
    · rw [ancestorAt, if_pos hle] at ha
      exact ha
  getAncestor_none pindex height hentry hout := by
    rw [SkipTree.getAncestor, if_pos (Or.comm.1 hout)]
  lastCommonAncestor pa pb ha hb := SkipTree.lastCommonAncestor_eq h.skips ha hb
  findFork pindex hentry := by
    rcases h.path with hnil | ⟨tip, htip, hpath⟩
    · rw [hnil, if_pos rfl]
      exact SkipTree.findFork_nil pindex
    · have hne : s.vChain ≠ [] := by
        intro hnil
        have hlength := hpath.length
        rw [hnil, List.length_nil] at hlength
        omega
      obtain ⟨a, hfork, ha⟩ := hpath.findFork_eq h.skips htip hentry
      rw [if_neg hne]
      refine ⟨a, hfork, hpath.contains_iff.2 ha.right, ha.left, fun b hb hanc => ?_⟩
      exact (ha.deepest b hanc (hpath.contains_iff.1 hb)).height_le s.tree.levelled
  getLocator pindex hentry := SkipTree.getLocatorLoop_eq h.skips h.path hentry (Nat.lt_succ_self _)
    Nat.one_pos

/-- **Navigation is exact** in every state: no step of a run fails, and at its end the walks find
what they look for. -/
theorem navigation_exact {genesis : CBlockHeader} {hgenesis : genesis.nHeight = 0}
    {events : List TreeEvent} (h : (chainIndexMachine H P).Along ChainIndex.Takes
      (.genesis H P genesis hgenesis) events) :
    ∃ s, (chainIndexMachine H P).exec (.genesis H P genesis hgenesis) events = some s ∧
      s.tree.Navigates s.vChain := by
  obtain ⟨s, hs, hexact⟩ := Machine.exec_progress (fun _ _ => ChainIndex.Exact.machineStep)
    (.genesis genesis hgenesis) h
  exact ⟨s, hs, hexact.navigates⟩

end Runs

/-- Two blocks on the genesis block, and a chain to one of them. -/
theorem navigation_fork :
    ∃ s, (chainIndexMachine sumHashes sumParams).exec (.genesis sumHashes sumParams sumGenesis rfl)
        [.add (sumHeader 1), .add (sumHeader 2),
          .setTip (some ((sumHeader 1).getHash sumHashes sumParams))] = some s ∧
      s.tree.Navigates s.vChain := by
  refine navigation_exact ⟨?_, fun s hs => ⟨?_, fun s' hs' => ⟨?_, fun _ _ => trivial⟩⟩⟩
  · show StdMap.count _ _ = true
    decide +kernel
  · have hparent : ((chainIndexMachine sumHashes sumParams).step
        (.genesis sumHashes sumParams sumGenesis rfl) (.add (sumHeader 1))).all
          (fun s => s.tree.mapBlockIndex.count (sumHeader 2).hashPrevBlock) = true := by
      decide +kernel
    rw [hs] at hparent
    exact hparent
  · have htip : ((chainIndexMachine sumHashes sumParams).exec
        (.genesis sumHashes sumParams sumGenesis rfl) [.add (sumHeader 1), .add (sumHeader 2)]).all
          (fun s => s.tree.mapBlockIndex.count
            ((sumHeader 1).getHash sumHashes sumParams)) = true := by
      decide +kernel
    rw [Machine.exec_cons.2 ⟨s, hs, Machine.exec_cons.2 ⟨s', hs', rfl⟩⟩] at htip
    intro p hp
    cases hp
    exact htip

end UnemployCoin
