import UnemployCoin.AssetTypes
import UnemployCoin.Lib.MerkleTree
import Mathlib.Data.Nat.Pairing
/-!
# The merkle root of a block

`MerkleComputation` and the functions around it (`consensus/merkle.cpp`).  The tree is not built:
a counter in binary says which whole subtrees there are, and `inner` has the hash of each.  The
counter has 32 bits; where it overflows, the loops read beyond `inner`, and there is no result.
-/

namespace UnemployCoin

open MerkleTree

/-! ## `MerkleComputation` -/

/-- The variables of the loops over the levels. -/
structure MerkleClimb where
  level : ℕ
  h : uint256
  matchh : Bool
  mutated : Bool
  pbranch : List uint256

/-- The variables of the loop over the leaves; `matchlevel` is none for -1. -/
structure MerkleState where
  count : ℕ
  inner : ℕ → uint256
  matchlevel : Option ℕ
  mutated : Bool
  pbranch : List uint256

section Computation

variable (Hash : uint256 → uint256 → uint256)

/-- A round of the loop over the levels: what is at hand is combined with an earlier subtree. -/
def MerkleClimb.combine (inner : ℕ → uint256) (matchlevel : Option ℕ) (s : MerkleClimb) :
    MerkleClimb where
  level := s.level + 1
  h := Hash (inner s.level) s.h
  matchh := s.matchh || decide (matchlevel = some s.level)
  mutated := s.mutated || decide (inner s.level = s.h)
  pbranch :=
    if s.matchh then s.pbranch ++ [inner s.level]
    else if matchlevel = some s.level then s.pbranch ++ [s.h]
    else s.pbranch

/-- The loop over the levels whose bit in `count` is 0, `fuel` of them; a shift by 32 is not
defined. -/
def climb (inner : ℕ → uint256) (matchlevel : Option ℕ) (count : ℕ) :
    ℕ → MerkleClimb → Option MerkleClimb
  | 0, _ => none
  | fuel + 1, s =>
    if count.testBit s.level then some s
    else climb inner matchlevel count fuel (s.combine Hash inner matchlevel)

def addLeaf (branchpos : ℕ) (s : MerkleState) (leaf : uint256) : Option MerkleState :=
  let count := (s.count + 1) % 2 ^ 32
  (climb Hash s.inner s.matchlevel count 32
      ⟨0, leaf, decide (s.count = branchpos), s.mutated, s.pbranch⟩).map fun c =>
    { count := count
      inner := Function.update s.inner c.level c.h
      matchlevel := if c.matchh then some c.level else s.matchlevel
      mutated := c.mutated
      pbranch := c.pbranch }

def MerkleState.init : MerkleState := ⟨0, fun _ => 0, none, false, []⟩

def MerkleClimb.double (s : MerkleClimb) : MerkleClimb :=
  { s with
    level := s.level + 1
    h := Hash s.h s.h
    pbranch := if s.matchh then s.pbranch ++ [s.h] else s.pbranch }

/-- The final sweep, of `fuel` levels at most.  A repetition found here is **not** reported. -/
def sweep (inner : ℕ → uint256) (matchlevel : Option ℕ) :
    ℕ → ℕ → MerkleClimb → Option MerkleClimb
  | 0, _, _ => none
  | fuel + 1, count, s =>
    if count = 2 ^ s.level then some s
    else do
      let count := (count + 2 ^ s.level) % 2 ^ 32
      let s ← climb Hash inner matchlevel count (32 - (s.level + 1)) (s.double Hash)
      sweep inner matchlevel fuel count s

/-- The lowest level whose bit in `count` is 1. -/
def lowestLevel (count : ℕ) : Option ℕ := (List.range 32).find? fun level => count.testBit level

/-- What `MerkleComputation` writes. -/
structure MerkleResult where
  proot : uint256
  pmutated : Bool
  pbranch : List uint256

def merkleComputation (leaves : List uint256) (branchpos : ℕ) : Option MerkleResult :=
  if leaves = [] then some ⟨0, false, []⟩
  else do
    let s ← leaves.foldlM (addLeaf Hash branchpos) .init
    let level ← lowestLevel s.count
    let c ← sweep Hash s.inner s.matchlevel 32 s.count
      ⟨level, s.inner level, decide (s.matchlevel = some level), s.mutated, s.pbranch⟩
    return ⟨c.h, s.mutated, c.pbranch⟩

/-- `ComputeMerkleRoot`: the root, and whether a repetition was seen. -/
def computeMerkleRoot (leaves : List uint256) : Option (uint256 × Bool) :=
  (merkleComputation Hash leaves (2 ^ 32 - 1)).map fun r => (r.proot, r.pmutated)

def computeMerkleBranch (leaves : List uint256) (position : ℕ) : Option (List uint256) :=
  (merkleComputation Hash leaves position).map MerkleResult.pbranch

def computeMerkleRootFromBranch (leaf : uint256) (vMerkleBranch : List uint256) (nIndex : ℕ) :
    uint256 :=
  (vMerkleBranch.foldl (fun (hash, nIndex) it =>
    (if nIndex % 2 = 1 then Hash it hash else Hash hash it, nIndex / 2)) (leaf, nIndex)).1

end Computation

/-! ## The loops over the levels -/

variable {Hash : uint256 → uint256 → uint256} {leaves : List uint256} {inner : ℕ → uint256}
  {matchlevel : Option ℕ} {count c : ℕ} {s t : MerkleClimb}

theorem div_pow_succ (c k : ℕ) : c / 2 ^ (k + 1) = c / 2 ^ k / 2 := by
  rw [Nat.pow_succ, Nat.div_div_eq_div_mul]

theorem testBit_iff (n k : ℕ) : n.testBit k = true ↔ n / 2 ^ k % 2 = 1 := by
  rw [Nat.testBit_eq_decide_div_mod_eq, decide_eq_true_iff]

/-- What is at hand is the node over leaf `c`, which is the last one below it that is there, and
`count` ends with this node. -/
structure Climbs (Hash : uint256 → uint256 → uint256) (leaves : List uint256) (count c : ℕ)
    (s : MerkleClimb) : Prop where
  count_eq : count = (c / 2 ^ s.level + 1) * 2 ^ s.level
  h_eq : s.h = node Hash leaves s.level (c / 2 ^ s.level)

/-- From some level on, `inner` has the node before the one over leaf `c` where that is a right
child. -/
def LeftsAt (Hash : uint256 → uint256 → uint256) (leaves : List uint256) (inner : ℕ → uint256)
    (c level : ℕ) : Prop :=
  ∀ k, level ≤ k → c / 2 ^ k % 2 = 1 → inner k = node Hash leaves k (c / 2 ^ k - 1)

theorem Climbs.testBit_iff (h : Climbs Hash leaves count c s) :
    count.testBit s.level = true ↔ c / 2 ^ s.level % 2 = 0 := by
  have hdiv : count / 2 ^ s.level = c / 2 ^ s.level + 1 := by
    rw [h.count_eq, Nat.mul_div_cancel _ (Nat.two_pow_pos _)]
  rw [UnemployCoin.testBit_iff, hdiv]
  omega

theorem Climbs.left (h : Climbs Hash leaves count c s)
    (hinner : LeftsAt Hash leaves inner c s.level) (hbit : ¬ count.testBit s.level = true) :
    c / 2 ^ s.level % 2 = 1 ∧
      inner s.level = node Hash leaves s.level (c / 2 ^ s.level - 1) := by
  have hodd : c / 2 ^ s.level % 2 = 1 := by
    have := mt h.testBit_iff.2 hbit
    omega
  exact ⟨hodd, hinner s.level (Nat.le_refl _) hodd⟩

/-- **One round up.** -/
theorem Climbs.combine (matchlevel : Option ℕ) (h : Climbs Hash leaves count c s)
    (hinner : LeftsAt Hash leaves inner c s.level) (hc : c < leaves.length)
    (hbit : ¬ count.testBit s.level = true) :
    Climbs Hash leaves count c (s.combine Hash inner matchlevel) := by
  obtain ⟨hodd, hleft⟩ := h.left hinner hbit
  have hbelow : c / 2 ^ s.level * 2 ^ s.level < leaves.length :=
    Nat.lt_of_le_of_lt (Nat.div_mul_le_self c _) hc
  constructor
  · rw [h.count_eq]
    simp only [MerkleClimb.combine]
    rw [div_pow_succ, Nat.pow_succ', ← Nat.mul_assoc]
    congr 1
    omega
  · simp only [MerkleClimb.combine]
    have hhalf := node_half Hash hbelow
    rw [if_pos hodd, sibling, if_pos hodd] at hhalf
    rw [div_pow_succ, hhalf, hleft, h.h_eq]

/-- **The loop over the levels** ends at the first level where the node over leaf `c` is a left
child. -/
theorem climb_spec (matchlevel : Option ℕ) (fuel : ℕ) (h : Climbs Hash leaves count c s)
    (hinner : LeftsAt Hash leaves inner c s.level) (hc : c < leaves.length)
    (hends : ∃ k, s.level ≤ k ∧ k < s.level + fuel ∧ c / 2 ^ k % 2 = 0) :
    ∃ t, climb Hash inner matchlevel count fuel s = some t ∧ Climbs Hash leaves count c t ∧
      s.level ≤ t.level ∧ c / 2 ^ t.level % 2 = 0 ∧
      (∀ k, s.level ≤ k → k < t.level →
        c / 2 ^ k % 2 = 1 ∧ count = (c / 2 ^ k + 1) * 2 ^ k) ∧
      (t.mutated = false ↔ s.mutated = false ∧ ∀ k, s.level ≤ k → k < t.level →
        node Hash leaves k (c / 2 ^ k - 1) ≠ node Hash leaves k (c / 2 ^ k)) := by
  induction fuel generalizing s with
  | zero =>
    obtain ⟨k, hle, hlt, -⟩ := hends
    omega
  | succ fuel ih =>
    rw [climb]
    by_cases hbit : count.testBit s.level = true
    · rw [if_pos hbit]
      refine ⟨s, rfl, h, Nat.le_refl _, h.testBit_iff.1 hbit, fun k h₁ h₂ => by omega, ?_⟩
      exact ⟨fun hm => ⟨hm, fun k h₁ h₂ => by omega⟩, And.left⟩
    · rw [if_neg hbit]
      obtain ⟨hodd, hleft⟩ := h.left hinner hbit
      have hends' : ∃ k, s.level + 1 ≤ k ∧ k < s.level + 1 + fuel ∧ c / 2 ^ k % 2 = 0 := by
        obtain ⟨k, hle, hlt, heven⟩ := hends
        refine ⟨k, Nat.lt_of_le_of_ne hle fun heq => ?_, by omega, heven⟩
        rw [heq] at hodd
        omega
      obtain ⟨t, ht, hclimbs, hle, heven, hbelow, hmut⟩ :=
        ih (h.combine matchlevel hinner hc hbit)
          (fun k hk => hinner k (Nat.le_of_succ_le hk)) hends'
      have hsplit : ∀ k, s.level ≤ k → k = s.level ∨ s.level + 1 ≤ k := by omega
      refine ⟨t, ht, hclimbs, Nat.le_of_succ_le hle, heven, ?_, ?_⟩
      · intro k hk hkt
        rcases hsplit k hk with rfl | hk
        · exact ⟨hodd, h.count_eq⟩
        · exact hbelow k hk hkt
      · rw [hmut]
        simp only [MerkleClimb.combine, Bool.or_eq_false_iff, decide_eq_false_iff_not]
        rw [hleft, h.h_eq, and_assoc]
        refine and_congr_right fun _ => ⟨?_, ?_⟩
        · rintro ⟨hne, hall⟩ k hk hkt
          rcases hsplit k hk with rfl | hk
          · exact hne
          · exact hall k hk hkt
        · intro hall
          exact ⟨hall s.level (Nat.le_refl _) hle, fun k hk => hall k (Nat.le_of_succ_le hk)⟩

/-! ## The branch -/

def path (Hash : uint256 → uint256 → uint256) (leaves : List uint256) (pos k : ℕ) : List uint256 :=
  (List.range k).map fun j => sibling Hash leaves j (pos / 2 ^ j)

theorem path_succ (pos k : ℕ) : path Hash leaves pos (k + 1) =
    path Hash leaves pos k ++ [sibling Hash leaves k (pos / 2 ^ k)] := by
  rw [path, List.range_succ, List.map_append]
  rfl

/-- Some subtree has the leaf at `pos` and stands left of the node over leaf `c`. -/
def LeftOf (Hash : uint256 → uint256 → uint256) (leaves : List uint256) (pos c : ℕ)
    (matchlevel : Option ℕ) (pbranch : List uint256) (k : ℕ) : Prop :=
  matchlevel = some k ∧ c / 2 ^ k % 2 = 1 ∧ pos / 2 ^ k = c / 2 ^ k - 1 ∧
    pbranch = path Hash leaves pos k

/-- What the loop over the levels knows of the leaf at `pos`. -/
structure Tracked (Hash : uint256 → uint256 → uint256) (leaves : List uint256) (pos c : ℕ)
    (matchlevel : Option ℕ) (s : MerkleClimb) : Prop where
  match_iff : s.matchh = true ↔ pos / 2 ^ s.level = c / 2 ^ s.level
  found : pos / 2 ^ s.level = c / 2 ^ s.level → s.pbranch = path Hash leaves pos s.level
  left : pos / 2 ^ s.level < c / 2 ^ s.level →
    ∃ k, s.level ≤ k ∧ LeftOf Hash leaves pos c matchlevel s.pbranch k
  right : c / 2 ^ s.level < pos / 2 ^ s.level → matchlevel = none ∧ s.pbranch = []

theorem div_pow_eq_of_le {m n j k : ℕ} (hjk : j ≤ k) (h : m / 2 ^ j = n / 2 ^ j) :
    m / 2 ^ k = n / 2 ^ k := by
  obtain ⟨d, rfl⟩ := Nat.exists_eq_add_of_le hjk
  rw [Nat.pow_add, ← Nat.div_div_eq_div_mul, ← Nat.div_div_eq_div_mul, h]

theorem Tracked.combine {pos : ℕ} (ht : Tracked Hash leaves pos c matchlevel s)
    (h : Climbs Hash leaves count c s) (hinner : LeftsAt Hash leaves inner c s.level)
    (hc : c < leaves.length) (hbit : ¬ count.testBit s.level = true) :
    Tracked Hash leaves pos c matchlevel (s.combine Hash inner matchlevel) := by
  obtain ⟨hodd, hleft⟩ := h.left hinner hbit
  have hbelow : c / 2 ^ s.level * 2 ^ s.level < leaves.length :=
    Nat.lt_of_le_of_lt (Nat.div_mul_le_self c _) hc
  rcases Nat.lt_trichotomy (pos / 2 ^ s.level) (c / 2 ^ s.level) with hlt | heq | hgt
  · have hmatch : s.matchh = false := Bool.eq_false_iff.2 (mt ht.match_iff.1 (Nat.ne_of_lt hlt))
    obtain ⟨k, hk, hlevel, hkodd, hpos, hbranch⟩ := ht.left hlt
    by_cases hkeq : k = s.level
    · -- The subtree that is combined has the leaf.
      subst hkeq
      have hhalf : pos / 2 ^ (s.level + 1) = c / 2 ^ (s.level + 1) := by
        rw [div_pow_succ, div_pow_succ, hpos]
        omega
      have hsibling : s.h = sibling Hash leaves s.level (pos / 2 ^ s.level) := by
        have hnext : pos / 2 ^ s.level + 1 = c / 2 ^ s.level := by omega
        rw [sibling, if_neg (by omega), hnext, if_pos hbelow, h.h_eq]
      refine ⟨⟨fun _ => hhalf, fun _ => ?_⟩, fun _ => ?_,
        fun hne => absurd hhalf (Nat.ne_of_lt hne), fun hne => absurd hhalf (Nat.ne_of_gt hne)⟩
      · simp only [MerkleClimb.combine]
        rw [hlevel, decide_eq_true rfl, Bool.or_true]
      · simp only [MerkleClimb.combine]
        rw [hmatch, if_neg Bool.false_ne_true, if_pos hlevel, path_succ, hbranch, hsibling]
    · have hnot : ¬ matchlevel = some s.level := by
        rw [hlevel]
        exact fun heq => hkeq (Option.some.inj heq)
      have hpass : pos / 2 ^ (s.level + 1) < c / 2 ^ (s.level + 1) := by
        refine Nat.lt_of_le_of_ne ?_ fun heq => ?_
        · rw [div_pow_succ, div_pow_succ]
          exact Nat.div_le_div_right (Nat.le_of_lt hlt)
        · have := div_pow_eq_of_le (by omega : s.level + 1 ≤ k) heq
          omega
      refine ⟨⟨fun hm => ?_, fun heq => absurd heq (Nat.ne_of_lt hpass)⟩,
        fun heq => absurd heq (Nat.ne_of_lt hpass), fun _ => ?_,
        fun hgt => absurd hpass (Nat.lt_asymm hgt)⟩
      · simp only [MerkleClimb.combine] at hm
        rw [hmatch, decide_eq_false hnot] at hm
        cases hm
      · refine ⟨k, by simp only [MerkleClimb.combine]; omega, hlevel, hkodd, hpos, ?_⟩
        simp only [MerkleClimb.combine]
        rw [hmatch, if_neg Bool.false_ne_true, if_neg hnot, hbranch]
  · have hmatch : s.matchh = true := ht.match_iff.2 heq
    have hhalf : pos / 2 ^ (s.level + 1) = c / 2 ^ (s.level + 1) := by
      rw [div_pow_succ, div_pow_succ, heq]
    have hsibling : inner s.level = sibling Hash leaves s.level (pos / 2 ^ s.level) := by
      rw [sibling, heq, if_pos hodd, hleft]
    refine ⟨⟨fun _ => hhalf, fun _ => ?_⟩, fun _ => ?_,
      fun hne => absurd hhalf (Nat.ne_of_lt hne), fun hne => absurd hhalf (Nat.ne_of_gt hne)⟩
    · simp only [MerkleClimb.combine]
      rw [hmatch, Bool.true_or]
    · simp only [MerkleClimb.combine]
      rw [hmatch, if_pos rfl, path_succ, ht.found heq, hsibling]
  · have hmatch : s.matchh = false := Bool.eq_false_iff.2 (mt ht.match_iff.1 (Nat.ne_of_gt hgt))
    obtain ⟨hnone, hbranch⟩ := ht.right hgt
    have hpass : c / 2 ^ (s.level + 1) < pos / 2 ^ (s.level + 1) := by
      rw [div_pow_succ, div_pow_succ]
      omega
    have hnot : ¬ matchlevel = some s.level := by
      rw [hnone]
      exact Option.some_ne_none _ ∘ Eq.symm
    refine ⟨⟨fun hm => ?_, fun heq => absurd heq (Nat.ne_of_gt hpass)⟩,
      fun heq => absurd heq (Nat.ne_of_gt hpass), fun hlt => absurd hpass (Nat.lt_asymm hlt),
      fun _ => ⟨hnone, ?_⟩⟩
    · simp only [MerkleClimb.combine] at hm
      rw [hmatch, decide_eq_false hnot] at hm
      cases hm
    · simp only [MerkleClimb.combine]
      rw [hmatch, if_neg Bool.false_ne_true, if_neg hnot, hbranch]

theorem climb_tracked {pos fuel : ℕ} (ht : Tracked Hash leaves pos c matchlevel s)
    (h : Climbs Hash leaves count c s) (hinner : LeftsAt Hash leaves inner c s.level)
    (hc : c < leaves.length) (hclimb : climb Hash inner matchlevel count fuel s = some t) :
    Tracked Hash leaves pos c matchlevel t := by
  induction fuel generalizing s with
  | zero => cases hclimb
  | succ fuel ih =>
    rw [climb] at hclimb
    by_cases hbit : count.testBit s.level = true
    · rw [if_pos hbit] at hclimb
      cases hclimb
      exact ht
    · rw [if_neg hbit] at hclimb
      exact ih (ht.combine h hinner hc hbit) (h.combine matchlevel hinner hc hbit)
        (fun k hk => hinner k (Nat.le_of_succ_le hk)) hclimb

/-! ## The loop over the leaves -/

/-- What the variables say after the first `c` leaves. -/
structure Counted (Hash : uint256 → uint256 → uint256) (leaves : List uint256) (pos c : ℕ)
    (st : MerkleState) : Prop where
  count_eq : st.count = c
  lefts : LeftsAt Hash leaves st.inner c 0
  mutated_iff : st.mutated = false ↔ ∀ k p, (2 * p + 2) * 2 ^ k ≤ c →
    node Hash leaves k (2 * p) ≠ node Hash leaves k (2 * p + 1)
  seen : pos < c → ∃ k, LeftOf Hash leaves pos c st.matchlevel st.pbranch k
  unseen : c ≤ pos → st.matchlevel = none ∧ st.pbranch = []

theorem Counted.init (pos : ℕ) : Counted Hash leaves pos 0 .init := by
  refine ⟨rfl, fun k _ hodd => ?_, ⟨fun _ k p hle => ?_, fun _ => rfl⟩,
    fun hlt => absurd hlt (Nat.not_lt_zero pos), fun _ => ⟨rfl, rfl⟩⟩
  · rw [Nat.zero_div] at hodd
    cases hodd
  · have : 0 < (2 * p + 2) * 2 ^ k := Nat.mul_pos (by omega) (Nat.two_pow_pos k)
    omega

theorem exists_even (c : ℕ) (h : c + 1 < 2 ^ 32) : ∃ k, k < 32 ∧ c / 2 ^ k % 2 = 0 := by
  by_contra hall
  have hdvd : ∀ k, k ≤ 32 → (c / 2 ^ k + 1) * 2 ^ k = c + 1 := by
    intro k
    induction k with
    | zero =>
      intro _
      rw [Nat.pow_zero, Nat.div_one, Nat.mul_one]
    | succ k ih =>
      intro hk
      have hodd : c / 2 ^ k % 2 = 1 := by
        by_contra heven
        exact hall ⟨k, hk, by omega⟩
      rw [← ih (by omega), div_pow_succ, Nat.pow_succ', ← Nat.mul_assoc]
      congr 1
      omega
  have htop := hdvd 32 (Nat.le_refl 32)
  have : 1 * 2 ^ 32 ≤ (c / 2 ^ 32 + 1) * 2 ^ 32 := Nat.mul_le_mul_right _ (by omega)
  omega

theorem succ_div_above {m L k : ℕ} (heven : c / 2 ^ L % 2 = 0) (hm : m / 2 ^ L = c / 2 ^ L + 1)
    (hk : L < k) : m / 2 ^ k = c / 2 ^ k := by
  refine div_pow_eq_of_le (Nat.succ_le_of_lt hk) ?_
  rw [div_pow_succ, div_pow_succ, hm]
  omega

theorem div_of_eq_mul {m q k : ℕ} (h : m = q * 2 ^ k) : m / 2 ^ k = q := by
  rw [h, Nat.mul_div_cancel _ (Nat.two_pow_pos k)]

/-- **One more leaf.** -/
theorem Counted.addLeaf {pos : ℕ} {st : MerkleState} (h : Counted Hash leaves pos c st)
    (hc : c < leaves.length) (hlt : c + 1 < 2 ^ 32) :
    ∃ st', addLeaf Hash pos st leaves[c] = some st' ∧ Counted Hash leaves pos (c + 1) st' := by
  have hcount : (st.count + 1) % 2 ^ 32 = c + 1 := by rw [h.count_eq, Nat.mod_eq_of_lt hlt]
  let s : MerkleClimb := ⟨0, leaves[c], decide (st.count = pos), st.mutated, st.pbranch⟩
  have hs : Climbs Hash leaves (c + 1) c s := by
    refine ⟨?_, ?_⟩
    · rw [Nat.pow_zero, Nat.div_one, Nat.mul_one]
    · rw [Nat.pow_zero, Nat.div_one, node, List.getD_eq_getElem _ _ hc]
  have htracked : Tracked Hash leaves pos c st.matchlevel s := by
    have hzero : ∀ n, n / 2 ^ s.level = n := Nat.div_one
    constructor
    · rw [hzero, hzero, h.count_eq.symm]
      exact decide_eq_true_iff.trans eq_comm
    · intro heq
      rw [hzero, hzero] at heq
      exact (h.unseen heq.ge).2
    · intro hlt
      rw [hzero, hzero] at hlt
      obtain ⟨k, hk⟩ := h.seen hlt
      exact ⟨k, Nat.zero_le k, hk⟩
    · intro hgt
      rw [hzero, hzero] at hgt
      exact h.unseen (Nat.le_of_lt hgt)
  obtain ⟨even, heven⟩ := exists_even c hlt
  obtain ⟨t, ht, hclimbs, -, hteven, hbelow, hmut⟩ := climb_spec st.matchlevel 32 hs h.lefts hc
    ⟨even, Nat.zero_le _, by rw [Nat.zero_add]; exact heven.1, heven.2⟩
  have httracked := climb_tracked htracked hs h.lefts hc ht
  have hdiv : (c + 1) / 2 ^ t.level = c / 2 ^ t.level + 1 := div_of_eq_mul hclimbs.count_eq
  have habove : ∀ {k}, t.level < k → (c + 1) / 2 ^ k = c / 2 ^ k := succ_div_above hteven hdiv
  have hunder : ∀ {k}, k < t.level → (c + 1) / 2 ^ k = c / 2 ^ k + 1 := fun hk =>
    div_of_eq_mul (hbelow _ (Nat.zero_le _) hk).2
  refine ⟨_, by rw [UnemployCoin.addLeaf, hcount, ht, Option.map_some], ?_⟩
  constructor
  · rfl
  · intro k _ hodd
    dsimp only
    rcases Nat.lt_trichotomy k t.level with hk | hk | hk
    · have := (hbelow k (Nat.zero_le _) hk).1
      rw [hunder hk] at hodd
      omega
    · rw [hk, Function.update_self, hdiv, Nat.add_sub_cancel, hclimbs.h_eq]
    · rw [habove hk] at hodd ⊢
      rw [Function.update_of_ne (Nat.ne_of_gt hk)]
      exact h.lefts k (Nat.zero_le k) hodd
  · dsimp only
    rw [hmut, h.mutated_iff]
    constructor
    · rintro ⟨hold, hnew⟩ k p hle
      rcases Nat.lt_or_eq_of_le hle with hlt | heq
      · exact hold k p (Nat.le_of_lt_succ hlt)
      · -- The new pairs are the ones that end with this leaf.
        have hdivk : (c + 1) / 2 ^ k = 2 * p + 2 := div_of_eq_mul heq.symm
        have hk : k < t.level := by
          by_contra hnot
          rcases Nat.lt_or_eq_of_le (Nat.not_lt.1 hnot) with hlt | heq'
          · have hmul : c + 1 = (2 * p + 2) * 2 ^ (k - t.level) * 2 ^ t.level := by
              rw [Nat.mul_assoc, ← Nat.pow_add, Nat.sub_add_cancel (Nat.le_of_lt hlt), heq]
            have hquot := div_of_eq_mul hmul
            have htwo : 2 ^ (k - t.level) = 2 * 2 ^ (k - t.level - 1) := by
              rw [← Nat.pow_succ', Nat.succ_eq_add_one, Nat.sub_add_cancel (by omega)]
            rw [hdiv, htwo, Nat.mul_left_comm] at hquot
            omega
          · rw [heq'] at hdiv hteven
            omega
        have hlast := hunder hk
        have hne := hnew k (Nat.zero_le k) hk
        have hright : c / 2 ^ k = 2 * p + 1 := by omega
        rw [hright] at hne
        exact hne
    · intro hall
      refine ⟨fun k p hle => hall k p (Nat.le_succ_of_le hle), fun k _ hk => ?_⟩
      obtain ⟨hodd, hend⟩ := hbelow k (Nat.zero_le _) hk
      have hright : 2 * (c / 2 ^ k / 2) + 1 = c / 2 ^ k := by omega
      have hleft : 2 * (c / 2 ^ k / 2) = c / 2 ^ k - 1 := by omega
      have hne := hall k (c / 2 ^ k / 2) (by
        rw [hend]
        exact Nat.mul_le_mul_right _ (by omega))
      rwa [hright, hleft] at hne
  · intro hpos
    dsimp only
    have hle : pos / 2 ^ t.level ≤ c / 2 ^ t.level :=
      Nat.div_le_div_right (Nat.le_of_lt_succ hpos)
    rcases Nat.lt_or_eq_of_le hle with hlt | heq
    · obtain ⟨k, hk, hlevel, hkodd, hkpos, hbranch⟩ := httracked.left hlt
      have hk' : t.level < k := Nat.lt_of_le_of_ne hk fun heq => by
        rw [heq] at hteven
        omega
      have hmatch : ¬ t.matchh = true := mt httracked.match_iff.1 (Nat.ne_of_lt hlt)
      refine ⟨k, ?_, ?_, ?_, hbranch⟩
      · rw [if_neg hmatch, hlevel]
      · rw [habove hk', hkodd]
      · rw [habove hk', hkpos]
    · refine ⟨t.level, ?_, ?_, ?_, httracked.found heq⟩
      · rw [if_pos (httracked.match_iff.2 heq)]
      · rw [hdiv]
        omega
      · rw [hdiv, heq, Nat.add_sub_cancel]
  · intro hpos
    dsimp only
    have hgt : c / 2 ^ t.level < pos / 2 ^ t.level := by
      have := Nat.div_le_div_right (c := 2 ^ t.level) hpos
      omega
    obtain ⟨hnone, hbranch⟩ := httracked.right hgt
    rw [if_neg (mt httracked.match_iff.1 (Nat.ne_of_gt hgt))]
    exact ⟨hnone, hbranch⟩

/-- **The loop over the leaves.** -/
theorem counted_foldlM (Hash : uint256 → uint256 → uint256) (leaves : List uint256) (pos c : ℕ)
    (hc : c ≤ leaves.length) (hlt : c < 2 ^ 32) :
    ∃ st, (leaves.take c).foldlM (addLeaf Hash pos) .init = some st ∧
      Counted Hash leaves pos c st := by
  induction c with
  | zero => exact ⟨_, rfl, Counted.init pos⟩
  | succ c ih =>
    obtain ⟨st, hst, hcounted⟩ := ih (by omega) (by omega)
    obtain ⟨st', hst', hcounted'⟩ := hcounted.addLeaf hc hlt
    refine ⟨st', ?_, hcounted'⟩
    rw [List.take_succ_eq_append_getElem hc, List.foldlM_append, hst]
    exact (bind_pure _).trans hst'

/-! ## The final sweep -/

theorem eq_mul_of_even {n L : ℕ} (h : ∀ k < L, n / 2 ^ k % 2 = 0) : n = n / 2 ^ L * 2 ^ L := by
  induction L with
  | zero => rw [Nat.pow_zero, Nat.div_one, Nat.mul_one]
  | succ L ih =>
    have hlast := h L (Nat.lt_succ_self L)
    have heq := ih fun k hk => h k (Nat.lt_succ_of_lt hk)
    rw [div_pow_succ, Nat.pow_succ', ← Nat.mul_assoc]
    have hhalf : n / 2 ^ L / 2 * 2 = n / 2 ^ L := by omega
    rw [hhalf, ← heq]

theorem lowestLevel_spec {n : ℕ} (hpos : n ≠ 0) (hlt : n < 2 ^ 32) :
    ∃ L, lowestLevel n = some L ∧ n / 2 ^ L % 2 = 1 ∧ n = n / 2 ^ L * 2 ^ L := by
  cases h : lowestLevel n with
  | none =>
    rw [lowestLevel, List.find?_eq_none] at h
    have heq := eq_mul_of_even (n := n) (L := 32) fun k hk => by
      have := mt (testBit_iff n k).2 (h k (List.mem_range.2 hk))
      omega
    rw [Nat.div_eq_of_lt hlt, Nat.zero_mul] at heq
    exact absurd heq hpos
  | some L =>
    rw [lowestLevel, List.find?_range_eq_some] at h
    obtain ⟨hbit, -, hbelow⟩ := h
    refine ⟨L, rfl, (testBit_iff n L).1 hbit, eq_mul_of_even fun k hk => ?_⟩
    have := mt (testBit_iff n k).2 (by
      rw [Bool.not_eq_true]
      simpa using hbelow k hk)
    omega

/-- **A level with an odd number of nodes.** -/
theorem Climbs.double (h : Climbs Hash leaves count c s) (hn : leaves.length = c + 1)
    (heven : c / 2 ^ s.level % 2 = 0) :
    Climbs Hash leaves (count + 2 ^ s.level) c (s.double Hash) ∧
      s.h = sibling Hash leaves s.level (c / 2 ^ s.level) := by
  have hbelow : c / 2 ^ s.level * 2 ^ s.level < leaves.length := by
    have := Nat.div_mul_le_self c (2 ^ s.level)
    omega
  have hend : ¬ (c / 2 ^ s.level + 1) * 2 ^ s.level < leaves.length := by
    have := Nat.lt_div_mul_add (a := c) (Nat.two_pow_pos s.level)
    rw [Nat.succ_mul]
    omega
  have hsibling : s.h = sibling Hash leaves s.level (c / 2 ^ s.level) := by
    rw [sibling, if_neg (by omega), if_neg hend, h.h_eq]
  refine ⟨⟨?_, ?_⟩, hsibling⟩
  · simp only [MerkleClimb.double]
    rw [h.count_eq, ← Nat.succ_mul, div_pow_succ, Nat.pow_succ', ← Nat.mul_assoc]
    congr 1
    omega
  · simp only [MerkleClimb.double]
    have hhalf := node_half Hash hbelow
    rw [if_neg (by omega), ← hsibling, ← h.h_eq] at hhalf
    rw [div_pow_succ, hhalf]

theorem Tracked.double {pos : ℕ} (ht : Tracked Hash leaves pos c matchlevel s) (hpos : pos ≤ c)
    (heven : c / 2 ^ s.level % 2 = 0)
    (hsibling : s.h = sibling Hash leaves s.level (c / 2 ^ s.level)) :
    Tracked Hash leaves pos c matchlevel (s.double Hash) := by
  have hle : pos / 2 ^ s.level ≤ c / 2 ^ s.level := Nat.div_le_div_right hpos
  rcases Nat.lt_or_eq_of_le hle with hlt | heq
  · have hmatch : ¬ s.matchh = true := mt ht.match_iff.1 (Nat.ne_of_lt hlt)
    obtain ⟨k, hk, hleft⟩ := ht.left hlt
    have hk' : s.level ≠ k := fun heq => by
      have := hleft.2.1
      rw [← heq] at this
      omega
    have hpass : pos / 2 ^ (s.level + 1) < c / 2 ^ (s.level + 1) := by
      rw [div_pow_succ, div_pow_succ]
      omega
    refine ⟨⟨fun hm => absurd hm hmatch, fun heq => absurd heq (Nat.ne_of_lt hpass)⟩,
      fun heq => absurd heq (Nat.ne_of_lt hpass), fun _ => ⟨k, ?_, ?_⟩,
      fun hgt => absurd hpass (Nat.lt_asymm hgt)⟩
    · simp only [MerkleClimb.double]
      omega
    · simp only [MerkleClimb.double]
      rw [if_neg hmatch]
      exact hleft
  · have hmatch : s.matchh = true := ht.match_iff.2 heq
    have hhalf : pos / 2 ^ (s.level + 1) = c / 2 ^ (s.level + 1) := by
      rw [div_pow_succ, div_pow_succ, heq]
    refine ⟨⟨fun _ => hhalf, fun _ => hmatch⟩, fun _ => ?_,
      fun hne => absurd hhalf (Nat.ne_of_lt hne), fun hne => absurd hhalf (Nat.ne_of_gt hne)⟩
    simp only [MerkleClimb.double]
    rw [if_pos hmatch, path_succ, ht.found heq, heq, hsibling]

/-- **The final sweep** ends at the root. -/
theorem sweep_spec (matchlevel : Option ℕ) (fuel : ℕ) (h : Climbs Hash leaves count c s)
    (hn : leaves.length = c + 1)
    (heven : c / 2 ^ s.level % 2 = 0) (hinner : LeftsAt Hash leaves inner c s.level)
    (hlow : ∀ k < s.level, 2 ^ k ≤ c) (hsize : c < 2 ^ 31) (hfuel : 32 ≤ fuel + s.level) :
    ∃ t, sweep Hash inner matchlevel fuel count s = some t ∧
      t.level = Nat.clog 2 leaves.length ∧ t.h = root Hash leaves ∧
      ∀ pos ≤ c, Tracked Hash leaves pos c matchlevel s →
        Tracked Hash leaves pos c matchlevel t := by
  have htop : c < 2 ^ Nat.clog 2 leaves.length := by
    have := Nat.le_pow_clog Nat.one_lt_two leaves.length
    omega
  have hheight : Nat.clog 2 leaves.length ≤ 31 :=
    (Nat.clog_le_iff_le_pow Nat.one_lt_two).2 (by omega)
  have hlevel : s.level ≤ Nat.clog 2 leaves.length := by
    by_contra hgt
    have := hlow _ (Nat.not_le.1 hgt)
    omega
  induction fuel generalizing count s with
  | zero => omega
  | succ fuel ih =>
    rw [sweep]
    by_cases hroot : count = 2 ^ s.level
    · rw [if_pos hroot]
      have hzero : c / 2 ^ s.level = 0 := by
        have hcount := h.count_eq
        rw [hroot] at hcount
        have := div_of_eq_mul hcount
        rw [Nat.div_self (Nat.two_pow_pos _)] at this
        omega
      have hbelow : c < 2 ^ s.level := (Nat.div_eq_zero_iff_lt (Nat.two_pow_pos _)).1 hzero
      have hlog : s.level = Nat.clog 2 leaves.length :=
        Nat.le_antisymm hlevel ((Nat.clog_le_iff_le_pow Nat.one_lt_two).2 (by omega))
      refine ⟨s, rfl, hlog, ?_, fun _ _ ht => ht⟩
      rw [h.h_eq, hzero, root, hlog]
    · rw [if_neg hroot]
      have hlow' : ∀ k < s.level + 1, 2 ^ k ≤ c := by
        intro k hk
        rcases Nat.lt_or_eq_of_le (Nat.le_of_lt_succ hk) with hlt | rfl
        · exact hlow k hlt
        · by_contra hgt
          have hzero := Nat.div_eq_of_lt (Nat.not_le.1 hgt)
          rw [h.count_eq, hzero, Nat.zero_add, Nat.one_mul] at hroot
          exact hroot rfl
      have hnext : s.level + 1 ≤ Nat.clog 2 leaves.length := by
        by_contra hgt
        have := hlow' _ (Nat.not_le.1 hgt)
        omega
      obtain ⟨hdouble, hsibling⟩ := h.double hn heven
      have hlimit : count + 2 ^ s.level ≤ 2 ^ Nat.clog 2 leaves.length := by
        have hsplit : 2 ^ Nat.clog 2 leaves.length =
            2 ^ (Nat.clog 2 leaves.length - (s.level + 1)) * 2 ^ (s.level + 1) := by
          rw [← Nat.pow_add, Nat.sub_add_cancel hnext]
        rw [hdouble.count_eq]
        simp only [MerkleClimb.double]
        rw [hsplit]
        refine Nat.mul_le_mul_right _ (Nat.succ_le_of_lt ?_)
        rw [Nat.div_lt_iff_lt_mul (Nat.two_pow_pos _), ← hsplit]
        exact htop
      have hsmall : 2 ^ Nat.clog 2 leaves.length ≤ 2 ^ 31 :=
        Nat.pow_le_pow_right (by decide) hheight
      rw [Nat.mod_eq_of_lt (by omega)]
      have hinner' : LeftsAt Hash leaves inner c (s.level + 1) := fun k hk =>
        hinner k (Nat.le_of_succ_le hk)
      obtain ⟨u, hu, hclimbs, hle, hueven, hbelow, -⟩ := climb_spec matchlevel
        (32 - (s.level + 1)) hdouble hinner' (by omega)
        ⟨Nat.clog 2 leaves.length, hnext, by simp only [MerkleClimb.double]; omega,
          by rw [Nat.div_eq_of_lt htop]⟩
      have hulow : ∀ k < u.level, 2 ^ k ≤ c := by
        intro k hk
        by_cases hks : k < s.level + 1
        · exact hlow' k hks
        · have hodd := (hbelow k (Nat.not_lt.1 hks) hk).1
          by_contra hgt
          rw [Nat.div_eq_of_lt (Nat.not_le.1 hgt)] at hodd
          cases hodd
      have hulevel : u.level ≤ Nat.clog 2 leaves.length := by
        by_contra hgt
        have := hulow _ (Nat.not_le.1 hgt)
        omega
      have hfuel' : 32 ≤ fuel + u.level := by
        have : s.level + 1 ≤ u.level := hle
        omega
      obtain ⟨t, ht, hlog, hh, htracked⟩ := ih hclimbs hueven
        (fun k hk => hinner k (Nat.le_trans (Nat.le_of_succ_le hle) hk)) hulow hfuel' hulevel
      refine ⟨t, ?_, hlog, hh, fun pos hpos hs => htracked pos hpos ?_⟩
      · dsimp only
        rw [hu]
        exact ht
      · exact climb_tracked (hs.double hpos heven hsibling) hdouble hinner' (by omega) hu

def sweepStart (st : MerkleState) (L : ℕ) : MerkleClimb :=
  ⟨L, st.inner L, decide (st.matchlevel = some L), st.mutated, st.pbranch⟩

section Start

variable {pos L : ℕ} {st : MerkleState} (h : Counted Hash leaves pos (c + 1) st)
  (hodd : (c + 1) / 2 ^ L % 2 = 1) (hmul : c + 1 = (c + 1) / 2 ^ L * 2 ^ L)
include hmul hodd

theorem last_div : c / 2 ^ L + 1 = (c + 1) / 2 ^ L := by
  obtain ⟨q, hq⟩ := Nat.exists_eq_add_one_of_ne_zero (n := (c + 1) / 2 ^ L) (by omega)
  rw [hq] at hmul ⊢
  have hc : c = 2 ^ L * q + (2 ^ L - 1) := by
    have := Nat.two_pow_pos L
    rw [Nat.succ_mul, Nat.mul_comm] at hmul
    omega
  have hpos := Nat.two_pow_pos L
  rw [hc, Nat.mul_add_div hpos, Nat.div_eq_of_lt (by omega), Nat.add_zero]

theorem last_even : c / 2 ^ L % 2 = 0 := by
  have := last_div hodd hmul
  omega

theorem last_above {k : ℕ} (hk : L < k) : (c + 1) / 2 ^ k = c / 2 ^ k :=
  succ_div_above (last_even hodd hmul) (last_div hodd hmul).symm hk

include h

theorem Counted.climbs : Climbs Hash leaves (c + 1) c (sweepStart st L) := by
  have hdiv := last_div hodd hmul
  refine ⟨?_, ?_⟩
  · dsimp only [sweepStart]
    rw [hdiv]
    exact hmul
  · dsimp only [sweepStart]
    rw [h.lefts L (Nat.zero_le L) hodd, ← hdiv, Nat.add_sub_cancel]

theorem Counted.leftsAt : LeftsAt Hash leaves st.inner c L := by
  intro k hk hkodd
  rcases Nat.lt_or_eq_of_le hk with hlt | rfl
  · have habove := last_above hodd hmul hlt
    have hleft := h.lefts k (Nat.zero_le k)
    rw [habove] at hleft
    exact hleft hkodd
  · have := last_even hodd hmul
    omega

theorem Counted.tracked (hpos : pos < c + 1) :
    Tracked Hash leaves pos c st.matchlevel (sweepStart st L) := by
  obtain ⟨k, hlevel, hkodd, hkpos, hbranch⟩ := h.seen hpos
  have hdiv := last_div hodd hmul
  have hle : L ≤ k := by
    -- Below the lowest bit of the counter its bits are 0.
    by_contra hgt
    obtain ⟨d, rfl⟩ := Nat.exists_eq_add_of_lt (Nat.not_le.1 hgt)
    have hquot : (c + 1) / 2 ^ k = (c + 1) / 2 ^ (k + d + 1) * 2 ^ d * 2 := by
      refine div_of_eq_mul ?_
      have hpow : 2 ^ d * 2 * 2 ^ k = 2 ^ (k + d + 1) := by
        rw [← Nat.pow_succ, ← Nat.pow_add, Nat.succ_eq_add_one, Nat.add_comm (d + 1) k]
        rfl
      rw [Nat.mul_assoc _ (2 ^ d), Nat.mul_assoc, hpow]
      exact hmul
    omega
  rcases Nat.lt_or_eq_of_le hle with hlt | rfl
  · have habove := last_above hodd hmul hlt
    rw [habove] at hkodd hkpos
    have hless : pos / 2 ^ L < c / 2 ^ L := by
      refine Nat.lt_of_le_of_ne (Nat.div_le_div_right (Nat.le_of_lt_succ hpos)) fun heq => ?_
      have := div_pow_eq_of_le hle heq
      omega
    refine ⟨⟨fun hm => ?_, fun heq => absurd heq (Nat.ne_of_lt hless)⟩,
      fun heq => absurd heq (Nat.ne_of_lt hless),
      fun _ => ⟨k, hle, hlevel, hkodd, hkpos, hbranch⟩,
      fun hgt => absurd hless (Nat.lt_asymm hgt)⟩
    have hm' : st.matchlevel = some L := of_decide_eq_true hm
    rw [hlevel] at hm'
    exact absurd (Option.some.inj hm') (Nat.ne_of_gt hlt)
  · have heq : pos / 2 ^ L = c / 2 ^ L := by rw [hkpos, ← hdiv, Nat.add_sub_cancel]
    refine ⟨⟨fun _ => heq, fun _ => decide_eq_true hlevel⟩, fun _ => hbranch,
      fun hlt => absurd heq (Nat.ne_of_lt hlt), fun hgt => absurd heq (Nat.ne_of_gt hgt)⟩

end Start

/-- **`MerkleComputation`** for up to 2^31 leaves. -/
theorem merkleComputation_eq (Hash : uint256 → uint256 → uint256) (hne : leaves ≠ [])
    (hsize : leaves.length ≤ 2 ^ 31) (pos : ℕ) :
    ∃ r, merkleComputation Hash leaves pos = some r ∧ r.proot = root Hash leaves ∧
      (r.pmutated = false ↔ NoTwins Hash leaves) ∧
      (pos < leaves.length →
        r.pbranch = path Hash leaves pos (Nat.clog 2 leaves.length)) := by
  obtain ⟨c, hn⟩ := Nat.exists_eq_add_one_of_ne_zero (mt List.length_eq_zero_iff.1 hne)
  obtain ⟨st, hst, hcounted⟩ := counted_foldlM Hash leaves pos (c + 1)
    (by omega) (by omega)
  rw [← hn, List.take_length] at hst
  obtain ⟨L, hlowest, hodd, hmul⟩ := lowestLevel_spec (n := c + 1) (by omega) (by omega)
  have hlow : ∀ k < L, 2 ^ k ≤ c := by
    intro k hk
    have hhalf : 2 ^ (k + 1) ≤ 2 ^ L := Nat.pow_le_pow_right (by decide) hk
    have hquot : 1 ≤ (c + 1) / 2 ^ L := Nat.one_le_iff_ne_zero.2 fun hzero => by
      rw [hzero] at hodd
      cases hodd
    have hone := Nat.mul_le_mul_right (2 ^ L) hquot
    have hpos := Nat.two_pow_pos k
    rw [Nat.pow_succ] at hhalf
    omega
  obtain ⟨t, ht, hlevel, hroot, htracked⟩ := sweep_spec st.matchlevel 32
    (hcounted.climbs hodd hmul) hn (last_even hodd hmul)
    (hcounted.leftsAt hodd hmul) hlow (by omega) (Nat.le_add_right _ _)
  refine ⟨⟨t.h, st.mutated, t.pbranch⟩, ?_, hroot, ?_, fun hpos => ?_⟩
  · rw [merkleComputation, if_neg hne, hst]
    simp only [Option.bind_eq_bind, Option.bind_some, hcounted.count_eq, hlowest]
    rw [sweepStart] at ht
    rw [ht]
    rfl
  · rw [hcounted.mutated_iff, ← hn]
    rfl
  · have hat := htracked pos (by omega) (hcounted.tracked hodd hmul (by omega))
    have htop : ∀ m < leaves.length, m / 2 ^ t.level = 0 := fun m hm => by
      rw [hlevel]
      exact Nat.div_eq_of_lt (Nat.lt_of_lt_of_le hm (Nat.le_pow_clog Nat.one_lt_two _))
    rw [← hlevel]
    exact hat.found ((htop pos hpos).trans (htop c (by omega)).symm)

/-- **`ComputeMerkleRoot`** is the root of the tree, and reports twins. -/
theorem computeMerkleRoot_eq (Hash : uint256 → uint256 → uint256) (hne : leaves ≠ [])
    (hsize : leaves.length ≤ 2 ^ 31) :
    ∃ mutated, computeMerkleRoot Hash leaves = some (root Hash leaves, mutated) ∧
      (mutated = false ↔ NoTwins Hash leaves) := by
  obtain ⟨r, hr, hroot, hmut, -⟩ := merkleComputation_eq Hash hne hsize (2 ^ 32 - 1)
  exact ⟨r.pmutated, by rw [computeMerkleRoot, hr, Option.map_some, hroot], hmut⟩

/-- **`ComputeMerkleBranch`** has the siblings on the way up. -/
theorem computeMerkleBranch_eq {pos : ℕ} (hsize : leaves.length ≤ 2 ^ 31)
    (hpos : pos < leaves.length) : computeMerkleBranch Hash leaves pos =
      some (path Hash leaves pos (Nat.clog 2 leaves.length)) := by
  have hne : leaves ≠ [] := List.length_pos_iff.1 (Nat.zero_lt_of_lt hpos)
  obtain ⟨r, hr, -, -, hbranch⟩ := merkleComputation_eq Hash hne hsize pos
  rw [computeMerkleBranch, hr, Option.map_some, hbranch hpos]

/-- **`ComputeMerkleRootFromBranch`** climbs from node to node. -/
theorem computeMerkleRootFromBranch_path {pos : ℕ} (k : ℕ) (hpos : pos < leaves.length) :
    computeMerkleRootFromBranch Hash leaves[pos] (path Hash leaves pos k) pos =
      node Hash leaves k (pos / 2 ^ k) := by
  have hfold : ∀ k, (path Hash leaves pos k).foldl (fun (hash, nIndex) it =>
      (if nIndex % 2 = 1 then Hash it hash else Hash hash it, nIndex / 2)) (leaves[pos], pos) =
        (node Hash leaves k (pos / 2 ^ k), pos / 2 ^ k) := by
    intro k
    induction k with
    | zero =>
      rw [Nat.pow_zero, Nat.div_one, node, List.getD_eq_getElem _ _ hpos]
      rfl
    | succ k ih =>
      have hbelow : pos / 2 ^ k * 2 ^ k < leaves.length :=
        Nat.lt_of_le_of_lt (Nat.div_mul_le_self pos _) hpos
      rw [path_succ, List.foldl_append, ih, List.foldl_cons, List.foldl_nil, div_pow_succ,
        node_half Hash hbelow]
  rw [computeMerkleRootFromBranch, hfold]

/-! ## Longer lists -/

theorem climb_zero (fuel : ℕ) : climb Hash inner matchlevel 0 fuel s = none := by
  induction fuel generalizing s with
  | zero => rfl
  | succ fuel ih =>
    rw [climb, Nat.zero_testBit, if_neg Bool.false_ne_true]
    exact ih

theorem climb_stops {fuel : ℕ} (hclimb : climb Hash inner matchlevel count fuel s = some t)
    (hdvd : 2 ^ s.level ∣ count) : count.testBit t.level = true ∧ 2 ^ t.level ∣ count := by
  induction fuel generalizing s with
  | zero => cases hclimb
  | succ fuel ih =>
    rw [climb] at hclimb
    by_cases hbit : count.testBit s.level = true
    · rw [if_pos hbit] at hclimb
      cases hclimb
      exact ⟨hbit, hdvd⟩
    · rw [if_neg hbit] at hclimb
      refine ih hclimb ?_
      obtain ⟨q, hq⟩ := hdvd
      have hquot : count / 2 ^ s.level = q := by
        rw [hq, Nat.mul_div_cancel_left _ (Nat.two_pow_pos _)]
      have heven : q % 2 = 0 := by
        have := mt (testBit_iff count s.level).2 hbit
        omega
      obtain ⟨r, rfl⟩ := Nat.dvd_of_mod_eq_zero heven
      refine ⟨r, ?_⟩
      simp only [MerkleClimb.combine]
      rw [hq, Nat.pow_succ, Nat.mul_assoc]

theorem level_lt (hbit : count.testBit s.level = true) (hlt : count < 2 ^ 32) : s.level < 32 := by
  by_contra hge
  rw [Nat.testBit_lt_two_pow (Nat.lt_of_lt_of_le hlt
    (Nat.pow_le_pow_right (by decide) (Nat.not_lt.1 hge)))] at hbit
  cases hbit

/-- **The final sweep has no top** to reach above half of the counter's range. -/
theorem sweep_eq_none (fuel : ℕ) (hbit : count.testBit s.level = true) (hdvd : 2 ^ s.level ∣ count)
    (hlarge : 2 ^ 31 < count) (hlt : count < 2 ^ 32) :
    sweep Hash inner matchlevel fuel count s = none := by
  induction fuel generalizing count s with
  | zero => rfl
  | succ fuel ih =>
    have hlevel := level_lt hbit hlt
    have htop : ¬ count = 2 ^ s.level := fun heq => by
      have : 2 ^ s.level ≤ 2 ^ 31 := Nat.pow_le_pow_right (by decide) (by omega)
      omega
    rw [sweep, if_neg htop]
    have hlimit : count + 2 ^ s.level ≤ 2 ^ 32 := by
      obtain ⟨q, hq⟩ := hdvd
      obtain ⟨r, hr⟩ : 2 ^ s.level ∣ 2 ^ 32 := Nat.pow_dvd_pow 2 (Nat.le_of_lt hlevel)
      rw [hq, hr] at hlt
      have := Nat.lt_of_mul_lt_mul_left hlt
      rw [hq, hr, ← Nat.mul_succ]
      exact Nat.mul_le_mul_left _ this
    dsimp only
    rcases Nat.lt_or_eq_of_le hlimit with hlt' | heq
    · rw [Nat.mod_eq_of_lt hlt']
      cases hclimb : climb Hash inner matchlevel (count + 2 ^ s.level) (32 - (s.level + 1))
          (s.double Hash) with
      | none => rfl
      | some t =>
        have hdvd' : 2 ^ (s.double Hash).level ∣ count + 2 ^ s.level := by
          obtain ⟨q, hq⟩ := hdvd
          have hquot : count / 2 ^ s.level = q := by
            rw [hq, Nat.mul_div_cancel_left _ (Nat.two_pow_pos _)]
          have hodd := (testBit_iff count s.level).1 hbit
          refine ⟨q / 2 + 1, ?_⟩
          simp only [MerkleClimb.double]
          rw [hq, ← Nat.mul_succ, Nat.pow_succ, Nat.mul_assoc]
          congr 1
          omega
        obtain ⟨hbit', hdvd'⟩ := climb_stops hclimb hdvd'
        exact ih hbit' hdvd' (by omega) hlt'
    · rw [heq, Nat.mod_self, climb_zero]
      rfl

/-- **More than 2^31 leaves** have no result. -/
theorem merkleComputation_eq_none (hsize : 2 ^ 31 < leaves.length) (pos : ℕ) :
    merkleComputation Hash leaves pos = none := by
  have hne : leaves ≠ [] := List.length_pos_iff.1 (Nat.zero_lt_of_lt hsize)
  rw [merkleComputation, if_neg hne]
  by_cases hlong : leaves.length < 2 ^ 32
  · obtain ⟨st, hst, hcounted⟩ := counted_foldlM Hash leaves pos
      leaves.length (Nat.le_refl _) hlong
    obtain ⟨L, hlowest, hodd, hmul⟩ := lowestLevel_spec
      (mt List.length_eq_zero_iff.1 hne) hlong
    rw [List.take_length] at hst
    rw [hst]
    simp only [Option.bind_eq_bind, Option.bind_some, hcounted.count_eq, hlowest]
    rw [sweep_eq_none 32 ((testBit_iff _ L).2 hodd) ⟨_, hmul.trans (Nat.mul_comm _ _)⟩ hsize hlong]
    rfl
  · -- The counter wraps on the last leaf that it can count.
    obtain ⟨st, hst, hcounted⟩ := counted_foldlM Hash leaves pos
      (2 ^ 32 - 1) (by omega) (by decide)
    have hlast : 2 ^ 32 - 1 < leaves.length := by omega
    have hcount := hcounted.count_eq
    have hwrap : (st.count + 1) % 2 ^ 32 = 0 := by omega
    rw [← List.take_append_drop (2 ^ 32 - 1) leaves, List.foldlM_append, hst,
      List.drop_eq_getElem_cons hlast]
    simp only [Option.bind_eq_bind, Option.bind_some, List.foldlM_cons]
    rw [addLeaf, hwrap, climb_zero]
    rfl

theorem computeMerkleRoot_eq_none (hsize : 2 ^ 31 < leaves.length) :
    computeMerkleRoot Hash leaves = none := by
  rw [computeMerkleRoot, merkleComputation_eq_none hsize, Option.map_none]

/-! ## The root of a list -/

theorem eq_root_of_computeMerkleRoot {r : uint256} (hne : leaves ≠ [])
    (h : computeMerkleRoot Hash leaves = some (r, false)) :
    r = root Hash leaves ∧ NoTwins Hash leaves := by
  have hsize : leaves.length ≤ 2 ^ 31 := by
    by_contra hlarge
    rw [computeMerkleRoot_eq_none (Nat.not_le.1 hlarge)] at h
    cases h
  obtain ⟨mutated, heq, hmut⟩ := computeMerkleRoot_eq Hash hne hsize
  obtain ⟨hroot, hfalse⟩ := Prod.mk.inj (Option.some.inj (heq.symm.trans h))
  exact ⟨hroot.symm, hmut.1 hfalse⟩

/-- **What the root is for**: it binds the list where no repetition is reported, and it is the root
of the tree and of every branch. -/
theorem merkleRoot_binding (Hash : uint256 → uint256 → uint256) :
    (Function.Injective2 Hash → ∀ leaves₁ leaves₂ : List uint256, leaves₁ ≠ [] → leaves₂ ≠ [] →
      (∀ leaf ∈ leaves₁, ∀ a b, Hash a b ≠ leaf) → (∀ leaf ∈ leaves₂, ∀ a b, Hash a b ≠ leaf) →
      ∀ r, computeMerkleRoot Hash leaves₁ = some (r, false) →
        computeMerkleRoot Hash leaves₂ = some (r, false) → leaves₁ = leaves₂) ∧
    ∀ leaves : List uint256, leaves.length ≤ 2 ^ 31 →
      (∃ mutated, computeMerkleRoot Hash leaves = some (levelRoot Hash leaves, mutated)) ∧
      ∀ position, (h : position < leaves.length) →
        ∃ branch, computeMerkleBranch Hash leaves position = some branch ∧
          computeMerkleRootFromBranch Hash leaves[position] branch position =
            levelRoot Hash leaves := by
  constructor
  · intro hinj leaves₁ leaves₂ hne₁ hne₂ hleaf₁ hleaf₂ r h₁ h₂
    obtain ⟨hroot₁, htwins₁⟩ := eq_root_of_computeMerkleRoot hne₁ h₁
    obtain ⟨hroot₂, htwins₂⟩ := eq_root_of_computeMerkleRoot hne₂ h₂
    exact eq_of_root_eq hinj htwins₁ htwins₂ hne₁ hne₂ hleaf₁ hleaf₂ (hroot₁.symm.trans hroot₂)
  · intro leaves hsize
    refine ⟨?_, fun position hpos => ⟨_, computeMerkleBranch_eq hsize hpos, ?_⟩⟩
    · by_cases hne : leaves = []
      · subst hne
        refine ⟨false, ?_⟩
        rw [levelRoot]
        rfl
      · obtain ⟨mutated, heq, -⟩ := computeMerkleRoot_eq Hash hne hsize
        exact ⟨mutated, by rw [heq, levelRoot_eq leaves hne]⟩
    · have hne : leaves ≠ [] := List.length_pos_iff.1 (Nat.zero_lt_of_lt hpos)
      have htop : position / 2 ^ Nat.clog 2 leaves.length = 0 :=
        Nat.div_eq_of_lt (Nat.lt_of_lt_of_le hpos (Nat.le_pow_clog Nat.one_lt_two _))
      rw [computeMerkleRootFromBranch_path _ hpos, htop, levelRoot_eq leaves hne, root]

def pairHash (a b : ℕ) : ℕ := 2 * Nat.pair a b + 1

theorem pairHash_injective : Function.Injective2 pairHash := by
  intro a a' b b' h
  rw [pairHash, pairHash] at h
  exact Nat.pair_eq_pair.1 (by omega)

theorem pairHash_ne_even {leaf : ℕ} (h : leaf % 2 = 0) (a b : ℕ) :
    pairHash a b ≠ leaf := by
  rw [pairHash]
  omega

theorem pairTree_binding : ([0, 2, 4] : List uint256) = [0, 2, 4] ∧
    ∃ branch, computeMerkleBranch pairHash [0, 2, 4] 2 = some branch ∧
      computeMerkleRootFromBranch pairHash 4 branch 2 = levelRoot pairHash [0, 2, 4] := by
  have hleaf : ∀ leaf ∈ ([0, 2, 4] : List uint256), ∀ a b, pairHash a b ≠ leaf :=
    fun leaf hmem => pairHash_ne_even (by revert leaf; decide)
  have hroot : computeMerkleRoot pairHash [0, 2, 4] =
      some (pairHash (pairHash 0 2) (pairHash 4 4), false) := by decide
  exact ⟨(merkleRoot_binding pairHash).1 pairHash_injective [0, 2, 4] [0, 2, 4] (by decide)
      (by decide) hleaf hleaf _ hroot hroot,
    ((merkleRoot_binding pairHash).2 [0, 2, 4] (by decide)).2 2 (by decide)⟩

/-- Beyond the limit of `2 ^ 32` leaves there is **no root**. -/
theorem longList_no_root : ¬ ∃ mutated,
    computeMerkleRoot pairHash (List.replicate (2 ^ 32 + 1) 0) =
      some (levelRoot pairHash (List.replicate (2 ^ 32 + 1) 0), mutated) := by
  rintro ⟨mutated, h⟩
  rw [computeMerkleRoot_eq_none (by rw [List.length_replicate]; omega)] at h
  cases h

end UnemployCoin
