import Mathlib.Algebra.Order.Ring.Int
import Mathlib.Data.List.GetD
import Mathlib.Data.List.Nodup
import Mathlib.Data.Nat.Log
import Mathlib.Logic.Function.Basic
import Mathlib.Tactic.Common
/-!
# Hash trees whose odd levels repeat their last node

A binary tree over a list of leaves.  A level with an odd number of nodes is made even with a copy
of its last node, so a list and the same list with that copy written out have one root.
-/

namespace MerkleTree

variable {α : Type*} [Inhabited α]

section Definitions

variable (hash : α → α → α)

/-- The node at a position of a level.  Where there is nothing to its right, the left child is
**taken twice**. -/
def node (leaves : List α) : ℕ → ℕ → α
  | 0, pos => leaves.getD pos default
  | k + 1, pos =>
    hash (node leaves k (2 * pos))
      (if (2 * pos + 1) * 2 ^ k < leaves.length then node leaves k (2 * pos + 1)
        else node leaves k (2 * pos))

def root (leaves : List α) : α := node hash leaves (Nat.clog 2 leaves.length) 0

def level : List α → List α
  | [] => []
  | [a] => [hash a a]
  | a :: b :: l => hash a b :: level l

omit [Inhabited α] in
theorem length_level (l : List α) : (level hash l).length = (l.length + 1) / 2 := by
  induction l using level.induct with
  | case1 => simp [level]
  | case2 a => simp [level]
  | case3 a b l ih =>
    rw [level, List.length_cons, ih, List.length_cons, List.length_cons]
    omega

def levelRoot (l : List α) : α :=
  if l.length ≤ 1 then l.headD default else levelRoot (level hash l)
termination_by l.length
decreasing_by rw [length_level]; omega

def block (leaves : List α) (k pos : ℕ) : List α := (leaves.drop (pos * 2 ^ k)).take (2 ^ k)

/-- No two siblings are equal that both stand over as many leaves as they can. -/
def NoTwins (leaves : List α) : Prop :=
  ∀ k pos, (2 * pos + 2) * 2 ^ k ≤ leaves.length →
    node hash leaves k (2 * pos) ≠ node hash leaves k (2 * pos + 1)

def sibling (leaves : List α) (k pos : ℕ) : α :=
  if pos % 2 = 1 then node hash leaves k (pos - 1)
  else if (pos + 1) * 2 ^ k < leaves.length then node hash leaves k (pos + 1)
  else node hash leaves k pos

end Definitions

variable {hash : α → α → α} {leaves leaves₁ leaves₂ : List α} {k pos pos₁ pos₂ : ℕ}

theorem getD_level (l : List α) (pos : ℕ) (h : 2 * pos < l.length) :
    (level hash l).getD pos default = node hash l 1 pos := by
  induction l using level.induct generalizing pos with
  | case1 => exact absurd h (Nat.not_lt_zero _)
  | case2 a =>
    obtain rfl : pos = 0 := by
      rw [List.length_singleton] at h
      omega
    rfl
  | case3 a b l ih =>
    cases pos with
    | zero =>
      have hlt : (2 * 0 + 1) * 2 ^ 0 < (a :: b :: l).length := by
        rw [List.length_cons, List.length_cons]
        omega
      rw [node, if_pos hlt]
      rfl
    | succ pos =>
      rw [List.length_cons, List.length_cons] at h
      have hstep := ih pos (by omega)
      rw [node] at hstep ⊢
      have htwice : 2 * (pos + 1) = 2 * pos + 2 := rfl
      have hlength : (a :: b :: l).length = l.length + 2 := rfl
      rw [level, List.getD_cons_succ, hstep, htwice, hlength]
      congr 1
      refine if_congr ?_ rfl rfl
      rw [Nat.pow_zero]
      omega

theorem node_level (l : List α) (k pos : ℕ) (h : pos * 2 ^ (k + 1) < l.length) :
    node hash (level hash l) k pos = node hash l (k + 1) pos := by
  induction k generalizing pos with
  | zero => exact getD_level l pos (by omega)
  | succ k ih =>
    have hpow : 2 ^ (k + 1) = 2 * 2 ^ k := Nat.pow_succ'
    have hpow' : 2 ^ (k + 1 + 1) = 2 * (2 * 2 ^ k) := by rw [Nat.pow_succ', hpow]
    rw [hpow'] at h
    have hleft : 2 * pos * 2 ^ (k + 1) = pos * (2 * (2 * 2 ^ k)) := by
      rw [hpow, Nat.mul_right_comm, Nat.mul_comm, Nat.mul_left_comm]
    have hright : (2 * pos + 1) * 2 ^ (k + 1) = 2 * ((2 * pos + 1) * 2 ^ k) := by
      rw [hpow, Nat.mul_left_comm]
    have hiff : (2 * pos + 1) * 2 ^ k < (level hash l).length ↔
        (2 * pos + 1) * 2 ^ (k + 1) < l.length := by
      rw [length_level, hright]
      omega
    rw [node, node, ih (2 * pos) (by rw [hleft]; exact h)]
    congr 1
    by_cases hc : (2 * pos + 1) * 2 ^ (k + 1) < l.length
    · rw [if_pos (hiff.2 hc), if_pos hc, ih (2 * pos + 1) hc]
    · rw [if_neg (mt hiff.1 hc), if_neg hc]

/-- **The tree made level by level** has the same root. -/
theorem levelRoot_eq (l : List α) (h : l ≠ []) : levelRoot hash l = root hash l := by
  induction hn : l.length using Nat.strongRecOn generalizing l with
  | ind n ih =>
    subst hn
    have hpos : 0 < l.length := List.length_pos_iff.2 h
    rw [levelRoot, root]
    split
    · rename_i hle
      obtain ⟨a, rfl⟩ := List.length_eq_one_iff.1 (Nat.le_antisymm hle hpos)
      rw [List.length_singleton, Nat.clog_one_right]
      rfl
    · rename_i hlong
      have hlen := length_level hash l
      have hne : level hash l ≠ [] := List.length_pos_iff.1 (by omega)
      have hlog : Nat.clog 2 l.length = Nat.clog 2 (level hash l).length + 1 := by
        rw [Nat.clog_of_two_le (by omega) (by omega), hlen]
        rfl
      rw [ih _ (by omega) (level hash l) hne rfl, root, hlog]
      exact node_level l _ 0 (by omega)

/-! ## A node determines its leaves -/

omit [Inhabited α] in
theorem block_succ (leaves : List α) (k pos : ℕ) :
    block leaves (k + 1) pos = block leaves k (2 * pos) ++ block leaves k (2 * pos + 1) := by
  have hpow : 2 ^ (k + 1) = 2 ^ k + 2 ^ k := by rw [Nat.pow_succ, Nat.mul_two]
  have hstart : pos * 2 ^ (k + 1) = 2 * pos * 2 ^ k := by
    rw [Nat.pow_succ', ← Nat.mul_assoc, Nat.mul_comm pos 2]
  have hnext : (2 * pos + 1) * 2 ^ k = 2 * pos * 2 ^ k + 2 ^ k := Nat.succ_mul _ _
  rw [block, block, block, hstart, hpow, List.take_add, hnext, List.drop_drop]

omit [Inhabited α] in
theorem length_block (leaves : List α) (k pos : ℕ) :
    (block leaves k pos).length = min (2 ^ k) (leaves.length - pos * 2 ^ k) := by
  rw [block, List.length_take, List.length_drop]

theorem twin_of_missing (hinj : Function.Injective2 hash) (htwins : NoTwins hash leaves₂)
    (ih : ∀ pos₁ pos₂, pos₁ * 2 ^ k < leaves₁.length → pos₂ * 2 ^ k < leaves₂.length →
      node hash leaves₁ k pos₁ = node hash leaves₂ k pos₂ →
      block leaves₁ k pos₁ = block leaves₂ k pos₂)
    (h₁ : 2 * pos₁ * 2 ^ k < leaves₁.length) (hmissing : ¬ (2 * pos₁ + 1) * 2 ^ k < leaves₁.length)
    (hright : (2 * pos₂ + 1) * 2 ^ k < leaves₂.length) :
    node hash leaves₁ (k + 1) pos₁ ≠ node hash leaves₂ (k + 1) pos₂ := by
  intro heq
  rw [node, node, if_neg hmissing, if_pos hright] at heq
  obtain ⟨hl, hr⟩ := hinj heq
  have hnext : (2 * pos₂ + 1) * 2 ^ k = 2 * pos₂ * 2 ^ k + 2 ^ k := Nat.succ_mul _ _
  have hlast : (2 * pos₂ + 2) * 2 ^ k = (2 * pos₂ + 1) * 2 ^ k + 2 ^ k := Nat.succ_mul _ _
  have hpow : 0 < 2 ^ k := Nat.two_pow_pos k
  have hleft : 2 * pos₂ * 2 ^ k < leaves₂.length := by omega
  -- Both blocks on the right are the one on the left, so the second is as long as the first.
  have hlen := congrArg List.length ((ih _ _ h₁ hleft hl).symm.trans (ih _ _ h₁ hright hr))
  rw [length_block, length_block] at hlen
  refine htwins k pos₂ ?_ (hl.symm.trans hr)
  omega

/-- **A node determines the leaves below it.** -/
theorem block_of_node_eq (hinj : Function.Injective2 hash) (ht₁ : NoTwins hash leaves₁)
    (ht₂ : NoTwins hash leaves₂) (h₁ : pos₁ * 2 ^ k < leaves₁.length)
    (h₂ : pos₂ * 2 ^ k < leaves₂.length)
    (heq : node hash leaves₁ k pos₁ = node hash leaves₂ k pos₂) :
    block leaves₁ k pos₁ = block leaves₂ k pos₂ := by
  induction k generalizing pos₁ pos₂ with
  | zero =>
    rw [Nat.pow_zero, Nat.mul_one] at h₁ h₂
    rw [node, node, List.getD_eq_getElem _ _ h₁, List.getD_eq_getElem _ _ h₂] at heq
    rw [block, block, Nat.pow_zero, Nat.mul_one, Nat.mul_one, List.drop_eq_getElem_cons h₁,
      List.drop_eq_getElem_cons h₂, heq]
    rfl
  | succ k ih =>
    have hstart : ∀ pos, pos * 2 ^ (k + 1) = 2 * pos * 2 ^ k := fun pos => by
      rw [Nat.pow_succ', ← Nat.mul_assoc, Nat.mul_comm pos 2]
    rw [hstart] at h₁ h₂
    have hempty : ∀ {l : List α} {pos}, ¬ (2 * pos + 1) * 2 ^ k < l.length →
        block l k (2 * pos + 1) = [] := by
      intro l pos hpos
      rw [block, List.drop_eq_nil_of_le (Nat.not_lt.1 hpos), List.take_nil]
    by_cases hc₁ : (2 * pos₁ + 1) * 2 ^ k < leaves₁.length
    · by_cases hc₂ : (2 * pos₂ + 1) * 2 ^ k < leaves₂.length
      · rw [node, node, if_pos hc₁, if_pos hc₂] at heq
        obtain ⟨hl, hr⟩ := hinj heq
        rw [block_succ, block_succ, ih h₁ h₂ hl, ih hc₁ hc₂ hr]
      · refine absurd heq.symm (twin_of_missing hinj ht₁ ?_ h₂ hc₂ hc₁)
        exact fun pos₁ pos₂ h₁ h₂ heq => (ih h₂ h₁ heq.symm).symm
    · by_cases hc₂ : (2 * pos₂ + 1) * 2 ^ k < leaves₂.length
      · exact absurd heq (twin_of_missing hinj ht₂ (fun _ _ => ih) h₁ hc₁ hc₂)
      · rw [node, node, if_neg hc₁, if_neg hc₂] at heq
        rw [block_succ, block_succ, ih h₁ h₂ (hinj heq).1, hempty hc₁, hempty hc₂]

theorem height_of_node_eq (hinj : Function.Injective2 hash) {d : ℕ}
    (hleaf : ∀ a b, hash a b ≠ node hash leaves₁ 0 0)
    (heq : node hash leaves₁ k 0 = node hash leaves₂ (k + d) 0) : d = 0 := by
  induction k with
  | zero =>
    cases d with
    | zero => rfl
    | succ d =>
      rw [Nat.zero_add, node.eq_2] at heq
      exact absurd heq.symm (hleaf _ _)
  | succ k ih =>
    rw [Nat.add_right_comm, node.eq_2, node.eq_2] at heq
    exact ih (hinj heq).1

omit [Inhabited α] in
theorem block_zero (h : leaves.length ≤ 2 ^ k) : block leaves k 0 = leaves := by
  rw [block, Nat.zero_mul, List.drop_zero, List.take_of_length_le h]

theorem leaf_zero_mem (h : leaves ≠ []) : node hash leaves 0 0 ∈ leaves := by
  have hpos : 0 < leaves.length := List.length_pos_iff.2 h
  rw [node, List.getD_eq_getElem _ _ hpos]
  exact List.getElem_mem hpos

/-- **A root determines the list**, where no two whole siblings are equal and no leaf is a
hash. -/
theorem eq_of_root_eq (hinj : Function.Injective2 hash) (ht₁ : NoTwins hash leaves₁)
    (ht₂ : NoTwins hash leaves₂) (hne₁ : leaves₁ ≠ []) (hne₂ : leaves₂ ≠ [])
    (hl₁ : ∀ leaf ∈ leaves₁, ∀ a b, hash a b ≠ leaf)
    (hl₂ : ∀ leaf ∈ leaves₂, ∀ a b, hash a b ≠ leaf)
    (heq : root hash leaves₁ = root hash leaves₂) : leaves₁ = leaves₂ := by
  rw [root, root] at heq
  have hheight : Nat.clog 2 leaves₁.length = Nat.clog 2 leaves₂.length := by
    rcases Nat.le_total (Nat.clog 2 leaves₁.length) (Nat.clog 2 leaves₂.length) with hle | hle
    · have hd := height_of_node_eq (d := Nat.clog 2 leaves₂.length - Nat.clog 2 leaves₁.length)
        hinj (hl₁ _ (leaf_zero_mem hne₁)) (by rw [Nat.add_sub_cancel' hle]; exact heq)
      omega
    · have hd := height_of_node_eq (d := Nat.clog 2 leaves₁.length - Nat.clog 2 leaves₂.length)
        hinj (hl₂ _ (leaf_zero_mem hne₂)) (by rw [Nat.add_sub_cancel' hle]; exact heq.symm)
      omega
  rw [hheight] at heq
  have hpos₁ : 0 * 2 ^ Nat.clog 2 leaves₂.length < leaves₁.length := by
    rw [Nat.zero_mul]
    exact List.length_pos_iff.2 hne₁
  have hpos₂ : 0 * 2 ^ Nat.clog 2 leaves₂.length < leaves₂.length := by
    rw [Nat.zero_mul]
    exact List.length_pos_iff.2 hne₂
  have hblocks := block_of_node_eq hinj ht₁ ht₂ hpos₁ hpos₂ heq
  have hle₁ : leaves₁.length ≤ 2 ^ Nat.clog 2 leaves₂.length := by
    rw [← hheight]
    exact Nat.le_pow_clog Nat.one_lt_two _
  rwa [block_zero hle₁, block_zero (Nat.le_pow_clog Nat.one_lt_two _)] at hblocks

/-- **The nodes of a level are different** when the leaves are. -/
theorem node_injective (hinj : Function.Injective2 hash) (hnd : leaves.Nodup)
    (h₁ : pos₁ * 2 ^ k < leaves.length) (h₂ : pos₂ * 2 ^ k < leaves.length)
    (heq : node hash leaves k pos₁ = node hash leaves k pos₂) : pos₁ = pos₂ := by
  induction k generalizing pos₁ pos₂ with
  | zero =>
    rw [Nat.pow_zero, Nat.mul_one] at h₁ h₂
    rw [node, node, List.getD_eq_getElem _ _ h₁, List.getD_eq_getElem _ _ h₂] at heq
    exact (List.Nodup.getElem_inj_iff hnd).1 heq
  | succ k ih =>
    have hstart : ∀ pos, pos * 2 ^ (k + 1) = 2 * pos * 2 ^ k := fun pos => by
      rw [Nat.pow_succ', ← Nat.mul_assoc, Nat.mul_comm pos 2]
    rw [hstart] at h₁ h₂
    rw [node, node] at heq
    have := ih h₁ h₂ (hinj heq).1
    omega

theorem node_half (hash : α → α → α) (h : pos * 2 ^ k < leaves.length) :
    node hash leaves (k + 1) (pos / 2) =
      if pos % 2 = 1 then hash (sibling hash leaves k pos) (node hash leaves k pos)
      else hash (node hash leaves k pos) (sibling hash leaves k pos) := by
  rw [node, sibling]
  by_cases hodd : pos % 2 = 1
  · have hright : 2 * (pos / 2) + 1 = pos := by omega
    have hleft : 2 * (pos / 2) = pos - 1 := by omega
    rw [hright, hleft, if_pos h, if_pos hodd, if_pos hodd]
  · have hleft : 2 * (pos / 2) = pos := by omega
    rw [hleft, if_neg hodd, if_neg hodd]

end MerkleTree
