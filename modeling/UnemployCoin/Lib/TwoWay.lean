import UnemployCoin.Lib.StdMap
/-!
# Two-way indexes

Two maps of sets: from an item to the owners that mention it, and from an owner back to its items.
They are filled together, one pair at a time, and an owner is taken out of both when it goes.
-/

structure TwoWay (α β : Type) where
  forward : StdMap α (StdMap β Unit)
  backward : StdMap β (StdMap α Unit)

namespace TwoWay

open StdMap

/-! ## Maps of sets -/

section Sets

variable {κ ρ : Type} [DecidableEq κ] [DecidableEq ρ] {m : StdMap κ (StdMap ρ Unit)}
  {k k' : κ} {v v' : ρ} {dropEmpty : Bool}

/-- Puts `v` into the set at `k`, which is empty when there is none. -/
def insertAt (m : StdMap κ (StdMap ρ Unit)) (k : κ) (v : ρ) : StdMap κ (StdMap ρ Unit) :=
  m.assign k (((m.find? k).getD ∅).emplace v ())

/-- Takes `v` out of the set at `k`, and perhaps the set itself when nothing is left in it. -/
def eraseAt (dropEmpty : Bool) (m : StdMap κ (StdMap ρ Unit)) (k : κ) (v : ρ) :
    StdMap κ (StdMap ρ Unit) :=
  match m.find? k with
  | none => m
  | some s =>
    if dropEmpty && decide ((s.erase v).size = 0) then m.erase k else m.assign k (s.erase v)

/-- The set at `k` has `v`. -/
def Holds (m : StdMap κ (StdMap ρ Unit)) (k : κ) (v : ρ) : Prop :=
  ∃ s, m.find? k = some s ∧ s.count v = true

theorem count_insertAt : (insertAt m k v).count k' = (decide (k' = k) || m.count k') :=
  count_assign m k k' _

theorem holds_insertAt : Holds (insertAt m k v) k' v' ↔ (k' = k ∧ v' = v) ∨ Holds m k' v' := by
  unfold Holds insertAt
  rw [find?_assign]
  by_cases hk : k' = k
  · subst hk
    rw [if_pos rfl]
    simp only [Option.some.injEq, exists_eq_left', count_emplace, Bool.or_eq_true,
      decide_eq_true_eq, true_and]
    refine or_congr_right ?_
    cases hfind : m.find? k' with
    | none => simp
    | some s => simp
  · rw [if_neg hk]
    simp only [hk, false_and, false_or]

theorem holds_eraseAt :
    Holds (eraseAt dropEmpty m k v) k' v' ↔ Holds m k' v' ∧ ¬(k' = k ∧ v' = v) := by
  unfold eraseAt
  by_cases hk : k' = k
  · subst hk
    cases hfind : m.find? k' with
    | none =>
      simp only [true_and]
      constructor
      · rintro ⟨s, hs, -⟩
        rw [hfind] at hs
        cases hs
      · rintro ⟨⟨s, hs, -⟩, -⟩
        rw [hfind] at hs
        cases hs
    | some s =>
      have hset : Holds m k' v' ↔ s.count v' = true := by
        unfold Holds
        rw [hfind]
        simp
      have herased : (s.erase v).count v' = true ↔ s.count v' = true ∧ ¬v' = v := by
        rw [count_erase]
        simp [and_comm]
      simp only [true_and]
      rw [hset, ← herased]
      split
      · rename_i hempty
        rw [Bool.and_eq_true, decide_eq_true_eq] at hempty
        constructor
        · rintro ⟨t, ht, -⟩
          rw [find?_erase_self] at ht
          cases ht
        · intro hcount
          exact absurd hempty.2 (size_ne_zero.2 ⟨v', hcount⟩)
      · unfold Holds
        rw [find?_assign_self]
        simp
  · have hsame : (match m.find? k with
        | none => m
        | some s => if dropEmpty && decide ((s.erase v).size = 0) then m.erase k
          else m.assign k (s.erase v)).find? k' = m.find? k' := by
      cases m.find? k with
      | none => rfl
      | some s =>
        simp only
        split
        · exact find?_erase_ne hk
        · exact find?_assign_ne hk
    unfold Holds
    rw [hsame]
    simp only [hk, false_and, not_false_eq_true, and_true]

theorem holds_foldl_eraseAt {l : List κ} :
    Holds (l.foldl (fun m k => eraseAt dropEmpty m k v) m) k' v' ↔
      Holds m k' v' ∧ ¬(k' ∈ l ∧ v' = v) := by
  induction l generalizing m with
  | nil => simp
  | cons k l ih =>
    rw [List.foldl_cons, ih, holds_eraseAt, List.mem_cons]
    constructor
    · rintro ⟨⟨hold, hk⟩, hl⟩
      refine ⟨hold, ?_⟩
      rintro ⟨hmem | hmem, hv⟩
      · exact hk ⟨hmem, hv⟩
      · exact hl ⟨hmem, hv⟩
    · rintro ⟨hold, hnot⟩
      exact ⟨⟨hold, fun h => hnot ⟨Or.inl h.1, h.2⟩⟩, fun h => hnot ⟨Or.inr h.1, h.2⟩⟩

theorem holds_foldl_insertAt {l : List κ} :
    Holds (l.foldl (fun m k => insertAt m k v) m) k' v' ↔ (k' ∈ l ∧ v' = v) ∨ Holds m k' v' := by
  induction l generalizing m with
  | nil => simp
  | cons k l ih =>
    rw [List.foldl_cons, ih, holds_insertAt, List.mem_cons]
    tauto

def NoneEmpty (m : StdMap κ (StdMap ρ Unit)) : Prop := ∀ k s, m.find? k = some s → s.size ≠ 0

theorem NoneEmpty.insertAt (h : NoneEmpty m) : NoneEmpty (insertAt m k v) := by
  intro k' s hs
  rw [TwoWay.insertAt, find?_assign] at hs
  split at hs
  · cases hs
    refine size_ne_zero.2 ⟨v, ?_⟩
    rw [count_emplace, decide_eq_true rfl, Bool.true_or]
  · exact h k' s hs

theorem NoneEmpty.eraseAt (h : NoneEmpty m) : NoneEmpty (eraseAt true m k v) := by
  intro k' s hs
  rw [TwoWay.eraseAt] at hs
  split at hs
  · exact h k' s hs
  · rename_i t ht
    split at hs
    · rw [find?_erase] at hs
      split at hs
      · cases hs
      · exact h k' s hs
    · rename_i hsize
      rw [find?_assign] at hs
      split at hs
      · cases hs
        simpa using hsize
      · exact h k' s hs

end Sets

section Inverse

variable {κ ρ : Type} [DecidableEq κ] [DecidableEq ρ] {f : StdMap κ ρ} {g : StdMap ρ κ}
  {k k' : κ} {v v' : ρ}

def Inverse (f : StdMap κ ρ) (g : StdMap ρ κ) : Prop :=
  ∀ k v, f.find? k = some v ↔ g.find? v = some k

theorem Inverse.empty : Inverse (∅ : StdMap κ ρ) ∅ := by
  intro k v
  simp

theorem Inverse.erase (h : Inverse f g) (hg : g.find? v = some k) :
    Inverse (f.erase k) (g.erase v) ∧
      ∀ k' v', (f.erase k).find? k' = some v' ↔ f.find? k' = some v' ∧ v' ≠ v := by
  have hfind : ∀ k' v', (f.erase k).find? k' = some v' ↔ f.find? k' = some v' ∧ v' ≠ v := by
    intro k' v'
    rw [find?_erase]
    by_cases hk : k' = k
    · subst hk
      rw [if_pos rfl, (h k' v).2 hg]
      simp only [reduceCtorEq, Option.some.injEq, false_iff, not_and, not_not]
      exact fun heq => heq.symm
    · rw [if_neg hk]
      refine ⟨fun hf => ⟨hf, ?_⟩, And.left⟩
      rintro rfl
      exact hk (Option.some.inj (((h k' v').1 hf).symm.trans hg))
  refine ⟨fun k' v' => ?_, hfind⟩
  rw [hfind, h, find?_erase]
  by_cases hv : v' = v <;> simp [hv]

theorem Inverse.assign (h : Inverse f g) (hf : f.find? k = none) (hg : g.find? v = none) :
    Inverse (f.assign k v) (g.assign v k) := by
  intro k' v'
  rw [find?_assign, find?_assign]
  by_cases hk : k' = k
  · subst hk
    by_cases hv : v' = v
    · simp [hv]
    · rw [if_pos rfl, if_neg hv, Option.some.injEq, ← h, hf]
      simp [Ne.symm hv]
  · rw [if_neg hk]
    by_cases hv : v' = v
    · subst hv
      rw [if_pos rfl, h, hg]
      simp [Ne.symm hk]
    · rw [if_neg hv]
      exact h k' v'

end Inverse

/-! ## Both maps -/

variable {α β : Type} [DecidableEq α] [DecidableEq β]

def empty : TwoWay α β := ⟨∅, ∅⟩

def link (I : TwoWay α β) (a : α) (b : β) : TwoWay α β :=
  ⟨insertAt I.forward a b, insertAt I.backward b a⟩

def items (I : TwoWay α β) (b : β) : List α := ((I.backward.find? b).map StdMap.keys).getD []

def unlink (dropEmpty : Bool) (I : TwoWay α β) (b : β) : TwoWay α β :=
  { I with forward := (I.items b).foldl (fun m a => eraseAt dropEmpty m a b) I.forward }

def remove (dropEmpty : Bool) (I : TwoWay α β) (b : β) : TwoWay α β :=
  { I.unlink dropEmpty b with backward := I.backward.erase b }

/-- The two maps are inverse, and every owner is alive. -/
structure Exact (I : TwoWay α β) (live : β → Prop) : Prop where
  inverse : ∀ a b, Holds I.forward a b ↔ Holds I.backward b a
  alive : ∀ b, I.backward.count b = true → live b

variable {I : TwoWay α β} {live live' : β → Prop} {a : α} {b : β} {dropEmpty : Bool}

theorem Exact.empty : (empty : TwoWay α β).Exact live := by
  refine ⟨fun a b => ⟨?_, ?_⟩, ?_⟩
  · rintro ⟨s, hs, -⟩
    cases hs
  · rintro ⟨s, hs, -⟩
    cases hs
  · intro b hb
    cases hb

theorem Exact.mono (h : I.Exact live) (hlive : ∀ b, live b → live' b) : I.Exact live' :=
  ⟨h.inverse, fun b hb => hlive b (h.alive b hb)⟩

theorem Exact.link (h : I.Exact live) (hb : live b) : (I.link a b).Exact live := by
  refine ⟨fun a' b' => ?_, fun b' hb' => ?_⟩
  · rw [TwoWay.link, holds_insertAt, holds_insertAt, h.inverse, and_comm]
  · rw [TwoWay.link, count_insertAt, Bool.or_eq_true, decide_eq_true_eq] at hb'
    rcases hb' with rfl | hb'
    · exact hb
    · exact h.alive b' hb'

theorem mem_items : a ∈ I.items b ↔ Holds I.backward b a := by
  unfold items Holds
  cases I.backward.find? b with
  | none => simp
  | some s => simp [mem_keys]

theorem Exact.remove (h : I.Exact live) :
    (I.remove dropEmpty b).Exact fun b' => live b' ∧ b' ≠ b := by
  refine ⟨fun a b' => ?_, fun b' hb' => ?_⟩
  · have hforward : Holds (I.remove dropEmpty b).forward a b' ↔
        Holds I.forward a b' ∧ ¬(a ∈ I.items b ∧ b' = b) := holds_foldl_eraseAt
    have hbackward : Holds (I.remove dropEmpty b).backward b' a ↔
        Holds I.backward b' a ∧ b' ≠ b := by
      unfold TwoWay.remove Holds
      rw [find?_erase]
      by_cases hb : b' = b <;> simp [hb]
    rw [hforward, hbackward, mem_items, h.inverse]
    constructor
    · rintro ⟨hold, hnot⟩
      refine ⟨hold, fun hb => hnot ⟨?_, hb⟩⟩
      rw [← hb]
      exact hold
    · rintro ⟨hold, hb⟩
      exact ⟨hold, fun h => hb h.2⟩
  · rw [TwoWay.remove, count_erase, Bool.and_eq_true, Bool.not_eq_true',
      decide_eq_false_iff_not] at hb'
    exact ⟨h.alive b' hb'.2, hb'.1⟩

theorem Exact.of_not_count (h : I.Exact live) (hb : I.backward.count b = false) :
    (I.unlink dropEmpty b).Exact fun b' => live b' ∧ b' ≠ b := by
  have hitems : I.items b = [] := by
    rw [items, count_eq_false.1 hb]
    rfl
  have hsame : I.unlink dropEmpty b = I := by
    rw [unlink, hitems]
    rfl
  rw [hsame]
  refine ⟨h.inverse, fun b' hb' => ⟨h.alive b' hb', ?_⟩⟩
  rintro rfl
  rw [hb] at hb'
  cases hb'

end TwoWay
