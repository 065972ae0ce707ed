import Mathlib.Data.List.AList
import Mathlib.Algebra.BigOperators.Group.List.Basic
import Mathlib.Tactic.Abel
import Mathlib.Tactic.Common
/-!
# Ordered associative containers with unique keys

`std::map` and `std::set` over arbitrary keys.  A map is a list of entries with distinct keys,
so an entry list with a repeated key cannot be built.  A set whose comparison looks only at
some fields of its elements is a map from those fields to the element.
-/

/-- `std::map<κ, ν>`. -/
structure StdMap (κ : Type*) (ν : Type*) where
  toAList : AList fun _ : κ => ν
  deriving DecidableEq

namespace StdMap

variable {κ ν ρ : Type*}

def entries (m : StdMap κ ν) : List (κ × ν) := m.toAList.entries.map fun e => (e.1, e.2)

def keys (m : StdMap κ ν) : List κ := m.toAList.keys

def size (m : StdMap κ ν) : ℕ := m.entries.length

instance : EmptyCollection (StdMap κ ν) := ⟨⟨∅⟩⟩

instance : Inhabited (StdMap κ ν) := ⟨∅⟩

section Operations

variable [DecidableEq κ]

/-- The value stored for `k`. -/
def find? (m : StdMap κ ν) (k : κ) : Option ν := m.toAList.lookup k

/-- `count(k)` as a condition. -/
def count (m : StdMap κ ν) (k : κ) : Bool := (m.find? k).isSome

/-- `m[k] = v`. -/
def assign (m : StdMap κ ν) (k : κ) (v : ν) : StdMap κ ν := ⟨m.toAList.insert k v⟩

/-- `insert`: an entry already there is **kept**. -/
def emplace (m : StdMap κ ν) (k : κ) (v : ν) : StdMap κ ν :=
  if m.count k then m else m.assign k v

def erase (m : StdMap κ ν) (k : κ) : StdMap κ ν := ⟨m.toAList.erase k⟩

/-- Stores an entry over an old one, or only where there is none. -/
def put (overwrite : Bool) (m : StdMap κ ν) (k : κ) (v : ν) : StdMap κ ν :=
  if overwrite then m.assign k v else m.emplace k v

/-- What `put` leaves at its own key. -/
def putValue (overwrite : Bool) (old : Option ν) (v : ν) : ν :=
  if overwrite then v else old.getD v

@[simp] theorem putValue_none (overwrite : Bool) (v : ν) : putValue overwrite none v = v := by
  cases overwrite <;> rfl

@[simp] theorem putValue_false_some (old v : ν) : putValue false (some old) v = old := rfl

@[simp] theorem putValue_true (old : Option ν) (v : ν) : putValue true old v = v := rfl

def merge (overwrite : Bool) (upper lower : Option ν) : Option ν :=
  if overwrite then upper.or lower else lower.or upper

theorem merge_none {overwrite : Bool} (lower : Option ν) : merge overwrite none lower = lower := by
  cases overwrite
  · exact Option.or_none
  · rfl

theorem of_merge_eq_some {overwrite : Bool} {upper lower : Option ν} {v : ν}
    (h : merge overwrite upper lower = some v) : upper = some v ∨ lower = some v := by
  rw [merge] at h
  split at h
  · exact (Option.or_eq_some_iff.1 h).imp_right And.right
  · exact ((Option.or_eq_some_iff.1 h).imp_right And.right).symm

/-- `for (auto item : n) m[item.first] = item.second`. -/
def update (m n : StdMap κ ν) : StdMap κ ν :=
  n.entries.foldl (fun m e => put true m e.1 e.2) m

@[simp] theorem find?_empty (k : κ) : (∅ : StdMap κ ν).find? k = none := AList.lookup_empty k

@[simp] theorem find?_assign_self (m : StdMap κ ν) (k : κ) (v : ν) :
    (m.assign k v).find? k = some v := AList.lookup_insert m.toAList

theorem find?_assign_ne {m : StdMap κ ν} {k k' : κ} {v : ν} (h : k' ≠ k) :
    (m.assign k v).find? k' = m.find? k' := AList.lookup_insert_ne h

theorem find?_assign (m : StdMap κ ν) (k k' : κ) (v : ν) :
    (m.assign k v).find? k' = if k' = k then some v else m.find? k' := by
  by_cases h : k' = k
  · subst h
    rw [find?_assign_self, if_pos rfl]
  · rw [find?_assign_ne h, if_neg h]

@[simp] theorem find?_erase_self (m : StdMap κ ν) (k : κ) : (m.erase k).find? k = none :=
  AList.lookup_erase k m.toAList

theorem find?_erase_ne {m : StdMap κ ν} {k k' : κ} (h : k' ≠ k) :
    (m.erase k).find? k' = m.find? k' := AList.lookup_erase_ne h

theorem find?_erase (m : StdMap κ ν) (k k' : κ) :
    (m.erase k).find? k' = if k' = k then none else m.find? k' := by
  by_cases h : k' = k
  · subst h
    rw [find?_erase_self, if_pos rfl]
  · rw [find?_erase_ne h, if_neg h]

theorem count_eq_true {m : StdMap κ ν} {k : κ} : m.count k = true ↔ ∃ v, m.find? k = some v :=
  Option.isSome_iff_exists

theorem count_eq_false {m : StdMap κ ν} {k : κ} : m.count k = false ↔ m.find? k = none := by
  rw [count, Option.isSome_eq_false_iff, Option.isNone_iff_eq_none]

theorem count_of_find? {m : StdMap κ ν} {k : κ} {v : ν} (h : m.find? k = some v) :
    m.count k = true := count_eq_true.2 ⟨v, h⟩

@[simp] theorem count_empty (k : κ) : (∅ : StdMap κ ν).count k = false := by
  rw [count_eq_false, find?_empty]

theorem count_assign (m : StdMap κ ν) (k k' : κ) (v : ν) :
    (m.assign k v).count k' = (decide (k' = k) || m.count k') := by
  rw [count, find?_assign, count]
  by_cases h : k' = k <;> simp [h]

theorem count_erase (m : StdMap κ ν) (k k' : κ) :
    (m.erase k).count k' = (!decide (k' = k) && m.count k') := by
  rw [count, find?_erase, count]
  by_cases h : k' = k <;> simp [h]

theorem find?_emplace (m : StdMap κ ν) (k k' : κ) (v : ν) :
    (m.emplace k v).find? k' = if k' = k then some ((m.find? k).getD v) else m.find? k' := by
  rw [emplace]
  cases hk : m.find? k with
  | none =>
    rw [count_eq_false.2 hk, if_neg Bool.false_ne_true, find?_assign, Option.getD_none]
  | some w =>
    rw [count_of_find? hk, if_pos rfl, Option.getD_some]
    by_cases h : k' = k
    · rw [if_pos h, h, hk]
    · rw [if_neg h]

theorem count_emplace (m : StdMap κ ν) (k k' : κ) (v : ν) :
    (m.emplace k v).count k' = (decide (k' = k) || m.count k') := by
  rw [count, find?_emplace, count]
  by_cases h : k' = k <;> simp [h]

theorem find?_put {overwrite : Bool} {m : StdMap κ ν} {k k' : κ} {v : ν} :
    (put overwrite m k v).find? k' =
      if k' = k then some (putValue overwrite (m.find? k) v) else m.find? k' := by
  cases overwrite with
  | false => exact find?_emplace m k k' v
  | true => exact find?_assign m k k' v

theorem count_put {overwrite : Bool} {m : StdMap κ ν} {k k' : κ} {v : ν} :
    (put overwrite m k v).count k' = (decide (k' = k) || m.count k') := by
  cases overwrite with
  | false => exact count_emplace m k k' v
  | true => exact count_assign m k k' v

end Operations

/-! ## Entries -/

theorem keys_eq (m : StdMap κ ν) : m.keys = m.entries.map Prod.fst := by
  simp [keys, AList.keys, List.keys, entries, Function.comp_def]

theorem keys_nodup (m : StdMap κ ν) : m.keys.Nodup := m.toAList.keys_nodup

@[simp] theorem entries_empty : (∅ : StdMap κ ν).entries = [] := rfl

theorem size_eq_keys (m : StdMap κ ν) : m.size = m.keys.length := by
  rw [keys_eq, List.length_map, size]

section Entries

variable [DecidableEq κ]

theorem mem_entries {m : StdMap κ ν} {k : κ} {v : ν} :
    (k, v) ∈ m.entries ↔ m.find? k = some v := by
  rw [find?, ← Option.mem_def, AList.mem_lookup_iff, entries, List.mem_map]
  constructor
  · rintro ⟨⟨a, b⟩, hmem, heq⟩
    obtain ⟨rfl, rfl⟩ := Prod.mk.inj heq
    exact hmem
  · intro h
    exact ⟨⟨k, v⟩, h, rfl⟩

theorem mem_keys {m : StdMap κ ν} {k : κ} : k ∈ m.keys ↔ m.count k = true := by
  rw [count_eq_true, keys_eq, List.mem_map]
  constructor
  · rintro ⟨⟨a, b⟩, hmem, rfl⟩
    exact ⟨b, mem_entries.1 hmem⟩
  · rintro ⟨v, hv⟩
    exact ⟨(k, v), mem_entries.2 hv, rfl⟩

theorem size_ne_zero {m : StdMap κ ν} : m.size ≠ 0 ↔ ∃ k, m.count k = true := by
  rw [size_eq_keys, ← Nat.pos_iff_ne_zero, List.length_pos_iff_exists_mem]
  simp only [mem_keys]

/-- Two maps of one size, the keys of the first among those of the second, have the **same
keys**. -/
theorem count_eq_of_size_eq {m n : StdMap κ ν} {k : κ} (hsize : m.size = n.size)
    (hsub : ∀ k, m.count k = true → n.count k = true) : m.count k = n.count k := by
  have hkeys : m.keys ⊆ n.keys := fun k hk => mem_keys.2 (hsub k (mem_keys.1 hk))
  have hlen : n.keys.length ≤ m.keys.length := by
    rw [← size_eq_keys, ← size_eq_keys, hsize]
  have hperm : m.keys.Perm n.keys :=
    (List.subperm_of_subset m.keys_nodup hkeys).perm_of_length_le hlen
  rw [Bool.eq_iff_iff, ← mem_keys, ← mem_keys]
  exact hperm.mem_iff

omit [DecidableEq κ] in
theorem entries_nodup (m : StdMap κ ν) : (m.entries.map Prod.fst).Nodup := by
  rw [← keys_eq]
  exact m.keys_nodup

theorem entries_find? (m : StdMap κ ν) (k : κ) :
    (m.entries.find? fun e => decide (e.1 = k)).map Prod.snd = m.find? k := by
  cases hk : m.find? k with
  | none =>
    rw [Option.map_eq_none_iff, List.find?_eq_none]
    rintro ⟨a, b⟩ hmem hdec
    rw [decide_eq_true_eq] at hdec
    have := mem_entries.1 hmem
    rw [show a = k from hdec, hk] at this
    cases this
  | some v =>
    cases hf : m.entries.find? fun e => decide (e.1 = k) with
    | none =>
      have := List.find?_eq_none.1 hf _ (mem_entries.2 hk)
      simp at this
    | some e =>
      have hek : e.1 = k := by simpa using List.find?_some hf
      have := mem_entries.1 (List.mem_of_find?_eq_some (show _ = some (e.1, e.2) from hf))
      rw [hek, hk] at this
      rw [Option.map_some, ← Option.some.inj this]

theorem entries_find?_isSome (m : StdMap κ ν) (k : κ) :
    (m.entries.find? fun e => decide (e.1 = k)).isSome = m.count k := by
  rw [count, ← entries_find?, Option.isSome_map]

/-- A loop over entries of distinct keys, each of which changes only what is read for **its own
key**. -/
theorem read_foldl {σ α : Type*} (read : σ → α) (write : ν → α → α) {step : σ → κ × ν → σ} {k : κ}
    (hstep : ∀ s e, read (step s e) = if k = e.1 then write e.2 (read s) else read s)
    {l : List (κ × ν)} (hnd : (l.map Prod.fst).Nodup) (s : σ) :
    read (l.foldl step s) = ((l.find? fun e => decide (e.1 = k)).map Prod.snd).elim (read s)
      fun v => write v (read s) := by
  induction l generalizing s with
  | nil => rfl
  | cons e l ih =>
    rw [List.map_cons, List.nodup_cons] at hnd
    rw [List.foldl_cons, ih hnd.2, hstep, List.find?_cons]
    by_cases hk : k = e.1
    · have hnone : (l.find? fun e => decide (e.1 = k)) = none := by
        rw [List.find?_eq_none]
        intro e' hmem hdec
        exact hnd.1 (List.mem_map.2 ⟨e', hmem, (of_decide_eq_true hdec).trans hk⟩)
      rw [hnone, if_pos hk, decide_eq_true hk.symm]
      rfl
    · rw [if_neg hk, decide_eq_false fun h => hk h.symm]

theorem read_foldl_entries {σ α : Type*} (read : σ → α) (write : ν → α → α)
    {step : σ → κ × ν → σ} {k : κ}
    (hstep : ∀ s e, read (step s e) = if k = e.1 then write e.2 (read s) else read s)
    (m : StdMap κ ν) (s : σ) :
    read (m.entries.foldl step s) = (m.find? k).elim (read s) fun v => write v (read s) := by
  rw [read_foldl read write hstep (entries_nodup m), entries_find?]

theorem find?_put_merge {overwrite : Bool} (m : StdMap κ ν) (k k' : κ) (v : ν) :
    (put overwrite m k' v).find? k =
      if k = k' then merge overwrite (some v) (m.find? k) else m.find? k := by
  rw [find?_put]
  by_cases hk : k = k'
  · rw [if_pos hk, if_pos hk, ← hk]
    cases m.find? k <;> cases overwrite <;> rfl
  · rw [if_neg hk, if_neg hk]

theorem find?_foldl_put {overwrite : Bool} (l : List (κ × ν)) (m : StdMap κ ν) (k : κ)
    (hnd : (l.map Prod.fst).Nodup) :
    (l.foldl (fun m e => put overwrite m e.1 e.2) m).find? k =
      merge overwrite ((l.find? fun e => decide (e.1 = k)).map Prod.snd) (m.find? k) := by
  rw [read_foldl (fun m : StdMap κ ν => m.find? k) (fun v => merge overwrite (some v))
    (fun m e => find?_put_merge m k e.1 e.2) hnd]
  cases (l.find? fun e => decide (e.1 = k)).map Prod.snd with
  | none => exact (merge_none _).symm
  | some v => rfl

theorem find?_foldl_erase (l : List (κ × ρ)) (m : StdMap κ ν) (k : κ) :
    (l.foldl (fun m e => m.erase e.1) m).find? k =
      if (l.find? fun e => decide (e.1 = k)).isSome then none else m.find? k := by
  induction l generalizing m with
  | nil => simp
  | cons e l ih =>
    rw [List.foldl_cons, ih, find?_erase, List.find?_cons]
    by_cases hk : k = e.1
    · simp [hk]
    · have hek : ¬ e.1 = k := fun h => hk h.symm
      rw [if_neg hk, decide_eq_false hek]

theorem find?_foldl_put_entries {overwrite : Bool} (m : StdMap κ ν) (f : ν → ρ) (n : StdMap κ ρ)
    (k : κ) : (m.entries.foldl (fun n e => put overwrite n e.1 (f e.2)) n).find? k =
      merge overwrite ((m.find? k).map f) (n.find? k) := by
  rw [read_foldl_entries (fun n : StdMap κ ρ => n.find? k)
    (fun v => merge overwrite (some (f v))) (fun n e => find?_put_merge n k e.1 (f e.2))]
  cases m.find? k with
  | none => exact (merge_none _).symm
  | some v => rfl

theorem find?_update (m n : StdMap κ ν) (k : κ) :
    (m.update n).find? k = (n.find? k).or (m.find? k) := by
  have h : (n.entries.foldl (fun m e => put true m e.1 (id e.2)) m).find? k =
      merge true ((n.find? k).map id) (m.find? k) := find?_foldl_put_entries n id m k
  rw [Option.map_id_apply] at h
  exact h

/-! ## Sums over the entries -/

variable [AddCommMonoid ρ] (w : κ → ν → ρ)

def sum (m : StdMap κ ν) : ρ := (m.entries.map fun e => w e.1 e.2).sum

omit [DecidableEq κ] in
@[simp] theorem sum_empty : (∅ : StdMap κ ν).sum w = 0 := rfl

theorem perm_of_find? {m : StdMap κ ν} {k : κ} {v : ν} (h : m.find? k = some v) :
    m.entries.Perm ((k, v) :: (m.erase k).entries) := by
  have hp := AList.mem_lookup_iff.1 (Option.mem_def.2 h)
  have hperm : m.toAList.entries.Perm (⟨k, v⟩ :: List.kerase k m.toAList.entries) := by
    obtain ⟨a, l₁, l₂, -, hl, herase⟩ := List.exists_of_kerase (List.mem_keys_of_mem hp)
    have ha : a = v := by
      have hmem : (⟨k, a⟩ : Sigma fun _ : κ => ν) ∈ m.toAList.entries := by rw [hl]; simp
      exact Option.some.inj ((AList.mem_lookup_iff.2 hmem).symm.trans h)
    subst ha
    rw [herase, hl]
    exact List.perm_middle
  exact hperm.map _

theorem size_erase {m : StdMap κ ν} {k : κ} (h : m.count k = true) :
    (m.erase k).size + 1 = m.size := by
  obtain ⟨v, hv⟩ := count_eq_true.1 h
  exact (perm_of_find? hv).length_eq.symm

theorem sum_erase {m : StdMap κ ν} {k : κ} {v : ν} (h : m.find? k = some v) :
    m.sum w = w k v + (m.erase k).sum w := by
  have hp := (perm_of_find? h).map fun e => w e.1 e.2
  rw [sum, hp.sum_eq, List.map_cons, List.sum_cons, sum]

theorem erase_eq_self {m : StdMap κ ν} {k : κ} (h : m.find? k = none) : m.erase k = m := by
  refine congrArg StdMap.mk (AList.ext (List.kerase_of_notMem_keys fun hmem => ?_))
  have := mem_keys.1 (show k ∈ m.keys from hmem)
  rw [count_eq_false.2 h] at this
  cases this

theorem sum_assign (m : StdMap κ ν) (k : κ) (v : ν) :
    (m.assign k v).sum w = w k v + (m.erase k).sum w := rfl

theorem sum_assign_fresh {m : StdMap κ ν} {k : κ} {v : ν} (h : m.find? k = none) :
    (m.assign k v).sum w = w k v + m.sum w := by
  rw [sum_assign, erase_eq_self h]

theorem sum_replace {m : StdMap κ ν} {k : κ} {v v' : ν} (h : m.find? k = some v) :
    (m.assign k v').sum w + w k v = m.sum w + w k v' := by
  rw [sum_assign, sum_erase w h]
  abel

theorem sum_eq_zero {m : StdMap κ ν} (h : ∀ k v, m.find? k = some v → w k v = 0) : m.sum w = 0 := by
  apply List.sum_eq_zero
  intro r hr
  obtain ⟨e, he, rfl⟩ := List.mem_map.1 hr
  exact h e.1 e.2 (mem_entries.1 he)

theorem sum_eq_elim {k : κ} (h : ∀ j v, j ≠ k → w j v = 0) (m : StdMap κ ν) :
    m.sum w = (m.find? k).elim 0 (w k) := by
  cases hk : m.find? k with
  | none =>
    apply sum_eq_zero
    intro j v hv
    apply h
    rintro rfl
    rw [hk] at hv
    cases hv
  | some v =>
    have hrest : (m.erase k).sum w = 0 := by
      apply sum_eq_zero
      intro j u hu
      apply h
      rintro rfl
      rw [find?_erase_self] at hu
      cases hu
    rw [sum_erase w hk, hrest, add_zero, Option.elim_some]

/-! ## Erasing several keys -/

theorem erase_erase (m : StdMap κ ν) (k k' : κ) : (m.erase k).erase k' = (m.erase k').erase k :=
  congrArg StdMap.mk (AList.erase_erase k k' m.toAList)

theorem erase_erase_self (m : StdMap κ ν) (k : κ) : (m.erase k).erase k = m.erase k :=
  erase_eq_self (find?_erase_self m k)

theorem erase_assign_self (m : StdMap κ ν) (k : κ) (v : ν) :
    (m.assign k v).erase k = m.erase k := by
  refine congrArg StdMap.mk (AList.ext ?_)
  have hlist : List.kerase k (⟨k, v⟩ :: List.kerase k m.toAList.entries) =
      List.kerase k m.toAList.entries := List.kerase_cons_eq rfl
  exact hlist

def eraseAll (m : StdMap κ ν) (l : List κ) : StdMap κ ν := l.foldl erase m

theorem eraseAll_of_mem (m : StdMap κ ν) {l : List κ} {k : κ} (h : k ∈ l) :
    (m.erase k).eraseAll l = m.eraseAll l := by
  induction l generalizing m with
  | nil => cases h
  | cons k' l ih =>
    have hstep : (m.erase k).eraseAll (k' :: l) = ((m.erase k).erase k').eraseAll l := rfl
    rw [hstep]
    rcases List.mem_cons.1 h with rfl | hmem
    · rw [erase_erase_self]
      rfl
    · rw [erase_erase, ih (m.erase k') hmem]
      rfl

theorem eraseAll_assign (m : StdMap κ ν) {l : List κ} {k : κ} (v : ν) (h : k ∈ l) :
    (m.assign k v).eraseAll l = m.eraseAll l := by
  rw [← eraseAll_of_mem (m.assign k v) h, erase_assign_self, eraseAll_of_mem m h]

end Entries

end StdMap
