import Mathlib.Data.List.Nodup
import Mathlib.Tactic.Common
/-!
# Least recently used caches

A cache of bounded size in front of a slower store.  The entries are listed from the most to
the least recently used.  What a development needs to know is that a cache never makes up an
entry: `find?_put`, `find?_touch`, `find?_erase` and `find?_load` say where an entry found
afterwards was before.
-/

/-- A bounded cache, **most recently used** entry first. -/
structure LruCache (κ ν : Type) where
  maxSize : ℕ
  items : List (κ × ν)
  deriving DecidableEq

namespace LruCache

variable {κ ν : Type} [DecidableEq κ] {c : LruCache κ ν} {k k' : κ} {v w : ν}

def ofSize (n : ℕ) : LruCache κ ν := ⟨n, []⟩

def lookup (l : List (κ × ν)) (k : κ) : Option ν :=
  (l.find? fun e => decide (e.1 = k)).map Prod.snd

def remove (l : List (κ × ν)) (k : κ) : List (κ × ν) := l.filter fun e => !decide (e.1 = k)

def find? (c : LruCache κ ν) (k : κ) : Option ν := lookup c.items k

def exist (c : LruCache κ ν) (k : κ) : Bool := (c.find? k).isSome

/-- Stores an entry in front and drops the last one when the cache is over its size. -/
def put (c : LruCache κ ν) (k : κ) (v : ν) : LruCache κ ν :=
  let items := (k, v) :: remove c.items k
  { c with items := if items.length > c.maxSize then items.dropLast else items }

def touch (c : LruCache κ ν) (k : κ) : LruCache κ ν :=
  match c.find? k with
  | some v => { c with items := (k, v) :: remove c.items k }
  | none => c

def erase (c : LruCache κ ν) (k : κ) : LruCache κ ν := { c with items := remove c.items k }

def load (c : LruCache κ ν) (k : κ) (stored : Option ν) : LruCache κ ν :=
  if c.exist k then c.touch k
  else match stored with
    | some v => c.put k v
    | none => c

/-! ### Lookups after each operation -/

theorem lookup_cons (l : List (κ × ν)) :
    lookup ((k, v) :: l) k' = if k = k' then some v else lookup l k' := by
  by_cases h : k = k' <;> simp [lookup, h]

theorem lookup_remove (l : List (κ × ν)) :
    lookup (remove l k) k' = if k' = k then none else lookup l k' := by
  induction l with
  | nil => simp [lookup, remove]
  | cons e l ih =>
    obtain ⟨a, b⟩ := e
    by_cases ha : a = k
    · have hr : remove ((a, b) :: l) k = remove l k := by simp [remove, ha]
      rw [hr, ih, lookup_cons]
      by_cases hk : k' = k
      · rw [if_pos hk, if_pos hk]
      · have hak : a ≠ k' := fun h => hk (h ▸ ha)
        rw [if_neg hk, if_neg hk, if_neg hak]
    · have hr : remove ((a, b) :: l) k = (a, b) :: remove l k := by simp [remove, ha]
      rw [hr, lookup_cons, lookup_cons, ih]
      by_cases hak : a = k'
      · have hk : k' ≠ k := fun h => ha (hak.trans h)
        rw [if_pos hak, if_neg hk, if_pos hak]
      · rw [if_neg hak, if_neg hak]

theorem lookup_of_prefix {l l' : List (κ × ν)} (h : l' <+: l) (hl : lookup l' k = some v) :
    lookup l k = some v := by
  obtain ⟨t, rfl⟩ := h
  rw [lookup, Option.map_eq_some_iff] at hl
  obtain ⟨e, he, hv⟩ := hl
  rw [lookup, List.find?_append, he, Option.some_or, Option.map_some, hv]

theorem remove_of_not_mem {l : List (κ × ν)} (h : k ∉ l.map Prod.fst) : remove l k = l := by
  rw [remove, List.filter_eq_self]
  intro e he
  rw [Bool.not_eq_true', decide_eq_false_iff_not]
  rintro rfl
  exact h (List.mem_map_of_mem he)

theorem lookup_eq_none {l : List (κ × ν)} : lookup l k = none ↔ k ∉ l.map Prod.fst := by
  rw [lookup, Option.map_eq_none_iff, List.find?_eq_none, List.mem_map]
  constructor
  · rintro h ⟨e, he, rfl⟩
    exact h e he (decide_eq_true rfl)
  · exact fun h e he hk => h ⟨e, he, of_decide_eq_true hk⟩

theorem mem_of_lookup {l : List (κ × ν)} (h : lookup l k = some v) : (k, v) ∈ l := by
  obtain ⟨e, he, rfl⟩ := Option.map_eq_some_iff.1 h
  have hkey : e.1 = k := by simpa using List.find?_some he
  rw [← hkey]
  exact List.mem_of_find?_eq_some he

theorem lookup_of_mem {l : List (κ × ν)} (hnodup : (l.map Prod.fst).Nodup) (h : (k, v) ∈ l) :
    lookup l k = some v := by
  cases hfind : l.find? fun e => decide (e.1 = k) with
  | none => exact absurd (List.find?_eq_none.1 hfind _ h) (by simp)
  | some e =>
    have hkey : e.1 = k := by simpa using List.find?_some hfind
    have hsame := List.inj_on_of_nodup_map hnodup (List.mem_of_find?_eq_some hfind) h hkey
    rw [lookup, hfind, hsame]
    rfl

@[simp] theorem find?_ofSize (n : ℕ) : (ofSize n : LruCache κ ν).find? k = none := rfl

@[simp] theorem find?_erase : (c.erase k).find? k' = if k' = k then none else c.find? k' :=
  lookup_remove c.items

theorem find?_put (h : (c.put k v).find? k' = some w) :
    k' = k ∧ w = v ∨ k' ≠ k ∧ c.find? k' = some w := by
  have hall : lookup ((k, v) :: remove c.items k) k' = some w := by
    rw [find?, put] at h
    simp only at h
    split at h
    · exact lookup_of_prefix (List.dropLast_prefix _) h
    · exact h
  rw [lookup_cons, lookup_remove] at hall
  by_cases hk : k = k'
  · rw [if_pos hk] at hall
    exact Or.inl ⟨hk.symm, (Option.some.inj hall).symm⟩
  · rw [if_neg hk, if_neg (Ne.symm hk)] at hall
    exact Or.inr ⟨Ne.symm hk, hall⟩

@[simp] theorem find?_touch : (c.touch k).find? k' = c.find? k' := by
  rw [touch]
  cases h : c.find? k with
  | none => rfl
  | some v =>
    simp only [find?] at h ⊢
    rw [lookup_cons, lookup_remove]
    by_cases hk : k = k'
    · rw [if_pos hk, ← hk, h]
    · rw [if_neg hk, if_neg (Ne.symm hk)]

theorem find?_load {stored : Option ν} (h : (c.load k stored).find? k' = some w) :
    c.find? k' = some w ∨ k' = k ∧ stored = some w := by
  unfold load at h
  split at h
  · rw [find?_touch] at h
    exact Or.inl h
  · cases stored with
    | none => exact Or.inl h
    | some v =>
      rcases find?_put h with ⟨hk, hw⟩ | ⟨-, hold⟩
      · exact Or.inr ⟨hk, congrArg some hw.symm⟩
      · exact Or.inl hold

/-! ### Calls -/

inductive Call (κ ν : Type) where
  | put (k : κ) (v : ν)
  | erase (k : κ)
  | get (k : κ)
  | exist (k : κ)
  | setSize (n : ℕ)
  | clear

def perform (c : LruCache κ ν) : Call κ ν → LruCache κ ν
  | .put k v => c.put k v
  | .erase k => c.erase k
  | .get k => c.touch k
  | .exist _ => c
  | .setSize n => { c with maxSize := n }
  | .clear => { c with items := [] }

def Call.uses : Call κ ν → κ → Bool
  | .put k _, k' | .get k, k' => decide (k = k')
  | _, _ => false

/-- What was put last for a key, in calls with the newest first. -/
def lastPut (calls : List (Call κ ν)) (k : κ) : Option ν :=
  calls.findSome? fun
    | .put k' v => if k' = k then some v else none
    | _ => none

def age (calls : List (Call κ ν)) (k : κ) : ℕ := calls.findIdx fun call => call.uses k

variable {calls : List (Call κ ν)} {call : Call κ ν}

theorem age_cons : age (call :: calls) k = if call.uses k then 0 else age calls k + 1 := by
  rw [age, List.findIdx_cons, Bool.cond_eq_ite]
  rfl

theorem lastPut_cons_put :
    lastPut (.put k v :: calls) k' = if k = k' then some v else lastPut calls k' := by
  rw [lastPut, List.findSome?_cons]
  dsimp only
  by_cases h : k = k'
  · rw [if_pos h, if_pos h]
  · rw [if_neg h, if_neg h]
    rfl

/-- A cache holds what was put last for each key, the keys in the order of their use. -/
structure Recalls (calls : List (Call κ ν)) (c : LruCache κ ν) : Prop where
  value : ∀ e ∈ c.items, lastPut calls e.1 = some e.2
  order : (c.items.map Prod.fst).Pairwise fun k k' => age calls k < age calls k'

theorem mem_of_mem_remove {l : List (κ × ν)} {e : κ × ν} (h : e ∈ remove l k) :
    e ∈ l ∧ e.1 ≠ k := by
  obtain ⟨hmem, hne⟩ := List.mem_filter.1 h
  exact ⟨hmem, by simpa using hne⟩

theorem order_of_unused {l : List (κ × ν)}
    (horder : (l.map Prod.fst).Pairwise fun k k' => age calls k < age calls k')
    (hunused : ∀ e ∈ l, call.uses e.1 = false) :
    (l.map Prod.fst).Pairwise fun k k' => age (call :: calls) k < age (call :: calls) k' := by
  rw [List.pairwise_map] at horder ⊢
  apply horder.imp_of_mem
  intro e e' he he' hlt
  rw [age_cons, age_cons, hunused e he, hunused e' he']
  exact Nat.succ_lt_succ hlt

theorem order_of_front {l : List (κ × ν)}
    (horder : (l.map Prod.fst).Pairwise fun k k' => age calls k < age calls k')
    (huses : ∀ k', call.uses k' = decide (k = k')) :
    (((k, v) :: remove l k).map Prod.fst).Pairwise fun k k' =>
      age (call :: calls) k < age (call :: calls) k' := by
  have hunused : ∀ e ∈ remove l k, call.uses e.1 = false := by
    intro e he
    rw [huses, decide_eq_false_iff_not]
    exact fun heq => (mem_of_mem_remove he).2 heq.symm
  rw [List.map_cons, List.pairwise_cons]
  constructor
  · intro k' hk'
    obtain ⟨e, he, rfl⟩ := List.mem_map.1 hk'
    rw [age_cons, age_cons, hunused e he, huses, decide_eq_true rfl]
    exact Nat.succ_pos _
  · exact order_of_unused (horder.sublist (List.filter_sublist.map _)) hunused

theorem lastPut_of_not_put (h : ∀ k v, call ≠ .put k v) :
    lastPut (call :: calls) k = lastPut calls k := by
  rw [lastPut, List.findSome?_cons]
  cases call with
  | put k' v => exact absurd rfl (h k' v)
  | _ => rfl

theorem mem_put {e : κ × ν} (h : e ∈ (c.put k v).items) : e ∈ (k, v) :: remove c.items k := by
  rw [put] at h
  dsimp only at h
  split at h
  · exact (List.dropLast_sublist _).subset h
  · exact h

theorem sublist_put : (c.put k v).items.Sublist ((k, v) :: remove c.items k) := by
  rw [put]
  dsimp only
  split
  · exact List.dropLast_sublist _
  · exact List.Sublist.refl _

/-- **Every call keeps what the cache recalls.** -/
theorem Recalls.perform (h : Recalls calls c) (call : Call κ ν) :
    Recalls (call :: calls) (c.perform call) := by
  have hsame : ∀ {l : List (κ × ν)}, l.Sublist c.items → (∀ k v, call ≠ .put k v) →
      (∀ k, call.uses k = false) → Recalls (call :: calls) ⟨(c.perform call).maxSize, l⟩ := by
    intro l hsub hput huses
    refine ⟨fun e he => ?_, ?_⟩
    · rw [lastPut_of_not_put hput]
      exact h.value e (hsub.subset he)
    · exact order_of_unused (h.order.sublist (hsub.map _)) fun e _ => huses e.1
  cases call with
  | put k v =>
    refine ⟨fun e he => ?_, ?_⟩
    · rw [lastPut_cons_put]
      rcases List.mem_cons.1 (mem_put he) with rfl | hrest
      · rw [if_pos rfl]
      · obtain ⟨hmem, hne⟩ := mem_of_mem_remove hrest
        rw [if_neg (Ne.symm hne)]
        exact h.value e hmem
    · exact (order_of_front h.order fun _ => rfl).sublist (sublist_put.map _)
  | get k =>
    rw [LruCache.perform, touch]
    cases hfind : c.find? k with
    | none =>
      refine ⟨fun e he => ?_, order_of_unused h.order fun e he => ?_⟩
      · rw [lastPut_of_not_put nofun]
        exact h.value e he
      · rw [Call.uses, decide_eq_false_iff_not]
        rintro rfl
        exact lookup_eq_none.1 hfind (List.mem_map_of_mem he)
    | some v =>
      refine ⟨fun e he => ?_, order_of_front h.order fun _ => rfl⟩
      rw [lastPut_of_not_put nofun]
      rcases List.mem_cons.1 he with rfl | hrest
      · exact h.value (k, v) (mem_of_lookup hfind)
      · exact h.value e (mem_of_mem_remove hrest).1
  | erase k => exact hsame List.filter_sublist nofun fun _ => rfl
  | exist k => exact hsame (List.Sublist.refl _) nofun fun _ => rfl
  | setSize n => exact hsame (List.Sublist.refl _) nofun fun _ => rfl
  | clear => exact hsame (List.nil_sublist _) nofun fun _ => rfl

theorem length_put_le (h : c.items.length ≤ c.maxSize) :
    (c.put k v).items.length ≤ c.maxSize := by
  have hremove : (remove c.items k).length ≤ c.items.length := List.length_filter_le _ _
  rw [put]
  dsimp only
  split
  · rw [List.length_dropLast, List.length_cons]
    omega
  · omega

theorem length_touch_le : (c.touch k).items.length ≤ c.items.length := by
  rw [touch]
  cases hfind : c.find? k with
  | none => exact Nat.le_refl _
  | some v =>
    have hless : (remove c.items k).length < c.items.length := by
      rw [remove, List.length_filter_lt_length_iff_exists]
      exact ⟨(k, v), mem_of_lookup hfind, by simp⟩
    exact hless

theorem length_perform_le (h : c.items.length ≤ c.maxSize)
    (hsize : ∀ n, call = .setSize n → c.items.length ≤ n) :
    (c.perform call).items.length ≤ (c.perform call).maxSize := by
  cases call with
  | put k v => exact length_put_le h
  | erase k => exact Nat.le_trans (List.length_filter_le _ _) h
  | get k =>
    have hmax : (c.touch k).maxSize = c.maxSize := by
      rw [touch]
      split <;> rfl
    rw [perform, hmax]
    exact Nat.le_trans length_touch_le h
  | exist k => exact h
  | setSize n => exact hsize n rfl
  | clear => exact Nat.zero_le _

/-- **What a put drops was used before everything it keeps.** -/
theorem evicted_oldest (h : Recalls calls c) {e : κ}
    (he : e = k ∨ e ∈ c.items.map Prod.fst) (hgone : e ∉ (c.put k v).items.map Prod.fst) {kept : κ}
    (hkept : kept ∈ (c.put k v).items.map Prod.fst) :
    age (.put k v :: calls) kept < age (.put k v :: calls) e := by
  have horder : (((k, v) :: remove c.items k).map Prod.fst).Pairwise fun k₁ k₂ =>
      age (.put k v :: calls) k₁ < age (.put k v :: calls) k₂ := order_of_front h.order fun _ => rfl
  have hall : e ∈ ((k, v) :: remove c.items k).map Prod.fst := by
    by_cases hek : e = k
    · exact hek ▸ List.mem_cons_self ..
    · obtain ⟨entry, hentry, rfl⟩ := List.mem_map.1 (he.resolve_left hek)
      refine List.mem_cons_of_mem _ (List.mem_map_of_mem (List.mem_filter.2 ⟨hentry, ?_⟩))
      simpa using hek
  rw [put] at hgone hkept
  dsimp only at hgone hkept
  split at hgone
  · rename_i hover
    rw [if_pos hover] at hkept
    rw [List.map_dropLast] at hgone hkept
    have hne : ((k, v) :: remove c.items k).map Prod.fst ≠ [] := List.cons_ne_nil _ _
    rw [← List.dropLast_concat_getLast hne, List.pairwise_append] at horder
    rw [← List.dropLast_concat_getLast hne, List.mem_append] at hall
    exact horder.2.2 kept hkept e (hall.resolve_left hgone)
  · exact absurd hall hgone

end LruCache
