import Mathlib.Data.List.Induction
import Mathlib.Data.Set.Function
import UnemployCoin.Lib.LruCache
import UnemployCoin.Lib.Staged
/-!
# Switches behind staged commands

A set of keys, switched on and off by commands.  It is kept in three layers: commands that are
staged, the keys of a database, and a cache in front of the database.  The cache may know a key
under a digest, so it tells apart only the keys of a set on which the digest is injective.
-/

namespace Toggles

open StdMap

/-- The two commands, and the names of a key in the cache and in the database. -/
structure Coding (κ η κ' τ : Type) where
  on : τ
  off : τ
  on_ne_off : on ≠ off
  cacheKey : κ → η
  dbKey : κ → κ'
  dbKey_injective : Function.Injective dbKey

structure Layers (κ η κ' τ : Type) where
  staged : Staged κ τ
  cache : LruCache η Unit
  db : StdMap κ' Unit

variable {κ η κ' τ : Type} [DecidableEq κ]

/-! ## Commands -/

def last? (commands : List (κ × τ)) (k : κ) : Option τ :=
  (commands.reverse.find? fun e => decide (e.1 = k)).map Prod.snd

def stageAll (commands : List (κ × τ)) : Staged κ τ :=
  commands.foldl (fun s e => s.add true e.1 e.2) ∅

def stageRemovals (commands : List (κ × τ)) : Staged κ τ :=
  commands.foldl (fun s e => s.remove true e.1 e.2) ∅

variable {commands undone : List (κ × τ)} {k : κ} {t : τ}

@[simp] theorem last?_nil : last? ([] : List (κ × τ)) k = none := rfl

theorem last?_append_singleton (e : κ × τ) :
    last? (commands ++ [e]) k = if e.1 = k then some e.2 else last? commands k := by
  rw [last?, List.reverse_append, List.reverse_singleton, List.singleton_append, List.find?_cons]
  by_cases h : e.1 = k
  · rw [if_pos h, decide_eq_true h, Option.map_some]
  · rw [if_neg h, decide_eq_false h, last?]

theorem mem_of_last? (h : last? commands k = some t) : (k, t) ∈ commands := by
  rw [last?, Option.map_eq_some_iff] at h
  obtain ⟨e, he, rfl⟩ := h
  have hkey : e.1 = k := by simpa using List.find?_some he
  rw [← hkey]
  exact List.mem_reverse.1 (List.mem_of_find?_eq_some he)

theorem last?_eq_none : last? commands k = none ↔ ∀ e ∈ commands, e.1 ≠ k := by
  rw [last?, Option.map_eq_none_iff, List.find?_eq_none]
  simp only [List.mem_reverse, decide_eq_true_eq, ne_eq]

def OneEach (commands : List (κ × τ)) : Prop :=
  ∀ e ∈ commands, ∀ e' ∈ commands, e.1 = e'.1 → e = e'

theorem last?_congr {commands' : List (κ × τ)} (hone : OneEach commands)
    (hmem : ∀ e, e ∈ commands ↔ e ∈ commands') (k : κ) :
    last? commands k = last? commands' k := by
  cases hlast : last? commands k with
  | none =>
    symm
    rw [last?_eq_none] at hlast ⊢
    exact fun e he => hlast e ((hmem e).2 he)
  | some t =>
    have ht := mem_of_last? hlast
    cases hlast' : last? commands' k with
    | none => exact absurd rfl (last?_eq_none.1 hlast' (k, t) ((hmem _).1 ht))
    | some t' =>
      have ht' := (hmem _).2 (mem_of_last? hlast')
      rw [(Prod.mk.inj (hone _ ht _ ht' rfl)).2]

theorem stageAll_append_singleton (e : κ × τ) :
    stageAll (commands ++ [e]) = (stageAll commands).add true e.1 e.2 := by
  rw [stageAll, List.foldl_append]
  rfl

theorem stageRemovals_append_singleton (e : κ × τ) :
    stageRemovals (commands ++ [e]) = (stageRemovals commands).remove true e.1 e.2 := by
  rw [stageRemovals, List.foldl_append]
  rfl

theorem find?_stageAll_toAdd : (stageAll commands).toAdd.find? k = last? commands k := by
  induction commands using List.reverseRecOn with
  | nil => rfl
  | append_singleton commands e ih =>
    rw [stageAll_append_singleton, Staged.find?_add_toAdd, putValue_true, ih,
      last?_append_singleton]
    exact if_congr eq_comm rfl rfl

theorem find?_stageAll_toRemove : (stageAll commands).toRemove.find? k = none := by
  induction commands using List.reverseRecOn with
  | nil => rfl
  | append_singleton commands e ih =>
    rw [stageAll_append_singleton, Staged.find?_add_toRemove, ih, ite_self]

theorem stageAll_same {commands' : List (κ × τ)} (hone : OneEach commands)
    (hmem : ∀ e, e ∈ commands ↔ e ∈ commands') :
    Staged.Same (stageAll commands) (stageAll commands') := by
  constructor
  · intro k
    rw [find?_stageAll_toAdd, find?_stageAll_toAdd, last?_congr hone hmem]
  · intro k
    rw [find?_stageAll_toRemove, find?_stageAll_toRemove]

theorem find?_stageRemovals_toAdd : (stageRemovals commands).toAdd.find? k = none := by
  induction commands using List.reverseRecOn with
  | nil => rfl
  | append_singleton commands e ih =>
    rw [stageRemovals_append_singleton, Staged.find?_remove_toAdd, ih, ite_self]

theorem find?_stageRemovals_toRemove :
    (stageRemovals commands).toRemove.find? k = last? commands k := by
  induction commands using List.reverseRecOn with
  | nil => rfl
  | append_singleton commands e ih =>
    rw [stageRemovals_append_singleton, Staged.find?_remove_toRemove, putValue_true, ih,
      last?_append_singleton]
    exact if_congr eq_comm rfl rfl

theorem foldl_stage {σ α : Type} {f : σ → α → σ} {g : σ → Staged κ τ} {sel : α → Option (κ × τ)}
    (h : ∀ s a, g (f s a) = (sel a).elim (g s) fun e => (g s).add true e.1 e.2)
    {done : List α} {s : σ} (hs : g s = stageAll (done.filterMap sel)) (l : List α) :
    g (l.foldl f s) = stageAll ((done ++ l).filterMap sel) := by
  induction l generalizing done s with
  | nil => rw [List.append_nil, List.foldl_nil, hs]
  | cons a l ih =>
    have hround : g (f s a) = stageAll ((done ++ [a]).filterMap sel) := by
      rw [h, hs, List.filterMap_append]
      cases ha : sel a with
      | none => rw [List.filterMap_cons_none ha, List.filterMap_nil, List.append_nil, Option.elim]
      | some e =>
        rw [List.filterMap_cons_some ha, List.filterMap_nil, stageAll_append_singleton, Option.elim]
    rw [List.foldl_cons, ih hround, List.append_assoc, List.singleton_append]

theorem foldl_stageRemoval {σ α : Type} {f : σ → α → σ} {g : σ → Staged κ τ}
    {sel : α → Option (κ × τ)}
    (h : ∀ s a, g (f s a) = (sel a).elim (g s) fun e => (g s).remove true e.1 e.2)
    {done : List α} {s : σ} (hs : g s = stageRemovals (done.filterMap sel)) (l : List α) :
    g (l.foldl f s) = stageRemovals ((done ++ l).filterMap sel) := by
  induction l generalizing done s with
  | nil => rw [List.append_nil, List.foldl_nil, hs]
  | cons a l ih =>
    have hround : g (f s a) = stageRemovals ((done ++ [a]).filterMap sel) := by
      rw [h, hs, List.filterMap_append]
      cases ha : sel a with
      | none => rw [List.filterMap_cons_none ha, List.filterMap_nil, List.append_nil, Option.elim]
      | some e =>
        rw [List.filterMap_cons_some ha, List.filterMap_nil, stageRemovals_append_singleton,
          Option.elim]
    rw [List.foldl_cons, ih hround, List.append_assoc, List.singleton_append]

theorem last?_append {more : List (κ × τ)} :
    last? (commands ++ more) k = (last? more k).or (last? commands k) := by
  induction more using List.reverseRecOn with
  | nil => rw [List.append_nil, last?_nil, Option.none_or]
  | append_singleton more e ih =>
    rw [← List.append_assoc, last?_append_singleton, last?_append_singleton, ih]
    split
    · rfl
    · rfl

/-! ### On which side a key is staged -/

/-- The side on which a key is staged: `true` for a removal. -/
def side (s : Staged κ τ) (k : κ) : Option Bool :=
  if s.toRemove.count k then some true else if s.toAdd.count k then some false else none

/-- The keys of some commands, with the side that they are staged on. -/
def sides (fUndo : Bool) (commands : List (κ × τ)) : List (κ × Bool) :=
  commands.map fun e => (e.1, fUndo)

theorem last?_sides {fUndo : Bool} :
    last? (sides fUndo commands) k = (last? commands k).map fun _ => fUndo := by
  induction commands using List.reverseRecOn with
  | nil => rfl
  | append_singleton commands e ih =>
    rw [sides, List.map_append, List.map_singleton, last?_append_singleton,
      last?_append_singleton, ← sides, ih]
    split <;> rfl

theorem side_empty : side (∅ : Staged κ τ) k = none := rfl

theorem side_eq_none {s : Staged κ τ} :
    side s k = none ↔ s.toRemove.find? k = none ∧ s.toAdd.find? k = none := by
  rw [side, count, count]
  cases s.toRemove.find? k <;> cases s.toAdd.find? k <;> simp

theorem side_flush_stageAll {s : Staged κ τ} {H : List (κ × Bool)} (h : side s k = last? H k) :
    side (Staged.flush true (stageAll commands) s) k = last? (H ++ sides false commands) k := by
  rw [last?_append, last?_sides, ← h, side, side, Staged.count_flush_toRemove,
    Staged.count_flush_toAdd, count, count, find?_stageAll_toAdd, find?_stageAll_toRemove]
  cases last? commands k <;> simp

theorem side_flush_stageRemovals {s : Staged κ τ} {H : List (κ × Bool)} (h : side s k = last? H k) :
    side (Staged.flush true (stageRemovals commands) s) k =
      last? (H ++ sides true commands) k := by
  rw [last?_append, last?_sides, ← h, side, side, Staged.count_flush_toRemove,
    Staged.count_flush_toAdd, count, count, find?_stageRemovals_toAdd, find?_stageRemovals_toRemove]
  cases last? commands k <;> simp

variable [DecidableEq τ]

def applyTo (C : Coding κ η κ' τ) (S : Set κ) (commands : List (κ × τ)) : Set κ :=
  commands.foldl (fun S e => if e.2 = C.on then insert e.1 S else S \ {e.1}) S

theorem mem_applyTo {C : Coding κ η κ' τ} {S : Set κ} : k ∈ applyTo C S commands ↔
    match last? commands k with
    | some t => t = C.on
    | none => k ∈ S := by
  induction commands using List.reverseRecOn with
  | nil => exact Iff.rfl
  | append_singleton commands e ih =>
    rw [applyTo, List.foldl_append, List.foldl_cons, List.foldl_nil, ← applyTo,
      last?_append_singleton]
    by_cases hk : e.1 = k
    · rw [if_pos hk]
      by_cases hon : e.2 = C.on
      · rw [if_pos hon, ← hk]
        exact iff_of_true (Set.mem_insert _ _) hon
      · rw [if_neg hon, ← hk]
        exact iff_of_false (fun h => h.2 rfl) hon
    · rw [if_neg hk, ← ih]
      have hne : k ≠ e.1 := fun h => hk h.symm
      split
      · rw [Set.mem_insert_iff, or_iff_right hne]
      · rw [Set.mem_sdiff, Set.mem_singleton_iff, and_iff_left hne]

omit [DecidableEq κ] in
theorem applyTo_append {C : Coding κ η κ' τ} {S : Set κ} {more : List (κ × τ)} :
    applyTo C S (commands ++ more) = applyTo C (applyTo C S commands) more := by
  rw [applyTo, List.foldl_append]
  rfl

/-! ## Layers -/

variable [DecidableEq η] [DecidableEq κ']

section Operations

variable (C : Coding κ η κ' τ) (L : Layers κ η κ' τ)

def Layers.stored (k : κ) : Bool := L.cache.exist (C.cacheKey k) || L.db.count (C.dbKey k)

/-- The key is on.  A command to be **removed** is looked for first. -/
def Layers.answer (k : κ) : Bool :=
  match L.staged.toRemove.find? k with
  | some t => t == C.off
  | none =>
  match L.staged.toAdd.find? k with
  | some t => t == C.on
  | none => L.stored C k

def Layers.set (b : Bool) (k : κ) : Layers κ η κ' τ :=
  if b then
    { L with cache := L.cache.put (C.cacheKey k) (), db := L.db.assign (C.dbKey k) () }
  else { L with cache := L.cache.erase (C.cacheKey k), db := L.db.erase (C.dbKey k) }

def Layers.write (fUndo : Bool) (L : Layers κ η κ' τ) (e : κ × τ) : Layers κ η κ' τ :=
  L.set C (e.2 == if fUndo then C.off else C.on) e.1

/-- Writes everything that is staged, first what it adds and then what it removes. -/
def Layers.dump : Layers κ η κ' τ :=
  { L.staged.toRemove.entries.foldl (Layers.write C true)
      (L.staged.toAdd.entries.foldl (Layers.write C false) L) with staged := ∅ }

def Layers.load (k : κ) : Layers κ η κ' τ :=
  { L with cache := L.cache.load (C.cacheKey k) (L.db.find? (C.dbKey k)) }

end Operations

variable {C : Coding κ η κ' τ} {L : Layers κ η κ' τ} {K S : Set κ}

/-! ## The invariant -/

/-- The layers present `S` on `K`.  The cache holds only keys of the database, and only commands
for keys of `K` are staged. -/
structure Tracks (C : Coding κ η κ' τ) (K : Set κ) (L : Layers κ η κ' τ) (S : Set κ) : Prop where
  answer : ∀ k ∈ K, L.answer C k = true ↔ k ∈ S
  backed : ∀ k ∈ K, L.cache.exist (C.cacheKey k) = true → L.db.count (C.dbKey k) = true
  known : ∀ k t, L.staged.toAdd.find? k = some t ∨ L.staged.toRemove.find? k = some t →
    k ∈ K ∧ (t = C.on ∨ t = C.off)

/-- Commands for keys of `K`. -/
def Known (C : Coding κ η κ' τ) (K : Set κ) (commands : List (κ × τ)) : Prop :=
  ∀ e ∈ commands, e.1 ∈ K ∧ (e.2 = C.on ∨ e.2 = C.off)

def Changes (C : Coding κ η κ' τ) (S : Set κ) (commands : List (κ × τ)) : Prop :=
  ∀ e ∈ commands, e.2 = C.on ↔ e.1 ∉ S

theorem Tracks.of_db {db : StdMap κ' Unit} (n : ℕ)
    (h : ∀ k ∈ K, db.count (C.dbKey k) = true ↔ k ∈ S) : Tracks C K ⟨∅, .ofSize n, db⟩ S :=
  ⟨h, fun _ _ h => absurd h Bool.false_ne_true, fun _ _ h => absurd h (by simp)⟩

theorem Tracks.empty (n : ℕ) : Tracks C K ⟨∅, .ofSize n, ∅⟩ ∅ :=
  Tracks.of_db n fun _ _ => iff_of_false Bool.false_ne_true (Set.notMem_empty _)

theorem Tracks.stored (h : Tracks C K L S) (hk : k ∈ K) :
    L.stored C k = L.db.count (C.dbKey k) := by
  rw [Layers.stored]
  cases hcache : L.cache.exist (C.cacheKey k) with
  | true => rw [h.backed k hk hcache, Bool.true_or]
  | false => rw [Bool.false_or]

theorem Tracks.of_side_none (h : Tracks C K L S) (hk : k ∈ K) (hside : side L.staged k = none) :
    L.db.count (C.dbKey k) = true ↔ k ∈ S := by
  obtain ⟨hremove, hadd⟩ := side_eq_none.1 hside
  rw [← h.answer k hk, Layers.answer, hremove, hadd]
  simp only
  rw [h.stored hk]

theorem Tracks.connect (h : Tracks C K L S) (hcommands : Known C K commands) :
    Tracks C K { L with staged := Staged.flush true (stageAll commands) L.staged }
      (applyTo C S commands) := by
  refine ⟨fun k hk => ?_, h.backed, fun k t hstaged => ?_⟩
  · rw [mem_applyTo, Layers.answer, Staged.find?_flush_toRemove, Staged.find?_flush_toAdd,
      find?_stageAll_toAdd, find?_stageAll_toRemove, count, count, find?_stageAll_toAdd,
      find?_stageAll_toRemove]
    cases hlast : last? commands k with
    | some t => simp [merge]
    | none =>
      rw [← h.answer k hk]
      simp [merge, Layers.answer, Layers.stored]
  · have hlast : ∀ t, last? commands k = some t → k ∈ K ∧ (t = C.on ∨ t = C.off) :=
      fun t ht => hcommands (k, t) (mem_of_last? ht)
    rcases hstaged with hadd | hremove
    · rcases Staged.of_find?_flush_toAdd hadd with htop | hbottom
      · rw [find?_stageAll_toAdd] at htop
        exact hlast t htop
      · exact h.known k t (Or.inl hbottom)
    · rcases Staged.of_find?_flush_toRemove hremove with htop | hbottom
      · rw [find?_stageAll_toRemove] at htop
        cases htop
      · exact h.known k t (Or.inr hbottom)

theorem Tracks.disconnect (h : Tracks C K L (applyTo C S commands))
    (hcommands : Known C K commands) (hchanges : Changes C S commands)
    (hundone : ∀ e, e ∈ undone ↔ e ∈ commands) :
    Tracks C K { L with staged := Staged.flush true (stageRemovals undone) L.staged } S := by
  refine ⟨fun k hk => ?_, h.backed, fun k t hstaged => ?_⟩
  · rw [Layers.answer, Staged.find?_flush_toRemove, Staged.find?_flush_toAdd,
      find?_stageRemovals_toAdd, find?_stageRemovals_toRemove, count, count,
        find?_stageRemovals_toAdd,
      find?_stageRemovals_toRemove]
    cases hlast : last? undone k with
    | some t =>
      have hmem := (hundone _).1 (mem_of_last? hlast)
      have hon := hchanges _ hmem
      have htype := (hcommands _ hmem).2
      simp only at hon htype
      simp only [merge, if_true, Option.some_or, beq_iff_eq]
      rcases htype with rfl | rfl
      · exact iff_of_false C.on_ne_off (hon.1 rfl)
      · exact iff_of_true rfl (not_not.1 fun hnot => C.on_ne_off (hon.2 hnot).symm)
    | none =>
      have hnone : last? commands k = none := by
        rw [last?_eq_none] at hlast ⊢
        exact fun e he => hlast e ((hundone e).2 he)
      have hsame : k ∈ applyTo C S commands ↔ k ∈ S := by
        rw [mem_applyTo, hnone]
      rw [← hsame, ← h.answer k hk]
      simp [merge, Layers.answer, Layers.stored]
  · have hlast : ∀ t, last? undone k = some t → k ∈ K ∧ (t = C.on ∨ t = C.off) :=
      fun t ht => hcommands (k, t) ((hundone _).1 (mem_of_last? ht))
    rcases hstaged with hadd | hremove
    · rcases Staged.of_find?_flush_toAdd hadd with htop | hbottom
      · rw [find?_stageRemovals_toAdd] at htop
        cases htop
      · exact h.known k t (Or.inl hbottom)
    · rcases Staged.of_find?_flush_toRemove hremove with htop | hbottom
      · rw [find?_stageRemovals_toRemove] at htop
        exact hlast t htop
      · exact h.known k t (Or.inr hbottom)

/-! ## Writing and reading -/

theorem count_write (fUndo : Bool) (e : κ × τ) (k : κ) :
    (L.write C fUndo e).db.count (C.dbKey k) =
      if k = e.1 then e.2 == (if fUndo then C.off else C.on) else L.db.count (C.dbKey k) := by
  have hdec : decide (C.dbKey k = C.dbKey e.1) = decide (k = e.1) :=
    decide_eq_decide.2 C.dbKey_injective.eq_iff
  rw [Layers.write, Layers.set]
  cases e.2 == (if fUndo then C.off else C.on) with
  | true =>
    rw [if_pos rfl, count_assign, hdec]
    by_cases hk : k = e.1 <;> simp [hk]
  | false =>
    rw [if_neg Bool.false_ne_true, count_erase, hdec]
    by_cases hk : k = e.1 <;> simp [hk]

theorem backed_write {fUndo : Bool} {e : κ × τ} (hinj : Set.InjOn C.cacheKey K) (he : e.1 ∈ K)
    (h : ∀ k ∈ K, L.cache.exist (C.cacheKey k) = true → L.db.count (C.dbKey k) = true) :
    ∀ k ∈ K, (L.write C fUndo e).cache.exist (C.cacheKey k) = true →
      (L.write C fUndo e).db.count (C.dbKey k) = true := by
  intro k hk hcache
  rw [count_write]
  rw [Layers.write, Layers.set] at hcache
  cases hvalue : e.2 == (if fUndo then C.off else C.on) with
  | true =>
    split
    · rfl
    · rename_i hne
      rw [hvalue, if_pos rfl] at hcache
      obtain ⟨v, hv⟩ := Option.isSome_iff_exists.1 hcache
      rcases LruCache.find?_put hv with ⟨heq, -⟩ | ⟨-, hold⟩
      · exact absurd (hinj hk he heq) hne
      · exact h k hk (Option.isSome_iff_exists.2 ⟨v, hold⟩)
  | false =>
    rw [hvalue, if_neg Bool.false_ne_true, LruCache.exist, LruCache.find?_erase] at hcache
    split
    · rename_i heq
      rw [heq, if_pos rfl] at hcache
      exact hcache
    · split at hcache
      · cases hcache
      · exact h k hk hcache

theorem count_foldl_write (fUndo : Bool) (m : StdMap κ τ) (k : κ) :
    (m.entries.foldl (Layers.write C fUndo) L).db.count (C.dbKey k) =
      match m.find? k with
      | some t => t == if fUndo then C.off else C.on
      | none => L.db.count (C.dbKey k) := by
  rw [read_foldl_entries (fun L : Layers κ η κ' τ => L.db.count (C.dbKey k))
    (fun t _ => t == if fUndo then C.off else C.on) fun L e => count_write fUndo e k]
  cases m.find? k <;> rfl

theorem of_count_dump (h : (L.dump C).db.count (C.dbKey k) = true) :
    side L.staged k ≠ none ∨ L.db.count (C.dbKey k) = true := by
  have hdb : (L.dump C).db.count (C.dbKey k) =
      (L.staged.toRemove.entries.foldl (Layers.write C true)
        (L.staged.toAdd.entries.foldl (Layers.write C false) L)).db.count (C.dbKey k) := rfl
  rw [hdb, count_foldl_write, count_foldl_write] at h
  rw [side, count, count]
  cases hremove : L.staged.toRemove.find? k with
  | some t => exact Or.inl (Option.some_ne_none true)
  | none =>
    cases hadd : L.staged.toAdd.find? k with
    | some t => exact Or.inl (Option.some_ne_none false)
    | none =>
      rw [hremove, hadd] at h
      exact Or.inr h

theorem backed_foldl_write {fUndo : Bool} {l : List (κ × τ)} (hinj : Set.InjOn C.cacheKey K)
    (hl : ∀ e ∈ l, e.1 ∈ K)
    (h : ∀ k ∈ K, L.cache.exist (C.cacheKey k) = true → L.db.count (C.dbKey k) = true) :
    ∀ k ∈ K, (l.foldl (Layers.write C fUndo) L).cache.exist (C.cacheKey k) = true →
      (l.foldl (Layers.write C fUndo) L).db.count (C.dbKey k) = true := by
  induction l generalizing L with
  | nil => exact h
  | cons e l ih =>
    rw [List.forall_mem_cons] at hl
    exact ih hl.2 (backed_write hinj hl.1 h)

theorem Tracks.dump (h : Tracks C K L S) (hinj : Set.InjOn C.cacheKey K) :
    Tracks C K (L.dump C) S := by
  have hbacked : ∀ k ∈ K, (L.dump C).cache.exist (C.cacheKey k) = true →
      (L.dump C).db.count (C.dbKey k) = true := by
    have hadd : ∀ e ∈ L.staged.toAdd.entries, e.1 ∈ K :=
      fun e he => (h.known e.1 e.2 (Or.inl (mem_entries.1 he))).1
    have hremove : ∀ e ∈ L.staged.toRemove.entries, e.1 ∈ K :=
      fun e he => (h.known e.1 e.2 (Or.inr (mem_entries.1 he))).1
    exact backed_foldl_write hinj hremove (backed_foldl_write hinj hadd h.backed)
  have hanswer : ∀ k ∈ K, (L.dump C).answer C k = (L.dump C).db.count (C.dbKey k) := by
    intro k hk
    have hstored : (L.dump C).answer C k = (L.dump C).stored C k := rfl
    rw [hstored, Layers.stored]
    cases hcache : (L.dump C).cache.exist (C.cacheKey k) with
    | true => rw [hbacked k hk hcache, Bool.true_or]
    | false => rw [Bool.false_or]
  refine ⟨fun k hk => ?_, hbacked, fun k t hstaged => absurd hstaged (by simp [Layers.dump])⟩
  have hdb : (L.dump C).db.count (C.dbKey k) =
      (L.staged.toRemove.entries.foldl (Layers.write C true)
        (L.staged.toAdd.entries.foldl (Layers.write C false) L)).db.count (C.dbKey k) := rfl
  rw [hanswer k hk, hdb, count_foldl_write, count_foldl_write, ← h.answer k hk, Layers.answer,
    ← h.stored hk]
  rfl

theorem Tracks.load (h : Tracks C K L S) (hinj : Set.InjOn C.cacheKey K) (hk : k ∈ K) :
    Tracks C K (L.load C k) S := by
  have hbacked : ∀ k' ∈ K, (L.load C k).cache.exist (C.cacheKey k') = true →
      L.db.count (C.dbKey k') = true := by
    intro k' hk' hcache
    obtain ⟨v, hv⟩ := Option.isSome_iff_exists.1 hcache
    rcases LruCache.find?_load hv with hold | ⟨heq, hdb⟩
    · exact h.backed k' hk' (Option.isSome_iff_exists.2 ⟨v, hold⟩)
    · rw [hinj hk' hk heq]
      exact count_of_find? hdb
  refine ⟨fun k' hk' => ?_, hbacked, h.known⟩
  have hstored : (L.load C k).stored C k' = L.stored C k' := by
    rw [h.stored hk', Layers.stored]
    cases hcache : (L.load C k).cache.exist (C.cacheKey k') with
    | true => rw [hbacked k' hk' hcache, Bool.true_or]
    | false => exact Bool.false_or _
  rw [← h.answer k' hk', Layers.answer, Layers.answer, hstored]
  rfl

end Toggles
