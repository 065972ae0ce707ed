import UnemployCoin.Lib.LruCache
import UnemployCoin.Lib.Staged
/-!
# Values behind staged changes

A value for each key, in three layers: values that are staged, a database, and a cache in front of
it.  A change may be staged for removal; then it says which value comes back, if any.
-/

namespace Slots

open StdMap

/-- The value that a change sets, and the one that comes back when it is removed. -/
structure Coding (ν β : Type) where
  value : ν → β
  restored : ν → Option β

structure Layers (κ ν β : Type) where
  staged : Staged κ ν
  cache : LruCache κ β
  db : StdMap κ β

variable {κ ν β : Type} [DecidableEq κ]

section Operations

variable (C : Coding ν β) (L : Layers κ ν β)

def Layers.stored (k : κ) : Option β := (L.cache.find? k).or (L.db.find? k)

/-- The value of a key.  A change to be **removed** is looked for first. -/
def Layers.answer (k : κ) : Option β :=
  match L.staged.toRemove.find? k with
  | some v => C.restored v
  | none =>
  match L.staged.toAdd.find? k with
  | some v => some (C.value v)
  | none => L.stored k

def Coding.result (fUndo : Bool) (v : ν) : Option β :=
  if fUndo then C.restored v else some (C.value v)

def Layers.write (fUndo : Bool) (L : Layers κ ν β) (e : κ × ν) : Layers κ ν β :=
  { L with
    db := match C.result fUndo e.2 with
      | some b => L.db.assign e.1 b
      | none => L.db.erase e.1
    cache := L.cache.erase e.1 }

/-- Writes everything that is staged, first what it adds and then what it removes. -/
def Layers.dump : Layers κ ν β :=
  { L.staged.toRemove.entries.foldl (Layers.write C true)
      (L.staged.toAdd.entries.foldl (Layers.write C false) L) with staged := ∅ }

def Layers.load (k : κ) : Layers κ ν β :=
  { L with cache := L.cache.load k (L.db.find? k) }

def Layers.eraseAll (ks : List κ) : Layers κ ν β :=
  { L with db := ks.foldl (fun db k => db.erase k) L.db }

end Operations

variable {C : Coding ν β} {L : Layers κ ν β} {f : κ → Option β} {k : κ} {top : Staged κ ν}

/-! ## The invariant -/

def Unstaged (s : Staged κ ν) (k : κ) : Prop :=
  s.toRemove.find? k = none ∧ s.toAdd.find? k = none

/-- The layers present `f`.  What the cache holds of an unstaged key is in the database. -/
structure Tracks (C : Coding ν β) (L : Layers κ ν β) (f : κ → Option β) : Prop where
  answer : ∀ k, L.answer C k = f k
  backed : ∀ k b, Unstaged L.staged k → L.cache.find? k = some b → L.db.find? k = some b

theorem Tracks.of_db {db : StdMap κ β} (n : ℕ) (h : ∀ k, db.find? k = f k) :
    Tracks C ⟨∅, .ofSize n, db⟩ f :=
  ⟨h, fun _ _ _ h => by cases h⟩

theorem Tracks.empty (n : ℕ) : Tracks C ⟨∅, .ofSize n, ∅⟩ (fun _ : κ => none) :=
  Tracks.of_db n fun _ => rfl

theorem Tracks.stored (h : Tracks C L f) (hk : Unstaged L.staged k) : L.db.find? k = f k := by
  rw [← h.answer k, Layers.answer, hk.1, hk.2]
  simp only [Layers.stored]
  cases hcache : L.cache.find? k with
  | none => rfl
  | some b => rw [h.backed k b hk hcache, Option.some_or]

def overlay (C : Coding ν β) (top : Staged κ ν) (f : κ → Option β) (k : κ) : Option β :=
  match top.toRemove.find? k with
  | some v => C.restored v
  | none =>
  match top.toAdd.find? k with
  | some v => some (C.value v)
  | none => f k

theorem unstaged_flush (h : Unstaged (Staged.flush true top L.staged) k) :
    Unstaged top k ∧ Unstaged L.staged k := by
  obtain ⟨hremove, hadd⟩ := h
  rw [Staged.find?_flush_toRemove, merge, if_pos rfl, Option.or_eq_none_iff] at hremove
  rw [Staged.find?_flush_toAdd, merge, if_pos rfl] at hadd
  obtain ⟨hremove, hbelow⟩ := hremove
  rw [count_eq_false.2 hremove, if_neg Bool.false_ne_true, Option.or_eq_none_iff] at hadd
  rw [count_eq_false.2 hadd.1, if_neg Bool.false_ne_true] at hbelow
  exact ⟨⟨hremove, hadd.1⟩, hbelow, hadd.2⟩

theorem Tracks.flush (h : Tracks C L f) (top : Staged κ ν) :
    Tracks C { L with staged := Staged.flush true top L.staged } (overlay C top f) := by
  refine ⟨fun k => ?_, fun k b hk => h.backed k b (unstaged_flush hk).2⟩
  rw [Layers.answer, overlay, Staged.find?_flush_toRemove, Staged.find?_flush_toAdd, merge,
    if_pos rfl, merge, if_pos rfl, count, count]
  cases hremove : top.toRemove.find? k with
  | some v => rfl
  | none =>
    cases hadd : top.toAdd.find? k with
    | some v => rfl
    | none =>
      rw [← h.answer k, Layers.answer]
      rfl

/-! ## Writing and reading -/

theorem find?_write (fUndo : Bool) (e : κ × ν) (k : κ) :
    (L.write C fUndo e).db.find? k =
      if k = e.1 then C.result fUndo e.2 else L.db.find? k := by
  rw [Layers.write]
  cases C.result fUndo e.2 with
  | some b => exact find?_assign L.db e.1 k b
  | none => exact find?_erase L.db e.1 k

theorem find?_foldl_write (fUndo : Bool) (m : StdMap κ ν) (k : κ) :
    (m.entries.foldl (Layers.write C fUndo) L).db.find? k =
      match m.find? k with
      | some v => C.result fUndo v
      | none => L.db.find? k := by
  rw [read_foldl_entries (fun L : Layers κ ν β => L.db.find? k) (fun v _ => C.result fUndo v)
    fun L e => find?_write fUndo e k]
  cases m.find? k <;> rfl

theorem cache_foldl_write {fUndo : Bool} {l : List (κ × ν)} {b : β}
    (h : (l.foldl (Layers.write C fUndo) L).cache.find? k = some b) :
    (∀ e ∈ l, e.1 ≠ k) ∧ L.cache.find? k = some b := by
  induction l generalizing L with
  | nil => exact ⟨fun _ hmem => (nomatch hmem), h⟩
  | cons e l ih =>
    obtain ⟨hrest, hcache⟩ := ih h
    rw [Layers.write, LruCache.find?_erase] at hcache
    split at hcache
    · cases hcache
    · rename_i hne
      exact ⟨List.forall_mem_cons.2 ⟨fun heq => hne heq.symm, hrest⟩, hcache⟩

theorem find?_of_entries {m : StdMap κ ν} (h : ∀ e ∈ m.entries, e.1 ≠ k) : m.find? k = none := by
  cases hfind : m.find? k with
  | none => rfl
  | some v => exact absurd rfl (h (k, v) (mem_entries.2 hfind))

theorem Tracks.dump (h : Tracks C L f) : Tracks C (L.dump C) f := by
  have hdb : ∀ k, (L.dump C).db.find? k = f k := by
    intro k
    have hdump : (L.dump C).db.find? k =
        (L.staged.toRemove.entries.foldl (Layers.write C true)
          (L.staged.toAdd.entries.foldl (Layers.write C false) L)).db.find? k := rfl
    rw [hdump, find?_foldl_write, find?_foldl_write]
    cases hremove : L.staged.toRemove.find? k with
    | some v =>
      rw [← h.answer k, Layers.answer, hremove]
      rfl
    | none =>
      cases hadd : L.staged.toAdd.find? k with
      | some v =>
        rw [← h.answer k, Layers.answer, hremove, hadd]
        rfl
      | none => exact h.stored ⟨hremove, hadd⟩
  have hbacked : ∀ k b, (L.dump C).cache.find? k = some b → (L.dump C).db.find? k = some b := by
    intro k b hcache
    obtain ⟨hremoved, hcache⟩ := cache_foldl_write hcache
    obtain ⟨hadded, hcache⟩ := cache_foldl_write hcache
    have hk : Unstaged L.staged k := ⟨find?_of_entries hremoved, find?_of_entries hadded⟩
    rw [hdb, ← h.stored hk]
    exact h.backed k b hk hcache
  refine ⟨fun k => ?_, fun k b _ => hbacked k b⟩
  have hanswer : (L.dump C).answer C k = (L.dump C).stored k := rfl
  rw [hanswer, Layers.stored, ← hdb]
  cases hcache : (L.dump C).cache.find? k with
  | none => rfl
  | some b => rw [hbacked k b hcache, Option.some_or]

theorem Tracks.load (h : Tracks C L f) (k : κ) : Tracks C (L.load k) f := by
  have hbacked : ∀ k' b, Unstaged L.staged k' → (L.load k).cache.find? k' = some b →
      L.db.find? k' = some b := by
    intro k' b hk' hcache
    rcases LruCache.find?_load hcache with hold | ⟨rfl, hdb⟩
    · exact h.backed k' b hk' hold
    · exact hdb
  refine ⟨fun k' => ?_, hbacked⟩
  have hstored : Unstaged L.staged k' → (L.load k).stored k' = L.db.find? k' := by
    intro hk'
    rw [Layers.stored]
    cases hcache : (L.load k).cache.find? k' with
    | none => rfl
    | some b => rw [Option.some_or, hbacked k' b hk' hcache]
  rw [Layers.answer]
  have hstaged : (L.load k).staged = L.staged := rfl
  rw [hstaged]
  cases hremove : L.staged.toRemove.find? k' with
  | some v =>
    rw [← h.answer k', Layers.answer, hremove]
  | none =>
    cases hadd : L.staged.toAdd.find? k' with
    | some v => rw [← h.answer k', Layers.answer, hremove, hadd]
    | none =>
      simp only
      rw [hstored ⟨hremove, hadd⟩]
      exact h.stored ⟨hremove, hadd⟩

theorem find?_foldl_erase_keys (ks : List κ) (m : StdMap κ β) (k : κ) :
    (ks.foldl (fun db k => db.erase k) m).find? k = if k ∈ ks then none else m.find? k := by
  induction ks generalizing m with
  | nil => simp
  | cons a ks ih =>
    rw [List.foldl_cons, ih, find?_erase]
    by_cases hk : k = a <;> simp [hk]

theorem Tracks.erase {ks : List κ} (h : Tracks C L f) (hks : ∀ k ∈ ks, f k = none) :
    Tracks C (L.eraseAll ks) f := by
  have hdb : ∀ k, Unstaged L.staged k → (L.eraseAll ks).db.find? k = L.db.find? k := by
    intro k hk
    rw [Layers.eraseAll, find?_foldl_erase_keys]
    split
    · rename_i hmem
      rw [h.stored hk, hks k hmem]
    · rfl
  refine ⟨fun k => ?_, fun k b hk hcache => ?_⟩
  · rw [← h.answer k, Layers.answer, Layers.answer]
    have hstaged : (L.eraseAll ks).staged = L.staged := rfl
    rw [hstaged]
    cases hremove : L.staged.toRemove.find? k with
    | some v => rfl
    | none =>
      cases hadd : L.staged.toAdd.find? k with
      | some v => rfl
      | none =>
        simp only [Layers.stored]
        rw [hdb k ⟨hremove, hadd⟩]
        rfl
  · rw [hdb k hk]
    exact h.backed k b hk hcache

end Slots
