import UnemployCoin.Bytes
import UnemployCoin.Lib.LinkedList
import UnemployCoin.Lib.LruCache
import UnemployCoin.Lib.Run
import UnemployCoin.Lib.StdMap
/-!
# The cache in memory

`CLRUCache` (`assets/assettypes.h`): a list of keys and values, the most recently used in front, and
a map from the keys to **iterators** of the list.  A copy of a cache has a list of its own, but the
iterators in its map are those of the list that was copied.  What a cache does with an iterator of
another list is left open by C++, and is a step that is refused here.
-/

namespace UnemployCoin

open StdMap

/-- An iterator: the list that it belongs to, and the node in that list. -/
structure ListIterator where
  list : ℕ
  node : ℕ
  deriving DecidableEq, Repr

structure CLRUCache (κ ν : Type) [DecidableEq κ] where
  cacheItemsList : LinkedList (κ × ν)
  cacheItemsMap : StdMap κ ListIterator
  maxSize : ℕ

namespace CLRUCache

variable {κ ν : Type} [DecidableEq κ]

/-- `CLRUCache(max_size)`. -/
def ofSize (maxSize : ℕ) : CLRUCache κ ν := ⟨∅, ∅, maxSize⟩

section Operations

variable (listId : ℕ) (c : CLRUCache κ ν) (key : κ)

/-- `cacheItemsList.erase(it)`, in the cache whose list is `listId`. -/
def eraseItem (list : LinkedList (κ × ν)) (it : ListIterator) : Option (LinkedList (κ × ν)) :=
  if it.list = listId ∧ (list.deref it.node).isSome then some (list.erase it.node) else none

/-- The end of `Put`: the last item goes when there are too many. -/
def evict : Option (CLRUCache κ ν) :=
  if c.maxSize < c.cacheItemsMap.size then
    c.cacheItemsList.values.getLast?.map fun last =>
      { c with
        cacheItemsMap := c.cacheItemsMap.erase last.1
        cacheItemsList := c.cacheItemsList.popBack }
  else some c

def put (value : ν) : Option (CLRUCache κ ν) := do
  let list := c.cacheItemsList.pushFront (key, value)
  let (list, map) ← match c.cacheItemsMap.find? key with
    | none => some (list, c.cacheItemsMap)
    | some it => (eraseItem listId list it).map fun list => (list, c.cacheItemsMap.erase key)
  let first ← list.begin?
  evict { c with cacheItemsList := list, cacheItemsMap := map.assign key ⟨listId, first⟩ }

def erase : Option (CLRUCache κ ν) :=
  match c.cacheItemsMap.find? key with
  | none => some c
  | some it => (eraseItem listId c.cacheItemsList it).map fun list =>
      { c with cacheItemsList := list, cacheItemsMap := c.cacheItemsMap.erase key }

/-- `Get`: the cache with the item in front, and its value.  Where there is none, it throws a
`std::range_error`. -/
def get : Option (CLRUCache κ ν × Option ν) :=
  match c.cacheItemsMap.find? key with
  | none => some (c, none)
  | some it =>
    if it.list = listId then
      (c.cacheItemsList.deref it.node).map fun item =>
        ({ c with cacheItemsList := c.cacheItemsList.toFront it.node }, some item.2)
    else none

/-- `Exists`. -/
def exist : Bool := c.cacheItemsMap.count key

def size : ℕ := c.cacheItemsMap.size

def setSize (size : ℕ) : CLRUCache κ ν := { c with maxSize := size }

def clear : CLRUCache κ ν :=
  { c with
    cacheItemsMap := ∅
    cacheItemsList := { c.cacheItemsList with
      nodes := []
      nodup := List.nodup_nil
      fresh := fun _ h => absurd h List.not_mem_nil } }

def copy : CLRUCache κ ν := { c with cacheItemsList := c.cacheItemsList.copy }

def perform : LruCache.Call κ ν → Option (CLRUCache κ ν)
  | .put key value => c.put listId key value
  | .erase key => c.erase listId key
  | .get key => (c.get listId key).map Prod.fst
  | .exist _ => some c
  | .setSize n => some (c.setSize n)
  | .clear => some c.clear

end Operations

/-! ## The list of keys and values -/

def keys (c : CLRUCache κ ν) : List κ := c.cacheItemsList.values.map Prod.fst

def abs (c : CLRUCache κ ν) : LruCache κ ν := ⟨c.maxSize, c.cacheItemsList.values⟩

/-- The map and the list hold the same keys, each once. -/
structure SameKeys (c : CLRUCache κ ν) : Prop where
  exist_iff : ∀ k, c.exist k = true ↔ k ∈ c.keys
  nodup : c.keys.Nodup

/-- The iterators of the own list point at the items of their keys, and those of other lists are of
lists before `n`. -/
structure Indexed (listId n : ℕ) (c : CLRUCache κ ν) : Prop extends SameKeys c where
  own : ∀ k it, c.cacheItemsMap.find? k = some it → it.list = listId →
    ∃ v, c.cacheItemsList.deref it.node = some (k, v)
  known : ∀ k it, c.cacheItemsMap.find? k = some it → it.list < n

def looksUp : LruCache.Call κ ν → κ → Prop
  | .put key _, k | .erase key, k | .get key, k => key = k
  | _, _ => False

def Serves (listId : ℕ) (c : CLRUCache κ ν) (call : LruCache.Call κ ν) : Prop :=
  ∀ k it, looksUp call k → c.cacheItemsMap.find? k = some it → it.list = listId

variable {listId n : ℕ} {c : CLRUCache κ ν} {key : κ} {value : ν}

theorem SameKeys.size_eq (h : c.SameKeys) : c.size = c.cacheItemsList.values.length := by
  have hperm : c.cacheItemsMap.keys.Perm c.keys := by
    rw [List.perm_ext_iff_of_nodup c.cacheItemsMap.keys_nodup h.nodup]
    intro k
    rw [mem_keys]
    exact h.exist_iff k
  rw [size, size_eq_keys, hperm.length_eq, keys, List.length_map]

theorem Indexed.mono {m : ℕ} (h : c.Indexed listId n) (hle : n ≤ m) : c.Indexed listId m :=
  ⟨h.toSameKeys, h.own, fun k it hit => (h.known k it hit).trans_le hle⟩

theorem indexed_ofSize (maxSize : ℕ) : (ofSize maxSize : CLRUCache κ ν).Indexed listId n := by
  refine ⟨⟨fun k => ?_, List.nodup_nil⟩, fun k it hit => ?_, fun k it hit => ?_⟩
  · rw [exist, ofSize, count_empty]
    exact iff_of_false Bool.false_ne_true List.not_mem_nil
  · rw [ofSize, find?_empty] at hit
    cases hit
  · rw [ofSize, find?_empty] at hit
    cases hit

/-- **A copy has iterators of the list that was copied.** -/
theorem Indexed.copy (h : c.Indexed listId n) : c.copy.Indexed n (n + 1) := by
  refine ⟨⟨fun k => ?_, ?_⟩, fun k it hit hlist => ?_, fun k it hit => ?_⟩
  · rw [keys, CLRUCache.copy, LinkedList.values_copy]
    exact h.exist_iff k
  · rw [keys, CLRUCache.copy, LinkedList.values_copy]
    exact h.nodup
  · exact absurd hlist (h.known k it hit).ne
  · exact (h.known k it hit).trans (Nat.lt_succ_self n)

theorem abs_copy (c : CLRUCache κ ν) : c.copy.abs = c.abs := by
  rw [abs, CLRUCache.copy, LinkedList.values_copy]
  rfl

theorem values_erase_own {list : LinkedList (κ × ν)} {node : ℕ} {v : ν}
    (hnodup : (list.values.map Prod.fst).Nodup) (h : list.deref node = some (key, v)) :
    (list.erase node).values = LruCache.remove list.values key := by
  obtain ⟨pre, post, hvalues, herase⟩ := LinkedList.values_erase h
  rw [hvalues, List.map_append, List.map_cons, List.nodup_append, List.nodup_cons] at hnodup
  obtain ⟨-, ⟨hpost, -⟩, hpre⟩ := hnodup
  have hpre' : key ∉ pre.map Prod.fst := fun hin => hpre key hin key List.mem_cons_self rfl
  rw [herase, hvalues, LruCache.remove, List.filter_append, List.filter_cons_of_neg (by simp)]
  show pre ++ post = LruCache.remove pre key ++ LruCache.remove post key
  rw [LruCache.remove_of_not_mem hpre', LruCache.remove_of_not_mem hpost]

omit [DecidableEq κ] in
theorem eraseItem_own {list : LinkedList (κ × ν)} {it : ListIterator} {v : ν}
    (hlist : it.list = listId) (h : list.deref it.node = some (key, v)) :
    eraseItem listId list it = some (list.erase it.node) := by
  rw [eraseItem, if_pos ⟨hlist, by rw [h]; rfl⟩]

omit [DecidableEq κ] in
theorem eraseItem_other {list : LinkedList (κ × ν)} {it : ListIterator} (h : it.list ≠ listId) :
    eraseItem listId list it = none := by
  rw [eraseItem, if_neg fun hboth => h hboth.1]

theorem mem_keys_erase {list : LinkedList (κ × ν)} {node : ℕ} {v : ν}
    (hnodup : (list.values.map Prod.fst).Nodup) (h : list.deref node = some (key, v)) {k : κ} :
    k ∈ (list.erase node).values.map Prod.fst ↔ k ≠ key ∧ k ∈ list.values.map Prod.fst := by
  rw [values_erase_own hnodup h, List.mem_map, List.mem_map]
  constructor
  · rintro ⟨e, he, rfl⟩
    obtain ⟨hmem, hne⟩ := LruCache.mem_of_mem_remove he
    exact ⟨hne, e, hmem, rfl⟩
  · rintro ⟨hne, e, he, rfl⟩
    exact ⟨e, List.mem_filter.2 ⟨he, by simpa using hne⟩, rfl⟩

theorem Indexed.eraseItem (h : c.Indexed listId n) {it : ListIterator} {v : ν}
    (hitem : c.cacheItemsList.deref it.node = some (key, v)) :
    Indexed listId n { c with
      cacheItemsList := c.cacheItemsList.erase it.node
      cacheItemsMap := c.cacheItemsMap.erase key } := by
  refine ⟨⟨fun k => ?_, ?_⟩, fun k it' hit hlist => ?_, fun k it' hit => ?_⟩
  · rw [keys, mem_keys_erase h.nodup hitem, exist, count_erase, Bool.and_eq_true,
      Bool.not_eq_true', decide_eq_false_iff_not]
    exact and_congr_right fun _ => h.exist_iff k
  · rw [keys, values_erase_own h.nodup hitem]
    exact h.nodup.sublist (List.filter_sublist.map _)
  · dsimp only at hit ⊢
    rw [find?_erase] at hit
    split at hit
    · cases hit
    · rename_i hne
      obtain ⟨w, hw⟩ := h.own k it' hit hlist
      refine ⟨w, ?_⟩
      rw [LinkedList.deref_erase, if_neg, hw]
      intro heq
      rw [heq, hitem] at hw
      exact hne (Prod.mk.inj (Option.some.inj hw)).1.symm
  · dsimp only at hit
    rw [find?_erase] at hit
    split at hit
    · cases hit
    · exact h.known k it' hit

/-- **The end of `Put`.** -/
theorem evict_spec (h : c.Indexed listId n) :
    ∃ c', c.evict = some c' ∧ c'.Indexed listId n ∧ c'.maxSize = c.maxSize ∧
      c'.cacheItemsList.values = if c.cacheItemsList.values.length > c.maxSize then
        c.cacheItemsList.values.dropLast else c.cacheItemsList.values := by
  have hsize : c.cacheItemsMap.size = c.cacheItemsList.values.length := h.size_eq
  rw [evict, hsize]
  by_cases hover : c.maxSize < c.cacheItemsList.values.length
  · rw [if_pos hover, if_pos hover]
    have hnil : c.cacheItemsList.values ≠ [] := by
      rintro hnil
      rw [hnil] at hover
      exact absurd hover (Nat.not_lt_zero _)
    obtain ⟨last, hlast⟩ := Option.ne_none_iff_exists'.1
      (mt List.getLast?_eq_none_iff.1 hnil)
    obtain ⟨init, hsplit⟩ := List.getLast?_eq_some_iff.1 hlast
    have hvalues : c.cacheItemsList.popBack.values = init := by
      rw [LinkedList.values_popBack, hsplit, List.dropLast_concat]
    have hnodup := h.nodup
    rw [keys, hsplit, List.map_append, List.map_singleton, List.nodup_append] at hnodup
    have hnew : last.1 ∉ init.map Prod.fst := fun hmem =>
      hnodup.2.2 _ hmem _ (List.mem_singleton_self _) rfl
    rw [hlast, Option.map_some]
    refine ⟨_, rfl, ⟨⟨fun k => ?_, ?_⟩, fun k it hit hlist => ?_, fun k it hit => ?_⟩, rfl, ?_⟩
    · rw [keys, hvalues, exist, count_erase, Bool.and_eq_true, Bool.not_eq_true',
        decide_eq_false_iff_not]
      have hiff := h.exist_iff k
      rw [exist, keys, hsplit, List.map_append, List.map_singleton, List.mem_append,
        List.mem_singleton] at hiff
      rw [hiff]
      constructor
      · exact fun hk => hk.2.resolve_right hk.1
      · exact fun hk => ⟨fun heq => hnew (heq ▸ hk), .inl hk⟩
    · rw [keys, hvalues]
      exact hnodup.1
    · dsimp only at hit ⊢
      rw [find?_erase] at hit
      split at hit
      · cases hit
      · rename_i hne
        obtain ⟨v, hv⟩ := h.own k it hit hlist
        exact ⟨v, LinkedList.deref_popBack hv hsplit fun heq => hne (congrArg Prod.fst heq)⟩
    · dsimp only at hit
      rw [find?_erase] at hit
      split at hit
      · cases hit
      · exact h.known k it hit
    · exact LinkedList.values_popBack
  · rw [if_neg hover, if_neg hover]
    exact ⟨c, rfl, h, rfl, rfl⟩

theorem Indexed.pushFront (h : c.Indexed listId n) (hn : listId < n) (hnew : key ∉ c.keys)
    (value : ν) :
    Indexed listId n { c with
      cacheItemsList := c.cacheItemsList.pushFront (key, value)
      cacheItemsMap := c.cacheItemsMap.assign key ⟨listId, c.cacheItemsList.next⟩ } := by
  refine ⟨⟨fun k => ?_, ?_⟩, fun k it hit hlist => ?_, fun k it hit => ?_⟩
  · rw [keys, LinkedList.values_pushFront, List.map_cons, List.mem_cons, exist, count_assign,
      Bool.or_eq_true, decide_eq_true_eq]
    exact or_congr_right (h.exist_iff k)
  · rw [keys, LinkedList.values_pushFront, List.map_cons, List.nodup_cons]
    exact ⟨hnew, h.nodup⟩
  · dsimp only at hit ⊢
    rw [LinkedList.deref_pushFront]
    rw [find?_assign] at hit
    split at hit
    · rename_i heq
      rw [← Option.some.inj hit, if_pos rfl, heq]
      exact ⟨value, rfl⟩
    · obtain ⟨v, hv⟩ := h.own k it hit hlist
      rw [if_neg (LinkedList.lt_next hv).ne]
      exact ⟨v, hv⟩
  · dsimp only at hit
    rw [find?_assign] at hit
    split at hit
    · rw [← Option.some.inj hit]
      exact hn
    · exact h.known k it hit

/-- **`Put`** does what it does to the keys and values. -/
theorem put_spec (h : c.Indexed listId n) (hn : listId < n)
    (hserves : c.Serves listId (.put key value)) :
    ∃ c', c.put listId key value = some c' ∧ c'.Indexed listId n ∧
      c'.abs = c.abs.put key value := by
  -- the list without the old item, and the map without its key
  have hstart : ∃ old : CLRUCache κ ν, old.Indexed listId n ∧ old.maxSize = c.maxSize ∧
      key ∉ old.keys ∧ old.cacheItemsList.values = LruCache.remove c.cacheItemsList.values key ∧
      c.put listId key value = evict { old with
        cacheItemsList := old.cacheItemsList.pushFront (key, value)
        cacheItemsMap := old.cacheItemsMap.assign key ⟨listId, old.cacheItemsList.next⟩ } := by
    cases hfind : c.cacheItemsMap.find? key with
    | none =>
      have hnew : key ∉ c.keys := by
        rw [← h.exist_iff, exist, count_eq_false.2 hfind]
        exact Bool.false_ne_true
      refine ⟨c, h, rfl, hnew, (LruCache.remove_of_not_mem hnew).symm, ?_⟩
      rw [put, hfind]
      rfl
    | some it =>
      have hlist := hserves key it rfl hfind
      obtain ⟨v, hv⟩ := h.own key it hfind hlist
      have hne : it.node ≠ c.cacheItemsList.next := (LinkedList.lt_next hv).ne
      have hpushed : (c.cacheItemsList.pushFront (key, value)).deref it.node = some (key, v) := by
        rw [LinkedList.deref_pushFront, if_neg hne, hv]
      refine ⟨_, h.eraseItem hv, rfl, ?_, values_erase_own h.nodup hv, ?_⟩
      · rw [keys, mem_keys_erase h.nodup hv]
        exact fun hk => hk.1 rfl
      · rw [put, hfind]
        dsimp only
        rw [eraseItem_own hlist hpushed, LinkedList.erase_pushFront hne]
        rfl
  obtain ⟨old, hold, hmax, hnew, hvalues, hput⟩ := hstart
  obtain ⟨c', hc', hindexed, hmax', hitems⟩ := evict_spec (hold.pushFront hn hnew value)
  refine ⟨c', hput.trans hc', hindexed, ?_⟩
  rw [abs, hitems, hmax']
  dsimp only
  rw [LinkedList.values_pushFront, hvalues, hmax]
  rfl

theorem get_spec (h : c.Indexed listId n) (hserves : c.Serves listId (.get key)) :
    ∃ c', c.get listId key = some (c', c.abs.find? key) ∧ c'.Indexed listId n ∧
      c'.abs = c.abs.touch key := by
  rw [get]
  cases hfind : c.cacheItemsMap.find? key with
  | none =>
    have hnone : c.abs.find? key = none := by
      refine LruCache.lookup_eq_none.2 fun hmem => ?_
      have hexist := (h.exist_iff key).2 hmem
      rw [exist, count_eq_false.2 hfind] at hexist
      cases hexist
    rw [hnone, LruCache.touch, hnone]
    exact ⟨c, rfl, h, rfl⟩
  | some it =>
    have hlist := hserves key it rfl hfind
    obtain ⟨v, hv⟩ := h.own key it hfind hlist
    have hmem : (key, v) ∈ c.cacheItemsList.values := LinkedList.mem_values.2 ⟨it.node, hv⟩
    have hsome : c.abs.find? key = some v := LruCache.lookup_of_mem h.nodup hmem
    dsimp only
    rw [if_pos hlist, hv, hsome, LruCache.touch, hsome]
    refine ⟨_, rfl, ⟨⟨fun k => ?_, ?_⟩, fun k it' hit hlist' => ?_, h.known⟩, ?_⟩
    · rw [keys, LinkedList.values_toFront hv, List.map_cons, List.mem_cons,
        mem_keys_erase h.nodup hv]
      refine (h.exist_iff k).trans ⟨fun hk => ?_, ?_⟩
      · exact (em (k = key)).imp_right fun hne => ⟨hne, hk⟩
      · rintro (rfl | hk)
        · exact List.mem_map_of_mem hmem
        · exact hk.2
    · rw [keys, LinkedList.values_toFront hv, List.map_cons, List.nodup_cons,
        mem_keys_erase h.nodup hv, values_erase_own h.nodup hv]
      exact ⟨fun hk => hk.1 rfl, h.nodup.sublist (List.filter_sublist.map _)⟩
    · dsimp only
      rw [LinkedList.deref_toFront]
      exact h.own k it' hit hlist'
    · rw [abs, LinkedList.values_toFront hv, values_erase_own h.nodup hv]
      rfl

theorem erase_spec (h : c.Indexed listId n) (hserves : c.Serves listId (.erase key)) :
    ∃ c', c.erase listId key = some c' ∧ c'.Indexed listId n ∧ c'.abs = c.abs.erase key := by
  rw [erase]
  cases hfind : c.cacheItemsMap.find? key with
  | none =>
    refine ⟨c, rfl, h, ?_⟩
    have hnew : key ∉ c.keys := by
      rw [← h.exist_iff, exist, count_eq_false.2 hfind]
      exact Bool.false_ne_true
    rw [LruCache.erase, abs, LruCache.remove_of_not_mem hnew]
  | some it =>
    have hlist := hserves key it rfl hfind
    obtain ⟨v, hv⟩ := h.own key it hfind hlist
    dsimp only
    rw [eraseItem_own hlist hv]
    refine ⟨_, rfl, h.eraseItem hv, ?_⟩
    rw [abs, values_erase_own h.nodup hv]
    rfl

/-- **Every call whose iterators are of the own list** does what it does to the keys and values. -/
theorem perform_spec (h : c.Indexed listId n) (hn : listId < n) {call : LruCache.Call κ ν}
    (hserves : c.Serves listId call) :
    ∃ c', c.perform listId call = some c' ∧ c'.Indexed listId n ∧ c'.abs = c.abs.perform call := by
  cases call with
  | put key value => exact put_spec h hn hserves
  | erase key => exact erase_spec h hserves
  | get key =>
    obtain ⟨c', hget, hindexed, habs⟩ := get_spec h hserves
    exact ⟨c', by rw [perform, hget]; rfl, hindexed, habs⟩
  | exist key => exact ⟨c, rfl, h, rfl⟩
  | setSize size => exact ⟨_, rfl, ⟨⟨h.exist_iff, h.nodup⟩, h.own, h.known⟩, rfl⟩
  | clear =>
    refine ⟨_, rfl, ⟨⟨fun k => ?_, List.nodup_nil⟩, fun k it hit => ?_, fun k it hit => ?_⟩, rfl⟩
    · rw [exist, clear, count_empty]
      exact iff_of_false Bool.false_ne_true List.not_mem_nil
    · rw [clear, find?_empty] at hit
      cases hit
    · rw [clear, find?_empty] at hit
      cases hit

/-- **With an iterator of another list** a call is undefined. -/
theorem perform_eq_none {call : LruCache.Call κ ν} (h : ¬c.Serves listId call) :
    c.perform listId call = none := by
  simp only [Serves, not_forall, exists_prop] at h
  obtain ⟨k, it, hlooks, hfind, hne⟩ := h
  cases call with
  | put key value =>
    cases hlooks
    rw [perform, put, hfind]
    dsimp only
    rw [eraseItem_other hne]
    rfl
  | erase key =>
    cases hlooks
    rw [perform, erase, hfind]
    dsimp only
    rw [eraseItem_other hne]
    rfl
  | get key =>
    cases hlooks
    rw [perform, get, hfind]
    dsimp only
    rw [if_neg hne]
    rfl
  | exist key => exact hlooks.elim
  | setSize size => exact hlooks.elim
  | clear => exact hlooks.elim

end CLRUCache

/-! ## Programs with caches -/

open LruCache (Call age lastPut)

/-- What a program does with its caches, each under the number of its list. -/
inductive CacheEvent (κ ν : Type) where
  | construct (maxSize : ℕ)
  | copy (i : ℕ)
  | call (i : ℕ) (call : Call κ ν)

section Programs

variable (κ ν : Type) [DecidableEq κ]

/-- The caches of a program.  There is none under a number that is not taken. -/
def caches : Machine (List (CLRUCache κ ν)) (CacheEvent κ ν) where
  step s
    | .construct maxSize => some (s ++ [.ofSize maxSize])
    | .copy i =>
      match s[i]? with
      | none => some s
      | some c => some (s ++ [c.copy])
    | .call i call =>
      match s[i]? with
      | none => some s
      | some c => (c.perform i call).map (s.set i)

variable {κ ν}

/-- The calls on each cache with the newest first, those on a copied one before it was copied
included. -/
def recordEvent (calls : List (List (Call κ ν))) : CacheEvent κ ν → List (List (Call κ ν))
  | .construct _ => calls ++ [[]]
  | .copy i =>
    match calls[i]? with
    | none => calls
    | some h => calls ++ [h]
  | .call i call =>
    match calls[i]? with
    | none => calls
    | some h => calls.set i (call :: h)

def callsAfter (events : List (CacheEvent κ ν)) : List (List (Call κ ν)) :=
  events.foldl recordEvent []

/-- What a step should do: the map and the list of every cache hold the same keys, each once and no
more than `maxSize`; `Get` returns what was put last; and what `Put` evicts was used before all
that stays. -/
structure StepRight (calls : List (List (Call κ ν))) (s : List (CLRUCache κ ν))
    (event : CacheEvent κ ν) (s' : List (CLRUCache κ ν)) : Prop where
  caches : ∀ c ∈ s', c.SameKeys ∧ c.size ≤ c.maxSize
  get : ∀ i k c h, event = .call i (.get k) → s[i]? = some c → calls[i]? = some h →
    ∃ c', c.get i k = some (c', if c.exist k then lastPut h k else none)
  evicts : ∀ i k v c c' h, event = .call i (.put k v) → s[i]? = some c → s'[i]? = some c' →
    calls[i]? = some h → ∀ e, e = k ∨ c.exist e = true → c'.exist e = false →
      ∀ k', c'.exist k' = true → age (.put k v :: h) k' < age (.put k v :: h) e

/-- No call uses an iterator that was copied from another cache, and `SetSize` leaves room for what
is held. -/
def Fits (s : List (CLRUCache κ ν)) : CacheEvent κ ν → Prop
  | .call i call => ∀ c, s[i]? = some c →
      c.Serves i call ∧ ∀ n, call = .setSize n → c.size ≤ n
  | _ => True

/-- What carries the induction over the steps. -/
structure CachesGood (calls : List (List (Call κ ν))) (s : List (CLRUCache κ ν)) : Prop where
  length_eq : calls.length = s.length
  indexed : ∀ (i : ℕ) (c : CLRUCache κ ν), s[i]? = some c → c.Indexed i s.length
  bounded : ∀ c ∈ s, c.cacheItemsList.values.length ≤ c.maxSize
  recalls : ∀ (i : ℕ) (c : CLRUCache κ ν) (h : List (Call κ ν)), s[i]? = some c →
    calls[i]? = some h → c.abs.Recalls h

variable {calls : List (List (Call κ ν))} {s s' : List (CLRUCache κ ν)}

theorem CachesGood.caches (h : CachesGood calls s) : ∀ c ∈ s, c.SameKeys ∧ c.size ≤ c.maxSize := by
  intro c hc
  obtain ⟨i, hi⟩ := List.mem_iff_getElem?.1 hc
  have hkeys := (h.indexed i c hi).toSameKeys
  exact ⟨hkeys, hkeys.size_eq ▸ h.bounded c hc⟩

theorem CachesGood.append (h : CachesGood calls s) {c : CLRUCache κ ν} {hist : List (Call κ ν)}
    (hindexed : c.Indexed s.length (s.length + 1))
    (hbounded : c.cacheItemsList.values.length ≤ c.maxSize) (hrecalls : c.abs.Recalls hist) :
    CachesGood (calls ++ [hist]) (s ++ [c]) := by
  have hlast : ∀ {α : Type} {l : List α} {x y : α} {i : ℕ}, (l ++ [x])[i]? = some y →
      l[i]? = some y ∨ i = l.length ∧ y = x := by
    intro α l x y i hi
    rw [List.getElem?_append] at hi
    split at hi
    · exact .inl hi
    · rename_i hle
      rw [List.getElem?_singleton] at hi
      split at hi
      · rename_i hzero
        exact .inr ⟨by omega, (Option.some.inj hi).symm⟩
      · cases hi
  refine ⟨?_, fun i d hd => ?_, fun d hd => ?_, fun i d hist' hd hhist => ?_⟩
  · rw [List.length_append, List.length_append, h.length_eq]
    rfl
  · rw [List.length_append]
    rcases hlast hd with hold | ⟨rfl, rfl⟩
    · exact (h.indexed i d hold).mono (Nat.le_succ _)
    · exact hindexed
  · rcases List.mem_append.1 hd with hold | hnew
    · exact h.bounded d hold
    · rw [List.mem_singleton.1 hnew]
      exact hbounded
  · rcases hlast hd with hold | ⟨rfl, rfl⟩
    · have hlt := (List.getElem?_eq_some_iff.1 hold).1
      rw [List.getElem?_append_left (h.length_eq ▸ hlt)] at hhist
      exact h.recalls i d hist' hold hhist
    · rw [← h.length_eq, List.getElem?_concat_length] at hhist
      rw [← Option.some.inj hhist]
      exact hrecalls

theorem CachesGood.set (h : CachesGood calls s) {i : ℕ} {c : CLRUCache κ ν} {hist : List (Call κ ν)}
    (hindexed : c.Indexed i s.length) (hbounded : c.cacheItemsList.values.length ≤ c.maxSize)
    (hrecalls : c.abs.Recalls hist) : CachesGood (calls.set i hist) (s.set i c) := by
  refine ⟨?_, fun j d hd => ?_, fun d hd => ?_, fun j d hist' hd hhist => ?_⟩
  · rw [List.length_set, List.length_set, h.length_eq]
  · rw [List.length_set]
    rw [List.getElem?_set] at hd
    split at hd
    · rename_i hij
      split at hd
      · rw [← Option.some.inj hd, ← hij]
        exact hindexed
      · cases hd
    · exact h.indexed j d hd
  · rcases List.mem_or_eq_of_mem_set hd with hold | rfl
    · exact h.bounded d hold
    · exact hbounded
  · rw [List.getElem?_set] at hd hhist
    by_cases hij : i = j
    · rw [if_pos hij] at hd hhist
      split at hd
      · split at hhist
        · rw [← Option.some.inj hd, ← Option.some.inj hhist]
          exact hrecalls
        · cases hhist
      · cases hd
    · rw [if_neg hij] at hd hhist
      exact h.recalls j d hist' hd hhist

theorem StepRight.of_caches (hcaches : ∀ c ∈ s', c.SameKeys ∧ c.size ≤ c.maxSize)
    {event : CacheEvent κ ν} (hnone : ∀ i call, event = .call i call → s[i]? = none) :
    StepRight calls s event s' := by
  refine ⟨hcaches, fun i k c h hevent hc => ?_, fun i k v c c' h hevent hc => ?_⟩
  · rw [hnone i _ hevent] at hc
    cases hc
  · rw [hnone i _ hevent] at hc
    cases hc

/-- **A step that fits** is taken as it should be. -/
theorem CachesGood.step (h : CachesGood calls s) {event : CacheEvent κ ν} (hfits : Fits s event) :
    ∃ s', (UnemployCoin.caches κ ν).step s event = some s' ∧
      CachesGood (recordEvent calls event) s' ∧ StepRight calls s event s' := by
  have hnone : ∀ {i : ℕ}, s[i]? = none → calls[i]? = none := by
    intro i hi
    rw [List.getElem?_eq_none_iff] at hi ⊢
    exact h.length_eq ▸ hi
  have hsome : ∀ {i : ℕ} {c : CLRUCache κ ν}, s[i]? = some c → ∃ hist, calls[i]? = some hist := by
    intro i c hi
    have hlt := (List.getElem?_eq_some_iff.1 hi).1
    exact ⟨_, List.getElem?_eq_getElem (h.length_eq ▸ hlt)⟩
  cases event with
  | construct maxSize =>
    have hgood : CachesGood (calls ++ [[]]) (s ++ [.ofSize maxSize]) :=
      h.append (CLRUCache.indexed_ofSize maxSize) (Nat.zero_le _)
        ⟨fun e he => absurd he List.not_mem_nil, List.Pairwise.nil⟩
    exact ⟨_, rfl, hgood, .of_caches hgood.caches nofun⟩
  | copy i =>
    cases hi : s[i]? with
    | none =>
      refine ⟨s, by rw [UnemployCoin.caches]; dsimp only; rw [hi], ?_, .of_caches h.caches nofun⟩
      rw [recordEvent, hnone hi]
      exact h
    | some c =>
      obtain ⟨hist, hhist⟩ := hsome hi
      have hindexed := (h.indexed i c hi).copy
      have hgood := h.append hindexed
        (by rw [CLRUCache.copy, LinkedList.values_copy]
            exact h.bounded c (List.mem_of_getElem? hi))
        (by rw [CLRUCache.abs_copy]
            exact h.recalls i c hist hi hhist)
      refine ⟨s ++ [c.copy], by rw [UnemployCoin.caches]; dsimp only; rw [hi], ?_,
        .of_caches hgood.caches nofun⟩
      rw [recordEvent, hhist]
      exact hgood
  | call i call =>
    cases hi : s[i]? with
    | none =>
      refine ⟨s, by rw [UnemployCoin.caches]; dsimp only; rw [hi], ?_,
        .of_caches h.caches fun j _ heq => ?_⟩
      · rw [recordEvent, hnone hi]
        exact h
      · rw [← (CacheEvent.call.inj heq).1]
        exact hi
    | some c =>
      obtain ⟨hist, hhist⟩ := hsome hi
      obtain ⟨hserves, hroom⟩ := hfits c hi
      have hindexed := h.indexed i c hi
      have hrecalls := h.recalls i c hist hi hhist
      have hlt := (List.getElem?_eq_some_iff.1 hi).1
      obtain ⟨c', hc', hindexed', habs⟩ := CLRUCache.perform_spec hindexed hlt hserves
      have hbounded : c'.abs.items.length ≤ c'.abs.maxSize := by
        rw [habs]
        refine LruCache.length_perform_le (h.bounded c (List.mem_of_getElem? hi)) fun n hn => ?_
        have hle := hroom n hn
        rwa [hindexed.size_eq] at hle
      have hgood : CachesGood (calls.set i (call :: hist)) (s.set i c') :=
        h.set hindexed' hbounded (habs ▸ hrecalls.perform call)
      have hexist : ∀ {d : CLRUCache κ ν}, d.SameKeys → ∀ k,
          d.exist k = true ↔ k ∈ d.abs.items.map Prod.fst := fun hd k => hd.exist_iff k
      have hstep : (UnemployCoin.caches κ ν).step s (.call i call) = some (s.set i c') := by
        rw [UnemployCoin.caches]
        dsimp only
        rw [hi]
        exact congrArg (Option.map (s.set i)) hc'
      refine ⟨s.set i c', hstep, ?_, hgood.caches, ?_, ?_⟩
      · rw [recordEvent, hhist]
        exact hgood
      · intro j k d hist' heq hd hhist'
        obtain ⟨rfl, rfl⟩ := CacheEvent.call.inj heq
        cases hi.symm.trans hd
        cases hhist.symm.trans hhist'
        obtain ⟨d', hget, -, -⟩ := CLRUCache.get_spec hindexed hserves
        refine ⟨d', hget.trans (congrArg (fun r => some (d', r)) ?_)⟩
        cases hfind : c.abs.find? k with
        | none =>
          have hnone := LruCache.lookup_eq_none.1 hfind
          rw [if_neg fun hk => hnone ((hexist hindexed.toSameKeys k).1 hk)]
        | some v =>
          have hmem := LruCache.mem_of_lookup hfind
          rw [if_pos ((hexist hindexed.toSameKeys k).2 (List.mem_map_of_mem hmem))]
          exact (hrecalls.value (k, v) hmem).symm
      · intro j k v d d' hist' heq hd hd' hhist' e he hgone kept hkept
        obtain ⟨rfl, rfl⟩ := CacheEvent.call.inj heq
        cases hi.symm.trans hd
        cases hhist.symm.trans hhist'
        rw [List.getElem?_set_self hlt] at hd'
        cases hd'
        rw [hexist hindexed.toSameKeys] at he
        rw [hexist hindexed'.toSameKeys, habs] at hkept
        have hgone' : e ∉ (c.abs.put k v).items.map Prod.fst := by
          intro hmem
          rw [(hexist hindexed'.toSameKeys e).2 (habs ▸ hmem)] at hgone
          cases hgone
        exact LruCache.evicted_oldest hrecalls he hgone' hkept

/-- **Every cache is right exactly where the steps fit**: the map and the list hold the same keys,
each once and at most `maxSize` of them, `Get` returns what was put last, and what is evicted was
used before all that stays. -/
theorem caches_exact (events : List (CacheEvent κ ν)) :
    (∀ done event rest, events = done ++ event :: rest →
      ∃ s s', (UnemployCoin.caches κ ν).exec [] done = some s ∧
        (UnemployCoin.caches κ ν).step s event = some s' ∧
        StepRight (callsAfter done) s event s') ↔
      (UnemployCoin.caches κ ν).Along Fits [] events := by
  refine Machine.passed_iff (H := fun past s => CachesGood (callsAfter past) s)
    (K := fun past s event s' => StepRight (callsAfter past) s event s')
    (fun past s event hgood => ?_) (fun past s event s' hgood hfits hs' => ?_) ?_
  · constructor
    · intro hfits
      obtain ⟨s', hs', -, hright⟩ := hgood.step hfits
      exact ⟨s', hs', hright⟩
    · rintro ⟨s', hs', hright⟩
      cases event with
      | construct maxSize => trivial
      | copy i => trivial
      | call i call =>
        intro c hc
        rw [UnemployCoin.caches] at hs'
        dsimp only at hs'
        rw [hc] at hs'
        obtain ⟨c', hc', rfl⟩ := Option.map_eq_some_iff.1 hs'
        constructor
        · by_contra hnot
          rw [CLRUCache.perform_eq_none hnot] at hc'
          cases hc'
        · rintro n rfl
          cases hc'
          have hlt := (List.getElem?_eq_some_iff.1 hc).1
          exact (hright.caches _ (List.mem_set hlt _)).2
  · obtain ⟨t, ht, hgood', -⟩ := hgood.step hfits
    cases hs'.symm.trans ht
    rw [callsAfter, List.foldl_append]
    exact hgood'
  · exact ⟨rfl, nofun, nofun, nofun⟩

end Programs

def shrinkingRun : List (CacheEvent Bytes Bytes) :=
  [.construct 2, .call 0 (.put [1] [10]), .call 0 (.put [2] [20]), .call 0 (.setSize 1)]

/-- **`SetSize` evicts nothing.** -/
theorem shrinkingRun_overfull :
    ¬∀ (events done rest : List (CacheEvent Bytes Bytes)) (event : CacheEvent Bytes Bytes),
      events = done ++ event :: rest →
      ∃ s s', (caches Bytes Bytes).exec [] done = some s ∧
        (caches Bytes Bytes).step s event = some s' ∧ StepRight (callsAfter done) s event s' := by
  intro h
  obtain ⟨s, s', hs, hs', hright⟩ := h shrinkingRun
    [.construct 2, .call 0 (.put [1] [10]), .call 0 (.put [2] [20])] [] (.call 0 (.setSize 1)) rfl
  have hexec : (caches Bytes Bytes).exec [] shrinkingRun = some s' := by
    show (caches Bytes Bytes).exec []
      ([.construct 2, .call 0 (.put [1] [10]), .call 0 (.put [2] [20])] ++ [.call 0 (.setSize 1)]) =
        some s'
    exact Machine.exec_append.2 ⟨s, hs, Machine.exec_cons.2 ⟨s', hs', rfl⟩⟩
  have hsizes : ((caches Bytes Bytes).exec [] shrinkingRun).map
      (fun s => s.map fun c => (c.size, c.maxSize)) = some [(2, 1)] := by decide +kernel
  rw [hexec, Option.map_some, Option.some.injEq] at hsizes
  obtain ⟨c, rest, rfl, hc, -⟩ := List.map_eq_cons_iff.1 hsizes
  have hle := (hright.caches c (List.mem_cons_self ..)).2
  rw [(Prod.mk.inj hc).1, (Prod.mk.inj hc).2] at hle
  exact absurd hle (by decide)

/-- A look at a copied key uses an iterator of the cache that was copied. -/
example : (caches Bytes Bytes).exec []
    [.construct 2, .call 0 (.put [1] [10]), .copy 0, .call 1 (.get [1])] = none := by
  decide +kernel

end UnemployCoin
