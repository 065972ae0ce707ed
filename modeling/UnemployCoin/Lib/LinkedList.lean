import Mathlib.Data.List.Basic
import Mathlib.Data.List.Perm.Basic
import Mathlib.Data.List.Nodup
import Mathlib.Tactic.Common
/-!
# Lists with iterators

`std::list` over any type.  An iterator is the address of a node, and stays valid until that node is
erased: addresses are handed out once, so **no iterator of an erased node reads another one**.
-/

/-- `std::list<α>`: the nodes in order, each with its address. -/
@[ext]
structure LinkedList (α : Type*) where
  nodes : List (ℕ × α)
  /-- The address of the next node that is made. -/
  next : ℕ
  nodup : (nodes.map Prod.fst).Nodup
  fresh : ∀ node ∈ nodes, node.1 < next

namespace LinkedList

variable {α : Type*} {l : LinkedList α} {it it' : ℕ} {x y : α}

instance : EmptyCollection (LinkedList α) := ⟨⟨[], 0, List.nodup_nil, by simp⟩⟩

instance : Inhabited (LinkedList α) := ⟨∅⟩

/-- The values from `begin()` to `end()`. -/
def values (l : LinkedList α) : List α := l.nodes.map Prod.snd

/-- `begin()`, unless that is `end()`. -/
def begin? (l : LinkedList α) : Option ℕ := l.nodes.head?.map Prod.fst

/-- `*it`, where the iterator is valid. -/
def deref (l : LinkedList α) (it : ℕ) : Option α :=
  (l.nodes.find? fun node => decide (node.1 = it)).map Prod.snd

/-- `insert(end(), x)`; the iterator that it returns is `l.next`. -/
def pushBack (l : LinkedList α) (x : α) : LinkedList α where
  nodes := l.nodes ++ [(l.next, x)]
  next := l.next + 1
  nodup := by
    rw [List.map_append, List.nodup_append]
    refine ⟨l.nodup, List.nodup_singleton _, ?_⟩
    intro a ha b hb heq
    obtain ⟨node, hnode, rfl⟩ := List.mem_map.1 ha
    have hlt := l.fresh node hnode
    simp only [List.map_cons, List.map_nil, List.mem_singleton] at hb
    omega
  fresh := by
    intro node hnode
    rcases List.mem_append.1 hnode with hmem | hmem
    · have hlt := l.fresh node hmem
      omega
    · rw [List.mem_singleton.1 hmem]
      exact Nat.lt_succ_self _

/-- `erase(it)`. -/
def erase (l : LinkedList α) (it : ℕ) : LinkedList α where
  nodes := l.nodes.filter fun node => decide (node.1 ≠ it)
  next := l.next
  nodup := l.nodup.sublist (List.filter_sublist.map _)
  fresh := fun node hnode => l.fresh node (List.mem_of_mem_filter hnode)

/-- `push_front(x)`; `begin()` is `l.next` then. -/
def pushFront (l : LinkedList α) (x : α) : LinkedList α where
  nodes := (l.next, x) :: l.nodes
  next := l.next + 1
  nodup := by
    rw [List.map_cons, List.nodup_cons]
    refine ⟨fun hmem => ?_, l.nodup⟩
    obtain ⟨node, hnode, heq⟩ := List.mem_map.1 hmem
    exact absurd heq (Nat.ne_of_lt (l.fresh node hnode))
  fresh := by
    intro node hnode
    rcases List.mem_cons.1 hnode with rfl | hmem
    · exact Nat.lt_succ_self _
    · exact Nat.lt_succ_of_lt (l.fresh node hmem)

/-- `splice(begin(), l, it)`, where the iterator is valid. -/
def toFront (l : LinkedList α) (it : ℕ) : LinkedList α where
  nodes := l.nodes.filter (fun node => decide (node.1 = it)) ++ (l.erase it).nodes
  next := l.next
  nodup := by
    have hperm : (l.nodes.filter (fun node => decide (node.1 = it)) ++ (l.erase it).nodes).Perm
        l.nodes := by
      have := List.filter_append_perm (fun node : ℕ × α => decide (node.1 = it)) l.nodes
      simpa only [erase, ne_eq, decide_not] using this
    exact (hperm.map Prod.fst).nodup_iff.2 l.nodup
  fresh := by
    intro node hnode
    rcases List.mem_append.1 hnode with hmem | hmem
    · exact l.fresh node (List.mem_of_mem_filter hmem)
    · exact (l.erase it).fresh node hmem

/-- `pop_back()`. -/
def popBack (l : LinkedList α) : LinkedList α where
  nodes := l.nodes.dropLast
  next := l.next
  nodup := l.nodup.sublist ((List.dropLast_sublist _).map _)
  fresh := fun node hnode => l.fresh node ((List.dropLast_sublist _).subset hnode)

def copy (l : LinkedList α) : LinkedList α where
  nodes := l.values.zipIdx.map Prod.swap
  next := l.values.length
  nodup := by
    have hmap : (l.values.zipIdx.map Prod.swap).map Prod.fst = l.values.zipIdx.map Prod.snd := by
      rw [List.map_map]
      rfl
    rw [hmap, List.zipIdx_map_snd]
    exact List.nodup_range'
  fresh := by
    intro node hnode
    obtain ⟨e, he, rfl⟩ := List.mem_map.1 hnode
    exact (List.mem_zipIdx' he).1

@[simp] theorem values_empty : (∅ : LinkedList α).values = [] := rfl

@[simp] theorem deref_empty : (∅ : LinkedList α).deref it = none := rfl

theorem deref_eq_some : l.deref it = some x ↔ (it, x) ∈ l.nodes := by
  unfold deref
  rw [Option.map_eq_some_iff]
  constructor
  · rintro ⟨node, hfind, rfl⟩
    have haddr : node.1 = it := by simpa using List.find?_some hfind
    rw [← haddr]
    exact List.mem_of_find?_eq_some hfind
  · intro hmem
    cases hfind : l.nodes.find? fun node => decide (node.1 = it) with
    | none =>
      have hnone := List.find?_eq_none.1 hfind _ hmem
      simp at hnone
    | some node =>
      have haddr : node.1 = it := by simpa using List.find?_some hfind
      have hnode := List.mem_of_find?_eq_some hfind
      have hsame := List.inj_on_of_nodup_map l.nodup hnode hmem haddr
      exact ⟨node, rfl, by rw [hsame]⟩

theorem mem_values : x ∈ l.values ↔ ∃ it, l.deref it = some x := by
  simp only [deref_eq_some, values, List.mem_map]
  constructor
  · rintro ⟨⟨it, y⟩, hmem, rfl⟩
    exact ⟨it, hmem⟩
  · rintro ⟨it, hmem⟩
    exact ⟨(it, x), hmem, rfl⟩

theorem lt_next (h : l.deref it = some x) : it < l.next := l.fresh _ (deref_eq_some.1 h)

theorem deref_pushBack :
    (l.pushBack x).deref it = if it = l.next then some x else l.deref it := by
  apply Option.ext
  intro y
  rw [deref_eq_some, pushBack, List.mem_append, List.mem_singleton, Prod.mk.injEq, ← deref_eq_some]
  split
  · rename_i hit
    have hnone : l.deref it ≠ some y := fun h => by
      have hlt := lt_next h
      omega
    simp [hit ▸ hnone, hit, eq_comm]
  · rename_i hit
    simp [hit]

theorem deref_erase : (l.erase it).deref it' = if it' = it then none else l.deref it' := by
  apply Option.ext
  intro y
  rw [deref_eq_some, erase, List.mem_filter, decide_eq_true_eq, ← deref_eq_some]
  split
  · rename_i hit
    simp [hit]
  · rename_i hit
    simp [hit]

theorem deref_pushFront :
    (l.pushFront x).deref it = if it = l.next then some x else l.deref it := by
  apply Option.ext
  intro y
  rw [deref_eq_some, pushFront, List.mem_cons, Prod.mk.injEq, ← deref_eq_some]
  split
  · rename_i hit
    have hnone : l.deref it ≠ some y := fun h => by
      have hlt := lt_next h
      omega
    simp [hit ▸ hnone, hit, eq_comm]
  · rename_i hit
    simp [hit]

theorem mem_toFront {node : ℕ × α} : node ∈ (l.toFront it).nodes ↔ node ∈ l.nodes := by
  rw [toFront, List.mem_append, List.mem_filter, erase, List.mem_filter, decide_eq_true_eq,
    decide_eq_true_eq, ← and_or_left, and_iff_left (em _)]

@[simp] theorem deref_toFront : (l.toFront it).deref it' = l.deref it' := by
  apply Option.ext
  intro y
  rw [deref_eq_some, deref_eq_some, mem_toFront]

theorem nodes_erase (h : l.deref it = some x) :
    ∃ pre post, l.nodes = pre ++ (it, x) :: post ∧ (l.erase it).nodes = pre ++ post := by
  obtain ⟨pre, post, hsplit⟩ := List.append_of_mem (deref_eq_some.1 h)
  have hnodup := l.nodup
  rw [hsplit, List.map_append, List.map_cons, List.nodup_append, List.nodup_cons] at hnodup
  obtain ⟨-, ⟨hpost, -⟩, hpre⟩ := hnodup
  have hkeep : ∀ nodes : List (ℕ × α), it ∉ nodes.map Prod.fst →
      nodes.filter (fun node => decide (node.1 ≠ it)) = nodes := by
    intro nodes hnot
    rw [List.filter_eq_self]
    intro node hnode
    rw [decide_eq_true_eq]
    rintro rfl
    exact hnot (List.mem_map_of_mem hnode)
  have hpre' : it ∉ pre.map Prod.fst := fun hin => hpre it hin it List.mem_cons_self rfl
  refine ⟨pre, post, hsplit, ?_⟩
  show l.nodes.filter (fun node => decide (node.1 ≠ it)) = pre ++ post
  rw [hsplit, List.filter_append, List.filter_cons_of_neg (by simp), hkeep pre hpre',
    hkeep post hpost]

theorem values_erase (h : l.deref it = some x) :
    ∃ pre post, l.values = pre ++ x :: post ∧ (l.erase it).values = pre ++ post := by
  obtain ⟨pre, post, hnodes, herase⟩ := nodes_erase h
  refine ⟨pre.map Prod.snd, post.map Prod.snd, ?_, ?_⟩
  · rw [values, hnodes, List.map_append, List.map_cons]
  · rw [values, herase, List.map_append]

theorem values_toFront (h : l.deref it = some x) :
    (l.toFront it).values = x :: (l.erase it).values := by
  have hone : l.nodes.filter (fun node => decide (node.1 = it)) = [(it, x)] := by
    obtain ⟨pre, post, hnodes, -⟩ := nodes_erase h
    have hnodup := l.nodup
    rw [hnodes, List.map_append, List.map_cons, List.nodup_append, List.nodup_cons] at hnodup
    obtain ⟨-, ⟨hpost, -⟩, hpre⟩ := hnodup
    have hdrop : ∀ nodes : List (ℕ × α), it ∉ nodes.map Prod.fst →
        nodes.filter (fun node => decide (node.1 = it)) = [] := by
      intro nodes hnot
      rw [List.filter_eq_nil_iff]
      intro node hnode
      rw [decide_eq_true_eq]
      rintro rfl
      exact hnot (List.mem_map_of_mem hnode)
    rw [hnodes, List.filter_append, hdrop pre fun hin => hpre it hin it List.mem_cons_self rfl,
      List.filter_cons_of_pos (by simp), hdrop post hpost, List.nil_append]
  rw [values, toFront]
  dsimp only
  rw [hone, List.map_append]
  rfl

theorem values_pushBack : (l.pushBack x).values = l.values ++ [x] := List.map_append

theorem values_pushFront : (l.pushFront x).values = x :: l.values := rfl

theorem values_popBack : l.popBack.values = l.values.dropLast := List.map_dropLast

theorem values_copy : l.copy.values = l.values := by
  rw [values, copy]
  dsimp only
  rw [List.map_map]
  exact List.zipIdx_map_fst 0 l.values

theorem deref_popBack {init : List α} (h : l.deref it = some x) (hlast : l.values = init ++ [y])
    (hne : x ≠ y) : l.popBack.deref it = some x := by
  rw [deref_eq_some] at h ⊢
  have hnil : l.nodes ≠ [] := List.ne_nil_of_mem h
  have hsplit := List.dropLast_concat_getLast hnil
  rw [← hsplit, List.mem_append, List.mem_singleton] at h
  rcases h with h | h
  · exact h
  · rw [values, ← hsplit, List.map_append, List.map_singleton, ← h] at hlast
    exact absurd (List.singleton_inj.1 (List.append_inj' hlast rfl).2) hne

theorem erase_pushFront (h : it ≠ l.next) :
    (l.pushFront x).erase it = (l.erase it).pushFront x := by
  apply LinkedList.ext
  · show ((l.next, x) :: l.nodes).filter (fun node => decide (node.1 ≠ it)) =
      (l.next, x) :: l.nodes.filter fun node => decide (node.1 ≠ it)
    exact List.filter_cons_of_pos (by simpa using h.symm)
  · rfl

/-- **Erasing takes out what the iterator pointed at**, once. -/
theorem perm_erase (h : l.deref it = some x) : l.values.Perm (x :: (l.erase it).values) := by
  obtain ⟨pre, post, hvalues, herase⟩ := values_erase h
  rw [hvalues, herase]
  exact List.perm_middle

end LinkedList
