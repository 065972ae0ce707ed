import Mathlib.Data.List.Basic
import Mathlib.Data.List.TakeWhile
import Mathlib.Order.Basic
import Mathlib.Tactic.Common
/-!
# Tables in the order of their keys

The keys are strings of symbols, in dictionary order, as in a table on disk.  A scan seeks the first
key that is not below a given one and goes on while a test holds.
-/

structure SortedTable (β ν : Type*) [LT β] where
  records : List (List β × ν)
  sorted : records.Pairwise fun r r' => r.1 < r'.1

namespace SortedTable

/-! ## Lists -/

section Lists

variable {α : Type*} {l : List α} {test block go keep wanted : α → Bool}

theorem takeWhile_eq_filter (h : l.Pairwise fun a b => test b = true → test a = true) :
    l.takeWhile test = l.filter test := by
  induction l with
  | nil => rfl
  | cons a l ih =>
    rw [List.pairwise_cons] at h
    cases ha : test a with
    | true => rw [List.takeWhile_cons_of_pos ha, List.filter_cons_of_pos ha, ih h.2]
    | false =>
      have hnone : l.filter test = [] :=
        List.filter_eq_nil_iff.2 fun b hb hb' => by simp [h.1 b hb hb'] at ha
      rw [List.takeWhile_cons_of_neg (by simp [ha]), List.filter_cons_of_neg (by simp [ha]), hnone]

theorem dropWhile_eq_filter (h : l.Pairwise fun a b => test b = true → test a = true) :
    l.dropWhile test = l.filter fun a => !test a := by
  induction l with
  | nil => rfl
  | cons a l ih =>
    rw [List.pairwise_cons] at h
    cases ha : test a with
    | true =>
      rw [List.dropWhile_cons_of_pos ha, List.filter_cons_of_neg (by simp [ha]), ih h.2]
    | false =>
      have hall : l.filter (fun a => !test a) = l :=
        List.filter_eq_self.2 fun b hb => by
          cases hb' : test b with
          | false => rfl
          | true => simp [h.1 b hb hb'] at ha
      rw [List.dropWhile_cons_of_neg (by simp [ha]), List.filter_cons_of_pos (by simp [ha]), hall]

theorem takeWhile_congr {p q : α → Bool} (h : ∀ a ∈ l, p a = q a) :
    l.takeWhile p = l.takeWhile q ∧ l.dropWhile p = l.dropWhile q := by
  induction l with
  | nil => exact ⟨rfl, rfl⟩
  | cons a l ih =>
    rw [List.forall_mem_cons] at h
    obtain ⟨htake, hdrop⟩ := ih h.2
    rw [List.takeWhile_cons, List.takeWhile_cons, List.dropWhile_cons, List.dropWhile_cons, h.1,
      htake, hdrop]
    exact ⟨rfl, rfl⟩

theorem takeWhile_eq_nil_iff_head? :
    l.takeWhile go = [] ↔ ∀ a, l.head? = some a → go a = false := by
  cases l with
  | nil => simp
  | cons a l =>
    cases h : go a with
    | true => simp [h]
    | false => simp [h]

theorem filter_takeWhile_eq_iff (hkeep : ∀ a ∈ l, wanted a = true → keep a = true) :
    (l.takeWhile go).filter keep = l.filter wanted ↔
      (∀ a ∈ l.takeWhile go, keep a = true → wanted a = true) ∧
      ∀ a ∈ l.dropWhile go, wanted a = false := by
  have hsplit : l.filter wanted =
      (l.takeWhile go).filter wanted ++ (l.dropWhile go).filter wanted := by
    rw [← List.filter_append, List.takeWhile_append_dropWhile]
  have hsame (h : ∀ a ∈ l.takeWhile go, keep a = true → wanted a = true) :
      (l.takeWhile go).filter keep = (l.takeWhile go).filter wanted := by
    refine List.filter_congr fun a ha => ?_
    have hmem := (List.takeWhile_prefix go).subset ha
    exact Bool.eq_iff_iff.2 ⟨h a ha, hkeep a hmem⟩
  constructor
  · intro h
    have htaken : ∀ a ∈ l.takeWhile go, keep a = true → wanted a = true := by
      intro a ha hk
      have hmem : a ∈ l.filter wanted := h ▸ List.mem_filter.2 ⟨ha, hk⟩
      exact (List.mem_filter.1 hmem).2
    refine ⟨htaken, fun a ha => ?_⟩
    rw [hsplit, hsame htaken] at h
    have hnone := List.self_eq_append_right.1 h
    simpa using List.filter_eq_nil_iff.1 hnone a ha
  · rintro ⟨htaken, hleft⟩
    have hnone : (l.dropWhile go).filter wanted = [] :=
      List.filter_eq_nil_iff.2 fun a ha => by simp [hleft a ha]
    rw [hsplit, hsame htaken, hnone, List.append_nil]

/-- **When a scan is exact.**  All that is wanted stands in a block at the front.  The entries of
the block that the scan takes are wanted, those that it leaves are not, and it keeps nothing from
behind the block. -/
theorem scan_eq_filter_iff (hblock : l.Pairwise fun a b => block b = true → block a = true)
    (hwanted : ∀ a ∈ l, wanted a = true → block a = true ∧ keep a = true) :
    (l.takeWhile go).filter keep = l.filter wanted ↔
      (∀ a ∈ (l.filter block).takeWhile go, keep a = true → wanted a = true) ∧
      (∀ a ∈ (l.filter block).dropWhile go, wanted a = false) ∧
      ((∀ a ∈ l.filter block, go a = true) →
        ∀ a ∈ (l.filter fun a => !block a).takeWhile go, keep a = false) := by
  have hl : l.filter block ++ l.filter (fun a => !block a) = l := by
    rw [← takeWhile_eq_filter hblock, ← dropWhile_eq_filter hblock,
      List.takeWhile_append_dropWhile]
  have hbehind : ∀ a ∈ l.filter (fun a => !block a), wanted a = false := by
    intro a ha
    rw [List.mem_filter] at ha
    cases hw : wanted a with
    | false => rfl
    | true => simp [(hwanted a ha.1 hw).1] at ha
  rw [filter_takeWhile_eq_iff fun a ha hw => (hwanted a ha hw).2]
  by_cases hall : ∀ a ∈ l.filter block, go a = true
  · -- The scan takes the whole block, and what it takes behind it is not wanted.
    have hscan : l.takeWhile go = l.filter block ++ (l.filter fun a => !block a).takeWhile go := by
      conv_lhs => rw [← hl, List.takeWhile_append_of_pos hall]
    have hleft : l.dropWhile go = (l.filter fun a => !block a).dropWhile go := by
      conv_lhs => rw [← hl, List.dropWhile_append_of_pos hall]
    rw [hscan, hleft, List.takeWhile_eq_self_iff.2 hall, List.dropWhile_eq_nil_iff.2 hall]
    constructor
    · rintro ⟨htaken, -⟩
      refine ⟨fun a ha => htaken a (List.mem_append_left _ ha), by simp, fun _ a ha => ?_⟩
      by_contra hk
      have hfalse := hbehind a ((List.takeWhile_prefix go).subset ha)
      rw [htaken a (List.mem_append_right _ ha) (by simpa using hk)] at hfalse
      cases hfalse
    · rintro ⟨htaken, -, hend⟩
      refine ⟨fun a ha hk => ?_, fun a ha => hbehind a ((List.dropWhile_suffix go).subset ha)⟩
      obtain ha | ha := List.mem_append.1 ha
      · exact htaken a ha hk
      · rw [hend hall a ha] at hk
        cases hk
  · -- The scan ends within the block.
    have hlen : ¬ ((l.filter block).takeWhile go).length = (l.filter block).length := by
      intro hlen
      have hself := (List.takeWhile_prefix go).eq_of_length hlen
      exact hall (List.takeWhile_eq_self_iff.1 hself)
    have hscan : l.takeWhile go = (l.filter block).takeWhile go := by
      conv_lhs => rw [← hl, List.takeWhile_append, if_neg hlen]
    have hleft : l.dropWhile go =
        (l.filter block).dropWhile go ++ l.filter (fun a => !block a) := by
      conv_lhs => rw [← hl, List.dropWhile_append, if_neg (by simpa using hall)]
    rw [hscan, hleft]
    constructor
    · rintro ⟨htaken, hrest⟩
      exact ⟨htaken, fun a ha => hrest a (List.mem_append_left _ ha), fun h => absurd h hall⟩
    · rintro ⟨htaken, hrest, -⟩
      refine ⟨htaken, fun a ha => ?_⟩
      exact (List.mem_append.1 ha).elim (hrest a) (hbehind a)

end Lists

/-! ## The order of keys -/

section Order

variable {β : Type*} [LT β] [LE β] [Std.IsLinearOrder β] [Std.LawfulOrderLT β]
  {p q x y z : List β}

/-- **Between strings with a prefix, all have it.** -/
theorem isPrefix_of_between (hpx : p ≤ x) (hxy : x ≤ y) (hpy : p <+: y) : p <+: x := by
  induction p generalizing x y with
  | nil => exact List.nil_prefix
  | cons a p ih =>
    obtain ⟨s, rfl⟩ := hpy
    cases x with
    | nil => exact absurd hpx (by simp)
    | cons b x =>
      rw [List.cons_append, List.cons_le_cons_iff] at hxy
      rw [List.cons_le_cons_iff] at hpx
      obtain hab | ⟨rfl, hpx⟩ := hpx
      · obtain hba | ⟨rfl, -⟩ := hxy
        · exact absurd hba (Std.Asymm.asymm _ _ hab)
        · exact absurd hab (Std.Irrefl.irrefl _)
      · obtain hba | ⟨-, hxy⟩ := hxy
        · exact absurd hba (Std.Irrefl.irrefl _)
        · exact List.cons_prefix_cons.2 ⟨rfl, ih hpx hxy (List.prefix_append p s)⟩

theorem append_le_append_iff (p : List β) : p ++ x ≤ p ++ y ↔ x ≤ y := by
  induction p with
  | nil => rfl
  | cons a p ih =>
    rw [List.cons_append, List.cons_append, List.cons_le_cons_iff, ih]
    exact ⟨fun h => h.elim (fun h => absurd h (Std.Irrefl.irrefl _)) And.right,
      fun h => Or.inr ⟨rfl, h⟩⟩

theorem le_append_iff (h : x.length = y.length) (z : List β) : x ≤ y ++ z ↔ x ≤ y := by
  induction x generalizing y with
  | nil =>
    obtain rfl := List.length_eq_zero_iff.1 h.symm
    simp
  | cons a x ih =>
    cases y with
    | nil => cases h
    | cons b y =>
      rw [List.cons_append, List.cons_le_cons_iff, List.cons_le_cons_iff,
        ih (Nat.succ.inj h)]

omit [LE β] [Std.IsLinearOrder β] [Std.LawfulOrderLT β] in
theorem append_lt_append (h : x.length = y.length) (hlt : x < y) (s t : List β) :
    x ++ s < y ++ t := by
  induction x generalizing y with
  | nil =>
    obtain rfl := List.length_eq_zero_iff.1 h.symm
    exact absurd hlt (List.not_lt_nil _)
  | cons a x ih =>
    cases y with
    | nil => cases h
    | cons b y =>
      rw [List.cons_lt_cons_iff] at hlt
      rw [List.cons_append, List.cons_append, List.cons_lt_cons_iff]
      exact hlt.imp_right fun hxy => ⟨hxy.1, ih (Nat.succ.inj h) hxy.2⟩

omit [LT β] [LE β] [Std.IsLinearOrder β] [Std.LawfulOrderLT β] in
theorem append_isPrefix_append_iff (h : p.length = q.length) :
    p ++ x <+: q ++ y ↔ p = q ∧ x <+: y := by
  constructor
  · rintro ⟨s, hs⟩
    rw [List.append_assoc] at hs
    obtain ⟨rfl, hy⟩ := List.append_inj hs h
    exact ⟨rfl, s, hy⟩
  · rintro ⟨rfl, s, rfl⟩
    exact ⟨s, List.append_assoc _ _ _⟩

end Order

/-! ## Operations -/

section Operations

variable {β ν : Type*} [LT β] [DecidableEq β] [DecidableLT β] [LE β] [Std.IsLinearOrder β]
  [Std.LawfulOrderLT β] (t : SortedTable β ν) (k : List β)

omit [LE β] [Std.IsLinearOrder β] [Std.LawfulOrderLT β] in
def seek : List (List β × ν) := t.records.dropWhile fun r => decide (r.1 < k)

theorem seek_eq_filter : t.seek k = t.records.filter fun r => decide (k ≤ r.1) := by
  unfold seek
  rw [dropWhile_eq_filter]
  · refine List.filter_congr fun r _ => ?_
    rw [← decide_not]
    exact decide_eq_decide.2 List.not_lt
  · refine t.sorted.imp fun {r r'} hlt hr' => ?_
    exact decide_eq_true (List.lt_trans hlt (of_decide_eq_true hr'))

def insertRecord (v : ν) : List (List β × ν) → List (List β × ν)
  | [] => [(k, v)]
  | r :: rs =>
    if k < r.1 then (k, v) :: r :: rs
    else if k = r.1 then (k, v) :: rs
    else r :: insertRecord v rs

omit [LE β] [Std.IsLinearOrder β] [Std.LawfulOrderLT β] in
theorem mem_insertRecord {v : ν} {rs : List (List β × ν)} {r : List β × ν}
    (h : r ∈ insertRecord k v rs) : r = (k, v) ∨ r ∈ rs := by
  induction rs with
  | nil => exact Or.inl (List.mem_singleton.1 h)
  | cons r' rs ih =>
    unfold insertRecord at h
    split at h
    · exact List.mem_cons.1 h
    · split at h
      · exact (List.mem_cons.1 h).imp_right (List.mem_cons_of_mem _)
      · obtain rfl | h := List.mem_cons.1 h
        · exact Or.inr List.mem_cons_self
        · exact (ih h).imp_right (List.mem_cons_of_mem _)

theorem sorted_insertRecord {v : ν} {rs : List (List β × ν)}
    (h : rs.Pairwise fun r r' => r.1 < r'.1) :
    (insertRecord k v rs).Pairwise fun r r' => r.1 < r'.1 := by
  induction rs with
  | nil => exact List.pairwise_singleton _ _
  | cons r rs ih =>
    obtain ⟨hfirst, hrest⟩ := List.pairwise_cons.1 h
    unfold insertRecord
    split
    · rename_i hlt
      refine List.pairwise_cons.2 ⟨fun r' hr' => ?_, h⟩
      obtain rfl | hr' := List.mem_cons.1 hr'
      · exact hlt
      · exact List.lt_trans hlt (hfirst r' hr')
    · split
      · rename_i heq
        exact List.pairwise_cons.2 ⟨fun r' hr' => heq ▸ hfirst r' hr', hrest⟩
      · rename_i hle hne
        refine List.pairwise_cons.2 ⟨fun r' hr' => ?_, ih hrest⟩
        obtain rfl | hr' := mem_insertRecord k hr'
        · exact Std.lt_of_le_of_ne (List.not_lt.1 hle) (Ne.symm hne)
        · exact hfirst r' hr'

def put (v : ν) : SortedTable β ν where
  records := insertRecord k v t.records
  sorted := sorted_insertRecord k t.sorted

end Operations

end SortedTable
