import Mathlib.Algebra.Order.Ring.Int
import Mathlib.Data.List.Basic
import Mathlib.Tactic.Common
/-!
# Cutting a string at its top level

A string of symbols some of which open and close brackets is cut at the separators that stand
outside all brackets.  Brackets need not be of one kind, nor close in order: only their number
counts, and it has to come out even.
-/

namespace Nesting

variable {τ : Type*}

/-- What a symbol does.  The last three are told apart outside brackets only. -/
inductive Kind where
  | opens
  | closes
  | keeps
  | separates
  | fails
  deriving DecidableEq

def Kind.weight : Kind → ℤ
  | .opens => 1
  | .closes => -1
  | .keeps | .separates | .fails => 0

def depth (kind : τ → Kind) (s : List τ) : ℤ := (s.map fun c => (kind c).weight).sum

@[simp]
def prepend (cur : List τ) : List (List τ) → List (List τ)
  | [] => [cur]
  | p :: ps => (cur ++ p) :: ps

/-- The parts between the separators outside brackets, from a depth on. -/
@[simp]
def parts (kind : τ → Kind) : ℤ → List τ → Option (List (List τ))
  | d, [] => if d = 0 then some [[]] else none
  | d, c :: s =>
    if d = 0 ∧ kind c = .separates then (parts kind d s).map ([] :: ·)
    else if d = 0 ∧ kind c = .fails then none
    else (parts kind (d + (kind c).weight) s).map (prepend [c])

def joined (sep : τ) : List (List τ) → List τ
  | [] => []
  | [p] => p
  | p :: q :: ps => p ++ sep :: joined sep (q :: ps)

variable {kind kind' : τ → Kind} {d : ℤ} {s : List τ} {ps : List (List τ)}

theorem prepend_prepend (cur cur' : List τ) (ps : List (List τ)) :
    prepend cur (prepend cur' ps) = prepend (cur ++ cur') ps := by
  cases ps with
  | nil => rfl
  | cons p ps => rw [prepend, prepend, prepend, List.append_assoc]

theorem prepend_nil (h : ps ≠ []) : prepend [] ps = ps := by
  cases ps with
  | nil => exact absurd rfl h
  | cons p ps => rfl

/-- **What a symbol does to the parts.** -/
theorem parts_cons {c : τ} (h : parts kind d (c :: s) = some ps) :
    (d = 0 ∧ kind c = .separates ∧ ∃ qs, parts kind d s = some qs ∧ ps = [] :: qs) ∨
      (¬(d = 0 ∧ kind c = .separates) ∧ ¬(d = 0 ∧ kind c = .fails) ∧
        ∃ qs, parts kind (d + (kind c).weight) s = some qs ∧ ps = prepend [c] qs) := by
  rw [parts] at h
  split at h
  · rename_i hsep
    obtain ⟨qs, hqs, rfl⟩ := Option.map_eq_some_iff.1 h
    exact .inl ⟨hsep.1, hsep.2, qs, hqs, rfl⟩
  rename_i hsep
  split at h
  · cases h
  · rename_i hfails
    obtain ⟨qs, hqs, rfl⟩ := Option.map_eq_some_iff.1 h
    exact .inr ⟨hsep, hfails, qs, hqs, rfl⟩

theorem parts_ne_nil (h : parts kind d s = some ps) : ps ≠ [] := by
  cases s with
  | nil =>
    rw [parts] at h
    split at h
    · rw [← Option.some.inj h]
      exact List.cons_ne_nil _ _
    · cases h
  | cons c s =>
    rcases parts_cons h with ⟨-, -, qs, -, rfl⟩ | ⟨-, -, qs, -, rfl⟩
    · exact List.cons_ne_nil _ _
    · cases qs <;> exact List.cons_ne_nil _ _

theorem depth_of_parts (h : parts kind d s = some ps) : d + depth kind s = 0 := by
  induction s generalizing d ps with
  | nil =>
    rw [parts] at h
    split at h
    · rename_i hd
      rw [hd]
      rfl
    · cases h
  | cons c s ih =>
    rw [depth, List.map_cons, List.sum_cons]
    rcases parts_cons h with ⟨-, hsep, qs, hqs, -⟩ | ⟨-, -, qs, hqs, -⟩
    · rw [hsep, Kind.weight, zero_add]
      exact ih hqs
    · rw [← add_assoc]
      exact ih hqs

/-- **The parts with the separators between them are the string.** -/
theorem parts_joined {sep : τ} (hsep : ∀ c, kind c = .separates → c = sep)
    (h : parts kind d s = some ps) : joined sep ps = s := by
  induction s generalizing d ps with
  | nil =>
    rw [parts] at h
    split at h
    · rw [← Option.some.inj h]
      rfl
    · cases h
  | cons c s ih =>
    rcases parts_cons h with ⟨-, hc, qs, hqs, rfl⟩ | ⟨-, -, qs, hqs, rfl⟩
    · have hs := ih hqs
      have hne := parts_ne_nil hqs
      rw [hsep c hc]
      cases qs with
      | nil => exact absurd rfl hne
      | cons q qs => rw [joined, hs, List.nil_append]
    · have hs := ih hqs
      have hne := parts_ne_nil hqs
      match qs with
      | [] => exact absurd rfl hne
      | [q] => rw [prepend, joined, ← hs, joined, List.singleton_append]
      | q :: r :: rs => rw [prepend, joined, ← hs, joined, List.singleton_append, List.cons_append]

/-! ## Parts of parts -/

def Whole (kind : τ → Kind) (d : ℤ) (s : List τ) : Prop := parts kind d s = some [s]

theorem whole_nil : Whole kind 0 [] := by
  rw [Whole, parts, if_pos rfl]

theorem Whole.cons {c : τ} (h : Whole kind (d + (kind c).weight) s)
    (hsep : ¬(d = 0 ∧ kind c = .separates)) (hfails : ¬(d = 0 ∧ kind c = .fails)) :
    Whole kind d (c :: s) := by
  rw [Whole] at h
  rw [Whole, parts, if_neg hsep, if_neg hfails, h]
  rfl

theorem Whole.of_cons {c : τ} (h : Whole kind d (c :: s)) :
    ¬(d = 0 ∧ kind c = .separates) ∧ ¬(d = 0 ∧ kind c = .fails) ∧
      Whole kind (d + (kind c).weight) s := by
  rcases parts_cons h with ⟨-, -, qs, -, heq⟩ | ⟨hsep, hfails, qs, hqs, heq⟩
  · cases List.head_eq_of_cons_eq heq
  · refine ⟨hsep, hfails, ?_⟩
    cases qs with
    | nil => exact absurd rfl (parts_ne_nil hqs)
    | cons q qs =>
      obtain ⟨hq, hrest⟩ := List.cons.inj heq
      have hs : s = q := (List.cons.inj hq).2
      rw [Whole, hqs, ← hrest, ← hs]

/-- **A part cannot be cut once more.** -/
theorem whole_of_parts {p : List τ} (h : parts kind d s = some (p :: ps)) :
    Whole kind d p ∧ ∀ q ∈ ps, Whole kind 0 q := by
  induction s generalizing d p ps with
  | nil =>
    rw [parts] at h
    split at h
    · rename_i hd
      obtain ⟨rfl, rfl⟩ := List.cons.inj (Option.some.inj h)
      rw [hd]
      exact ⟨whole_nil, fun q hq => absurd hq List.not_mem_nil⟩
    · cases h
  | cons c s ih =>
    rcases parts_cons h with ⟨hd, -, qs, hqs, heq⟩ | ⟨hsep, hfails, qs, hqs, heq⟩
    · obtain ⟨rfl, rfl⟩ := List.cons.inj heq
      cases ps with
      | nil => exact absurd rfl (parts_ne_nil hqs)
      | cons q ps =>
        obtain ⟨hq, hps⟩ := ih hqs
        subst hd
        refine ⟨whole_nil, fun r hr => ?_⟩
        rcases List.mem_cons.1 hr with rfl | hmem
        · exact hq
        · exact hps r hmem
    · cases qs with
      | nil => exact absurd rfl (parts_ne_nil hqs)
      | cons q qs =>
        obtain ⟨rfl, rfl⟩ := List.cons.inj heq
        obtain ⟨hq, hps⟩ := ih hqs
        exact ⟨hq.cons hsep hfails, hps⟩

/-- **What another kind of separator does not cut, it does not cut in a part either.** -/
theorem Whole.of_parts {p : List τ} (hwhole : Whole kind' d s)
    (hweight : ∀ c, (kind' c).weight = (kind c).weight) (h : parts kind d s = some (p :: ps)) :
    Whole kind' d p ∧ ∀ q ∈ ps, Whole kind' 0 q := by
  induction s generalizing d p ps with
  | nil =>
    rw [parts] at h
    split at h
    · rename_i hd
      obtain ⟨rfl, rfl⟩ := List.cons.inj (Option.some.inj h)
      rw [hd]
      exact ⟨whole_nil, fun q hq => absurd hq List.not_mem_nil⟩
    · cases h
  | cons c s ih =>
    obtain ⟨hsep', hfails', hs⟩ := hwhole.of_cons
    rcases parts_cons h with ⟨hd, hc, qs, hqs, heq⟩ | ⟨-, -, qs, hqs, heq⟩
    · obtain ⟨rfl, rfl⟩ := List.cons.inj heq
      rw [hweight, hc, Kind.weight, add_zero] at hs
      cases ps with
      | nil => exact absurd rfl (parts_ne_nil hqs)
      | cons q ps =>
        obtain ⟨hq, hps⟩ := ih hs hqs
        subst hd
        refine ⟨whole_nil, fun r hr => ?_⟩
        rcases List.mem_cons.1 hr with rfl | hmem
        · exact hq
        · exact hps r hmem
    · cases qs with
      | nil => exact absurd rfl (parts_ne_nil hqs)
      | cons q qs =>
        obtain ⟨rfl, rfl⟩ := List.cons.inj heq
        rw [hweight] at hs
        obtain ⟨hq, hps⟩ := ih hs hqs
        rw [← hweight] at hq
        exact ⟨hq.cons hsep' hfails', hps⟩

theorem subset_joined {sep : τ} {p : List τ} (h : p ∈ ps) : p ⊆ joined sep ps := by
  induction ps with
  | nil => cases h
  | cons q ps ih =>
    cases ps with
    | nil =>
      rw [List.mem_singleton.1 h]
      exact List.Subset.refl _
    | cons r ps =>
      rw [joined]
      rcases List.mem_cons.1 h with rfl | hmem
      · exact List.subset_append_left ..
      · exact fun c hc => List.mem_append_right _ (List.mem_cons_of_mem _ (ih hmem hc))

theorem length_joined {sep : τ} {p : List τ} (h : p ∈ ps) :
    p.length + ps.length ≤ (joined sep ps).length + 1 := by
  induction ps generalizing p with
  | nil => cases h
  | cons q ps ih =>
    cases ps with
    | nil =>
      have hsame : p.length + [q].length = (joined sep [q]).length + 1 := by
        rw [List.mem_singleton.1 h, joined, List.length_singleton]
      exact Nat.le_of_eq hsame
    | cons r ps =>
      have hlength : (joined sep (q :: r :: ps)).length =
          q.length + ((joined sep (r :: ps)).length + 1) := by
        rw [joined, List.length_append, List.length_cons]
      rw [hlength, List.length_cons]
      rcases List.mem_cons.1 h with rfl | hmem
      · have hr := ih (List.mem_cons_self ..)
        have : 0 ≤ r.length := Nat.zero_le _
        omega
      · have hp := ih hmem
        omega

/-- **Of several parts each is shorter than the string.** -/
theorem length_lt_of_parts {sep : τ} {p : List τ} (hsep : ∀ c, kind c = .separates → c = sep)
    (h : parts kind d s = some ps) (hmany : ps.length ≠ 1) (hp : p ∈ ps) :
    p.length < s.length := by
  have hlength := @length_joined _ _ sep _ hp
  have hne : 0 < ps.length := List.length_pos_of_mem hp
  rw [parts_joined hsep h] at hlength
  omega

theorem eq_of_parts_singleton {sep : τ} {p : List τ} (hsep : ∀ c, kind c = .separates → c = sep)
    (h : parts kind d s = some [p]) : p = s := parts_joined hsep h

end Nesting
