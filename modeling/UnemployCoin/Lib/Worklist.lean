import Mathlib.Data.List.Dedup
import Mathlib.Data.List.Perm.Subperm
import Mathlib.Logic.Relation
/-!
# Work lists

A walk over a graph marks the first node of a stage, and stages the successors of it that are
neither marked nor staged yet.  It takes a bounded number of rounds, so what matters is that the
bound is never what stops it.
-/

namespace Worklist

variable {α : Type*} (next : α → List α)

def Closed (S : List α) : Prop := ∀ a ∈ S, ∀ b ∈ next a, b ∈ S

variable {next} in
theorem Closed.nil : Closed next [] := fun _ h => nomatch h

variable [DecidableEq α]

def walk : ℕ → List α → List α → List α
  | 0, _, marked => marked
  | _, [], marked => marked
  | n + 1, a :: stage, marked =>
    let marked := marked ++ [a]
    walk n ((stage ++ next a).dedup.filter fun b => !marked.contains b) marked

variable {next} {n : ℕ} {a b : α} {stage marked U : List α}

theorem mem_stage : b ∈ ((stage ++ next a).dedup.filter fun b => !(marked ++ [a]).contains b) ↔
    (b ∈ stage ∨ b ∈ next a) ∧ b ∉ marked ∧ b ≠ a := by
  rw [List.mem_filter, List.mem_dedup, List.mem_append]
  simp

theorem walk_subset (h : a ∈ marked) : a ∈ walk next n stage marked := by
  induction n generalizing stage marked with
  | zero =>
    rw [walk]
    exact h
  | succ n ih =>
    cases stage with
    | nil =>
      rw [walk]
      exact h
      all_goals exact Nat.succ_ne_zero n
    | cons b stage =>
      rw [walk]
      exact ih (List.mem_append_left _ h)

theorem walk_forall {P : α → Prop} (hnext : ∀ a, P a → ∀ b ∈ next a, P b)
    (hstage : ∀ a ∈ stage, P a) (hmarked : ∀ a ∈ marked, P a) :
    ∀ a ∈ walk next n stage marked, P a := by
  induction n generalizing stage marked with
  | zero =>
    rw [walk]
    exact hmarked
  | succ n ih =>
    cases stage with
    | nil =>
      rw [walk]
      exact hmarked
      all_goals exact Nat.succ_ne_zero n
    | cons a stage =>
      rw [List.forall_mem_cons] at hstage
      rw [walk]
      refine ih ?_ ?_
      · intro b hb
        rcases (mem_stage.1 hb).1 with hb | hb
        · exact hstage.2 b hb
        · exact hnext a hstage.1 b hb
      · intro b hb
        rcases List.mem_append.1 hb with hb | hb
        · exact hmarked b hb
        · rw [List.mem_singleton.1 hb]
          exact hstage.1

/-- **The walk ends with a closed set.**  All edges from what is marked lead to what is marked or
staged, and the rounds are enough for the nodes that are not marked. -/
theorem walk_closed (hU : ∀ a ∈ U, ∀ b ∈ next a, b ∈ U) (hstageU : ∀ a ∈ stage, a ∈ U)
    (hmarkedU : ∀ a ∈ marked, a ∈ U) (hfresh : ∀ a ∈ stage, a ∉ marked) (hnodup : marked.Nodup)
    (hedges : ∀ a ∈ marked, ∀ b ∈ next a, b ∈ marked ∨ b ∈ stage)
    (hrounds : U.length ≤ n + marked.length) :
    Closed next (walk next n stage marked) ∧ (∀ a ∈ stage, a ∈ walk next n stage marked) ∧
      (walk next n stage marked).Nodup := by
  induction n generalizing stage marked with
  | zero =>
    -- As many different nodes are marked as there are.
    have hall : ∀ a ∈ U, a ∈ marked := by
      have hperm := (List.subperm_of_subset hnodup hmarkedU).perm_of_length_le (by omega)
      exact fun a ha => hperm.mem_iff.2 ha
    rw [walk]
    exact ⟨fun a ha b hb => hall b (hU a (hmarkedU a ha) b hb),
      fun a ha => hall a (hstageU a ha), hnodup⟩
  | succ n ih =>
    cases stage with
    | nil =>
      have hwalk : walk next (n + 1) [] marked = marked := by
        rw [walk]
        exact Nat.succ_ne_zero n
      rw [hwalk]
      refine ⟨fun a ha b hb => ?_, fun a ha => (nomatch ha), hnodup⟩
      rcases hedges a ha b hb with hb | hb
      · exact hb
      · cases hb
    | cons a stage =>
      rw [List.forall_mem_cons] at hstageU hfresh
      have haU : a ∈ U := hstageU.1
      have hmarkedU' : ∀ b ∈ marked ++ [a], b ∈ U := by
        intro b hb
        rcases List.mem_append.1 hb with hb | hb
        · exact hmarkedU b hb
        · rw [List.mem_singleton.1 hb]
          exact haU
      have hstageU' : ∀ b ∈ (stage ++ next a).dedup.filter fun b => !(marked ++ [a]).contains b,
          b ∈ U := by
        intro b hb
        rcases (mem_stage.1 hb).1 with hb | hb
        · exact hstageU.2 b hb
        · exact hU a haU b hb
      have hfresh' : ∀ b ∈ (stage ++ next a).dedup.filter fun b => !(marked ++ [a]).contains b,
          b ∉ marked ++ [a] := by
        intro b hb
        rw [List.mem_append, List.mem_singleton, not_or]
        exact (mem_stage.1 hb).2
      have hnodup' : (marked ++ [a]).Nodup := by
        refine List.nodup_append.2 ⟨hnodup, List.nodup_singleton a, ?_⟩
        rintro b hb c hc rfl
        rw [List.mem_singleton.1 hc] at hb
        exact hfresh.1 hb
      have hedges' : ∀ b ∈ marked ++ [a], ∀ c ∈ next b, c ∈ marked ++ [a] ∨
          c ∈ (stage ++ next a).dedup.filter fun b => !(marked ++ [a]).contains b := by
        intro b hb c hc
        by_cases hmem : c ∈ marked ++ [a]
        · exact Or.inl hmem
        · refine Or.inr ?_
          have hnew := hmem
          rw [List.mem_append, List.mem_singleton, not_or] at hnew
          rcases List.mem_append.1 hb with hb | hb
          · rcases hedges b hb c hc with hc | hc
            · exact absurd hc hnew.1
            · rcases List.mem_cons.1 hc with rfl | hc
              · exact absurd rfl hnew.2
              · exact mem_stage.2 ⟨Or.inl hc, hnew⟩
          · rw [List.mem_singleton.1 hb] at hc
            exact mem_stage.2 ⟨Or.inr hc, hnew⟩
      have hrounds' : U.length ≤ n + (marked ++ [a]).length := by
        rw [List.length_append, List.length_singleton]
        omega
      obtain ⟨hclosed, hstaged, hnd⟩ := ih hstageU' hmarkedU' hfresh' hnodup' hedges' hrounds'
      rw [walk]
      refine ⟨hclosed, ?_, hnd⟩
      rw [List.forall_mem_cons]
      refine ⟨walk_subset (List.mem_append_right _ (List.mem_singleton.2 rfl)), fun b hb => ?_⟩
      by_cases hmem : b ∈ marked ++ [a]
      · exact walk_subset hmem
      · rw [List.mem_append, List.mem_singleton, not_or] at hmem
        exact hstaged b (mem_stage.2 ⟨Or.inl hb, hmem⟩)

variable (next) in
def walkFrom (n : ℕ) (marked : List α) (a : α) : List α :=
  if marked.contains a then marked else walk next n [a] marked

variable {roots : List α}

theorem foldl_walkFrom_forall {P : α → Prop} (hnext : ∀ a, P a → ∀ b ∈ next a, P b)
    (hroots : ∀ a ∈ roots, P a) (hmarked : ∀ a ∈ marked, P a) :
    ∀ a ∈ roots.foldl (walkFrom next n) marked, P a := by
  induction roots generalizing marked with
  | nil => exact hmarked
  | cons a roots ih =>
    rw [List.forall_mem_cons] at hroots
    refine ih hroots.2 ?_
    rw [walkFrom]
    split
    · exact hmarked
    · refine walk_forall hnext ?_ hmarked
      intro b hb
      rw [List.mem_singleton.1 hb]
      exact hroots.1

theorem foldl_walkFrom_closed (hU : ∀ a ∈ U, ∀ b ∈ next a, b ∈ U) (hroots : ∀ a ∈ roots, a ∈ U)
    (hmarkedU : ∀ a ∈ marked, a ∈ U) (hnodup : marked.Nodup) (hclosed : Closed next marked)
    (hrounds : U.length ≤ n) :
    Closed next (roots.foldl (walkFrom next n) marked) ∧
      (∀ a, a ∈ marked ∨ a ∈ roots → a ∈ roots.foldl (walkFrom next n) marked) ∧
      (roots.foldl (walkFrom next n) marked).Nodup := by
  induction roots generalizing marked with
  | nil => exact ⟨hclosed, fun a ha => ha.resolve_right List.not_mem_nil, hnodup⟩
  | cons a roots ih =>
    rw [List.forall_mem_cons] at hroots
    -- The walk from the first node.
    have hfrom : Closed next (walkFrom next n marked a) ∧
        (∀ b, b ∈ marked ∨ b = a → b ∈ walkFrom next n marked a) ∧
        (walkFrom next n marked a).Nodup := by
      rw [walkFrom]
      split
      · rename_i hmem
        rw [List.contains_iff_mem] at hmem
        refine ⟨hclosed, ?_, hnodup⟩
        rintro b (hb | rfl)
        · exact hb
        · exact hmem
      · rename_i hmem
        rw [List.contains_iff_mem] at hmem
        have hstage : ∀ b ∈ [a], b ∈ U ∧ b ∉ marked := by
          intro b hb
          rw [List.mem_singleton.1 hb]
          exact ⟨hroots.1, hmem⟩
        obtain ⟨hcl, hst, hnd⟩ := walk_closed (n := n) hU (fun b hb => (hstage b hb).1) hmarkedU
          (fun b hb => (hstage b hb).2) hnodup (fun b hb c hc => Or.inl (hclosed b hb c hc))
          (by omega)
        refine ⟨hcl, ?_, hnd⟩
        rintro b (hb | rfl)
        · exact walk_subset hb
        · exact hst b (List.mem_singleton.2 rfl)
    have hU' : ∀ b ∈ walkFrom next n marked a, b ∈ U :=
      @foldl_walkFrom_forall α next _ n marked [a] (fun b => b ∈ U) hU (fun b hb => by
        rw [List.mem_singleton.1 hb]
        exact hroots.1) hmarkedU
    obtain ⟨hcl, hmem, hnd⟩ := ih hroots.2 hU' hfrom.2.2 hfrom.1
    refine ⟨hcl, ?_, hnd⟩
    rintro b (hb | hb)
    · exact hmem b (Or.inl (hfrom.2.1 b (Or.inl hb)))
    · rcases List.mem_cons.1 hb with rfl | hb
      · exact hmem b (Or.inl (hfrom.2.1 b (Or.inr rfl)))
      · exact hmem b (Or.inr hb)

end Worklist
