import Mathlib.Data.List.Induction
import Mathlib.Tactic.Ring
/-!
# Running averages

An average that takes in one value after the other and rounds down each time.  The first value
**counts twice**: after `n` values the weights add up to `n + 1`.
-/

namespace RunningAverage

def runningAvg (values : List ℕ) : ℕ :=
  values.zipIdx.foldl (fun avg (value, i) =>
    if i = 0 then value else (avg * (i + 1) + value) / (i + 2)) 0

def wordAvg {w : ℕ} (values : List (BitVec w)) : BitVec w :=
  values.zipIdx.foldl (fun avg (value, i) =>
    if i = 0 then value else (avg * BitVec.ofNat w (i + 1) + value) / BitVec.ofNat w (i + 2)) 0

/-! ## Whole numbers -/

@[simp] theorem runningAvg_singleton (value : ℕ) : runningAvg [value] = value := rfl

theorem runningAvg_concat {values : List ℕ} (hne : values ≠ []) (value : ℕ) :
    runningAvg (values ++ [value]) =
      (runningAvg values * (values.length + 1) + value) / (values.length + 2) := by
  have hlength : values.length ≠ 0 := fun h => hne (List.length_eq_zero_iff.mp h)
  simp [runningAvg, List.zipIdx_append, List.foldl_append, hlength]

theorem mix_ge {low avg value : ℕ} (n : ℕ) (havg : low ≤ avg) (hvalue : low ≤ value) :
    low ≤ (avg * (n + 1) + value) / (n + 2) := by
  rw [Nat.le_div_iff_mul_le (Nat.succ_pos _)]
  calc low * (n + 2) = low * (n + 1) + low := by rw [← Nat.mul_succ]
    _ ≤ avg * (n + 1) + value := Nat.add_le_add (Nat.mul_le_mul_right _ havg) hvalue

theorem mix_le {high avg value : ℕ} (n : ℕ) (havg : avg ≤ high) (hvalue : value ≤ high) :
    (avg * (n + 1) + value) / (n + 2) ≤ high := by
  apply Nat.div_le_of_le_mul
  calc avg * (n + 1) + value ≤ high * (n + 1) + high :=
        Nat.add_le_add (Nat.mul_le_mul_right _ havg) hvalue
    _ = (n + 2) * high := by rw [← Nat.mul_succ, Nat.mul_comm]

theorem runningAvg_between {values : List ℕ} (hne : values ≠ []) :
    (∃ low ∈ values, low ≤ runningAvg values) ∧ ∃ high ∈ values, runningAvg values ≤ high := by
  induction values using List.reverseRecOn with
  | nil => exact absurd rfl hne
  | append_singleton values value ih =>
    by_cases hempty : values = []
    · subst hempty
      exact ⟨⟨value, by simp, by simp⟩, value, by simp, by simp⟩
    obtain ⟨⟨low, hlow, hle⟩, high, hhigh, hge⟩ := ih hempty
    have hlast : value ∈ values ++ [value] := by simp
    rw [runningAvg_concat hempty]
    constructor
    · rcases Nat.le_total low value with h | h
      · exact ⟨low, List.mem_append_left _ hlow, mix_ge _ hle h⟩
      · exact ⟨value, hlast, mix_ge _ (h.trans hle) (Nat.le_refl _)⟩
    · rcases Nat.le_total value high with h | h
      · exact ⟨high, List.mem_append_left _ hhigh, mix_le _ hge h⟩
      · exact ⟨value, hlast, mix_le _ (hge.trans h) (Nat.le_refl _)⟩

theorem runningAvg_le {values : List ℕ} (hne : values ≠ []) {high : ℕ}
    (hhigh : ∀ value ∈ values, value ≤ high) : runningAvg values ≤ high := by
  obtain ⟨-, value, hvalue, hle⟩ := runningAvg_between hne
  exact hle.trans (hhigh value hvalue)

/-! ## Words -/

variable {w : ℕ} {values : List (BitVec w)} {value : BitVec w} {high : ℕ}

theorem wordAvg_concat (hne : values ≠ []) (value : BitVec w) :
    wordAvg (values ++ [value]) =
      (wordAvg values * BitVec.ofNat w (values.length + 1) + value) /
        BitVec.ofNat w (values.length + 2) := by
  have hlength : values.length ≠ 0 := fun h => hne (List.length_eq_zero_iff.mp h)
  simp [wordAvg, List.zipIdx_append, List.foldl_append, hlength]

/-- Nothing wraps when `value` joins the average of `values`. -/
structure AvgStepExact (values : List (BitVec w)) (value : BitVec w) : Prop where
  product : (wordAvg values * BitVec.ofNat w (values.length + 1)).toNat =
    (wordAvg values).toNat * (values.length + 1)
  sum : (wordAvg values * BitVec.ofNat w (values.length + 1) + value).toNat =
    (wordAvg values).toNat * (values.length + 1) + value.toNat
  quotient : (wordAvg (values ++ [value])).toNat =
    ((wordAvg values).toNat * (values.length + 1) + value.toNat) / (values.length + 2)

theorem avgStepExact (hne : values ≠ []) (havg : (wordAvg values).toNat ≤ high)
    (hvalue : value.toNat ≤ high) (hfits : (high + 1) * (values.length + 2) < 2 ^ w) :
    AvgStepExact values value := by
  have hcount : values.length + 2 < 2 ^ w :=
    Nat.lt_of_le_of_lt (Nat.le_mul_of_pos_left _ (Nat.succ_pos high)) hfits
  have hproduct : (wordAvg values).toNat * (values.length + 1) ≤ high * (values.length + 1) :=
    Nat.mul_le_mul_right _ havg
  have hsum : high * (values.length + 1) + high < 2 ^ w := by
    rw [← Nat.mul_succ]
    exact Nat.lt_of_le_of_lt (Nat.mul_le_mul_right _ (Nat.le_succ high)) hfits
  have hmul : (wordAvg values * BitVec.ofNat w (values.length + 1)).toNat =
      (wordAvg values).toNat * (values.length + 1) := by
    rw [BitVec.toNat_mul, BitVec.toNat_ofNat, Nat.mod_eq_of_lt (a := values.length + 1) (by omega),
      Nat.mod_eq_of_lt (by omega)]
  have hadd : (wordAvg values * BitVec.ofNat w (values.length + 1) + value).toNat =
      (wordAvg values).toNat * (values.length + 1) + value.toNat := by
    rw [BitVec.toNat_add, hmul, Nat.mod_eq_of_lt (by omega)]
  refine ⟨hmul, hadd, ?_⟩
  rw [wordAvg_concat hne, BitVec.toNat_udiv, hadd, BitVec.toNat_ofNat, Nat.mod_eq_of_lt hcount]

theorem toNat_wordAvg (hvalues : ∀ value ∈ values, value.toNat ≤ high)
    (hfits : (high + 1) * (values.length + 1) < 2 ^ w) :
    (wordAvg values).toNat = runningAvg (values.map BitVec.toNat) := by
  induction values using List.reverseRecOn with
  | nil => simp [wordAvg, runningAvg]
  | append_singleton values value ih =>
    rw [List.length_append, List.length_singleton] at hfits
    have hinit : ∀ value ∈ values, value.toNat ≤ high := fun v hv =>
      hvalues v (List.mem_append_left _ hv)
    have hsame := ih hinit (Nat.lt_of_le_of_lt (Nat.mul_le_mul_left _ (Nat.le_succ _)) hfits)
    by_cases hempty : values = []
    · subst hempty
      simp [wordAvg]
    have hmap : values.map BitVec.toNat ≠ [] := fun h => hempty (List.map_eq_nil_iff.mp h)
    have havg : (wordAvg values).toNat ≤ high := by
      rw [hsame]
      exact runningAvg_le hmap fun v hv => by
        obtain ⟨value, hmem, rfl⟩ := List.mem_map.mp hv
        exact hinit value hmem
    rw [(avgStepExact hempty havg (hvalues value (by simp)) hfits).quotient, List.map_append,
      List.map_singleton, runningAvg_concat hmap, List.length_map, hsame]

theorem wordAvg_exact (hvalues : ∀ value ∈ values, value.toNat ≤ high)
    (hfits : (high + 1) * (values.length + 1) < 2 ^ w) {before after : List (BitVec w)}
    (hsplit : values = before ++ value :: after) (hne : before ≠ []) :
    AvgStepExact before value := by
  have hlength : before.length + 2 ≤ values.length + 1 := by
    rw [hsplit, List.length_append, List.length_cons]
    omega
  have hbefore : ∀ v ∈ before, v.toNat ≤ high := fun v hv =>
    hvalues v (by rw [hsplit]; exact List.mem_append_left _ hv)
  have hstep : (high + 1) * (before.length + 2) < 2 ^ w :=
    Nat.lt_of_le_of_lt (Nat.mul_le_mul_left _ hlength) hfits
  have hshort : (high + 1) * (before.length + 1) < 2 ^ w :=
    Nat.lt_of_le_of_lt (Nat.mul_le_mul_left _ (Nat.le_succ _)) hstep
  apply avgStepExact hne _ (hvalues value (by rw [hsplit]; simp)) hstep
  rw [toNat_wordAvg hbefore hshort]
  apply runningAvg_le fun h => hne (List.map_eq_nil_iff.mp h)
  intro v hv
  obtain ⟨word, hword, rfl⟩ := List.mem_map.mp hv
  exact hbefore word hword

end RunningAverage
