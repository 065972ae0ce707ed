import Mathlib.Data.List.Sort
import UnemployCoin.CompactBlocks
import UnemployCoin.Lib.Ends
import UnemployCoin.Lib.Gaps
/-!
# The reconstruction of a block

What `InitData` and `FillBlock` (`blockencodings.cpp`) make of a compact block.
-/

namespace UnemployCoin

namespace Wire

open Check Gaps StdMap

/-! ## Vectors -/

section Vectors

variable {α : Type} {v w : List α} {i : ℕ} {a : α}

theorem element_of_lt (h : i < v.length) : ∃ a, element v i = .ok a ∧ v[i]? = some a :=
  ⟨v[i], demand_ok.2 (List.getElem?_eq_getElem h), List.getElem?_eq_getElem h⟩

theorem element_eq_ok : element v i = .ok a ↔ v[i]? = some a := demand_ok

theorem store_of_lt (h : i < v.length) (a : α) : store v i a = .ok (v.set i a) :=
  require_bind.2 ⟨decide_eq_true h, rfl⟩

theorem bind_of_eq_ok {α β : Type} {r : Run α} {a : α} (h : r = .ok a) (f : α → Run β) :
    (r >>= f) = f a := by
  rw [h]
  rfl

theorem bind_of_eq_error {α β : Type} {r : Run α} {e : Fault} (h : r = .error e)
    (f : α → Run β) : (r >>= f) = .error e := by
  rw [h]
  rfl

end Vectors

/-! ## The next free position -/

section Skip

variable {txn_available : List CTransactionRef} {i q n : ℕ} {o : UInt16}

def Filled (txn_available : List CTransactionRef) (p : ℕ) : Prop :=
  ∃ tx, txn_available[p]? = some (some tx)

theorem skipStep_filled (h : Filled txn_available (i + o.toNat)) :
    skipStep txn_available i o = .inl (o + 1) := by
  obtain ⟨tx, htx⟩ := h
  simp [skipStep, htx]

theorem toNat_succ (h : o.toNat + 1 < 2 ^ 16) : (o + 1).toNat = o.toNat + 1 := by
  rw [UInt16.toNat_add]
  exact Nat.mod_eq_of_lt h

theorem run_skipStep (hle : i + o.toNat ≤ q) (hfilled : ∀ p, i + o.toNat ≤ p → p < q →
      Filled txn_available p) (hgap : txn_available[q]? = some none) (hq : q - i < 2 ^ 16)
    (hn : q - (i + o.toNat) < n) :
    Loop.run (skipStep txn_available i) n o = some (.ok (UInt16.ofNat (q - i))) := by
  induction n generalizing o with
  | zero => omega
  | succ n ih =>
    rcases Nat.eq_or_lt_of_le hle with heq | hlt
    · have hstep : skipStep txn_available i o = .inr (.ok o) := by
        simp [skipStep, heq, hgap]
      rw [Loop.run_inr hstep, ← heq, Nat.add_sub_cancel_left, UInt16.ofNat_toNat]
    · have hsucc : (o + 1).toNat = o.toNat + 1 := toNat_succ (by omega)
      rw [Loop.run_inl (skipStep_filled (hfilled _ le_rfl hlt))]
      apply ih
      · omega
      · intro p hp hpq
        exact hfilled p (by omega) hpq
      · omega

theorem skipFilled_gap (hle : i + o.toNat ≤ q) (hfilled : ∀ p, i + o.toNat ≤ p → p < q →
      Filled txn_available p) (hgap : txn_available[q]? = some none) (hq : q - i < 2 ^ 16) :
    skipFilled txn_available i o = .ok (UInt16.ofNat (q - i)) := by
  rw [skipFilled, run_skipStep hle hfilled hgap hq (by omega)]
  rfl

theorem run_skipStep_wrap (h : ∀ k < 2 ^ 16, Filled txn_available (i + k)) :
    Loop.run (skipStep txn_available i) n o = none := by
  induction n generalizing o with
  | zero => rfl
  | succ n ih =>
    rw [Loop.run_inl (skipStep_filled (h _ o.toNat_lt))]
    exact ih

theorem skipFilled_wrap (h : ∀ k < 2 ^ 16, Filled txn_available (i + k)) :
    skipFilled txn_available i o = .error .endless := by
  rw [skipFilled, run_skipStep_wrap h]
  rfl

theorem gap_of_skipFilled {o' : UInt16} (h : skipFilled txn_available i o = .ok o') :
    txn_available[i + o'.toNat]? = some none := by
  rw [skipFilled] at h
  cases hr : Loop.run (skipStep txn_available i) (2 ^ 16) o with
  | none =>
    rw [hr] at h
    cases h
  | some r =>
    rw [hr] at h
    refine Loop.run_invariant (I := fun _ => True)
      (Q := fun r => ∀ o', r = .ok o' → txn_available[i + o'.toNat]? = some none)
      (fun _ _ _ _ => trivial) ?_ trivial hr o' (show r = .ok o' from h)
    intro s r _ hstep o' hr
    rw [skipStep] at hstep
    split at hstep
    · cases hstep
      cases hr
    · rename_i hgap
      cases hstep
      cases hr
      exact hgap
    · cases hstep

end Skip

/-! ## The positions of the short ids -/

section Place

variable {bucketSize : BucketSize} {S : ℕ} {txn_available : List CTransactionRef}
  {done rest : List UInt64} {t : ShortIdTable}

/-- The bucket of the `k`-th of these ids does not overflow. -/
def Quiet (bucketSize : BucketSize) (S : ℕ) (done rest : List UInt64) (k : ℕ) : Prop :=
  ∀ id, rest[k]? = some id → bucketSize S (done ++ rest.take (k + 1)) id ≤ 12

def gapsLeft (txn_available : List CTransactionRef) (done : List UInt64) (o : UInt16) : List ℕ :=
  gaps (done.length + o.toNat) (txn_available.drop (done.length + o.toNat))

theorem quiet_succ {id : UInt64} {k : ℕ} :
    Quiet bucketSize S done (id :: rest) (k + 1) ↔
      Quiet bucketSize S (done ++ [id]) rest k := by
  rw [Quiet, Quiet]
  simp only [List.getElem?_cons_succ, List.take_succ_cons, List.append_assoc,
    List.singleton_append]

theorem quiet_zero {id : UInt64} :
    Quiet bucketSize S done (id :: rest) 0 ↔ bucketSize S (done ++ [id]) id ≤ 12 := by
  simp [Quiet]

theorem getElem?_gapsLeft {o : UInt16} {p : ℕ} {v : Option CTransactionRef}
    (hle : done.length + o.toNat ≤ p)
    (h : (txn_available.drop (done.length + o.toNat))[p - (done.length + o.toNat)]? = v) :
    txn_available[p]? = v := by
  rw [List.getElem?_drop, Nat.add_sub_cancel' hle] at h
  exact h

theorem gapsLeft_cons {o : UInt16} {q : ℕ} {gs : List ℕ}
    (h : gapsLeft txn_available done o = q :: gs) :
    done.length + o.toNat ≤ q ∧ txn_available[q]? = some none ∧
      (∀ p, done.length + o.toNat ≤ p → p < q → Filled txn_available p) ∧
      ∀ id, q - done.length < 2 ^ 16 →
        gapsLeft txn_available (done ++ [id]) (UInt16.ofNat (q - done.length)) = gs := by
  obtain ⟨hle, hgap, hrest, hfilled⟩ := gaps_cons h
  refine ⟨hle, getElem?_gapsLeft hle hgap, ?_, ?_⟩
  · intro p hp hlt
    obtain ⟨v, hv⟩ := hfilled p hp hlt
    exact ⟨v, getElem?_gapsLeft hp hv⟩
  · intro id hlt
    have hnext : (done ++ [id]).length + (UInt16.ofNat (q - done.length)).toNat = q + 1 := by
      rw [UInt16.toNat_ofNat', Nat.mod_eq_of_lt hlt, List.length_append, List.length_singleton]
      omega
    rw [gapsLeft, hnext, ← hrest, List.drop_drop]
    congr 2
    omega

theorem placeShortIds_cons {id : UInt64} {index_offset : UInt16}
    (h : skipFilled txn_available done.length t.index_offset = .ok index_offset) :
    placeShortIds bucketSize S txn_available done (id :: rest) t =
      let t' : ShortIdTable :=
        ⟨t.shorttxids.assign id (UInt16.ofNat (done.length + index_offset.toNat)), index_offset,
          t.positions ++ [done.length + index_offset.toNat]⟩
      if 12 < bucketSize S (done ++ [id]) id then .ok (.READ_STATUS_FAILED, t')
      else placeShortIds bucketSize S txn_available (done ++ [id]) rest t' := by
  rw [placeShortIds, bind_of_eq_ok h]
  rfl

theorem toNat_gap {q i : ℕ} (hle : i ≤ q) (hlt : q - i < 2 ^ 16) :
    i + (UInt16.ofNat (q - i)).toNat = q := by
  rw [UInt16.toNat_ofNat', Nat.mod_eq_of_lt hlt]
  omega

/-- With all prefilled transactions in the first `2 ^ 16` positions, a gap that is further off than
16 bits can say is that of the first id, and **the loop never reaches it**. -/
theorem skipFilled_far {o : UInt16} {q : ℕ} (hbelow : ∀ p, Filled txn_available p → p < 2 ^ 16)
    (hstart : done = [] → o = 0) (hle : done.length + o.toNat ≤ q)
    (hfilled : ∀ p, done.length + o.toNat ≤ p → p < q → Filled txn_available p)
    (hfar : ¬q - done.length < 2 ^ 16) :
    skipFilled txn_available done.length o = .error .endless := by
  have hoffset := o.toNat_lt
  have hlast := hbelow (q - 1) (hfilled (q - 1) (by omega) (by omega))
  have hzero : done.length = 0 := by omega
  have hq : q = 2 ^ 16 := by omega
  have ho := hstart (List.length_eq_zero_iff.1 hzero)
  subst ho
  apply skipFilled_wrap
  intro k hk
  apply hfilled
  · have hnat : (0 : UInt16).toNat = 0 := rfl
    omega
  · omega

/-- Up to the first bucket that overflows, the gaps for these ids are at positions of 16 bits. -/
def Near (bucketSize : BucketSize) (S : ℕ) (done rest : List UInt64) (gs : List ℕ) : Prop :=
  ∀ k < rest.length, (∀ j < k, Quiet bucketSize S done rest j) → ∀ p, gs[k]? = some p → p < 2 ^ 16

theorem near_nil {gs : List ℕ} : Near bucketSize S done [] gs := by
  intro k hk
  cases hk

theorem near_cons {id : UInt64} {q : ℕ} {gs : List ℕ} :
    Near bucketSize S done (id :: rest) (q :: gs) ↔
      q < 2 ^ 16 ∧ (bucketSize S (done ++ [id]) id ≤ 12 →
        Near bucketSize S (done ++ [id]) rest gs) := by
  constructor
  · intro h
    constructor
    · apply h 0 (Nat.succ_pos _) _ q rfl
      intro j hj
      cases hj
    · intro hroom k hk hquiet p hp
      apply h (k + 1) (Nat.succ_lt_succ hk) _ p hp
      intro j hj
      cases j with
      | zero => exact quiet_zero.2 hroom
      | succ j => exact quiet_succ.2 (hquiet j (Nat.lt_of_succ_lt_succ hj))
  · rintro ⟨hq, hrest⟩ k hk hquiet p hp
    cases k with
    | zero =>
      cases hp
      exact hq
    | succ k =>
      apply hrest (quiet_zero.1 (hquiet 0 (Nat.succ_pos k))) k (Nat.lt_of_succ_lt_succ hk) _ p hp
      intro j hj
      exact quiet_succ.1 (hquiet (j + 1) (Nat.succ_lt_succ hj))

theorem forall_mem_concat {l : List ℕ} {q : ℕ} :
    (∀ p ∈ l ++ [q], p < 2 ^ 16) ↔ (∀ p ∈ l, p < 2 ^ 16) ∧ q < 2 ^ 16 := by
  rw [List.forall_mem_append, List.forall_mem_singleton]

/-- **All positions that are computed fit 16 bits if and only if the gaps do.** -/
theorem placeShortIds_inRange (hbelow : ∀ p, Filled txn_available p → p < 2 ^ 16)
    (hstart : done = [] → t.index_offset = 0)
    (henough : rest.length ≤ (gapsLeft txn_available done t.index_offset).length) :
    (∃ r, placeShortIds bucketSize S txn_available done rest t = .ok r ∧
        ∀ p ∈ r.2.positions, p < 2 ^ 16) ↔
      (∀ p ∈ t.positions, p < 2 ^ 16) ∧
        Near bucketSize S done rest (gapsLeft txn_available done t.index_offset) := by
  induction rest generalizing done t with
  | nil =>
    constructor
    · rintro ⟨r, hr, hpositions⟩
      cases hr
      exact ⟨hpositions, near_nil⟩
    · rintro ⟨hpositions, -⟩
      exact ⟨_, rfl, hpositions⟩
  | cons id rest ih =>
    cases hgaps : gapsLeft txn_available done t.index_offset with
    | nil =>
      rw [hgaps] at henough
      cases henough
    | cons q gs =>
      obtain ⟨hle, hgap, hfilled, hnext⟩ := gapsLeft_cons hgaps
      rw [hgaps] at henough
      rw [near_cons]
      by_cases hnear : q - done.length < 2 ^ 16
      · have hskip := skipFilled_gap hle hfilled hgap hnear
        have hq := toNat_gap (show done.length ≤ q by omega) hnear
        rw [placeShortIds_cons hskip]
        dsimp only
        rw [hq]
        split
        · rename_i hfull
          have hnot : ¬bucketSize S (done ++ [id]) id ≤ 12 := Nat.not_le.2 hfull
          constructor
          · rintro ⟨r, hr, hpositions⟩
            cases hr
            obtain ⟨hold, hnew⟩ := forall_mem_concat.1 hpositions
            exact ⟨hold, hnew, fun hroom => absurd hroom hnot⟩
          · rintro ⟨hold, hnew, -⟩
            exact ⟨_, rfl, forall_mem_concat.2 ⟨hold, hnew⟩⟩
        · rename_i hroom
          have hnot : done ++ [id] ≠ [] := by simp
          rw [ih (fun hnil => absurd hnil hnot) (by
            dsimp only
            rw [hnext id hnear]
            exact Nat.le_of_succ_le_succ henough)]
          dsimp only
          rw [hnext id hnear, forall_mem_concat, and_assoc]
          have hroom' := Nat.not_lt.1 hroom
          constructor
          · rintro ⟨hold, hnew, hrest⟩
            exact ⟨hold, hnew, fun _ => hrest⟩
          · rintro ⟨hold, hnew, hrest⟩
            exact ⟨hold, hnew, hrest hroom'⟩
      · have hskip := skipFilled_far hbelow hstart hle hfilled hnear
        constructor
        · rintro ⟨r, hr, -⟩
          rw [placeShortIds, hskip] at hr
          cases hr
        · rintro ⟨-, hlt, -⟩
          omega

/-- What has been stored are positions of the block. -/
structure ShortIdTable.Within (t : ShortIdTable) (n : ℕ) : Prop where
  positions : ∀ p ∈ t.positions, p < n
  stored : ∀ id idit, t.shorttxids.find? id = some idit →
    ∃ p ∈ t.positions, idit = UInt16.ofNat p

theorem ShortIdTable.Within.empty (n : ℕ) : ShortIdTable.Within ⟨∅, 0, []⟩ n where
  positions _ hp := by cases hp
  stored id idit h := by
    rw [find?_empty] at h
    cases h

theorem ShortIdTable.Within.assign {n p : ℕ} {index_offset : UInt16} (h : t.Within n) (hp : p < n)
    (id : UInt64) : ShortIdTable.Within
      ⟨t.shorttxids.assign id (UInt16.ofNat p), index_offset, t.positions ++ [p]⟩ n where
  positions q hq := by
    rcases List.mem_append.1 hq with hq | hq
    · exact h.positions q hq
    · rwa [List.mem_singleton.1 hq]
  stored id' idit hfind := by
    rw [find?_assign] at hfind
    split at hfind
    · cases hfind
      exact ⟨p, by simp, rfl⟩
    · obtain ⟨q, hq, heq⟩ := h.stored id' idit hfind
      exact ⟨q, List.mem_append_left _ hq, heq⟩

theorem placeShortIds_within {r : ReadStatus × ShortIdTable} (h : t.Within txn_available.length)
    (hr : placeShortIds bucketSize S txn_available done rest t = .ok r) :
    r.2.Within txn_available.length := by
  induction rest generalizing done t with
  | nil =>
    cases hr
    exact h
  | cons id rest ih =>
    cases hskip : skipFilled txn_available done.length t.index_offset with
    | error e =>
      rw [placeShortIds, hskip] at hr
      cases hr
    | ok o =>
      have hgap := gap_of_skipFilled hskip
      have hlt : done.length + o.toNat < txn_available.length :=
        (List.getElem?_eq_some_iff.1 hgap).1
      rw [placeShortIds_cons hskip] at hr
      dsimp only at hr
      split at hr
      · cases hr
        exact h.assign hlt id
      · exact ih (h.assign hlt id) hr

end Place

/-! ## The prefilled transactions -/

section Prefill

variable {S i : ℕ} {last : ℤ} {prefilledtxn : List PrefilledTransaction}
  {txn_available : List CTransactionRef}

/-- The positions of the prefilled transactions, each given as the distance from the one before. -/
def prefilledAt : ℤ → List PrefilledTransaction → List ℕ
  | _, [] => []
  | last, prefilled :: rest =>
    (last + (prefilled.index.toNat + 1)).toNat ::
      prefilledAt (last + (prefilled.index.toNat + 1)) rest

/-- No prefilled transaction is null, their positions have 16 bits, and there is a transaction or a
short id for each position in front of them. -/
def Prefillable (S : ℕ) : ℕ → ℤ → List PrefilledTransaction → Prop
  | _, _, [] => True
  | i, last, prefilled :: rest =>
    (∃ tx, prefilled.tx = some tx ∧ isNullTx tx = false) ∧
      last + (prefilled.index.toNat + 1) ≤ 65535 ∧
      (last + (prefilled.index.toNat + 1)).toNat ≤ S + i ∧
      Prefillable S (i + 1) (last + (prefilled.index.toNat + 1)) rest

theorem int32_of_index {index : UInt16} (hlow : -1 ≤ last) (hhigh : last ≤ 65535) :
    int32 (last + (index.toNat + 1)) = .ok (last + (index.toNat + 1)) := by
  have hindex := index.toNat_lt
  apply require_bind.2
  refine ⟨decide_eq_true ?_, rfl⟩
  omega

theorem filled_set {p q : ℕ} {tx : CMutableTransaction} (hp : p < txn_available.length) :
    Filled (txn_available.set p (some tx)) q ↔ q = p ∨ Filled txn_available q := by
  rw [Filled, Filled]
  by_cases hq : q = p
  · subst hq
    simp [hp]
  · simp [List.getElem?_set_ne (Ne.symm hq), hq]

theorem prefill_spec (hlength : txn_available.length = S + i + prefilledtxn.length)
    (hlow : -1 ≤ last) (hhigh : last ≤ 65535) :
    (Prefillable S i last prefilledtxn →
      ∃ filled, prefill S i prefilledtxn last txn_available = .ok (.READ_STATUS_OK, filled) ∧
        filled.length = txn_available.length ∧
        (∀ q, Filled filled q ↔ q ∈ prefilledAt last prefilledtxn ∨ Filled txn_available q) ∧
        (gaps 0 txn_available).length ≤ (gaps 0 filled).length + prefilledtxn.length) ∧
    (¬Prefillable S i last prefilledtxn →
      prefill S i prefilledtxn last txn_available = .error .nullptr ∨
      ∃ filled,
        prefill S i prefilledtxn last txn_available = .ok (.READ_STATUS_INVALID, filled)) := by
  induction prefilledtxn generalizing i last txn_available with
  | nil =>
    constructor
    · intro _
      refine ⟨txn_available, rfl, rfl, ?_, le_rfl⟩
      intro q
      simp [prefilledAt]
    · intro h
      exact absurd trivial h
  | cons prefilled rest ih =>
    rw [List.length_cons] at hlength
    cases htx : prefilled.tx with
    | none =>
      constructor
      · rintro ⟨⟨tx, hsome, -⟩, -⟩
        rw [htx] at hsome
        cases hsome
      · intro _
        rw [prefill, htx]
        exact .inl rfl
    | some tx =>
      have hderef : deref prefilled.tx = .ok tx := by
        rw [htx]
        rfl
      rw [prefill, bind_of_eq_ok hderef]
      cases hnull : isNullTx tx with
      | true =>
        constructor
        · rintro ⟨⟨tx', hsome, hnot⟩, -⟩
          rw [htx] at hsome
          cases hsome
          rw [hnull] at hnot
          cases hnot
        · intro _
          exact .inr ⟨_, rfl⟩
      | false =>
        rw [if_neg Bool.false_ne_true, bind_of_eq_ok (int32_of_index hlow hhigh)]
        have hindex : (0 : ℤ) ≤ prefilled.index.toNat := Int.natCast_nonneg _
        by_cases hbig : 65535 < last + (prefilled.index.toNat + 1)
        · rw [if_pos hbig]
          constructor
          · rintro ⟨-, hsmall, -⟩
            omega
          · intro _
            exact .inr ⟨_, rfl⟩
        · rw [if_neg hbig]
          by_cases hgap : S + i < (last + (prefilled.index.toNat + 1)).toNat
          · rw [if_pos hgap]
            constructor
            · rintro ⟨-, -, hle, -⟩
              omega
            · intro _
              exact .inr ⟨_, rfl⟩
          · have hlt : (last + (prefilled.index.toNat + 1)).toNat < txn_available.length := by omega
            rw [if_neg hgap, bind_of_eq_ok (store_of_lt hlt _), htx]
            obtain ⟨hgood, hbad⟩ := @ih (i + 1) (last + (prefilled.index.toNat + 1))
              (txn_available.set (last + (prefilled.index.toNat + 1)).toNat (some tx))
              (by rw [List.length_set]; omega) (by omega) (by omega)
            constructor
            · rintro ⟨-, -, -, hrest⟩
              obtain ⟨filled, hrun, hsame, hfilled, hgaps⟩ := hgood hrest
              have hone := @length_gaps_set _ 0 txn_available
                (last + (prefilled.index.toNat + 1)).toNat tx
              refine ⟨filled, hrun, ?_, ?_, ?_⟩
              · rw [hsame, List.length_set]
              · intro q
                rw [hfilled, filled_set hlt, prefilledAt, List.mem_cons, or_left_comm, or_assoc]
              · rw [List.length_cons]
                omega
            · intro hnot
              apply hbad
              intro hrest
              exact hnot ⟨⟨tx, htx, hnull⟩, by omega, by omega, hrest⟩

theorem prefilledAt_le (h : Prefillable S i last prefilledtxn) :
    ∀ q ∈ prefilledAt last prefilledtxn, q < 2 ^ 16 := by
  induction prefilledtxn generalizing i last with
  | nil =>
    intro q hq
    cases hq
  | cons prefilled rest ih =>
    obtain ⟨-, hle, -, hrest⟩ := h
    intro q hq
    rcases List.mem_cons.1 hq with rfl | hq
    · omega
    · exact ih hrest q hq

end Prefill

/-- The positions that no prefilled transaction takes, one for each short id. -/
def places (msg : CBlockHeaderAndShortTxIDs) : List ℕ :=
  (List.range msg.blockTxCount).filter fun q => !(prefilledAt (-1) msg.prefilledtxn).contains q

theorem gaps_eq_places {msg : CBlockHeaderAndShortTxIDs} {filled : List CTransactionRef}
    (hlength : filled.length = msg.blockTxCount)
    (hfilled : ∀ q, Filled filled q ↔ q ∈ prefilledAt (-1) msg.prefilledtxn) :
    gaps 0 filled = places msg := by
  apply List.Pairwise.eq_of_mem_iff (pairwise_gaps 0 filled)
  · exact List.pairwise_lt_range.filter _
  · intro q
    rw [mem_gaps, places, List.mem_filter, List.mem_range, ← hlength, Bool.not_eq_true',
      ← Bool.not_eq_true, List.contains_iff_mem, ← hfilled, Nat.sub_zero]
    constructor
    · rintro ⟨-, hget⟩
      refine ⟨(List.getElem?_eq_some_iff.1 hget).1, ?_⟩
      rintro ⟨tx, htx⟩
      rw [hget] at htx
      cases htx
    · rintro ⟨hlt, hnot⟩
      refine ⟨Nat.zero_le q, ?_⟩
      have hget := List.getElem?_eq_getElem hlt
      cases href : filled[q] with
      | none => rw [hget, href]
      | some tx =>
        rw [href] at hget
        exact absurd ⟨tx, hget⟩ hnot

/-! ## The two pools -/

section Pools

variable {H : BlockHashes} {shorttxids : StdMap UInt64 UInt16} {shortid : UInt64}
  {tx : CMutableTransaction} {ref : CTransactionRef} {n : ℕ} {I : List CTransactionRef → Prop}
  {s : Matched}

/-- The two vectors have a position for each transaction, and `I` holds of the first one. -/
structure Matched.Good (n : ℕ) (I : List CTransactionRef → Prop) (s : Matched) : Prop where
  available : s.txn_available.length = n
  have_txn : s.have_txn.length = n
  inv : I s.txn_available

theorem element_ends {α : Type} {v : List α} {i : ℕ} (h : i < v.length) :
    Ends never (fun a => v[i]? = some a) (element v i) := by
  obtain ⟨a, ha, hget⟩ := element_of_lt h
  rw [ha]
  exact Ends.ok hget

theorem store_ends {α : Type} {v : List α} {i : ℕ} (h : i < v.length) (a : α) :
    Ends never (fun w => w = v.set i a) (store v i a) := by
  rw [store_of_lt h]
  exact Ends.ok rfl

theorem matchMempoolTx_ends (hin : ∀ idit, shorttxids.find? shortid = some idit → idit.toNat < n)
    (hput : ∀ idit l, shorttxids.find? shortid = some idit → I l →
      I (l.set idit.toNat (some tx)))
    (hdrop : ∀ i l, I l → I (l.set i none)) (hs : s.Good n I) :
    Ends never (Matched.Good n I) (matchMempoolTx shorttxids shortid tx s) := by
  rw [matchMempoolTx]
  cases hfind : shorttxids.find? shortid with
  | none => exact Ends.ok hs
  | some idit =>
    have hlt := hin idit hfind
    have hlt₁ : idit.toNat < s.txn_available.length := by rwa [hs.available]
    have hlt₂ : idit.toNat < s.have_txn.length := by rwa [hs.have_txn]
    refine (element_ends hlt₂).bind fun have_txn _ _ => Ends.ite (fun _ => ?_) fun _ => ?_
    · refine (store_ends hlt₁ _).bind ?_
      rintro _ - rfl
      refine (store_ends hlt₂ _).bind ?_
      rintro _ - rfl
      exact Ends.ok ⟨by simp [hs.available], by simp [hs.have_txn], hput _ _ hfind hs.inv⟩
    · refine (element_ends hlt₁).bind fun available _ _ => Ends.ite (fun _ => ?_) fun _ => ?_
      · refine (store_ends hlt₁ _).bind ?_
        rintro _ - rfl
        exact Ends.ok ⟨by simp [hs.available], hs.have_txn, hdrop _ _ hs.inv⟩
      · exact Ends.ok hs

theorem matchExtraTx_ends (hin : ∀ idit, shorttxids.find? shortid = some idit → idit.toNat < n)
    (hput : ∀ idit l, shorttxids.find? shortid = some idit → I l → I (l.set idit.toNat ref))
    (hdrop : ∀ i l, I l → I (l.set i none)) (hs : s.Good n I) :
    Ends (fun e => e = .nullptr ∧ ref = none ∧ shorttxids.count shortid = true)
      (Matched.Good n I) (matchExtraTx H shorttxids shortid ref s) := by
  rw [matchExtraTx]
  cases hfind : shorttxids.find? shortid with
  | none => exact Ends.ok hs
  | some idit =>
    have hlt := hin idit hfind
    have hlt₁ : idit.toNat < s.txn_available.length := by rwa [hs.available]
    have hlt₂ : idit.toNat < s.have_txn.length := by rwa [hs.have_txn]
    refine (element_ends hlt₂).of_never.bind fun have_txn _ _ => Ends.ite (fun _ => ?_) fun _ => ?_
    · refine (store_ends hlt₁ _).of_never.bind ?_
      rintro _ - rfl
      refine (store_ends hlt₂ _).of_never.bind ?_
      rintro _ - rfl
      exact Ends.ok ⟨by simp [hs.available], by simp [hs.have_txn], hput _ _ hfind hs.inv⟩
    · refine (element_ends hlt₁).of_never.bind ?_
      intro available _ _
      cases available with
      | none => exact Ends.ok hs
      | some tx =>
        cases ref with
        | none => exact Ends.error ⟨rfl, rfl, count_of_find? hfind⟩
        | some extra =>
          change Ends _ _ (ite _ _ _)
          refine Ends.ite (fun _ => ?_) fun _ => Ends.ok hs
          refine (store_ends hlt₁ _).of_never.bind ?_
          rintro _ - rfl
          exact Ends.ok ⟨by simp [hs.available], hs.have_txn, hdrop _ _ hs.inv⟩

theorem matchAll_ends {α : Type} {step : α → Matched → Run Matched} {count : UInt64} {l : List α}
    {F : Fault → Prop} {P : Matched → Prop} (h : ∀ a ∈ l, ∀ s, P s → Ends F P (step a s))
    (hs : P s) : Ends F P (matchAll step count l s) := by
  induction l generalizing s with
  | nil => exact Ends.ok hs
  | cons a rest ih =>
    rw [matchAll]
    apply (h a List.mem_cons_self s hs).bind
    intro s' _ hs'
    apply Ends.ite
    · intro _
      exact Ends.ok hs'
    · intro _
      exact ih (fun b hb => h b (List.mem_cons_of_mem _ hb)) hs'

end Pools

/-! ## `FillBlock` -/

section Fill

variable {vtx_missing : List CTransactionRef} {n : ℕ} {is : List ℕ} {s : FillState}

theorem fillTxs_ends (his : ∀ i ∈ is, i < n) (hvtx : s.vtx.length = n)
    (havailable : s.txn_available.length = n) :
    Ends never (fun _ => True) (fillTxs vtx_missing is s) := by
  induction is generalizing s with
  | nil => exact Ends.ok trivial
  | cons i rest ih =>
    rw [List.forall_mem_cons] at his
    have hlt₁ : i < s.txn_available.length := by rw [havailable]; exact his.1
    have hlt₂ : i < s.vtx.length := by rw [hvtx]; exact his.1
    rw [fillTxs]
    apply (element_ends hlt₁).bind
    intro ref _ _
    cases ref with
    | none =>
      apply Ends.ite
      · intro _
        exact Ends.ok trivial
      · intro hlt
        refine (element_ends (Nat.not_le.1 hlt)).bind fun tx _ _ => ?_
        refine (store_ends hlt₂ _).bind ?_
        rintro _ - rfl
        exact ih his.2 (by simp [hvtx]) havailable
    | some tx =>
      refine (store_ends hlt₂ _).bind ?_
      rintro _ - rfl
      refine (store_ends hlt₁ _).bind ?_
      rintro _ - rfl
      exact ih his.2 (by simp [hvtx]) (by simp [havailable])

theorem fillBlock_ends {block : PartiallyDownloadedBlock} (h : isNullHeader block.header = false)
    (checkBlock : CBlock → BlockCheck) (vtx_missing : List CTransactionRef) :
    ∃ r, fillBlock checkBlock block vtx_missing = .ok r := by
  have hends : Ends never (fun _ => True) (fillBlock checkBlock block vtx_missing) := by
    rw [fillBlock, h]
    refine Ends.bind (P := fun _ => True) (Ends.ok trivial) fun _ _ _ => ?_
    apply Ends.bind (fillTxs_ends (n := block.txn_available.length) _ (by simp) rfl)
    · rintro ⟨fDone, s⟩ - -
      apply Ends.ite
      · intro _
        exact Ends.ok trivial
      · intro _
        apply Ends.ite
        · intro _
          exact Ends.ok trivial
        · intro _
          split <;> exact Ends.ok trivial
    · intro i hi
      exact List.mem_range.1 hi
  obtain ⟨r, hr, -⟩ := hends.exists_ok
  exact ⟨r, hr⟩

/-- The transactions of a block that are not available, in their order. -/
def missing : List CTransactionRef → List CTransactionRef → List CTransactionRef
  | none :: available, ref :: vtx => ref :: missing available vtx
  | some _ :: available, _ :: vtx => missing available vtx
  | _, _ => []

def Own (available vtx : List CTransactionRef) : Prop :=
  List.Forall₂ (fun ref ref' => ref = none ∨ ref = ref') available vtx

theorem fillTxs_missing {front vtx done available used : List CTransactionRef}
    (hown : Own available vtx) (hdone : done.length = front.length) :
    ∃ emptied, fillTxs (used ++ missing available vtx) (List.range' front.length vtx.length)
        ⟨front ++ List.replicate vtx.length none, done ++ available, used.length⟩ =
      .ok (true, ⟨front ++ vtx, emptied, (used ++ missing available vtx).length⟩) := by
  induction hown generalizing front done used with
  | nil => exact ⟨done, by simp [fillTxs, missing]⟩
  | @cons ref ref' available vtx hown hrest ih =>
    have hget : element (done ++ ref :: available) front.length = .ok ref := by
      rw [element_eq_ok, ← hdone]
      simp
    have hset : ∀ a, store (front ++ List.replicate (ref' :: vtx).length none) front.length a =
        .ok (front ++ a :: List.replicate vtx.length none) := by
      intro a
      rw [store_of_lt (by simp)]
      simp [List.replicate_succ]
    have hassoc : ∀ a : CTransactionRef, front ++ a :: List.replicate vtx.length none =
        (front ++ [a]) ++ List.replicate vtx.length none := by
      intro a
      simp
    have hassoc' : ∀ a : CTransactionRef, done ++ a :: available = (done ++ [a]) ++ available := by
      intro a
      simp
    have hlength : (front ++ [ref']).length = front.length + 1 := by simp
    have hcons : ∀ a : CTransactionRef, (a :: vtx).length = vtx.length + 1 :=
      fun a => List.length_cons
    rw [hcons, List.range'_succ, fillTxs, bind_of_eq_ok hget]
    cases ref with
    | none =>
      have hmissing : used ++ missing (none :: available) (ref' :: vtx) =
          (used ++ [ref']) ++ missing available vtx := by simp [missing]
      have hroom : ¬(used ++ missing (none :: available) (ref' :: vtx)).length ≤ used.length := by
        simp [missing]
      have htx : element (used ++ missing (none :: available) (ref' :: vtx)) used.length =
          .ok ref' := by
        rw [element_eq_ok]
        simp [missing]
      obtain ⟨emptied, hrun⟩ := @ih (front ++ [ref']) (done ++ [none]) (used ++ [ref'])
        (by simp [hdone])
      refine ⟨emptied, ?_⟩
      dsimp only
      rw [if_neg hroom, bind_of_eq_ok htx, ← hcons ref',
        bind_of_eq_ok (hset ref'), hassoc, hassoc', hmissing, ← hlength]
      rw [@List.length_append _ used, List.length_singleton] at hrun
      rw [hrun, List.append_assoc front, List.singleton_append]
    | some tx =>
      have href : some tx = ref' := hown.resolve_left nofun
      subst href
      have hmissing : missing (some tx :: available) (some tx :: vtx) = missing available vtx := rfl
      have hmove : store (done ++ some tx :: available) front.length none =
          .ok (done ++ none :: available) := by
        rw [store_of_lt (by simp [hdone]), ← hdone]
        simp
      obtain ⟨emptied, hrun⟩ := @ih (front ++ [some tx]) (done ++ [none]) used (by simp [hdone])
      refine ⟨emptied, ?_⟩
      dsimp only
      rw [← hcons (some tx), bind_of_eq_ok (hset (some tx)),
        bind_of_eq_ok hmove, hassoc, hassoc', hmissing, ← hlength, hrun, List.append_assoc front,
        List.singleton_append]

/-- What `CheckBlock` makes of the result. -/
def statusOf : BlockCheck → ReadStatus
  | .valid => .READ_STATUS_OK
  | .invalid true => .READ_STATUS_FAILED
  | .invalid false => .READ_STATUS_CHECKBLOCK_FAILED

/-- **With the missing transactions the block is complete.** -/
theorem fillBlock_missing {block : PartiallyDownloadedBlock} {vtx : List CTransactionRef}
    (hheader : isNullHeader block.header = false) (hown : Own block.txn_available vtx)
    (checkBlock : CBlock → BlockCheck) :
    fillBlock checkBlock block (missing block.txn_available vtx) =
      .ok (statusOf (checkBlock ⟨block.header, vtx⟩), ⟨block.header, vtx⟩,
        { block with header := nullHeader, txn_available := [] }) := by
  obtain ⟨emptied, hrun⟩ := @fillTxs_missing [] vtx [] block.txn_available [] hown rfl
  have hlength : block.txn_available.length = vtx.length := hown.length_eq
  rw [List.nil_append, List.nil_append, List.nil_append, List.nil_append, List.length_nil,
    ← List.range_eq_range', ← hlength] at hrun
  have hrequire : require (!isNullHeader block.header) Fault.assertion = .ok () := by
    rw [hheader]
    rfl
  rw [fillBlock, bind_of_eq_ok hrequire]
  dsimp only
  rw [bind_of_eq_ok hrun]
  dsimp only
  rw [if_neg (show ¬(!true) = true by decide), if_neg (not_not.2 rfl)]
  cases checkBlock ⟨block.header, vtx⟩ with
  | valid => rfl
  | invalid corruptionPossible => cases corruptionPossible <;> rfl

end Fill

/-! ## Indexes in range -/

section Range

variable {bucketSize : BucketSize} {H : BlockHashes} {msg : CBlockHeaderAndShortTxIDs}

/-- Whatever is in the pools, and whatever is then given to `FillBlock`: **no index is out of range,
no computation leaves its type and no loop is endless**. -/
structure InRange (bucketSize : BucketSize) (H : BlockHashes) (msg : CBlockHeaderAndShortTxIDs) :
    Prop where
  init : ∀ vTxHashes extra_txn e,
    initData bucketSize H .new msg vTxHashes extra_txn = .error e → e = .nullptr
  positions : acceptsMessage msg = true → ∀ r, indexShortIds bucketSize msg = .ok r →
    ∀ p ∈ r.2.2.positions, p < 2 ^ 16
  fill : ∀ vTxHashes extra_txn block,
    initData bucketSize H .new msg vTxHashes extra_txn = .ok (.READ_STATUS_OK, block) →
      ∀ checkBlock vtx_missing, ∃ r, fillBlock checkBlock block vtx_missing = .ok r

/-- The message is refused, or no short id is reached whose place in the block needs more than 16
bits: there is none, or a bucket overflows before it. -/
def FitsIndexes (bucketSize : BucketSize) (msg : CBlockHeaderAndShortTxIDs) : Prop :=
  acceptsMessage msg = true → Prefillable msg.shorttxids.length 0 (-1) msg.prefilledtxn →
    Near bucketSize msg.shorttxids.length [] msg.shorttxids (places msg)

theorem prefill_places (h : Prefillable msg.shorttxids.length 0 (-1) msg.prefilledtxn) :
    ∃ filled, prefill msg.shorttxids.length 0 msg.prefilledtxn (-1)
        (List.replicate msg.blockTxCount none) = .ok (.READ_STATUS_OK, filled) ∧
      filled.length = msg.blockTxCount ∧ (∀ p, Filled filled p → p < 2 ^ 16) ∧
      gapsLeft filled [] 0 = places msg ∧ msg.shorttxids.length ≤ (places msg).length := by
  have hlength : (List.replicate msg.blockTxCount (none : CTransactionRef)).length =
      msg.shorttxids.length + 0 + msg.prefilledtxn.length := by
    rw [List.length_replicate]
    rfl
  obtain ⟨filled, hrun, hsame, hfilled, hgaps⟩ :=
    (prefill_spec hlength le_rfl (by decide)).1 h
  rw [List.length_replicate] at hsame
  have hfilled' : ∀ q, Filled filled q ↔ q ∈ prefilledAt (-1) msg.prefilledtxn := by
    intro q
    rw [hfilled, or_iff_left]
    rintro ⟨tx, htx⟩
    rw [List.getElem?_replicate] at htx
    split at htx <;> cases htx
  have hplaces := gaps_eq_places hsame hfilled'
  refine ⟨filled, hrun, hsame, ?_, hplaces, ?_⟩
  · intro p hp
    exact prefilledAt_le h p ((hfilled' p).1 hp)
  · rw [gaps_replicate, List.length_range', hplaces] at hgaps
    have hcount : msg.blockTxCount = msg.shorttxids.length + msg.prefilledtxn.length := rfl
    omega

theorem prefill_refused (h : ¬Prefillable msg.shorttxids.length 0 (-1) msg.prefilledtxn) :
    Ends (fun e => e = .nullptr) (fun r => r.1 = .READ_STATUS_INVALID ∧ r.2.2.positions = [])
      (indexShortIds bucketSize msg) := by
  have hlength : (List.replicate msg.blockTxCount (none : CTransactionRef)).length =
      msg.shorttxids.length + 0 + msg.prefilledtxn.length := by
    rw [List.length_replicate]
    rfl
  rw [indexShortIds]
  obtain hrun | ⟨filled, hrun⟩ := (prefill_spec hlength le_rfl (by decide)).2 h
  · rw [hrun]
    exact Ends.error rfl
  · rw [bind_of_eq_ok hrun]
    exact Ends.ok ⟨rfl, rfl⟩

theorem skipFilled_ne_nullptr {txn_available : List CTransactionRef} {i : ℕ} {o : UInt16}
    {e : Fault} (h : skipFilled txn_available i o = .error e) : e ≠ .nullptr := by
  rw [skipFilled] at h
  cases hr : Loop.run (skipStep txn_available i) (2 ^ 16) o with
  | none =>
    rw [hr] at h
    cases h
    decide
  | some r =>
    rw [hr] at h
    refine Loop.run_invariant (I := fun _ => True) (Q := fun r => ∀ e, r = .error e → e ≠ .nullptr)
      (fun _ _ _ _ => trivial) ?_ trivial hr e (show r = .error e from h)
    intro s r _ hstep e hr
    rw [skipStep] at hstep
    split at hstep
    · cases hstep
      cases hr
      decide
    · cases hstep
      cases hr
    · cases hstep

theorem placeShortIds_ends {S : ℕ} {txn_available : List CTransactionRef} {done rest : List UInt64}
    {t : ShortIdTable} : Ends (fun e => e ≠ .nullptr) (fun _ => True)
      (placeShortIds bucketSize S txn_available done rest t) := by
  induction rest generalizing done t with
  | nil => exact Ends.ok trivial
  | cons id rest ih =>
    rw [placeShortIds]
    apply Ends.bind (P := fun _ => True)
    · cases hskip : skipFilled txn_available done.length t.index_offset with
      | ok o => exact Ends.ok trivial
      | error e => exact Ends.error (skipFilled_ne_nullptr hskip)
    · intro o _ _
      apply Ends.ite
      · intro _
        exact Ends.ok trivial
      · intro _
        exact ih

/-- What `InitData` makes of the end of the loop. -/
def tableStatus (msg : CBlockHeaderAndShortTxIDs) (r : ReadStatus × ShortIdTable) : ReadStatus :=
  if r.1 = .READ_STATUS_OK ∧ r.2.shorttxids.size ≠ msg.shorttxids.length then .READ_STATUS_FAILED
  else r.1

theorem indexShortIds_eq {filled : List CTransactionRef}
    (h : prefill msg.shorttxids.length 0 msg.prefilledtxn (-1)
      (List.replicate msg.blockTxCount none) = .ok (.READ_STATUS_OK, filled)) :
    indexShortIds bucketSize msg = (do
      let r ← placeShortIds bucketSize msg.shorttxids.length filled [] msg.shorttxids ⟨∅, 0, []⟩
      return (tableStatus msg r, filled, r.2)) := by
  rw [indexShortIds, bind_of_eq_ok h]
  dsimp only
  rw [if_neg (not_not.2 rfl)]
  cases placeShortIds bucketSize msg.shorttxids.length filled [] msg.shorttxids ⟨∅, 0, []⟩ with
  | error e => rfl
  | ok r =>
    change (if _ then _ else _) = Except.ok (tableStatus msg r, filled, r.2)
    rw [tableStatus]
    split <;> rfl

theorem initData_eq (haccepts : acceptsMessage msg = true)
    (vTxHashes : List (arith_uint256 × CMutableTransaction))
    (extra_txn : List (arith_uint256 × CTransactionRef)) :
    initData bucketSize H .new msg vTxHashes extra_txn = (do
      let r ← indexShortIds bucketSize msg
      if r.1 = .READ_STATUS_INVALID then return (r.1, ⟨r.2.1, 0, 0, 0, msg.header⟩)
      if r.1 ≠ .READ_STATUS_OK then
        return (r.1, ⟨r.2.1, UInt64.ofNat msg.prefilledtxn.length, 0, 0, msg.header⟩)
      let count := UInt64.ofNat r.2.2.shorttxids.size
      let s ← matchAll (fun e => matchMempoolTx r.2.2.shorttxids (msg.getShortID e.1) e.2) count
        vTxHashes ⟨r.2.1, List.replicate r.2.1.length false, 0, 0⟩
      let s ← matchAll (fun e => matchExtraTx H r.2.2.shorttxids (msg.getShortID e.1) e.2) count
        extra_txn s
      return (.READ_STATUS_OK, ⟨s.txn_available, UInt64.ofNat msg.prefilledtxn.length,
        s.mempool_count, s.extra_count, msg.header⟩)) := by
  rw [initData, haccepts]
  rfl

theorem pools_ends {n : ℕ} {t : ShortIdTable} {I : List CTransactionRef → Prop} {F : Fault → Prop}
    {count : UInt64} {vTxHashes : List (arith_uint256 × CMutableTransaction)}
    {extra_txn : List (arith_uint256 × CTransactionRef)} {s : Matched}
    (hin : ∀ id idit, t.shorttxids.find? id = some idit → idit.toNat < n)
    (hmempool : ∀ e ∈ vTxHashes, ∀ idit l, t.shorttxids.find? (msg.getShortID e.1) = some idit →
      I l → I (l.set idit.toNat (some e.2)))
    (hextra : ∀ e ∈ extra_txn, ∀ idit l, t.shorttxids.find? (msg.getShortID e.1) = some idit →
      I l → I (l.set idit.toNat e.2))
    (hdrop : ∀ i l, I l → I (l.set i none))
    (hnull : ∀ e ∈ extra_txn, e.2 = none → t.shorttxids.count (msg.getShortID e.1) = true →
      F .nullptr)
    (hs : s.Good n I) :
    Ends F (Matched.Good n I) (do
      let s ← matchAll (fun e => matchMempoolTx t.shorttxids (msg.getShortID e.1) e.2) count
        vTxHashes s
      matchAll (fun e => matchExtraTx H t.shorttxids (msg.getShortID e.1) e.2) count extra_txn
        s) := by
  apply Ends.bind (P := Matched.Good n I)
  · apply matchAll_ends _ hs
    intro e he s hs
    exact (matchMempoolTx_ends (hin _) (hmempool e he) hdrop hs).of_never
  · intro s _ hs
    apply matchAll_ends _ hs
    intro e he s hs
    apply (matchExtraTx_ends (hin _) (hextra e he) hdrop hs).mono
    · rintro _ ⟨rfl, hnone, hcount⟩
      exact hnull e he hnone hcount
    · intro s hs
      exact hs

theorem toNat_lt_of_within {t : ShortIdTable} {n : ℕ} (h : t.Within n)
    (hpositions : ∀ p ∈ t.positions, p < 2 ^ 16) {id : UInt64} {idit : UInt16}
    (hfind : t.shorttxids.find? id = some idit) : idit.toNat < n := by
  obtain ⟨p, hp, rfl⟩ := h.stored id idit hfind
  rw [UInt16.toNat_ofNat', Nat.mod_eq_of_lt (hpositions p hp)]
  exact h.positions p hp

theorem indexShortIds_inRange
    (h : Prefillable msg.shorttxids.length 0 (-1) msg.prefilledtxn) :
    (∃ r, indexShortIds bucketSize msg = .ok r ∧ ∀ p ∈ r.2.2.positions, p < 2 ^ 16) ↔
      Near bucketSize msg.shorttxids.length [] msg.shorttxids (places msg) := by
  obtain ⟨filled, hrun, -, hbelow, hgaps, henough⟩ := prefill_places h
  have hiff := @placeShortIds_inRange bucketSize msg.shorttxids.length filled [] msg.shorttxids
    ⟨∅, 0, []⟩ hbelow (fun _ => rfl) (by dsimp only; rwa [hgaps])
  dsimp only at hiff
  rw [hgaps] at hiff
  rw [indexShortIds_eq hrun]
  constructor
  · rintro ⟨r, hr, hpositions⟩
    obtain ⟨r', hplace, hr⟩ := bind_ok.1 hr
    cases hr
    exact (hiff.1 ⟨r', hplace, hpositions⟩).2
  · intro hnear
    obtain ⟨r', hplace, hpositions⟩ := hiff.2 ⟨List.forall_mem_nil _, hnear⟩
    exact ⟨_, bind_of_eq_ok hplace _, hpositions⟩

theorem indexShortIds_within (h : Prefillable msg.shorttxids.length 0 (-1) msg.prefilledtxn)
    {r : ReadStatus × List CTransactionRef × ShortIdTable}
    (hr : indexShortIds bucketSize msg = .ok r) : r.2.2.Within r.2.1.length := by
  obtain ⟨filled, hrun, -⟩ := prefill_places h
  rw [indexShortIds_eq hrun] at hr
  obtain ⟨r', hplace, hr⟩ := bind_ok.1 hr
  cases hr
  exact placeShortIds_within (.empty _) hplace

theorem indexShortIds_error (h : Prefillable msg.shorttxids.length 0 (-1) msg.prefilledtxn)
    {e : Fault} (hr : indexShortIds bucketSize msg = .error e) : e ≠ .nullptr := by
  obtain ⟨filled, hrun, -⟩ := prefill_places h
  rw [indexShortIds_eq hrun] at hr
  have hends : Ends (fun e => e ≠ .nullptr) (fun _ => True) (do
      let r ← placeShortIds bucketSize msg.shorttxids.length filled [] msg.shorttxids ⟨∅, 0, []⟩
      return (tableStatus msg r, filled, r.2)) :=
    placeShortIds_ends.bind fun _ _ _ => Ends.ok trivial
  exact hends.of_error hr

theorem initData_ends (haccepts : acceptsMessage msg = true) (h : FitsIndexes bucketSize msg)
    (vTxHashes : List (arith_uint256 × CMutableTransaction))
    (extra_txn : List (arith_uint256 × CTransactionRef)) :
    Ends (fun e => e = .nullptr) (fun r => r.2.header = msg.header)
      (initData bucketSize H .new msg vTxHashes extra_txn) := by
  rw [initData_eq haccepts]
  by_cases hprefillable : Prefillable msg.shorttxids.length 0 (-1) msg.prefilledtxn
  · obtain ⟨r, hr, hpositions⟩ := (indexShortIds_inRange hprefillable).2 (h haccepts hprefillable)
    have hwithin := indexShortIds_within hprefillable hr
    rw [bind_of_eq_ok hr]
    apply Ends.ite
    · intro _
      exact Ends.ok rfl
    · intro _
      apply Ends.ite
      · intro _
        exact Ends.ok rfl
      · intro _
        dsimp only
        rw [← bind_assoc]
        apply Ends.bind
        · apply pools_ends (n := r.2.1.length) (I := fun _ => True)
          · intro id idit hfind
            exact toNat_lt_of_within hwithin hpositions hfind
          · exact fun _ _ _ _ _ _ => trivial
          · exact fun _ _ _ _ _ _ => trivial
          · exact fun _ _ _ => trivial
          · exact fun _ _ _ _ => rfl
          · exact ⟨rfl, List.length_replicate, trivial⟩
        · intro s _ _
          exact Ends.ok rfl
  · apply (prefill_refused hprefillable).bind
    rintro r - ⟨hstatus, -⟩
    rw [if_pos hstatus]
    exact Ends.ok rfl

/-- **The indexes stay in range if and only if the positions fit 16 bits.** -/
theorem inRange_iff : InRange bucketSize H msg ↔ FitsIndexes bucketSize msg := by
  constructor
  · intro h haccepts hprefillable
    rw [← indexShortIds_inRange hprefillable]
    cases hindex : indexShortIds bucketSize msg with
    | error e =>
      have hinit := @initData_eq bucketSize H _ haccepts [] []
      rw [hindex] at hinit
      exact absurd (h.init [] [] e hinit) (indexShortIds_error hprefillable hindex)
    | ok r => exact ⟨r, rfl, h.positions haccepts r hindex⟩
  · intro h
    cases haccepts : acceptsMessage msg with
    | false =>
      have hrefused : ∀ vTxHashes extra_txn, initData bucketSize H .new msg vTxHashes extra_txn =
          .ok (.READ_STATUS_INVALID, .new) := by
        intro vTxHashes extra_txn
        rw [initData, haccepts]
        rfl
      constructor
      · intro vTxHashes extra_txn e he
        rw [hrefused] at he
        cases he
      · intro htrue
        rw [haccepts] at htrue
        cases htrue
      · intro vTxHashes extra_txn block hok
        rw [hrefused] at hok
        cases hok
    | true =>
      constructor
      · intro vTxHashes extra_txn e he
        exact (initData_ends haccepts h vTxHashes extra_txn).of_error he
      · intro _ r hr
        by_cases hprefillable : Prefillable msg.shorttxids.length 0 (-1) msg.prefilledtxn
        · obtain ⟨r', hr', hpositions⟩ :=
            (indexShortIds_inRange hprefillable).2 (h haccepts hprefillable)
          rw [hr] at hr'
          cases hr'
          exact hpositions
        · rw [((prefill_refused hprefillable).of_ok hr).2]
          intro p hp
          cases hp
      · intro vTxHashes extra_txn block hok
        have hheader : block.header = msg.header :=
          (initData_ends haccepts h vTxHashes extra_txn).of_ok hok
        apply fillBlock_ends
        rw [hheader]
        rw [acceptsMessage] at haccepts
        simp only [Bool.and_eq_true, Bool.not_eq_true', Bool.or_eq_false_iff] at haccepts
        exact haccepts.1.1

theorem fitsIndexes_of_count (h : msg.blockTxCount ≤ 2 ^ 16) : FitsIndexes bucketSize msg := by
  intro _ _ k _ _ p hp
  have hmem := List.mem_of_mem_filter (List.mem_of_getElem? hp)
  exact (List.mem_range.1 hmem).trans_le h

end Range

/-! ## The message of a block -/

section Table

variable {bucketSize : BucketSize} {S : ℕ} {txn_available : List CTransactionRef}
  {done rest : List UInt64} {t : ShortIdTable}

def storeAll (m : StdMap UInt64 UInt16) (l : List (UInt64 × ℕ)) : StdMap UInt64 UInt16 :=
  l.foldl (fun m e => m.assign e.1 (UInt16.ofNat e.2)) m

theorem mem_of_storeAll {m : StdMap UInt64 UInt16} {l : List (UInt64 × ℕ)} {id : UInt64}
    {idit : UInt16} (h : (storeAll m l).find? id = some idit) :
    (∃ p, (id, p) ∈ l ∧ idit = UInt16.ofNat p) ∨ m.find? id = some idit := by
  induction l generalizing m with
  | nil => exact .inr h
  | cons e l ih =>
    rcases ih h with ⟨p, hp, heq⟩ | hold
    · exact .inl ⟨p, List.mem_cons_of_mem _ hp, heq⟩
    · rw [find?_assign] at hold
      split at hold
      · rename_i hid
        cases hold
        exact .inl ⟨e.2, by rw [hid]; exact List.mem_cons_self, rfl⟩
      · exact .inr hold

theorem size_assign_fresh {m : StdMap UInt64 UInt16} {id : UInt64} (h : m.count id = false)
    (idit : UInt16) : (m.assign id idit).size = m.size + 1 := by
  have hnot : id ∉ m.toAList.keys := by
    intro hmem
    have hcount := mem_keys.1 hmem
    rw [h] at hcount
    cases hcount
  rw [size_eq_keys, size_eq_keys, StdMap.keys, StdMap.keys, StdMap.assign,
    AList.keys_insert, List.erase_of_not_mem hnot, List.length_cons]

theorem size_storeAll {m : StdMap UInt64 UInt16} {l : List (UInt64 × ℕ)}
    (hnodup : (l.map Prod.fst).Nodup) (hfresh : ∀ e ∈ l, m.count e.1 = false) :
    (storeAll m l).size = m.size + l.length := by
  induction l generalizing m with
  | nil => rfl
  | cons e l ih =>
    rw [List.map_cons, List.nodup_cons] at hnodup
    rw [List.forall_mem_cons] at hfresh
    have hrest : ∀ e' ∈ l, (m.assign e.1 (UInt16.ofNat e.2)).count e'.1 = false := by
      intro e' he'
      have hne : e'.1 ≠ e.1 := by
        intro heq
        exact hnodup.1 (heq ▸ List.mem_map_of_mem he')
      rw [count_assign, hfresh.2 e' he', decide_eq_false hne]
      rfl
    have hsize := ih hnodup.2 hrest
    rw [size_assign_fresh hfresh.1] at hsize
    rw [List.length_cons, Nat.add_comm l.length, ← Nat.add_assoc]
    exact hsize

theorem placeShortIds_quiet {gs : List ℕ} (hgaps : gapsLeft txn_available done t.index_offset = gs)
    (henough : rest.length ≤ gs.length) (hsmall : ∀ p ∈ gs, p < 2 ^ 16)
    (hquiet : ∀ k < rest.length, Quiet bucketSize S done rest k) :
    ∃ t', placeShortIds bucketSize S txn_available done rest t = .ok (.READ_STATUS_OK, t') ∧
      t'.shorttxids = storeAll t.shorttxids (rest.zip gs) := by
  induction rest generalizing done t gs with
  | nil => exact ⟨t, rfl, rfl⟩
  | cons id rest ih =>
    cases gs with
    | nil => cases henough
    | cons q gs =>
      obtain ⟨hle, hgap, hfilled, hnext⟩ := gapsLeft_cons hgaps
      rw [List.forall_mem_cons] at hsmall
      have hnear : q - done.length < 2 ^ 16 := by omega
      have hskip := skipFilled_gap hle hfilled hgap hnear
      have hq := toNat_gap (show done.length ≤ q by omega) hnear
      have hroom := quiet_zero.1 (hquiet 0 (Nat.succ_pos _))
      rw [placeShortIds_cons hskip]
      dsimp only
      rw [hq, if_neg (Nat.not_lt.2 hroom)]
      obtain ⟨t', hrun, htable⟩ := @ih (done ++ [id])
        ⟨t.shorttxids.assign id (UInt16.ofNat q), UInt16.ofNat (q - done.length),
          t.positions ++ [q]⟩ gs (hnext id hnear) (Nat.le_of_succ_le_succ henough) hsmall.2
        fun k hk => quiet_succ.1 (hquiet (k + 1) (Nat.succ_lt_succ hk))
      exact ⟨t', hrun, htable⟩

end Table

section Block

variable {bucketSize : BucketSize} {H : BlockHashes} {nonce : UInt64} {block : CBlock}
  {fUseWTXID : Bool} {msg : CBlockHeaderAndShortTxIDs}

theorem mapM_ok {α β : Type} {f : α → Run β} {l : List α} {l' : List β}
    (h : l.mapM f = .ok l') : l'.length = l.length ∧ ∀ a ∈ l, ∃ b, f a = .ok b := by
  induction l generalizing l' with
  | nil =>
    cases h
    exact ⟨rfl, List.forall_mem_nil _⟩
  | cons a l ih =>
    rw [List.mapM_cons] at h
    obtain ⟨b, hb, h⟩ := bind_ok.1 h
    obtain ⟨bs, hbs, h⟩ := bind_ok.1 h
    cases h
    obtain ⟨hlength, hrest⟩ := ih hbs
    rw [List.length_cons, List.length_cons, hlength, List.forall_mem_cons]
    exact ⟨rfl, ⟨b, hb⟩, hrest⟩

theorem new_eq (h : CBlockHeaderAndShortTxIDs.new H nonce block fUseWTXID = .ok msg) :
    ∃ coinbase rest, block.vtx = coinbase :: rest ∧ msg.header = block.header ∧
      msg.prefilledtxn = [⟨0, coinbase⟩] ∧ msg.shorttxids.length = rest.length ∧
      none ∉ rest := by
  obtain ⟨coinbase, hcoinbase, h⟩ := bind_ok.1 h
  obtain ⟨shorttxids, hids, h⟩ := bind_ok.1 h
  cases h
  obtain ⟨hlength, hderef⟩ := mapM_ok hids
  cases hvtx : block.vtx with
  | nil =>
    rw [hvtx] at hcoinbase
    cases hcoinbase
  | cons ref rest =>
    rw [hvtx] at hcoinbase hlength hderef
    cases hcoinbase
    refine ⟨_, rest, rfl, rfl, rfl, hlength, ?_⟩
    intro hnone
    obtain ⟨id, hid⟩ := hderef none hnone
    cases hid

/-- Each entry that has the short id of a transaction of the block is that transaction. -/
def OnlyOwn (msg : CBlockHeaderAndShortTxIDs) (block : CBlock)
    (entries : List (arith_uint256 × CTransactionRef)) : Prop :=
  ∀ e ∈ entries, ∀ k, msg.shorttxids[k]? = some (msg.getShortID e.1) →
    block.vtx[k + 1]? = some e.2

theorem own_replicate (vtx : List CTransactionRef) :
    Own (List.replicate vtx.length none) vtx := by
  induction vtx with
  | nil => exact .nil
  | cons ref vtx ih => exact .cons (.inl rfl) ih

theorem Own.set {available vtx : List CTransactionRef} {ref : CTransactionRef} {i : ℕ}
    (h : Own available vtx) (href : ref = none ∨ vtx[i]? = some ref) :
    Own (available.set i ref) vtx := by
  induction h generalizing i with
  | nil => exact .nil
  | cons hown hrest ih =>
    cases i with
    | zero => exact .cons (href.imp_right fun heq => (Option.some.inj heq).symm) hrest
    | succ i => exact .cons hown (ih href)

theorem Own.getElem? {available vtx : List CTransactionRef} {tx : CMutableTransaction} {i : ℕ}
    (h : Own available vtx) (htx : available[i]? = some (some tx)) : vtx[i]? = some (some tx) := by
  induction h generalizing i with
  | nil => cases htx
  | cons hown hrest ih =>
    cases i with
    | zero =>
      cases htx
      rw [← hown.resolve_left nofun]
      rfl
    | succ i => exact ih htx

theorem prefill_coinbase {S : ℕ} {tx : CMutableTransaction} (h : isNullTx tx = false) :
    prefill S 0 [⟨0, some tx⟩] (-1) (List.replicate (S + 1) none) =
      .ok (.READ_STATUS_OK, some tx :: List.replicate S none) := by
  have hint : int32 (-1 + ((0 : UInt16).toNat + 1)) = .ok 0 := rfl
  have hderef : deref (some tx) = .ok tx := rfl
  have hstore : store (List.replicate (S + 1) (none : CTransactionRef)) 0 (some tx) =
      .ok (some tx :: List.replicate S none) := by
    rw [store_of_lt (by simp)]
    rfl
  rw [prefill, bind_of_eq_ok hderef, h, if_neg Bool.false_ne_true, bind_of_eq_ok hint,
    if_neg (by decide), if_neg (by simp)]
  exact bind_of_eq_ok hstore _

theorem indexShortIds_block {tx : CMutableTransaction}
    (hprefilled : msg.prefilledtxn = [⟨0, some tx⟩]) (htx : isNullTx tx = false)
    (hcount : msg.shorttxids.length + 1 ≤ 2 ^ 16) (hnodup : msg.shorttxids.Nodup)
    (hquiet : ∀ k < msg.shorttxids.length,
      Quiet bucketSize msg.shorttxids.length [] msg.shorttxids k) :
    ∃ t, indexShortIds bucketSize msg =
        .ok (.READ_STATUS_OK, some tx :: List.replicate msg.shorttxids.length none, t) ∧
      ∀ id idit, t.shorttxids.find? id = some idit →
        ∃ k, msg.shorttxids[k]? = some id ∧ idit.toNat = k + 1 := by
  have hrun : prefill msg.shorttxids.length 0 msg.prefilledtxn (-1)
      (List.replicate msg.blockTxCount none) =
        .ok (.READ_STATUS_OK, some tx :: List.replicate msg.shorttxids.length none) := by
    rw [CBlockHeaderAndShortTxIDs.blockTxCount, hprefilled]
    exact prefill_coinbase htx
  have hgaps : gapsLeft (some tx :: List.replicate msg.shorttxids.length none) [] 0 =
      List.range' 1 msg.shorttxids.length := gaps_replicate 1 _
  obtain ⟨t, hplace, htable⟩ := @placeShortIds_quiet bucketSize msg.shorttxids.length
    (some tx :: List.replicate msg.shorttxids.length none) [] msg.shorttxids ⟨∅, 0, []⟩ _ hgaps
    (by simp) (by simp; omega) hquiet
  have hsize : t.shorttxids.size = msg.shorttxids.length := by
    have hfst : (msg.shorttxids.zip (List.range' 1 msg.shorttxids.length)).map Prod.fst =
        msg.shorttxids := List.map_fst_zip (by simp)
    rw [htable, size_storeAll (by rwa [hfst]) (fun _ _ => count_empty _)]
    simp [StdMap.size]
  refine ⟨t, ?_, ?_⟩
  · rw [indexShortIds_eq hrun, bind_of_eq_ok hplace]
    have hstatus : tableStatus msg (.READ_STATUS_OK, t) = .READ_STATUS_OK := by
      rw [tableStatus, if_neg]
      rintro ⟨-, hne⟩
      exact hne hsize
    rw [hstatus]
    rfl
  · intro id idit hfind
    rw [htable] at hfind
    rcases mem_of_storeAll hfind with ⟨p, hp, rfl⟩ | hnone
    · obtain ⟨k, hk⟩ := List.mem_iff_getElem?.1 hp
      obtain ⟨hid, hpos⟩ := List.getElem?_zip_eq_some.1 hk
      obtain ⟨hlt, hposition⟩ := List.getElem?_eq_some_iff.1 hpos
      rw [List.length_range'] at hlt
      rw [List.getElem_range'] at hposition
      refine ⟨k, hid, ?_⟩
      rw [UInt16.toNat_ofNat', Nat.mod_eq_of_lt (by omega)]
      omega
    · rw [find?_empty] at hnone
      cases hnone

/-- **Only own transactions are found.** -/
theorem initData_own (hnew : CBlockHeaderAndShortTxIDs.new H nonce block fUseWTXID = .ok msg)
    (haccepts : acceptsMessage msg = true) {tx : CMutableTransaction}
    (hcoinbase : block.vtx[0]? = some (some tx)) (htx : isNullTx tx = false)
    (hcount : block.vtx.length ≤ 2 ^ 16) (hnodup : msg.shorttxids.Nodup)
    (hquiet : ∀ k < msg.shorttxids.length,
      Quiet bucketSize msg.shorttxids.length [] msg.shorttxids k)
    {vTxHashes : List (arith_uint256 × CMutableTransaction)}
    {extra_txn : List (arith_uint256 × CTransactionRef)}
    (hmempool : OnlyOwn msg block (vTxHashes.map fun e => (e.1, some e.2)))
    (hextra : OnlyOwn msg block extra_txn) :
    ∃ d, initData bucketSize H .new msg vTxHashes extra_txn = .ok (.READ_STATUS_OK, d) ∧
      Own d.txn_available block.vtx ∧ d.header = block.header := by
  obtain ⟨coinbase, rest, hvtx, hheader, hprefilled, hlength, hrefs⟩ := new_eq hnew
  rw [hvtx] at hcoinbase hcount
  cases hcoinbase
  rw [List.length_cons, ← hlength] at hcount
  obtain ⟨t, hindex, hfind⟩ := indexShortIds_block hprefilled htx hcount hnodup hquiet
  have hown : Own (some tx :: List.replicate msg.shorttxids.length none) block.vtx := by
    rw [hvtx, hlength]
    exact .cons (.inr rfl) (own_replicate rest)
  have hpools : Ends never (Matched.Good (msg.shorttxids.length + 1) (Own · block.vtx)) (do
      let s ← matchAll (fun e => matchMempoolTx t.shorttxids (msg.getShortID e.1) e.2)
        (UInt64.ofNat t.shorttxids.size) vTxHashes
        ⟨some tx :: List.replicate msg.shorttxids.length none,
          List.replicate (some tx :: List.replicate msg.shorttxids.length none).length false, 0, 0⟩
      matchAll (fun e => matchExtraTx H t.shorttxids (msg.getShortID e.1) e.2)
        (UInt64.ofNat t.shorttxids.size) extra_txn s) := by
    apply pools_ends
    · intro id idit hid
      obtain ⟨k, hk, hidit⟩ := hfind id idit hid
      have hlt := (List.getElem?_eq_some_iff.1 hk).1
      omega
    · intro e he idit l hid hl
      obtain ⟨k, hk, hidit⟩ := hfind _ idit hid
      rw [hidit]
      exact hl.set (.inr (hmempool (e.1, some e.2) (List.mem_map_of_mem he) k hk))
    · intro e he idit l hid hl
      obtain ⟨k, hk, hidit⟩ := hfind _ idit hid
      rw [hidit]
      exact hl.set (.inr (hextra e he k hk))
    · intro i l hl
      exact hl.set (.inl rfl)
    · intro e he hnone hcount
      obtain ⟨idit, hid⟩ := count_eq_true.1 hcount
      obtain ⟨k, hk, -⟩ := hfind _ idit hid
      have href := hextra e he k hk
      rw [hvtx, hnone] at href
      exact hrefs (List.mem_of_getElem? href)
    · exact ⟨by simp, by simp, hown⟩
  obtain ⟨s, hs, hgood⟩ := hpools.exists_ok
  refine ⟨⟨s.txn_available, UInt64.ofNat msg.prefilledtxn.length, s.mempool_count, s.extra_count,
    msg.header⟩, ?_, hgood.inv, hheader⟩
  rw [initData_eq haccepts, bind_of_eq_ok hindex, if_neg nofun, if_neg (not_not.2 rfl)]
  dsimp only
  rw [← bind_assoc, bind_of_eq_ok hs]
  rfl

end Block

/-! ## The reconstruction -/

section Exact

variable {bucketSize : BucketSize} {H : BlockHashes} {nonce : UInt64} {block : CBlock}
  {fUseWTXID : Bool} {msg : CBlockHeaderAndShortTxIDs}

/-- A block with no more transactions than there can be, and with a header and a coinbase that are
not null. -/
structure CBlock.Sendable (block : CBlock) : Prop where
  header : isNullHeader block.header = false
  count : block.vtx.length ≤ getMaxBlockWeight / MIN_SERIALIZABLE_TRANSACTION_WEIGHT
  coinbase : ∃ tx, block.vtx[0]? = some (some tx) ∧ isNullTx tx = false

/-- Whatever is in the pools, as long as only own transactions have the short ids of the block:
`InitData` goes through, what is available is the block's, and with the missing transactions
`FillBlock` returns the block. -/
def Reconstructs (bucketSize : BucketSize) (H : BlockHashes) (block : CBlock)
    (msg : CBlockHeaderAndShortTxIDs) : Prop :=
  ∀ vTxHashes extra_txn, OnlyOwn msg block (vTxHashes.map fun e => (e.1, some e.2)) →
    OnlyOwn msg block extra_txn →
    ∃ d, initData bucketSize H .new msg vTxHashes extra_txn = .ok (.READ_STATUS_OK, d) ∧
      (∀ i < block.vtx.length, ∃ fAvailable, isTxAvailable d i = .ok fAvailable ∧
        (fAvailable = true → d.txn_available[i]? = block.vtx[i]?)) ∧
      ∀ checkBlock, fillBlock checkBlock d (missing d.txn_available block.vtx) =
        .ok (statusOf (checkBlock block), block,
          { d with header := nullHeader, txn_available := [] })

theorem acceptsMessage_new (hnew : CBlockHeaderAndShortTxIDs.new H nonce block fUseWTXID = .ok msg)
    (hsendable : block.Sendable) : acceptsMessage msg = true := by
  obtain ⟨coinbase, rest, hvtx, hheader, hprefilled, hlength, -⟩ := new_eq hnew
  have hcount := hsendable.count
  rw [hvtx, List.length_cons] at hcount
  rw [acceptsMessage, hheader, hsendable.header, hprefilled, hlength]
  simpa using hcount

/-- **The block is rebuilt.** -/
theorem reconstruct (hnew : CBlockHeaderAndShortTxIDs.new H nonce block fUseWTXID = .ok msg)
    (hsendable : block.Sendable) (hcount : block.vtx.length ≤ 2 ^ 16)
    (hnodup : msg.shorttxids.Nodup)
    (hquiet : ∀ k < msg.shorttxids.length,
      Quiet bucketSize msg.shorttxids.length [] msg.shorttxids k) :
    Reconstructs bucketSize H block msg := by
  intro vTxHashes extra_txn hmempool hextra
  obtain ⟨tx, hcoinbase, htx⟩ := hsendable.coinbase
  obtain ⟨d, hinit, hown, hheader⟩ := initData_own hnew (acceptsMessage_new hnew hsendable)
    hcoinbase htx hcount hnodup hquiet hmempool hextra
  have hnull : isNullHeader d.header = false := by
    rw [hheader]
    exact hsendable.header
  refine ⟨d, hinit, ?_, ?_⟩
  · intro i hi
    have hlt : i < d.txn_available.length := by rwa [hown.length_eq]
    obtain ⟨ref, helement, hget⟩ := element_of_lt hlt
    refine ⟨ref.isSome, ?_, ?_⟩
    · rw [isTxAvailable, hnull, decide_eq_true hlt]
      exact bind_of_eq_ok helement _
    · intro havailable
      obtain ⟨tx', rfl⟩ := Option.isSome_iff_exists.1 havailable
      rw [hget, hown.getElem? hget]
  · intro checkBlock
    have hfill := fillBlock_missing hnull hown checkBlock
    rw [hheader] at hfill
    exact hfill

theorem count_of_fitsIndexes
    (hnew : CBlockHeaderAndShortTxIDs.new H nonce block fUseWTXID = .ok msg)
    (hsendable : block.Sendable)
    (hquiet : ∀ k < msg.shorttxids.length,
      Quiet bucketSize msg.shorttxids.length [] msg.shorttxids k)
    (h : FitsIndexes bucketSize msg) : block.vtx.length ≤ 2 ^ 16 := by
  have haccepts := acceptsMessage_new hnew hsendable
  obtain ⟨coinbase, rest, hvtx, -, hprefilled, hlength, -⟩ := new_eq hnew
  obtain ⟨tx, hcoinbase, htx⟩ := hsendable.coinbase
  rw [hvtx] at hcoinbase ⊢
  cases hcoinbase
  have hprefillable : Prefillable msg.shorttxids.length 0 (-1) msg.prefilledtxn := by
    rw [hprefilled]
    have hindex : (-1 : ℤ) + (((0 : UInt16).toNat : ℤ) + 1) = 0 := rfl
    refine ⟨⟨tx, rfl, htx⟩, ?_, ?_, trivial⟩
    · rw [hindex]
      decide
    · rw [hindex]
      exact Nat.zero_le _
  have hplaces : places msg = List.range' 1 msg.shorttxids.length := by
    obtain ⟨filled, hrun, -, -, hgaps, -⟩ := prefill_places hprefillable
    rw [CBlockHeaderAndShortTxIDs.blockTxCount, hprefilled] at hrun
    have hsame := hrun.symm.trans (prefill_coinbase htx)
    cases hsame
    rw [← hgaps]
    exact gaps_replicate 1 _
  have hnear := h haccepts hprefillable
  rw [hplaces] at hnear
  rw [List.length_cons, ← hlength]
  by_contra hlarge
  have hpos : 0 < msg.shorttxids.length := by omega
  have hlast := hnear (msg.shorttxids.length - 1) (by omega) (fun j hj => hquiet j (by omega))
    (1 + (msg.shorttxids.length - 1)) (by
      rw [List.getElem?_range' (by omega), Nat.one_mul])
  omega

/-- **Exactly when the indexes of 16 bits are wide enough.**  A message is in range if and only if
no short id is reached whose place is beyond them, and a block without collisions is rebuilt in
range if and only if it has at most `2 ^ 16` transactions. -/
theorem compactBlock_exact (bucketSize : BucketSize) (H : BlockHashes) :
    (∀ msg, InRange bucketSize H msg ↔ FitsIndexes bucketSize msg) ∧
    ∀ nonce block fUseWTXID msg,
      CBlockHeaderAndShortTxIDs.new H nonce block fUseWTXID = .ok msg → block.Sendable →
      msg.shorttxids.Nodup →
      (∀ k < msg.shorttxids.length,
        Quiet bucketSize msg.shorttxids.length [] msg.shorttxids k) →
      (Reconstructs bucketSize H block msg ∧ InRange bucketSize H msg ↔
        block.vtx.length ≤ 2 ^ 16) := by
  refine ⟨fun msg => inRange_iff, ?_⟩
  intro nonce block fUseWTXID msg hnew hsendable hnodup hquiet
  constructor
  · rintro ⟨-, hrange⟩
    exact count_of_fitsIndexes hnew hsendable hquiet (inRange_iff.1 hrange)
  · intro hcount
    refine ⟨reconstruct hnew hsendable hcount hnodup hquiet, inRange_iff.2 ?_⟩
    apply fitsIndexes_of_count
    obtain ⟨coinbase, rest, hvtx, -, hprefilled, hlength, -⟩ := new_eq hnew
    rw [hvtx, List.length_cons] at hcount
    rw [CBlockHeaderAndShortTxIDs.blockTxCount, hprefilled, hlength]
    exact hcount

end Exact

/-! ## Two messages -/

section Examples

/-- Hash functions that tell transactions apart by their size. -/
def sizeHashes : BlockHashes := ⟨fun _ => 0, fun s => BitVec.ofNat 256 s.length, 0⟩

def idBuckets : BucketSize := fun count inserted key =>
  inserted.countP fun id => id.toNat % count == key.toNat % count

def someHeader : CBlockHeader := { nullHeader with nBits := 1 }

def twoTxBlock : CBlock := ⟨someHeader, [some (oneInput []), some (oneInput [[1]])]⟩

/-- The block is rebuilt, with its second transaction in the mempool and with another one there. -/
theorem twoTxBlock_reconstructs : ∃ msg,
    CBlockHeaderAndShortTxIDs.new sizeHashes 0 twoTxBlock true = .ok msg ∧
      Reconstructs idBuckets sizeHashes twoTxBlock msg ∧ InRange idBuckets sizeHashes msg := by
  refine ⟨_, rfl, ?_⟩
  refine ((compactBlock_exact idBuckets sizeHashes).2 0 twoTxBlock true _ rfl ⟨rfl, by decide,
    _, rfl, rfl⟩ (List.nodup_singleton _) ?_).2 (by decide)
  intro k hk id hid
  have hzero : k = 0 := Nat.lt_one_iff.1 hk
  subst hzero
  cases hid
  exact (List.countP_le_length).trans (by decide)

/-- Prefilled transactions from the first position on, and one short id. -/
def prefilledMessage (n : ℕ) : CBlockHeaderAndShortTxIDs :=
  ⟨0, 0, 0, [5], List.replicate n ⟨0, some (oneInput [])⟩, someHeader⟩

theorem prefilled_replicate {S i n : ℕ} {last : ℤ} {tx : CMutableTransaction}
    (htx : isNullTx tx = false) (hlast : last = i - 1) (hn : i + n ≤ 2 ^ 16) :
    Prefillable S i last (List.replicate n ⟨0, some tx⟩) ∧
      prefilledAt last (List.replicate n ⟨0, some tx⟩) = List.range' i n := by
  induction n generalizing i last with
  | zero => exact ⟨trivial, rfl⟩
  | succ n ih =>
    have hindex : last + (((0 : UInt16).toNat : ℤ) + 1) = i := by
      rw [hlast]
      simp
    obtain ⟨hprefillable, hat⟩ := @ih (i + 1) i (by omega) (by omega)
    rw [List.replicate_succ, Prefillable, prefilledAt, hindex, List.range'_succ, hat]
    refine ⟨⟨⟨tx, rfl, htx⟩, by omega, ?_, hprefillable⟩, rfl⟩
    rw [Int.toNat_natCast]
    exact Nat.le_add_left i S

theorem prefilledMessage_count (n : ℕ) : (prefilledMessage n).blockTxCount = 1 + n := by
  rw [CBlockHeaderAndShortTxIDs.blockTxCount, prefilledMessage, List.length_replicate,
    List.length_singleton]

theorem prefilledMessage_accepted {n : ℕ} (hn : n < 200000) :
    acceptsMessage (prefilledMessage n) = true := by
  have hweight : getMaxBlockWeight / MIN_SERIALIZABLE_TRANSACTION_WEIGHT = 200000 := by decide
  have hnull : isNullHeader (prefilledMessage n).header = false := rfl
  have hcount := prefilledMessage_count n
  rw [CBlockHeaderAndShortTxIDs.blockTxCount] at hcount
  rw [acceptsMessage, hnull, hcount, hweight]
  have hshort : (prefilledMessage n).shorttxids.isEmpty = false := rfl
  rw [hshort]
  simpa using (by omega : 1 + n ≤ 200000)

/-- **`InitData` never returns**: the offset comes back to 0 before the one free position. -/
theorem prefilledMessage_endless {n : ℕ} (hn : n = 2 ^ 16) (bucketSize : BucketSize)
    (H : BlockHashes) (vTxHashes : List (arith_uint256 × CMutableTransaction))
    (extra_txn : List (arith_uint256 × CTransactionRef)) :
    initData bucketSize H .new (prefilledMessage n) vTxHashes extra_txn = .error .endless := by
  have haccepts : acceptsMessage (prefilledMessage n) = true :=
    prefilledMessage_accepted (by omega)
  obtain ⟨hprefillable, hat⟩ := @prefilled_replicate 1 0 n (-1) (oneInput []) rfl (by simp)
    (by omega)
  have hlength : (List.replicate (prefilledMessage n).blockTxCount
      (none : CTransactionRef)).length = 1 + 0 + (prefilledMessage n).prefilledtxn.length := by
    rw [List.length_replicate]
    rfl
  obtain ⟨filled, hrun, -, hfilled, -⟩ :=
    (prefill_spec hlength le_rfl (by decide)).1 hprefillable
  have hskip : skipFilled filled 0 0 = .error .endless := by
    apply skipFilled_wrap
    intro k hk
    rw [hfilled]
    left
    rw [prefilledMessage, hat, List.mem_range']
    exact ⟨k, by omega, by omega⟩
  have hplace : placeShortIds bucketSize 1 filled [] [5] ⟨∅, 0, []⟩ = .error .endless := by
    rw [placeShortIds]
    dsimp only
    rw [List.length_nil, hskip]
    rfl
  have hindex : indexShortIds bucketSize (prefilledMessage n) = .error .endless := by
    rw [@indexShortIds_eq bucketSize (prefilledMessage n) filled hrun]
    exact bind_of_eq_error hplace _
  rw [initData_eq haccepts]
  exact bind_of_eq_error hindex _

theorem prefilledMessage_outOfRange :
    ¬∀ (bucketSize : BucketSize) (H : BlockHashes) (msg : CBlockHeaderAndShortTxIDs),
      InRange bucketSize H msg := by
  intro h
  have hendless := prefilledMessage_endless rfl idBuckets sizeHashes [] []
  have hnull := (h idBuckets sizeHashes (prefilledMessage (2 ^ 16))).init [] [] _ hendless
  cases hnull

end Examples

end Wire

end UnemployCoin
