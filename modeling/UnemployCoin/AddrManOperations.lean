import UnemployCoin.AddrManSteps
/-!
# What the operations of the address manager do

Between two operations every entry is in a table and both counters are exact (`CAddrMan.Sound`).  No
operation fails then, and each leaves it so, under what it needs of its arguments.
-/

namespace UnemployCoin

open Buckets

variable {hash : Bytes → UInt64}

namespace CAddrMan

/-- **Every entry is in a table** and the counters are exact. -/
def Sound (hash : Bytes → UInt64) (s : CAddrMan) : Prop := Inv hash ∅ 0 0 s

/-- The next id is neither the marker of an empty cell nor the id of an entry. -/
def FreshId (s : CAddrMan) : Prop := s.nIdCount ≠ -1 ∧ s.mapInfo.find? s.nIdCount = none

variable {s s' : CAddrMan} {L : Set Int32} {e f : ℤ} {i : Int32} {x : CAddrInfo}

theorem Inv.of_eq (h : Inv hash L e f s) (hinfo : s'.mapInfo = s.mapInfo)
    (haddr : s'.mapAddr = s.mapAddr) (hrandom : s'.vRandom = s.vRandom)
    (htables : s'.vvTried = s.vvTried ∧ s'.vvNew = s.vvNew) (hkey : s'.nKey = s.nKey)
    (hcounts : s'.nTried = s.nTried ∧ s'.nNew = s.nNew) : Inv hash L e f s' where
  indexed := by
    rw [hinfo, haddr, hrandom]
    exact h.indexed
  tabled := by
    rw [hinfo, htables.1, htables.2, hkey]
    exact h.tabled
  counted := by
    rw [hinfo, hcounts.1, hcounts.2]
    exact h.counted

theorem find_eq_some (h : Inv hash L e f s) {addr : CNetAddr} (hf : s.find addr = some (i, x)) :
    s.mapInfo.find? i = some x ∧ x.toCNetAddr = addr := by
  unfold find at hf
  simp only [Option.bind_eq_bind, Option.pure_def, Option.bind_eq_some_iff, Option.some.injEq,
    Prod.mk.injEq] at hf
  obtain ⟨j, hj, y, hy, rfl, rfl⟩ := hf
  obtain ⟨z, hz, hza⟩ := (h.indexed.addr addr j).1 hj
  rw [hy] at hz
  cases hz
  exact ⟨hy, hza⟩

theorem find_eq_none (h : Inv hash L e f s) {addr : CNetAddr} (hf : s.find addr = none) :
    s.mapAddr.find? addr = none := by
  unfold find at hf
  cases ha : s.mapAddr.find? addr with
  | none => rfl
  | some j =>
    obtain ⟨y, hy, -⟩ := (h.indexed.addr addr j).1 ha
    simp only [Option.bind_eq_bind, ha, Option.bind_some, hy, Option.pure_def, reduceCtorEq] at hf

/-- **`Good_`**, at a time after the epoch. -/
theorem good_spec (h : Sound hash s) (addr : CService) {nTime : ℤ} (hTime : 0 < nTime) (rnd : ℕ) :
    ∃ s', s.good_ hash addr nTime rnd = some s' ∧ Sound hash s' ∧ s'.nKey = s.nKey := by
  have h' : Sound hash { s with nLastGood := nTime } :=
    h.of_eq rfl rfl rfl ⟨rfl, rfl⟩ rfl ⟨rfl, rfl⟩
  unfold good_
  dsimp only
  split
  · exact ⟨_, rfl, h', rfl⟩
  · rename_i j y hf
    obtain ⟨hy, -⟩ := find_eq_some h' hf
    split
    · exact ⟨_, rfl, h', rfl⟩
    · have hset : Sound hash (({ s with nLastGood := nTime } : CAddrMan).setInfo j
          { y with nLastSuccess := nTime, nLastTry := nTime, nAttempts := 0 }) :=
        h'.setInfo hy rfl rfl rfl rfl (Int.le_of_lt hTime) (Int.le_of_lt hTime)
          fun _ => (Int.ne_of_lt hTime).symm
      split
      · exact ⟨_, rfl, hset, rfl⟩
      · rename_i htried
        split
        · have hfind := StdMap.find?_assign_self s.mapInfo j
            { y with nLastSuccess := nTime, nLastTry := nTime, nAttempts := 0 }
          exact makeTried_spec hset hfind (Bool.not_eq_true _ ▸ htried) (Int.ne_of_lt hTime).symm
        · exact ⟨_, rfl, hset, rfl⟩

theorem of_upToDate_eq_false {info : CAddrInfo} {addr : CAddress} {rnd : ℕ}
    (h : ¬ upToDate info addr rnd = true) :
    info.fInTried = false ∧ info.nRefCount ≠ ADDRMAN_NEW_BUCKETS_PER_ADDRESS := by
  unfold upToDate at h
  simp only [Bool.or_eq_true, decide_eq_true_eq, not_or] at h
  exact ⟨Bool.not_eq_true _ ▸ h.1.1.2, h.1.2⟩

/-- **`Add_`**, where a new entry gets a fresh id. -/
theorem add_spec (h : Sound hash s) (addr : CAddress) (source : CNetAddr) (nTimePenalty : ℤ)
    (draws : AddDraws) (hid : addr.isRoutable = true → s.find addr.toCNetAddr = none → s.FreshId) :
    ∃ b s', s.add_ hash addr source nTimePenalty draws = some (b, s') ∧ Sound hash s' ∧
      s'.nKey = s.nKey := by
  unfold add_
  split
  · exact ⟨_, _, rfl, h, rfl⟩
  · rename_i hroutable
    dsimp only
    generalize (if addr.toCNetAddr = source then 0 else nTimePenalty) = penalty
    split
    · rename_i j y hf
      obtain ⟨hy, -⟩ := find_eq_some h hf
      have hent := h.tabled.entry j y hy
      have hset : Sound hash (s.setInfo j (refresh y addr penalty draws.nNow)) :=
        h.setInfo hy rfl rfl rfl rfl hent.nLastTry hent.nLastSuccess id
      split
      · exact ⟨_, _, rfl, hset, rfl⟩
      · rename_i hup
        obtain ⟨htried, hfull⟩ := of_upToDate_eq_false hup
        have hfind := StdMap.find?_assign_self s.mapInfo j (refresh y addr penalty draws.nNow)
        have hroom :
            (refresh y addr penalty draws.nNow).nRefCount < ADDRMAN_NEW_BUCKETS_PER_ADDRESS :=
          lt_of_le_of_ne hent.most hfull
        have hlimbo : Inv hash {j} 0 0 (s.setInfo j (refresh y addr penalty draws.nNow)) := by
          apply hset.limbo_congr
          intro k z hz hzt hzr
          exact absurd (hset.limbo hz hzt hzr) (Set.notMem_empty k)
        obtain ⟨t, ht, hI, hkey⟩ := enter_spec hlimbo hfind htried hroom source draws.nNowExisting
        refine ⟨false, t, ?_, hI, hkey⟩
        rw [ht]
        rfl
    · rename_i hf
      have hnone := find_eq_none h hf
      obtain ⟨hne, hfresh⟩ := hid (Bool.not_eq_false _ ▸ hroutable) hf
      obtain ⟨y, t, ht, hI, hy, htried, href, hkey⟩ :=
        createNew_spec h source penalty hnone hfresh hne
      rw [LawfulSingleton.insert_empty_eq] at hI
      have hroom : y.nRefCount < ADDRMAN_NEW_BUCKETS_PER_ADDRESS := by
        rw [href]
        decide
      obtain ⟨u, hu, hIu, hkeyu⟩ := enter_spec hI hy htried hroom source draws.nNowExisting
      refine ⟨true, u, ?_, hIu, hkeyu.trans hkey⟩
      rw [ht]
      show (t.enter hash s.nIdCount source draws.nNowExisting).bind _ = _
      rw [hu]
      rfl

/-- **`Attempt_`**, at a time not before the epoch. -/
theorem attempt_spec (h : Sound hash s) (addr : CService) (fCountFailure : Bool) {nTime : ℤ}
    (hTime : 0 ≤ nTime) : Sound hash (s.attempt_ addr fCountFailure nTime) ∧
      (s.attempt_ addr fCountFailure nTime).nKey = s.nKey := by
  unfold attempt_
  split
  · exact ⟨h, rfl⟩
  · rename_i j y hf
    obtain ⟨hy, -⟩ := find_eq_some h hf
    have hent := h.tabled.entry j y hy
    split
    · exact ⟨h, rfl⟩
    · dsimp only
      split
      · exact ⟨h.setInfo hy rfl rfl rfl rfl hTime hent.nLastSuccess id, rfl⟩
      · exact ⟨h.setInfo hy rfl rfl rfl rfl hTime hent.nLastSuccess id, rfl⟩

theorem connected_spec (h : Sound hash s) (addr : CService) (nTime : ℤ) :
    Sound hash (s.connected_ addr nTime) ∧ (s.connected_ addr nTime).nKey = s.nKey := by
  unfold connected_
  split
  · exact ⟨h, rfl⟩
  · rename_i j y hf
    obtain ⟨hy, -⟩ := find_eq_some h hf
    have hent := h.tabled.entry j y hy
    split
    · exact ⟨h, rfl⟩
    · split
      · exact ⟨h.setInfo hy rfl rfl rfl rfl hent.nLastTry hent.nLastSuccess id, rfl⟩
      · exact ⟨h, rfl⟩

theorem setServices_spec (h : Sound hash s) (addr : CService) (nServices : UInt64) :
    Sound hash (s.setServices_ addr nServices) ∧ (s.setServices_ addr nServices).nKey = s.nKey := by
  unfold setServices_
  split
  · exact ⟨h, rfl⟩
  · rename_i j y hf
    obtain ⟨hy, -⟩ := find_eq_some h hf
    have hent := h.tabled.entry j y hy
    split
    · exact ⟨h, rfl⟩
    · exact ⟨h.setInfo hy rfl rfl rfl rfl hent.nLastTry hent.nLastSuccess id, rfl⟩

/-! ## Reading -/

theorem walk_ne_marker {m n : ℕ} [NeZero m] [NeZero n] {vv : Table (Fin m) (Fin n) Int32}
    {steps : List (ℕ × ℕ)} {b : Fin m} {p : Fin n} (h : walk vv b p steps = some i) :
    ∃ b p, vv b p = i ∧ i ≠ -1 := by
  induction steps generalizing b p with
  | nil =>
    unfold walk at h
    split at h
    · cases h
    · rename_i hne
      cases h
      exact ⟨b, p, rfl, hne⟩
  | cons step steps ih =>
    unfold walk at h
    split at h
    · exact ih h
    · rename_i hne
      cases h
      exact ⟨b, p, rfl, hne⟩

theorem selectFrom_spec {m n : ℕ} [NeZero m] [NeZero n] {vv : Table (Fin m) (Fin n) Int32}
    (hvv : ∀ b p i, vv b p = i → i ≠ -1 → ∃ x, s.mapInfo.find? i = some x)
    (draws : List SelectDraws) : ∃ r, s.selectFrom vv draws = some r := by
  induction draws with
  | nil => exact ⟨none, rfl⟩
  | cons d draws ih =>
    unfold selectFrom
    split
    · exact ⟨none, rfl⟩
    · rename_i j hwalk
      obtain ⟨b, p, hv, hne⟩ := walk_ne_marker hwalk
      obtain ⟨y, hy⟩ := hvv b p j hv hne
      rw [hy]
      cases hacc : d.accept with
      | true => exact ⟨some y, rfl⟩
      | false => exact ih

theorem select_spec (h : Sound hash s) (newOnly : Bool) (coin : ℕ) (draws : List SelectDraws) :
    ∃ r, s.select_ newOnly coin draws = some r := by
  unfold select_
  split
  · exact ⟨_, rfl⟩
  split
  · exact ⟨_, rfl⟩
  split
  · apply selectFrom_spec
    intro b p i hv hne
    obtain ⟨y, hy, -⟩ := h.tabled.triedCell b p i hv hne
    exact ⟨y, hy⟩
  · apply selectFrom_spec
    intro b p i hv hne
    obtain ⟨y, hy, -⟩ := h.tabled.newCell b p i hv hne
    exact ⟨y, hy⟩

theorem getAddrLoop_spec (nNodes : ℕ) (draw : ℕ → ℕ × ℤ) {ns : List ℕ} {vAddr : List CAddress}
    (h : Sound hash s) (hns : ∀ n ∈ ns, n < s.vRandom.length) :
    ∃ t vAddr', getAddrLoop nNodes draw ns s vAddr = some (t, vAddr') ∧ Sound hash t ∧
      t.nKey = s.nKey := by
  induction ns generalizing s vAddr with
  | nil => exact ⟨s, vAddr, rfl, h, rfl⟩
  | cons n ns ih =>
    rw [List.forall_mem_cons] at hns
    unfold getAddrLoop
    split
    · exact ⟨s, vAddr, rfl, h, rfl⟩
    · have hrnd : (draw n).1 % (s.vRandom.length - n) + n < s.vRandom.length := by
        have := Nat.mod_lt (draw n).1 (show 0 < s.vRandom.length - n by omega)
        omega
      obtain ⟨m, v, hswap, hI, hlen, -, -⟩ := swapRandom_spec h hns.1 hrnd
      have hn : n < v.length := by
        rw [hlen]
        exact hns.1
      obtain ⟨y, hy, -⟩ := hI.indexed.entry_of_getElem? (List.getElem?_eq_getElem hn)
      have hy' : m.find? v[n] = some y := hy
      dsimp only
      rw [hswap]
      simp only [Option.bind_eq_bind, Option.bind_some, List.getElem?_eq_getElem hn, hy']
      apply ih hI
      intro k hk
      show k < v.length
      rw [hlen]
      exact hns.2 k hk

/-- **`GetAddr_`** only changes the random order. -/
theorem getAddr_spec (h : Sound hash s) (vAddr : List CAddress) (draw : ℕ → ℕ × ℤ) :
    ∃ t vAddr', s.getAddr_ vAddr draw = some (t, vAddr') ∧ Sound hash t ∧ t.nKey = s.nKey := by
  unfold getAddr_
  apply getAddrLoop_spec _ draw h
  intro n hn
  exact List.mem_range.1 hn

end CAddrMan

end UnemployCoin
