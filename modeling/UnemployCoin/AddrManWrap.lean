import UnemployCoin.AddrManRuns
/-!
# The counter of ids

`wrappedRun_fails`: the counter of ids has 32 bits.  When it gets to `-1`, the marker of an empty
cell, a new entry is in no table, and the next connection that succeeds with its address fails an
assertion.

Every new address moves the counter, also one that is dropped at once because its cell is taken
(`CAddrMan.add_useless`).
-/

namespace UnemployCoin

open Buckets CAddrMan StdMap

namespace CAddrMan
variable {hash : Bytes → UInt64} {s : CAddrMan} {i : Int32} {x : CAddrInfo}

theorem delete_last (hx : s.mapInfo.find? i = some x) (htried : x.fInTried = false)
    (href : x.nRefCount = 0) (hpos : x.nRandomPos = s.vRandom.length - 1) :
    s.delete i = some { s with
      vRandom := s.vRandom.dropLast
      mapAddr := s.mapAddr.erase x.toCNetAddr
      mapInfo := s.mapInfo.erase i
      nNew := s.nNew - 1 } := by
  unfold delete swapRandom
  rw [hx]
  simp only [Option.bind_eq_bind, Option.bind_some, htried, href, guard_true, Option.pure_def, hpos,
    if_true]

/-- A new address whose cell is taken by an entry that stays: **only the counter of ids moves**. -/
theorem add_useless {addr : CAddress} {source : CNetAddr} (nTimePenalty : ℤ) {draws : AddDraws}
    {y : CAddrInfo} {b : Fin ADDRMAN_NEW_BUCKET_COUNT} {p : Fin ADDRMAN_BUCKET_SIZE}
    (hroutable : addr.isRoutable = true) (haddr : s.mapAddr.find? addr.toCNetAddr = none)
    (hfresh : s.mapInfo.find? s.nIdCount = none)
    (hb : (CAddrInfo.new addr source).getNewBucket hash s.nKey source = b)
    (hp : (CAddrInfo.new addr source).getBucketPosition hash s.nKey true b = p)
    (hy : s.mapInfo.find? (s.vvNew b p) = some y) (hv : s.vvNew b p ≠ -1)
    (hterrible : y.isTerrible draws.nNowExisting = false) (hone : y.nRefCount ≤ 1) :
    s.add_ hash addr source nTimePenalty draws =
      some (true, { s with nIdCount := s.nIdCount + 1 }) := by
  have hnone : s.find addr.toCNetAddr = none := by
    unfold find
    rw [haddr]
    rfl
  have hother : s.vvNew b p ≠ s.nIdCount := by
    intro heq
    rw [heq, hfresh] at hy
    cases hy
  unfold add_
  rw [hroutable, if_neg (by decide), hnone]
  dsimp only
  generalize (if addr.toCNetAddr = source then 0 else nTimePenalty) = penalty
  obtain ⟨x, hx⟩ : ∃ x : CAddrInfo, x = { CAddrInfo.new addr source with
    nTime := UInt32.ofNat (max 0 ((addr.nTime.toNat : ℤ) - penalty)).toNat
    nRandomPos := s.vRandom.length } := ⟨_, rfl⟩
  obtain ⟨t, ht⟩ : ∃ t : CAddrMan, t = { s with
    nIdCount := s.nIdCount + 1
    mapInfo := (s.mapInfo.assign s.nIdCount
      { CAddrInfo.new addr source with nRandomPos := s.vRandom.length }).assign s.nIdCount x
    mapAddr := s.mapAddr.assign addr.toCNetAddr s.nIdCount
    vRandom := s.vRandom ++ [s.nIdCount]
    nNew := s.nNew + 1 } := ⟨_, rfl⟩
  have hcreate : s.createNew addr source penalty = some (s.nIdCount, t) := by
    unfold createNew
    rw [show s.create addr source = (s.nIdCount, (s.create addr source).2) from rfl]
    simp only [Option.bind_eq_bind]
    rw [show (s.create addr source).2.mapInfo.find? s.nIdCount =
      some { CAddrInfo.new addr source with nRandomPos := s.vRandom.length } from
        find?_assign_self _ _ _]
    subst ht hx
    rfl
  have hfind : t.mapInfo.find? s.nIdCount = some x := by
    subst ht
    exact find?_assign_self _ _ _
  have hfindOther : t.mapInfo.find? (s.vvNew b p) = some y := by
    subst ht
    show StdMap.find? (StdMap.assign _ _ _) _ = _
    rw [find?_assign_ne hother, find?_assign_ne hother]
    exact hy
  have hdelete : t.delete s.nIdCount = some { s with nIdCount := s.nIdCount + 1 } := by
    rw [delete_last hfind (by subst hx; rfl) (by subst hx; rfl) (by
      subst ht hx
      show (s.vRandom.length : ℤ) = ((s.vRandom ++ [s.nIdCount]).length : ℤ) - 1
      rw [List.length_append, List.length_singleton]
      omega)]
    subst ht hx
    show some { s with
      nIdCount := _, vRandom := (s.vRandom ++ [s.nIdCount]).dropLast
      mapAddr := (s.mapAddr.assign addr.toCNetAddr s.nIdCount).erase addr.toCNetAddr
      mapInfo := ((s.mapInfo.assign s.nIdCount _).assign s.nIdCount _).erase s.nIdCount
      nNew := s.nNew + 1 - 1 } = _
    rw [List.dropLast_concat, erase_assign_self, erase_assign_self,
      erase_assign_self, erase_eq_self haddr, erase_eq_self hfresh,
      Int.add_sub_cancel]
  have henter : t.enter hash s.nIdCount source draws.nNowExisting =
      some { s with nIdCount := s.nIdCount + 1 } := by
    have hkey : t.nKey = s.nKey := by rw [ht]
    have hvv : t.vvNew = s.vvNew := by rw [ht]
    have hbx : x.getNewBucket hash s.nKey source = b := by
      subst hx
      exact hb
    have hpx : x.getBucketPosition hash s.nKey true b = p := by
      subst hx
      exact hp
    unfold enter
    rw [hfind]
    simp only [Option.bind_eq_bind, Option.bind_some, hkey, hbx, hpx, hvv, if_neg hother, if_neg hv,
      hfindOther, hterrible, Bool.false_or, Option.pure_def]
    have hstay : ¬ decide (y.nRefCount > 1 ∧ x.nRefCount = 0) = true := by
      rw [decide_eq_true_eq]
      omega
    rw [if_neg hstay, if_pos (by rw [hx]; rfl)]
    exact hdelete
  rw [hcreate]
  show (t.enter hash s.nIdCount source draws.nNowExisting).bind _ = _
  rw [henter]
  rfl

theorem checkEntry_error {setTried : Finset Int32} {mapNew : Multiset Int32} {err : ℤ}
    (h : s.checkEntry i x setTried mapNew = .error err) : err < 0 := by
  unfold checkEntry at h
  simp only [bind, Except.bind, throw, throwThe, MonadExceptOf.throw, pure, Except.pure] at h
  -- Every way out of it is one of the codes.
  repeat' split at h
  all_goals cases h
  all_goals decide

/-- **An entry that is in no table is noticed.** -/
theorem check_ne_zero (hx : s.mapInfo.find? i = some x) (htried : x.fInTried = false)
    (href : x.nRefCount = 0) : s.check_ hash ≠ 0 := by
  have hentry : ∀ setTried mapNew, s.checkEntry i x setTried mapNew = .error (-4) := by
    intro setTried mapNew
    have hrange : ¬ (x.nRefCount < 0 ∨ x.nRefCount > ADDRMAN_NEW_BUCKETS_PER_ADDRESS) := by
      rw [href]
      decide
    unfold checkEntry
    rw [htried, if_neg Bool.false_ne_true, if_neg hrange, if_pos href]
    rfl
  -- The loop over the entries ends there, or before.
  have hfold : ∀ (l : List (Int32 × CAddrInfo)) (sets : Finset Int32 × Multiset Int32),
      (i, x) ∈ l → ∃ err, err < 0 ∧
        l.foldlM (fun sets e => s.checkEntry e.1 e.2 sets.1 sets.2) sets = .error err := by
    intro l
    induction l with
    | nil =>
      intro sets hmem
      cases hmem
    | cons e l ih =>
      intro sets hmem
      rw [List.foldlM_cons]
      cases hstep : s.checkEntry e.1 e.2 sets.1 sets.2 with
      | error err => exact ⟨err, checkEntry_error hstep, rfl⟩
      | ok sets' =>
        rcases List.mem_cons.1 hmem with rfl | hrest
        · rw [hentry] at hstep
          cases hstep
        · exact ih sets' hrest
  obtain ⟨err, herr, hloop⟩ := hfold s.entries (∅, 0) (mem_entries.2 hx)
  unfold check_ checks
  by_cases hsize : (s.vRandom.length : ℤ) ≠ s.nTried + s.nNew
  · rw [if_pos hsize]
    show (-7 : ℤ) ≠ 0
    decide
  · rw [if_neg hsize, hloop]
    show err ≠ 0
    omega

theorem makeTried_marker (href : x.nRefCount = 0) {b : Fin ADDRMAN_NEW_BUCKET_COUNT}
    (hb : s.vvNew b (x.slot hash s.nKey b) = -1) : s.makeTried hash x (-1) = none := by
  obtain ⟨l, hl⟩ : ∃ l, List.finRange ADDRMAN_NEW_BUCKET_COUNT = l := ⟨_, rfl⟩
  have hmem : b ∈ l := by
    rw [← hl]
    exact List.mem_finRange b
  have hpos : 0 < (l.filter fun b => decide (s.vvNew b (x.slot hash s.nKey b) = -1)).length :=
    List.length_pos_of_mem (List.mem_filter.2 ⟨hmem, decide_eq_true hb⟩)
  have hne : ¬ (0 - ((l.filter fun b =>
      decide (s.vvNew b (x.slot hash s.nKey b) = -1)).length : ℤ) = 0) := by
    omega
  have hleave := @leaveNew_eq hash s (-1) x _ _
    (leave_self (List.finRange ADDRMAN_NEW_BUCKET_COUNT) s.vvNew x.nRefCount)
  unfold makeTried
  rw [hleave]
  simp only [Option.bind_eq_bind, guard, href, hl, if_neg hne]
  rfl

theorem inNew_of_cell {b : Fin ADDRMAN_NEW_BUCKET_COUNT}
    (hb : s.vvNew b (x.slot hash s.nKey b) = i) {nRnd : ℕ} (hrnd : nRnd < 1024) :
    s.inNew hash x i nRnd = true := by
  unfold inNew
  rw [List.any_eq_true]
  -- The search goes round all buckets.
  refine ⟨(b.val + (1024 - nRnd)) % 1024, List.mem_range.2 (Nat.mod_lt _ (by decide)), ?_⟩
  have hround : Fin.ofNat ADDRMAN_NEW_BUCKET_COUNT ((b.val + (1024 - nRnd)) % 1024 + nRnd) = b := by
    apply Fin.ext
    show ((b.val + (1024 - nRnd)) % 1024 + nRnd) % 1024 = b.val
    have hlt : b.val < 1024 := b.isLt
    omega
  dsimp only
  rw [hround]
  exact decide_eq_true hb

theorem good_marker {addr : CService} {nTime : ℤ} {rnd : ℕ}
    (hfind : s.find addr.toCNetAddr = some (-1, x)) (hserv : x.toCService = addr)
    (htried : x.fInTried = false) (href : x.nRefCount = 0) {b : Fin ADDRMAN_NEW_BUCKET_COUNT}
    (hb : s.vvNew b (x.slot hash s.nKey b) = -1) : s.good_ hash addr nTime rnd = none := by
  have hfind' : ({ s with nLastGood := nTime } : CAddrMan).find addr.toCNetAddr = some (-1, x) :=
    hfind
  unfold good_
  dsimp only
  rw [hfind']
  dsimp only
  rw [if_neg (not_not.2 hserv), htried, if_neg Bool.false_ne_true, inNew_of_cell,
    if_pos rfl]
  · apply makeTried_marker
    · exact href
    · exact hb
  · exact hb
  · exact Nat.mod_lt _ (by decide)

end CAddrMan

theorem addrManMachine_good (hash : Bytes → UInt64) (s : CAddrMan) (addr : CService) (nTime : ℤ)
    (rnd : ℕ) : (addrManMachine hash).step s (.good addr nTime rnd) =
      s.good_ hash addr nTime rnd := rfl

/-! ## A run in which the counter wraps -/

def keptInfo : CAddrInfo :=
  { CAddrInfo.new (floodAddr 1 8192) (floodAddr 9 0).toCNetAddr with
    nRefCount := 1
    nRandomPos := 0 }

/-- The state that has this entry only, at some count of ids. -/
def floodedState (nIdCount : Int32) : CAddrMan where
  nIdCount := nIdCount
  mapInfo := (∅ : StdMap Int32 CAddrInfo).assign 0 keptInfo
  mapAddr := (∅ : StdMap CNetAddr Int32).assign keptInfo.toCNetAddr 0
  vRandom := [0]
  nTried := 0
  vvTried := fun _ _ => -1
  nNew := 1
  vvNew := setCell (fun _ _ => -1) 0 0 0
  nLastGood := 1
  nKey := 1

/-- The entry of the last address, under the id `-1`. -/
def lostInfo : CAddrInfo :=
  { CAddrInfo.new (floodAddr 3 8193) (floodAddr 9 0).toCNetAddr with nRandomPos := 1 }

def wrappedState : CAddrMan :=
  { floodedState 0 with
    mapInfo := ((floodedState 0).mapInfo.assign (-1) lostInfo).assign (-1) lostInfo
    mapAddr := (floodedState 0).mapAddr.assign lostInfo.toCNetAddr (-1)
    vRandom := [0, -1]
    nNew := 2 }

/-- One address that stays, an address in the same cell as often as it takes the counter to `-1`,
and an address in a cell of its own. -/
def wrappedRun : List AddrManCall :=
  floodCall (floodAddr 1 8192) ::
    (List.replicate (2 ^ 32 - 2) (floodCall (floodAddr 2 8192)) ++ [floodCall (floodAddr 3 8193)])

theorem exec_flood {k n : ℕ} (hk : 1 ≤ k) (hn : k + n < 2 ^ 32) :
    (addrManMachine lastByteHash).exec (floodedState (Int32.ofNat k))
      (List.replicate n (floodCall (floodAddr 2 8192))) =
        some (floodedState (Int32.ofNat (k + n))) := by
  induction n generalizing k with
  | zero => rfl
  | succ n ih =>
    rw [List.replicate_succ, Machine.exec_cons]
    refine ⟨floodedState (Int32.ofNat (k + 1)), ?_, ?_⟩
    · have hne : Int32.ofNat k ≠ 0 := by
        intro h
        have hnat := congrArg (fun i : Int32 => i.toBitVec.toNat) h
        simp only [Int32.toBitVec_ofNat', BitVec.toNat_ofNat, Int32.toBitVec_zero] at hnat
        omega
      have hfresh : (floodedState (Int32.ofNat k)).mapInfo.find? (Int32.ofNat k) = none :=
        find?_assign_ne hne
      have hadd : (floodedState (Int32.ofNat k)).add_ lastByteHash (floodAddr 2 8192)
          (floodAddr 9 0).toCNetAddr 0 ⟨100000000, 100000000, 0⟩ =
            some (true, { floodedState (Int32.ofNat k) with nIdCount := Int32.ofNat k + 1 }) :=
        @add_useless lastByteHash (floodedState (Int32.ofNat k)) (floodAddr 2 8192)
          (floodAddr 9 0).toCNetAddr 0 ⟨100000000, 100000000, 0⟩ keptInfo 0 0 (by decide) rfl hfresh
          (show (CAddrInfo.new (floodAddr 2 8192) (floodAddr 9 0).toCNetAddr).getNewBucket
            lastByteHash 1 (floodAddr 9 0).toCNetAddr = 0 by decide)
          (show (CAddrInfo.new (floodAddr 2 8192) (floodAddr 9 0).toCNetAddr).getBucketPosition
            lastByteHash 1 true 0 = 0 by decide)
          rfl (show (0 : Int32) ≠ -1 by decide) (by decide) (by decide)
      show ((floodedState (Int32.ofNat k)).add_ lastByteHash _ _ _ _).map Prod.snd = _
      rw [hadd, Option.map_some, Int32.ofNat_add]
      rfl
    · rw [ih (by omega) (by omega), show k + 1 + n = k + (n + 1) by omega]

/-- **After the counter has wrapped** the last address is in no table, `Check_` fails, and so does
an assertion as soon as a connection to it succeeds. -/
theorem wrappedRun_fails :
    (∃ s, (addrManMachine lastByteHash).exec (clear 1) wrappedRun = some s ∧
      s.check_ lastByteHash ≠ 0) ∧
    (addrManMachine lastByteHash).exec (clear 1)
      (wrappedRun ++ [.good (floodAddr 3 8193).toCService 100000000 0]) = none := by
  have hfirst : (clear 1).call lastByteHash (floodCall (floodAddr 1 8192)) =
      some (floodedState (Int32.ofNat 1)) := rfl
  have hflood := @exec_flood 1 (2 ^ 32 - 2) (Nat.le_refl 1) (by decide)
  rw [show Int32.ofNat (1 + (2 ^ 32 - 2)) = -1 by decide] at hflood
  have hlast : (floodedState (-1)).call lastByteHash (floodCall (floodAddr 3 8193)) =
      some wrappedState := rfl
  have hrun : (addrManMachine lastByteHash).exec (clear 1) wrappedRun = some wrappedState := by
    refine Machine.exec_cons.2 ⟨_, hfirst, Machine.exec_append.2 ⟨_, hflood, ?_⟩⟩
    exact Machine.exec_cons.2 ⟨_, hlast, rfl⟩
  have hfind : wrappedState.mapInfo.find? (-1) = some lostInfo := find?_assign_self _ _ _
  refine ⟨⟨wrappedState, hrun, check_ne_zero hfind rfl rfl⟩, ?_⟩
  have hcell : wrappedState.vvNew 1 (lostInfo.slot lastByteHash wrappedState.nKey 1) = -1 := by
    have hne : ¬ ((1 : Fin ADDRMAN_NEW_BUCKET_COUNT) = 0 ∧ lostInfo.slot lastByteHash 1 1 = 0) := by
      rintro ⟨h, -⟩
      exact absurd h (by decide)
    exact @setCell_of_ne _ _ Int32 _ _ (fun _ _ => -1) _ _ _ _ 0 hne
  have hgood : wrappedState.good_ lastByteHash (floodAddr 3 8193).toCService 100000000 0 = none :=
    @good_marker lastByteHash wrappedState lostInfo (floodAddr 3 8193).toCService 100000000 0
      rfl rfl rfl rfl 1 hcell
  rw [Option.eq_none_iff_forall_ne_some]
  intro t ht
  obtain ⟨u, hu, hrest⟩ := Machine.exec_append.1 ht
  rw [hrun] at hu
  cases hu
  obtain ⟨v, hv, -⟩ := Machine.exec_cons.1 hrest
  rw [addrManMachine_good, hgood] at hv
  cases hv

end UnemployCoin
