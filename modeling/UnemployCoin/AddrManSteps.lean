import UnemployCoin.AddrManInvariant
/-!
# What the helpers of the address manager do

One lemma for each helper: it does not fail, and what becomes of the invariant.
-/

namespace UnemployCoin

open Buckets StdMap

variable {hash : Bytes → UInt64}

namespace CAddrMan

/-- The invariant, with ids that may be in no table and with the offsets of the counters. -/
structure Inv (hash : Bytes → UInt64) (L : Set Int32) (e f : ℤ) (s : CAddrMan) : Prop where
  indexed : Indexed s.mapInfo s.mapAddr s.vRandom
  tabled : Tabled hash s.nKey L s.vvTried s.vvNew s.mapInfo
  counted : Counted e f s.mapInfo s.nTried s.nNew

/-- The entries that `P` tells of are the same but for their positions. -/
def Kept (P : Int32 → CAddrInfo → Prop) (s s' : CAddrMan) : Prop :=
  ∀ i x, P i x → s.mapInfo.find? i = some x →
    ∃ z, s'.mapInfo.find? i = some { x with nRandomPos := z }

variable {s s' : CAddrMan} {L L' : Set Int32} {e f : ℤ} {i : Int32} {x x' : CAddrInfo}

theorem Kept.refl (P : Int32 → CAddrInfo → Prop) (s : CAddrMan) : Kept P s s :=
  fun _ x _ hx => ⟨x.nRandomPos, hx⟩

theorem Inv.limbo_congr (h : Inv hash L e f s) (hL : ∀ i x, s.mapInfo.find? i = some x →
    x.fInTried = false → x.nRefCount = 0 → i ∈ L') : Inv hash L' e f s :=
  ⟨h.indexed, h.tabled.limbo_congr hL, h.counted⟩

theorem Inv.limbo (h : Inv hash L e f s) (hx : s.mapInfo.find? i = some x)
    (htried : x.fInTried = false) (href : x.nRefCount = 0) : i ∈ L :=
  (h.tabled.entry i x hx).limbo htried href

theorem Inv.nRefCount_nonneg (h : Inv hash L e f s) (hx : s.mapInfo.find? i = some x) :
    0 ≤ x.nRefCount := by
  rw [(h.tabled.entry i x hx).refs]
  exact Int.natCast_nonneg _

/-- **An entry changes** in its times, its services or its position. -/
theorem Inv.setInfo (h : Inv hash L e f s) (hx : s.mapInfo.find? i = some x)
    (hserv : x'.toCService = x.toCService) (href : x'.nRefCount = x.nRefCount)
    (htried : x'.fInTried = x.fInTried) (hpos : x'.nRandomPos = x.nRandomPos)
    (htry : 0 ≤ x'.nLastTry) (hsuccess : 0 ≤ x'.nLastSuccess)
    (hne : x.nLastSuccess ≠ 0 → x'.nLastSuccess ≠ 0) : Inv hash L e f (s.setInfo i x') where
  indexed := h.indexed.replace hx (congrArg CService.toCNetAddr hserv) hpos
  tabled := h.tabled.replace h.indexed.marker hx hserv href htried htry hsuccess hne
  counted := h.counted.replace hx htried

/-! ## Positions -/

theorem length_le_of_nodup {v : List Int32} (h : v.Nodup) : v.length ≤ 2 ^ 32 := by
  have hinj : Function.Injective fun i : Int32 => i.toBitVec.toFin := by
    intro i j hij
    exact Int32.toBitVec_inj.1 (BitVec.toFin_inj.1 hij)
  have hcard := (h.map hinj).length_le_card
  rw [List.length_map, Fintype.card_fin] at hcard
  exact hcard

theorem toUnsigned_natCast {k : ℕ} (h : k < 2 ^ 32) : toUnsigned k = k := by
  unfold toUnsigned
  omega

theorem swapRandom_spec (h : Inv hash L e f s) {k l : ℕ} (hk : k < s.vRandom.length)
    (hl : l < s.vRandom.length) :
    ∃ m v, s.swapRandom k l = some { s with mapInfo := m, vRandom := v } ∧
      Inv hash L e f { s with mapInfo := m, vRandom := v } ∧ v.length = s.vRandom.length ∧
      v[l]? = s.vRandom[k]? ∧ Kept (fun _ _ => True) s { s with mapInfo := m, vRandom := v } := by
  unfold swapRandom
  by_cases hkl : k = l
  · subst hkl
    rw [if_pos rfl]
    exact ⟨s.mapInfo, s.vRandom, rfl, h, rfl, rfl, Kept.refl _ s⟩
  rw [if_neg hkl]
  obtain ⟨i, hi⟩ : ∃ i, s.vRandom[k]? = some i := ⟨_, List.getElem?_eq_getElem hk⟩
  obtain ⟨j, hj⟩ : ∃ j, s.vRandom[l]? = some j := ⟨_, List.getElem?_eq_getElem hl⟩
  obtain ⟨x, hx, hxpos⟩ := h.indexed.entry_of_getElem? hi
  obtain ⟨y, hy, hypos⟩ := h.indexed.entry_of_getElem? hj
  have hij : i ≠ j := by
    rintro rfl
    exact hkl (h.indexed.random.index_unique hi hj)
  rw [hi, hj]
  simp only [Option.bind_eq_bind, Option.bind_some, hx, hy]
  refine ⟨_, _, rfl, ?_, ?_, ?_, ?_⟩
  · have hmarker : (s.mapInfo.assign i { x with nRandomPos := l }).find? (-1) = none := by
      rw [find?_assign_ne (h.indexed.ne_marker hx).symm]
      exact h.indexed.marker
    have hyi : (s.mapInfo.assign i { x with nRandomPos := l }).find? j = some y := by
      rw [find?_assign_ne hij.symm]
      exact hy
    have hxent := h.tabled.entry i x hx
    have hyent := h.tabled.entry j y hy
    constructor
    · exact h.indexed.swap hi hj hkl hx hy
    · have hfirst : Tabled hash s.nKey L s.vvTried s.vvNew
          (s.mapInfo.assign i { x with nRandomPos := l }) :=
        h.tabled.replace h.indexed.marker hx rfl rfl rfl hxent.nLastTry hxent.nLastSuccess id
      exact hfirst.replace hmarker hyi rfl rfl rfl hyent.nLastTry hyent.nLastSuccess id
    · have hfirst : Counted e f (s.mapInfo.assign i { x with nRandomPos := l }) s.nTried s.nNew :=
        h.counted.replace hx rfl
      exact hfirst.replace hyi rfl
  · simp only [List.length_set]
  · rw [List.getElem?_set_self (by simpa using hl)]
  · intro n w _ hw
    show ∃ z, StdMap.find? _ n = _
    by_cases hnj : n = j
    · subst hnj
      rw [hy] at hw
      cases hw
      exact ⟨k, find?_assign_self _ _ _⟩
    · rw [find?_assign_ne hnj]
      by_cases hni : n = i
      · subst hni
        rw [hx] at hw
        cases hw
        exact ⟨l, find?_assign_self _ _ _⟩
      · rw [find?_assign_ne hni]
        exact ⟨w.nRandomPos, hw⟩

/-- **An entry without references is deleted.** -/
theorem delete_spec (h : Inv hash L e f s) (hx : s.mapInfo.find? i = some x)
    (htried : x.fInTried = false) (href : x.nRefCount = 0) :
    ∃ m a v, s.delete i = some { s with
        mapInfo := m, mapAddr := a, vRandom := v, nNew := s.nNew - 1 } ∧
      Inv hash (L \ {i}) e f { s with
        mapInfo := m, mapAddr := a, vRandom := v, nNew := s.nNew - 1 } ∧
      m.find? i = none ∧ Kept (fun j _ => j ≠ i) s { s with mapInfo := m } := by
  obtain ⟨k, hpos, hk⟩ := h.indexed.position hx
  have hklen : k < s.vRandom.length := (List.getElem?_eq_some_iff.1 hk).1
  have hbound := length_le_of_nodup h.indexed.random.nodup
  obtain ⟨m, v, hswap, hI, hlen, hget, hkept⟩ :=
    swapRandom_spec h hklen (show s.vRandom.length - 1 < s.vRandom.length by omega)
  have hk' : toUnsigned x.nRandomPos = k := by
    rw [hpos]
    exact toUnsigned_natCast (by omega)
  have hl' : toUnsigned ((s.vRandom.length : ℤ) - 1) = s.vRandom.length - 1 := by
    unfold toUnsigned
    omega
  obtain ⟨z, hz⟩ := hkept i x trivial hx
  have hz' : m.find? i = some { x with nRandomPos := z } := hz
  have hlast : v[v.length - 1]? = some i := by
    rw [hlen, hget]
    exact hk
  have hne := h.indexed.ne_marker hx
  refine ⟨m.erase i, s.mapAddr.erase x.toCNetAddr, v.dropLast, ?_, ⟨?_, ?_, ?_⟩, ?_, ?_⟩
  · unfold delete
    rw [hx]
    simp only [Option.bind_eq_bind, Option.bind_some, htried, href, guard_true, Option.pure_def,
      hk', hl', hswap]
  · exact hI.indexed.pop (x := { x with nRandomPos := z }) hz' hlast
  · exact hI.tabled.remove hz' hne href htried
  · exact hI.counted.remove hz' htried
  · exact find?_erase_self m i
  · intro j y hj hy
    show ∃ z, (m.erase i).find? j = _
    rw [find?_erase_ne hj]
    exact hkept j y trivial hy

/-- **A cell of the new table is emptied.** -/
theorem clearNew_spec (h : Inv hash L e f s) (b : Fin ADDRMAN_NEW_BUCKET_COUNT)
    (p : Fin ADDRMAN_BUCKET_SIZE) :
    ∃ m a v n, s.clearNew b p = some { s with
        mapInfo := m, mapAddr := a, vRandom := v, nNew := n, vvNew := setCell s.vvNew b p (-1) } ∧
      Inv hash L e f { s with
        mapInfo := m, mapAddr := a, vRandom := v, nNew := n, vvNew := setCell s.vvNew b p (-1) } ∧
      Kept (fun j _ => j ≠ s.vvNew b p) s { s with mapInfo := m } := by
  unfold clearNew
  by_cases hv : s.vvNew b p = -1
  · rw [if_pos hv, setCell_eq_self hv]
    exact ⟨s.mapInfo, s.mapAddr, s.vRandom, s.nNew, rfl, h, Kept.refl _ s⟩
  rw [if_neg hv]
  obtain ⟨x, hx, hslot⟩ := h.tabled.newCell b p _ rfl hv
  have hent := h.tabled.entry _ x hx
  have hpos : x.nRefCount > 0 := by
    have hp : 0 < refs s.vvNew (x.slot hash s.nKey) (s.vvNew b p) := by
      apply refs_pos.2
      exact ⟨b, by rw [hslot]⟩
    have := hent.refs
    omega
  have htried : x.fInTried = false := by
    by_contra ht
    have := hent.unreferenced (Bool.not_eq_false _ ▸ ht)
    omega
  -- The entry without this reference.
  have hdrop : Inv hash (insert (s.vvNew b p) L) e f
      { s with
        mapInfo := s.mapInfo.assign (s.vvNew b p) { x with nRefCount := x.nRefCount - 1 }
        vvNew := setCell s.vvNew b p (-1) } :=
    ⟨h.indexed.replace hx rfl rfl, h.tabled.dropRef h.indexed.marker hx rfl hv,
      h.counted.replace hx rfl⟩
  have hfind : (s.mapInfo.assign (s.vvNew b p) { x with nRefCount := x.nRefCount - 1 }).find?
      (s.vvNew b p) = some { x with nRefCount := x.nRefCount - 1 } := find?_assign_self _ _ _
  rw [hx]
  simp only [Option.bind_eq_bind, Option.bind_some, hpos, guard_true, Option.pure_def]
  by_cases hzero : x.nRefCount - 1 = 0
  · rw [if_pos hzero]
    obtain ⟨m, a, v, hdel, hI, hnone, hkept⟩ := delete_spec hdrop hfind htried hzero
    refine ⟨m, a, v, s.nNew - 1, hdel, ?_, ?_⟩
    · apply hI.limbo_congr
      intro j y hy hty hry
      have hj := hI.limbo hy hty hry
      exact (Set.mem_insert_iff.1 hj.1).resolve_left hj.2
    · intro j y hj hy
      apply hkept j y hj
      show StdMap.find? (StdMap.assign _ _ _) j = some y
      rw [find?_assign_ne hj]
      exact hy
  · rw [if_neg hzero]
    refine ⟨_, s.mapAddr, s.vRandom, s.nNew, rfl, ?_, ?_⟩
    · apply hdrop.limbo_congr
      intro j y hy hty hry
      rcases Set.mem_insert_iff.1 (hdrop.limbo hy hty hry) with rfl | hj
      · rw [hfind] at hy
        cases hy
        exact absurd hry hzero
      · exact hj
    · intro j y hj hy
      refine ⟨y.nRandomPos, ?_⟩
      show StdMap.find? (StdMap.assign _ _ _) j = _
      rw [find?_assign_ne hj]
      exact hy

/-- **A new entry** under a fresh id. -/
theorem createNew_spec (h : Inv hash L e f s) {addr : CAddress} (source : CNetAddr)
    (nTimePenalty : ℤ) (haddr : s.mapAddr.find? addr.toCNetAddr = none)
    (hfresh : s.mapInfo.find? s.nIdCount = none) (hne : s.nIdCount ≠ -1) :
    ∃ x s', s.createNew addr source nTimePenalty = some (s.nIdCount, s') ∧
      Inv hash (insert s.nIdCount L) e f s' ∧ s'.mapInfo.find? s.nIdCount = some x ∧
      x.fInTried = false ∧ x.nRefCount = 0 ∧ s'.nKey = s.nKey := by
  have hpush : Inv hash (insert s.nIdCount L) (e + 1) f (s.create addr source).2 := by
    constructor
    · exact h.indexed.push hfresh hne haddr rfl
    · exact h.tabled.push h.indexed.marker hfresh hne rfl rfl (Int.le_refl 0) (Int.le_refl 0)
    · exact h.counted.push hfresh rfl
  have hfind : (s.create addr source).2.mapInfo.find? s.nIdCount =
      some { CAddrInfo.new addr source with nRandomPos := s.vRandom.length } :=
    find?_assign_self _ _ _
  unfold createNew
  rw [show (s.create addr source) = (s.nIdCount, (s.create addr source).2) from rfl]
  simp only [Option.bind_eq_bind, hfind, Option.bind_some, Option.pure_def]
  refine ⟨_, _, rfl, ?_, find?_assign_self _ _ _, rfl, rfl, rfl⟩
  constructor
  · exact hpush.indexed.replace hfind rfl rfl
  · -- The slots do not look at the time of an address.
    exact hpush.tabled.replace hpush.indexed.marker hfind rfl rfl rfl (Int.le_refl 0)
      (Int.le_refl 0) id
  · apply Counted.raise
    exact hpush.counted.replace hfind rfl

/-- **The end of `Add_`**, for an entry that is not tried and that has room for one more reference.
-/
theorem enter_spec (h : Inv hash {i} e f s) (hx : s.mapInfo.find? i = some x)
    (htried : x.fInTried = false) (hmost : x.nRefCount < ADDRMAN_NEW_BUCKETS_PER_ADDRESS)
    (source : CNetAddr) (nNow : ℤ) :
    ∃ s', s.enter hash i source nNow = some s' ∧ Inv hash ∅ e f s' ∧ s'.nKey = s.nKey := by
  have hne := h.indexed.ne_marker hx
  -- Nothing else is in no table, so it suffices that this entry has a reference.
  have hdone : x.nRefCount ≠ 0 → Inv hash ∅ e f s := by
    intro href
    apply h.limbo_congr
    intro j y hy hty hry
    have hj : j = i := h.limbo hy hty hry
    rw [hj, hx] at hy
    cases hy
    exact absurd hry href
  have hempty : ∀ {t : CAddrMan}, Inv hash ({i} \ {i}) e f t → Inv hash ∅ e f t := by
    intro t ht
    rw [← @Set.sdiff_self _ {i}]
    exact ht
  unfold enter
  rw [hx]
  simp only [Option.bind_eq_bind, Option.bind_some, Option.pure_def]
  generalize x.getNewBucket hash s.nKey source = b
  rw [show x.getBucketPosition hash s.nKey true b = x.slot hash s.nKey b from rfl]
  by_cases hsame : s.vvNew b (x.slot hash s.nKey b) = i
  · rw [if_pos hsame]
    refine ⟨s, rfl, hdone ?_, rfl⟩
    intro href
    exact h.tabled.notMem_new hx hne href b _ hsame
  rw [if_neg hsame]
  -- What happens once the entry gets the cell.
  have hinsert : ∃ s', ((s.clearNew b (x.slot hash s.nKey b)).bind fun s_1 =>
      (s_1.mapInfo.find? i).bind fun info => some
        { s_1.setInfo i { info with nRefCount := info.nRefCount + 1 } with
          vvNew := setCell s_1.vvNew b (x.slot hash s.nKey b) i }) = some s' ∧
      Inv hash ∅ e f s' ∧ s'.nKey = s.nKey := by
    obtain ⟨m, a, v, n, hclear, hI, hkept⟩ := clearNew_spec h b (x.slot hash s.nKey b)
    obtain ⟨z, hz⟩ := hkept i x (Ne.symm hsame) hx
    have hz' : m.find? i = some { x with nRandomPos := z } := hz
    rw [hclear]
    simp only [Option.bind_some, hz']
    refine ⟨_, rfl, hempty ⟨?_, ?_, ?_⟩, rfl⟩
    · exact hI.indexed.replace hz' rfl rfl
    · have hcell : setCell s.vvNew b (x.slot hash s.nKey b) (-1) b (x.slot hash s.nKey b) = -1 :=
        setCell_self _ _ _ _
      exact hI.tabled.addRef hI.indexed.marker hz' hne htried hmost hcell rfl
    · exact hI.counted.replace hz' rfl
  by_cases hfree : s.vvNew b (x.slot hash s.nKey b) = -1
  · simp only [if_pos hfree, if_true]
    exact hinsert
  · obtain ⟨y, hy, -⟩ := h.tabled.newCell b _ _ rfl hfree
    simp only [if_neg hfree, hy, Option.bind_some]
    by_cases hover : (y.isTerrible nNow || decide (y.nRefCount > 1 ∧ x.nRefCount = 0)) = true
    · rw [if_pos hover]
      exact hinsert
    · rw [if_neg hover]
      by_cases href : x.nRefCount = 0
      · rw [if_pos href]
        obtain ⟨m, a, v, hdel, hI, -⟩ := delete_spec h hx htried href
        exact ⟨_, hdel, hempty hI, rfl⟩
      · rw [if_neg href]
        exact ⟨s, rfl, hdone href, rfl⟩

/-! ## The tried table -/

theorem returnNew_spec (h : Inv hash (insert i L) (e + 1) f s) (hx : s.mapInfo.find? i = some x)
    (htried : x.fInTried = false) (href : x.nRefCount = 0) :
    ∃ s', s.returnNew hash x i = some s' ∧ Inv hash L e f s' ∧ s'.vvTried = s.vvTried ∧
      s'.nKey = s.nKey ∧ Kept (fun j y => j ≠ i ∧ y.nRefCount = 0) s s' := by
  have hi := h.indexed.ne_marker hx
  unfold returnNew
  dsimp only
  generalize x.getNewBucket hash s.nKey x.source = b
  rw [show x.getBucketPosition hash s.nKey true b = x.slot hash s.nKey b from rfl]
  obtain ⟨m, a, v, n, hclear, hI, hkept⟩ := clearNew_spec h b (x.slot hash s.nKey b)
  obtain ⟨z, hz⟩ := hkept i x (h.tabled.notMem_new hx hi href b _).symm hx
  have hz' : m.find? i = some { x with nRandomPos := z } := hz
  have hcell : setCell s.vvNew b (x.slot hash s.nKey b) (-1) b (x.slot hash s.nKey b) = -1 :=
    setCell_self _ _ _ _
  have hroom : x.nRefCount < ADDRMAN_NEW_BUCKETS_PER_ADDRESS := by
    rw [href]
    decide
  rw [hclear]
  simp only [Option.bind_eq_bind, Option.bind_some, hcell, guard_true, Option.pure_def, hz']
  refine ⟨_, rfl, ⟨?_, ?_, ?_⟩, rfl, rfl, ?_⟩
  · exact hI.indexed.replace hz' rfl rfl
  · have hadd := hI.tabled.addRef hI.indexed.marker hz' hi htried hroom hcell
      (show 1 = x.nRefCount + 1 by rw [href]; rfl)
    apply hadd.limbo_congr
    intro j y hy hty hry
    have hj := (hadd.entry j y hy).limbo hty hry
    exact (Set.mem_insert_iff.1 hj.1).resolve_left hj.2
  · apply Counted.raise
    exact hI.counted.replace hz' rfl
  · intro j y hj hy
    obtain ⟨w, hw⟩ := hkept j y (h.tabled.notMem_new hy (h.indexed.ne_marker hy) hj.2 b _).symm hy
    refine ⟨w, ?_⟩
    show StdMap.find? (StdMap.assign _ _ _) j = _
    rw [find?_assign_ne hj.1]
    exact hw

/-- **The occupant of a cell of the tried table goes back** to the new table. -/
theorem evict_spec (h : Inv hash L e f s) {b : Fin ADDRMAN_TRIED_BUCKET_COUNT}
    {p : Fin ADDRMAN_BUCKET_SIZE} (hv : s.vvTried b p ≠ -1) :
    ∃ s', s.evict hash b p = some s' ∧ Inv hash L e f s' ∧
      s'.vvTried = setCell s.vvTried b p (-1) ∧ s'.nKey = s.nKey ∧
      Kept (fun _ y => y.fInTried = false ∧ y.nRefCount = 0) s s' := by
  obtain ⟨x, hx, htried, hb, hp⟩ := h.tabled.triedCell b p _ rfl hv
  have href := (h.tabled.entry _ x hx).unreferenced htried
  -- The entry out of the tried table, and in no other yet.
  have hout : Inv hash (insert (s.vvTried b p) L) (e + 1) f
      { s.setInfo (s.vvTried b p) { x with fInTried := false } with
        vvTried := setCell s.vvTried b p (-1)
        nTried := s.nTried - 1 } := by
    constructor
    · exact h.indexed.replace hx rfl rfl
    · have huntry := h.tabled.untry h.indexed.marker hx hv htried
      rw [hb, hp] at huntry
      exact huntry
    · exact h.counted.untry hx htried rfl
  have hfind : (s.mapInfo.assign (s.vvTried b p) { x with fInTried := false }).find?
      (s.vvTried b p) = some { x with fInTried := false } := find?_assign_self _ _ _
  obtain ⟨s', hs', hI, hvv, hkey, hkept⟩ := returnNew_spec hout hfind rfl href
  refine ⟨s', ?_, hI, hvv, hkey, ?_⟩
  · unfold evict
    dsimp only
    rw [hx]
    exact hs'
  · intro j y hnew hy
    have hj : j ≠ s.vvTried b p :=
      (h.tabled.notMem_tried hy (h.indexed.ne_marker hy) hnew.1 b p).symm
    apply hkept j y ⟨hj, hnew.2⟩
    show StdMap.find? (StdMap.assign _ _ _) j = _
    rw [find?_assign_ne hj]
    exact hy

theorem leaveNew_eq {vv : Table (Fin ADDRMAN_NEW_BUCKET_COUNT) (Fin ADDRMAN_BUCKET_SIZE) Int32}
    {n : ℤ}
    (h : leave (x.slot hash s.nKey) i (-1) (List.finRange ADDRMAN_NEW_BUCKET_COUNT) s.vvNew
      x.nRefCount = (vv, n)) :
    s.leaveNew hash x i = ({ s.setInfo i { x with nRefCount := n } with
      vvNew := vv, nNew := s.nNew - 1 }, { x with nRefCount := n }) := by
  unfold leaveNew
  dsimp only
  rw [show (fun bucket : Fin ADDRMAN_NEW_BUCKET_COUNT =>
    x.getBucketPosition hash s.nKey true bucket) = x.slot hash s.nKey from rfl, h]

theorem leaveNew_spec (h : Inv hash ∅ 0 0 s) (hx : s.mapInfo.find? i = some x)
    (htried : x.fInTried = false) :
    ∃ vv, s.leaveNew hash x i = ({ s.setInfo i { x with nRefCount := 0 } with
        vvNew := vv, nNew := s.nNew - 1 }, { x with nRefCount := 0 }) ∧
      Inv hash {i} 1 0 { s.setInfo i { x with nRefCount := 0 } with
        vvNew := vv, nNew := s.nNew - 1 } := by
  have hi := h.indexed.ne_marker hx
  have hent := h.tabled.entry i x hx
  have hslot : ∀ b p, s.vvNew b p = i → x.slot hash s.nKey b = p := by
    intro b p hv
    obtain ⟨y, hy, hslot⟩ := h.tabled.newCell b p i hv hi
    rw [hx] at hy
    cases hy
    exact hslot
  obtain ⟨hcells, hcount⟩ := leave_all hi.symm List.mem_finRange hslot x.nRefCount
  have hzero : x.nRefCount - refs s.vvNew (x.slot hash s.nKey) i = 0 := by
    have hrefs := hent.refs
    omega
  rw [hzero] at hcount
  obtain ⟨r, hr⟩ : ∃ r, leave (x.slot hash s.nKey) i (-1)
      (List.finRange ADDRMAN_NEW_BUCKET_COUNT) s.vvNew x.nRefCount = r := ⟨_, rfl⟩
  rw [hr] at hcells hcount
  refine ⟨r.1, leaveNew_eq (hr.trans (Prod.ext rfl hcount)), ?_, ?_, ?_⟩
  · exact h.indexed.replace hx rfl rfl
  · rw [← LawfulSingleton.insert_empty_eq i]
    exact h.tabled.leaveAll h.indexed.marker hx hi htried hcells
  · have hsame : Counted 0 0 (s.mapInfo.assign i { x with nRefCount := 0 }) s.nTried s.nNew :=
      h.counted.replace hx rfl
    have htr := hsame.tried
    have hnw := hsame.new
    constructor
    · exact htr
    · show s.nNew - 1 + 1 = StdMap.sum newWeight (s.mapInfo.assign i { x with nRefCount := 0 })
      omega

theorem placeTried_spec (h : Inv hash {i} 1 0 s) (hx : s.mapInfo.find? i = some x)
    (htried : x.fInTried = false) (href : x.nRefCount = 0) (hsuccess : x.nLastSuccess ≠ 0) :
    ∃ s', s.placeTried hash x i = some s' ∧ Inv hash ∅ 0 0 s' ∧ s'.nKey = s.nKey := by
  have hi := h.indexed.ne_marker hx
  -- The cell is empty, or it is emptied.
  obtain ⟨t, ht, hI, hcell, hkey, z, hz⟩ : ∃ t,
      (if s.vvTried (x.getTriedBucket hash s.nKey) (x.home hash s.nKey) = -1 then some s
        else s.evict hash (x.getTriedBucket hash s.nKey) (x.home hash s.nKey)) = some t ∧
      Inv hash {i} 1 0 t ∧
      t.vvTried (x.getTriedBucket hash s.nKey) (x.home hash s.nKey) = -1 ∧ t.nKey = s.nKey ∧
      ∃ z, t.mapInfo.find? i = some { x with nRandomPos := z } := by
    by_cases hv : s.vvTried (x.getTriedBucket hash s.nKey) (x.home hash s.nKey) = -1
    · rw [if_pos hv]
      exact ⟨s, rfl, h, hv, rfl, x.nRandomPos, hx⟩
    · rw [if_neg hv]
      obtain ⟨t, ht, hI, hvv, hkey, hkept⟩ := evict_spec h hv
      refine ⟨t, ht, hI, ?_, hkey, hkept i x ⟨htried, href⟩ hx⟩
      rw [hvv, setCell_self]
  refine ⟨{ t.setInfo i { x with fInTried := true, nRandomPos := z } with
    vvTried := setCell t.vvTried (x.getTriedBucket hash s.nKey) (x.home hash s.nKey) i
    nTried := t.nTried + 1 }, ?_, ⟨?_, ?_, ?_⟩, hkey⟩
  · unfold placeTried
    dsimp only
    rw [show x.getBucketPosition hash s.nKey false (x.getTriedBucket hash s.nKey) =
      x.home hash s.nKey from rfl, ht]
    simp only [Option.bind_eq_bind, Option.bind_some, hcell, guard_true, Option.pure_def, hz]
  · exact hI.indexed.replace hz rfl rfl
  · have htab := hI.tabled
    rw [hkey] at htab
    have hplaced := htab.enterTried hI.indexed.marker hz hi htried href hsuccess hcell
    rw [Set.sdiff_self] at hplaced
    show Tabled hash t.nKey ∅ _ _ _
    rw [hkey]
    exact hplaced
  · exact hI.counted.enterTried hz htried rfl

/-- **`MakeTried`** for an entry that is not tried and that a connection has just succeeded to. -/
theorem makeTried_spec (h : Inv hash ∅ 0 0 s) (hx : s.mapInfo.find? i = some x)
    (htried : x.fInTried = false) (hsuccess : x.nLastSuccess ≠ 0) :
    ∃ s', s.makeTried hash x i = some s' ∧ Inv hash ∅ 0 0 s' ∧ s'.nKey = s.nKey := by
  obtain ⟨vv, hleave, hI⟩ := leaveNew_spec h hx htried
  unfold makeTried
  rw [hleave]
  simp only [Option.bind_eq_bind, guard_true, Option.pure_def, Option.bind_some]
  have hfind : (s.mapInfo.assign i { x with nRefCount := 0 }).find? i =
    some { x with nRefCount := 0 } := find?_assign_self _ _ _
  exact placeTried_spec hI hfind htried rfl hsuccess

end CAddrMan

end UnemployCoin
