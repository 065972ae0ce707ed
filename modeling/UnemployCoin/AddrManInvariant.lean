import UnemployCoin.AddrMan
import UnemployCoin.Lib.Positions
/-!
# The invariant of the address manager

The ids in a set `L` may be in no table, and the counters are right up to offsets.  While an
operation is at work, the entry it is about is in `L` and the counters are off by one; between two
operations `L` is empty and both offsets are zero (`CAddrMan.Sound`).
-/

namespace UnemployCoin

open Buckets StdMap

/-! ## Slots -/

namespace CAddrInfo

variable (hash : Bytes → UInt64) (nKey : uint256)

def slot (info : CAddrInfo) (b : Fin ADDRMAN_NEW_BUCKET_COUNT) : Fin ADDRMAN_BUCKET_SIZE :=
  info.getBucketPosition hash nKey true b

def home (info : CAddrInfo) : Fin ADDRMAN_BUCKET_SIZE :=
  info.getBucketPosition hash nKey false (info.getTriedBucket hash nKey)

variable {hash nKey} {info info' : CAddrInfo}

theorem slot_congr (h : info'.toCService = info.toCService) :
    info'.slot hash nKey = info.slot hash nKey := by
  unfold slot getBucketPosition
  rw [h]

theorem getTriedBucket_congr (h : info'.toCService = info.toCService) :
    info'.getTriedBucket hash nKey = info.getTriedBucket hash nKey := by
  unfold getTriedBucket
  rw [h]

theorem home_congr (h : info'.toCService = info.toCService) :
    info'.home hash nKey = info.home hash nKey := by
  unfold home getBucketPosition
  rw [getTriedBucket_congr h, h]

end CAddrInfo

namespace CAddrMan

/-! ## Indexes -/

/-- The entries, the ids by address, and the vector of all ids. -/
structure Indexed (mapInfo : StdMap Int32 CAddrInfo) (mapAddr : StdMap CNetAddr Int32)
    (vRandom : List Int32) : Prop where
  /-- The marker of an empty cell is not an id. -/
  marker : mapInfo.find? (-1) = none
  addr : ∀ a i, mapAddr.find? a = some i ↔ ∃ x, mapInfo.find? i = some x ∧ x.toCNetAddr = a
  random : Positions vRandom fun i => (mapInfo.find? i).map (·.nRandomPos)

namespace Indexed

variable {m : StdMap Int32 CAddrInfo} {a : StdMap CNetAddr Int32} {v : List Int32} {i j : Int32}
  {x x' y : CAddrInfo}

theorem ne_marker (h : Indexed m a v) (hx : m.find? i = some x) : i ≠ -1 := by
  rintro rfl
  rw [h.marker] at hx
  cases hx

theorem addr_of_entry (h : Indexed m a v) (hx : m.find? i = some x) :
    a.find? x.toCNetAddr = some i := (h.addr _ _).2 ⟨x, hx, rfl⟩

theorem id_unique (h : Indexed m a v) (hx : m.find? i = some x) (hy : m.find? j = some y)
    (hxy : x.toCNetAddr = y.toCNetAddr) : i = j := by
  have hi := h.addr_of_entry hx
  rw [hxy, h.addr_of_entry hy] at hi
  exact (Option.some.inj hi).symm

theorem position (h : Indexed m a v) (hx : m.find? i = some x) :
    ∃ k : ℕ, x.nRandomPos = k ∧ v[k]? = some i :=
  (h.random i x.nRandomPos).1 (by simp only [hx, Option.map_some])

theorem entry_of_getElem? (h : Indexed m a v) {k : ℕ} (hk : v[k]? = some i) :
    ∃ x, m.find? i = some x ∧ x.nRandomPos = k := by
  have hpos := h.random.pos_of_getElem? hk
  rw [Option.map_eq_some_iff] at hpos
  exact hpos

theorem replace (h : Indexed m a v) (hx : m.find? i = some x)
    (haddr : x'.toCNetAddr = x.toCNetAddr) (hpos : x'.nRandomPos = x.nRandomPos) :
    Indexed (m.assign i x') a v where
  marker := by
    rw [find?_assign_ne (h.ne_marker hx).symm]
    exact h.marker
  addr := by
    intro b j
    rw [h.addr b j]
    by_cases hj : j = i
    · subst hj
      simp only [find?_assign_self, hx, Option.some.injEq, exists_eq_left', haddr]
    · rw [find?_assign_ne hj]
  random := by
    apply h.random.congr
    intro j
    by_cases hj : j = i
    · subst hj
      rw [find?_assign_self, hx, Option.map_some, Option.map_some, hpos]
    · rw [find?_assign_ne hj]

theorem push (h : Indexed m a v) (hi : m.find? i = none) (hmarker : i ≠ -1)
    (haddr : a.find? x.toCNetAddr = none) (hpos : x.nRandomPos = v.length) :
    Indexed (m.assign i x) (a.assign x.toCNetAddr i) (v ++ [i]) where
  marker := by
    rw [find?_assign_ne hmarker.symm]
    exact h.marker
  addr := by
    intro b j
    by_cases hj : j = i
    · subst hj
      simp only [find?_assign_self, Option.some.injEq, exists_eq_left']
      by_cases hb : b = x.toCNetAddr
      · rw [hb, find?_assign_self]
        exact iff_of_true rfl rfl
      · rw [find?_assign_ne hb, h.addr b j, hi]
        simp only [reduceCtorEq, false_and, exists_false, false_iff]
        exact Ne.symm hb
    · rw [find?_assign_ne hj]
      by_cases hb : b = x.toCNetAddr
      · subst hb
        rw [find?_assign_self, Option.some.injEq, ← h.addr, haddr]
        simp only [reduceCtorEq, iff_false]
        exact Ne.symm hj
      · rw [find?_assign_ne hb, h.addr]
  random := by
    apply (h.random.push (i := i) (by simp only [hi, Option.map_none])).congr
    intro j
    by_cases hj : j = i
    · subst hj
      rw [find?_assign_self, Function.update_self, Option.map_some, hpos]
    · rw [find?_assign_ne hj, Function.update_of_ne hj]

theorem swap (h : Indexed m a v) {k l : ℕ} (hk : v[k]? = some i) (hl : v[l]? = some j)
    (hkl : k ≠ l) (hx : m.find? i = some x) (hy : m.find? j = some y) :
    Indexed ((m.assign i { x with nRandomPos := l }).assign j { y with nRandomPos := k }) a
      ((v.set k j).set l i) := by
  have hfind : ∀ n, ((m.assign i { x with nRandomPos := l }).assign j
      { y with nRandomPos := k }).find? n =
        if n = j then some { y with nRandomPos := k }
        else if n = i then some { x with nRandomPos := l } else m.find? n := by
    intro n
    rw [find?_assign, find?_assign]
  constructor
  · rw [hfind, if_neg (h.ne_marker hy).symm, if_neg (h.ne_marker hx).symm]
    exact h.marker
  · intro b n
    rw [h.addr, hfind]
    by_cases hnj : n = j
    · subst hnj
      simp only [hy, if_true, Option.some.injEq, exists_eq_left']
    · by_cases hni : n = i
      · subst hni
        simp only [hx, if_neg hnj, if_true, Option.some.injEq, exists_eq_left']
      · rw [if_neg hnj, if_neg hni]
  · apply (h.random.swap hk hl hkl).congr
    intro n
    rw [hfind]
    by_cases hnj : n = j
    · subst hnj
      rw [Function.update_self, if_pos rfl, Option.map_some]
    · rw [Function.update_of_ne hnj, if_neg hnj]
      by_cases hni : n = i
      · subst hni
        rw [Function.update_self, if_pos rfl, Option.map_some]
      · rw [Function.update_of_ne hni, if_neg hni]

theorem pop (h : Indexed m a v) (hx : m.find? i = some x) (hlast : v[v.length - 1]? = some i) :
    Indexed (m.erase i) (a.erase x.toCNetAddr) v.dropLast where
  marker := by
    rw [find?_erase_ne (h.ne_marker hx).symm]
    exact h.marker
  addr := by
    intro b j
    by_cases hb : b = x.toCNetAddr
    · subst hb
      rw [find?_erase_self]
      simp only [reduceCtorEq, false_iff, not_exists, not_and]
      intro y hy hyx
      by_cases hj : j = i
      · rw [hj, find?_erase_self] at hy
        cases hy
      · rw [find?_erase_ne hj] at hy
        exact hj (h.id_unique hy hx hyx)
    · rw [find?_erase_ne hb, h.addr]
      by_cases hj : j = i
      · subst hj
        rw [find?_erase_self, hx]
        simp only [Option.some.injEq, exists_eq_left', reduceCtorEq, false_and, exists_false,
          iff_false]
        exact Ne.symm hb
      · rw [find?_erase_ne hj]
  random := by
    apply (h.random.pop hlast).congr
    intro j
    by_cases hj : j = i
    · subst hj
      rw [find?_erase_self, Function.update_self, Option.map_none]
    · rw [find?_erase_ne hj, Function.update_of_ne hj]

end Indexed

/-! ## Tables -/

section Tables

variable (hash : Bytes → UInt64) (nKey : uint256) (L : Set Int32)
  (vvTried : Table (Fin ADDRMAN_TRIED_BUCKET_COUNT) (Fin ADDRMAN_BUCKET_SIZE) Int32)
  (vvNew : Table (Fin ADDRMAN_NEW_BUCKET_COUNT) (Fin ADDRMAN_BUCKET_SIZE) Int32)

/-- An entry, with what the tables have of it. -/
structure Entered (i : Int32) (x : CAddrInfo) : Prop where
  refs : x.nRefCount = refs vvNew (x.slot hash nKey) i
  most : x.nRefCount ≤ ADDRMAN_NEW_BUCKETS_PER_ADDRESS
  home : x.fInTried = true → vvTried (x.getTriedBucket hash nKey) (x.home hash nKey) = i
  unreferenced : x.fInTried = true → x.nRefCount = 0
  nLastSuccess_ne : x.fInTried = true → x.nLastSuccess ≠ 0
  limbo : x.fInTried = false → x.nRefCount = 0 → i ∈ L
  nLastTry : 0 ≤ x.nLastTry
  nLastSuccess : 0 ≤ x.nLastSuccess

structure Tabled (mapInfo : StdMap Int32 CAddrInfo) : Prop where
  entry : ∀ i x, mapInfo.find? i = some x → Entered hash nKey L vvTried vvNew i x
  newCell : ∀ b p i, vvNew b p = i → i ≠ -1 → ∃ x, mapInfo.find? i = some x ∧
    x.slot hash nKey b = p
  triedCell : ∀ b p i, vvTried b p = i → i ≠ -1 → ∃ x, mapInfo.find? i = some x ∧
    x.fInTried = true ∧ x.getTriedBucket hash nKey = b ∧ x.home hash nKey = p

end Tables

namespace Tabled

variable {hash : Bytes → UInt64} {nKey : uint256} {L L' : Set Int32}
  {vvT vvT' : Table (Fin ADDRMAN_TRIED_BUCKET_COUNT) (Fin ADDRMAN_BUCKET_SIZE) Int32}
  {vvN vvN' : Table (Fin ADDRMAN_NEW_BUCKET_COUNT) (Fin ADDRMAN_BUCKET_SIZE) Int32}
  {m : StdMap Int32 CAddrInfo} {i : Int32} {x x' : CAddrInfo}

theorem entered_of_ne (h : Tabled hash nKey L vvT vvN m) (hx : m.find? i = some x)
    (hnew : ∀ b p, vvN' b p = i ↔ vvN b p = i) (htried : ∀ b p, vvT' b p = i ↔ vvT b p = i)
    (hL : i ∈ L → i ∈ L') : Entered hash nKey L' vvT' vvN' i x := by
  have hent := h.entry i x hx
  have hrefs : Buckets.refs vvN' (x.slot hash nKey) i = Buckets.refs vvN (x.slot hash nKey) i :=
    refs_congr fun b => hnew b _
  exact {
    refs := by rw [hrefs]; exact hent.refs
    most := hent.most
    home := fun ht => (htried _ _).2 (hent.home ht)
    unreferenced := hent.unreferenced
    nLastSuccess_ne := hent.nLastSuccess_ne
    limbo := fun ht hr => hL (hent.limbo ht hr)
    nLastTry := hent.nLastTry
    nLastSuccess := hent.nLastSuccess }

/-- **One entry changes**, with its cells.  The cells of the others stay. -/
theorem update (h : Tabled hash nKey L vvT vvN m)
    (hnew : ∀ j, j ≠ i → j ≠ -1 → ∀ b p, vvN' b p = j ↔ vvN b p = j)
    (htried : ∀ j, j ≠ i → j ≠ -1 → ∀ b p, vvT' b p = j ↔ vvT b p = j)
    (hmarker : m.find? (-1) = none) (hL : ∀ j, j ≠ i → j ∈ L → j ∈ L')
    (hentry : Entered hash nKey L' vvT' vvN' i x') (hnewCell : ∀ b p, vvN' b p = i →
      x'.slot hash nKey b = p)
    (htriedCell : ∀ b p, vvT' b p = i → x'.fInTried = true ∧ x'.getTriedBucket hash nKey = b ∧
      x'.home hash nKey = p) : Tabled hash nKey L' vvT' vvN' (m.assign i x') where
  entry := by
    intro j y hy
    by_cases hj : j = i
    · subst hj
      rw [find?_assign_self] at hy
      cases hy
      exact hentry
    · rw [find?_assign_ne hj] at hy
      have hne : j ≠ -1 := by
        rintro rfl
        rw [hmarker] at hy
        cases hy
      exact h.entered_of_ne hy (hnew j hj hne) (htried j hj hne) (hL j hj)
  newCell := by
    intro b p j hv hne
    by_cases hj : j = i
    · subst hj
      exact ⟨x', find?_assign_self m j x', hnewCell b p hv⟩
    · rw [find?_assign_ne hj]
      exact h.newCell b p j ((hnew j hj hne b p).1 hv) hne
  triedCell := by
    intro b p j hv hne
    by_cases hj : j = i
    · subst hj
      exact ⟨x', find?_assign_self m j x', htriedCell b p hv⟩
    · rw [find?_assign_ne hj]
      exact h.triedCell b p j ((htried j hj hne b p).1 hv) hne

theorem refs_of_fresh (h : Tabled hash nKey L vvT vvN m) (hi : m.find? i = none) (hne : i ≠ -1)
    (b : Fin ADDRMAN_NEW_BUCKET_COUNT) (p : Fin ADDRMAN_BUCKET_SIZE) : vvN b p ≠ i := by
  intro hv
  obtain ⟨y, hy, -⟩ := h.newCell b p i hv hne
  rw [hi] at hy
  cases hy

theorem notMem_new (h : Tabled hash nKey L vvT vvN m) (hx : m.find? i = some x) (hne : i ≠ -1)
    (href : x.nRefCount = 0) (b : Fin ADDRMAN_NEW_BUCKET_COUNT) (p : Fin ADDRMAN_BUCKET_SIZE) :
    vvN b p ≠ i := by
  intro hv
  obtain ⟨y, hy, hslot⟩ := h.newCell b p i hv hne
  rw [hx] at hy
  cases hy
  have hzero := (h.entry i x hx).refs
  rw [href] at hzero
  have hnone := refs_eq_zero.1 (show Buckets.refs vvN (x.slot hash nKey) i = 0 by omega) b
  rw [hslot] at hnone
  exact hnone hv

theorem notMem_tried (h : Tabled hash nKey L vvT vvN m) (hx : m.find? i = some x) (hne : i ≠ -1)
    (htried : x.fInTried = false) (b : Fin ADDRMAN_TRIED_BUCKET_COUNT)
    (p : Fin ADDRMAN_BUCKET_SIZE) : vvT b p ≠ i := by
  intro hv
  obtain ⟨y, hy, ht, -⟩ := h.triedCell b p i hv hne
  rw [hx] at hy
  cases hy
  rw [htried] at ht
  cases ht

theorem slot_of_cell (h : Tabled hash nKey L vvT vvN m) (hx : m.find? i = some x) (hne : i ≠ -1)
    {b : Fin ADDRMAN_NEW_BUCKET_COUNT} {p : Fin ADDRMAN_BUCKET_SIZE} (hv : vvN b p = i) :
    x.slot hash nKey b = p := by
  obtain ⟨y, hy, hslot⟩ := h.newCell b p i hv hne
  rw [hx] at hy
  cases hy
  exact hslot

theorem home_of_cell (h : Tabled hash nKey L vvT vvN m) (hx : m.find? i = some x) (hne : i ≠ -1)
    {b : Fin ADDRMAN_TRIED_BUCKET_COUNT} {p : Fin ADDRMAN_BUCKET_SIZE} (hv : vvT b p = i) :
    x.fInTried = true ∧ x.getTriedBucket hash nKey = b ∧ x.home hash nKey = p := by
  obtain ⟨y, hy, hhome⟩ := h.triedCell b p i hv hne
  rw [hx] at hy
  cases hy
  exact hhome

theorem limbo_congr (h : Tabled hash nKey L vvT vvN m)
    (hL : ∀ i x, m.find? i = some x → x.fInTried = false → x.nRefCount = 0 → i ∈ L') :
    Tabled hash nKey L' vvT vvN m where
  entry := fun i x hx => { h.entry i x hx with limbo := hL i x hx }
  newCell := h.newCell
  triedCell := h.triedCell

theorem replace (h : Tabled hash nKey L vvT vvN m) (hmarker : m.find? (-1) = none)
    (hx : m.find? i = some x) (hserv : x'.toCService = x.toCService)
    (href : x'.nRefCount = x.nRefCount) (htried : x'.fInTried = x.fInTried)
    (htry : 0 ≤ x'.nLastTry) (hsuccess : 0 ≤ x'.nLastSuccess)
    (hne : x.nLastSuccess ≠ 0 → x'.nLastSuccess ≠ 0) :
    Tabled hash nKey L vvT vvN (m.assign i x') := by
  have hent := h.entry i x hx
  have hi : i ≠ -1 := by
    rintro rfl
    rw [hmarker] at hx
    cases hx
  apply h.update (fun _ _ _ _ _ => Iff.rfl) (fun _ _ _ _ _ => Iff.rfl) hmarker fun _ _ hj => hj
  · exact {
      refs := by rw [href, CAddrInfo.slot_congr hserv]; exact hent.refs
      most := by rw [href]; exact hent.most
      home := by
        rw [htried, CAddrInfo.getTriedBucket_congr hserv, CAddrInfo.home_congr hserv]
        exact hent.home
      unreferenced := by rw [htried, href]; exact hent.unreferenced
      nLastSuccess_ne := fun ht => hne (hent.nLastSuccess_ne (htried ▸ ht))
      limbo := by rw [htried, href]; exact hent.limbo
      nLastTry := htry
      nLastSuccess := hsuccess }
  · intro b p hv
    rw [CAddrInfo.slot_congr hserv]
    exact h.slot_of_cell hx hi hv
  · intro b p hv
    rw [htried, CAddrInfo.getTriedBucket_congr hserv, CAddrInfo.home_congr hserv]
    exact h.home_of_cell hx hi hv

theorem push (h : Tabled hash nKey L vvT vvN m) (hmarker : m.find? (-1) = none)
    (hi : m.find? i = none) (hne : i ≠ -1) (href : x.nRefCount = 0) (htried : x.fInTried = false)
    (htry : 0 ≤ x.nLastTry) (hsuccess : 0 ≤ x.nLastSuccess) :
    Tabled hash nKey (insert i L) vvT vvN (m.assign i x) := by
  have hnew := h.refs_of_fresh hi hne
  apply h.update (fun _ _ _ _ _ => Iff.rfl) (fun _ _ _ _ _ => Iff.rfl) hmarker
    fun _ _ hj => Set.mem_insert_of_mem i hj
  · exact {
      refs := by rw [href, refs_eq_zero.2 fun b => hnew b _]; rfl
      most := by rw [href]; decide
      home := by rw [htried]; exact fun ht => absurd ht Bool.false_ne_true
      unreferenced := fun _ => href
      nLastSuccess_ne := by rw [htried]; exact fun ht => absurd ht Bool.false_ne_true
      limbo := fun _ _ => Set.mem_insert i L
      nLastTry := htry
      nLastSuccess := hsuccess }
  · intro b p hv
    exact absurd hv (hnew b p)
  · intro b p hv
    obtain ⟨y, hy, -⟩ := h.triedCell b p i hv hne
    rw [hi] at hy
    cases hy

theorem pushTried (h : Tabled hash nKey L vvT vvN m) (hmarker : m.find? (-1) = none)
    (hi : m.find? i = none) (hne : i ≠ -1) (href : x.nRefCount = 0) (htried : x.fInTried = true)
    (htry : 0 ≤ x.nLastTry) (hsuccess : 0 < x.nLastSuccess)
    (hv : vvT (x.getTriedBucket hash nKey) (x.home hash nKey) = -1) :
    Tabled hash nKey L (setCell vvT (x.getTriedBucket hash nKey) (x.home hash nKey) i) vvN
      (m.assign i x) := by
  have hnew := h.refs_of_fresh hi hne
  apply h.update (fun _ _ _ _ _ => Iff.rfl) _ hmarker fun _ _ hj => hj
  · exact {
      refs := by rw [href, refs_eq_zero.2 fun b => hnew b _]; rfl
      most := by rw [href]; decide
      home := fun _ => setCell_self _ _ _ _
      unreferenced := fun _ => href
      nLastSuccess_ne := fun _ => (Int.ne_of_lt hsuccess).symm
      limbo := by rw [htried]; exact fun ht => absurd ht.symm Bool.false_ne_true
      nLastTry := htry
      nLastSuccess := Int.le_of_lt hsuccess }
  · intro b p hv'
    exact absurd hv' (hnew b p)
  · intro b p hv'
    rw [setCell_apply] at hv'
    split at hv'
    · rename_i heq
      exact ⟨htried, heq.1.symm, heq.2.symm⟩
    · obtain ⟨y, hy, -⟩ := h.triedCell b p i hv' hne
      rw [hi] at hy
      cases hy
  · intro j hji hj _ _
    exact setCell_eq_iff (hv.trans_ne hj.symm) hji.symm

theorem remove (h : Tabled hash nKey L vvT vvN m) (hx : m.find? i = some x) (hne : i ≠ -1)
    (href : x.nRefCount = 0) (htried : x.fInTried = false) :
    Tabled hash nKey (L \ {i}) vvT vvN (m.erase i) where
  entry := by
    intro j y hy
    by_cases hj : j = i
    · rw [hj, find?_erase_self] at hy
      cases hy
    · rw [find?_erase_ne hj] at hy
      exact h.entered_of_ne hy (fun _ _ => Iff.rfl) (fun _ _ => Iff.rfl) fun hL => ⟨hL, hj⟩
  newCell := by
    intro b p j hv hj
    have hji : j ≠ i := by
      rintro rfl
      exact h.notMem_new hx hne href b p hv
    rw [find?_erase_ne hji]
    exact h.newCell b p j hv hj
  triedCell := by
    intro b p j hv hj
    have hji : j ≠ i := by
      rintro rfl
      exact h.notMem_tried hx hne htried b p hv
    rw [find?_erase_ne hji]
    exact h.triedCell b p j hv hj

theorem dropRef (h : Tabled hash nKey L vvT vvN m) (hmarker : m.find? (-1) = none)
    (hx : m.find? i = some x) {b : Fin ADDRMAN_NEW_BUCKET_COUNT} {p : Fin ADDRMAN_BUCKET_SIZE}
    (hv : vvN b p = i) (hi : i ≠ -1) : Tabled hash nKey (insert i L) vvT (setCell vvN b p (-1))
      (m.assign i { x with nRefCount := x.nRefCount - 1 }) := by
  have hent := h.entry i x hx
  have hslot := h.slot_of_cell hx hi hv
  have hclear : refs (setCell vvN b p (-1)) (x.slot hash nKey) i + 1 =
      refs vvN (x.slot hash nKey) i := by
    subst hslot
    exact refs_clear hv hi.symm
  have hrefs := hent.refs
  have htried : x.fInTried = false := by
    by_contra ht
    have := hent.unreferenced (Bool.not_eq_false _ ▸ ht)
    omega
  apply h.update _ (fun _ _ _ _ _ => Iff.rfl) hmarker fun j _ hj => Set.mem_insert_of_mem i hj
  · exact {
      refs := by
        show x.nRefCount - 1 = refs (setCell vvN b p (-1)) (x.slot hash nKey) i
        omega
      most := by
        have := hent.most
        show x.nRefCount - 1 ≤ ADDRMAN_NEW_BUCKETS_PER_ADDRESS
        omega
      home := hent.home
      unreferenced := by
        intro ht
        rw [show x.fInTried = true from ht] at htried
        cases htried
      nLastSuccess_ne := hent.nLastSuccess_ne
      limbo := fun _ _ => Set.mem_insert i L
      nLastTry := hent.nLastTry
      nLastSuccess := hent.nLastSuccess }
  · intro b' p' hv'
    rw [setCell_apply] at hv'
    split at hv'
    · exact absurd hv'.symm hi
    · exact h.slot_of_cell hx hi hv'
  · intro b' p' hv'
    exact absurd hv' (h.notMem_tried hx hi htried b' p')
  · intro j hji hj _ _
    exact setCell_eq_iff (hv.trans_ne hji.symm) hj.symm

theorem addRef (h : Tabled hash nKey L vvT vvN m) (hmarker : m.find? (-1) = none)
    (hx : m.find? i = some x) (hi : i ≠ -1) (htried : x.fInTried = false)
    (hmost : x.nRefCount < ADDRMAN_NEW_BUCKETS_PER_ADDRESS) {b : Fin ADDRMAN_NEW_BUCKET_COUNT}
    (hv : vvN b (x.slot hash nKey b) = -1) {n : ℤ} (hn : n = x.nRefCount + 1) :
    Tabled hash nKey (L \ {i}) vvT (setCell vvN b (x.slot hash nKey b) i)
      (m.assign i { x with nRefCount := n }) := by
  subst hn
  have hent := h.entry i x hx
  have hrefs := hent.refs
  have henter : refs (setCell vvN b (x.slot hash nKey b) i) (x.slot hash nKey) i =
      refs vvN (x.slot hash nKey) i + 1 := by
    apply refs_enter
    rw [hv]
    exact hi.symm
  apply h.update _ (fun _ _ _ _ _ => Iff.rfl) hmarker fun j hji hj => And.intro hj hji
  · exact {
      refs := by
        show x.nRefCount + 1 = refs (setCell vvN b (x.slot hash nKey b) i) (x.slot hash nKey) i
        omega
      most := by
        show x.nRefCount + 1 ≤ ADDRMAN_NEW_BUCKETS_PER_ADDRESS
        omega
      home := hent.home
      unreferenced := by
        intro ht
        rw [show x.fInTried = true from ht] at htried
        cases htried
      nLastSuccess_ne := hent.nLastSuccess_ne
      limbo := by
        intro _ hr
        have hzero : x.nRefCount + 1 = 0 := hr
        omega
      nLastTry := hent.nLastTry
      nLastSuccess := hent.nLastSuccess }
  · intro b' p' hv'
    rw [setCell_apply] at hv'
    split at hv'
    · rename_i heq
      rw [heq.1, heq.2]
      rfl
    · exact h.slot_of_cell hx hi hv'
  · intro b' p' hv'
    exact absurd hv' (h.notMem_tried hx hi htried b' p')
  · intro j hji hj _ _
    exact setCell_eq_iff (hv.trans_ne hj.symm) hji.symm

theorem leaveAll (h : Tabled hash nKey L vvT vvN m) (hmarker : m.find? (-1) = none)
    (hx : m.find? i = some x) (hi : i ≠ -1) (htried : x.fInTried = false)
    (hv : ∀ b p, vvN' b p = if vvN b p = i then -1 else vvN b p) :
    Tabled hash nKey (insert i L) vvT vvN' (m.assign i { x with nRefCount := 0 }) := by
  have hent := h.entry i x hx
  have hout : ∀ b p, vvN' b p ≠ i := by
    intro b p
    rw [hv]
    split
    · exact hi.symm
    · assumption
  apply h.update _ (fun _ _ _ _ _ => Iff.rfl) hmarker fun j _ hj => Set.mem_insert_of_mem i hj
  · exact {
      refs := by
        show (0 : ℤ) = refs vvN' (x.slot hash nKey) i
        rw [refs_eq_zero.2 fun b => hout b _]
        rfl
      most := by
        show (0 : ℤ) ≤ ADDRMAN_NEW_BUCKETS_PER_ADDRESS
        decide
      home := hent.home
      unreferenced := fun _ => rfl
      nLastSuccess_ne := hent.nLastSuccess_ne
      limbo := fun _ _ => Set.mem_insert i L
      nLastTry := hent.nLastTry
      nLastSuccess := hent.nLastSuccess }
  · intro b p hv'
    exact absurd hv' (hout b p)
  · intro b p hv'
    exact absurd hv' (h.notMem_tried hx hi htried b p)
  · intro j hji hj b p
    rw [hv]
    split
    · rename_i heq
      rw [heq]
      exact ⟨fun hm => absurd hm.symm hj, fun hm => absurd hm.symm hji⟩
    · exact Iff.rfl

theorem untry (h : Tabled hash nKey L vvT vvN m) (hmarker : m.find? (-1) = none)
    (hx : m.find? i = some x) (hi : i ≠ -1) (htried : x.fInTried = true) :
    Tabled hash nKey (insert i L)
      (setCell vvT (x.getTriedBucket hash nKey) (x.home hash nKey) (-1)) vvN
      (m.assign i { x with fInTried := false }) := by
  have hent := h.entry i x hx
  have hhome := hent.home htried
  apply h.update (fun _ _ _ _ _ => Iff.rfl) _ hmarker fun j _ hj => Set.mem_insert_of_mem i hj
  · exact {
      refs := hent.refs
      most := hent.most
      home := fun ht => absurd ht Bool.false_ne_true
      unreferenced := fun ht => absurd ht Bool.false_ne_true
      nLastSuccess_ne := fun ht => absurd ht Bool.false_ne_true
      limbo := fun _ _ => Set.mem_insert i L
      nLastTry := hent.nLastTry
      nLastSuccess := hent.nLastSuccess }
  · intro b p hv
    exact absurd hv (h.notMem_new hx hi (hent.unreferenced htried) b p)
  · intro b p hv
    rw [setCell_apply] at hv
    split at hv
    · exact absurd hv.symm hi
    · -- A tried entry has one cell only.
      rename_i hne
      obtain ⟨-, hb, hp⟩ := h.home_of_cell hx hi hv
      exact absurd ⟨hb.symm, hp.symm⟩ hne
  · intro j hji hj _ _
    exact setCell_eq_iff (hhome.trans_ne hji.symm) hj.symm

theorem enterTried (h : Tabled hash nKey L vvT vvN m) (hmarker : m.find? (-1) = none)
    (hx : m.find? i = some x) (hi : i ≠ -1) (htried : x.fInTried = false)
    (href : x.nRefCount = 0) (hsuccess : x.nLastSuccess ≠ 0)
    (hv : vvT (x.getTriedBucket hash nKey) (x.home hash nKey) = -1) :
    Tabled hash nKey (L \ {i})
      (setCell vvT (x.getTriedBucket hash nKey) (x.home hash nKey) i) vvN
      (m.assign i { x with fInTried := true }) := by
  have hent := h.entry i x hx
  apply h.update (fun _ _ _ _ _ => Iff.rfl) _ hmarker fun j hji hj => And.intro hj hji
  · exact {
      refs := hent.refs
      most := hent.most
      home := fun _ => setCell_self _ _ _ _
      unreferenced := fun _ => href
      nLastSuccess_ne := fun _ => hsuccess
      limbo := fun ht => absurd ht.symm Bool.false_ne_true
      nLastTry := hent.nLastTry
      nLastSuccess := hent.nLastSuccess }
  · intro b p hv'
    exact absurd hv' (h.notMem_new hx hi href b p)
  · intro b p hv'
    rw [setCell_apply] at hv'
    split at hv'
    · rename_i heq
      exact ⟨rfl, heq.1.symm, heq.2.symm⟩
    · exact absurd hv' (h.notMem_tried hx hi htried b p)
  · intro j hji hj _ _
    exact setCell_eq_iff (hv.trans_ne hj.symm) hji.symm

end Tabled

/-! ## Counters -/

def triedWeight (_ : Int32) (x : CAddrInfo) : ℤ := if x.fInTried then 1 else 0

def newWeight (_ : Int32) (x : CAddrInfo) : ℤ := if x.fInTried then 0 else 1

structure Counted (e f : ℤ) (mapInfo : StdMap Int32 CAddrInfo) (nTried nNew : ℤ) : Prop where
  tried : nTried + f = mapInfo.sum triedWeight
  new : nNew + e = mapInfo.sum newWeight

namespace Counted

variable {e f : ℤ} {m : StdMap Int32 CAddrInfo} {nTried nNew : ℤ} {i : Int32} {x x' : CAddrInfo}

theorem sums_replace (x' : CAddrInfo) (hx : m.find? i = some x) :
    (m.assign i x').sum triedWeight + triedWeight i x = m.sum triedWeight + triedWeight i x' ∧
      (m.assign i x').sum newWeight + newWeight i x = m.sum newWeight + newWeight i x' :=
  ⟨sum_replace triedWeight hx, sum_replace newWeight hx⟩

theorem replace (h : Counted e f m nTried nNew) (hx : m.find? i = some x)
    (htried : x'.fInTried = x.fInTried) : Counted e f (m.assign i x') nTried nNew := by
  obtain ⟨ht, hn⟩ := sums_replace x' hx
  have h1 := h.tried
  have h2 := h.new
  unfold triedWeight at ht
  unfold newWeight at hn
  rw [htried] at ht hn
  constructor
  · unfold triedWeight at h1 ⊢
    omega
  · unfold newWeight at h2 ⊢
    omega

theorem raise (h : Counted (e + 1) f m nTried nNew) : Counted e f m nTried (nNew + 1) := by
  have hnew := h.new
  constructor
  · exact h.tried
  · omega

theorem push (h : Counted e f m nTried nNew) (hi : m.find? i = none) (htried : x.fInTried = false) :
    Counted (e + 1) f (m.assign i x) nTried nNew := by
  have ht := sum_assign_fresh triedWeight (v := x) hi
  have hn := sum_assign_fresh newWeight (v := x) hi
  have h1 := h.tried
  have h2 := h.new
  rw [triedWeight, htried, if_neg Bool.false_ne_true] at ht
  rw [newWeight, htried, if_neg Bool.false_ne_true] at hn
  constructor <;> omega

theorem pushTried (h : Counted e f m nTried nNew) (hi : m.find? i = none)
    (htried : x.fInTried = true) : Counted e (f + 1) (m.assign i x) nTried nNew := by
  have ht := sum_assign_fresh triedWeight (v := x) hi
  have hn := sum_assign_fresh newWeight (v := x) hi
  have h1 := h.tried
  have h2 := h.new
  rw [triedWeight, htried, if_pos rfl] at ht
  rw [newWeight, htried, if_pos rfl] at hn
  constructor <;> omega

theorem remove (h : Counted e f m nTried nNew) (hx : m.find? i = some x)
    (htried : x.fInTried = false) : Counted e f (m.erase i) nTried (nNew - 1) := by
  have ht := sum_erase triedWeight hx
  have hn := sum_erase newWeight hx
  have h1 := h.tried
  have h2 := h.new
  rw [triedWeight, htried, if_neg Bool.false_ne_true] at ht
  rw [newWeight, htried, if_neg Bool.false_ne_true] at hn
  constructor <;> omega

theorem untry (h : Counted e f m nTried nNew) (hx : m.find? i = some x)
    (htried : x.fInTried = true) (htried' : x'.fInTried = false) :
    Counted (e + 1) f (m.assign i x') (nTried - 1) nNew := by
  obtain ⟨ht, hn⟩ := sums_replace x' hx
  have h1 := h.tried
  have h2 := h.new
  rw [triedWeight, triedWeight, htried, htried', if_pos rfl, if_neg Bool.false_ne_true] at ht
  rw [newWeight, newWeight, htried, htried', if_pos rfl, if_neg Bool.false_ne_true] at hn
  constructor <;> omega

theorem enterTried (h : Counted e f m nTried nNew) (hx : m.find? i = some x)
    (htried : x.fInTried = false) (htried' : x'.fInTried = true) :
    Counted (e - 1) f (m.assign i x') (nTried + 1) nNew := by
  obtain ⟨ht, hn⟩ := sums_replace x' hx
  have h1 := h.tried
  have h2 := h.new
  rw [triedWeight, triedWeight, htried, htried', if_pos rfl, if_neg Bool.false_ne_true] at ht
  rw [newWeight, newWeight, htried, htried', if_pos rfl, if_neg Bool.false_ne_true] at hn
  constructor <;> omega

end Counted

end CAddrMan

end UnemployCoin
