import UnemployCoin.AddrManCheck
/-!
# The file of the address manager

`CAddrMan::Serialize` and `CAddrMan::Unserialize` of `addrman.h`.  Of the tables only the new one is
written, as indices into the list of new entries; the tried table, the index of addresses and the
random order are made again when the file is read.
-/

namespace UnemployCoin

open Buckets StdMap

structure AddrManFile where
  nVersion : UInt8
  nKeySize : UInt8
  nKey : uint256
  nNew : ℤ
  nTried : ℤ
  /-- The number of buckets, marked so that old versions do not take it. -/
  nUBuckets : Int32
  /-- The entries of the new table and then those of the tried table. -/
  infos : List AddrRecord
  /-- For each bucket the indices in it.  Their number, which stands before them, is the length. -/
  vUBuckets : List (List ℤ)

namespace CAddrMan

/-- `1 << 30`. -/
def BUCKETS_MARK : Int32 := 1073741824

variable (s : CAddrMan)

/-- A loop of `Serialize` that writes the entries with `p`, of which there may be `nCount`. -/
def writeInfos (p : CAddrInfo → Bool) (nCount : ℤ) :
    ℤ → List (Int32 × CAddrInfo) → Option (List AddrRecord)
  | _, [] => some []
  | nIds, (_, info) :: l =>
    if p info then
      if nIds = nCount then none
      else (writeInfos p nCount (nIds + 1) l).map fun recs => info.write :: recs
    else writeInfos p nCount nIds l

/-- `mapUnkIds`: how many new entries come before an id. -/
def unkIds : ℤ → List (Int32 × CAddrInfo) → StdMap Int32 ℤ
  | _, [] => ∅
  | nIds, (nId, info) :: l =>
    (unkIds (if info.nRefCount ≠ 0 then nIds + 1 else nIds) l).assign nId nIds

def serialize : Option AddrManFile := do
  let mapUnkIds := unkIds 0 s.entries
  let vNew ← writeInfos (fun info => decide (info.nRefCount ≠ 0)) s.nNew 0 s.entries
  let vTried ← writeInfos (fun info => info.fInTried) s.nTried 0 s.entries
  return {
    nVersion := 1
    nKeySize := 32
    nKey := s.nKey
    nNew := s.nNew
    nTried := s.nTried
    nUBuckets := Int32.ofNat ADDRMAN_NEW_BUCKET_COUNT ^^^ BUCKETS_MARK
    infos := vNew ++ vTried
    vUBuckets := (List.finRange ADDRMAN_NEW_BUCKET_COUNT).map fun bucket =>
      ((List.finRange ADDRMAN_BUCKET_SIZE).filter fun i => s.vvNew bucket i ≠ -1).map fun i =>
        (mapUnkIds.find? (s.vvNew bucket i)).getD 0 }

/-! ## Reading -/

variable (hash : Bytes → UInt64)

/-- Whether the positions in the file belong to the buckets of this program. -/
def usable (nVersion : UInt8) (nUBuckets : Int32) : Bool :=
  decide (nVersion = 1 ∧ nUBuckets = Int32.ofNat ADDRMAN_NEW_BUCKET_COUNT)

/-- Adds an entry under an id, at the end of the random order. -/
def append (nId : Int32) (info : CAddrInfo) : CAddrMan :=
  { s.setInfo nId info with
    mapAddr := s.mapAddr.assign info.toCNetAddr nId
    vRandom := s.vRandom ++ [nId] }

/-- Gives an entry the bucket of its first source, if that is free. -/
def enterFirst (nId : Int32) (info : CAddrInfo) : CAddrMan :=
  let nUBucket := info.getNewBucket hash s.nKey info.source
  let nUBucketPos := info.getBucketPosition hash s.nKey true nUBucket
  if s.vvNew nUBucket nUBucketPos = -1 then
    { s.setInfo nId { info with nRefCount := info.nRefCount + 1 } with
      vvNew := setCell s.vvNew nUBucket nUBucketPos nId }
  else s

/-- One round of the loop of `Unserialize` over the new entries. -/
def loadNew (fUsable : Bool) (s : CAddrMan) (rec : AddrRecord × ℕ) : CAddrMan :=
  let nId := Int32.ofNat rec.2
  let info := { CAddrInfo.read rec.1 with nRandomPos := s.vRandom.length }
  let s := s.append nId info
  if fUsable then s else s.enterFirst hash nId info

/-- One round of the loop over the tried entries.  An entry whose cell is taken is lost. -/
def loadTried (r : CAddrMan × ℤ) (rec : AddrRecord) : CAddrMan × ℤ :=
  let (s, nLost) := r
  let info := CAddrInfo.read rec
  let nKBucket := info.getTriedBucket hash s.nKey
  let nKBucketPos := info.getBucketPosition hash s.nKey false nKBucket
  if s.vvTried nKBucket nKBucketPos = -1 then
    let info := { info with nRandomPos := s.vRandom.length, fInTried := true }
    ({ s.append s.nIdCount info with
      vvTried := setCell s.vvTried nKBucket nKBucketPos s.nIdCount
      nIdCount := s.nIdCount + 1 }, nLost)
  else (s, nLost + 1)

def loadIndex (fUsable : Bool) (bucket : ℕ) (s : CAddrMan) (nIndex : ℤ) : Option CAddrMan :=
  if 0 ≤ nIndex ∧ nIndex < s.nNew then do
    let nId := Int32.ofInt nIndex
    let info ← s.mapInfo.find? nId
    let nUBucket := Fin.ofNat ADDRMAN_NEW_BUCKET_COUNT bucket
    let nUBucketPos := info.getBucketPosition hash s.nKey true bucket
    if fUsable = true ∧ s.vvNew nUBucket nUBucketPos = -1 ∧
        info.nRefCount < ADDRMAN_NEW_BUCKETS_PER_ADDRESS then
      return { s.setInfo nId { info with nRefCount := info.nRefCount + 1 } with
        vvNew := setCell s.vvNew nUBucket nUBucketPos nId }
    else return s
  else some s

def loadBucket (fUsable : Bool) (s : CAddrMan) (bucket : List ℤ × ℕ) : Option CAddrMan :=
  bucket.1.foldlM (loadIndex hash fUsable bucket.2) s

/-- One round of the loop that removes the new entries which have got no bucket. -/
def prune (s : CAddrMan) (nId : Int32) : Option CAddrMan := do
  let info ← s.mapInfo.find? nId
  if info.fInTried = false ∧ info.nRefCount = 0 then s.delete nId else return s

def fileBuckets (file : AddrManFile) : Int32 :=
  if file.nVersion ≠ 0 then file.nUBuckets ^^^ BUCKETS_MARK else file.nUBuckets

/-- `Unserialize`.  It fails where it throws; `nKey` is the key that `Clear` draws. -/
def unserialize (nKey : uint256) (file : AddrManFile) : Option CAddrMan := do
  let s := clear nKey
  guard (file.nKeySize = 32)
  let s := { s with nKey := file.nKey, nNew := file.nNew, nTried := file.nTried }
  let nUBuckets := fileBuckets file
  guard (s.nNew ≤ ((ADDRMAN_NEW_BUCKET_COUNT * ADDRMAN_BUCKET_SIZE : ℕ) : ℤ))
  guard (s.nTried ≤ ((ADDRMAN_TRIED_BUCKET_COUNT * ADDRMAN_BUCKET_SIZE : ℕ) : ℤ))
  -- The file ends too early.
  guard (s.nNew.toNat + s.nTried.toNat ≤ file.infos.length)
  let fUsable := usable file.nVersion nUBuckets
  let s := (file.infos.take s.nNew.toNat).zipIdx.foldl (loadNew hash fUsable) s
  let s := { s with nIdCount := Int32.ofInt s.nNew }
  let (s, nLost) :=
    ((file.infos.drop s.nNew.toNat).take s.nTried.toNat).foldl (loadTried hash) (s, 0)
  let s := { s with nTried := s.nTried - nLost }
  guard (nUBuckets.toInt.toNat ≤ file.vUBuckets.length)
  let s ← (file.vUBuckets.take nUBuckets.toInt.toNat).zipIdx.foldlM (loadBucket hash fUsable) s
  (s.entries.map Prod.fst).foldlM prune s

/-! ## What is read -/

/-- A file with different addresses, times that make sense, and no more entries than cells. -/
structure Sane (file : AddrManFile) : Prop where
  keySize : file.nKeySize = 32
  nNew_nonneg : 0 ≤ file.nNew
  nNew_le : file.nNew ≤ ((ADDRMAN_NEW_BUCKET_COUNT * ADDRMAN_BUCKET_SIZE : ℕ) : ℤ)
  nTried_nonneg : 0 ≤ file.nTried
  nTried_le : file.nTried ≤ ((ADDRMAN_TRIED_BUCKET_COUNT * ADDRMAN_BUCKET_SIZE : ℕ) : ℤ)
  length : file.infos.length = file.nNew.toNat + file.nTried.toNat
  addr : (file.infos.map fun rec => rec.addr.toCNetAddr).Nodup
  newTime : ∀ rec ∈ file.infos.take file.nNew.toNat, 0 ≤ rec.nLastSuccess
  triedTime : ∀ rec ∈ file.infos.drop file.nNew.toNat, 0 < rec.nLastSuccess
  buckets : (fileBuckets file).toInt.toNat ≤ file.vUBuckets.length

theorem ofNat_inj {k n : ℕ} (hk : k < 2 ^ 31) (hn : n < 2 ^ 31)
    (h : Int32.ofNat k = Int32.ofNat n) : k = n := by
  have hnat := congrArg (fun i : Int32 => i.toBitVec.toNat) h
  simp only [Int32.toBitVec_ofNat', BitVec.toNat_ofNat] at hnat
  omega

theorem ofNat_ne_marker {n : ℕ} (hn : n < 2 ^ 31) : Int32.ofNat n ≠ -1 := by
  intro h
  have hnat := congrArg (fun i : Int32 => i.toBitVec.toNat) h
  have hmarker : (-1 : Int32).toBitVec.toNat = 4294967295 := by decide
  simp only [Int32.toBitVec_ofNat', BitVec.toNat_ofNat, hmarker] at hnat
  omega

/-- The state while a file is read: the ids so far are the numbers below `k`, those below `k₀` are
new entries, and the addresses so far are in a set. -/
structure Loading (hash : Bytes → UInt64) (k₀ k : ℕ) (A : Set CNetAddr) (e f : ℤ)
    (s : CAddrMan) : Prop where
  inv : Inv hash Set.univ e f s
  id_lt : ∀ i x, s.mapInfo.find? i = some x → ∃ n < k, i = Int32.ofNat n
  new : ∀ n < k₀, ∃ x, s.mapInfo.find? (Int32.ofNat n) = some x ∧ x.fInTried = false
  addr : ∀ i x, s.mapInfo.find? i = some x → x.toCNetAddr ∈ A

variable {hash} {s : CAddrMan} {k₀ k : ℕ} {A : Set CNetAddr} {e f : ℤ} {rec : AddrRecord}

theorem Loading.fresh (h : Loading hash k₀ k A e f s) (hk : k < 2 ^ 31) :
    s.mapInfo.find? (Int32.ofNat k) = none := by
  cases hx : s.mapInfo.find? (Int32.ofNat k) with
  | none => rfl
  | some x =>
    obtain ⟨n, hn, heq⟩ := h.id_lt _ x hx
    have := ofNat_inj hk (by omega) heq
    omega

theorem Loading.freshAddr (h : Loading hash k₀ k A e f s) {a : CNetAddr} (ha : a ∉ A) :
    s.mapAddr.find? a = none := by
  cases hi : s.mapAddr.find? a with
  | none => rfl
  | some i =>
    obtain ⟨x, hx, hxa⟩ := (h.inv.indexed.addr a i).1 hi
    exact absurd (hxa ▸ h.addr i x hx) ha

theorem Loading.mono (h : Loading hash k₀ k A e f s) (a : CNetAddr) :
    Loading hash k₀ k (insert a A) e f s :=
  { h with addr := fun i x hx => Set.mem_insert_of_mem a (h.addr i x hx) }

theorem Loading.push (h : Loading hash k₀ k A e f s) (hk : k < 2 ^ 31) {s' : CAddrMan}
    {x : CAddrInfo} {e' f' : ℤ} (hinv : Inv hash Set.univ e' f' s')
    (hinfo : s'.mapInfo = s.mapInfo.assign (Int32.ofNat k) x) :
    Loading hash k₀ (k + 1) (insert x.toCNetAddr A) e' f' s' where
  inv := hinv
  id_lt := by
    intro i y hy
    rw [hinfo, find?_assign] at hy
    split at hy
    · exact ⟨k, Nat.lt_succ_self k, by assumption⟩
    · obtain ⟨n, hn, heq⟩ := h.id_lt i y hy
      exact ⟨n, by omega, heq⟩
  new := by
    intro n hn
    obtain ⟨y, hy, ht⟩ := h.new n hn
    refine ⟨y, ?_, ht⟩
    rw [hinfo, find?_assign_ne]
    · exact hy
    · intro heq
      rw [heq, h.fresh hk] at hy
      cases hy
  addr := by
    intro i y hy
    rw [hinfo, find?_assign] at hy
    split at hy
    · cases hy
      exact Set.mem_insert _ A
    · exact Set.mem_insert_of_mem _ (h.addr i y hy)

theorem Loading.addRef (h : Loading hash k₀ k A e f s) {n : ℕ} {x : CAddrInfo}
    (hx : s.mapInfo.find? (Int32.ofNat n) = some x) (htried : x.fInTried = false)
    (hroom : x.nRefCount < ADDRMAN_NEW_BUCKETS_PER_ADDRESS) {b : Fin ADDRMAN_NEW_BUCKET_COUNT}
    (hv : s.vvNew b (x.slot hash s.nKey b) = -1) :
    Loading hash k₀ k A e f { s.setInfo (Int32.ofNat n) { x with nRefCount := x.nRefCount + 1 } with
      vvNew := setCell s.vvNew b (x.slot hash s.nKey b) (Int32.ofNat n) } where
  inv := by
    have hi := h.inv.indexed.ne_marker hx
    have hadd := h.inv.tabled.addRef h.inv.indexed.marker hx hi htried hroom hv rfl
    refine ⟨h.inv.indexed.replace hx rfl rfl, ?_, h.inv.counted.replace hx rfl⟩
    exact hadd.limbo_congr fun j _ _ _ _ => Set.mem_univ j
  id_lt := by
    intro i y hy
    by_cases hi : i = Int32.ofNat n
    · exact h.id_lt i x (hi ▸ hx)
    · exact h.id_lt i y ((find?_assign_ne hi).symm.trans hy)
  new := by
    intro n' hn'
    obtain ⟨y, hy, ht⟩ := h.new n' hn'
    by_cases hi : Int32.ofNat n' = Int32.ofNat n
    · rw [hi]
      exact ⟨_, find?_assign_self _ _ _, htried⟩
    · exact ⟨y, (find?_assign_ne hi).trans hy, ht⟩
  addr := by
    intro i y hy
    by_cases hi : i = Int32.ofNat n
    · subst hi
      have hself := (find?_assign_self _ _ _).symm.trans hy
      cases hself
      exact h.addr _ x hx
    · exact h.addr i y ((find?_assign_ne hi).symm.trans hy)

theorem Loading.append (h : Loading hash k k A e f s) (hk : k < 2 ^ 31) {x : CAddrInfo}
    (ha : x.toCNetAddr ∉ A) (hpos : x.nRandomPos = s.vRandom.length) (htried : x.fInTried = false)
    (href : x.nRefCount = 0) (htry : 0 ≤ x.nLastTry) (hsuccess : 0 ≤ x.nLastSuccess) :
    Loading hash (k + 1) (k + 1) (insert x.toCNetAddr A) (e + 1) f
      (s.append (Int32.ofNat k) x) := by
  have hfresh := h.fresh hk
  have hne := ofNat_ne_marker hk
  have hinv : Inv hash Set.univ (e + 1) f (s.append (Int32.ofNat k) x) := by
    constructor
    · exact h.inv.indexed.push hfresh hne (h.freshAddr ha) hpos
    · have htab := h.inv.tabled.push h.inv.indexed.marker hfresh hne href htried htry hsuccess
      exact htab.limbo_congr fun j _ _ _ _ => Set.mem_univ j
    · exact h.inv.counted.push hfresh htried
  have hload := h.push hk hinv rfl
  refine { hload with new := fun n hn => ?_ }
  by_cases hnk : n = k
  · rw [hnk]
    exact ⟨x, find?_assign_self _ _ _, htried⟩
  · exact hload.new n (by omega)

theorem Loading.enterFirst (h : Loading hash k₀ k A e f s) {n : ℕ} {x : CAddrInfo}
    (hx : s.mapInfo.find? (Int32.ofNat n) = some x) (htried : x.fInTried = false)
    (href : x.nRefCount = 0) :
    Loading hash k₀ k A e f (s.enterFirst hash (Int32.ofNat n) x) := by
  unfold CAddrMan.enterFirst
  dsimp only
  split
  · rename_i hv
    exact h.addRef hx htried (by rw [href]; decide) hv
  · exact h

theorem loadNew_spec (h : Loading hash k k A e f s) (fUsable : Bool) (hk : k < 2 ^ 31)
    (ha : rec.addr.toCNetAddr ∉ A) (hsuccess : 0 ≤ rec.nLastSuccess) :
    Loading hash (k + 1) (k + 1) (insert rec.addr.toCNetAddr A) (e + 1) f
      (loadNew hash fUsable s (rec, k)) := by
  have happend : Loading hash (k + 1) (k + 1) (insert rec.addr.toCNetAddr A) (e + 1) f
      (s.append (Int32.ofNat k) { CAddrInfo.read rec with nRandomPos := s.vRandom.length }) :=
    Loading.append (x := { CAddrInfo.read rec with nRandomPos := s.vRandom.length }) h hk ha rfl rfl
      rfl (Int.le_refl 0) hsuccess
  unfold loadNew
  dsimp only
  split
  · exact happend
  · exact happend.enterFirst (find?_assign_self _ _ _) rfl rfl

theorem loadNew_fields (fUsable : Bool) (s : CAddrMan) (rec : AddrRecord × ℕ) :
    (loadNew hash fUsable s rec).nNew = s.nNew ∧ (loadNew hash fUsable s rec).nTried = s.nTried ∧
      (loadNew hash fUsable s rec).nKey = s.nKey := by
  unfold loadNew enterFirst
  dsimp only
  split
  · exact ⟨rfl, rfl, rfl⟩
  · split <;> exact ⟨rfl, rfl, rfl⟩

/-- **The new entries.** -/
theorem foldl_loadNew (fUsable : Bool) {l : List AddrRecord} (h : Loading hash k k A e f s)
    (hk : k + l.length < 2 ^ 31) (hnd : (l.map fun rec => rec.addr.toCNetAddr).Nodup)
    (hA : ∀ rec ∈ l, rec.addr.toCNetAddr ∉ A) (hsuccess : ∀ rec ∈ l, 0 ≤ rec.nLastSuccess) :
    ∃ t, (l.zipIdx k).foldl (loadNew hash fUsable) s = t ∧
      Loading hash (k + l.length) (k + l.length)
        (A ∪ {a | ∃ rec ∈ l, a = rec.addr.toCNetAddr}) (e + l.length) f t ∧
      t.nNew = s.nNew ∧ t.nTried = s.nTried ∧ t.nKey = s.nKey := by
  induction l generalizing k A e s with
  | nil =>
    refine ⟨s, rfl, ?_, rfl, rfl, rfl⟩
    simpa using h
  | cons rec l ih =>
    rw [List.forall_mem_cons] at hA hsuccess
    rw [List.map_cons, List.nodup_cons] at hnd
    rw [List.length_cons] at hk
    have hstep := loadNew_spec h fUsable (by omega) hA.1 hsuccess.1
    have hrest : ∀ r ∈ l, r.addr.toCNetAddr ∉ insert rec.addr.toCNetAddr A := by
      intro r hr hmem
      rcases Set.mem_insert_iff.1 hmem with heq | hin
      · exact hnd.1 (heq ▸ List.mem_map.2 ⟨r, hr, rfl⟩)
      · exact hA.2 r hr hin
    obtain ⟨t, ht, hload, hnew, htried, hkey⟩ := ih hstep (by omega) hnd.2 hrest hsuccess.2
    obtain ⟨fnew, ftried, fkey⟩ := @loadNew_fields hash fUsable s (rec, k)
    refine ⟨t, ?_, ?_, hnew.trans fnew, htried.trans ftried, hkey.trans fkey⟩
    · rw [List.zipIdx_cons, List.foldl_cons]
      exact ht
    · have hset : insert rec.addr.toCNetAddr A ∪ {a | ∃ r ∈ l, a = r.addr.toCNetAddr} =
          A ∪ {a | ∃ r ∈ rec :: l, a = r.addr.toCNetAddr} := by
        ext a
        simp only [Set.mem_union, Set.mem_insert_iff, Set.mem_ofPred_eq, List.mem_cons,
          exists_eq_or_imp]
        tauto
      rw [hset, show k + 1 + l.length = k + (l.length + 1) by omega,
        show e + 1 + (l.length : ℤ) = e + ((l.length + 1 : ℕ) : ℤ) by push_cast; omega] at hload
      exact hload

theorem loadTried_spec (h : Loading hash k₀ k A e f s) (hid : s.nIdCount = Int32.ofNat k)
    (hk : k < 2 ^ 31) (nLost : ℤ) (ha : rec.addr.toCNetAddr ∉ A) (hsuccess : 0 < rec.nLastSuccess) :
    ∃ t nLost' k' f', loadTried hash (s, nLost) rec = (t, nLost') ∧
      Loading hash k₀ k' (insert rec.addr.toCNetAddr A) e f' t ∧ t.nIdCount = Int32.ofNat k' ∧
      k' ≤ k + 1 ∧ f' + nLost' = f + nLost + 1 ∧ t.nNew = s.nNew ∧ t.nTried = s.nTried ∧
      t.nKey = s.nKey := by
  unfold loadTried
  dsimp only
  split
  · rename_i hv
    rw [hid]
    have hfresh := h.fresh hk
    have hne := ofNat_ne_marker hk
    obtain ⟨x, hx⟩ : ∃ x : CAddrInfo,
        x = { CAddrInfo.read rec with nRandomPos := s.vRandom.length, fInTried := true } := ⟨_, rfl⟩
    have hinv : Inv hash Set.univ e (f + 1)
        { s.append (Int32.ofNat k) x with
          vvTried := setCell s.vvTried (x.getTriedBucket hash s.nKey) (x.home hash s.nKey)
            (Int32.ofNat k)
          nIdCount := Int32.ofNat k + 1 } := by
      subst hx
      exact ⟨h.inv.indexed.push hfresh hne (h.freshAddr ha) rfl,
        h.inv.tabled.pushTried h.inv.indexed.marker hfresh hne rfl rfl (Int.le_refl 0) hsuccess hv,
        h.inv.counted.pushTried hfresh rfl⟩
    have hload := h.push hk hinv rfl
    subst hx
    refine ⟨_, nLost, k + 1, f + 1, rfl, hload, ?_, Nat.le_refl _, by omega, rfl, rfl, rfl⟩
    show Int32.ofNat k + 1 = Int32.ofNat (k + 1)
    rw [Int32.ofNat_add]
    rfl
  · exact ⟨s, nLost + 1, k, f, rfl, h.mono _, hid, Nat.le_succ k, by omega, rfl, rfl, rfl⟩

/-- **The tried entries.** -/
theorem foldl_loadTried {l : List AddrRecord} (h : Loading hash k₀ k A e f s)
    (hid : s.nIdCount = Int32.ofNat k) (hk : k + l.length < 2 ^ 31) (nLost : ℤ)
    (hnd : (l.map fun rec => rec.addr.toCNetAddr).Nodup)
    (hA : ∀ rec ∈ l, rec.addr.toCNetAddr ∉ A) (hsuccess : ∀ rec ∈ l, 0 < rec.nLastSuccess) :
    ∃ t nLost' k' A' f', l.foldl (loadTried hash) (s, nLost) = (t, nLost') ∧
      Loading hash k₀ k' A' e f' t ∧ f' + nLost' = f + nLost + l.length ∧
      t.nNew = s.nNew ∧ t.nTried = s.nTried ∧ t.nKey = s.nKey := by
  induction l generalizing k A f s nLost with
  | nil => exact ⟨s, nLost, k, A, f, rfl, h, by simp, rfl, rfl, rfl⟩
  | cons rec l ih =>
    rw [List.forall_mem_cons] at hA hsuccess
    rw [List.map_cons, List.nodup_cons] at hnd
    rw [List.length_cons] at hk
    obtain ⟨u, nLost', k', f', hu, hload, hid', hk', hlost, fnew, ftried, fkey⟩ :=
      loadTried_spec h hid (by omega) nLost hA.1 hsuccess.1
    have hrest : ∀ r ∈ l, r.addr.toCNetAddr ∉ insert rec.addr.toCNetAddr A := by
      intro r hr hmem
      rcases Set.mem_insert_iff.1 hmem with heq | hin
      · exact hnd.1 (heq ▸ List.mem_map.2 ⟨r, hr, rfl⟩)
      · exact hA.2 r hr hin
    obtain ⟨t, nLost'', k'', A'', f'', ht, hload', hlost', hnew, htried, hkey⟩ :=
      ih hload hid' (by omega) _ hnd.2 hrest hsuccess.2
    refine ⟨t, nLost'', k'', A'', f'', ?_, hload', ?_, hnew.trans fnew, htried.trans ftried,
      hkey.trans fkey⟩
    · rw [List.foldl_cons, hu]
      exact ht
    · rw [List.length_cons]
      push_cast
      omega

theorem loadIndex_spec (h : Loading hash k₀ k A e f s) (hnew : s.nNew = k₀) (fUsable : Bool)
    {bucket : ℕ} (hbucket : fUsable = true → bucket < ADDRMAN_NEW_BUCKET_COUNT) (nIndex : ℤ) :
    ∃ t, loadIndex hash fUsable bucket s nIndex = some t ∧ Loading hash k₀ k A e f t ∧
      t.nNew = s.nNew ∧ t.nTried = s.nTried ∧ t.nKey = s.nKey := by
  unfold loadIndex
  split
  · rename_i hrange
    obtain ⟨n, rfl⟩ := Int.eq_ofNat_of_zero_le hrange.1
    obtain ⟨x, hx, htried⟩ := h.new n (by omega)
    dsimp only
    rw [Int32.ofInt_eq_ofNat, hx]
    simp only [Option.bind_eq_bind, Option.bind_some]
    split
    · rename_i hif
      have hval : (Fin.ofNat ADDRMAN_NEW_BUCKET_COUNT bucket).val = bucket :=
        Nat.mod_eq_of_lt (hbucket hif.1)
      have hslot : x.getBucketPosition hash s.nKey true bucket =
          x.slot hash s.nKey (Fin.ofNat ADDRMAN_NEW_BUCKET_COUNT bucket) := by
        unfold CAddrInfo.slot
        rw [hval]
      rw [hslot] at hif ⊢
      exact ⟨_, rfl, h.addRef hx htried hif.2.2 hif.2.1, rfl, rfl, rfl⟩
    · exact ⟨s, rfl, h, rfl, rfl, rfl⟩
  · exact ⟨s, rfl, h, rfl, rfl, rfl⟩

theorem loadBucket_spec (h : Loading hash k₀ k A e f s) (hnew : s.nNew = k₀) (fUsable : Bool)
    {bucket : List ℤ × ℕ} (hbucket : fUsable = true → bucket.2 < ADDRMAN_NEW_BUCKET_COUNT) :
    ∃ t, loadBucket hash fUsable s bucket = some t ∧ Loading hash k₀ k A e f t ∧
      t.nNew = s.nNew ∧ t.nTried = s.nTried ∧ t.nKey = s.nKey := by
  obtain ⟨l, b⟩ := bucket
  unfold loadBucket
  dsimp only
  induction l generalizing s with
  | nil => exact ⟨s, rfl, h, rfl, rfl, rfl⟩
  | cons nIndex l ih =>
    obtain ⟨t, ht, hload, fnew, ftried, fkey⟩ := loadIndex_spec h hnew fUsable hbucket nIndex
    obtain ⟨u, hu, hload', fnew', ftried', fkey'⟩ := ih hload (fnew.trans hnew) hbucket
    refine ⟨u, ?_, hload', fnew'.trans fnew, ftried'.trans ftried, fkey'.trans fkey⟩
    rw [List.foldlM_cons, ht]
    exact hu

theorem foldlM_loadBucket (fUsable : Bool) {l : List (List ℤ × ℕ)} (h : Loading hash k₀ k A e f s)
    (hnew : s.nNew = k₀)
    (hl : ∀ bucket ∈ l, fUsable = true → bucket.2 < ADDRMAN_NEW_BUCKET_COUNT) :
    ∃ t, l.foldlM (loadBucket hash fUsable) s = some t ∧ Loading hash k₀ k A e f t ∧
      t.nNew = s.nNew ∧ t.nTried = s.nTried ∧ t.nKey = s.nKey := by
  induction l generalizing s with
  | nil => exact ⟨s, rfl, h, rfl, rfl, rfl⟩
  | cons bucket l ih =>
    rw [List.forall_mem_cons] at hl
    obtain ⟨t, ht, hload, fnew, ftried, fkey⟩ := loadBucket_spec h hnew fUsable hl.1
    obtain ⟨u, hu, hload', fnew', ftried', fkey'⟩ := ih hload (fnew.trans hnew) hl.2
    refine ⟨u, ?_, hload', fnew'.trans fnew, ftried'.trans ftried, fkey'.trans fkey⟩
    rw [List.foldlM_cons, ht]
    exact hu

/-- **Pruning**: what has got no bucket goes, so that nothing is left without one. -/
theorem foldlM_prune {l : List Int32} (h : Inv hash {i | i ∈ l} 0 0 s) (hnd : l.Nodup)
    (hl : ∀ i ∈ l, ∃ x, s.mapInfo.find? i = some x) :
    ∃ t, l.foldlM prune s = some t ∧ Sound hash t ∧ t.nKey = s.nKey := by
  induction l generalizing s with
  | nil =>
    refine ⟨s, rfl, h.limbo_congr fun i x hx ht hr => ?_, rfl⟩
    exact absurd (h.limbo hx ht hr) List.not_mem_nil
  | cons i l ih =>
    rw [List.forall_mem_cons] at hl
    rw [List.nodup_cons] at hnd
    obtain ⟨x, hx⟩ := hl.1
    rw [List.foldlM_cons]
    unfold prune
    rw [hx]
    simp only [Option.bind_eq_bind, Option.bind_some]
    split
    · rename_i hlimbo
      obtain ⟨m, a, v, hdel, hI, -, hkept⟩ := delete_spec h hx hlimbo.1 hlimbo.2
      rw [hdel, Option.bind_some]
      apply ih _ hnd.2
      · intro j hj
        obtain ⟨y, hy⟩ := hl.2 j hj
        have hji : j ≠ i := by
          rintro rfl
          exact hnd.1 hj
        obtain ⟨z, hz⟩ := hkept j y hji hy
        exact ⟨_, hz⟩
      · apply hI.limbo_congr
        intro j y hy ht hr
        have hj := hI.limbo hy ht hr
        exact (List.mem_cons.1 hj.1).resolve_left hj.2
    · rename_i hkeep
      apply ih _ hnd.2 hl.2
      apply h.limbo_congr
      intro j y hy ht hr
      rcases List.mem_cons.1 (h.limbo hy ht hr) with rfl | hj
      · rw [hx] at hy
        cases hy
        exact absurd ⟨ht, hr⟩ hkeep
      · exact hj

theorem Loading.lower (h : Loading hash k₀ k A e f s) {nLost : ℤ} (hf : f + nLost = 0) :
    Loading hash k₀ k A e 0 { s with nTried := s.nTried - nLost } := by
  refine ⟨⟨h.inv.indexed, h.inv.tabled, ?_, h.inv.counted.new⟩, h.id_lt, h.new, h.addr⟩
  have htried := h.inv.counted.tried
  show s.nTried - nLost + 0 = StdMap.sum triedWeight s.mapInfo
  omega

theorem loading_clear (nKey : uint256) (file : AddrManFile) :
    Loading hash 0 0 ∅ (-file.nNew) (-file.nTried)
      { clear nKey with nKey := file.nKey, nNew := file.nNew, nTried := file.nTried } := by
  have hnone : ∀ i : Int32, (∅ : StdMap Int32 CAddrInfo).find? i = none := find?_empty
  constructor
  · constructor
    · constructor
      · exact hnone _
      · intro a i
        show (∅ : StdMap CNetAddr Int32).find? a = some i ↔
          ∃ x, (∅ : StdMap Int32 CAddrInfo).find? i = some x ∧ _
        simp only [find?_empty, reduceCtorEq, false_and, exists_false]
      · apply Positions.nil
        intro i
        exact congrArg _ (hnone i)
    · constructor
      · intro i x hx
        exact absurd ((hnone i).symm.trans hx) (by simp)
      · intro b p i hv hne
        exact absurd hv.symm hne
      · intro b p i hv hne
        exact absurd hv.symm hne
    · constructor
      · show file.nTried + -file.nTried = StdMap.sum triedWeight ∅
        rw [sum_empty]
        omega
      · show file.nNew + -file.nNew = StdMap.sum newWeight ∅
        rw [sum_empty]
        omega
  · intro i x hx
    exact absurd ((hnone i).symm.trans hx) (by simp)
  · intro n hn
    exact absurd hn (Nat.not_lt_zero n)
  · intro i x hx
    exact absurd ((hnone i).symm.trans hx) (by simp)

/-- **A sane file** is read without a failure, and the result is sound. -/
theorem unserialize_spec {file : AddrManFile} (hfile : Sane file) (nKey : uint256) :
    ∃ t, unserialize hash nKey file = some t ∧ Sound hash t ∧ t.nKey = file.nKey := by
  have hlen := hfile.length
  have hnn := hfile.nNew_nonneg
  have hnt := hfile.nTried_nonneg
  have hnl : file.nNew ≤ 65536 := hfile.nNew_le
  have htl : file.nTried ≤ 16384 := hfile.nTried_le
  have hlenNew : (file.infos.take file.nNew.toNat).length = file.nNew.toNat := by
    rw [List.length_take]
    omega
  have hlenTried : (file.infos.drop file.nNew.toNat).length = file.nTried.toNat := by
    rw [List.length_drop]
    omega
  have haddr := hfile.addr
  rw [← List.take_append_drop file.nNew.toNat file.infos, List.map_append,
    List.nodup_append] at haddr
  obtain ⟨hndNew, hndTried, hdisj⟩ := haddr
  -- Where the positions are used, there are as many buckets as in the table.
  have hbucket : ∀ bucket ∈ (file.vUBuckets.take (fileBuckets file).toInt.toNat).zipIdx,
      usable file.nVersion (fileBuckets file) = true → bucket.2 < ADDRMAN_NEW_BUCKET_COUNT := by
    intro bucket hmem husable
    have hlt := List.snd_lt_of_mem_zipIdx hmem
    unfold usable at husable
    rw [decide_eq_true_eq] at husable
    have hcount : (Int32.ofNat ADDRMAN_NEW_BUCKET_COUNT).toInt.toNat =
      ADDRMAN_NEW_BUCKET_COUNT := by
      decide
    rw [husable.2, hcount, List.length_take] at hlt
    omega
  have hfew : file.nNew.toNat + file.nTried.toNat ≤ file.infos.length := by omega
  obtain ⟨fUsable, husable⟩ : ∃ u, usable file.nVersion (fileBuckets file) = u := ⟨_, rfl⟩
  rw [husable] at hbucket
  -- The new entries.
  obtain ⟨t₁, ht₁, hload₁, hnew₁, htried₁, hkey₁⟩ := foldl_loadNew fUsable (loading_clear nKey file)
    (by omega) hndNew (fun _ _ => Set.notMem_empty _) hfile.newTime
  rw [hlenNew, Nat.zero_add, show -file.nNew + (file.nNew.toNat : ℤ) = 0 by omega] at hload₁
  -- The tried entries.
  have hload₁' : Loading hash file.nNew.toNat file.nNew.toNat _ 0 (-file.nTried)
      { t₁ with nIdCount := Int32.ofInt t₁.nNew } :=
    ⟨⟨hload₁.inv.indexed, hload₁.inv.tabled, hload₁.inv.counted⟩, hload₁.id_lt, hload₁.new,
      hload₁.addr⟩
  have hid : Int32.ofInt t₁.nNew = Int32.ofNat file.nNew.toNat := by
    rw [hnew₁, ← Int32.ofInt_eq_ofNat]
    congr 1
    exact (Int.toNat_of_nonneg hnn).symm
  have hout : ∀ rec ∈ file.infos.drop file.nNew.toNat, rec.addr.toCNetAddr ∉
      (∅ ∪ {a | ∃ r ∈ file.infos.take file.nNew.toNat, a = r.addr.toCNetAddr} : Set CNetAddr) := by
    rintro rec hrec (hmem | ⟨r, hr, heq⟩)
    · exact hmem
    · exact hdisj _ (List.mem_map.2 ⟨r, hr, rfl⟩) _ (List.mem_map.2 ⟨rec, hrec, rfl⟩) heq.symm
  obtain ⟨t₂, nLost, k₂, A₂, f₂, ht₂, hload₂, hlost, hnew₂, htried₂, hkey₂⟩ :=
    foldl_loadTried hload₁' hid (by omega) 0 hndTried hout hfile.triedTime
  have hload₂' := hload₂.lower (show f₂ + nLost = 0 by omega)
  -- The positions.
  have hnewCount : t₂.nNew = (file.nNew.toNat : ℤ) := by
    rw [hnew₂]
    show t₁.nNew = _
    rw [hnew₁]
    exact (Int.toNat_of_nonneg hnn).symm
  obtain ⟨t₃, ht₃, hload₃, hnew₃, htried₃, hkey₃⟩ :=
    foldlM_loadBucket fUsable hload₂' hnewCount hbucket
  -- Pruning.
  have hinv : Inv hash {i | i ∈ t₃.entries.map Prod.fst} 0 0 t₃ := by
    apply hload₃.inv.limbo_congr
    intro i x hx _ _
    exact List.mem_map.2 ⟨(i, x), mem_entries.2 hx, rfl⟩
  obtain ⟨t, ht, hsound, hkey⟩ := foldlM_prune hinv (entries_keys_nodup t₃) (by
    intro i hi
    obtain ⟨⟨j, x⟩, hmem, rfl⟩ := List.mem_map.1 hi
    exact ⟨x, mem_entries.1 hmem⟩)
  refine ⟨t, ?_, hsound, hkey.trans (hkey₃.trans (hkey₂.trans hkey₁))⟩
  have hrest : (file.infos.drop t₁.nNew.toNat).take t₁.nTried.toNat =
      file.infos.drop file.nNew.toNat := by
    rw [show t₁.nNew = file.nNew from hnew₁, show t₁.nTried = file.nTried from htried₁]
    exact List.take_of_length_le (by omega)
  unfold unserialize
  simp only [hfile.keySize, hfile.nNew_le, hfile.nTried_le, hfew, hfile.buckets, guard_true,
    Option.pure_def, Option.bind_eq_bind, Option.bind_some, husable]
  rw [ht₁, hrest, ht₂]
  dsimp only
  rw [ht₃]
  exact ht

/-! ## What is written -/

theorem writeInfos_spec (p : CAddrInfo → Bool) {nCount nIds : ℤ} {l : List (Int32 × CAddrInfo)}
    (h : nIds + ((l.filter fun e => p e.2).length : ℤ) ≤ nCount) :
    writeInfos p nCount nIds l = some ((l.filter fun e => p e.2).map fun e => e.2.write) := by
  induction l generalizing nIds with
  | nil => rfl
  | cons e l ih =>
    obtain ⟨i, x⟩ := e
    unfold writeInfos
    cases hp : p x with
    | false =>
      rw [List.filter_cons_of_neg (by rw [hp]; exact Bool.false_ne_true)] at h ⊢
      rw [if_neg Bool.false_ne_true]
      exact ih h
    | true =>
      have hcons : ((i, x) :: l).filter (fun e => p e.2) = (i, x) :: l.filter fun e => p e.2 :=
        List.filter_cons_of_pos hp
      rw [hcons] at h ⊢
      rw [List.length_cons] at h
      push_cast at h
      rw [if_pos rfl, if_neg (by omega), ih (by omega), Option.map_some, List.map_cons]

theorem filter_refs (h : Sound hash s) : (s.entries.filter fun e => decide (e.2.nRefCount ≠ 0)) =
    s.entries.filter fun e => !e.2.fInTried := by
  apply List.filter_congr
  intro e he
  have hx := mem_entries.1 (show (e.1, e.2) ∈ s.entries from he)
  have hent := h.tabled.entry e.1 e.2 hx
  cases ht : e.2.fInTried with
  | true =>
    rw [hent.unreferenced ht]
    rfl
  | false =>
    have hne : e.2.nRefCount ≠ 0 := fun href => Set.notMem_empty e.1 (h.limbo hx ht href)
    rw [decide_eq_true hne]
    rfl

theorem nNew_le (h : Sound hash s) :
    s.nNew ≤ ((ADDRMAN_NEW_BUCKET_COUNT * ADDRMAN_BUCKET_SIZE : ℕ) : ℤ) := by
  rw [← length_new h, ← List.toFinset_card_of_nodup (newIds_nodup s), Int.ofNat_le]
  apply card_le_of_entered
  intro i hi
  obtain ⟨x, hx, ht⟩ := mem_newIds.1 (List.mem_toFinset.1 hi)
  have hent := h.tabled.entry i x hx
  have hne : x.nRefCount ≠ 0 := fun href => Set.notMem_empty i (h.limbo hx ht href)
  have hrefs := hent.refs
  obtain ⟨b, hb⟩ := refs_pos.1 (show 0 < refs s.vvNew (x.slot hash s.nKey) i by omega)
  exact ⟨b, _, hb⟩

theorem nTried_le (h : Sound hash s) :
    s.nTried ≤ ((ADDRMAN_TRIED_BUCKET_COUNT * ADDRMAN_BUCKET_SIZE : ℕ) : ℤ) := by
  rw [← length_tried h, ← List.toFinset_card_of_nodup (triedIds_nodup s), Int.ofNat_le]
  apply card_le_of_entered
  intro i hi
  obtain ⟨x, hx, ht⟩ := mem_triedIds.1 (List.mem_toFinset.1 hi)
  exact ⟨_, _, (h.tabled.entry i x hx).home ht⟩

theorem addresses_nodup (h : Sound hash s) :
    (s.entries.map fun e => e.2.toCNetAddr).Nodup := by
  have hnd : s.entries.Nodup := List.Nodup.of_map _ (entries_keys_nodup s)
  apply hnd.map_on
  intro e he e' he' heq
  have hx := mem_entries.1 (show (e.1, e.2) ∈ s.entries from he)
  have hx' := mem_entries.1 (show (e'.1, e'.2) ∈ s.entries from he')
  have hid := h.indexed.id_unique hx hx' heq
  rw [hid, hx'] at hx
  exact Prod.ext hid (Option.some.inj hx).symm

theorem fileBuckets_written {file : AddrManFile} (hv : file.nVersion = 1)
    (hb : file.nUBuckets = Int32.ofNat ADDRMAN_NEW_BUCKET_COUNT ^^^ BUCKETS_MARK) :
    (fileBuckets file).toInt.toNat = ADDRMAN_NEW_BUCKET_COUNT := by
  unfold fileBuckets
  rw [hv, hb]
  decide

/-- **What is written is a sane file.** -/
theorem serialize_spec (h : Sound hash s) :
    ∃ file, s.serialize = some file ∧ Sane file ∧ file.nKey = s.nKey := by
  have hnew := length_new h
  have htried := length_tried h
  unfold newIds at hnew
  unfold triedIds at htried
  rw [List.length_map] at hnew htried
  have hwNew := @writeInfos_spec (fun info => decide (info.nRefCount ≠ 0)) s.nNew 0 s.entries
    (by rw [filter_refs h]; omega)
  have hwTried := @writeInfos_spec (fun info => info.fInTried) s.nTried 0 s.entries (by omega)
  rw [filter_refs h] at hwNew
  unfold serialize
  simp only [hwNew, hwTried, Option.bind_eq_bind, Option.bind_some, Option.pure_def]
  have hlenNew : ((s.entries.filter fun e => !e.2.fInTried).map fun e => e.2.write).length =
      s.nNew.toNat := by
    rw [List.length_map]
    omega
  have hlenTried : ((s.entries.filter fun e => e.2.fInTried).map fun e => e.2.write).length =
      s.nTried.toNat := by
    rw [List.length_map]
    omega
  refine ⟨_, rfl, ?_, rfl⟩
  constructor
  · rfl
  · show 0 ≤ s.nNew
    omega
  · exact nNew_le h
  · show 0 ≤ s.nTried
    omega
  · exact nTried_le h
  · show List.length (_ ++ _) = _
    rw [List.length_append, hlenNew, hlenTried]
  · have hperm : ((s.entries.filter fun e => !e.2.fInTried) ++
        s.entries.filter fun e => e.2.fInTried).Perm s.entries :=
      List.perm_append_comm.trans (List.filter_append_perm (fun e => e.2.fInTried) s.entries)
    show (List.map _ (List.map _ _ ++ List.map _ _)).Nodup
    rw [← List.map_append, List.map_map]
    exact ((hperm.map _).nodup_iff).2 (addresses_nodup h)
  · intro rec hrec
    have hmem : rec ∈ (s.entries.filter fun e => !e.2.fInTried).map fun e => e.2.write := by
      have htake : (((s.entries.filter fun e => !e.2.fInTried).map fun e => e.2.write) ++
          (s.entries.filter fun e => e.2.fInTried).map fun e => e.2.write).take s.nNew.toNat =
            (s.entries.filter fun e => !e.2.fInTried).map fun e => e.2.write :=
        List.take_left' hlenNew
      rw [← htake]
      exact hrec
    obtain ⟨e, he, rfl⟩ := List.mem_map.1 hmem
    have hx := mem_entries.1 (show (e.1, e.2) ∈ s.entries from (List.mem_filter.1 he).1)
    exact (h.tabled.entry e.1 e.2 hx).nLastSuccess
  · intro rec hrec
    have hmem : rec ∈ (s.entries.filter fun e => e.2.fInTried).map fun e => e.2.write := by
      have hdrop : (((s.entries.filter fun e => !e.2.fInTried).map fun e => e.2.write) ++
          (s.entries.filter fun e => e.2.fInTried).map fun e => e.2.write).drop s.nNew.toNat =
            (s.entries.filter fun e => e.2.fInTried).map fun e => e.2.write :=
        List.drop_left' hlenNew
      rw [← hdrop]
      exact hrec
    obtain ⟨e, he, rfl⟩ := List.mem_map.1 hmem
    have hx := mem_entries.1 (show (e.1, e.2) ∈ s.entries from (List.mem_filter.1 he).1)
    have hent := h.tabled.entry e.1 e.2 hx
    exact lt_of_le_of_ne hent.nLastSuccess (hent.nLastSuccess_ne (List.mem_filter.1 he).2).symm
  · rw [fileBuckets_written rfl rfl]
    dsimp only
    rw [List.length_map, List.length_finRange]

/-- **Writing and reading** does not fail, and what is read is sound, with the same key. -/
theorem roundTrip_spec (h : Sound hash s) (nKey : uint256) :
    ∃ t, (s.serialize.bind (unserialize hash nKey)) = some t ∧ Sound hash t ∧ t.nKey = s.nKey := by
  obtain ⟨file, hfile, hsane, hkey⟩ := serialize_spec h
  obtain ⟨t, ht, hsound, hkey'⟩ := unserialize_spec hsane nKey
  exact ⟨t, by rw [hfile, Option.bind_some, ht], hsound, hkey'.trans hkey⟩

end CAddrMan

end UnemployCoin
