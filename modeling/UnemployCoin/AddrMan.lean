import UnemployCoin.AssetTypes
import UnemployCoin.NetAddress
import UnemployCoin.Lib.Buckets
import UnemployCoin.Lib.Run
import UnemployCoin.Lib.StdMap
/-!
# The address manager

`CAddrMan` of `addrman.cpp`: two tables of buckets, a map from ids to entries, a map from addresses
to ids, and a vector of all ids in random order.

The operations fail where an assertion fails or where an id that was read has no entry.  What is
drawn at random and what the clock says are arguments.  The hash that picks buckets and slots is a
parameter.
-/

namespace UnemployCoin

open Buckets

def ADDRMAN_TRIED_BUCKETS_PER_GROUP : ℕ := 8

def ADDRMAN_NEW_BUCKETS_PER_SOURCE_GROUP : ℕ := 64

def ADDRMAN_NEW_BUCKETS_PER_ADDRESS : ℤ := 8

def ADDRMAN_HORIZON_DAYS : ℤ := 30

def ADDRMAN_RETRIES : Int32 := 3

def ADDRMAN_MAX_FAILURES : Int32 := 10

def ADDRMAN_MIN_FAIL_DAYS : ℤ := 7

def ADDRMAN_GETADDR_MAX_PCT : ℕ := 23

def ADDRMAN_GETADDR_MAX : ℕ := 2500

abbrev ADDRMAN_TRIED_BUCKET_COUNT : ℕ := 256

abbrev ADDRMAN_NEW_BUCKET_COUNT : ℕ := 1024

abbrev ADDRMAN_BUCKET_SIZE : ℕ := 64

instance (priority := 1100) : NeZero ADDRMAN_NEW_BUCKET_COUNT := ⟨by decide⟩

instance (priority := 1100) : NeZero ADDRMAN_BUCKET_SIZE := ⟨by decide⟩

structure CAddrInfo extends CAddress where
  nLastTry : ℤ
  nLastCountAttempt : ℤ
  source : CNetAddr
  nLastSuccess : ℤ
  nAttempts : Int32
  nRefCount : ℤ
  fInTried : Bool
  /-- Position in `vRandom`. -/
  nRandomPos : ℤ

structure AddrRecord where
  addr : CAddress
  source : CNetAddr
  nLastSuccess : ℤ
  nAttempts : Int32

namespace CAddrInfo

def new (addrIn : CAddress) (addrSource : CNetAddr) : CAddrInfo :=
  { addrIn with
    nLastTry := 0, nLastCountAttempt := 0, source := addrSource, nLastSuccess := 0, nAttempts := 0
    nRefCount := 0, fInTried := false, nRandomPos := -1 }

def write (info : CAddrInfo) : AddrRecord :=
  ⟨info.toCAddress, info.source, info.nLastSuccess, info.nAttempts⟩

/-- `CAddrInfo()`. -/
instance : Inhabited CAddrInfo :=
  ⟨new ⟨⟨⟨List.replicate 16 0, List.length_replicate⟩, 0⟩, 0, 100000000⟩
    ⟨List.replicate 16 0, List.length_replicate⟩⟩

def read (rec : AddrRecord) : CAddrInfo :=
  { new rec.addr rec.source with nLastSuccess := rec.nLastSuccess, nAttempts := rec.nAttempts }

section Buckets

variable (hash : Bytes → UInt64) (nKey : uint256) (info : CAddrInfo)

/-- `GetTriedBucket`; `hash` is the cheap hash of what was written. -/
def getTriedBucket : Fin ADDRMAN_TRIED_BUCKET_COUNT :=
  let hash1 := hash (writeLE 32 nKey ++ writeString info.getKey)
  let hash2 := hash (writeLE 32 nKey ++ writeString info.getGroup ++
    writeLE 8 (hash1.toNat % ADDRMAN_TRIED_BUCKETS_PER_GROUP))
  Fin.ofNat _ hash2.toNat

/-- `GetNewBucket`, for what `src` says of the address. -/
def getNewBucket (src : CNetAddr) : Fin ADDRMAN_NEW_BUCKET_COUNT :=
  let vchSourceGroupKey := src.getGroup
  let hash1 := hash (writeLE 32 nKey ++ writeString info.getGroup ++ writeString vchSourceGroupKey)
  let hash2 := hash (writeLE 32 nKey ++ writeString vchSourceGroupKey ++
    writeLE 8 (hash1.toNat % ADDRMAN_NEW_BUCKETS_PER_SOURCE_GROUP))
  Fin.ofNat _ hash2.toNat

def getBucketPosition (fNew : Bool) (nBucket : ℕ) : Fin ADDRMAN_BUCKET_SIZE :=
  Fin.ofNat _ (hash (writeLE 32 nKey ++ ascii (if fNew then "N" else "K") ++ writeLE 4 nBucket ++
    writeString info.getKey)).toNat

end Buckets

def isTerrible (info : CAddrInfo) (nNow : ℤ) : Bool :=
  if info.nLastTry ≠ 0 ∧ info.nLastTry ≥ nNow - 60 then false
  else if (info.nTime.toNat : ℤ) > nNow + 10 * 60 then true
  else if info.nTime = 0 ∨ nNow - info.nTime.toNat > ADDRMAN_HORIZON_DAYS * 24 * 60 * 60 then true
  else if info.nLastSuccess = 0 ∧ info.nAttempts ≥ ADDRMAN_RETRIES then true
  else decide (nNow - info.nLastSuccess > ADDRMAN_MIN_FAIL_DAYS * 24 * 60 * 60 ∧
    info.nAttempts ≥ ADDRMAN_MAX_FAILURES)

end CAddrInfo

structure CAddrMan where
  nIdCount : Int32
  mapInfo : StdMap Int32 CAddrInfo
  mapAddr : StdMap CNetAddr Int32
  vRandom : List Int32
  nTried : ℤ
  vvTried : Table (Fin ADDRMAN_TRIED_BUCKET_COUNT) (Fin ADDRMAN_BUCKET_SIZE) Int32
  nNew : ℤ
  vvNew : Table (Fin ADDRMAN_NEW_BUCKET_COUNT) (Fin ADDRMAN_BUCKET_SIZE) Int32
  nLastGood : ℤ
  nKey : uint256

/-- The conversion of a signed number to `unsigned int`. -/
def toUnsigned (z : ℤ) : ℕ := (z % 2 ^ 32).toNat

namespace CAddrMan

/-- `Clear`, which draws a new key. -/
def clear (nKey : uint256) : CAddrMan where
  nIdCount := 0
  mapInfo := ∅
  mapAddr := ∅
  vRandom := []
  nTried := 0
  vvTried := fun _ _ => -1
  nNew := 0
  vvNew := fun _ _ => -1
  nLastGood := 1
  nKey := nKey

variable (s : CAddrMan)

/-- `Find`, with the id. -/
def find (addr : CNetAddr) : Option (Int32 × CAddrInfo) := do
  let nId ← s.mapAddr.find? addr
  let info ← s.mapInfo.find? nId
  return (nId, info)

def setInfo (nId : Int32) (info : CAddrInfo) : CAddrMan :=
  { s with mapInfo := s.mapInfo.assign nId info }

def create (addr : CAddress) (addrSource : CNetAddr) : Int32 × CAddrMan :=
  let nId := s.nIdCount
  (nId, { s with
    nIdCount := s.nIdCount + 1
    mapInfo := s.mapInfo.assign nId
      { CAddrInfo.new addr addrSource with nRandomPos := s.vRandom.length }
    mapAddr := s.mapAddr.assign addr.toCNetAddr nId
    vRandom := s.vRandom ++ [nId] })

def swapRandom (nRndPos1 nRndPos2 : ℕ) : Option CAddrMan :=
  if nRndPos1 = nRndPos2 then some s else do
    let nId1 ← s.vRandom[nRndPos1]?
    let nId2 ← s.vRandom[nRndPos2]?
    let info1 ← s.mapInfo.find? nId1
    let info2 ← s.mapInfo.find? nId2
    return { s with
      mapInfo := (s.mapInfo.assign nId1 { info1 with nRandomPos := nRndPos2 }).assign nId2
        { info2 with nRandomPos := nRndPos1 }
      vRandom := (s.vRandom.set nRndPos1 nId2).set nRndPos2 nId1 }

def delete (nId : Int32) : Option CAddrMan := do
  let info ← s.mapInfo.find? nId
  guard (info.fInTried = false)
  guard (info.nRefCount = 0)
  let s ← s.swapRandom (toUnsigned info.nRandomPos) (toUnsigned (s.vRandom.length - 1))
  return { s with
    vRandom := s.vRandom.dropLast
    mapAddr := s.mapAddr.erase info.toCNetAddr
    mapInfo := s.mapInfo.erase nId
    nNew := s.nNew - 1 }

/-- Empties a cell of the new table; an entry that has no other cell goes. -/
def clearNew (nUBucket : Fin ADDRMAN_NEW_BUCKET_COUNT) (nUBucketPos : Fin ADDRMAN_BUCKET_SIZE) :
    Option CAddrMan :=
  let nIdDelete := s.vvNew nUBucket nUBucketPos
  if nIdDelete = -1 then some s else do
    let infoDelete ← s.mapInfo.find? nIdDelete
    guard (infoDelete.nRefCount > 0)
    let infoDelete := { infoDelete with nRefCount := infoDelete.nRefCount - 1 }
    let s := { s.setInfo nIdDelete infoDelete with
      vvNew := setCell s.vvNew nUBucket nUBucketPos (-1) }
    if infoDelete.nRefCount = 0 then s.delete nIdDelete else some s

variable (hash : Bytes → UInt64)

/-- Enters an entry that was evicted from the tried table in the new table again. -/
def returnNew (infoOld : CAddrInfo) (nIdEvict : Int32) : Option CAddrMan := do
  let nUBucket := infoOld.getNewBucket hash s.nKey infoOld.source
  let nUBucketPos := infoOld.getBucketPosition hash s.nKey true nUBucket
  let s : CAddrMan ← s.clearNew nUBucket nUBucketPos
  guard (s.vvNew nUBucket nUBucketPos = -1)
  let infoOld ← s.mapInfo.find? nIdEvict
  return { s.setInfo nIdEvict { infoOld with nRefCount := 1 } with
    vvNew := setCell s.vvNew nUBucket nUBucketPos nIdEvict
    nNew := s.nNew + 1 }

/-- The part of `MakeTried` that moves the occupant of a cell of the tried table back to the new
table. -/
def evict (nKBucket : Fin ADDRMAN_TRIED_BUCKET_COUNT) (nKBucketPos : Fin ADDRMAN_BUCKET_SIZE) :
    Option CAddrMan := do
  let nIdEvict := s.vvTried nKBucket nKBucketPos
  let infoOld ← s.mapInfo.find? nIdEvict
  let infoOld := { infoOld with fInTried := false }
  let s := { s.setInfo nIdEvict infoOld with
    vvTried := setCell s.vvTried nKBucket nKBucketPos (-1)
    nTried := s.nTried - 1 }
  s.returnNew hash infoOld nIdEvict

/-- The loop of `MakeTried` that takes an entry out of all buckets of the new table. -/
def leaveNew (info : CAddrInfo) (nId : Int32) : CAddrMan × CAddrInfo :=
  let pos (bucket : Fin ADDRMAN_NEW_BUCKET_COUNT) := info.getBucketPosition hash s.nKey true bucket
  let r := leave pos nId (-1) (List.finRange ADDRMAN_NEW_BUCKET_COUNT) s.vvNew info.nRefCount
  let info := { info with nRefCount := r.2 }
  ({ s.setInfo nId info with vvNew := r.1, nNew := s.nNew - 1 }, info)

/-- The end of `MakeTried`: enters an entry in the tried table. -/
def placeTried (info : CAddrInfo) (nId : Int32) : Option CAddrMan := do
  let nKBucket := info.getTriedBucket hash s.nKey
  let nKBucketPos := info.getBucketPosition hash s.nKey false nKBucket
  let s ←
    (if s.vvTried nKBucket nKBucketPos = -1 then some s else s.evict hash nKBucket nKBucketPos)
  guard (s.vvTried nKBucket nKBucketPos = -1)
  let info ← s.mapInfo.find? nId
  return { s.setInfo nId { info with fInTried := true } with
    vvTried := setCell s.vvTried nKBucket nKBucketPos nId
    nTried := s.nTried + 1 }

def makeTried (info : CAddrInfo) (nId : Int32) : Option CAddrMan := do
  let (s, info) := s.leaveNew hash info nId
  guard (info.nRefCount = 0)
  s.placeTried hash info nId

/-! ## The operations -/

/-- The search of `Good_` for a bucket that an entry is in, from a bucket on. -/
def inNew (info : CAddrInfo) (nId : Int32) (nRnd : ℕ) : Bool :=
  (List.range ADDRMAN_NEW_BUCKET_COUNT).any fun n =>
    let nB := Fin.ofNat ADDRMAN_NEW_BUCKET_COUNT (n + nRnd)
    decide (s.vvNew nB (info.getBucketPosition hash s.nKey true nB) = nId)

/-- `Good_`; `rnd` is what is drawn for the bucket that the search starts with. -/
def good_ (addr : CService) (nTime : ℤ) (rnd : ℕ) : Option CAddrMan :=
  let s := { s with nLastGood := nTime }
  match s.find addr.toCNetAddr with
  | none => some s
  | some (nId, info) =>
    if info.toCService ≠ addr then some s else
      let info := { info with nLastSuccess := nTime, nLastTry := nTime, nAttempts := 0 }
      let s := s.setInfo nId info
      if info.fInTried then some s else
        if s.inNew hash info nId (rnd % ADDRMAN_NEW_BUCKET_COUNT) then s.makeTried hash info nId
        else some s

/-- What `Add_` reads of the clock and draws at random. -/
structure AddDraws where
  /-- The time when an entry is looked at that is there already. -/
  nNow : ℤ
  /-- The time when the occupant of a cell is looked at. -/
  nNowExisting : ℤ
  rnd : ℕ

/-- What `Add_` does to an entry that is there already. -/
def refresh (info : CAddrInfo) (addr : CAddress) (nTimePenalty nNow : ℤ) : CAddrInfo :=
  let fCurrentlyOnline := decide (nNow - addr.nTime.toNat < 24 * 60 * 60)
  let nUpdateInterval : ℤ := if fCurrentlyOnline then 60 * 60 else 24 * 60 * 60
  let nTime : UInt32 :=
    if addr.nTime ≠ 0 ∧ (info.nTime = 0 ∨
        (info.nTime.toNat : ℤ) < addr.nTime.toNat - nUpdateInterval - nTimePenalty) then
      UInt32.ofNat (max 0 ((addr.nTime.toNat : ℤ) - nTimePenalty)).toNat
    else info.nTime
  { info with nTime := nTime, nServices := info.nServices ||| addr.nServices }

/-- Whether `Add_` leaves an entry in the buckets that it is in. -/
def upToDate (info : CAddrInfo) (addr : CAddress) (rnd : ℕ) : Bool :=
  decide (addr.nTime = 0 ∨ (info.nTime ≠ 0 ∧ addr.nTime ≤ info.nTime)) || info.fInTried ||
    decide (info.nRefCount = ADDRMAN_NEW_BUCKETS_PER_ADDRESS) ||
    -- Each bucket that it is in halves the chance for another one.
    let nFactor := 2 ^ info.nRefCount.toNat
    decide (nFactor > 1 ∧ rnd % nFactor ≠ 0)

/-- The end of `Add_`: enters an entry in the bucket that belongs to the source. -/
def enter (nId : Int32) (source : CNetAddr) (nNow : ℤ) : Option CAddrMan := do
  let info ← s.mapInfo.find? nId
  let nUBucket := info.getNewBucket hash s.nKey source
  let nUBucketPos := info.getBucketPosition hash s.nKey true nUBucket
  let nIdExisting := s.vvNew nUBucket nUBucketPos
  if nIdExisting = nId then return s
  let fInsert ← if nIdExisting = -1 then pure true else do
    let infoExisting ← s.mapInfo.find? nIdExisting
    -- The entry there may go if it is useless, or if it is in other buckets as well.
    pure (infoExisting.isTerrible nNow || decide (infoExisting.nRefCount > 1 ∧ info.nRefCount = 0))
  if fInsert then
    let s ← s.clearNew nUBucket nUBucketPos
    let info ← s.mapInfo.find? nId
    return { s.setInfo nId { info with nRefCount := info.nRefCount + 1 } with
      vvNew := setCell s.vvNew nUBucket nUBucketPos nId }
  else if info.nRefCount = 0 then s.delete nId
  else return s

/-- The part of `Add_` for an address that has no entry. -/
def createNew (addr : CAddress) (source : CNetAddr) (nTimePenalty : ℤ) :
    Option (Int32 × CAddrMan) := do
  let (nId, s) := s.create addr source
  let info ← s.mapInfo.find? nId
  let nTime := UInt32.ofNat (max 0 ((info.nTime.toNat : ℤ) - nTimePenalty)).toNat
  return (nId, { s.setInfo nId { info with nTime := nTime } with nNew := s.nNew + 1 })

def add_ (addr : CAddress) (source : CNetAddr) (nTimePenalty : ℤ) (draws : AddDraws) :
    Option (Bool × CAddrMan) :=
  if addr.isRoutable = false then some (false, s) else
    let nTimePenalty := if addr.toCNetAddr = source then 0 else nTimePenalty
    match s.find addr.toCNetAddr with
    | some (nId, info) => do
      let info := refresh info addr nTimePenalty draws.nNow
      let s := s.setInfo nId info
      if upToDate info addr draws.rnd then return (false, s)
      return (false, ← s.enter hash nId source draws.nNowExisting)
    | none => do
      let (nId, s) ← s.createNew addr source nTimePenalty
      return (true, ← s.enter hash nId source draws.nNowExisting)

def attempt_ (addr : CService) (fCountFailure : Bool) (nTime : ℤ) : CAddrMan :=
  match s.find addr.toCNetAddr with
  | none => s
  | some (nId, info) =>
    if info.toCService ≠ addr then s else
      let info := { info with nLastTry := nTime }
      if fCountFailure = true ∧ info.nLastCountAttempt < s.nLastGood then
        s.setInfo nId { info with nLastCountAttempt := nTime, nAttempts := info.nAttempts + 1 }
      else s.setInfo nId info

def connected_ (addr : CService) (nTime : ℤ) : CAddrMan :=
  match s.find addr.toCNetAddr with
  | none => s
  | some (nId, info) =>
    if info.toCService ≠ addr then s else
      if nTime - info.nTime.toNat > 20 * 60 then
        s.setInfo nId { info with nTime := UInt32.ofNat (nTime % 2 ^ 32).toNat }
      else s

def setServices_ (addr : CService) (nServices : UInt64) : CAddrMan :=
  match s.find addr.toCNetAddr with
  | none => s
  | some (nId, info) =>
    if info.toCService ≠ addr then s else s.setInfo nId { info with nServices := nServices }

/-- What `Select_` draws in one round: the first cell, the steps to the next one as long as it is
empty, and how the comparison with the chance of the entry ends. -/
structure SelectDraws where
  nBucket : ℕ
  nBucketPos : ℕ
  steps : List (ℕ × ℕ)
  accept : Bool

/-- The inner loop of `Select_`; `none` when the steps end before it does. -/
def walk {m n : ℕ} [NeZero m] [NeZero n] (vv : Table (Fin m) (Fin n) Int32) :
    Fin m → Fin n → List (ℕ × ℕ) → Option Int32
  | nBucket, nBucketPos, [] =>
    if vv nBucket nBucketPos = -1 then none else some (vv nBucket nBucketPos)
  | nBucket, nBucketPos, (b, p) :: steps =>
    if vv nBucket nBucketPos = -1 then
      walk vv (Fin.ofNat m (nBucket + b)) (Fin.ofNat n (nBucketPos + p)) steps
    else some (vv nBucket nBucketPos)

/-- The outer loop of `Select_`.  The result is `none` when an assertion fails and `some none` when
the draws end before the loop does. -/
def selectFrom {m n : ℕ} [NeZero m] [NeZero n] (vv : Table (Fin m) (Fin n) Int32) :
    List SelectDraws → Option (Option CAddrInfo)
  | [] => some none
  | d :: draws =>
    match walk vv (Fin.ofNat m d.nBucket) (Fin.ofNat n d.nBucketPos) d.steps with
    | none => some none
    | some nId => do
      let info ← s.mapInfo.find? nId
      if d.accept then return some info
      selectFrom vv draws

/-- `Select_`; `coin` chooses between the tables. -/
def select_ (newOnly : Bool) (coin : ℕ) (draws : List SelectDraws) : Option (Option CAddrInfo) :=
  if s.vRandom.length = 0 then some (some default)
  else if newOnly = true ∧ s.nNew = 0 then some (some default)
  else if newOnly = false ∧ s.nTried > 0 ∧ (s.nNew = 0 ∨ coin % 2 = 0) then
    s.selectFrom s.vvTried draws
  else s.selectFrom s.vvNew draws

/-- The loop of `GetAddr_`; for each position there is a draw and a time. -/
def getAddrLoop (nNodes : ℕ) (draw : ℕ → ℕ × ℤ) :
    List ℕ → CAddrMan → List CAddress → Option (CAddrMan × List CAddress)
  | [], s, vAddr => some (s, vAddr)
  | n :: ns, s, vAddr =>
    if vAddr.length ≥ nNodes then some (s, vAddr) else do
      let nRndPos := (draw n).1 % (s.vRandom.length - n) + n
      let s ← s.swapRandom n nRndPos
      let nId ← s.vRandom[n]?
      let ai ← s.mapInfo.find? nId
      getAddrLoop nNodes draw ns s
        (if ai.isTerrible (draw n).2 then vAddr else vAddr ++ [ai.toCAddress])

def getAddr_ (vAddr : List CAddress) (draw : ℕ → ℕ × ℤ) : Option (CAddrMan × List CAddress) :=
  let nNodes := min (ADDRMAN_GETADDR_MAX_PCT * s.vRandom.length / 100) ADDRMAN_GETADDR_MAX
  getAddrLoop nNodes draw (List.range s.vRandom.length) s vAddr

/-! ## The consistency check -/

def entries : List (Int32 × CAddrInfo) := s.mapInfo.entries.mergeSort fun a b => decide (a.1 ≤ b.1)

/-- What `Check_` asks of one entry.  It collects the tried ids, and each new id as many times as it
has references. -/
def checkEntry (n : Int32) (info : CAddrInfo) (setTried : Finset Int32) (mapNew : Multiset Int32) :
    Except ℤ (Finset Int32 × Multiset Int32) := do
  let sets ← if info.fInTried then
      if info.nLastSuccess = 0 then throw (-1)
      else if info.nRefCount ≠ 0 then throw (-2)
      else pure (insert n setTried, mapNew)
    else if info.nRefCount < 0 ∨ info.nRefCount > ADDRMAN_NEW_BUCKETS_PER_ADDRESS then throw (-3)
    else if info.nRefCount = 0 then throw (-4)
    else pure (setTried, mapNew + Multiset.replicate info.nRefCount.toNat n)
  if (s.mapAddr.find? info.toCNetAddr).getD 0 ≠ n then throw (-5)
  else if info.nRandomPos < 0 ∨ info.nRandomPos ≥ s.vRandom.length ∨
      s.vRandom[info.nRandomPos.toNat]? ≠ some n then throw (-14)
  else if info.nLastTry < 0 then throw (-6)
  else if info.nLastSuccess < 0 then throw (-8)
  else pure sets

/-- The loop of `Check_` over the tried table. -/
def checkTried : List (Fin ADDRMAN_TRIED_BUCKET_COUNT × Fin ADDRMAN_BUCKET_SIZE) → Finset Int32 →
    Except ℤ (Finset Int32)
  | [], setTried => pure setTried
  | (n, i) :: cells, setTried =>
    let nId := s.vvTried n i
    let info := (s.mapInfo.find? nId).getD default
    if nId = -1 then checkTried cells setTried
    else if nId ∉ setTried then throw (-11)
    else if info.getTriedBucket hash s.nKey ≠ n then throw (-17)
    else if info.getBucketPosition hash s.nKey false n ≠ i then throw (-18)
    else checkTried cells (setTried.erase nId)

/-- The loop of `Check_` over the new table. -/
def checkNew : List (Fin ADDRMAN_NEW_BUCKET_COUNT × Fin ADDRMAN_BUCKET_SIZE) → Multiset Int32 →
    Except ℤ (Multiset Int32)
  | [], mapNew => pure mapNew
  | (n, i) :: cells, mapNew =>
    let nId := s.vvNew n i
    let info := (s.mapInfo.find? nId).getD default
    if nId = -1 then checkNew cells mapNew
    else if nId ∉ mapNew then throw (-12)
    else if info.getBucketPosition hash s.nKey true n ≠ i then throw (-19)
    else checkNew cells (mapNew.erase nId)

def checks : Except ℤ Unit := do
  if (s.vRandom.length : ℤ) ≠ s.nTried + s.nNew then throw (-7)
  let (setTried, mapNew) ←
    s.entries.foldlM (fun sets e => s.checkEntry e.1 e.2 sets.1 sets.2) (∅, 0)
  if (setTried.card : ℤ) ≠ s.nTried then throw (-9)
  if (mapNew.toFinset.card : ℤ) ≠ s.nNew then throw (-10)
  let setTried ← s.checkTried hash (cells _ _) setTried
  let mapNew ← s.checkNew hash (cells _ _) mapNew
  if setTried.card ≠ 0 then throw (-13)
  if mapNew.toFinset.card ≠ 0 then throw (-15)
  if s.nKey = 0 then throw (-16)

/-- `Check_`: zero, or the code of the first condition that fails. -/
def check_ : ℤ :=
  match s.checks hash with
  | .ok _ => 0
  | .error err => err

end CAddrMan

end UnemployCoin
