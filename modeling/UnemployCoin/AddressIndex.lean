import UnemployCoin.DiskIndex
import UnemployCoin.Lib.SortedTable
/-!
# The address indexes

`CBlockTreeDB::ReadAddressIndex` and `ReadAddressUnspentIndex` (`txdb.cpp`) scan the block database
from a key on.  The bytes of a key give the type, the hash of the address, the length and the bytes
of the asset, and the height with the highest byte first; the scan compares the hash and the asset,
and ends behind the last height.
-/

namespace UnemployCoin

abbrev uint160 := BitVec 160

def writeUInt160 (v : uint160) : Bytes := writeLE 20 v.toNat

def readUInt160 : CDataStream uint160 := do
  let b ← CDataStream.readBytes 20
  return BitVec.ofNat 160 (readLE b)

theorem reads_uint160 (v : uint160) : Reads readUInt160 (writeUInt160 v) v := by
  have hlt : v.toNat < 256 ^ 20 := v.isLt
  have h := (reads_writeLE 20 v.toNat).thenPure fun b => BitVec.ofNat 160 (readLE b)
  rw [readLE_writeLE_of_lt hlt, BitVec.ofNat_toNat, BitVec.setWidth_eq] at h
  exact h

theorem writeUInt160_inj {v w : uint160} (h : writeUInt160 v = writeUInt160 w) : v = w := by
  have hread := congrArg readLE h
  unfold writeUInt160 at hread
  rw [readLE_writeLE_of_lt v.isLt, readLE_writeLE_of_lt w.isLt] at hread
  exact BitVec.eq_of_toNat_eq hread

/-- `ser_writedata32be`. -/
def writeUInt32BE (v : UInt32) : Bytes := (writeLE 4 v.toNat).reverse

/-- `ser_readdata32be`. -/
def readUInt32BE : CDataStream UInt32 := do
  let b ← CDataStream.readBytes 4
  return UInt32.ofNat (readLE b.reverse)

theorem reads_uint32BE (v : UInt32) : Reads readUInt32BE (writeUInt32BE v) v := by
  have hlt : v.toNat < 256 ^ 4 := v.toNat_lt
  have hbytes := reads_bytes (writeUInt32BE v)
  have hlen : (writeUInt32BE v).length = 4 := by
    unfold writeUInt32BE
    rw [List.length_reverse, length_writeLE]
  rw [hlen] at hbytes
  have h := hbytes.thenPure fun b => UInt32.ofNat (readLE b.reverse)
  unfold writeUInt32BE at h
  rw [List.reverse_reverse, readLE_writeLE_of_lt hlt, UInt32.ofNat_toNat] at h
  exact h

namespace AddressIndex

/-! ## Keys -/

structure CAddressUnspentKey where
  type : UInt32
  hashBytes : uint160
  asset : Bytes
  txhash : arith_uint256
  index : UInt64
  deriving DecidableEq

structure CAddressUnspentValue where
  satoshis : CAmount
  script : CScript
  blockHeight : Int32
  deriving DecidableEq

structure CAddressIndexKey where
  type : UInt32
  hashBytes : uint160
  asset : Bytes
  blockHeight : Int32
  txindex : UInt32
  txhash : arith_uint256
  index : UInt64
  spending : Bool
  deriving DecidableEq

/-- `CAddressIndexIteratorKey::Serialize`.  The type is **one byte**. -/
def iteratorKey (type : UInt32) (hashBytes : uint160) : Bytes :=
  [type.toUInt8] ++ writeUInt160 hashBytes

/-- `CAddressIndexIteratorAssetKey::Serialize`. -/
def iteratorAssetKey (type : UInt32) (hashBytes : uint160) (asset : Bytes) : Bytes :=
  iteratorKey type hashBytes ++ writeString asset

/-- `CAddressIndexIteratorHeightKey::Serialize`. -/
def iteratorHeightKey (type : UInt32) (hashBytes : uint160) (asset : Bytes) (blockHeight : Int32) :
    Bytes :=
  iteratorAssetKey type hashBytes asset ++ writeUInt32BE blockHeight.toUInt32

def CAddressUnspentKey.serialize (key : CAddressUnspentKey) : Bytes :=
  [key.type.toUInt8] ++ (writeUInt160 key.hashBytes ++ (writeString key.asset ++
    (writeUInt256 key.txhash ++ writeUInt32 key.index.toUInt32)))

def CAddressUnspentKey.unserialize : CDataStream CAddressUnspentKey := do
  let type ← CDataStream.readUInt8
  let hashBytes ← readUInt160
  let asset ← CDataStream.readString
  let txhash ← readUInt256
  let index ← readUInt32
  return ⟨type.toUInt32, hashBytes, asset, txhash, index.toUInt64⟩

def CAddressIndexKey.serialize (key : CAddressIndexKey) : Bytes :=
  [key.type.toUInt8] ++ (writeUInt160 key.hashBytes ++ (writeString key.asset ++
    -- Heights are stored big-endian for key sorting.
    (writeUInt32BE key.blockHeight.toUInt32 ++ (writeUInt32BE key.txindex ++
      (writeUInt256 key.txhash ++ (writeUInt32 key.index.toUInt32 ++
        [if key.spending then 1 else 0]))))))

def CAddressIndexKey.unserialize : CDataStream CAddressIndexKey := do
  let type ← CDataStream.readUInt8
  let hashBytes ← readUInt160
  let asset ← CDataStream.readString
  let blockHeight ← readUInt32BE
  let txindex ← readUInt32BE
  let txhash ← readUInt256
  let index ← readUInt32
  let f ← CDataStream.readUInt8
  return ⟨type.toUInt32, hashBytes, asset, blockHeight.toInt32, txindex, txhash, index.toUInt64,
    f != 0⟩

/-- `CAddressUnspentValue::SerializationOp`. -/
def CAddressUnspentValue.serialize (value : CAddressUnspentValue) : Bytes :=
  writeInt64 value.satoshis ++ (writeString value.script ++ writeUInt32 value.blockHeight.toUInt32)

def CAddressUnspentValue.unserialize : CDataStream CAddressUnspentValue := do
  let satoshis ← CDataStream.readInt64
  let script ← CDataStream.readString
  let blockHeight ← readUInt32
  return ⟨satoshis, script, blockHeight.toInt32⟩

/-- What is left of the key in the database: the type in one byte, the index in four. -/
def CAddressUnspentKey.stored (key : CAddressUnspentKey) : CAddressUnspentKey :=
  { key with type := key.type.toUInt8.toUInt32, index := key.index.toUInt32.toUInt64 }

def CAddressIndexKey.stored (key : CAddressIndexKey) : CAddressIndexKey :=
  { key with type := key.type.toUInt8.toUInt32, index := key.index.toUInt32.toUInt64 }

theorem reads_unspentKey {key : CAddressUnspentKey} (h : key.asset.length ≤ CDataStream.MAX_SIZE) :
    Reads CAddressUnspentKey.unserialize key.serialize key.stored := by
  have hlast := (reads_uint32 key.index.toUInt32).thenPure fun index =>
    (⟨key.type.toUInt8.toUInt32, key.hashBytes, key.asset, key.txhash, index.toUInt64⟩ :
      CAddressUnspentKey)
  exact (reads_uint8 _).bind ((reads_uint160 _).bind ((reads_string h).bind
    ((reads_uint256 _).bind hlast)))

theorem reads_indexKey {key : CAddressIndexKey} (h : key.asset.length ≤ CDataStream.MAX_SIZE) :
    Reads CAddressIndexKey.unserialize key.serialize key.stored := by
  have hlast := (reads_uint8 (if key.spending then 1 else 0)).thenPure fun f =>
    (⟨key.type.toUInt8.toUInt32, key.hashBytes, key.asset, key.blockHeight.toUInt32.toInt32,
      key.txindex, key.txhash, key.index.toUInt32.toUInt64, f != 0⟩ : CAddressIndexKey)
  have hspending : ((if key.spending then (1 : UInt8) else 0) != 0) = key.spending := by
    cases key.spending <;> rfl
  rw [hspending] at hlast
  exact (reads_uint8 _).bind ((reads_uint160 _).bind ((reads_string h).bind
    ((reads_uint32BE _).bind ((reads_uint32BE _).bind ((reads_uint256 _).bind
      ((reads_uint32 _).bind hlast))))))

theorem reads_unspentValue {value : CAddressUnspentValue}
    (h : value.script.length ≤ CDataStream.MAX_SIZE) :
    Reads CAddressUnspentValue.unserialize value.serialize value := by
  have hlast := (reads_uint32 value.blockHeight.toUInt32).thenPure fun blockHeight =>
    (⟨value.satoshis, value.script, blockHeight.toInt32⟩ : CAddressUnspentValue)
  exact (reads_int64 _).bind ((reads_string h).bind hlast)

/-! ## The database -/

def DB_ADDRESSINDEX : UInt8 := 97

def DB_ADDRESSUNSPENTINDEX : UInt8 := 117

/-- `CBlockTreeDB`.  The other records of the database do not begin like those of the indexes. -/
structure CBlockTreeDB extends SortedTable UInt8 Bytes where
  addressIndex : ∀ r ∈ records, r.1.head? = some DB_ADDRESSINDEX →
    ∃ (key : CAddressIndexKey) (nValue : CAmount), key.asset.length ≤ CDataStream.MAX_SIZE ∧
      r = (DB_ADDRESSINDEX :: key.serialize, writeInt64 nValue)
  addressUnspent : ∀ r ∈ records, r.1.head? = some DB_ADDRESSUNSPENTINDEX →
    ∃ (key : CAddressUnspentKey) (value : CAddressUnspentValue),
      key.asset.length ≤ CDataStream.MAX_SIZE ∧ value.script.length ≤ CDataStream.MAX_SIZE ∧
      r = (DB_ADDRESSUNSPENTINDEX :: key.serialize, value.serialize)

def CBlockTreeDB.empty : CBlockTreeDB where
  records := []
  sorted := List.Pairwise.nil
  addressIndex := by simp
  addressUnspent := by simp

/-- `batch.Write` of `WriteAddressIndex`. -/
def CBlockTreeDB.writeAddressIndex (db : CBlockTreeDB) (key : CAddressIndexKey) (nValue : CAmount)
    (h : key.asset.length ≤ CDataStream.MAX_SIZE) : CBlockTreeDB where
  toSortedTable := db.put (DB_ADDRESSINDEX :: key.serialize) (writeInt64 nValue)
  addressIndex := by
    intro r hr hhead
    obtain rfl | hr := SortedTable.mem_insertRecord _ hr
    · exact ⟨key, nValue, h, rfl⟩
    · exact db.addressIndex r hr hhead
  addressUnspent := by
    intro r hr hhead
    obtain rfl | hr := SortedTable.mem_insertRecord _ hr
    · cases hhead
    · exact db.addressUnspent r hr hhead

/-- `batch.Write` of `UpdateAddressUnspentIndex`. -/
def CBlockTreeDB.writeAddressUnspent (db : CBlockTreeDB) (key : CAddressUnspentKey)
    (value : CAddressUnspentValue) (h : key.asset.length ≤ CDataStream.MAX_SIZE)
    (hscript : value.script.length ≤ CDataStream.MAX_SIZE) : CBlockTreeDB where
  toSortedTable := db.put (DB_ADDRESSUNSPENTINDEX :: key.serialize) value.serialize
  addressIndex := by
    intro r hr hhead
    obtain rfl | hr := SortedTable.mem_insertRecord _ hr
    · cases hhead
    · exact db.addressIndex r hr hhead
  addressUnspent := by
    intro r hr hhead
    obtain rfl | hr := SortedTable.mem_insertRecord _ hr
    · exact ⟨key, value, h, hscript, rfl⟩
    · exact db.addressUnspent r hr hhead

/-- `CDBIterator::GetKey` of a `std::pair<char, K>`. -/
def getKey {κ : Type} (unserialize : CDataStream κ) (key : Bytes) : Option (UInt8 × κ) :=
  CDataStream.read (do
    let first ← CDataStream.readUInt8
    let second ← unserialize
    return (first, second)) key

section Scan

variable {κ ν : Type}

/-- The loop of a query, over the records from the iterator on.  It goes on while the key is one of
the index and passes the test, and collects the entries to keep. -/
def scanIndex (prefixByte : UInt8) (unserializeKey : CDataStream κ)
    (unserializeValue : CDataStream ν) (found stop keep : κ → Bool) :
    List (Bytes × Bytes) → List (κ × ν) → Bool × List (κ × ν)
  | [], out => (true, out)
  | r :: rs, out =>
    match getKey unserializeKey r.1 with
    | some (first, key) =>
      if first = prefixByte ∧ found key = true then
        if stop key then (true, out)
        else
          match unserializeValue.read r.2 with
          | some value =>
            scanIndex prefixByte unserializeKey unserializeValue found stop keep rs
              (if keep key then out ++ [(key, value)] else out)
          | none => (false, out)
      else (true, out)
    | none => (true, out)

def decode (prefixByte : UInt8) (unserializeKey : CDataStream κ) (unserializeValue : CDataStream ν)
    (r : Bytes × Bytes) : Option (κ × ν) := do
  let (first, key) ← getKey unserializeKey r.1
  if first = prefixByte then do
    let value ← unserializeValue.read r.2
    return (key, value)
  else none

end Scan

variable (db : CBlockTreeDB) (addressHash : uint160) (type : Int32) (assetName : Bytes)
  (start «end» : Int32)

/-- `ReadAddressUnspentIndex`, of one asset, or of any when no name is given. -/
def readAddressUnspentIndex : Bool × List (CAddressUnspentKey × CAddressUnspentValue) :=
  scanIndex DB_ADDRESSUNSPENTINDEX CAddressUnspentKey.unserialize CAddressUnspentValue.unserialize
    (fun key => key.hashBytes == addressHash && (assetName.isEmpty || key.asset == assetName))
    (fun _ => false) (fun _ => true)
    (db.seek (DB_ADDRESSUNSPENTINDEX :: iteratorAssetKey type.toUInt32 addressHash assetName)) []

/-- `ReadAddressUnspentIndex`, of all assets but the coin itself. -/
def readAddressUnspentAssets : Bool × List (CAddressUnspentKey × CAddressUnspentValue) :=
  scanIndex DB_ADDRESSUNSPENTINDEX CAddressUnspentKey.unserialize CAddressUnspentValue.unserialize
    (fun key => key.hashBytes == addressHash) (fun _ => false)
    (fun key => key.asset != ascii "UNEMP")
    (db.seek (DB_ADDRESSUNSPENTINDEX :: iteratorKey type.toUInt32 addressHash)) []

/-- Where `ReadAddressIndex` begins. -/
def addressIndexSeek : Bytes :=
  if assetName ≠ [] ∧ 0 < start ∧ 0 < «end» then
    iteratorHeightKey type.toUInt32 addressHash assetName start
  else if assetName ≠ [] then iteratorAssetKey type.toUInt32 addressHash assetName
  else iteratorKey type.toUInt32 addressHash

def readAddressIndex : Bool × List (CAddressIndexKey × CAmount) :=
  scanIndex DB_ADDRESSINDEX CAddressIndexKey.unserialize CDataStream.readInt64
    (fun key => key.hashBytes == addressHash && (assetName.isEmpty || key.asset == assetName))
    (fun key => decide (0 < «end» ∧ «end» < key.blockHeight)) (fun _ => true)
    (db.seek (DB_ADDRESSINDEX :: addressIndexSeek addressHash type assetName start «end»)) []

/-! ## What a scan sees -/

section Scan

variable {κ ν : Type} {prefixByte : UInt8} {unserializeKey : CDataStream κ}
  {unserializeValue : CDataStream ν} {serialize : κ → Bytes} {rs : List (Bytes × Bytes)}
  {found stop keep : κ → Bool}

/-- The records of an index are readable, and their keys are those of the entries. -/
def IsIndex (prefixByte : UInt8) (unserializeKey : CDataStream κ) (unserializeValue : CDataStream ν)
    (serialize : κ → Bytes) (rs : List (Bytes × Bytes)) : Prop :=
  ∀ r ∈ rs, r.1.head? = some prefixByte → ∃ e : κ × ν,
    getKey unserializeKey r.1 = some (prefixByte, e.1) ∧ unserializeValue.read r.2 = some e.2 ∧
    r.1 = prefixByte :: serialize e.1

theorem head?_of_getKey {key : Bytes} {first : UInt8} {k : κ}
    (h : getKey unserializeKey key = some (first, k)) : key.head? = some first := by
  unfold getKey CDataStream.read at h
  obtain ⟨⟨p, rest⟩, hread, hp⟩ := Option.map_eq_some_iff.1 h
  obtain ⟨⟨b, t⟩, hfirst, hsecond⟩ := Option.bind_eq_some_iff.1 hread
  obtain ⟨⟨k', t'⟩, -, hpair⟩ := Option.bind_eq_some_iff.1 hsecond
  cases hpair
  cases hp
  cases key with
  | nil => cases hfirst
  | cons c key =>
    cases hfirst
    rfl

theorem decode_of_getKey {r : Bytes × Bytes} {e : κ × ν}
    (hkey : getKey unserializeKey r.1 = some (prefixByte, e.1))
    (hvalue : unserializeValue.read r.2 = some e.2) :
    decode prefixByte unserializeKey unserializeValue r = some e := by
  unfold decode
  rw [hkey]
  show (if prefixByte = prefixByte then _ else none) = some e
  rw [if_pos rfl, hvalue]
  rfl

theorem head?_of_decode {r : Bytes × Bytes} {e : κ × ν}
    (h : decode prefixByte unserializeKey unserializeValue r = some e) :
    r.1.head? = some prefixByte := by
  unfold decode at h
  obtain ⟨⟨first, k⟩, hkey, hrest⟩ := Option.bind_eq_some_iff.1 h
  dsimp only at hrest
  split at hrest
  · rename_i hfirst
    rw [← hfirst]
    exact head?_of_getKey hkey
  · cases hrest

theorem IsIndex.key_of_decode
    (h : IsIndex prefixByte unserializeKey unserializeValue serialize rs) {r : Bytes × Bytes}
    (hr : r ∈ rs) {e : κ × ν} (he : decode prefixByte unserializeKey unserializeValue r = some e) :
    r.1 = prefixByte :: serialize e.1 := by
  obtain ⟨e', hkey, hvalue, hser⟩ := h r hr (head?_of_decode he)
  have heq := (decode_of_getKey hkey hvalue).symm.trans he
  cases heq
  exact hser

/-- **A scan collects** the entries that pass the test, up to the first that does not. -/
theorem scanIndex_eq (h : IsIndex prefixByte unserializeKey unserializeValue serialize rs)
    (hmono : rs.Pairwise fun r r' => r'.1.head? = some prefixByte → r.1.head? = some prefixByte)
    (out : List (κ × ν)) :
    scanIndex prefixByte unserializeKey unserializeValue found stop keep rs out =
      (true, out ++ ((rs.filterMap (decode prefixByte unserializeKey unserializeValue)).takeWhile
        fun e => found e.1 && !stop e.1).filter fun e => keep e.1) := by
  induction rs generalizing out with
  | nil => simp [scanIndex]
  | cons r rs ih =>
    obtain ⟨hr, hrest⟩ := List.pairwise_cons.1 hmono
    unfold IsIndex at h
    obtain ⟨hhead, htail⟩ := List.forall_mem_cons.1 h
    by_cases hbyte : r.1.head? = some prefixByte
    · obtain ⟨⟨key, value⟩, hkey, hvalue, -⟩ := hhead hbyte
      rw [List.filterMap_cons_some (decode_of_getKey hkey hvalue)]
      unfold scanIndex
      rw [hkey]
      cases hfound : found key with
      | false => simp [hfound]
      | true =>
        cases hstop : stop key with
        | true => simp [hfound, hstop]
        | false =>
          simp only [hvalue, true_and, hfound, hstop, Bool.false_eq_true, if_true, if_false]
          rw [ih htail hrest, List.takeWhile_cons_of_pos (by simp [hfound, hstop])]
          cases hkeep : keep key with
          | true => simp [hkeep]
          | false => simp [hkeep]
    · -- Behind the index.
      have hnone :
          (r :: rs).filterMap (decode prefixByte unserializeKey unserializeValue) = [] := by
        rw [List.filterMap_eq_nil_iff]
        intro r' hr'
        by_contra hsome
        obtain ⟨e, he⟩ := Option.ne_none_iff_exists'.1 hsome
        obtain rfl | hr' := List.mem_cons.1 hr'
        · exact hbyte (head?_of_decode he)
        · exact hbyte (hr r' hr' (head?_of_decode he))
      rw [hnone]
      unfold scanIndex
      split
      · rename_i first key hkey
        rw [if_neg]
        · simp
        · rintro ⟨rfl, -⟩
          exact hbyte (head?_of_getKey hkey)
      · simp

end Scan

section Exact

variable {κ ν : Type} {prefixByte : UInt8} {unserializeKey : CDataStream κ}
  {unserializeValue : CDataStream ν} {serialize : κ → Bytes} {t : SortedTable UInt8 Bytes}
  {k p : Bytes} {found stop keep block wanted : κ → Bool}

def entries (prefixByte : UInt8) (unserializeKey : CDataStream κ) (unserializeValue : CDataStream ν)
    (t : SortedTable UInt8 Bytes) : List (κ × ν) :=
  t.records.filterMap (decode prefixByte unserializeKey unserializeValue)

theorem IsIndex.seek (h : IsIndex prefixByte unserializeKey unserializeValue serialize t.records) :
    (t.seek k).filterMap (decode prefixByte unserializeKey unserializeValue) =
      (entries prefixByte unserializeKey unserializeValue t).filter
        fun e => decide (k ≤ prefixByte :: serialize e.1) := by
  unfold IsIndex at h
  rw [SortedTable.seek_eq_filter]
  unfold entries
  rw [List.filterMap_filter, List.filter_filterMap]
  refine List.filterMap_congr fun r hr => ?_
  cases hdecode : decode prefixByte unserializeKey unserializeValue r with
  | none => simp
  | some e =>
    have hkey := IsIndex.key_of_decode h hr hdecode
    simp [Option.filter, hkey]

theorem IsIndex.sorted
    (h : IsIndex prefixByte unserializeKey unserializeValue serialize t.records) :
    (entries prefixByte unserializeKey unserializeValue t).Pairwise
      fun e e' => prefixByte :: serialize e.1 < prefixByte :: serialize e'.1 := by
  unfold entries
  rw [List.pairwise_filterMap]
  refine t.sorted.imp_of_mem fun {r r'} hr hr' hlt e he e' he' => ?_
  rw [← h.key_of_decode hr he, ← h.key_of_decode hr' he']
  exact hlt

/-- The entries that a query is about stand at the front of what the scan sees. -/
def IsFront (E : List (κ × ν)) (keyBytes : κ → Bytes) (k : Bytes) (block : κ → Bool) : Prop :=
  (∀ e ∈ E, block e.1 = true → k ≤ keyBytes e.1) ∧
  ∀ e ∈ E, ∀ e' ∈ E, k ≤ keyBytes e.1 → keyBytes e.1 < keyBytes e'.1 → block e'.1 = true →
    block e.1 = true

theorem isFront_of_isPrefix {E : List (κ × ν)} {keyBytes : κ → Bytes} (hpk : p ≤ k)
    (hblock : ∀ e ∈ E, block e.1 = true ↔ p <+: keyBytes e.1 ∧ k ≤ keyBytes e.1) :
    IsFront E keyBytes k block := by
  refine ⟨fun e he hb => ((hblock e he).1 hb).2, fun e he e' he' hle hlt hb => ?_⟩
  have hbegins := SortedTable.isPrefix_of_between (Std.le_trans hpk hle) (Std.le_of_lt hlt)
    ((hblock e' he').1 hb).1
  exact (hblock e he).2 ⟨hbegins, hle⟩

/-- **When a query is exact.** -/
theorem scanIndex_eq_iff
    (h : IsIndex prefixByte unserializeKey unserializeValue serialize t.records)
    (hfront : IsFront (entries prefixByte unserializeKey unserializeValue t)
      (fun key => prefixByte :: serialize key) (prefixByte :: k) block)
    (hwanted : ∀ key, wanted key = true → block key = true ∧ keep key = true) :
    scanIndex prefixByte unserializeKey unserializeValue found stop keep
        (t.seek (prefixByte :: k)) [] =
      (true, (entries prefixByte unserializeKey unserializeValue t).filter fun e => wanted e.1) ↔
      (∀ e ∈ ((entries prefixByte unserializeKey unserializeValue t).filter
          fun e => block e.1).takeWhile (fun e => found e.1 && !stop e.1),
        keep e.1 = true → wanted e.1 = true) ∧
      (∀ e ∈ ((entries prefixByte unserializeKey unserializeValue t).filter
          fun e => block e.1).dropWhile (fun e => found e.1 && !stop e.1), wanted e.1 = false) ∧
      ((∀ e ∈ (entries prefixByte unserializeKey unserializeValue t).filter fun e => block e.1,
          (found e.1 && !stop e.1) = true) →
        ∀ e ∈ ((entries prefixByte unserializeKey unserializeValue t).filter fun e =>
            decide (prefixByte :: k ≤ prefixByte :: serialize e.1) && !block e.1).takeWhile
          (fun e => found e.1 && !stop e.1), keep e.1 = false) := by
  have hseek := h.seek (k := prefixByte :: k)
  have hrecords : IsIndex prefixByte unserializeKey unserializeValue serialize
      (t.seek (prefixByte :: k)) := by
    intro r hr
    exact h r (List.dropWhile_suffix _ |>.subset hr)
  have hmono : (t.seek (prefixByte :: k)).Pairwise
      fun r r' => r'.1.head? = some prefixByte → r.1.head? = some prefixByte := by
    rw [SortedTable.seek_eq_filter]
    refine (t.sorted.filter _).imp_of_mem fun {r r'} hr hr' hlt hhead => ?_
    have hle : prefixByte :: k ≤ r.1 := of_decide_eq_true (List.mem_filter.1 hr).2
    have hone : [prefixByte] ≤ prefixByte :: k := List.IsPrefix.le (by simp)
    have hbegins : [prefixByte] <+: r'.1 := by
      obtain ⟨t', ht'⟩ := List.head?_eq_some_iff.1 hhead
      exact ⟨t', ht'.symm⟩
    obtain ⟨t', ht'⟩ :=
      SortedTable.isPrefix_of_between (Std.le_trans hone hle) (Std.le_of_lt hlt) hbegins
    rw [← ht']
    rfl
  rw [scanIndex_eq hrecords hmono, List.nil_append, hseek]
  set E := entries prefixByte unserializeKey unserializeValue t with hE
  -- What is in the block is seen by the scan.
  have hself : (E.filter fun e => decide (prefixByte :: k ≤ prefixByte :: serialize e.1)).filter
      (fun e => block e.1) = E.filter fun e => block e.1 := by
    rw [List.filter_filter]
    refine List.filter_congr fun e he => ?_
    cases hb : block e.1 with
    | false => rfl
    | true => simp [hfront.1 e he hb]
  have hasked : (E.filter fun e => decide (prefixByte :: k ≤ prefixByte :: serialize e.1)).filter
      (fun e => wanted e.1) = E.filter fun e => wanted e.1 := by
    rw [List.filter_filter]
    refine List.filter_congr fun e he => ?_
    cases hw : wanted e.1 with
    | false => rfl
    | true => simp [hfront.1 e he (hwanted e.1 hw).1]
  have hpairs : (E.filter fun e => decide (prefixByte :: k ≤ prefixByte :: serialize e.1)).Pairwise
      fun e e' => block e'.1 = true → block e.1 = true := by
    refine (h.sorted.filter _).imp_of_mem fun {e e'} he he' hlt hb => ?_
    obtain ⟨hmem, hseen⟩ := List.mem_filter.1 he
    exact hfront.2 e hmem e' (List.mem_filter.1 he').1 (of_decide_eq_true hseen) hlt hb
  have hexact := @SortedTable.scan_eq_filter_iff _ _ _ (fun e => found e.1 && !stop e.1)
    (fun e => keep e.1) _ hpairs fun e _ => hwanted e.1
  rw [hself, hasked, List.filter_filter] at hexact
  rw [Prod.mk_right_inj, hexact]
  simp only [Bool.and_comm]

theorem scanIndex_eq_iff_of_not_stop
    (h : IsIndex prefixByte unserializeKey unserializeValue serialize t.records)
    (hfront : IsFront (entries prefixByte unserializeKey unserializeValue t)
      (fun key => prefixByte :: serialize key) (prefixByte :: k) block)
    (hwanted : ∀ key, wanted key = (block key && keep key))
    (hfound : ∀ key, block key = true → found key = true) :
    scanIndex prefixByte unserializeKey unserializeValue found (fun _ => false) keep
        (t.seek (prefixByte :: k)) [] =
      (true, (entries prefixByte unserializeKey unserializeValue t).filter fun e => wanted e.1) ↔
      ∀ e ∈ ((entries prefixByte unserializeKey unserializeValue t).filter fun e =>
          decide (prefixByte :: k ≤ prefixByte :: serialize e.1) && !block e.1).takeWhile
        (fun e => found e.1), keep e.1 = false := by
  have hblock : ∀ e ∈ (entries prefixByte unserializeKey unserializeValue t).filter
      fun e => block e.1, found e.1 = true :=
    fun e he => hfound e.1 (List.mem_filter.1 he).2
  rw [scanIndex_eq_iff h hfront fun key hw => by simpa [hwanted key] using hw]
  simp only [Bool.not_false, Bool.and_true]
  rw [List.takeWhile_eq_self_iff.2 hblock, List.dropWhile_eq_nil_iff.2 hblock]
  constructor
  · rintro ⟨-, -, hbehind⟩
    exact hbehind hblock
  · intro hbehind
    refine ⟨fun e he hkeep => ?_, by simp, fun _ => hbehind⟩
    rw [hwanted, (List.mem_filter.1 he).2, hkeep]
    rfl

end Exact

/-! ## The order of the keys -/

theorem writeCompactSize_prefix {m n : ℕ} (hn : n ≤ CDataStream.MAX_SIZE) {s t : Bytes}
    (h : writeCompactSize m ++ s = writeCompactSize n ++ t) : m = n := by
  by_cases hm : m ≤ CDataStream.MAX_SIZE
  · have hread := reads_compactSize hm s
    rw [h, reads_compactSize hn t] at hread
    cases hread
    rfl
  · -- A length above the limit takes at least five bytes, and the first tells how many.
    have hlimit : 0xffff < CDataStream.MAX_SIZE ∧ CDataStream.MAX_SIZE < 0xffffffff := by decide
    unfold writeCompactSize at h
    rw [if_neg (by omega), if_neg (by omega)] at h
    split at h
    · rename_i hfour
      split at h
      · rename_i hsmall
        have hbyte := congrArg UInt8.toNat (List.cons.inj h).1
        rw [toNat_ofNat_of_lt (by omega)] at hbyte
        exact absurd hbyte (by show (254 : ℕ) ≠ n; omega)
      · split at h
        · cases h
        · rw [if_pos (by omega)] at h
          obtain ⟨hbytes, -⟩ := List.append_inj (List.cons.inj h).2 (by simp)
          have hread := congrArg readLE hbytes
          rwa [readLE_writeLE_of_lt (by omega), readLE_writeLE_of_lt (by omega)] at hread
    · split at h
      · rename_i hsmall
        have hbyte := congrArg UInt8.toNat (List.cons.inj h).1
        rw [toNat_ofNat_of_lt (by omega)] at hbyte
        exact absurd hbyte (by show (255 : ℕ) ≠ n; omega)
      · split at h
        · cases h
        · rw [if_pos (by omega)] at h
          cases h

theorem writeString_isPrefix {asset asset' rest : Bytes}
    (h : asset'.length ≤ CDataStream.MAX_SIZE) :
    writeString asset <+: writeString asset' ++ rest ↔ asset = asset' := by
  unfold writeString
  constructor
  · rintro ⟨t, ht⟩
    rw [List.append_assoc, List.append_assoc] at ht
    have hlen := writeCompactSize_prefix h ht
    rw [hlen] at ht
    exact (List.append_inj (List.append_cancel_left ht) hlen).1
  · rintro rfl
    exact List.prefix_append _ _

theorem iteratorKey_isPrefix {type type' : UInt32} {hash hash' : uint160} {rest : Bytes} :
    iteratorKey type hash <+: [type'.toUInt8] ++ (writeUInt160 hash' ++ rest) ↔
      type'.toUInt8 = type.toUInt8 ∧ hash' = hash := by
  have hlen : (writeUInt160 hash).length = (writeUInt160 hash').length := by
    unfold writeUInt160
    rw [length_writeLE, length_writeLE]
  have hbyte : [type.toUInt8].length = [type'.toUInt8].length := rfl
  have hnil := SortedTable.append_isPrefix_append_iff (x := []) (y := rest) hlen
  rw [List.append_nil] at hnil
  unfold iteratorKey
  rw [SortedTable.append_isPrefix_append_iff hbyte, hnil]
  constructor
  · rintro ⟨htype, hhash, -⟩
    exact ⟨(List.cons.inj htype).1.symm, (writeUInt160_inj hhash).symm⟩
  · rintro ⟨htype, rfl⟩
    exact ⟨by rw [htype], rfl, List.nil_prefix⟩

theorem iteratorAssetKey_isPrefix {type type' : UInt32} {hash hash' : uint160}
    {asset asset' rest : Bytes} (h : asset'.length ≤ CDataStream.MAX_SIZE) :
    iteratorAssetKey type hash asset <+:
      [type'.toUInt8] ++ (writeUInt160 hash' ++ (writeString asset' ++ rest)) ↔
      type'.toUInt8 = type.toUInt8 ∧ hash' = hash ∧ asset' = asset := by
  have hlen : (writeUInt160 hash).length = (writeUInt160 hash').length := by
    unfold writeUInt160
    rw [length_writeLE, length_writeLE]
  have hbyte : [type.toUInt8].length = [type'.toUInt8].length := rfl
  unfold iteratorAssetKey iteratorKey
  rw [List.append_assoc, SortedTable.append_isPrefix_append_iff hbyte,
    SortedTable.append_isPrefix_append_iff hlen, writeString_isPrefix h]
  constructor
  · rintro ⟨htype, hhash, rfl⟩
    exact ⟨(List.cons.inj htype).1.symm, (writeUInt160_inj hhash).symm, rfl⟩
  · rintro ⟨htype, rfl, rfl⟩
    exact ⟨by rw [htype], rfl, rfl⟩

theorem reverse_writeLE_lt {n a b : ℕ} (hb : b < 256 ^ n) (h : a < b) :
    (writeLE n a).reverse < (writeLE n b).reverse := by
  induction n generalizing a b with
  | zero => omega
  | succ n ih =>
    rw [Nat.pow_succ] at hb
    rw [writeLE, writeLE, List.reverse_cons, List.reverse_cons]
    by_cases hhigh : a / 256 = b / 256
    · rw [hhigh]
      refine List.append_left_lt (List.cons_lt_cons_iff.2 (Or.inl ?_))
      rw [UInt8.lt_iff_toNat_lt, toNat_ofNat_of_lt (by omega), toNat_ofNat_of_lt (by omega)]
      omega
    · refine SortedTable.append_lt_append ?_ (ih (by omega) (by omega)) _ _
      rw [List.length_reverse, List.length_reverse, length_writeLE, length_writeLE]

theorem writeUInt32BE_le {v w : UInt32} : writeUInt32BE v ≤ writeUInt32BE w ↔ v ≤ w := by
  have hlt : ∀ {v w : UInt32}, v < w → writeUInt32BE v < writeUInt32BE w :=
    fun {v w} h => reverse_writeLE_lt w.toNat_lt (UInt32.lt_iff_toNat_lt.1 h)
  constructor
  · intro h
    by_contra hle
    exact h (hlt (UInt32.not_le.1 hle))
  · intro h
    obtain rfl | hne := eq_or_ne v w
    · exact List.le_refl _
    · exact Std.le_of_lt (hlt (UInt32.lt_of_le_of_ne h hne))

theorem iteratorHeightKey_le {key : CAddressIndexKey} {type : UInt32} {start : Int32}
    (htype : key.type.toUInt8 = type.toUInt8) :
    DB_ADDRESSINDEX :: iteratorHeightKey type key.hashBytes key.asset start ≤
      DB_ADDRESSINDEX :: key.serialize ↔ start.toUInt32 ≤ key.blockHeight.toUInt32 := by
  have hlen : (writeUInt32BE start.toUInt32).length =
      (writeUInt32BE key.blockHeight.toUInt32).length := by
    unfold writeUInt32BE
    rw [List.length_reverse, List.length_reverse, length_writeLE, length_writeLE]
  unfold iteratorHeightKey iteratorAssetKey iteratorKey CAddressIndexKey.serialize
  rw [List.cons_le_cons_iff, htype, List.append_assoc, List.append_assoc,
    SortedTable.append_le_append_iff, SortedTable.append_le_append_iff,
    SortedTable.append_le_append_iff, SortedTable.le_append_iff hlen, writeUInt32BE_le]
  simp

/-! ## Both indexes -/

theorem CAddressIndexKey.serialize_stored (key : CAddressIndexKey) :
    key.stored.serialize = key.serialize := by
  have htype : key.type.toUInt8.toUInt32.toUInt8 = key.type.toUInt8 := UInt8.toUInt8_toUInt32 _
  have hindex : key.index.toUInt32.toUInt64.toUInt32 = key.index.toUInt32 :=
    UInt32.toUInt32_toUInt64 _
  unfold CAddressIndexKey.serialize CAddressIndexKey.stored
  rw [htype, hindex]

theorem CAddressUnspentKey.serialize_stored (key : CAddressUnspentKey) :
    key.stored.serialize = key.serialize := by
  have htype : key.type.toUInt8.toUInt32.toUInt8 = key.type.toUInt8 := UInt8.toUInt8_toUInt32 _
  have hindex : key.index.toUInt32.toUInt64.toUInt32 = key.index.toUInt32 :=
    UInt32.toUInt32_toUInt64 _
  unfold CAddressUnspentKey.serialize CAddressUnspentKey.stored
  rw [htype, hindex]

theorem getKey_of_reads {κ : Type} {unserialize : CDataStream κ} {first : UInt8} {s : Bytes} {k : κ}
    (h : Reads unserialize s k) : getKey unserialize (first :: s) = some (first, k) := by
  have hpair : Reads (do
      let first ← CDataStream.readUInt8
      let second ← unserialize
      return (first, second)) ([first] ++ s) (first, k) :=
    (reads_uint8 first).bind (h.thenPure fun second => (first, second))
  have hread := hpair.read []
  rw [List.append_nil] at hread
  exact hread

theorem isIndex_addressIndex (db : CBlockTreeDB) :
    IsIndex DB_ADDRESSINDEX CAddressIndexKey.unserialize CDataStream.readInt64
      CAddressIndexKey.serialize db.records := by
  intro r hr hhead
  obtain ⟨key, nValue, hasset, rfl⟩ := db.addressIndex r hr hhead
  refine ⟨(key.stored, nValue), getKey_of_reads (reads_indexKey hasset), ?_, ?_⟩
  · have hread := (reads_int64 nValue).read []
    rw [List.append_nil] at hread
    exact hread
  · rw [key.serialize_stored]

theorem isIndex_addressUnspent (db : CBlockTreeDB) :
    IsIndex DB_ADDRESSUNSPENTINDEX CAddressUnspentKey.unserialize CAddressUnspentValue.unserialize
      CAddressUnspentKey.serialize db.records := by
  intro r hr hhead
  obtain ⟨key, value, hasset, hscript, rfl⟩ := db.addressUnspent r hr hhead
  refine ⟨(key.stored, value), getKey_of_reads (reads_unspentKey hasset), ?_, ?_⟩
  · have hread := (reads_unspentValue hscript).read []
    rw [List.append_nil] at hread
    exact hread
  · rw [key.serialize_stored]

def addressIndexEntries (db : CBlockTreeDB) : List (CAddressIndexKey × CAmount) :=
  entries DB_ADDRESSINDEX CAddressIndexKey.unserialize CDataStream.readInt64 db.toSortedTable

def addressUnspentEntries (db : CBlockTreeDB) : List (CAddressUnspentKey × CAddressUnspentValue) :=
  entries DB_ADDRESSUNSPENTINDEX CAddressUnspentKey.unserialize CAddressUnspentValue.unserialize
    db.toSortedTable

theorem mem_addressIndexEntries {db : CBlockTreeDB} {e : CAddressIndexKey × CAmount}
    (h : e ∈ addressIndexEntries db) :
    ∃ key : CAddressIndexKey, key.asset.length ≤ CDataStream.MAX_SIZE ∧ e.1 = key.stored := by
  obtain ⟨r, hr, hdecode⟩ := List.mem_filterMap.1 h
  obtain ⟨key, nValue, hasset, rfl⟩ := db.addressIndex r hr (head?_of_decode hdecode)
  have hread := (reads_int64 nValue).read []
  rw [List.append_nil] at hread
  have hwritten : decode DB_ADDRESSINDEX CAddressIndexKey.unserialize CDataStream.readInt64
      (DB_ADDRESSINDEX :: key.serialize, writeInt64 nValue) = some (key.stored, nValue) :=
    decode_of_getKey (getKey_of_reads (reads_indexKey hasset)) hread
  rw [hwritten] at hdecode
  cases hdecode
  exact ⟨key, hasset, rfl⟩

theorem mem_addressUnspentEntries {db : CBlockTreeDB}
    {e : CAddressUnspentKey × CAddressUnspentValue} (h : e ∈ addressUnspentEntries db) :
    ∃ key : CAddressUnspentKey, key.asset.length ≤ CDataStream.MAX_SIZE ∧ e.1 = key.stored := by
  obtain ⟨r, hr, hdecode⟩ := List.mem_filterMap.1 h
  obtain ⟨key, value, hasset, hscript, rfl⟩ := db.addressUnspent r hr (head?_of_decode hdecode)
  have hread := (reads_unspentValue hscript).read []
  rw [List.append_nil] at hread
  have hwritten : decode DB_ADDRESSUNSPENTINDEX CAddressUnspentKey.unserialize
      CAddressUnspentValue.unserialize (DB_ADDRESSUNSPENTINDEX :: key.serialize, value.serialize) =
        some (key.stored, value) :=
    decode_of_getKey (getKey_of_reads (reads_unspentKey hasset)) hread
  rw [hwritten] at hdecode
  cases hdecode
  exact ⟨key, hasset, rfl⟩

end AddressIndex

end UnemployCoin
