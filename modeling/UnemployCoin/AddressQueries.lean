import UnemployCoin.AddressIndex
/-!
# When a query of an address index is exact

The entries that a query is about are consecutive in the database, but for those of several assets
that lie in a range of heights.  `addressQueries_exact` says when the scan finds them.
-/

namespace UnemployCoin

namespace AddressIndex

section Queries

variable (db : CBlockTreeDB) (addressHash : uint160) (type : Int32) (assetName : Bytes)
  (start «end» : Int32)

/-- What is asked of the address index: the heights count when both ends are positive. -/
def indexAsked (key : CAddressIndexKey) : Bool :=
  decide (key.type = type.toUInt32 ∧ key.hashBytes = addressHash ∧
    (assetName = [] ∨ key.asset = assetName) ∧
    (0 < start → 0 < «end» → start ≤ key.blockHeight ∧ key.blockHeight ≤ «end»))

def isAbove (key : CAddressIndexKey) : Bool := decide (0 < «end» ∧ «end» < key.blockHeight)

def isFound (hashBytes : uint160) (asset : Bytes) : Bool :=
  hashBytes == addressHash && (assetName.isEmpty || asset == assetName)

def inIndexBlock (key : CAddressIndexKey) : Bool :=
  decide (key.type = type.toUInt32 ∧ key.hashBytes = addressHash ∧
    (assetName = [] ∨ key.asset = assetName) ∧
    (assetName ≠ [] → 0 < start → 0 < «end» → start.toUInt32 ≤ key.blockHeight.toUInt32))

def addressIndexBlock : List (CAddressIndexKey × CAmount) :=
  (addressIndexEntries db).filter fun e => inIndexBlock addressHash type assetName start «end» e.1

def addressIndexBehind : List (CAddressIndexKey × CAmount) :=
  (addressIndexEntries db).filter fun e =>
    decide (DB_ADDRESSINDEX :: addressIndexSeek addressHash type assetName start «end» ≤
      DB_ADDRESSINDEX :: e.1.serialize) && !inIndexBlock addressHash type assetName start «end» e.1

/-- **When `ReadAddressIndex` is exact.** -/
structure AddressIndexExact : Prop where
  /-- Up to the first height above the range, none is below it. -/
  noneBelow : 0 < start → 0 < «end» →
    ∀ e ∈ (addressIndexBlock db addressHash type assetName start «end»).takeWhile
      (fun e => !isAbove «end» e.1), start ≤ e.1.blockHeight
  noneLeft : ∀ e ∈ (addressIndexBlock db addressHash type assetName start «end»).dropWhile
      (fun e => !isAbove «end» e.1),
    0 < start ∧ 0 < «end» ∧ ¬ (start ≤ e.1.blockHeight ∧ e.1.blockHeight ≤ «end»)
  /-- If there is no such height, the next entry is of another hash or another asset. -/
  noneBehind : (∀ e ∈ addressIndexBlock db addressHash type assetName start «end»,
      isAbove «end» e.1 = false) →
    ∀ e, (addressIndexBehind db addressHash type assetName start «end»).head? = some e →
      isFound addressHash assetName e.1.hashBytes e.1.asset = true → isAbove «end» e.1 = true

def unspentAsked (key : CAddressUnspentKey) : Bool :=
  decide (key.type = type.toUInt32 ∧ key.hashBytes = addressHash ∧
    (assetName = [] ∨ key.asset = assetName))

def addressUnspentBehind : List (CAddressUnspentKey × CAddressUnspentValue) :=
  (addressUnspentEntries db).filter fun e =>
    decide (DB_ADDRESSUNSPENTINDEX :: iteratorAssetKey type.toUInt32 addressHash assetName ≤
      DB_ADDRESSUNSPENTINDEX :: e.1.serialize) && !unspentAsked addressHash type assetName e.1

end Queries

variable {db : CBlockTreeDB} {addressHash : uint160} {type : Int32} {assetName : Bytes}
  {start «end» : Int32}

/-! ## The block of a query -/

def addressPrefix (addressHash : uint160) (type : Int32) (assetName : Bytes) : Bytes :=
  if assetName ≠ [] then iteratorAssetKey type.toUInt32 addressHash assetName
  else iteratorKey type.toUInt32 addressHash

theorem type_eq_iff {t t' : UInt32} (h : t.toUInt8.toUInt32 = t) (h' : t'.toUInt8.toUInt32 = t') :
    t.toUInt8 = t'.toUInt8 ↔ t = t' := by
  constructor
  · intro hbyte
    rw [← h, hbyte, h']
  · intro heq
    rw [heq]

theorem addressPrefix_isPrefix {t : UInt32} {hash : uint160} {asset rest : Bytes}
    (htype : type.toUInt32.toUInt8.toUInt32 = type.toUInt32) (ht : t.toUInt8.toUInt32 = t)
    (hasset : asset.length ≤ CDataStream.MAX_SIZE) :
    addressPrefix addressHash type assetName <+:
        [t.toUInt8] ++ (writeUInt160 hash ++ (writeString asset ++ rest)) ↔
      t = type.toUInt32 ∧ hash = addressHash ∧ (assetName = [] ∨ asset = assetName) := by
  unfold addressPrefix
  by_cases hname : assetName = []
  · rw [if_neg (by simpa using hname), iteratorKey_isPrefix, type_eq_iff ht htype]
    simp [hname]
  · rw [if_pos hname, iteratorAssetKey_isPrefix hasset, type_eq_iff ht htype]
    simp [hname]

theorem addressIndexSeek_le {key : CAddressIndexKey}
    (h : addressPrefix addressHash type assetName <+: key.serialize)
    (hasset : key.asset.length ≤ CDataStream.MAX_SIZE) :
    DB_ADDRESSINDEX :: addressIndexSeek addressHash type assetName start «end» ≤
        DB_ADDRESSINDEX :: key.serialize ↔
      (assetName ≠ [] → 0 < start → 0 < «end» →
        start.toUInt32 ≤ key.blockHeight.toUInt32) := by
  have hle : DB_ADDRESSINDEX :: addressPrefix addressHash type assetName ≤
      DB_ADDRESSINDEX :: key.serialize := List.IsPrefix.le (List.cons_prefix_cons.2 ⟨rfl, h⟩)
  unfold addressIndexSeek
  split
  · rename_i hheight
    obtain ⟨hname, hstart, hend⟩ := hheight
    unfold addressPrefix CAddressIndexKey.serialize at h
    rw [if_pos hname, iteratorAssetKey_isPrefix hasset] at h
    obtain ⟨htype, rfl, rfl⟩ := h
    rw [iteratorHeightKey_le htype]
    exact ⟨fun hstart' _ _ _ => hstart', fun hall => hall hname hstart hend⟩
  · rename_i hheight
    exact ⟨fun _ hname hstart hend => absurd ⟨hname, hstart, hend⟩ hheight, fun _ => hle⟩

theorem inIndexBlock_iff {key : CAddressIndexKey}
    (htype : type.toUInt32.toUInt8.toUInt32 = type.toUInt32)
    (hkey : key.type.toUInt8.toUInt32 = key.type)
    (hasset : key.asset.length ≤ CDataStream.MAX_SIZE) :
    inIndexBlock addressHash type assetName start «end» key = true ↔
      DB_ADDRESSINDEX :: addressPrefix addressHash type assetName <+:
        DB_ADDRESSINDEX :: key.serialize ∧
      DB_ADDRESSINDEX :: addressIndexSeek addressHash type assetName start «end» ≤
        DB_ADDRESSINDEX :: key.serialize := by
  have hbegins : addressPrefix addressHash type assetName <+: key.serialize ↔ _ :=
    addressPrefix_isPrefix htype hkey hasset
  unfold inIndexBlock
  rw [decide_eq_true_iff, List.cons_prefix_cons]
  constructor
  · rintro ⟨h₁, h₂, h₃, h₄⟩
    have h := hbegins.2 ⟨h₁, h₂, h₃⟩
    exact ⟨⟨rfl, h⟩, (addressIndexSeek_le h hasset).2 h₄⟩
  · rintro ⟨⟨-, h⟩, hle⟩
    obtain ⟨h₁, h₂, h₃⟩ := hbegins.1 h
    exact ⟨h₁, h₂, h₃, (addressIndexSeek_le h hasset).1 hle⟩

theorem addressPrefix_le :
    DB_ADDRESSINDEX :: addressPrefix addressHash type assetName ≤
      DB_ADDRESSINDEX :: addressIndexSeek addressHash type assetName start «end» := by
  refine List.IsPrefix.le (List.cons_prefix_cons.2 ⟨rfl, ?_⟩)
  unfold addressPrefix addressIndexSeek
  by_cases hname : assetName = []
  · simp [hname]
  · simp only [if_pos hname]
    split
    · exact List.prefix_append _ _
    · exact List.prefix_rfl

/-- **The entries of the block are consecutive**; of a type that is no byte there are none. -/
theorem isFront_addressIndex :
    IsFront (addressIndexEntries db) (fun key => DB_ADDRESSINDEX :: key.serialize)
      (DB_ADDRESSINDEX :: addressIndexSeek addressHash type assetName start «end»)
      (inIndexBlock addressHash type assetName start «end») := by
  have hstored : ∀ e ∈ addressIndexEntries db, e.1.type.toUInt8.toUInt32 = e.1.type ∧
      e.1.asset.length ≤ CDataStream.MAX_SIZE := by
    intro e he
    obtain ⟨key, hasset, hkey⟩ := mem_addressIndexEntries he
    rw [hkey]
    exact ⟨congrArg UInt8.toUInt32 (UInt8.toUInt8_toUInt32 _), hasset⟩
  by_cases htype : type.toUInt32.toUInt8.toUInt32 = type.toUInt32
  · refine isFront_of_isPrefix addressPrefix_le fun e he => ?_
    exact inIndexBlock_iff htype (hstored e he).1 (hstored e he).2
  · have hnone : ∀ e ∈ addressIndexEntries db,
        ¬ inIndexBlock addressHash type assetName start «end» e.1 = true := by
      intro e he hblock
      obtain ⟨heq, -⟩ := of_decide_eq_true hblock
      exact htype (heq ▸ (hstored e he).1)
    exact ⟨fun e he h => absurd h (hnone e he), fun e _ e' he' _ _ h => absurd h (hnone e' he')⟩

theorem toUInt32_le_toUInt32 {a b : Int32} (ha : 0 < a) (h : a ≤ b) : a.toUInt32 ≤ b.toUInt32 := by
  rw [Int32.le_iff_toInt_le] at h
  rw [Int32.lt_iff_toInt_lt] at ha
  rw [UInt32.le_iff_toNat_le]
  have haint : a.toInt = (BitVec.toInt a.toBitVec) := rfl
  have hbint : b.toInt = (BitVec.toInt b.toBitVec) := rfl
  have hzero : (0 : Int32).toInt = 0 := rfl
  rw [BitVec.toInt_eq_toNat_cond] at haint hbint
  have han : a.toUInt32.toNat = a.toBitVec.toNat := rfl
  have hbn : b.toUInt32.toNat = b.toBitVec.toNat := rfl
  rw [han, hbn]
  have hblt := b.toBitVec.isLt
  split at haint <;> split at hbint <;> omega

theorem indexAsked_iff {key : CAddressIndexKey}
    (h : inIndexBlock addressHash type assetName start «end» key = true) :
    indexAsked addressHash type assetName start «end» key = true ↔
      (0 < start → 0 < «end» → start ≤ key.blockHeight ∧ key.blockHeight ≤ «end») := by
  obtain ⟨htype, hhash, hasset, -⟩ := of_decide_eq_true h
  unfold indexAsked
  rw [decide_eq_true_iff]
  exact ⟨fun hasked => hasked.2.2.2, fun hrange => ⟨htype, hhash, hasset, hrange⟩⟩

theorem inIndexBlock_of_asked {key : CAddressIndexKey}
    (h : indexAsked addressHash type assetName start «end» key = true) :
    inIndexBlock addressHash type assetName start «end» key = true := by
  obtain ⟨htype, hhash, hasset, hrange⟩ := of_decide_eq_true h
  refine decide_eq_true ⟨htype, hhash, hasset, fun _ hstart hend => ?_⟩
  exact toUInt32_le_toUInt32 hstart (hrange hstart hend).1

/-- **`ReadAddressIndex` is exact** under the condition, and under no other. -/
theorem readAddressIndex_eq_iff :
    readAddressIndex db addressHash type assetName start «end» =
      (true, (addressIndexEntries db).filter fun e =>
        indexAsked addressHash type assetName start «end» e.1) ↔
      AddressIndexExact db addressHash type assetName start «end» := by
  unfold readAddressIndex addressIndexEntries
  rw [scanIndex_eq_iff (isIndex_addressIndex db) isFront_addressIndex
    fun key h => ⟨inIndexBlock_of_asked h, rfl⟩]
  -- In the block, the scan ends at a height above the range only.
  have hgo : ∀ e ∈ addressIndexBlock db addressHash type assetName start «end»,
      ((e.1.hashBytes == addressHash && (assetName.isEmpty || e.1.asset == assetName)) &&
        !decide (0 < «end» ∧ «end» < e.1.blockHeight)) = !isAbove «end» e.1 := by
    intro e he
    obtain ⟨-, hhash, hasset, -⟩ := of_decide_eq_true (List.mem_filter.1 he).2
    have hfound : (e.1.hashBytes == addressHash &&
        (assetName.isEmpty || e.1.asset == assetName)) = true := by
      simpa [hhash] using hasset
    rw [hfound, Bool.true_and]
    rfl
  have hmem : ∀ e ∈ addressIndexBlock db addressHash type assetName start «end»,
      inIndexBlock addressHash type assetName start «end» e.1 = true :=
    fun e he => (List.mem_filter.1 he).2
  obtain ⟨htake, hdrop⟩ := SortedTable.takeWhile_congr hgo
  have hall : (∀ e ∈ addressIndexBlock db addressHash type assetName start «end»,
      ((e.1.hashBytes == addressHash && (assetName.isEmpty || e.1.asset == assetName)) &&
        !decide (0 < «end» ∧ «end» < e.1.blockHeight)) = true) ↔
      ∀ e ∈ addressIndexBlock db addressHash type assetName start «end»,
        isAbove «end» e.1 = false := by
    refine forall₂_congr fun e he => ?_
    rw [hgo e he, Bool.not_eq_true']
  have hblock : (entries DB_ADDRESSINDEX CAddressIndexKey.unserialize CDataStream.readInt64
      db.toSortedTable).filter (fun e => inIndexBlock addressHash type assetName start «end» e.1) =
    addressIndexBlock db addressHash type assetName start «end» := rfl
  rw [hblock, htake, hdrop, hall]
  constructor
  · rintro ⟨htaken, hleft, hbehind⟩
    refine ⟨fun hstart hend e he => ?_, fun e he => ?_, fun hnone e he hfound => ?_⟩
    · have hin := hmem e ((List.takeWhile_prefix _).subset he)
      exact ((indexAsked_iff hin).1 (htaken e he rfl) hstart hend).1
    · have hin := hmem e ((List.dropWhile_suffix _).subset he)
      have hnot := (indexAsked_iff hin).not.1 (by simp [hleft e he])
      rw [Classical.not_imp, Classical.not_imp] at hnot
      exact hnot
    · have hnil := List.eq_nil_iff_forall_not_mem.2 fun e' he' => by cases hbehind hnone e' he'
      have hstop := SortedTable.takeWhile_eq_nil_iff_head?.1 hnil e he
      unfold isFound at hfound
      unfold isAbove
      simpa [hfound] using hstop
  · rintro ⟨hbelow, hleft, hbehind⟩
    refine ⟨fun e he _ => ?_, fun e he => ?_, fun hnone e he => ?_⟩
    · have hin := hmem e ((List.takeWhile_prefix _).subset he)
      have hle : ¬ (0 < «end» ∧ «end» < e.1.blockHeight) := by
        have hnot := List.mem_takeWhile_imp he
        rw [Bool.not_eq_true'] at hnot
        exact of_decide_eq_false hnot
      refine (indexAsked_iff hin).2 fun hstart hend => ⟨hbelow hstart hend e he, ?_⟩
      exact Int32.not_lt.1 fun hlt => hle ⟨hend, hlt⟩
    · have hin := hmem e ((List.dropWhile_suffix _).subset he)
      obtain ⟨hstart, hend, hrange⟩ := hleft e he
      rw [Bool.eq_false_iff]
      exact fun hasked => hrange ((indexAsked_iff hin).1 hasked hstart hend)
    · rw [SortedTable.takeWhile_eq_nil_iff_head?.2] at he
      · cases he
      · intro e' he'
        have habove := hbehind hnone e' he'
        unfold isFound isAbove at habove
        cases hfound : e'.1.hashBytes == addressHash &&
            (assetName.isEmpty || e'.1.asset == assetName) with
        | false => simp
        | true => simp [habove hfound]

/-! ## The address-unspent index -/

theorem zero_le_writeString (asset rest : Bytes) : [0] ≤ writeString asset ++ rest := by
  cases h : writeString asset ++ rest with
  | nil =>
    have hlen := congrArg List.length h
    unfold writeString writeCompactSize at hlen
    split at hlen
    · simp at hlen
    · split at hlen
      · simp at hlen
      · split at hlen <;> simp at hlen
  | cons b s =>
    rw [List.cons_le_cons_iff]
    obtain hlt | heq := Nat.eq_zero_or_pos b.toNat |>.symm
    · exact Or.inl (UInt8.lt_iff_toNat_lt.2 hlt)
    · exact Or.inr ⟨UInt8.toNat_inj.1 heq.symm, by simp⟩

theorem iteratorAssetKey_nil_le {t : UInt32} {key : CAddressUnspentKey}
    (h : iteratorKey t addressHash <+: key.serialize) :
    iteratorAssetKey t addressHash [] ≤ key.serialize := by
  unfold CAddressUnspentKey.serialize at h ⊢
  rw [iteratorKey_isPrefix] at h
  obtain ⟨htype, hhash⟩ := h
  unfold iteratorAssetKey iteratorKey
  rw [htype, hhash, List.append_assoc, SortedTable.append_le_append_iff,
    SortedTable.append_le_append_iff]
  exact zero_le_writeString _ _

theorem iteratorKey_le_iff {t : UInt32} {key : CAddressUnspentKey} :
    iteratorKey t addressHash ≤ key.serialize ↔
      iteratorAssetKey t addressHash [] ≤ key.serialize := by
  have hbegins : iteratorKey t addressHash <+: iteratorAssetKey t addressHash [] :=
    List.prefix_append _ _
  constructor
  · intro hle
    by_contra hlt
    rw [List.not_le] at hlt
    exact List.not_le.2 hlt (iteratorAssetKey_nil_le
      (SortedTable.isPrefix_of_between hle (Std.le_of_lt hlt) hbegins))
  · exact fun hle => Std.le_trans (List.IsPrefix.le hbegins) hle

/-- **The entries of one asset, or of one address, are consecutive**; of a type that is no byte
there are none. -/
theorem isFront_addressUnspent {k : Bytes}
    (hpk : DB_ADDRESSUNSPENTINDEX :: addressPrefix addressHash type assetName ≤
      DB_ADDRESSUNSPENTINDEX :: k)
    (hk : ∀ key : CAddressUnspentKey, addressPrefix addressHash type assetName <+: key.serialize →
      k ≤ key.serialize) :
    IsFront (addressUnspentEntries db) (fun key => DB_ADDRESSUNSPENTINDEX :: key.serialize)
      (DB_ADDRESSUNSPENTINDEX :: k) (unspentAsked addressHash type assetName) := by
  have hstored : ∀ e ∈ addressUnspentEntries db, e.1.type.toUInt8.toUInt32 = e.1.type ∧
      e.1.asset.length ≤ CDataStream.MAX_SIZE := by
    intro e he
    obtain ⟨key, hasset, hkey⟩ := mem_addressUnspentEntries he
    rw [hkey]
    exact ⟨congrArg UInt8.toUInt32 (UInt8.toUInt8_toUInt32 _), hasset⟩
  by_cases htype : type.toUInt32.toUInt8.toUInt32 = type.toUInt32
  · refine isFront_of_isPrefix hpk fun e he => ?_
    have hbegins : addressPrefix addressHash type assetName <+: e.1.serialize ↔ _ :=
      addressPrefix_isPrefix htype (hstored e he).1 (hstored e he).2
    unfold unspentAsked
    rw [decide_eq_true_iff, ← hbegins, List.cons_prefix_cons, List.cons_le_cons_iff]
    exact ⟨fun h => ⟨⟨rfl, h⟩, Or.inr ⟨rfl, hk e.1 h⟩⟩, fun h => h.1.2⟩
  · have hnone : ∀ e ∈ addressUnspentEntries db,
        ¬ unspentAsked addressHash type assetName e.1 = true := by
      intro e he hblock
      obtain ⟨heq, -⟩ := of_decide_eq_true hblock
      exact htype (heq ▸ (hstored e he).1)
    exact ⟨fun e he h => absurd h (hnone e he), fun e _ e' he' _ _ h => absurd h (hnone e' he')⟩

theorem isFound_of_asked {key : CAddressUnspentKey}
    (h : unspentAsked addressHash type assetName key = true) :
    (key.hashBytes == addressHash && (assetName.isEmpty || key.asset == assetName)) = true := by
  obtain ⟨-, hhash, hasset⟩ := of_decide_eq_true h
  simpa [hhash] using hasset

/-- **`ReadAddressUnspentIndex` is exact** unless it runs on into entries of another type. -/
theorem readAddressUnspentIndex_eq_iff :
    readAddressUnspentIndex db addressHash type assetName =
      (true, (addressUnspentEntries db).filter fun e =>
        unspentAsked addressHash type assetName e.1) ↔
      ∀ e, (addressUnspentBehind db addressHash type assetName).head? = some e →
        isFound addressHash assetName e.1.hashBytes e.1.asset = false := by
  have hfront : IsFront (addressUnspentEntries db)
      (fun key => DB_ADDRESSUNSPENTINDEX :: key.serialize)
      (DB_ADDRESSUNSPENTINDEX :: iteratorAssetKey type.toUInt32 addressHash assetName)
      (unspentAsked addressHash type assetName) := by
    refine isFront_addressUnspent ?_ fun key h => ?_
    · refine List.IsPrefix.le (List.cons_prefix_cons.2 ⟨rfl, ?_⟩)
      unfold addressPrefix
      split
      · exact List.prefix_rfl
      · exact List.prefix_append _ _
    · unfold addressPrefix at h
      split at h
      · exact List.IsPrefix.le h
      · rename_i hname
        obtain rfl := not_not.1 hname
        exact iteratorAssetKey_nil_le h
  unfold readAddressUnspentIndex addressUnspentEntries
  rw [scanIndex_eq_iff_of_not_stop (isIndex_addressUnspent db) hfront (fun key => by simp)
    fun key h => isFound_of_asked h]
  show (∀ e ∈ (addressUnspentBehind db addressHash type assetName).takeWhile
    (fun e => isFound addressHash assetName e.1.hashBytes e.1.asset), true = false) ↔ _
  rw [← SortedTable.takeWhile_eq_nil_iff_head?, List.eq_nil_iff_forall_not_mem]
  exact forall_congr' fun e => by simp

theorem readAddressUnspentAssets_eq_iff :
    readAddressUnspentAssets db addressHash type =
      (true, (addressUnspentEntries db).filter fun e =>
        unspentAsked addressHash type [] e.1 && e.1.asset != ascii "UNEMP") ↔
      ∀ e ∈ (addressUnspentBehind db addressHash type []).takeWhile
        fun e => e.1.hashBytes == addressHash, e.1.asset = ascii "UNEMP" := by
  have hfront : IsFront (addressUnspentEntries db)
      (fun key => DB_ADDRESSUNSPENTINDEX :: key.serialize)
      (DB_ADDRESSUNSPENTINDEX :: iteratorKey type.toUInt32 addressHash)
      (unspentAsked addressHash type []) :=
    isFront_addressUnspent (List.le_refl _) fun key h => List.IsPrefix.le h
  unfold readAddressUnspentAssets addressUnspentEntries
  rw [scanIndex_eq_iff_of_not_stop (isIndex_addressUnspent db) hfront (fun key => rfl)
    fun key h => beq_iff_eq.2 (of_decide_eq_true h).2.1]
  have hbehind : (entries DB_ADDRESSUNSPENTINDEX CAddressUnspentKey.unserialize
      CAddressUnspentValue.unserialize db.toSortedTable).filter (fun e =>
        decide (DB_ADDRESSUNSPENTINDEX :: iteratorKey type.toUInt32 addressHash ≤
          DB_ADDRESSUNSPENTINDEX :: e.1.serialize) && !unspentAsked addressHash type [] e.1) =
      addressUnspentBehind db addressHash type [] := by
    refine List.filter_congr fun e _ => congrArg (· && _) (decide_eq_decide.2 ?_)
    rw [List.cons_le_cons_iff, List.cons_le_cons_iff, iteratorKey_le_iff]
  rw [hbehind]
  exact forall₂_congr fun e _ => by simp

/-! ## The queries -/

/-- **When the queries are exact**, for every content of the indexes. -/
theorem addressQueries_exact (db : CBlockTreeDB) (addressHash : uint160) (type : Int32)
    (assetName : Bytes) (start «end» : Int32) :
    (readAddressIndex db addressHash type assetName start «end» =
        (true, (addressIndexEntries db).filter fun e =>
          indexAsked addressHash type assetName start «end» e.1) ↔
      AddressIndexExact db addressHash type assetName start «end») ∧
    (readAddressUnspentIndex db addressHash type assetName =
        (true, (addressUnspentEntries db).filter fun e =>
          unspentAsked addressHash type assetName e.1) ↔
      ∀ e, (addressUnspentBehind db addressHash type assetName).head? = some e →
        isFound addressHash assetName e.1.hashBytes e.1.asset = false) ∧
    (readAddressUnspentAssets db addressHash type =
        (true, (addressUnspentEntries db).filter fun e =>
          unspentAsked addressHash type [] e.1 && e.1.asset != ascii "UNEMP") ↔
      ∀ e ∈ (addressUnspentBehind db addressHash type []).takeWhile
        fun e => e.1.hashBytes == addressHash, e.1.asset = ascii "UNEMP") :=
  ⟨readAddressIndex_eq_iff, readAddressUnspentIndex_eq_iff, readAddressUnspentAssets_eq_iff⟩

def indexKey (type : UInt32) (hashBytes : uint160) (asset : Bytes) (blockHeight : Int32) :
    CAddressIndexKey :=
  ⟨type, hashBytes, asset, blockHeight, 0, 0, 0, false⟩

/-- An asset with a short name at a late height, and the coin at an early one. -/
def twoAssets : CBlockTreeDB :=
  let late := CBlockTreeDB.empty.writeAddressIndex (indexKey 1 7 (ascii "ABC") 100) 5 (by decide)
  late.writeAddressIndex (indexKey 1 7 (ascii "UNEMP") 10) 6 (by decide)

def scriptOutput : CBlockTreeDB :=
  CBlockTreeDB.empty.writeAddressUnspent ⟨2, 7, ascii "UNEMP", 0, 0⟩ ⟨6, [], 10⟩ (by decide)
    (by decide)

/-- **Two wrong answers**: a scan over all assets ends at the late height of the first one, and a
query for the hash of a key finds the hash of a script. -/
theorem scans_inexact :
    (readAddressIndex twoAssets 7 1 [] 5 50 = (true, []) ∧
      (addressIndexEntries twoAssets).filter (fun e => indexAsked 7 1 [] 5 50 e.1) =
        [(indexKey 1 7 (ascii "UNEMP") 10, 6)]) ∧
    (readAddressUnspentIndex scriptOutput 7 1 [] =
        (true, [(⟨2, 7, ascii "UNEMP", 0, 0⟩, ⟨6, [], 10⟩)]) ∧
      (addressUnspentEntries scriptOutput).filter (fun e => unspentAsked 7 1 [] e.1) = []) := by
  decide +kernel

end AddressIndex

end UnemployCoin
