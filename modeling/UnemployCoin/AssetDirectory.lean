import UnemployCoin.AddressQueries
import UnemployCoin.Destination
/-!
# Directories of owners

`CAssetsDB::AddressDir` and `AssetAddressDir` (`assets/assetdb.cpp`) give the assets of an address
and the addresses of an asset in pages, and `AddAssetOwnershipSnapshot`
(`assets/assetsnapshotdb.cpp`) collects them.  The keys of one directory begin with a flag and a
name, each string with its length in front, and are consecutive among all records.
-/

namespace UnemployCoin

namespace AssetDirectory

open AddressIndex

/-! ## Records -/

def ASSET_ADDRESS_QUANTITY_FLAG : UInt8 := 66

def ADDRESS_ASSET_QUANTITY_FLAG : UInt8 := 67

/-- The bytes of a `std::pair` of strings. -/
def writePair (first second : Bytes) : Bytes := writeString first ++ writeString second

def readPair : CDataStream (Bytes × Bytes) := do
  let first ← CDataStream.readString
  let second ← CDataStream.readString
  return (first, second)

def IsQuantityFlag (flag : UInt8) : Prop :=
  flag = ASSET_ADDRESS_QUANTITY_FLAG ∨ flag = ADDRESS_ASSET_QUANTITY_FLAG

instance (flag : UInt8) : Decidable (IsQuantityFlag flag) := inferInstanceAs (Decidable (_ ∨ _))

/-- The records of `CAssetsDB`.  Those of the two families were written by
`WriteAssetAddressQuantity` and `WriteAddressAssetQuantity`; of the others nothing is known. -/
structure AssetsTable extends SortedTable UInt8 Bytes where
  quantities : ∀ r ∈ records, ∀ flag, IsQuantityFlag flag → r.1.head? = some flag →
    ∃ (first second : Bytes) (amount : CAmount), first.length ≤ CDataStream.MAX_SIZE ∧
      second.length ≤ CDataStream.MAX_SIZE ∧ r = (flag :: writePair first second, writeInt64 amount)

/-! ## The calls -/

def MAX_DATABASE_RESULTS : ℕ := 50000

section Calls

variable (flag : UInt8) (name : Bytes)

/-- The test of the loops, `GetKey(key) && key.first == flag && key.second.first == name`: the other
string of a key of the directory. -/
def entryKey (key : Bytes) : Option Bytes := do
  let (first, second) ← getKey readPair key
  if first = flag ∧ second.1 = name then return second.2 else none

/-- The loop that loads a page, with what it has loaded so far. -/
def loadEntries (count skip : ℕ) : List (Bytes × Bytes) → ℕ → ℕ → List (Bytes × CAmount) →
    Bool × List (Bytes × CAmount)
  | [], _, _, vec => (true, vec)
  | r :: rs, offset, loaded, vec =>
    if loaded < count ∧ loaded < MAX_DATABASE_RESULTS then
      match entryKey flag name r.1 with
      | some second =>
        if offset < skip then loadEntries count skip rs (offset + 1) loaded vec
        else
          match CDataStream.readInt64.read r.2 with
          | some amount => loadEntries count skip rs offset (loaded + 1) (vec ++ [(second, amount)])
          | none => (false, vec)
      | none => (true, vec)
    else (true, vec)

/-- The loops that count, which go on to the last record of all. -/
def countEntries (rs : List (Bytes × Bytes)) : ℕ :=
  rs.countP fun r => (entryKey flag name r.1).isSome

/-- `skip`, as a `size_t`. -/
def skipOf (table_size : ℕ) (start : ℤ) : ℕ :=
  if 0 ≤ start then start.toNat else ((table_size + start) % 2 ^ 64).toNat

variable (db : AssetsTable) (vec : List (Bytes × CAmount)) (totalEntries : ℕ) (fGetTotal : Bool)
  (count : ℕ) (start : ℤ)

/-- The directory of a name in one family, after `FlushStateToDisk`. -/
def quantityDir : Bool × List (Bytes × CAmount) × ℕ :=
  let pcursor := db.seek (flag :: writePair name [])
  if fGetTotal then (true, vec, countEntries flag name pcursor)
  else
    let skip := skipOf (countEntries flag name pcursor) start
    -- With a negative start the cursor goes to the first record of all.
    let pcursor := if 0 ≤ start then pcursor else db.records
    let (success, vec) := loadEntries flag name count skip pcursor 0 0 vec
    (success, vec, totalEntries)

def addressDir (address : Bytes) : Bool × List (Bytes × CAmount) × ℕ :=
  quantityDir ADDRESS_ASSET_QUANTITY_FLAG address db vec totalEntries fGetTotal count start

def assetAddressDir (assetName : Bytes) : Bool × List (Bytes × CAmount) × ℕ :=
  quantityDir ASSET_ADDRESS_QUANTITY_FLAG assetName db vec totalEntries fGetTotal count start

end Calls

def MAX_RETRIEVAL_COUNT : ℕ := 100

/-- The owners of an asset: a set of pairs, **one for each address**. -/
abbrev OwnersAndAmounts := StdMap Bytes CAmount

def isPayable (env : Env) (address : Bytes) : Bool :=
  isValidDestination (decodeDestination env address)

/-- What was retrieved, without the addresses that are invalid. -/
def insertValid (env : Env) (owners : OwnersAndAmounts) (retrieved : List (Bytes × CAmount)) :
    OwnersAndAmounts :=
  retrieved.foldl (fun owners e =>
    if isPayable env e.1 then owners.emplace e.1 e.2 else owners) owners

/-- `ownersAndAmounts` of `AddAssetOwnershipSnapshot`, in batches; none where errors occurred. -/
def gatherOwners (env : Env) (db : AssetsTable) (assetName : Bytes) : Option OwnersAndAmounts :=
  let totalEntryCount := (assetAddressDir db [] 0 true 2147483647 0 assetName).2.2
  (List.range ((totalEntryCount + MAX_RETRIEVAL_COUNT - 1) / MAX_RETRIEVAL_COUNT)).foldlM
    (fun owners i =>
      match assetAddressDir db [] totalEntryCount false MAX_RETRIEVAL_COUNT
        (i * MAX_RETRIEVAL_COUNT : ℕ) assetName with
      | (true, retrieved, _) => some (insertValid env owners retrieved)
      | (false, _) => none) ∅

/-! ## The entries of a directory -/

theorem reads_pair {first second : Bytes} (hfirst : first.length ≤ CDataStream.MAX_SIZE)
    (hsecond : second.length ≤ CDataStream.MAX_SIZE) :
    Reads readPair (writePair first second) (first, second) :=
  (reads_string hfirst).bind ((reads_string hsecond).thenPure fun second => (first, second))

theorem entryKey_writePair {flag : UInt8} {name first second : Bytes}
    (hfirst : first.length ≤ CDataStream.MAX_SIZE)
    (hsecond : second.length ≤ CDataStream.MAX_SIZE) :
    entryKey flag name (flag :: writePair first second) =
      if first = name then some second else none := by
  rw [entryKey, getKey_of_reads (reads_pair hfirst hsecond)]
  simp

def entryOf (flag : UInt8) (name : Bytes) (r : Bytes × Bytes) : Option (Bytes × CAmount) := do
  let second ← entryKey flag name r.1
  let amount ← CDataStream.readInt64.read r.2
  return (second, amount)

def AssetsTable.directory (db : AssetsTable) (flag : UInt8) (name : Bytes) :
    List (Bytes × CAmount) :=
  db.records.filterMap (entryOf flag name)

section Records

variable {flag : UInt8} {name second : Bytes} {db : AssetsTable} {r : Bytes × Bytes}

theorem record_of_entryKey (hflag : IsQuantityFlag flag) (hr : r ∈ db.records)
    (hkey : entryKey flag name r.1 = some second) :
    ∃ amount, name.length ≤ CDataStream.MAX_SIZE ∧ second.length ≤ CDataStream.MAX_SIZE ∧
      r = (flag :: writePair name second, writeInt64 amount) := by
  have hhead : r.1.head? = some flag := by
    obtain ⟨⟨first, pair⟩, hget, hrest⟩ := Option.bind_eq_some_iff.mp hkey
    dsimp only at hrest
    split at hrest
    · rename_i hsame
      rw [← hsame.1]
      exact head?_of_getKey hget
    · cases hrest
  obtain ⟨first, second', amount, hfirst, hsecond, rfl⟩ := db.quantities r hr flag hflag hhead
  rw [entryKey_writePair hfirst hsecond] at hkey
  split at hkey
  · rename_i hname
    subst hname
    obtain rfl := Option.some.inj hkey
    exact ⟨amount, hfirst, hsecond, rfl⟩
  · cases hkey

theorem readInt64_writeInt64 (amount : CAmount) :
    CDataStream.readInt64.read (writeInt64 amount) = some amount := by
  have hread := (reads_int64 amount).read []
  rwa [List.append_nil] at hread

theorem isSome_entryKey_iff (hflag : IsQuantityFlag flag) (hr : r ∈ db.records) :
    (entryKey flag name r.1).isSome = true ↔ flag :: writeString name <+: r.1 := by
  constructor
  · intro hsome
    obtain ⟨second, hkey⟩ := Option.isSome_iff_exists.mp hsome
    obtain ⟨amount, -, -, rfl⟩ := record_of_entryKey hflag hr hkey
    exact ⟨writeString second, rfl⟩
  · intro hprefix
    have hhead : r.1.head? = some flag := by
      obtain ⟨rest, hrest⟩ := hprefix
      rw [← hrest]
      rfl
    obtain ⟨first, second, amount, hfirst, hsecond, rfl⟩ := db.quantities r hr flag hflag hhead
    have hname : name = first :=
      (writeString_isPrefix hfirst).mp (List.cons_prefix_cons.mp hprefix).2
    rw [entryKey_writePair hfirst hsecond, if_pos hname.symm]
    rfl

theorem isSome_entryOf (hflag : IsQuantityFlag flag) (hr : r ∈ db.records)
    (hkey : entryKey flag name r.1 = some second) :
    ∃ amount, CDataStream.readInt64.read r.2 = some amount ∧
      entryOf flag name r = some (second, amount) := by
  obtain ⟨amount, -, -, rfl⟩ := record_of_entryKey hflag hr hkey
  refine ⟨amount, readInt64_writeInt64 amount, ?_⟩
  rw [entryOf, hkey]
  simp [readInt64_writeInt64]

end Records

/-! ## What a call reads -/

section Loops

variable {flag : UInt8} {name : Bytes} {count skip : ℕ} {rs : List (Bytes × Bytes)}

theorem entryOf_eq_none {r : Bytes × Bytes} (h : (entryKey flag name r.1).isSome = false) :
    entryOf flag name r = none := by
  rw [entryOf, Option.isSome_eq_false_iff.mp h |> Option.isNone_iff_eq_none.mp]
  rfl

theorem loadEntries_eq (hread : ∀ r ∈ rs, ∀ second, entryKey flag name r.1 = some second →
      ∃ amount, CDataStream.readInt64.read r.2 = some amount ∧
        entryOf flag name r = some (second, amount))
    (offset loaded : ℕ) (vec : List (Bytes × CAmount)) :
    loadEntries flag name count skip rs offset loaded vec =
      (true, vec ++ ((((rs.takeWhile fun r => (entryKey flag name r.1).isSome).filterMap
        (entryOf flag name)).drop (skip - offset)).take
          (min count MAX_DATABASE_RESULTS - loaded))) := by
  induction rs generalizing offset loaded vec with
  | nil => simp [loadEntries]
  | cons r rs ih =>
    obtain ⟨hfirst, hrest⟩ := List.forall_mem_cons.mp hread
    rw [loadEntries]
    by_cases hroom : loaded < count ∧ loaded < MAX_DATABASE_RESULTS
    · rw [if_pos hroom]
      cases hkey : entryKey flag name r.1 with
      | none => simp [hkey]
      | some second =>
        obtain ⟨amount, hamount, hentry⟩ := hfirst second hkey
        rw [List.takeWhile_cons_of_pos (by rw [hkey]; rfl), List.filterMap_cons_some hentry]
        by_cases hskip : offset < skip
        · simp only [if_pos hskip]
          rw [ih hrest, show skip - offset = (skip - (offset + 1)) + 1 by omega,
            List.drop_succ_cons]
        · have hnext : min count MAX_DATABASE_RESULTS - loaded =
              (min count MAX_DATABASE_RESULTS - (loaded + 1)) + 1 := by omega
          simp only [if_neg hskip, hamount]
          rw [ih hrest, show skip - offset = 0 by omega, List.drop_zero, List.drop_zero, hnext,
            List.take_succ_cons, List.append_assoc, List.singleton_append]
    · rw [if_neg hroom, show min count MAX_DATABASE_RESULTS - loaded = 0 by omega, List.take_zero,
        List.append_nil]

end Loops

section Directory

variable {flag : UInt8} {name : Bytes} {db : AssetsTable} {r r' : Bytes × Bytes}

theorem mem_seek_iff : r ∈ db.seek (flag :: writePair name []) ↔
    r ∈ db.records ∧ flag :: writePair name [] ≤ r.1 := by
  rw [SortedTable.seek_eq_filter, List.mem_filter, decide_eq_true_iff]

theorem prefix_le_seekKey : flag :: writeString name ≤ flag :: writePair name [] :=
  List.IsPrefix.le (List.cons_prefix_cons.mpr ⟨rfl, List.prefix_append _ _⟩)

theorem filterMap_filter_entry (rs : List (Bytes × Bytes)) :
    (rs.filter fun r => (entryKey flag name r.1).isSome).filterMap (entryOf flag name) =
      rs.filterMap (entryOf flag name) := by
  rw [List.filterMap_filter]
  apply List.filterMap_congr
  intro r _
  cases hentry : (entryKey flag name r.1).isSome with
  | false => rw [entryOf_eq_none hentry, if_neg Bool.false_ne_true]
  | true => exact if_pos rfl

variable (hflag : IsQuantityFlag flag)

include hflag

theorem seekKey_le (hr : r ∈ db.records) (hentry : (entryKey flag name r.1).isSome = true) :
    flag :: writePair name [] ≤ r.1 := by
  obtain ⟨second, hkey⟩ := Option.isSome_iff_exists.mp hentry
  obtain ⟨amount, -, -, rfl⟩ := record_of_entryKey hflag hr hkey
  show flag :: (writeString name ++ [0]) ≤ flag :: (writeString name ++ writeString second)
  rw [List.cons_le_cons_iff, SortedTable.append_le_append_iff]
  have hzero := zero_le_writeString second []
  rw [List.append_nil] at hzero
  exact Or.inr ⟨rfl, hzero⟩

/-- **The records of a directory are consecutive.** -/
theorem isEntry_of_between (hr : r ∈ db.records) (hr' : r' ∈ db.records)
    (hle : flag :: writeString name ≤ r.1) (hlt : r.1 < r'.1)
    (hentry : (entryKey flag name r'.1).isSome = true) :
    (entryKey flag name r.1).isSome = true := by
  rw [isSome_entryKey_iff hflag hr'] at hentry
  rw [isSome_entryKey_iff hflag hr]
  exact SortedTable.isPrefix_of_between hle (Std.le_of_lt hlt) hentry

theorem filter_seek : ((db.seek (flag :: writePair name [])).filter
      fun r => (entryKey flag name r.1).isSome) =
    db.records.filter fun r => (entryKey flag name r.1).isSome := by
  rw [SortedTable.seek_eq_filter, List.filter_filter]
  apply List.filter_congr
  intro r hr
  cases hentry : (entryKey flag name r.1).isSome with
  | false => rw [Bool.false_and]
  | true => rw [Bool.true_and, decide_eq_true (seekKey_le hflag hr hentry)]

theorem scan_seek : ((db.seek (flag :: writePair name [])).takeWhile
      fun r => (entryKey flag name r.1).isSome).filterMap (entryOf flag name) =
    db.directory flag name := by
  have hconsecutive : (db.seek (flag :: writePair name [])).Pairwise fun r r' =>
      (entryKey flag name r'.1).isSome = true → (entryKey flag name r.1).isSome = true := by
    have hsorted : (db.seek (flag :: writePair name [])).Pairwise fun r r' => r.1 < r'.1 := by
      rw [SortedTable.seek_eq_filter]
      exact db.sorted.filter _
    refine hsorted.imp_of_mem fun {r r'} hr hr' hlt => ?_
    obtain ⟨hmem, hle⟩ := mem_seek_iff.mp hr
    exact isEntry_of_between hflag hmem (mem_seek_iff.mp hr').1 (Std.le_trans prefix_le_seekKey hle)
      hlt
  rw [SortedTable.takeWhile_eq_filter hconsecutive, filter_seek hflag, filterMap_filter_entry]
  rfl

theorem countEntries_seek :
    countEntries flag name (db.seek (flag :: writePair name [])) =
      (db.directory flag name).length := by
  rw [countEntries, List.countP_eq_length_filter, filter_seek hflag, AssetsTable.directory,
    List.length_filterMap_eq_countP, ← List.countP_eq_length_filter]
  apply List.countP_congr
  intro r hr
  constructor
  · intro hentry
    obtain ⟨second, hkey⟩ := Option.isSome_iff_exists.mp hentry
    obtain ⟨amount, -, hsome⟩ := isSome_entryOf hflag hr hkey
    rw [hsome]
    rfl
  · intro hsome
    by_contra hentry
    rw [entryOf_eq_none (Bool.eq_false_iff.mpr hentry)] at hsome
    cases hsome

/-! ## The pages -/

variable (db) (vec : List (Bytes × CAmount)) (totalEntries count : ℕ) {start : ℤ}

theorem quantityDir_total (start : ℤ) :
    quantityDir flag name db vec totalEntries true count start =
      (true, vec, (db.directory flag name).length) := by
  rw [quantityDir, if_pos rfl, countEntries_seek hflag]

/-- **A call from the front** gives a page of the directory. -/
theorem quantityDir_page (hstart : 0 ≤ start) :
    quantityDir flag name db vec totalEntries false count start =
      (true, vec ++ ((db.directory flag name).drop start.toNat).take
        (min count MAX_DATABASE_RESULTS), totalEntries) := by
  have hload := @loadEntries_eq flag name count start.toNat
    (db.seek (flag :: writePair name []))
    (fun r hr second hkey => isSome_entryOf hflag (mem_seek_iff.mp hr).1 hkey) 0 0 vec
  rw [scan_seek hflag] at hload
  rw [quantityDir, if_neg Bool.false_ne_true, skipOf, if_pos hstart, if_pos hstart]
  dsimp only
  rw [hload]
  rfl

theorem mem_directory {second : Bytes} {amount : CAmount} :
    (second, amount) ∈ db.directory flag name ↔
      (flag :: writePair name second, writeInt64 amount) ∈ db.records := by
  rw [AssetsTable.directory, List.mem_filterMap]
  constructor
  · rintro ⟨r, hr, hentry⟩
    obtain ⟨second', hkey, hrest⟩ := Option.bind_eq_some_iff.mp hentry
    obtain ⟨amount', -, -, rfl⟩ := record_of_entryKey hflag hr hkey
    rw [readInt64_writeInt64] at hrest
    cases hrest
    exact hr
  · intro hr
    obtain ⟨first, second', amount', hfirst, hsecond, heq⟩ := db.quantities _ hr flag hflag rfl
    obtain ⟨hkey, -⟩ := Prod.mk.inj heq
    have hpair : writePair name second = writePair first second' := (List.cons.inj hkey).2
    have hname : name = first := (writeString_isPrefix hfirst).mp ⟨writeString second, hpair⟩
    subst hname
    have hstring : writeString second = writeString second' := List.append_cancel_left hpair
    have hprefix : writeString second <+: writeString second' ++ [] :=
      ⟨[], congrArg (· ++ []) hstring⟩
    obtain rfl := (writeString_isPrefix hsecond).mp hprefix
    refine ⟨_, hr, ?_⟩
    rw [entryOf, entryKey_writePair hfirst hsecond, if_pos rfl]
    simp [readInt64_writeInt64]

theorem directory_sorted : (db.directory flag name).Pairwise fun e e' =>
    writeString e.1 < writeString e'.1 := by
  rw [AssetsTable.directory, List.pairwise_filterMap]
  refine db.sorted.imp_of_mem fun {r r'} hr hr' hlt e he e' he' => ?_
  obtain ⟨second, hkey, hrest⟩ := Option.bind_eq_some_iff.mp he
  obtain ⟨second', hkey', hrest'⟩ := Option.bind_eq_some_iff.mp he'
  obtain ⟨amount, -, -, rfl⟩ := record_of_entryKey hflag hr hkey
  obtain ⟨amount', -, -, rfl⟩ := record_of_entryKey hflag hr' hkey'
  rw [readInt64_writeInt64] at hrest hrest'
  cases hrest
  cases hrest'
  rw [← List.not_le] at hlt ⊢
  intro hle
  apply hlt
  rw [List.cons_le_cons_iff, writePair, writePair, SortedTable.append_le_append_iff]
  exact Or.inr ⟨rfl, hle⟩

theorem directory_nodup : ((db.directory flag name).map Prod.fst).Nodup := by
  rw [List.Nodup, List.pairwise_map]
  refine (directory_sorted db hflag).imp fun {e e'} hlt heq => ?_
  rw [heq] at hlt
  exact List.lt_irrefl _ hlt

end Directory

theorem flatMap_pages {α : Type} (l : List α) (size k : ℕ) :
    ((List.range k).flatMap fun i => (l.drop (i * size)).take size) = l.take (k * size) := by
  induction k with
  | zero => simp
  | succ k ih =>
    rw [List.range_succ, List.flatMap_append, ih, List.flatMap_singleton, Nat.succ_mul,
      List.take_add]

theorem mem_insertValid {env : Env} {retrieved : List (Bytes × CAmount)}
    (hnd : (retrieved.map Prod.fst).Nodup) {owners : OwnersAndAmounts}
    (hfresh : ∀ e ∈ retrieved, owners.find? e.1 = none) (e : Bytes × CAmount) :
    e ∈ (insertValid env owners retrieved).entries ↔
      e ∈ owners.entries ∨ e ∈ retrieved ∧ isPayable env e.1 = true := by
  induction retrieved generalizing owners with
  | nil => simp [insertValid]
  | cons e' retrieved ih =>
    rw [List.map_cons, List.nodup_cons] at hnd
    rw [List.forall_mem_cons] at hfresh
    have hstep : insertValid env owners (e' :: retrieved) =
        insertValid env (if isPayable env e'.1 then owners.emplace e'.1 e'.2 else owners)
          retrieved := rfl
    rw [hstep, List.mem_cons]
    split
    · rename_i hpay
      have hadded : ∀ {e : Bytes × CAmount}, e ∈ (owners.emplace e'.1 e'.2).entries ↔
          e = e' ∨ e ∈ owners.entries := by
        rintro ⟨address, amount⟩
        rw [StdMap.mem_entries, StdMap.mem_entries, StdMap.find?_emplace, hfresh.1]
        split
        · rename_i heq
          subst heq
          rw [hfresh.1, Option.getD_none, Option.some.injEq, Prod.ext_iff]
          simp [eq_comm]
        · rename_i hne
          simp [Prod.ext_iff, hne]
      rw [ih hnd.2 fun e he => ?_, hadded]
      · constructor
        · rintro ((rfl | howner) | hmem)
          · exact Or.inr ⟨Or.inl rfl, hpay⟩
          · exact Or.inl howner
          · exact Or.inr ⟨Or.inr hmem.1, hmem.2⟩
        · rintro (howner | ⟨rfl | hmem, hpay⟩)
          · exact Or.inl (Or.inr howner)
          · exact Or.inl (Or.inl rfl)
          · exact Or.inr ⟨hmem, hpay⟩
      · have hne : e.1 ≠ e'.1 := fun heq => hnd.1 (heq ▸ List.mem_map_of_mem he)
        rw [StdMap.find?_emplace, if_neg hne, hfresh.2 e he]
    · rename_i hinvalid
      rw [ih hnd.2 hfresh.2]
      constructor
      · rintro (howner | hmem)
        · exact Or.inl howner
        · exact Or.inr ⟨Or.inr hmem.1, hmem.2⟩
      · rintro (howner | ⟨rfl | hmem, hpay⟩)
        · exact Or.inl howner
        · exact absurd hpay hinvalid
        · exact Or.inr ⟨hmem, hpay⟩

theorem gatherOwners_eq (env : Env) (db : AssetsTable) (assetName : Bytes) :
    gatherOwners env db assetName =
      some (insertValid env ∅ (db.directory ASSET_ADDRESS_QUANTITY_FLAG assetName)) := by
  have hflag : IsQuantityFlag ASSET_ADDRESS_QUANTITY_FLAG := Or.inl rfl
  have hbatches (total k : ℕ) : (List.range k).foldlM
      (fun owners i =>
        match assetAddressDir db [] total false MAX_RETRIEVAL_COUNT
          (i * MAX_RETRIEVAL_COUNT : ℕ) assetName with
        | (true, retrieved, _) => some (insertValid env owners retrieved)
        | (false, _) => none) ∅ =
      some (insertValid env ∅ ((db.directory ASSET_ADDRESS_QUANTITY_FLAG assetName).take
        (k * MAX_RETRIEVAL_COUNT))) := by
    induction k with
    | zero => simp [insertValid]
    | succ k ih =>
      rw [List.range_succ, List.foldlM_append, ih, Nat.succ_mul, List.take_add]
      have hpage := @quantityDir_page _ assetName db hflag [] total MAX_RETRIEVAL_COUNT _
        (Int.natCast_nonneg (k * MAX_RETRIEVAL_COUNT))
      rw [Int.toNat_natCast, List.nil_append] at hpage
      simp only [Option.bind_eq_bind, Option.bind_some, List.foldlM_cons, List.foldlM_nil,
        assetAddressDir, hpage]
      rw [insertValid, insertValid, insertValid, List.foldl_append]
      rfl
  have htotal := @quantityDir_total _ assetName db hflag [] 0 2147483647 0
  rw [gatherOwners, hbatches, assetAddressDir, htotal, List.take_of_length_le]
  dsimp only
  rw [MAX_RETRIEVAL_COUNT]
  omega

theorem mem_gatherOwners {env : Env} {db : AssetsTable} {assetName : Bytes}
    {owners : OwnersAndAmounts} (h : gatherOwners env db assetName = some owners)
    (e : Bytes × CAmount) : e ∈ owners.entries ↔
      e ∈ db.directory ASSET_ADDRESS_QUANTITY_FLAG assetName ∧ isPayable env e.1 = true := by
  rw [gatherOwners_eq] at h
  obtain rfl := Option.some.inj h
  rw [mem_insertValid (directory_nodup db (Or.inl rfl)) fun _ _ => rfl]
  exact or_iff_right List.not_mem_nil

/-- The entries at positions `start` to `start + count - 1`; a negative start counts from the end.
-/
def pageOf (l : List (Bytes × CAmount)) (count : ℕ) (start : ℤ) : List (Bytes × CAmount) :=
  (l.drop (if 0 ≤ start then start else l.length + start).toNat).take count

structure DirectoryExact (db : AssetsTable) (flag : UInt8) (name : Bytes)
    (call : List (Bytes × CAmount) → ℕ → Bool → ℕ → ℤ → Bool × List (Bytes × CAmount) × ℕ) :
    Prop where
  mem : ∀ second amount, (second, amount) ∈ db.directory flag name ↔
    (flag :: writePair name second, writeInt64 amount) ∈ db.records
  sorted : (db.directory flag name).Pairwise fun e e' => writeString e.1 < writeString e'.1
  once : ((db.directory flag name).map Prod.fst).Nodup
  total : ∀ vec totalEntries count start,
    call vec totalEntries true count start = (true, vec, (db.directory flag name).length)
  page : ∀ vec totalEntries count start, 0 ≤ start → call vec totalEntries false count start =
    (true, vec ++ pageOf (db.directory flag name) (min count MAX_DATABASE_RESULTS) start,
      totalEntries)
  /-- Consecutive pages cover the directory. -/
  cover : ∀ size k, size ≤ MAX_DATABASE_RESULTS → (db.directory flag name).length ≤ k * size →
    ((List.range k).flatMap fun i => (call [] 0 false size (i * size : ℕ)).2.1) =
      db.directory flag name

theorem quantityDir_exact {flag : UInt8} (hflag : IsQuantityFlag flag) (db : AssetsTable)
    (name : Bytes) : DirectoryExact db flag name (quantityDir flag name db) := by
  refine ⟨fun _ _ => mem_directory db hflag, directory_sorted db hflag, directory_nodup db hflag,
    fun vec totalEntries count start => quantityDir_total db hflag vec totalEntries count start,
    fun vec totalEntries count start hstart => ?_, fun size k hsize hlength => ?_⟩
  · rw [quantityDir_page db hflag vec totalEntries count hstart, pageOf, if_pos hstart]
  · rw [← List.take_of_length_le hlength, ← flatMap_pages]
    apply List.flatMap_congr
    intro i _
    rw [quantityDir_page db hflag [] 0 size (Int.natCast_nonneg _), Int.toNat_natCast,
      List.nil_append, Nat.min_eq_left hsize]

/-- **The pages of the directories.**  From the front, a call gives the entries at the positions
asked for, at most `MAX_DATABASE_RESULTS` of them, and a snapshot has everyone who can be paid to.
-/
theorem directory_pages (env : Env) (db : AssetsTable) (address assetName : Bytes) :
    DirectoryExact db ADDRESS_ASSET_QUANTITY_FLAG address
      (fun vec totalEntries fGetTotal count start =>
        addressDir db vec totalEntries fGetTotal count start address) ∧
    DirectoryExact db ASSET_ADDRESS_QUANTITY_FLAG assetName
      (fun vec totalEntries fGetTotal count start =>
        assetAddressDir db vec totalEntries fGetTotal count start assetName) ∧
    ∃ owners, gatherOwners env db assetName = some owners ∧ ∀ e, e ∈ owners.entries ↔
      e ∈ db.directory ASSET_ADDRESS_QUANTITY_FLAG assetName ∧ isPayable env e.1 = true :=
  ⟨quantityDir_exact (Or.inr rfl) db address, quantityDir_exact (Or.inl rfl) db assetName,
    _, gatherOwners_eq env db assetName, mem_gatherOwners (gatherOwners_eq env db assetName)⟩

/-! ## Where the pages are cut -/

def holder (assetName : Bytes) (i : ℕ) : Bytes × Bytes :=
  (ASSET_ADDRESS_QUANTITY_FLAG :: writePair assetName (writeLE 2 i).reverse, writeInt64 1)

theorem holder_lt (assetName : Bytes) {i j : ℕ} (hj : j < 65536) (hlt : i < j) :
    (holder assetName i).1 < (holder assetName j).1 := by
  have haddress : writeString (writeLE 2 i).reverse < writeString (writeLE 2 j).reverse := by
    have hbytes := reverse_writeLE_lt (n := 2) hj hlt
    rw [writeString, writeString, List.length_reverse, List.length_reverse, length_writeLE,
      length_writeLE]
    exact List.cons_lt_cons_iff.mpr (Or.inr ⟨rfl, hbytes⟩)
  rw [← List.not_le] at haddress ⊢
  intro hle
  apply haddress
  rw [holder, holder, List.cons_le_cons_iff, writePair, writePair,
    SortedTable.append_le_append_iff] at hle
  exact hle.resolve_left (Std.Irrefl.irrefl _) |>.2

/-- An asset with `n` holders. -/
def heldAsset (n : ℕ) (hn : n ≤ 65536) : AssetsTable where
  records := (65 :: writeString (ascii "GOLD"), []) :: (List.range n).map (holder (ascii "GOLD"))
  sorted := by
    refine List.pairwise_cons.mpr ⟨fun r hr => ?_, ?_⟩
    · obtain ⟨i, -, rfl⟩ := List.mem_map.mp hr
      exact List.cons_lt_cons_iff.mpr (Or.inl (by decide))
    · rw [List.pairwise_map]
      refine List.pairwise_lt_range.imp_of_mem fun {i j} _ hj hlt => ?_
      exact holder_lt _ (Nat.lt_of_lt_of_le (List.mem_range.mp hj) hn) hlt
  quantities := by
    intro r hr flag hflag hhead
    obtain rfl | hr := List.mem_cons.mp hr
    · obtain rfl := Option.some.inj hhead
      exact absurd hflag (by decide)
    · obtain ⟨i, -, rfl⟩ := List.mem_map.mp hr
      obtain rfl := Option.some.inj hhead
      exact ⟨ascii "GOLD", (writeLE 2 i).reverse, 1, by decide, by
        rw [List.length_reverse, length_writeLE]; decide, rfl⟩

theorem directory_heldAsset {n : ℕ} (hn : n ≤ 65536) :
    (heldAsset n hn).directory ASSET_ADDRESS_QUANTITY_FLAG (ascii "GOLD") =
      (List.range n).map fun i => ((writeLE 2 i).reverse, 1) := by
  have hflag : IsQuantityFlag ASSET_ADDRESS_QUANTITY_FLAG := Or.inl rfl
  have hfirst : (entryKey ASSET_ADDRESS_QUANTITY_FLAG (ascii "GOLD")
      (65 :: writeString (ascii "GOLD"))).isSome = false := by
    have hrecord : (65 :: writeString (ascii "GOLD"), []) ∈ (heldAsset n hn).records :=
      List.mem_cons_self
    rw [Bool.eq_false_iff, ne_eq, isSome_entryKey_iff hflag hrecord]
    decide
  rw [AssetsTable.directory, heldAsset]
  dsimp only
  rw [List.filterMap_cons_none (entryOf_eq_none hfirst), List.filterMap_map,
    ← List.filterMap_eq_map]
  apply List.filterMap_congr
  intro i _
  have hlength : (writeLE 2 i).reverse.length ≤ CDataStream.MAX_SIZE := by
    rw [List.length_reverse, length_writeLE]
    decide
  show entryOf _ _ (holder (ascii "GOLD") i) = _
  rw [entryOf, holder, entryKey_writePair (by decide) hlength, if_pos rfl]
  simp [readInt64_writeInt64]

/-- The last holder is not found from the back, and a page ends at the limit. -/
theorem pages_cut :
    (assetAddressDir (heldAsset 1 (by decide)) [] 0 false 1 (-1) (ascii "GOLD")).2.1 ≠
      pageOf ((heldAsset 1 (by decide)).directory ASSET_ADDRESS_QUANTITY_FLAG (ascii "GOLD"))
        1 (-1) ∧
    (assetAddressDir (heldAsset 50001 (by decide)) [] 0 false 50001 0 (ascii "GOLD")).2.1 ≠
      pageOf ((heldAsset 50001 (by decide)).directory ASSET_ADDRESS_QUANTITY_FLAG (ascii "GOLD"))
        50001 0 := by
  have hflag : IsQuantityFlag ASSET_ADDRESS_QUANTITY_FLAG := Or.inl rfl
  constructor
  · decide +kernel
  · intro heq
    rw [assetAddressDir, quantityDir_page _ hflag _ _ _ (Int.le_refl 0), pageOf,
      if_pos (Int.le_refl 0)] at heq
    have hlength := congrArg List.length heq
    dsimp only at hlength
    rw [List.nil_append, List.length_take, List.length_take, Int.toNat_zero, List.drop_zero,
      directory_heldAsset, List.length_map, List.length_range] at hlength
    exact absurd hlength (by decide)

end AssetDirectory

end UnemployCoin
