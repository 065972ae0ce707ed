import UnemployCoin.DiskIndex
import UnemployCoin.Lib.Format
/-!
# The wire format of transactions

`SerializeTransaction` and `UnserializeTransaction` (`primitives/transaction.h`).  A transaction
with witness data has the extended format: an empty vector of inputs and a byte of flags in front.
-/

namespace UnemployCoin

/-! ## Fields -/

theorem readBytes_only {n : ℕ} {s b rest : Bytes}
    (h : CDataStream.readBytes n s = some (b, rest)) : b.length = n ∧ s = b ++ rest := by
  unfold CDataStream.readBytes at h
  split at h
  · cases h
  · rename_i hlen
    cases h
    refine ⟨?_, (List.take_append_drop n s).symm⟩
    rw [List.length_take]
    omega

theorem readLE_lt (b : Bytes) : readLE b < 256 ^ b.length := by
  induction b with
  | nil => decide
  | cons x b ih =>
    have hx := x.toNat_lt
    unfold readLE
    rw [List.length_cons, Nat.pow_succ]
    omega

theorem writeLE_readLE (b : Bytes) : writeLE b.length (readLE b) = b := by
  induction b with
  | nil => rfl
  | cons x b ih =>
    have hx := x.toNat_lt
    have hmod : (x.toNat + 256 * readLE b) % 256 = x.toNat := by omega
    have hdiv : (x.toNat + 256 * readLE b) / 256 = readLE b := by omega
    unfold readLE
    rw [List.length_cons, writeLE, hmod, hdiv, ih, UInt8.ofNat_toNat]

theorem readNumber_only {α : Type} {n : ℕ} {f : ℕ → α} {g : α → ℕ} (hg : ∀ v < 256 ^ n, g (f v) = v)
    {s rest : Bytes} {a : α}
    (h : (do let b ← CDataStream.readBytes n; return f (readLE b) : CDataStream α) s =
      some (a, rest)) : s = writeLE n (g a) ++ rest := by
  obtain ⟨⟨b, t⟩, hread, h⟩ := Option.bind_eq_some_iff.1 h
  cases h
  obtain ⟨rfl, rfl⟩ := readBytes_only hread
  rw [hg _ (readLE_lt b), writeLE_readLE]

def uint8Format : Format UInt8 UInt8 where
  read := CDataStream.readUInt8
  write v := [v]
  valid _ := True
  reads := fun v rest _ => reads_uint8 v rest
  only := by
    intro s v rest h
    obtain ⟨⟨b, t⟩, hread, h⟩ := Option.bind_eq_some_iff.1 h
    cases h
    obtain ⟨hlen, rfl⟩ := readBytes_only hread
    obtain ⟨x, rfl⟩ := List.length_eq_one_iff.1 hlen
    exact ⟨trivial, rfl⟩

def uint32Format : Format UInt8 UInt32 where
  read := readUInt32
  write := writeUInt32
  valid _ := True
  reads := fun v rest _ => reads_uint32 v rest
  only := fun _ _ _ h => ⟨trivial, readNumber_only (fun _ hv => UInt32.toNat_ofNat_of_lt' hv) h⟩

/-- An `int32_t` has the bytes of a `uint32_t`. -/
def int32Format : Format UInt8 Int32 :=
  uint32Format.iso UInt32.toInt32 Int32.toUInt32 fun _ => rfl

def int64Format : Format UInt8 Int64 where
  read := CDataStream.readInt64
  write := writeInt64
  valid _ := True
  reads := fun v rest _ => reads_int64 v rest
  only := by
    intro s v rest h
    have hg : ∀ v < 256 ^ 8, (Int64.ofNat v).toUInt64.toNat = v :=
      fun v hv => UInt64.toNat_ofNat_of_lt' hv
    exact ⟨trivial, @readNumber_only _ 8 Int64.ofNat (fun v => v.toUInt64.toNat) hg _ _ _ h⟩

def uint256Format : Format UInt8 arith_uint256 where
  read := readUInt256
  write := writeUInt256
  valid _ := True
  reads := fun v rest _ => reads_uint256 v rest
  only := by
    refine fun _ _ _ h => ⟨trivial, readNumber_only (g := BitVec.toNat) ?_ h⟩
    intro v hv
    rw [BitVec.toNat_ofNat]
    exact Nat.mod_eq_of_lt hv

theorem limitSize_only {m n : ℕ} {s rest : Bytes}
    (h : (pure m >>= limitSize : CDataStream ℕ) s = some (n, rest)) :
    m = n ∧ n ≤ CDataStream.MAX_SIZE ∧ s = rest := by
  have hlimit : limitSize m s = some (n, rest) := h
  unfold limitSize at hlimit
  split at hlimit
  · cases hlimit
  · rename_i hle
    cases hlimit
    exact ⟨rfl, Nat.le_of_not_lt hle, rfl⟩

theorem readLength_only {k least n : ℕ} {s rest : Bytes}
    (h : (CDataStream.readBytes k >>= fun b =>
      if readLE b < least then CDataStream.throw >>= limitSize
      else pure (readLE b) >>= limitSize) s = some (n, rest)) :
    least ≤ n ∧ n < 256 ^ k ∧ n ≤ CDataStream.MAX_SIZE ∧ s = writeLE k n ++ rest := by
  obtain ⟨⟨b, t⟩, hread, hcheck⟩ := Option.bind_eq_some_iff.1 h
  obtain ⟨hlen, hs⟩ := readBytes_only hread
  simp only at hcheck
  split at hcheck
  · cases hcheck
  · rename_i hleast
    obtain ⟨rfl, hmax, rfl⟩ := limitSize_only hcheck
    refine ⟨Nat.le_of_not_lt hleast, ?_, hmax, ?_⟩
    · rw [← hlen]
      exact readLE_lt b
    · rw [hs, ← hlen, writeLE_readLE]

/-- **Only the shortest form** of a length is read. -/
theorem readCompactSize_only {s rest : Bytes} {n : ℕ}
    (h : CDataStream.readCompactSize s = some (n, rest)) :
    n ≤ CDataStream.MAX_SIZE ∧ s = writeCompactSize n ++ rest := by
  obtain ⟨⟨x, t⟩, hbyte, hsize⟩ := Option.bind_eq_some_iff.1 h
  obtain ⟨-, hs⟩ := uint8Format.only s x t hbyte
  have hcons : s = x :: t := hs
  have hbytes : ∀ k : UInt8, x.toNat = k.toNat → x = k := fun k hk => UInt8.toNat_inj.1 hk
  unfold writeCompactSize
  rw [hcons]
  simp only at hsize
  split at hsize
  · rename_i hsmall
    obtain ⟨rfl, hmax, rfl⟩ := limitSize_only hsize
    rw [if_pos hsmall, UInt8.ofNat_toNat]
    exact ⟨hmax, rfl⟩
  · split at hsize
    · rename_i htwo
      obtain ⟨hleast, hlt, hmax, rfl⟩ := readLength_only hsize
      rw [if_neg (by omega), if_pos (by omega), hbytes 253 htwo]
      exact ⟨hmax, rfl⟩
    · split at hsize
      · rename_i hfour
        obtain ⟨hleast, hlt, hmax, rfl⟩ := readLength_only hsize
        rw [if_neg (by omega), if_neg (by omega), if_pos (by omega), hbytes 254 hfour]
        exact ⟨hmax, rfl⟩
      · -- A length in eight bytes is above the limit.
        obtain ⟨hleast, -, hmax, -⟩ := readLength_only hsize
        have hlimit : CDataStream.MAX_SIZE < 0x100000000 := by decide
        omega

/-- `WriteCompactSize` and `ReadCompactSize`. -/
def compactSizeFormat : Format UInt8 ℕ where
  read := CDataStream.readCompactSize
  write := writeCompactSize
  valid n := n ≤ CDataStream.MAX_SIZE
  reads := fun _ rest h => reads_compactSize h rest
  only := fun _ _ _ h => readCompactSize_only h

/-- A `std::vector<unsigned char>`. -/
def bytesFormat : Format UInt8 Bytes where
  read := CDataStream.readString
  write := writeString
  valid s := s.length ≤ CDataStream.MAX_SIZE
  reads := fun _ rest h => reads_string h rest
  only := by
    intro s b rest h
    obtain ⟨⟨n, t⟩, hsize, hbytes⟩ := Option.bind_eq_some_iff.1 h
    obtain ⟨hmax, hs⟩ := readCompactSize_only hsize
    obtain ⟨hlen, ht⟩ := readBytes_only hbytes
    rw [hlen, hs, ht, writeString, hlen, List.append_assoc]
    exact ⟨hmax, rfl⟩

namespace Wire

/-! ## The parts of a transaction -/

structure COutPoint where
  hash : arith_uint256
  n : UInt32
  deriving DecidableEq

/-- An input with its witness, which has a place of its own in the format. -/
structure CTxIn where
  prevout : COutPoint
  scriptSig : CScript
  nSequence : UInt32
  scriptWitness : List Bytes
  deriving DecidableEq

structure CTxOut where
  nValue : CAmount
  scriptPubKey : CScript
  deriving DecidableEq

structure CMutableTransaction where
  nVersion : Int32
  vin : List CTxIn
  vout : List CTxOut
  nLockTime : UInt32
  deriving DecidableEq

def CTxIn.withoutWitness (txin : CTxIn) : CTxIn := { txin with scriptWitness := [] }

def CMutableTransaction.hasWitness (tx : CMutableTransaction) : Bool :=
  tx.vin.any fun txin => !txin.scriptWitness.isEmpty

def CMutableTransaction.withoutWitness (tx : CMutableTransaction) : CMutableTransaction :=
  { tx with vin := tx.vin.map CTxIn.withoutWitness }

/-- `COutPoint::SerializationOp`. -/
def outPointFormat : Format UInt8 COutPoint :=
  (uint256Format.seq uint32Format).iso (fun p => ⟨p.1, p.2⟩) (fun out => (out.hash, out.n))
    fun _ => rfl

/-- `CTxIn::SerializationOp`. -/
def txInFormat : Format UInt8 CTxIn :=
  (outPointFormat.seq (bytesFormat.seq uint32Format)).iso (fun p => ⟨p.1, p.2.1, p.2.2, []⟩)
    (fun txin => (txin.prevout, txin.scriptSig, txin.nSequence)) fun _ => rfl

/-- `CTxOut::SerializationOp`. -/
def txOutFormat : Format UInt8 CTxOut :=
  (int64Format.seq bytesFormat).iso (fun p => ⟨p.1, p.2⟩)
    (fun txout => (txout.nValue, txout.scriptPubKey)) fun _ => rfl

def vinFormat : Format UInt8 (List CTxIn) := Format.vector compactSizeFormat txInFormat

def voutFormat : Format UInt8 (List CTxOut) := Format.vector compactSizeFormat txOutFormat

/-- `CScriptWitness::stack`. -/
def stackFormat : Format UInt8 (List Bytes) := Format.vector compactSizeFormat bytesFormat

/-! ## Transactions -/

def readWitnesses : List CTxIn → CDataStream (List CTxIn)
  | [] => pure []
  | txin :: vin => do
    let stack ← stackFormat.read
    let vin ← readWitnesses vin
    return { txin with scriptWitness := stack } :: vin

/-- The end of `UnserializeTransaction`, when the witnesses have been read. -/
def readLockTime (nVersion : Int32) (flags : UInt8) (vin : List CTxIn) (vout : List CTxOut) :
    CDataStream CMutableTransaction :=
  -- Unknown transaction optional data.
  if flags ≠ 0 then CDataStream.throw
  else do
    let nLockTime ← readUInt32
    return ⟨nVersion, vin, vout, nLockTime⟩

/-- What `UnserializeTransaction` does after the inputs and the outputs. -/
def readOptional (fAllowWitness : Bool) (nVersion : Int32) (flags : UInt8) (vin : List CTxIn)
    (vout : List CTxOut) : CDataStream CMutableTransaction :=
  if flags &&& 1 ≠ 0 ∧ fAllowWitness = true then do
    let vin ← readWitnesses vin
    readLockTime nVersion (flags ^^^ 1) vin vout
  else readLockTime nVersion flags vin vout

def unserializeTransaction (fAllowWitness : Bool) : CDataStream CMutableTransaction := do
  let nVersion ← int32Format.read
  -- If the dummy is there, it is read as an empty vector.
  let vin ← vinFormat.read
  if vin.length = 0 ∧ fAllowWitness = true then do
    let flags ← CDataStream.readUInt8
    if flags ≠ 0 then do
      let vin ← vinFormat.read
      let vout ← voutFormat.read
      readOptional fAllowWitness nVersion flags vin vout
    else readOptional fAllowWitness nVersion flags vin []
  else do
    let vout ← voutFormat.read
    readOptional fAllowWitness nVersion 0 vin vout

def serializeTransaction (fAllowWitness : Bool) (tx : CMutableTransaction) : Bytes :=
  let flags : UInt8 := if fAllowWitness && tx.hasWitness then 1 else 0
  int32Format.write tx.nVersion ++
    ((if flags ≠ 0 then vinFormat.write [] ++ [flags] else []) ++
      (vinFormat.write tx.vin ++ (voutFormat.write tx.vout ++
        ((if flags &&& 1 ≠ 0 then tx.vin.flatMap fun txin => stackFormat.write txin.scriptWitness
          else []) ++ writeUInt32 tx.nLockTime))))

/-- **No length is above the limit** of `ReadCompactSize`. -/
structure CMutableTransaction.Fits (fAllowWitness : Bool) (tx : CMutableTransaction) : Prop where
  vin : tx.vin.length ≤ CDataStream.MAX_SIZE
  scriptSig : ∀ txin ∈ tx.vin, txin.scriptSig.length ≤ CDataStream.MAX_SIZE
  vout : tx.vout.length ≤ CDataStream.MAX_SIZE
  scriptPubKey : ∀ txout ∈ tx.vout, txout.scriptPubKey.length ≤ CDataStream.MAX_SIZE
  scriptWitness : fAllowWitness = true → ∀ txin ∈ tx.vin,
    txin.scriptWitness.length ≤ CDataStream.MAX_SIZE ∧
      ∀ item ∈ txin.scriptWitness, item.length ≤ CDataStream.MAX_SIZE

variable {fAllowWitness : Bool} {tx : CMutableTransaction} {vin : List CTxIn} {vout : List CTxOut}

/-! ## What the parts are -/

theorem valid_vin : vinFormat.valid vin ↔ vin.length ≤ CDataStream.MAX_SIZE ∧
    ∀ txin ∈ vin, txin.scriptSig.length ≤ CDataStream.MAX_SIZE ∧ txin.scriptWitness = [] := by
  have htxin : ∀ txin, txInFormat.valid txin ↔
      txin.scriptSig.length ≤ CDataStream.MAX_SIZE ∧ txin.scriptWitness = [] := by
    intro txin
    constructor
    · rintro ⟨⟨-, hsig, -⟩, hmake⟩
      exact ⟨hsig, (congrArg CTxIn.scriptWitness hmake).symm⟩
    · rintro ⟨hsig, hnone⟩
      obtain ⟨prevout, scriptSig, nSequence, scriptWitness⟩ := txin
      cases hnone
      exact ⟨⟨⟨⟨trivial, trivial⟩, rfl⟩, hsig, trivial⟩, rfl⟩
  exact and_congr_right fun _ => forall₂_congr fun txin _ => htxin txin

theorem valid_vout : voutFormat.valid vout ↔ vout.length ≤ CDataStream.MAX_SIZE ∧
    ∀ txout ∈ vout, txout.scriptPubKey.length ≤ CDataStream.MAX_SIZE := by
  have htxout : ∀ txout, txOutFormat.valid txout ↔
      txout.scriptPubKey.length ≤ CDataStream.MAX_SIZE := by
    intro txout
    constructor
    · rintro ⟨⟨-, hscript⟩, -⟩
      exact hscript
    · intro hscript
      exact ⟨⟨trivial, hscript⟩, rfl⟩
  exact and_congr_right fun _ => forall₂_congr fun txout _ => htxout txout

theorem write_withoutWitness (vin : List CTxIn) :
    vinFormat.write (vin.map CTxIn.withoutWitness) = vinFormat.write vin := by
  show writeCompactSize (vin.map CTxIn.withoutWitness).length ++
    (vin.map CTxIn.withoutWitness).flatMap txInFormat.write = _
  rw [List.length_map, List.flatMap_map]
  rfl

theorem reads_vin (h : tx.Fits fAllowWitness) :
    Reads vinFormat.read (vinFormat.write tx.vin) (tx.vin.map CTxIn.withoutWitness) := by
  intro rest
  rw [← write_withoutWitness]
  refine vinFormat.reads _ rest (valid_vin.2 ⟨?_, ?_⟩)
  · rw [List.length_map]
    exact h.vin
  · intro txin htxin
    obtain ⟨txin', hmem, rfl⟩ := List.mem_map.1 htxin
    exact ⟨h.scriptSig txin' hmem, rfl⟩

theorem reads_vout (h : tx.Fits fAllowWitness) :
    Reads voutFormat.read (voutFormat.write tx.vout) tx.vout :=
  fun rest => voutFormat.reads _ rest (valid_vout.2 ⟨h.vout, h.scriptPubKey⟩)

theorem reads_int32 (v : Int32) : Reads int32Format.read (int32Format.write v) v :=
  fun rest => int32Format.reads v rest ⟨trivial, rfl⟩

theorem reads_witnesses (h : ∀ txin ∈ vin, stackFormat.valid txin.scriptWitness) :
    Reads (readWitnesses (vin.map CTxIn.withoutWitness))
      (vin.flatMap fun txin => stackFormat.write txin.scriptWitness) vin := by
  induction vin with
  | nil => exact Reads.pure []
  | cons txin vin ih =>
    rw [List.forall_mem_cons] at h
    rw [List.flatMap_cons]
    exact Reads.bind (fun rest => stackFormat.reads _ rest h.1)
      ((ih h.2).thenPure fun vin => txin :: vin)

theorem reads_lockTime (nVersion : Int32) (nLockTime : UInt32) :
    Reads (readLockTime nVersion 0 vin vout) (writeUInt32 nLockTime)
      ⟨nVersion, vin, vout, nLockTime⟩ := by
  unfold readLockTime
  rw [if_neg (by decide)]
  exact (reads_uint32 nLockTime).thenPure (CMutableTransaction.mk nVersion vin vout)

theorem withoutWitness_eq_self (h : tx.hasWitness = false) : tx.withoutWitness = tx := by
  unfold CMutableTransaction.hasWitness at h
  rw [List.any_eq_false] at h
  have hvin : tx.vin.map CTxIn.withoutWitness = tx.vin := by
    refine (List.map_congr_left fun txin htxin => ?_).trans (List.map_id _)
    have hnone : txin.scriptWitness = [] := by simpa using h txin htxin
    unfold CTxIn.withoutWitness
    rw [← hnone]
    rfl
  unfold CMutableTransaction.withoutWitness
  rw [hvin]

theorem serializeTransaction_basic (h : (fAllowWitness && tx.hasWitness) = false) :
    serializeTransaction fAllowWitness tx = int32Format.write tx.nVersion ++
      (vinFormat.write tx.vin ++ (voutFormat.write tx.vout ++ writeUInt32 tx.nLockTime)) := by
  unfold serializeTransaction
  rw [h]
  rfl

theorem serializeTransaction_extended (h : (fAllowWitness && tx.hasWitness) = true) :
    serializeTransaction fAllowWitness tx = int32Format.write tx.nVersion ++
      (vinFormat.write [] ++ ([1] ++ (vinFormat.write tx.vin ++ (voutFormat.write tx.vout ++
        ((tx.vin.flatMap fun txin => stackFormat.write txin.scriptWitness) ++
          writeUInt32 tx.nLockTime))))) := by
  unfold serializeTransaction
  rw [h]
  rfl

/-- **What is written is read back**, in the mode without witnesses as the transaction without its
witness data. -/
theorem reads_transaction (hvin : tx.vin ≠ []) (h : tx.Fits fAllowWitness) :
    Reads (unserializeTransaction fAllowWitness) (serializeTransaction fAllowWitness tx)
      (if fAllowWitness then tx else tx.withoutWitness) := by
  unfold unserializeTransaction
  cases hwitness : fAllowWitness && tx.hasWitness with
  | false =>
    have hresult : (if fAllowWitness then tx else tx.withoutWitness) = tx.withoutWitness := by
      cases fAllowWitness with
      | false => rfl
      | true => exact (withoutWitness_eq_self hwitness).symm
    have hne : ¬ ((tx.vin.map CTxIn.withoutWitness).length = 0 ∧ fAllowWitness = true) := by
      rintro ⟨hlen, -⟩
      rw [List.length_map, List.length_eq_zero_iff] at hlen
      exact hvin hlen
    rw [hresult, serializeTransaction_basic hwitness]
    refine (reads_int32 _).bind ((reads_vin h).bind ?_)
    rw [if_neg hne]
    refine (reads_vout h).bind ?_
    unfold readOptional
    rw [if_neg (by simp)]
    exact reads_lockTime _ _
  | true =>
    obtain ⟨rfl, hhas⟩ := Bool.and_eq_true_iff.1 hwitness
    have hdummy : Reads vinFormat.read (vinFormat.write []) [] :=
      fun rest => vinFormat.reads _ rest (valid_vin.2 ⟨Nat.zero_le _, by simp⟩)
    rw [if_pos rfl, serializeTransaction_extended hwitness]
    refine (reads_int32 _).bind (hdummy.bind ?_)
    rw [if_pos ⟨rfl, rfl⟩]
    refine (reads_uint8 1).bind ?_
    rw [if_pos (by decide)]
    refine (reads_vin h).bind ((reads_vout h).bind ?_)
    unfold readOptional
    rw [if_pos (by decide)]
    exact (reads_witnesses fun txin htxin => h.scriptWitness rfl txin htxin).bind
      (reads_lockTime _ _)

/-! ## From the bytes to the transaction -/

/-- The bytes begin like the extended format: a version, an empty vector and a byte of flags. -/
def IsExtended (s : Bytes) : Prop := s[4]? = some 0 ∧ ∃ flags, s[5]? = some flags ∧ flags ≠ 0

theorem readLockTime_only {nVersion : Int32} {flags : UInt8} {s rest : Bytes}
    (h : readLockTime nVersion flags vin vout s = some (tx, rest)) :
    flags = 0 ∧ ∃ nLockTime, tx = ⟨nVersion, vin, vout, nLockTime⟩ ∧
      s = writeUInt32 nLockTime ++ rest := by
  unfold readLockTime at h
  split at h
  · cases h
  · rename_i hflags
    obtain ⟨⟨nLockTime, t⟩, hread, hreturn⟩ := Option.bind_eq_some_iff.1 h
    cases hreturn
    exact ⟨not_not.1 hflags, nLockTime, rfl, (uint32Format.only _ _ _ hread).2⟩

theorem readWitnesses_only {vin' : List CTxIn} {s rest : Bytes}
    (h : readWitnesses vin s = some (vin', rest)) :
    vinFormat.write vin' = vinFormat.write vin ∧
      s = (vin'.flatMap fun txin => stackFormat.write txin.scriptWitness) ++ rest := by
  suffices hmap : vin'.map CTxIn.withoutWitness = vin.map CTxIn.withoutWitness ∧
      s = (vin'.flatMap fun txin => stackFormat.write txin.scriptWitness) ++ rest by
    refine ⟨?_, hmap.2⟩
    rw [← write_withoutWitness, hmap.1, write_withoutWitness]
  induction vin generalizing vin' s with
  | nil =>
    cases h
    exact ⟨rfl, rfl⟩
  | cons txin vin ih =>
    obtain ⟨⟨stack, t⟩, hstack, h'⟩ := Option.bind_eq_some_iff.1 h
    obtain ⟨⟨vin'', u⟩, hrest, hreturn⟩ := Option.bind_eq_some_iff.1 h'
    cases hreturn
    obtain ⟨hsame, ht⟩ := ih hrest
    obtain ⟨-, hs⟩ := stackFormat.only _ _ _ hstack
    refine ⟨?_, ?_⟩
    · rw [List.map_cons, List.map_cons, hsame]
      rfl
    · rw [hs, List.flatMap_cons, List.append_assoc]
      exact congrArg _ ht

def basicBody (tx : CMutableTransaction) : Bytes :=
  vinFormat.write tx.vin ++ (voutFormat.write tx.vout ++ writeUInt32 tx.nLockTime)

/-- What follows the dummy and the flags in the extended format. -/
def extendedBody (tx : CMutableTransaction) : Bytes :=
  vinFormat.write tx.vin ++ (voutFormat.write tx.vout ++
    ((tx.vin.flatMap fun txin => stackFormat.write txin.scriptWitness) ++
      writeUInt32 tx.nLockTime))

theorem hasWitness_read {s rest : Bytes} (h : vinFormat.read s = some (vin, rest))
    (nVersion : Int32) (nLockTime : UInt32) :
    (CMutableTransaction.mk nVersion vin vout nLockTime).hasWitness = false := by
  obtain ⟨hvalid, -⟩ := vinFormat.only _ _ _ h
  unfold CMutableTransaction.hasWitness
  rw [List.any_eq_false]
  intro txin htxin
  rw [((valid_vin.1 hvalid).2 txin htxin).2]
  simp

/-- **The two ways to be read**: as the basic format of a transaction without witness data, or as
the extended format of any transaction. -/
theorem unserializeTransaction_only {s rest : Bytes}
    (h : unserializeTransaction fAllowWitness s = some (tx, rest)) :
    (tx.hasWitness = false ∧ (tx.vin = [] → fAllowWitness = true → tx.vout = []) ∧
      s = int32Format.write tx.nVersion ++ (basicBody tx ++ rest)) ∨
    (fAllowWitness = true ∧
      s = int32Format.write tx.nVersion ++ ([0, 1] ++ (extendedBody tx ++ rest))) := by
  obtain ⟨⟨nVersion, s₁⟩, hversion, hbody⟩ := Option.bind_eq_some_iff.1 h
  obtain ⟨⟨vin, s₂⟩, hvin, hbranch⟩ := Option.bind_eq_some_iff.1 hbody
  obtain ⟨-, rfl⟩ := int32Format.only _ _ _ hversion
  obtain ⟨-, rfl⟩ := vinFormat.only _ _ _ hvin
  dsimp only at hbranch
  split at hbranch
  · rename_i hdummy
    obtain ⟨hempty, hallow⟩ := hdummy
    obtain rfl := List.length_eq_zero_iff.1 hempty
    obtain ⟨⟨flags, s₃⟩, hflags, hrest⟩ := Option.bind_eq_some_iff.1 hbranch
    obtain ⟨-, rfl⟩ := uint8Format.only _ _ _ hflags
    dsimp only at hrest
    split at hrest
    · -- The extended format.
      obtain ⟨⟨vin', s₄⟩, hvin', hvouts⟩ := Option.bind_eq_some_iff.1 hrest
      obtain ⟨⟨vout, s₅⟩, hvout, hoptional⟩ := Option.bind_eq_some_iff.1 hvouts
      obtain ⟨-, rfl⟩ := vinFormat.only _ _ _ hvin'
      obtain ⟨-, rfl⟩ := voutFormat.only _ _ _ hvout
      rename_i hne
      dsimp only at hoptional
      unfold readOptional at hoptional
      split at hoptional
      · obtain ⟨⟨vin'', s₆⟩, hwitness, hlock⟩ := Option.bind_eq_some_iff.1 hoptional
        obtain ⟨hsame, rfl⟩ := readWitnesses_only hwitness
        obtain ⟨hknown, nLockTime, rfl, rfl⟩ := readLockTime_only hlock
        have hone : flags = 1 := by simpa using hknown
        subst hone
        refine Or.inr ⟨hallow, ?_⟩
        unfold extendedBody
        rw [hsame, List.append_assoc, List.append_assoc, List.append_assoc]
        rfl
      · obtain ⟨hzero, -⟩ := readLockTime_only hoptional
        exact absurd hzero hne
    · -- No input at all.
      rename_i hzero
      obtain rfl : flags = 0 := not_not.1 hzero
      unfold readOptional at hrest
      rw [if_neg (by simp)] at hrest
      obtain ⟨-, nLockTime, rfl, rfl⟩ := readLockTime_only hrest
      exact Or.inl ⟨rfl, fun _ _ => rfl, rfl⟩
  · rename_i hbasic
    obtain ⟨⟨vout, s₃⟩, hvout, hrest⟩ := Option.bind_eq_some_iff.1 hbranch
    obtain ⟨-, rfl⟩ := voutFormat.only _ _ _ hvout
    dsimp only at hrest
    unfold readOptional at hrest
    rw [if_neg (by simp)] at hrest
    obtain ⟨-, nLockTime, rfl, rfl⟩ := readLockTime_only hrest
    refine Or.inl ⟨hasWitness_read hvin nVersion nLockTime, ?_, ?_⟩
    · intro hnone hallow
      exact absurd ⟨List.length_eq_zero_iff.2 hnone, hallow⟩ hbasic
    · unfold basicBody
      rw [List.append_assoc, List.append_assoc]

theorem getElem?_body (v : Int32) (body : Bytes) (i : ℕ) :
    (int32Format.write v ++ body)[4 + i]? = body[i]? := by
  have hlen : (int32Format.write v).length = 4 := length_writeLE 4 _
  rw [List.getElem?_append_right (by rw [hlen]; omega), hlen, Nat.add_sub_cancel_left]

theorem head_writeCompactSize {n : ℕ} (h : (writeCompactSize n)[0]? = some 0) : n = 0 := by
  unfold writeCompactSize at h
  split at h
  · rename_i hsmall
    have hbyte : UInt8.ofNat n = 0 := by simpa using h
    have hnat := congrArg UInt8.toNat hbyte
    rw [UInt8.toNat_ofNat_of_lt' (by show n < 256; omega)] at hnat
    exact hnat
  · split at h
    · simp at h
    · split at h <;> simp at h

theorem writeCompactSize_ne_nil (n : ℕ) : writeCompactSize n ≠ [] := by
  unfold writeCompactSize
  split
  · simp
  · split
    · simp
    · split <;> simp

theorem not_isExtended {rest : Bytes} (h : tx.vin = [] → tx.vout = []) :
    ¬ IsExtended (int32Format.write tx.nVersion ++ (basicBody tx ++ rest)) := by
  rintro ⟨hdummy, flags, hflags, hne⟩
  rw [getElem?_body _ _ 0] at hdummy
  rw [getElem?_body _ _ 1] at hflags
  have hcount : (writeCompactSize tx.vin.length)[0]? = some 0 := by
    have hpos := List.length_pos_of_ne_nil (writeCompactSize_ne_nil tx.vin.length)
    rw [← hdummy]
    show _ = (writeCompactSize tx.vin.length ++ tx.vin.flatMap txInFormat.write ++ _ ++ rest)[0]?
    rw [List.append_assoc, List.append_assoc, List.getElem?_append_left hpos]
  have hvin := List.length_eq_zero_iff.1 (head_writeCompactSize hcount)
  unfold basicBody at hflags
  rw [hvin, h hvin] at hflags
  cases hflags
  exact hne rfl

/-- **What is read is what would be written, unless** it is the extended format of a transaction
without witness data. -/
theorem unserializeTransaction_eq {s rest : Bytes}
    (h : unserializeTransaction fAllowWitness s = some (tx, rest)) :
    s = serializeTransaction fAllowWitness tx ++ rest ↔
      ¬ (fAllowWitness = true ∧ IsExtended s ∧ tx.hasWitness = false) := by
  obtain ⟨hnone, hvin, rfl⟩ | ⟨rfl, rfl⟩ := unserializeTransaction_only h
  · have hbasic : (fAllowWitness && tx.hasWitness) = false := by rw [hnone, Bool.and_false]
    rw [serializeTransaction_basic hbasic, List.append_assoc]
    refine ⟨?_, fun _ => rfl⟩
    rintro - ⟨hallow, hextended, -⟩
    exact not_isExtended (fun hempty => hvin hempty hallow) hextended
  · have hextended : IsExtended (int32Format.write tx.nVersion ++
        ([0, 1] ++ (extendedBody tx ++ rest))) := by
      exact ⟨getElem?_body _ _ 0, 1, getElem?_body _ _ 1, by decide⟩
    cases hwitness : tx.hasWitness with
    | true =>
      rw [serializeTransaction_extended (by rw [hwitness]; rfl), List.append_assoc]
      refine ⟨fun _ => by simp, fun _ => ?_⟩
      unfold extendedBody
      rfl
    | false =>
      refine ⟨fun heq => ?_, fun hnot => absurd ⟨rfl, hextended, rfl⟩ hnot⟩
      -- The bytes are longer than those of the basic format.
      rw [serializeTransaction_basic (by rw [hwitness]; rfl), List.append_assoc] at heq
      have hlen := congrArg List.length heq
      unfold extendedBody at hlen
      simp only [List.length_append, List.length_cons, List.length_nil] at hlen
      omega

/-- **The wire format.**  What is written is read back, and what is read is what would be written,
unless it is the extended format of a transaction without witness data; so no two other encodings
denote one transaction. -/
theorem transaction_format (fAllowWitness : Bool) (tx : CMutableTransaction) (rest : Bytes) :
    (tx.vin ≠ [] → tx.Fits fAllowWitness →
      unserializeTransaction fAllowWitness (serializeTransaction fAllowWitness tx ++ rest) =
        some (if fAllowWitness then tx else tx.withoutWitness, rest)) ∧
    (∀ s, unserializeTransaction fAllowWitness s = some (tx, rest) →
      (s = serializeTransaction fAllowWitness tx ++ rest ↔
        ¬ (fAllowWitness = true ∧ IsExtended s ∧ tx.hasWitness = false))) ∧
    ∀ s t, unserializeTransaction fAllowWitness s = some (tx, rest) →
      unserializeTransaction fAllowWitness t = some (tx, rest) →
      ¬ (fAllowWitness = true ∧ (IsExtended s ∨ IsExtended t) ∧ tx.hasWitness = false) → s = t := by
  refine ⟨fun hvin hfits => reads_transaction hvin hfits rest,
    fun s hs => unserializeTransaction_eq hs, ?_⟩
  intro s t hs ht hnot
  have hs' := (unserializeTransaction_eq hs).2 fun h => hnot ⟨h.1, Or.inl h.2.1, h.2.2⟩
  have ht' := (unserializeTransaction_eq ht).2 fun h => hnot ⟨h.1, Or.inr h.2.1, h.2.2⟩
  exact hs'.trans ht'.symm

/-- A transaction with one input, which has the given witness. -/
def oneInput (scriptWitness : List Bytes) : CMutableTransaction :=
  ⟨1, [⟨⟨0, 0⟩, [], 0xffffffff, scriptWitness⟩], [⟨5, [0x51]⟩], 0⟩

/-- The extended format of the transaction without witness data. -/
def superfluous : Bytes :=
  int32Format.write 1 ++ ([0, 1] ++ extendedBody (oneInput []))

/-- The witness comes back with its input. -/
theorem transaction_format_witness :
    unserializeTransaction true (serializeTransaction true (oneInput [[7]]) ++ [9]) =
      some (oneInput [[7]], [9]) :=
  (transaction_format true (oneInput [[7]]) [9]).1 (by decide)
    ⟨by decide, by decide, by decide, by decide, by decide⟩

/-- **Two encodings of one transaction**: the extended one is read, and never written. -/
theorem superfluousWitness_accepted :
    unserializeTransaction true superfluous = some (oneInput [], []) ∧
    unserializeTransaction true (serializeTransaction true (oneInput [])) =
      some (oneInput [], []) ∧
    superfluous ≠ serializeTransaction true (oneInput []) := by
  decide +kernel

end Wire

end UnemployCoin
