import Mathlib.Algebra.Order.Ring.Int
import Mathlib.Tactic.Common
import UnemployCoin.Bytes
/-!
# What has been written is read back

`Reads r s a` says that a reader `r` takes exactly the bytes `s` from the front of any stream and
makes `a` of them.  A reader for a record is put together from readers for its fields, and so is
the proof about it, by `Reads.bind` and `Reads.pure`.
-/

namespace UnemployCoin

/-- A reader that takes exactly some bytes from the front of a stream. -/
def Reads {α : Type} (r : CDataStream α) (s : Bytes) (a : α) : Prop :=
  ∀ rest, r (s ++ rest) = some (a, rest)

section Reads

variable {α β : Type} {r : CDataStream α} {s t : Bytes} {a : α} {b : β}

theorem Reads.pure (a : α) : Reads (Pure.pure a) [] a := by
  intro rest
  rfl

theorem Reads.bind {f : α → CDataStream β} (hr : Reads r s a) (hf : Reads (f a) t b) :
    Reads (r >>= f) (s ++ t) b := by
  intro rest
  have hfirst : r (s ++ (t ++ rest)) = some (a, t ++ rest) := hr (t ++ rest)
  have hstep : (r >>= f) (s ++ (t ++ rest)) = (r (s ++ (t ++ rest))).bind fun p => f p.1 p.2 := rfl
  rw [List.append_assoc, hstep, hfirst, Option.bind_some]
  exact hf rest

theorem Reads.thenPure (hr : Reads r s a) (f : α → β) :
    Reads (r >>= fun x => Pure.pure (f x)) s (f a) := by
  have h := hr.bind (f := fun x => Pure.pure (f x)) (Reads.pure (f a))
  rw [List.append_nil] at h
  exact h

theorem Reads.map (hr : Reads r s a) (f : α → β) : Reads (f <$> r) s (f a) := by
  intro rest
  have hstep : (f <$> r) (s ++ rest) = (r (s ++ rest)).bind fun p => some (f p.1, p.2) := rfl
  rw [hstep, hr rest]
  rfl

theorem Reads.read (hr : Reads r s a) (rest : Bytes) : r.read (s ++ rest) = some a := by
  rw [CDataStream.read, hr rest]
  rfl

/-- A reader that takes exactly some bytes from the front of a stream, where fewer than `n` bytes
follow: what stands at the end of a record may be missing. -/
def ReadsBefore (n : ℕ) (r : CDataStream α) (s : Bytes) (a : α) : Prop :=
  ∀ rest : Bytes, rest.length < n → r (s ++ rest) = some (a, rest)

theorem Reads.before (hr : Reads r s a) (n : ℕ) : ReadsBefore n r s a := fun rest _ => hr rest

theorem Reads.bindBefore {n : ℕ} {f : α → CDataStream β} (hr : Reads r s a)
    (hf : ReadsBefore n (f a) t b) : ReadsBefore n (r >>= f) (s ++ t) b := by
  intro rest hrest
  have hfirst : r (s ++ (t ++ rest)) = some (a, t ++ rest) := hr (t ++ rest)
  have hstep : (r >>= f) (s ++ (t ++ rest)) = (r (s ++ (t ++ rest))).bind fun p => f p.1 p.2 := rfl
  rw [List.append_assoc, hstep, hfirst, Option.bind_some]
  exact hf rest hrest

theorem ReadsBefore.thenPure {n : ℕ} (hr : ReadsBefore n r s a) (f : α → β) :
    ReadsBefore n (r >>= fun x => Pure.pure (f x)) s (f a) := by
  intro rest hrest
  have hstep : (r >>= fun x => Pure.pure (f x)) (s ++ rest) =
      (r (s ++ rest)).bind fun p => some (f p.1, p.2) := rfl
  rw [hstep, hr rest hrest]
  rfl

theorem ReadsBefore.read {n : ℕ} (hr : ReadsBefore n r s a) {rest : Bytes} (h : rest.length < n) :
    r.read (s ++ rest) = some a := by
  rw [CDataStream.read, hr rest h]
  rfl

end Reads

@[simp] theorem length_writeLE (n v : ℕ) : (writeLE n v).length = n := by
  induction n generalizing v with
  | zero => rfl
  | succ n ih => rw [writeLE, List.length_cons, ih]

theorem readLE_writeLE (n v : ℕ) : readLE (writeLE n v) = v % 256 ^ n := by
  induction n generalizing v with
  | zero => rw [writeLE, readLE, Nat.pow_zero, Nat.mod_one]
  | succ n ih =>
    have hbyte : (UInt8.ofNat (v % 256)).toNat = v % 256 := by
      rw [UInt8.toNat_ofNat']
      exact Nat.mod_mod v 256
    rw [writeLE, readLE, hbyte, ih, Nat.pow_succ', Nat.mod_mul]

theorem readLE_writeLE_of_lt {n v : ℕ} (h : v < 256 ^ n) : readLE (writeLE n v) = v := by
  rw [readLE_writeLE, Nat.mod_eq_of_lt h]

/-! ## Fields -/

theorem reads_bytes (s : Bytes) : Reads (CDataStream.readBytes s.length) s s := by
  intro rest
  rw [CDataStream.readBytes, if_neg (by rw [List.length_append]; omega), List.take_left,
    List.drop_left]

theorem reads_uint8 (b : UInt8) : Reads CDataStream.readUInt8 [b] b :=
  (reads_bytes [b]).thenPure fun b => Bytes.at b 0

theorem reads_int8 (v : Int8) : Reads CDataStream.readInt8 (writeInt8 v) v :=
  (reads_uint8 v.toUInt8).thenPure UInt8.toInt8

theorem reads_writeLE (n v : ℕ) :
    Reads (CDataStream.readBytes n) (writeLE n v) (writeLE n v) := by
  have h := reads_bytes (writeLE n v)
  rw [length_writeLE] at h
  exact h

theorem int64_ofNat_toNat (v : Int64) : Int64.ofNat v.toUInt64.toNat = v := by
  refine Int64.toBitVec.inj ?_
  rw [Int64.toBitVec_ofNat']
  exact (BitVec.ofNat_toNat 64 v.toBitVec).trans (BitVec.setWidth_eq v.toBitVec)

theorem reads_int64 (v : Int64) : Reads CDataStream.readInt64 (writeInt64 v) v := by
  have hlt : v.toUInt64.toNat < 256 ^ 8 := v.toUInt64.toNat_lt
  have h := (reads_writeLE 8 v.toUInt64.toNat).thenPure fun b => Int64.ofNat (readLE b)
  rw [readLE_writeLE_of_lt hlt, int64_ofNat_toNat] at h
  exact h

/-! ## Strings -/

theorem toNat_ofNat_of_lt {n : ℕ} (h : n < 256) : (UInt8.ofNat n).toNat = n := by
  rw [UInt8.toNat_ofNat']
  exact Nat.mod_eq_of_lt h

/-- The last test of `ReadCompactSize`. -/
def limitSize (n : ℕ) : CDataStream ℕ :=
  if n > CDataStream.MAX_SIZE then CDataStream.throw else pure n

theorem reads_limitSize {n : ℕ} (h : n ≤ CDataStream.MAX_SIZE) : Reads (limitSize n) [] n := by
  rw [limitSize, if_neg (Nat.not_lt.2 h)]
  exact Reads.pure n

theorem reads_length {k least n : ℕ} (hn : n < 256 ^ k) (hleast : least ≤ n)
    (hmax : n ≤ CDataStream.MAX_SIZE) :
    Reads (CDataStream.readBytes k >>= fun b =>
      if readLE b < least then CDataStream.throw >>= limitSize
      else pure (readLE b) >>= limitSize) (writeLE k n) n := by
  have hread : Reads (if readLE (writeLE k n) < least then CDataStream.throw >>= limitSize
      else pure (readLE (writeLE k n)) >>= limitSize) [] n := by
    rw [readLE_writeLE_of_lt hn, if_neg (Nat.not_lt.2 hleast)]
    exact (Reads.pure n).bind (reads_limitSize hmax)
  have h := (reads_writeLE k n).bind (f := fun b =>
    if readLE b < least then CDataStream.throw >>= limitSize
    else Pure.pure (readLE b) >>= limitSize) hread
  rw [List.append_nil] at h
  exact h

/-- **A length is read back, in whichever form it has.** -/
theorem reads_compactSize {n : ℕ} (h : n ≤ CDataStream.MAX_SIZE) :
    Reads CDataStream.readCompactSize (writeCompactSize n) n := by
  have hmax : n < 256 ^ 4 := Nat.lt_of_le_of_lt h (by decide)
  rw [writeCompactSize]
  split
  · rename_i hsmall
    have hbyte : (UInt8.ofNat n).toNat = n := toNat_ofNat_of_lt (by omega)
    refine (reads_uint8 (UInt8.ofNat n)).bind (t := []) ?_
    rw [hbyte, if_pos hsmall]
    exact (Reads.pure n).bind (reads_limitSize h)
  · rename_i hsmall
    split
    · rename_i htwo
      refine (reads_uint8 253).bind (t := writeLE 2 n) ?_
      exact @reads_length 2 253 n (by omega) (by omega) h
    · rename_i htwo
      split
      · refine (reads_uint8 254).bind (t := writeLE 4 n) ?_
        exact @reads_length 4 0x10000 n hmax (by omega) h
      · rename_i hfour
        exact absurd (by omega : n ≤ 0xffffffff) hfour

/-- **A string is read back.** -/
theorem reads_string {s : Bytes} (h : s.length ≤ CDataStream.MAX_SIZE) :
    Reads CDataStream.readString (writeString s) s :=
  (reads_compactSize h).bind (reads_bytes s)

end UnemployCoin
